import MeshNetwork.Agreement
import MeshNetwork.Rest

set_option autoImplicit false

namespace MeshNetwork
open Runs

namespace Session
variable {K B : Type}

theorem abort_failing (task : TaskId) (x : Session K B) : (x.abort task).failing = x.failing := by
  unfold abort
  split <;> rfl

theorem closeChannel_failing (task : TaskId) (x : Session K B) :
    (x.closeChannel task).failing = x.failing := by
  unfold closeChannel
  split <;> rfl

theorem push_failing (task : TaskId) (packet : B) (x : Session K B) :
    (x.push task packet).failing = x.failing := by
  unfold push
  split <;> rfl

theorem pop_failing (task : TaskId) (x : Session K B) : (x.pop task).failing = x.failing := by
  unfold pop
  split <;> rfl

theorem fail_failing {task : TaskId} {x : Session K B} (h : x.task ≠ task) :
    (x.fail task).failing = x.failing := by simp [fail,h]

end Session

namespace Manager
variable {K B : Type} [LinearOrder K]

structure Unreported (m : Manager K B) : Prop where
  queue : m.rxFromTasks = []
  accepts : m.accepts = []
  dials : ∀ d ∈ m.dials, d.ready = none
  sessions : ∀ x ∈ m.sessions, x.failing = false

omit [LinearOrder K] in
theorem failing_map {l : List (Session K B)} {f : Session K B → Session K B}
    (h : ∀ x ∈ l, x.failing = false) (hf : ∀ x, (f x).failing = x.failing) :
    ∀ x ∈ l.map f, x.failing = false := by
  intro x hx
  obtain ⟨y,hy,rfl⟩ := List.mem_map.mp hx
  rw [hf y]
  exact h y hy

theorem perform_failing {m : Manager K B} (h : ∀ x ∈ m.sessions, x.failing = false)
    (e : Effect K B) : ∀ x ∈ (m.perform e).sessions, x.failing = false := by
  have hinsert : ∀ k state, ∀ x ∈ (m.insertState k state).sessions, x.failing = false := by
    intro k state
    simp only [insertState]
    split
    · exact failing_map h (Session.closeChannel_failing _)
    · exact h
  cases e with
  | abort task => exact failing_map h (Session.abort_failing task)
  | trySend task packet pubKey =>
    simp only [perform]
    repeat' split
    · exact failing_map h (Session.push_failing task packet)
    · exact h
    · exact h
  | spawnSession conn =>
    intro x hx
    rcases List.mem_cons.mp hx with rfl | hold
    · rfl
    · exact hinsert _ _ x hold
  | spawnDial k => exact hinsert k (.connecting m.nextTask)
  | insertWaiting k => exact hinsert k .waitingIncomingConnection
  | insertDisconnected k => exact hinsert k .disconnected
  | _ => exact h

theorem perform_ready {m : Manager K B} (h : ∀ d ∈ m.dials, d.ready = none) (e : Effect K B) :
    ∀ d ∈ (m.perform e).dials, d.ready = none := by
  cases e with
  | abort task =>
    intro d hd
    obtain ⟨d',hd',rfl⟩ := List.mem_map.mp hd
    unfold Dial.abort
    split
    · exact h d' hd'
    · exact h d' hd'
  | trySend task packet pubKey =>
    simp only [perform]
    repeat' split
    all_goals exact h
  | spawnDial k =>
    intro d hd
    rcases List.mem_cons.mp hd with rfl | hold
    · rfl
    · exact h d hold
  | _ => exact h

theorem Unreported.perform {m : Manager K B} (h : m.Unreported) (e : Effect K B) :
    (m.perform e).Unreported where
  queue := (m.perform_rxFromTasks e).trans h.queue
  accepts := (m.perform_accepts e).trans h.accepts
  dials := perform_ready h.dials e
  sessions := perform_failing h.sessions e

theorem Unreported.carryOut {m : Manager K B} (h : m.Unreported) (effects : List (Effect K B)) :
    (m.carryOut effects).Unreported := by
  have hall : (effects.foldl Manager.perform m).Unreported := by
    induction effects generalizing m with
    | nil => exact h
    | cons e rest ih => exact ih (h.perform e)
  exact ⟨hall.queue,hall.accepts,hall.dials,hall.sessions⟩

theorem perform_setPc (m : Manager K B) (pc : List (Effect K B)) (e : Effect K B) :
    (m.setPc pc).perform e = (m.perform e).setPc pc := by
  cases e with
  | trySend task packet pubKey =>
    simp only [perform,setPc]
    cases m.sessions.find? fun s => s.task = task with
    | none => rfl
    | some s => by_cases hroom : s.packetChannel.length < m.channelCapacity <;> simp only [hroom] <;> rfl
  | _ => rfl

theorem carryOut_setPc (m : Manager K B) (pc effects : List (Effect K B)) :
    (m.setPc pc).carryOut effects = m.carryOut effects := by
  have hfold : effects.foldl perform (m.setPc pc) = (effects.foldl perform m).setPc pc := by
    induction effects generalizing m with
    | nil => rfl
    | cons e rest ih =>
      rw [List.foldl_cons,List.foldl_cons,perform_setPc]
      exact ih (m.perform e)
  rw [carryOut,hfold]
  rfl

end Manager

namespace Node
variable {K : Type} [LinearOrder K]

theorem one_step {ok : Node K → NodeAct K → Prop} {n : Node K} {a : NodeAct K} (hok : ok n a)
    (hen : n.enabled a) : Run system ok n (n.next a) (n.shows a) := Run.single (S := system) a hok hen

theorem then_step {cfg : Config K} {n : Node K} {tr : List (NodeObs K)} {a : NodeAct K}
    (run : Run system anyStep (start cfg) n tr) (hen : n.enabled a) :
    Run system anyStep (start cfg) (n.next a) (tr ++ n.shows a) := .snoc a run trivial hen

omit [LinearOrder K] in
theorem posts_effect {n : Node K} {e : Effect K Packet} {rest : List (Effect K Packet)}
    (hpc : n.manager.pc = e :: rest) : n.posts .effect = sends [e] := by
  simp only [posts,hpc]
  cases e <;> rfl

theorem effects_run (effects : List (Effect K Packet)) {n : Node K} (hpc : n.manager.pc = effects)
    (room : n.toCoord.length + (sends effects).length ≤ n.cfg.coordCapacity) :
    ∃ os, Run system Inner n { n with
      manager := n.manager.carryOut effects, toCoord := n.toCoord ++ sends effects } os := by
  induction effects generalizing n with
  | nil =>
    have hm : n.manager.carryOut [] = n.manager := by
      rw [Manager.carryOut,List.foldl_nil,Manager.setPc,← hpc]
    simp only [hm,sends,List.filterMap_nil,List.append_nil]
    exact ⟨[],.nil⟩
  | cons e rest ih =>
    have hposts := posts_effect hpc
    have hsplit : sends (e :: rest) = sends [e] ++ sends rest := by
      rw [sends,sends,sends,← List.filterMap_append,List.singleton_append]
    have hen : n.enabled (.manager .effect) := by
      refine ⟨by simp [Manager.enabled,hpc],?_⟩
      change n.posts .effect = [] ∨ _
      rw [hposts]
      cases hs : sends [e] with
      | nil => exact .inl rfl
      | cons event l =>
        right
        rw [hsplit,hs] at room
        simp only [List.cons_append,List.length_cons] at room
        omega
    let m : Node K := n.next (.manager .effect)
    have hmanager : m.manager = (n.manager.perform e).setPc rest := by
      simp only [m,next,Manager.next,hpc]
    have hcoord : m.toCoord = n.toCoord ++ sends [e] := by
      simp only [m,next,hposts]
    obtain ⟨os,run⟩ := ih (n := m) (by rw [hmanager]; rfl) (by
      rw [hcoord,List.length_append]
      rw [hsplit,List.length_append] at room
      change _ ≤ n.cfg.coordCapacity
      omega)
    rw [hmanager,hcoord,Manager.carryOut_setPc,List.append_assoc,← hsplit] at run
    have inner : n.Inner (.manager .effect) := rfl
    exact ⟨_,(one_step inner hen).trans run⟩

structure Calm (iroh : Iroh K) (n : Node K) : Prop where
  table : n.manager.iroh = iroh
  passes : ∀ e ∈ n.manager.pc,
    (∃ task packet pubKey, e = .trySend task packet pubKey) ∨
      ∃ packet pubKey, e = .dropPacket packet pubKey
  unreported : n.manager.Unreported
  toIroh : ∀ a ∈ n.toIroh, ∃ packet pubKey, a = .sendPacketTo packet pubKey

theorem Calm.task {iroh : Iroh K} {n : Node K} (h : Calm iroh n) {act : Act K Packet}
    (inner : act.fromOutside = false) (hen : n.manager.enabled act) :
    (n.manager.next act).Unreported ∧ (n.manager.next act).iroh = iroh ∧
      ∀ e ∈ (n.manager.next act).pc, e ∈ n.manager.pc := by
  have hu := h.unreported
  cases act with
  | recvTask =>
    obtain ⟨-,q,hq,-⟩ := hen
    simp [hu.queue] at hq
  | effect =>
    cases hpc : n.manager.pc with
    | nil => exact absurd hpc hen
    | cons e rest =>
      simp only [Manager.next,hpc]
      have hperform := hu.perform e
      refine ⟨⟨hperform.queue,hperform.accepts,hperform.dials,hperform.sessions⟩,?_,
        fun x hx => List.mem_cons_of_mem _ hx⟩
      rcases h.passes e (by simp [hpc]) with ⟨task,packet,pubKey,rfl⟩ | ⟨packet,pubKey,rfl⟩
      · exact (n.manager.trySend_frame task packet pubKey).1.trans h.table
      · exact h.table
  | reportDial d =>
    obtain ⟨hd,hready,-⟩ := hen
    exact absurd (hu.dials d hd) hready
  | cancelDial d =>
    exact ⟨⟨hu.queue,hu.accepts,fun x hx => hu.dials x (List.mem_of_mem_erase hx),hu.sessions⟩,
      h.table,fun _ he => he⟩
  | reportAccept c =>
    have := hen.1
    simp [hu.accepts] at this
  | sendDatagram s outcome =>
    have hpop := Manager.failing_map hu.sessions (Session.pop_failing s.task)
    cases outcome with
    | failed => simp [Act.fromOutside] at inner
    | sent => exact ⟨⟨hu.queue,hu.accepts,hu.dials,hpop⟩,h.table,fun _ he => he⟩
    | tooLarge => exact ⟨⟨hu.queue,hu.accepts,hu.dials,hpop⟩,h.table,fun _ he => he⟩
  | reportSession s =>
    have := hu.sessions s hen.1
    simp [hen.2.1] at this
  | channelClosed s =>
    exact ⟨⟨hu.queue,hu.accepts,hu.dials,fun x hx => hu.sessions x (List.mem_filter.mp hx).1⟩,
      h.table,fun _ he => he⟩
  | cancelSession s =>
    exact ⟨⟨hu.queue,hu.accepts,hu.dials,fun x hx => hu.sessions x (List.mem_filter.mp hx).1⟩,
      h.table,fun _ he => he⟩
  | _ => simp [Act.fromOutside] at inner

theorem Calm.next {iroh : Iroh K} {n : Node K} (h : Calm iroh n) {a : NodeAct K}
    (inner : n.Inner a) (hen : n.enabled a)
    (requests : ∀ x ∈ (n.next a).toIroh, ∃ packet pubKey, x = .sendPacketTo packet pubKey) :
    Calm iroh (n.next a) := by
  have hm := moved hen
  generalize n.next a = n' at hm requests
  generalize n.shows a = os at hm
  cases hm with
  | tunRead data => exact absurd inner id
  | coordAction hand =>
    rw [handleAction_eq] at requests ⊢
    exact ⟨h.table,h.passes,h.unreported,requests⟩
  | @managerCore action rest idle queue =>
    obtain ⟨packet,pubKey,rfl⟩ := h.toIroh action (by simp [queue])
    have hu := h.unreported
    refine ⟨h.table,fun e he => ?_,⟨hu.queue,hu.accepts,hu.dials,hu.sessions⟩,requests⟩
    change e ∈ n.manager.iroh.handleCoreEvent (.sendPacketTo packet pubKey) at he
    have hr := Iroh.coreReaction n.manager.iroh (.sendPacketTo packet pubKey)
    generalize n.manager.iroh.handleCoreEvent (.sendPacketTo packet pubKey) = effects at he hr
    cases hr with
    | passed p k task conn hl => exact .inl ⟨task,packet,pubKey,List.mem_singleton.mp he⟩
    | dropped p k hc => exact .inr ⟨packet,pubKey,List.mem_singleton.mp he⟩
  | manager hact own =>
    obtain ⟨hu,htable,hpc⟩ := h.task inner hact
    exact ⟨htable,fun e he => h.passes e (hpc e he),hu,requests⟩
  | _ => exact ⟨h.table,h.passes,h.unreported,requests⟩

section Runs
variable {cfg : Config K} {n : Node K} {tr : List (NodeObs K)}

/-- A node where only packets are under way comes to rest with the same table. -/
theorem Calm.settles {iroh : Iroh K} (h : Calm iroh n)
    (run : Run system anyStep (start cfg) n tr) (hm : 0 < cfg.managerCapacity)
    (hc : 0 < cfg.coordCapacity) :
    ∃ t os, Run system Inner n t os ∧ t.Quiet ∧ t.manager.iroh = iroh := by
  have hd := reachable_descends cfg
  have calm : Descends (system (K := K)) Inner (fun n => Reachable cfg n ∧ Calm iroh n) work :=
    { keeps := fun n a hn inner hen => by
        obtain ⟨⟨tr,run⟩,hcalm⟩ := hn
        have run' : Run system anyStep (start cfg) (n.next a) (tr ++ n.shows a) :=
          .snoc a run trivial hen
        exact ⟨⟨_,run'⟩,hcalm.next inner hen (noLinkRequests_run run').toIroh⟩
      lowers := fun n a hn => hd.lowers n a hn.1 }
  obtain ⟨t,os,run',rest,-,ht⟩ := calm.rests ⟨⟨tr,run⟩,h⟩
  exact ⟨t,os,run',resting_quiet (run.trans (run'.mono fun _ _ _ => trivial)) hm hc rest,ht.table⟩

theorem handles_event (run : Run system anyStep (start cfg) n tr) (hm : 0 < cfg.managerCapacity)
    (hc : 0 < cfg.coordCapacity) {q : Queued K} {effects : List (Effect K Packet)}
    (idle : n.manager.pc = []) (queue : n.manager.rxFromTasks = [q])
    (rest : ({ n.manager with rxFromTasks := [] } : Manager K Packet).Unreported)
    (coord : n.toCoord = []) (handled : n.manager.iroh.handleConnEvent q.event = .ok effects)
    (single : (sends effects).length ≤ 1) :
    ∃ t os, Run system Inner n t os ∧ t.Quiet ∧ t.manager.iroh =
      (({ n.manager with rxFromTasks := [] } : Manager K Packet).carryOut effects).iroh := by
  let m : Manager K Packet := { n.manager with rxFromTasks := [], pc := effects }
  have hen : n.enabled (.manager .recvTask) :=
    ⟨⟨idle,q,by simp [queue],by rw [handled]; rfl⟩,trivial⟩
  have hnext : n.next (.manager .recvTask) = { n with manager := m } := by
    have hm' : n.manager.next .recvTask = m := by simp only [Manager.next,queue,handled,m]
    simp only [next,hm',posts,List.append_nil]
  have hsame : (n.next (.manager .recvTask)).cfg = cfg := (coreKept_run run).sameCfg
  have inner : n.Inner (.manager .recvTask) := rfl
  have first : Run system Inner n _ _ := one_step inner hen
  rw [hnext] at first hsame
  obtain ⟨os,run₁⟩ := effects_run effects (n := { n with manager := m }) rfl (by
    rw [hsame,coord,List.length_nil]
    omega)
  have hcarry : m.carryOut effects =
      ({ n.manager with rxFromTasks := [] } : Manager K Packet).carryOut effects :=
    Manager.carryOut_setPc { n.manager with rxFromTasks := [] } effects effects
  rw [hcarry] at run₁
  have both := first.trans run₁
  have whole := run.trans (both.mono fun _ _ _ => trivial)
  have calm : Calm _ _ := ⟨rfl,by simp [Manager.carryOut,Manager.setPc],rest.carryOut effects,
    (noLinkRequests_run whole).toIroh⟩
  obtain ⟨t,os',run₂,ht,htable⟩ := calm.settles whole hm hc
  exact ⟨t,_,both.trans run₂,ht,htable⟩

theorem unrequested_run (run : Run system anyStep (start cfg) n tr) :
    Run Manager.system Manager.NoLinkActions
      (Manager.start cfg.id cfg.peers cfg.managerCapacity) n.manager (managerView tr) := by
  induction run with
  | nil => exact .nil
  | @snoc n tr a run hok hen ih =>
    have hview := n.managerView_shows (a := a)
    have requests := (noLinkRequests_run run).toIroh
    have hm := moved hen
    change Run _ _ _ (n.next a).manager (managerView (tr ++ n.shows a))
    generalize n.next a = n' at hm
    generalize n.shows a = os at hm hview
    rw [managerView_append]
    cases hm with
    | @managerCore action rest idle queue =>
      obtain ⟨packet,pubKey,rfl⟩ := requests action (by simp [queue])
      have hcore : Manager.system.enabled n.manager (.recvCore (.sendPacketTo packet pubKey)) :=
        idle
      have hquiet : n.manager.NoLinkActions (.recvCore (.sendPacketTo packet pubKey)) := trivial
      exact Run.snoc (.recvCore (.sendPacketTo packet pubKey)) ih hquiet hcore
    | @manager act hact own =>
      rw [managerView_map]
      have hquiet : n.manager.NoLinkActions act := by
        cases act with
        | recvCore action => exact absurd rfl (own action)
        | _ => trivial
      exact .snoc act ih hquiet hact
    | coordAction hand =>
      rw [hview (by simp),List.append_nil,handleAction_eq]
      exact ih
    | _ =>
      rw [hview (by simp),List.append_nil]
      exact ih

theorem dialsBelow (run : Run system anyStep (start cfg) n tr) :
    Manager.DialsBelow cfg.id n.manager (managerView tr) :=
  Manager.dialsBelow_run (unrequested_run run)

theorem Quiet.entry (h : n.Quiet) (run : Run system anyStep (start cfg) n tr) {pk : K}
    (hpk : pk ∈ cfg.peers) :
    (∃ t c, n.manager.iroh.stateTable.lookup pk = some (.connected t c)) ∨
    (n.manager.iroh.isConnecting pk = true ∧ pk ≤ cfg.id) ∨
    (n.manager.iroh.stateTable.lookup pk = some .waitingIncomingConnection ∧ cfg.id < pk) := by
  have hd := dialsBelow run
  have hmem := ((noLinkRequests_run run).whitelist.table pk).mpr hpk
  obtain ⟨state,hl⟩ := Finmap.mem_iff.mp hmem
  cases state with
  | connected t c => exact .inl ⟨t,c,hl⟩
  | connecting t =>
    have hc := Iroh.isConnecting_of_lookup hl
    have hle := hd.dialing.connecting pk hc
    rw [hd.sameId] at hle
    exact .inr (.inl ⟨hc,hle⟩)
  | waitingIncomingConnection =>
    have hlt := hd.dialing.waiting pk hl
    rw [hd.sameId] at hlt
    exact .inr (.inr ⟨hl,hlt⟩)
  | disconnected =>
    exact absurd (hd.dialing.disconnected pk hl) (Manager.not_rewriting_idle h.manager.idle pk)

theorem Quiet.has_dial (h : n.Quiet) (run : Run system anyStep (start cfg) n tr) {pk : K}
    (hc : n.manager.iroh.isConnecting pk = true) : ∃ d ∈ n.manager.dials, d.peer = pk := by
  have hcount := (dialsBelow run).dialing.count pk
  have hund : n.manager.undelivered pk = 0 := by simp [Manager.undelivered,h.manager.queue]
  have hhand : n.manager.inHand pk = 0 := by simp [Manager.inHand,h.manager.idle]
  rw [if_pos hc,hund,hhand] at hcount
  have hpos : 0 < n.manager.dials.countP (Dial.toward pk) := by
    change n.manager.liveDials pk + 0 + 0 = 1 at hcount
    change 0 < n.manager.liveDials pk
    omega
  obtain ⟨d,hd,htoward⟩ := List.countP_pos_iff.mp hpos
  simp only [Dial.toward,Bool.and_eq_true,decide_eq_true_eq] at htoward
  exact ⟨d,hd,htoward.2⟩

theorem Quiet.has_session (h : n.Quiet) (run : Run system anyStep (start cfg) n tr) {pk : K}
    {t : TaskId} {c : Connection K}
    (hl : n.manager.iroh.stateTable.lookup pk = some (.connected t c)) :
    ∃ x ∈ n.manager.sessions, x.task = t ∧ x.connection = c ∧ c.remoteId = pk := by
  have hw := (dialsBelow run).wired
  rcases hw.backed pk t c hl with hr | ⟨x,hx,ht,-,-⟩ | hrep
  · exact absurd hr (Manager.not_rewriting_idle h.manager.idle pk)
  · exact ⟨x,hx,ht,hw.owned pk t c hl x hx ht,hw.named pk t c hl⟩
  · rw [h.manager.queue] at hrep
    simp at hrep

/-- What neither the TUN nor the transport has a say in. -/
def Free (_ : Node K) : NodeAct K → Prop
  | .tunRead _ => False
  | .manager (.attempt _ _) => False
  | .manager (.dialed _ _) => False
  | .manager (.accepted _) => False
  | .manager (.readDatagram _ _) => False
  | _ => True

omit [LinearOrder K] in
theorem Inner.free {n : Node K} {a : NodeAct K} (h : n.Inner a) : n.Free a := by
  cases a with
  | manager act =>
    cases act with
    | attempt d serial => simp [Inner,Act.fromOutside] at h
    | dialed d serial => simp [Inner,Act.fromOutside] at h
    | accepted c => simp [Inner,Act.fromOutside] at h
    | readDatagram s packet => simp [Inner,Act.fromOutside] at h
    | _ => trivial
  | _ => trivial

def KeepsOthers (pk : K) (n t : Node K) : Prop :=
  ∀ k, k ≠ pk → t.manager.iroh.stateTable.lookup k = n.manager.iroh.stateTable.lookup k

theorem Quiet.loses (h : n.Quiet) (run : Run system anyStep (start cfg) n tr)
    (hm : 0 < cfg.managerCapacity) {x : Session K Packet} (hx : x ∈ n.manager.sessions) :
    ∃ n' os, Run system Free n n' os ∧ n'.manager.pc = [] ∧
      n'.manager.rxFromTasks = [⟨.disconnected x.connection.remoteId,some x.task⟩] ∧
      ({ n'.manager with rxFromTasks := [] } : Manager K Packet).Unreported ∧ n'.toCoord = [] ∧
      n'.manager.iroh = n.manager.iroh := by
  let failed : Session K Packet := x.fail x.task
  have htask : failed.task = x.task := (x.fail_sameLink x.task).task
  have hconn : failed.connection = x.connection := (x.fail_sameLink x.task).connection
  have hfails : n.enabled (.manager (.readFails x)) := ⟨⟨hx,(h.sessions x hx).1⟩,trivial⟩
  have first : Run system Free n _ _ := one_step (a := .manager (.readFails x)) trivial hfails
  have hcapacity := (Manager.served_run (manager_run run)).capacity
  have hreports : (n.next (.manager (.readFails x))).enabled (.manager (.reportSession failed)) := by
    refine ⟨⟨List.mem_map_of_mem hx,by simp [failed,Session.fail],?_⟩,trivial⟩
    change n.manager.rxFromTasks.length < n.manager.channelCapacity
    rw [h.manager.queue,hcapacity]
    exact hm
  have second : Run system Free (n.next (.manager (.readFails x))) _ _ :=
    one_step (a := .manager (.reportSession failed)) trivial hreports
  refine ⟨_,_,first.trans second,h.manager.idle,?_,⟨rfl,h.manager.accepts,?_,?_⟩,?_,rfl⟩
  · change n.manager.rxFromTasks ++ [⟨.disconnected failed.connection.remoteId,some failed.task⟩] = _
    rw [h.manager.queue,htask,hconn]
    rfl
  · exact fun d hd => (h.manager.dials d hd).1
  · intro y hy
    obtain ⟨hmem,hne⟩ := List.mem_filter.mp hy
    obtain ⟨z,hz,rfl⟩ := List.mem_map.mp hmem
    simp only [htask,ne_eq,decide_not,Bool.not_eq_true',decide_eq_false_iff_not] at hne
    rw [(z.fail_sameLink x.task).task] at hne
    rw [Session.fail_failing hne]
    exact (h.sessions z hz).1
  · change (n.toCoord ++ []) ++ [] = []
    rw [h.toCoord]
    rfl

/-- The node with the greater key can get to dial: a session that fails is replaced. -/
theorem Quiet.redials (h : n.Quiet) (run : Run system anyStep (start cfg) n tr)
    (hm : 0 < cfg.managerCapacity) (hc : 0 < cfg.coordCapacity) {pk : K} (hpk : pk ∈ cfg.peers)
    (hlt : pk < cfg.id) :
    ∃ t os, Run system Free n t os ∧ t.Quiet ∧ KeepsOthers pk n t ∧
      ∃ d ∈ t.manager.dials, d.peer = pk := by
  rcases h.entry run hpk with ⟨t,c,hl⟩ | ⟨hconn,-⟩ | ⟨-,hgt⟩
  · obtain ⟨x,hx,rfl,rfl,rfl⟩ := h.has_session run hl
    obtain ⟨n',os,first,idle,queue,rest,coord,hiroh⟩ := h.loses run hm hx
    have run₁ := run.trans (first.mono fun _ _ _ => trivial)
    have hid : n'.manager.iroh.id = cfg.id := (dialsBelow run₁).sameId
    have hnew : n'.manager.iroh.initNewConnection (B := Packet) x.connection.remoteId =
        [.spawnDial x.connection.remoteId] := by
      rw [Iroh.initNewConnection,hid,if_neg (not_lt.mpr hlt.le)]
    have handled : n'.manager.iroh.handleConnEvent (.disconnected x.connection.remoteId) = .ok
        [.send (.disconnectedFromPeer x.connection.remoteId),
          (.spawnDial x.connection.remoteId : Effect K Packet)] := by
      rw [← hnew,hiroh]
      simp only [Iroh.handleConnEvent,hl]
    obtain ⟨t,os',second,ht,htable⟩ := handles_event run₁ hm hc idle queue rest coord handled
      (by simp [sends,Effect.sent])
    have run₂ := run₁.trans (second.mono fun _ _ _ => trivial)
    have hconn : t.manager.iroh.isConnecting x.connection.remoteId = true := by
      rw [htable]
      simp [Iroh.isConnecting,Manager.carryOut,Manager.setPc,Manager.perform]
    refine ⟨t,_,first.trans (second.mono fun _ _ h => h.free),ht,fun k hk => ?_,
      ht.has_dial run₂ hconn⟩
    rw [htable,← hiroh]
    refine Manager.carryOut_lookup_ne (fun e he => ?_) _
    simp only [List.mem_cons,List.not_mem_nil,or_false] at he
    rcases he with rfl | rfl
    · simp [Effect.writes]
    · simp [Effect.writes,Ne.symm hk]
  · exact ⟨n,[],.nil,h,fun _ _ => rfl,h.has_dial run hconn⟩
  · exact absurd hlt (not_lt.mpr hgt.le)

/-- The connection in the queue is installed, whatever session it replaces. -/
theorem installs_queued (run : Run system anyStep (start cfg) n tr) (hm : 0 < cfg.managerCapacity)
    (hc : 0 < cfg.coordCapacity) {q : Queued K} {before : List (Effect K Packet)}
    {c : Connection K} (idle : n.manager.pc = []) (queue : n.manager.rxFromTasks = [q])
    (rest : ({ n.manager with rxFromTasks := [] } : Manager K Packet).Unreported)
    (coord : n.toCoord = [])
    (handled : n.manager.iroh.handleConnEvent q.event =
      .ok (before ++ Iroh.initReadyConnection c)) (silent : sends before = [])
    (keeps : ∀ e ∈ before, e.writes = none) :
    ∃ t os, Run system Free n t os ∧ t.Quiet ∧ KeepsOthers c.remoteId n t ∧
      ∃ task, t.manager.iroh.stateTable.lookup c.remoteId = some (.connected task c) := by
  have hsends : sends (before ++ Iroh.initReadyConnection c) = [.connectedToPeer c.remoteId] := by
    rw [sends,List.filterMap_append]
    change sends before ++ _ = _
    rw [silent]
    rfl
  obtain ⟨t,os,own,ht,htable⟩ := handles_event run hm hc idle queue rest coord handled
    (by rw [hsends]; exact Nat.le_refl 1)
  refine ⟨t,os,own.mono fun _ _ h => h.free,ht,fun k hk => ?_,?_⟩
  · rw [htable]
    refine Manager.carryOut_lookup_ne (fun e he => ?_) _
    rcases List.mem_append.mp he with hbefore | hready
    · simp [keeps e hbefore]
    · simp only [Iroh.initReadyConnection,List.mem_cons,List.not_mem_nil,or_false] at hready
      rcases hready with rfl | rfl
      · simp [Effect.writes]
      · simp [Effect.writes,Ne.symm hk]
  · rw [htable,Manager.carryOut,List.foldl_append]
    exact ⟨_,Manager.insertState_lookup _ c.remoteId _⟩

theorem Quiet.dial_answered (h : n.Quiet) (run : Run system anyStep (start cfg) n tr)
    (hm : 0 < cfg.managerCapacity) (hc : 0 < cfg.coordCapacity) {d : Dial K}
    (hd : d ∈ n.manager.dials) (serial : Nat) :
    ∃ t os, Run system Free (n.next (.manager (.dialed d serial))) t os ∧ t.Quiet ∧
      KeepsOthers d.peer n t ∧ ∃ task, t.manager.iroh.stateTable.lookup d.peer =
        some (.connected task ⟨serial,d.peer,true⟩) := by
  let c : Connection K := ⟨serial,d.peer,true⟩
  let done : Dial K := { d with ready := some c }
  let n' : Node K := n.next (.manager (.dialed d serial))
  have hdialed : n.enabled (.manager (.dialed d serial)) := ⟨⟨hd,(h.manager.dials d hd).1⟩,trivial⟩
  have run' := then_step run hdialed
  have hcapacity := (Manager.served_run (manager_run run)).capacity
  have hreports : n'.enabled (.manager (.reportDial done)) := by
    refine ⟨⟨List.mem_cons_self,by simp [done],?_⟩,trivial⟩
    change n.manager.rxFromTasks.length < n.manager.channelCapacity
    rw [h.manager.queue,hcapacity]
    exact hm
  have first : Run system Free n' _ _ := one_step (a := .manager (.reportDial done)) trivial hreports
  have hl : n.manager.iroh.stateTable.lookup d.peer = some (.connecting d.task) :=
    (dialsBelow run).dialing.matched d hd
  have handled : n.manager.iroh.handleConnEvent (.outgoingConnection c) =
      .ok ([] ++ Iroh.initReadyConnection (B := Packet) c) := by
    simp only [Iroh.handleConnEvent,c,hl,List.nil_append]
  obtain ⟨t,os,second,ht,hkeeps,hconn⟩ := installs_queued (q := ⟨.outgoingConnection c,some d.task⟩)
    (run'.trans (first.mono fun _ _ _ => trivial)) hm hc h.manager.idle
    (by
      change n.manager.rxFromTasks ++ _ = _
      rw [h.manager.queue]
      rfl)
    ⟨rfl,h.manager.accepts,fun x hx => by
      change x ∈ (done :: n.manager.dials.erase d).erase done at hx
      rw [List.erase_cons_head] at hx
      exact (h.manager.dials x (List.mem_of_mem_erase hx)).1,fun x hx => (h.sessions x hx).1⟩
    (by
      change (n.toCoord ++ []) ++ [] = []
      rw [h.toCoord]
      rfl) handled rfl (by simp)
  exact ⟨t,_,first.trans second,ht,hkeeps,hconn⟩

theorem Quiet.accepts_peer (h : n.Quiet) (run : Run system anyStep (start cfg) n tr)
    (hm : 0 < cfg.managerCapacity) (hc : 0 < cfg.coordCapacity) {c : Connection K}
    (hpk : c.remoteId ∈ cfg.peers) (hlt : cfg.id < c.remoteId) (hin : c.outgoing = false) :
    ∃ t os, Run system Free (n.next (.manager (.accepted c))) t os ∧ t.Quiet ∧
      KeepsOthers c.remoteId n t ∧
      ∃ task, t.manager.iroh.stateTable.lookup c.remoteId = some (.connected task c) := by
  let n' : Node K := n.next (.manager (.accepted c))
  have haccepted : n.enabled (.manager (.accepted c)) := ⟨hin,trivial⟩
  have run' := then_step run haccepted
  have hcapacity := (Manager.served_run (manager_run run)).capacity
  have hreports : n'.enabled (.manager (.reportAccept c)) := by
    refine ⟨⟨List.mem_cons_self,?_⟩,trivial⟩
    change n.manager.rxFromTasks.length < n.manager.channelCapacity
    rw [h.manager.queue,hcapacity]
    exact hm
  have first : Run system Free n' _ _ := one_step (a := .manager (.reportAccept c)) trivial hreports
  obtain ⟨before,handled,silent,keeps⟩ : ∃ before : List (Effect K Packet),
      n.manager.iroh.handleConnEvent (.incomingConnection c) =
        .ok (before ++ Iroh.initReadyConnection c) ∧ sends before = [] ∧
          ∀ e ∈ before, e.writes = none := by
    rcases h.entry run hpk with ⟨t,old,hl⟩ | ⟨-,hle⟩ | ⟨hl,-⟩
    · exact ⟨[.abort t,.close old],by simp only [Iroh.handleConnEvent,hl],rfl,
        by simp [Effect.writes]⟩
    · exact absurd hlt (not_lt.mpr hle)
    · exact ⟨[],by simp only [Iroh.handleConnEvent,hl,List.nil_append],rfl,by simp⟩
  obtain ⟨t,os,second,ht,hkeeps,hconn⟩ := installs_queued (q := ⟨.incomingConnection c,none⟩)
    (run'.trans (first.mono fun _ _ _ => trivial)) hm hc h.manager.idle
    (by
      change n.manager.rxFromTasks ++ _ = _
      rw [h.manager.queue]
      rfl)
    ⟨rfl,by
      change (c :: n.manager.accepts).erase c = []
      rw [List.erase_cons_head]
      exact h.manager.accepts,fun x hx => (h.manager.dials x hx).1,
      fun x hx => (h.sessions x hx).1⟩
    (by
      change (n.toCoord ++ []) ++ [] = []
      rw [h.toCoord]
      rfl) handled silent keeps
  exact ⟨t,_,first.trans second,ht,hkeeps,hconn⟩

theorem Quiet.core_open (h : n.Quiet) (run : Run system anyStep (start cfg) n tr) {pk : K}
    (hpk : pk ∈ cfg.peers) : n.core.isConnectOpen pk = some (n.manager.iroh.isConnected pk) := by
  have hord := linksInOrder_run run
  have hidle := (Manager.reported_run (manager_run run)).idle h.manager.idle pk
  have hlinks : linkEvents pk tr = processedLinks pk tr := by
    rw [hord.queued pk,h.toCoord,List.filterMap_nil,List.append_nil]
  rw [hord.flag pk hpk,← hlinks,← hidle]
  rfl

theorem Quiet.reads_packet (h : n.Quiet) (run : Run system anyStep (start cfg) n tr)
    (hf : 0 < cfg.fromTunCapacity) (data : List UInt8) : n.next (.tunRead data) =
      { n with reads := n.reads + 1, fromTun := [⟨n.reads,data⟩] } := by
  simp only [next,h.fromTun,List.length_nil,(coreKept_run run).sameCfg,hf,if_true,List.nil_append]

theorem Quiet.issues_packet (h : n.Quiet) (run : Run system anyStep (start cfg) n tr)
    (hi : 0 < cfg.irohCapacity) {pk : K} (hpk : pk ∈ cfg.peers)
    (hopen : n.manager.iroh.isConnected pk = true) {p : Packet}
    (haccepted : n.core.acceptedFor p = some pk) (reads : Nat) :
    ∃ os, Run system Free { n with reads := reads, fromTun := [p] }
      { n with reads := reads, toIroh := [.sendPacketTo p pk] } os := by
  have hsame := (coreKept_run run).sameCfg
  obtain ⟨s,hs,hflag⟩ := isConnectOpen_iff.mp (h.core_open run hpk)
  rw [hopen] at hflag
  have htarget : n.core.target (.packetFromTun p) = some (pk,.arrived p) := by
    simp only [VpnCore.target,haccepted,Option.map_some]
  have answer : n.core.process (.packetFromTun p) = some (n.core,[.sendPacketTo p pk]) := by
    rw [VpnCore.process_target htarget hs]
    simp only [PeerState.step,PeerState.actions,hflag,if_true,VpnCore.setPeer_self hs]
  let n₁ : Node K := { n with reads := reads, fromTun := [p] }
  let n₂ : Node K := { n₁ with fromTun := [], hand := [.sendPacketTo p pk] }
  have e₁ : n₁.enabled .coordTun := ⟨h.hand,p,by simp [n₁],by simp [coreAnswers,n₁,answer]⟩
  have h₁ : n₁.next .coordTun = n₂ := by simp only [next,handle,n₁,n₂,answer]
  have e₂ : n₂.enabled .coordAction := ⟨.sendPacketTo p pk,by simp [n₂],trivial⟩
  have h₂ : n₂.next .coordAction =
      { n with reads := reads, toIroh := [.sendPacketTo p pk] } := by
    simp only [next,handleAction,n₁,n₂,h.toIroh,h.hand,h.fromTun,List.length_nil,hsame,hi,if_true,
      List.nil_append]
  have r₁ : Run system Free n₁ n₂ _ := h₁ ▸ one_step trivial e₁
  have r₂ : Run system Free n₂ _ _ := one_step (a := .coordAction) trivial e₂
  rw [h₂] at r₂
  exact ⟨_,r₁.trans r₂⟩

theorem passes_packet {p : Packet} {pk : K} {x : Session K Packet} (wired : n.manager.Wired)
    (idle : n.manager.pc = []) (queue : n.toIroh = [.sendPacketTo p pk])
    (hl : n.manager.iroh.stateTable.lookup pk = some (.connected x.task x.connection))
    (hx : x ∈ n.manager.sessions) (alive : x.failing = false) (empty : x.packetChannel = [])
    (room : 0 < n.manager.channelCapacity) :
    ∃ n' os, Run system Free n n' os ∧ .manager (.sent x.connection p) ∈ os := by
  let m₁ : Manager K Packet := { n.manager with pc := [.trySend x.task p pk] }
  let n₁ : Node K := { n with toIroh := [], manager := m₁ }
  have e₁ : n.enabled .managerCore := ⟨idle,by simp [queue]⟩
  have h₁ : n.next .managerCore = n₁ := by
    simp only [next,Manager.next,Iroh.handleCoreEvent,queue,n₁,m₁,hl]
  have found : (n.manager.sessions.find? fun s => s.task = x.task) = some x := by
    obtain ⟨y,hy⟩ := Option.isSome_iff_exists.mp
      (List.find?_isSome (p := fun s : Session K Packet => decide (s.task = x.task)).mpr
        ⟨x,hx,by simp⟩)
    have htask : y.task = x.task := by simpa using List.find?_some hy
    rw [hy,wired.eq_of_task (List.mem_of_find?_eq_some hy) hx htask]
  let pushed : Session K Packet := x.push x.task p
  let m₂ : Manager K Packet :=
    { n.manager with pc := [], sessions := n.manager.sessions.map (Session.push x.task p) }
  let n₂ : Node K := { n with toIroh := [], manager := m₂, toCoord := n.toCoord ++ [] }
  have e₂ : n₁.enabled (.manager .effect) := ⟨by simp [Manager.enabled,n₁,m₁],.inl rfl⟩
  have h₂ : n₁.next (.manager .effect) = n₂ := by
    simp only [next,Manager.next,Manager.perform,Manager.setPc,posts,n₁,n₂,m₁,m₂,found,empty,
      List.length_nil,room,if_true]
  have hchannel : pushed.packetChannel = [p] := by simp [pushed,Session.push,empty]
  have e₃ : n₂.enabled (.manager (.sendDatagram pushed .sent)) := by
    refine ⟨⟨List.mem_map_of_mem hx,?_,by simp [hchannel]⟩,trivial⟩
    rw [Session.push_failing]
    exact alive
  have r₁ : Run system Free n n₁ _ := h₁ ▸ one_step trivial e₁
  have r₂ : Run system Free n₁ n₂ _ := h₂ ▸ one_step trivial e₂
  have r₃ : Run system Free n₂ _ _ :=
    one_step (a := .manager (.sendDatagram pushed .sent)) trivial e₃
  refine ⟨_,_,(r₁.trans r₂).trans r₃,List.mem_append_right _ ?_⟩
  have hconn : pushed.connection = x.connection := (x.push_sameLink x.task p).connection
  simp [shows,Manager.shows,hchannel,hconn]

theorem Quiet.writes_packet (h : n.Quiet) (run : Run system anyStep (start cfg) n tr)
    (hc : 0 < cfg.coordCapacity) (ht : 0 < cfg.toTunCapacity) {x : Session K Packet} {p : Packet}
    (hok : n.core.RecvOk p x.connection.remoteId) :
    ∃ t os, Run system Free (n.next (.manager (.readDatagram x p))) t os ∧ .wroteTun p ∈ os ∧
      t.toTun = [p] := by
  have hsame := (coreKept_run run).sameCfg
  let n₁ : Node K := { n with toCoord := [.recvPacketFrom p x.connection.remoteId] }
  have h₁ : n.next (.manager (.readDatagram x p)) = n₁ := by
    simp only [next,Manager.next,posts,h.toCoord,List.length_nil,hsame,hc,if_true,
      List.nil_append,n₁]
  have answer : n.core.process (.packetFromIroh p x.connection.remoteId) =
      some (n.core,[.writeToTun p]) := by
    rw [VpnCore.process_reply (by rfl),VpnCore.reply,VpnCore.verifyRecvPacket_ok.mpr hok]
  let n₂ : Node K := { n with toCoord := [], hand := [.writeToTun p] }
  have e₂ : n₁.enabled .coordIroh :=
    ⟨h.hand,_,by simp only [n₁,List.head?_cons]; rfl,
      by simp [coreAnswers,mapIrohEventToCoreEvent,n₁,answer]⟩
  have h₂ : n₁.next .coordIroh = n₂ := by
    simp only [next,handle,mapIrohEventToCoreEvent,n₁,n₂,answer]
  have e₃ : n₂.enabled .coordAction := ⟨.writeToTun p,by simp [n₂],trivial⟩
  have r₂ : Run system Free n₁ n₂ _ := h₂ ▸ one_step trivial e₂
  have r₃ : Run system Free n₂ _ _ := one_step (a := .coordAction) trivial e₃
  rw [h₁]
  refine ⟨_,_,r₂.trans r₃,List.mem_append_right _ ?_,?_⟩
  · simp [shows,actionShows,n₂,h.toTun,hsame,ht]
  · simp [next,handleAction,n₂,h.toTun,hsame,ht]

end Runs

end Node
end MeshNetwork
