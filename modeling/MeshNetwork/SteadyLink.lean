import MeshNetwork.DatagramOrder
import MeshNetwork.Recovery

set_option autoImplicit false

namespace MeshNetwork
open Runs

section About
variable {K B : Type}

def ConnectionEvent.peer? : ConnectionEvent K → Option K
  | .outgoingConnection conn => some conn.remoteId
  | .incomingConnection conn => some conn.remoteId
  | .disconnected pubKey => some pubKey
  | .internalError => none

def Effect.about : Effect K B → Option K
  | .send (.connectedToPeer pubKey) => some pubKey
  | .send (.disconnectedFromPeer pubKey) => some pubKey
  | e => e.writes

theorem Effect.about_of_writes {e : Effect K B} {k : K} (h : e.writes = some k) :
    e.about = some k := by
  cases e with
  | send event => simp [Effect.writes] at h
  | _ => exact h

variable [LinearOrder K]

theorem Iroh.initNewConnection_about {iroh : Iroh K} {pubKey : K} {e : Effect K B}
    (he : e ∈ iroh.initNewConnection pubKey) : e.about = some pubKey := by
  obtain ⟨e',heq,hw⟩ := Manager.initNewConnection_writes (B := B) iroh pubKey
  rw [heq,List.mem_singleton] at he
  rw [he]
  exact Effect.about_of_writes hw

theorem Iroh.Reaction.about {iroh : Iroh K} {event : ConnectionEvent K}
    {effects : List (Effect K B)} (h : iroh.Reaction event effects) {e : Effect K B}
    (he : e ∈ effects) {k : K} (hk : e.about = some k) : event.peer? = some k := by
  have ready : ∀ conn : Connection K, e ∈ Iroh.initReadyConnection (B := B) conn →
      conn.remoteId = k := by
    intro conn hmem
    simp only [Iroh.initReadyConnection,List.mem_cons,List.not_mem_nil,or_false] at hmem
    rcases hmem with rfl | rfl <;> simpa [Effect.about,Effect.writes] using hk
  cases h with
  | dialed conn hc => exact congrArg some (ready conn he)
  | joined conn hl => exact congrArg some (ready conn he)
  | replaced conn old task hev hl =>
    rcases List.mem_append.mp he with hold | hnew
    · simp only [List.mem_cons,List.not_mem_nil,or_false] at hold
      rcases hold with rfl | rfl <;> simp [Effect.about,Effect.writes] at hk
    · rcases hev with rfl | rfl <;> exact congrArg some (ready conn hnew)
  | refused conn hev hc =>
    rw [List.mem_singleton.mp he] at hk
    simp [Effect.about,Effect.writes] at hk
  | lost pubKey hc =>
    rcases List.mem_cons.mp he with rfl | hnew
    · exact hk
    · exact (Iroh.initNewConnection_about hnew).symm.trans hk
  | ignored pubKey hc => simp at he

end About

namespace Manager
variable {K B : Type} [LinearOrder K] {t : TaskId} {c : Connection K} {m : Manager K B}

/-- The entry of a peer stands: its session works, and nothing is under way that could end it. -/
structure Steady (t : TaskId) (c : Connection K) (m : Manager K B) : Prop where
  entry : m.iroh.stateTable.lookup c.remoteId = some (.connected t c)
  handler : ∀ e ∈ m.pc, e.about ≠ some c.remoteId
  queue : ∀ q ∈ m.rxFromTasks, q.event.peer? ≠ some c.remoteId
  accepts : ∀ a ∈ m.accepts, a.remoteId ≠ c.remoteId
  only : ∀ x ∈ m.sessions, x.connection.remoteId = c.remoteId → x.task = t ∧ x.failing = false

def Spares (pk : K) : Act K B → Prop
  | .accepted conn => conn.remoteId ≠ pk
  | .readFails s => s.connection.remoteId ≠ pk
  | .sendDatagram s outcome => s.connection.remoteId = pk → outcome = .sent
  | _ => True

theorem Steady.not_rewriting (h : Steady t c m) : ¬ m.Rewriting c.remoteId := fun ⟨e,he,hw⟩ =>
  h.handler e he (Effect.about_of_writes hw)

theorem Steady.session (h : Steady t c m) (wired : m.Wired) : ∃ x ∈ m.sessions, x.task = t ∧
    x.connection = c ∧ x.aborted = false ∧ x.failing = false ∧ x.txOpen = true := by
  rcases wired.backed c.remoteId t c h.entry with hr | ⟨x,hx,ht,ha,ho⟩ | hq
  · exact absurd hr h.not_rewriting
  · have hc := wired.owned c.remoteId t c h.entry x hx ht
    exact ⟨x,hx,ht,hc,ha,(h.only x hx (by rw [hc])).2,ho⟩
  · exact absurd rfl (h.queue _ hq)

theorem Steady.session_cases (h : Steady t c m) (wired : m.Wired) {x : Session K B}
    (hx : x ∈ m.sessions) : (x.connection = c ∧ x.aborted = false ∧ x.failing = false ∧
      x.txOpen = true) ∨ (x.task ≠ t ∧ x.connection.remoteId ≠ c.remoteId) := by
  obtain ⟨y,hy,ht,hc,ha,hf,ho⟩ := h.session wired
  by_cases hxt : x.task = t
  · rw [wired.eq_of_task hx hy (hxt.trans ht.symm)]
    exact .inl ⟨hc,ha,hf,ho⟩
  · exact .inr ⟨hxt,fun hk => hxt (h.only x hx hk).1⟩

theorem Steady.serving_le (h : Steady t c m) (wired : m.Wired) : (m.serving c).length ≤ 1 := by
  obtain ⟨y,hy,ht,-⟩ := h.session wired
  have hall : ∀ x ∈ m.serving c, x = y := by
    intro x hx
    obtain ⟨hmem,hc⟩ := List.mem_filter.mp hx
    have hc : x.connection = c := by simpa using hc
    exact wired.eq_of_task hmem hy ((h.only x hmem (by rw [hc])).1.trans ht.symm)
  have hnodup : (m.serving c).Nodup := wired.single.of_map.filter _
  match hl : m.serving c with
  | [] => simp
  | [x] => simp
  | x :: x' :: rest =>
    rw [hl] at hall hnodup
    have hx := hall x (by simp)
    have hx' := hall x' (by simp)
    simp [hx,hx'] at hnodup

theorem Steady.effect (h : Steady t c m) {e : Effect K B} {rest : List (Effect K B)}
    (hpc : m.pc = e :: rest) : Steady t c ((m.perform e).setPc rest) := by
  have he : e.writes ≠ some c.remoteId := fun hw =>
    h.handler e (by simp [hpc]) (Effect.about_of_writes hw)
  -- no effect changes the connection of a session or makes it fail
  have kept : ∀ {l : List (Session K B)} {g : Session K B → Session K B},
      (∀ x ∈ l, x.connection.remoteId = c.remoteId → x.task = t ∧ x.failing = false) →
      (∀ x, (g x).connection = x.connection ∧ (g x).task = x.task ∧ (g x).failing = x.failing) →
      ∀ x ∈ l.map g, x.connection.remoteId = c.remoteId → x.task = t ∧ x.failing = false := by
    intro l g hl hg x hx
    obtain ⟨y,hy,rfl⟩ := List.mem_map.mp hx
    rw [(hg y).1,(hg y).2.1,(hg y).2.2]
    exact hl y hy
  have inserted : ∀ k state, ∀ x ∈ (m.insertState k state).sessions,
      x.connection.remoteId = c.remoteId → x.task = t ∧ x.failing = false := by
    intro k state
    simp only [insertState]
    split
    · exact kept h.only fun x => ⟨Session.closeChannel_connection _ x,
        Session.closeChannel_task _ x,Session.closeChannel_failing _ x⟩
    · exact h.only
  refine ⟨(perform_lookup_ne m e he).trans h.entry,
    fun e' he' => h.handler e' (by rw [hpc]; exact List.mem_cons_of_mem _ he'),?_,?_,?_⟩
  · change ∀ q ∈ (m.perform e).rxFromTasks, _
    rw [perform_rxFromTasks]
    exact h.queue
  · change ∀ a ∈ (m.perform e).accepts, _
    rw [perform_accepts]
    exact h.accepts
  · change ∀ x ∈ (m.perform e).sessions, _
    cases e with
    | abort task =>
      exact kept h.only fun x => ⟨Session.abort_connection task x,Session.abort_task task x,
        Session.abort_failing task x⟩
    | trySend task packet pubKey =>
      simp only [perform]
      repeat' split
      · exact kept h.only fun x => ⟨(x.push_sameLink task packet).connection,
          (x.push_sameLink task packet).task,Session.push_failing task packet x⟩
      · exact h.only
      · exact h.only
    | spawnSession conn =>
      intro x hx
      rcases List.mem_cons.mp hx with rfl | hold
      · exact fun hk => absurd (congrArg some hk) he
      · exact inserted conn.remoteId _ x hold
    | spawnDial pubKey => exact inserted pubKey (.connecting m.nextTask)
    | insertWaiting pubKey => exact inserted pubKey .waitingIncomingConnection
    | insertDisconnected pubKey => exact inserted pubKey .disconnected
    | _ => exact h.only

theorem Steady.task (h : Steady t c m) {l : Act K B} (own : l.byTask = true)
    (reported : ∀ q ∈ reports l, q.event.peer? ≠ some c.remoteId)
    (accepts : ∀ a ∈ (m.next l).accepts, a.remoteId ≠ c.remoteId)
    (only : ∀ x ∈ (m.next l).sessions, x.connection.remoteId = c.remoteId →
      x.task = t ∧ x.failing = false) : Steady t c (m.next l) where
  entry := by
    rw [task_iroh m own]
    exact h.entry
  handler := by
    rw [task_pc m own]
    exact h.handler
  queue q hq := by
    rw [task_rxFromTasks m own] at hq
    rcases List.mem_append.mp hq with hold | hnew
    · exact h.queue q hold
    · exact reported q hnew
  accepts := accepts
  only := only

theorem Steady.next (h : Steady t c m) (wired : m.Wired) (dialing : m.Dialing) {l : Act K B}
    (hen : m.enabled l) (requests : m.NoLinkActions l) (spared : Spares c.remoteId l) :
    Steady t c (m.next l) := by
  have hm := moved hen
  generalize hnext : m.next l = m' at hm
  cases hm with
  | handle idle queue reaction =>
    rename_i q rest effects
    refine ⟨h.entry,fun e he hk => ?_,fun x hx => ?_,h.accepts,h.only⟩
    · exact h.queue q (by simp [queue]) (reaction.about he hk)
    · exact h.queue x (by rw [queue]; exact List.mem_cons_of_mem _ hx)
  | core idle reaction =>
    refine ⟨h.entry,fun e he => ?_,h.queue,h.accepts,h.only⟩
    cases reaction with
    | passed packet pubKey task conn hl =>
      rw [List.mem_singleton.mp he]
      simp [Effect.about,Effect.writes]
    | dropped packet pubKey hc =>
      rw [List.mem_singleton.mp he]
      simp [Effect.about,Effect.writes]
    | _ => exact absurd requests id
  | effect hpc => exact h.effect hpc
  | task own =>
    rw [← hnext]
    -- a session that ends leads elsewhere
    have fewer : ∀ s : Session K B, ∀ x ∈ m.sessions.filter fun x => x.task ≠ s.task,
        x.connection.remoteId = c.remoteId → x.task = t ∧ x.failing = false :=
      fun s x hx => h.only x (List.mem_filter.mp hx).1
    cases l with
    | recvTask => simp [Act.byTask] at own
    | recvCore action => simp [Act.byTask] at own
    | effect => simp [Act.byTask] at own
    | reportDial d =>
      refine h.task own (fun q hq => ?_) h.accepts h.only
      obtain ⟨hd,-,-⟩ := hen
      simp only [reports,Option.mem_toList,Option.map_eq_some_iff] at hq
      obtain ⟨conn,hready,rfl⟩ := hq
      intro hk
      simp only [ConnectionEvent.peer?,Option.some.injEq] at hk
      have hmatched := dialing.matched d hd
      rw [← (dialing.ready d hd conn hready).1,hk,h.entry] at hmatched
      simp at hmatched
    | accepted conn =>
      refine h.task own (by simp [reports]) (fun a ha => ?_) h.only
      rcases List.mem_cons.mp ha with rfl | hold
      · exact spared
      · exact h.accepts a hold
    | reportAccept conn =>
      refine h.task own (fun q hq => ?_) (fun a ha => h.accepts a (List.mem_of_mem_erase ha)) h.only
      rw [List.mem_singleton.mp hq]
      exact fun hk => h.accepts conn hen.1 (Option.some.inj hk)
    | readFails s =>
      refine h.task own (by simp [reports]) h.accepts fun x hx hk => ?_
      obtain ⟨y,hy,rfl⟩ := List.mem_map.mp hx
      rw [(y.fail_sameLink s.task).connection] at hk
      have hne : y.task ≠ s.task := fun ht => spared (by rw [← wired.eq_of_task hy hen.1 ht,hk])
      rw [show y.fail s.task = y by simp [Session.fail,hne]]
      exact h.only y hy hk
    | sendDatagram s outcome =>
      refine h.task own (by simp [reports]) h.accepts fun x hx hk => ?_
      have popped : ∀ x ∈ m.sessions.map (Session.pop s.task), x.connection.remoteId = c.remoteId →
          x.task = t ∧ x.failing = false := by
        intro x hx hk
        obtain ⟨y,hy,rfl⟩ := List.mem_map.mp hx
        rw [(y.pop_sameLink s.task).connection] at hk
        rw [(y.pop_sameLink s.task).task,Session.pop_failing]
        exact h.only y hy hk
      cases outcome with
      | sent => exact popped x hx hk
      | tooLarge => exact popped x hx hk
      | failed =>
        obtain ⟨y,hy,rfl⟩ := List.mem_map.mp hx
        rw [(y.fail_sameLink s.task).connection] at hk
        obtain ⟨z,hz,rfl⟩ := List.mem_map.mp hy
        have hne : (z.pop s.task).task ≠ s.task := fun ht => by
          rw [(z.pop_sameLink s.task).task] at ht
          rw [(z.pop_sameLink s.task).connection,wired.eq_of_task hz hen.1 ht] at hk
          simpa using spared hk
        rw [show (z.pop s.task).fail s.task = z.pop s.task by simp [Session.fail,hne]]
        exact popped _ hy hk
    | reportSession s =>
      refine h.task own (fun q hq => ?_) h.accepts (fewer s)
      rw [List.mem_singleton.mp hq]
      rcases h.session_cases wired hen.1 with ⟨-,-,hf,-⟩ | ⟨-,hk⟩
      · exact absurd hen.2.1 (by simp [hf])
      · exact fun heq => hk (Option.some.inj heq)
    | channelClosed s => exact h.task own (by simp [reports]) h.accepts (fewer s)
    | cancelSession s => exact h.task own (by simp [reports]) h.accepts (fewer s)
    | _ => exact h.task own (by simp [reports]) h.accepts h.only

theorem Steady.passes (h : Steady t c m) (wired : m.Wired) {l : Act K B} (hen : m.enabled l)
    (spared : Spares c.remoteId l) : Passes c m (m.next l) (m.shows l) := by
  have hone := h.serving_le wired
  have ended : ∀ {s : Session K B} {m' : Manager K B}, s ∈ m.sessions →
      s.aborted = true ∨ s.failing = true ∨ s.txOpen = false →
      m'.sessions = (m.sessions.filter fun x => x.task ≠ s.task) → m'.chan c = m.chan c := by
    intro s m' hs hend heq
    rcases h.session_cases wired hs with ⟨-,ha,hf,ho⟩ | ⟨ht,-⟩
    · simp [ha,hf,ho] at hend
    · rw [chan,serving,heq,List.filter_filter,chan,serving]
      congr 1
      refine List.filter_congr fun x hx => ?_
      by_cases hc : x.connection = c
      · have hxt := (h.only x hx (by rw [hc])).1
        simp [hc,hxt,Ne.symm ht]
      · simp [hc]
  cases l with
  | recvTask =>
    have hsame : (m.next .recvTask).sessions = m.sessions := by
      simp only [Manager.next]
      repeat' split
      all_goals rfl
    exact .same c (by rw [chan,serving,hsame,chan,serving]) rfl rfl
  | effect =>
    cases hpc : m.pc with
    | nil => exact absurd hpc hen
    | cons e rest =>
      simp only [Manager.next,shows,hpc]
      exact wired.effect_passes c hone e rest
  | sendDatagram s outcome => exact wired.send_passes c hone hen.1 fun hc => spared (by rw [hc])
  | readFails s =>
    refine .same c (chan_map c (g := Session.fail s.task) rfl fun x => ?_) rfl rfl
    unfold Session.fail
    split <;> exact ⟨rfl,rfl⟩
  | reportSession s =>
    exact .same c (ended hen.1 (.inr (.inl hen.2.1)) rfl) rfl rfl
  | channelClosed s =>
    exact .same c (ended hen.1 (.inr (.inr hen.2.2.1)) rfl) rfl rfl
  | cancelSession s => exact .same c (ended hen.1 (.inl hen.2) rfl) rfl rfl
  | _ => exact .same c rfl rfl rfl

def Fits (pk : K) (m : Manager K B) : Effect K B → Prop
  | .trySend task _ pubKey => pubKey = pk →
    ∀ s ∈ m.sessions, s.task = task → s.packetChannel.length < m.channelCapacity
  | _ => True

end Manager

namespace Node
variable {K : Type} [LinearOrder K] {t : TaskId} {c : Connection K} {cfg : Config K} {n : Node K}
variable {tr : List (NodeObs K)}

def ActionFits (pk : K) (n : Node K) : Action K Packet → Prop
  | .sendPacketTo _ pubKey => pubKey = pk → n.toIroh.length < n.cfg.irohCapacity
  | .writeToTun packet =>
    n.cfg.routeTable.lookup (Ipv4Packet.header packet).srcIp = some pk →
      n.toTun.length < n.cfg.toTunCapacity
  | _ => True

def Roomy (pk : K) (n : Node K) : NodeAct K → Prop
  | .coordAction => ∀ a ∈ n.hand.head?, n.ActionFits pk a
  | .manager .effect => ∀ e ∈ n.manager.pc.head?, n.manager.Fits pk e
  | .manager (.readDatagram s _) => s.connection.remoteId = pk →
    n.toCoord.length < n.cfg.coordCapacity
  | _ => True

def Undisturbed (pk : K) (n : Node K) (a : NodeAct K) : Prop :=
  (∀ act, a = .manager act → Manager.Spares pk act) ∧ n.Roomy pk a

section Decide
variable (pk : K) (n : Node K)

instance (m : Manager K Packet) (e : Effect K Packet) : Decidable (m.Fits pk e) :=
  match e with
  | .trySend task _ pubKey => inferInstanceAs (Decidable (pubKey = pk →
      ∀ s ∈ m.sessions, s.task = task → s.packetChannel.length < m.channelCapacity))
  | .abort _ | .close _ | .send _ | .dropPacket _ _ | .spawnSession _ | .spawnDial _
  | .insertWaiting _ | .insertDisconnected _ => .isTrue trivial

instance (a : Action K Packet) : Decidable (n.ActionFits pk a) :=
  match a with
  | .sendPacketTo _ pubKey => inferInstanceAs (Decidable (pubKey = pk →
      n.toIroh.length < n.cfg.irohCapacity))
  | .writeToTun packet => inferInstanceAs (Decidable
      (n.cfg.routeTable.lookup (Ipv4Packet.header packet).srcIp = some pk →
        n.toTun.length < n.cfg.toTunCapacity))
  | .connectToPeer _ | .disconnectFromPeer _ | .noAction _ => .isTrue trivial

instance (act : Act K Packet) : Decidable (Manager.Spares pk act) :=
  match act with
  | .accepted conn => inferInstanceAs (Decidable (conn.remoteId ≠ pk))
  | .readFails s => inferInstanceAs (Decidable (s.connection.remoteId ≠ pk))
  | .sendDatagram s outcome =>
    inferInstanceAs (Decidable (s.connection.remoteId = pk → outcome = .sent))
  | .recvTask | .recvCore _ | .effect | .attempt _ _ | .dialed _ _ | .reportDial _ | .cancelDial _
  | .reportAccept _ | .readDatagram _ _ | .reportSession _ | .channelClosed _ | .cancelSession _ =>
    .isTrue trivial

instance (a : NodeAct K) : Decidable (n.Roomy pk a) :=
  match a with
  | .coordAction => inferInstanceAs (Decidable (∀ a ∈ n.hand.head?, n.ActionFits pk a))
  | .manager .effect => inferInstanceAs (Decidable (∀ e ∈ n.manager.pc.head?, n.manager.Fits pk e))
  | .manager (.readDatagram s _) => inferInstanceAs (Decidable (s.connection.remoteId = pk →
      n.toCoord.length < n.cfg.coordCapacity))
  | .tunRead _ | .tunWrite | .coordIroh | .coordTun | .managerCore | .manager .recvTask
  | .manager (.recvCore _) | .manager (.attempt _ _) | .manager (.dialed _ _)
  | .manager (.reportDial _) | .manager (.cancelDial _) | .manager (.accepted _)
  | .manager (.reportAccept _) | .manager (.readFails _) | .manager (.sendDatagram _ _)
  | .manager (.reportSession _) | .manager (.channelClosed _) | .manager (.cancelSession _) =>
    .isTrue trivial

instance (a : NodeAct K) : Decidable (n.Undisturbed pk a) :=
  match a with
  | .manager act => decidable_of_iff (Manager.Spares pk act ∧ n.Roomy pk (.manager act))
      ⟨fun h => ⟨fun act' heq => by cases heq; exact h.1,h.2⟩,fun h => ⟨h.1 act rfl,h.2⟩⟩
  | .coordAction => decidable_of_iff (n.Roomy pk .coordAction) ⟨fun h => ⟨nofun,h⟩,And.right⟩
  | .tunRead _ | .tunWrite | .coordIroh | .coordTun | .managerCore => .isTrue ⟨nofun,trivial⟩

end Decide

/-- The connection stands in the manager, and the core has heard of it. -/
structure Steady (t : TaskId) (c : Connection K) (n : Node K) : Prop where
  manager : n.manager.Steady t c
  core : n.core.isConnectOpen c.remoteId = some true
  coord : ∀ e ∈ n.toCoord, e.link c.remoteId = none

theorem Quiet.steady (h : n.Quiet) (run : Run system anyStep (start cfg) n tr) {pk : K}
    (hpk : pk ∈ cfg.peers) (hl : n.manager.iroh.stateTable.lookup pk = some (.connected t c)) :
    n.Steady t c := by
  have wired := (dialsBelow run).wired
  obtain rfl := wired.named pk t c hl
  refine ⟨⟨hl,?_,?_,?_,fun x hx hk => ?_⟩,?_,?_⟩
  · simp [h.manager.idle]
  · simp [h.manager.queue]
  · simp [h.manager.accepts]
  · obtain ⟨hf,ho,-⟩ := h.sessions x hx
    have hx := wired.channel x hx ho
    rw [hk,hl,Option.some.injEq,ConnectionState.connected.injEq] at hx
    exact ⟨hx.1.symm,hf⟩
  · rw [h.core_open run hpk,Iroh.isConnected_of_lookup hl]
  · simp [h.toCoord]

theorem Steady.next (h : n.Steady t c) (run : Run system anyStep (start cfg) n tr)
    {a : NodeAct K} (hen : n.enabled a) (spared : ∀ act, a = .manager act →
      Manager.Spares c.remoteId act) : (n.next a).Steady t c := by
  have hd := dialsBelow run
  have kept := (coreKept_run run).core
  have requests := (noLinkRequests_run run).toIroh
  have hm := moved hen
  generalize n.next a = n' at hm
  generalize n.shows a = os at hm
  cases hm with
  | coordIroh free queue answer =>
    rename_i event rest core actions
    refine ⟨h.manager,?_,fun e he => h.coord e (by rw [queue]; exact List.mem_cons_of_mem _ he)⟩
    have hlink : (mapIrohEventToCoreEvent event).link c.remoteId = none :=
      h.coord event (by simp [queue])
    rw [kept.process_open answer h.core,hlink]
    rfl
  | coordTun free queue answer =>
    refine ⟨h.manager,?_,h.coord⟩
    rw [kept.process_open answer h.core]
    rfl
  | coordAction hand =>
    rw [handleAction_eq]
    exact ⟨h.manager,h.core,h.coord⟩
  | managerCore idle queue =>
    rename_i action rest
    obtain ⟨packet,pubKey,rfl⟩ := requests action (by simp [queue])
    exact ⟨h.manager.next hd.wired hd.dialing (l := .recvCore (.sendPacketTo packet pubKey)) idle
      trivial trivial,h.core,h.coord⟩
  | manager hact own =>
    rename_i act
    have quiet : n.manager.NoLinkActions act := by
      cases act with
      | recvCore action => exact absurd rfl (own action)
      | _ => trivial
    refine ⟨h.manager.next hd.wired hd.dialing hact quiet (spared act rfl),h.core,fun e he => ?_⟩
    rcases List.mem_append.mp he with hold | hnew
    · exact h.coord e hold
    · cases act with
      | effect =>
        cases hpc : n.manager.pc with
        | nil => exact absurd hpc hact
        | cons first rest =>
          have hfirst := h.manager.handler first (by simp [hpc])
          simp only [posts,hpc] at hnew
          cases first with
          | send event =>
            rw [List.mem_singleton.mp hnew]
            cases event with
            | connectedToPeer k | disconnectedFromPeer k =>
              have hk : k ≠ c.remoteId := fun hk => hfirst (congrArg some hk)
              simp [IrohEvent.link,mapIrohEventToCoreEvent,Event.link,hk]
            | recvPacketFrom p k => rfl
          | _ => simp at hnew
      | readDatagram s packet =>
        simp only [posts] at hnew
        split at hnew
        · rw [List.mem_singleton.mp hnew]
          rfl
        · simp at hnew
      | _ => simp [posts] at hnew
  | _ => exact ⟨h.manager,h.core,h.coord⟩

def outgoing (c : Connection K) (n : Node K) : List Packet :=
  n.manager.chan c ++ n.onTheWay c.remoteId

theorem Steady.queue_nil (h : n.Steady t c) (kept : CoreKept cfg n) :
    n.core.queue c.remoteId = [] := by
  obtain ⟨s,hs,hopen⟩ := isConnectOpen_iff.mp h.core
  simp only [VpnCore.queue,hs]
  exact kept.core.drained _ s hs hopen

theorem Steady.no_loss (h : n.Steady t c) (run : Run system anyStep (start cfg) n tr)
    {a : NodeAct K} (hen : n.enabled a) (roomy : n.Roomy c.remoteId a) :
    losses c.remoteId (n.shows a) = [] := by
  have wired := (dialsBelow run).wired
  have one := Manager.onePacket_run (manager_run run)
  have hm := moved hen
  by_cases ht : a = .coordTun
  · subst ht
    generalize n.next .coordTun = n' at hm
    generalize n.shows .coordTun = os at hm
    cases hm with
    | coordTun free queue answer =>
      rename_i packet rest core actions
      obtain ⟨s,hs,hopen⟩ := isConnectOpen_iff.mp h.core
      have hgone : n.core.evicted c.remoteId (.packetFromTun packet) = [] := by
        simp only [VpnCore.evicted,hs]
        cases n.core.signalFor c.remoteId (.packetFromTun packet) with
        | none => rfl
        | some x => cases x <;> simp [PeerState.evicted,hopen]
      have htakes := (n.takes_flow packet c.remoteId).2
      rw [hgone,List.map_eq_nil_iff] at htakes
      rw [losses_append,htakes,(n.issues_quiet (.packetFromTun packet) c.remoteId).2]
      rfl
  by_cases ha : a = .coordAction
  · subst ha
    generalize n.next .coordAction = n' at hm
    generalize n.shows .coordAction = os at hm
    cases hm with
    | coordAction hand =>
      rename_i action rest
      have hfits := roomy action (by simp [hand])
      cases action with
      | sendPacketTo packet k =>
        by_cases hk : k = c.remoteId
        · simp [actionShows,hfits hk,losses]
        · simp only [actionShows]
          split <;> simp [losses,NodeObs.lossFor,hk]
      | writeToTun packet =>
        simp only [actionShows]
        split <;> rfl
      | _ => rfl
  by_cases he : a = .manager .effect
  · subst he
    cases hpc : n.manager.pc with
    | nil => exact absurd hpc hen.1
    | cons e rest =>
      have hfits := roomy e (by simp [hpc])
      simp only [shows,Manager.shows,hpc]
      cases e with
      | trySend task packet k =>
        obtain ⟨-,c',hl⟩ := one.trySend task packet k (by rw [hpc]; exact List.mem_cons_self)
        simp only [Manager.performShows]
        by_cases hk : k = c.remoteId
        · subst hk
          rw [h.manager.entry,Option.some.injEq,ConnectionState.connected.injEq] at hl
          obtain ⟨x,hx,hxt,-⟩ := h.manager.session wired
          split
          · rename_i s hf
            have hs := List.mem_of_find?_eq_some hf
            have hroom := hfits rfl s hs (by simpa using List.find?_some hf)
            simp [hroom,losses,NodeObs.lossFor]
          · rename_i hf
            have hnot := List.find?_eq_none.mp hf x hx
            simp [hxt,hl.1] at hnot
        · repeat' split
          all_goals simp [losses,NodeObs.lossFor,hk]
      | dropPacket packet k =>
        obtain ⟨-,hno⟩ := one.dropPacket packet k (by rw [hpc]; exact List.mem_cons_self)
        by_cases hk : k = c.remoteId
        · rw [hk,Iroh.isConnected_of_lookup h.manager.entry] at hno
          simp at hno
        · simp [Manager.performShows,losses,NodeObs.lossFor,hk]
      | _ => rfl
  · exact n.losses_shows ht ha he c.remoteId

theorem Steady.handed_eq (h : n.Steady t c) (wired : n.manager.Wired) (a : NodeAct K) :
    Manager.handedOver c (managerView (n.shows a)) = handed c.remoteId (n.shows a) := by
  simp only [Manager.handedOver,managerView,List.filterMap_filterMap,handed]
  refine List.filterMap_congr fun o ho => ?_
  cases shown ho with
  | manager own =>
    cases Manager.shown own with
    | @handed task packet pubKey rest s hpc found =>
      simp only [NodeObs.manager?,Option.bind_some,NodeObs.handedTo]
      rcases h.manager.session_cases wired (List.mem_of_find?_eq_some found) with ⟨hc,-⟩ | ⟨-,hk⟩
      · simp [hc]
      · have hc : s.connection ≠ c := fun hc => hk (by rw [hc])
        simp [hk,hc]
    | _ => rfl
  | _ => rfl

theorem Steady.passes (h : n.Steady t c) (wired : n.manager.Wired) {a : NodeAct K}
    (hen : n.enabled a) (spared : ∀ act, a = .manager act → Manager.Spares c.remoteId act) :
    Manager.Passes c n.manager (n.next a).manager (managerView (n.shows a)) := by
  have hview := n.managerView_shows (a := a)
  have hm := moved hen
  generalize n.next a = n' at hm
  generalize n.shows a = os at hm hview
  cases hm with
  | managerCore idle queue => exact h.manager.passes wired (l := .recvCore _) idle trivial
  | manager hact own =>
    rw [managerView_map]
    exact h.manager.passes wired hact (spared _ rfl)
  | coordAction hand =>
    rw [hview (by simp),handleAction_eq]
    exact .same c rfl rfl rfl
  | _ =>
    rw [hview (by simp)]
    exact .same c rfl rfl rfl

theorem Steady.forwards (h : n.Steady t c) (run : Run system anyStep (start cfg) n tr)
    {a : NodeAct K} (hen : n.enabled a) (hok : n.Undisturbed c.remoteId a) :
    Manager.sentOver c (managerView (n.shows a)) ++ (n.next a).outgoing c =
      n.outgoing c ++ accepted c.remoteId (n.shows a) := by
  have wired := (dialsBelow run).wired
  have hpasses := h.passes wired hen hok.1
  have hcarries := carries_step (coreKept_run run) wired (Manager.onePacket_run (manager_run run))
    hen c.remoteId
  unfold Carries at hcarries
  rw [h.no_loss run hen hok.2] at hcarries
  have hway := hcarries.lossless
  unfold Manager.Passes at hpasses
  rw [h.handed_eq wired] at hpasses
  rw [outgoing,← List.append_assoc,hpasses,List.append_assoc,hway,outgoing,List.append_assoc]

/-- As long as the connection stands, what is accepted for the peer is sent on it or on the way. -/
theorem Steady.run (h : n.Steady t c) (run₀ : Run system anyStep (start cfg) n tr) {n' : Node K}
    {os : List (NodeObs K)} (run : Run system (Undisturbed c.remoteId) n n' os) :
    n'.Steady t c ∧ Manager.sentOver c (managerView os) ++ n'.outgoing c =
      n.outgoing c ++ accepted c.remoteId os := by
  induction run with
  | nil =>
    refine ⟨h,?_⟩
    simp [Manager.sentOver,managerView,accepted]
  | @snoc n' os a run hok hen ih =>
    obtain ⟨steady,flow⟩ := ih
    have whole := run₀.trans (run.mono fun _ _ _ => trivial)
    refine ⟨steady.next whole hen hok.1,?_⟩
    have hstep := steady.forwards whole hen hok
    have hsent : Manager.sentOver c (managerView (os ++ n'.shows a)) =
        Manager.sentOver c (managerView os) ++ Manager.sentOver c (managerView (n'.shows a)) := by
      rw [managerView_append]
      exact List.filterMap_append
    change Manager.sentOver c (managerView (os ++ n'.shows a)) ++ (n'.next a).outgoing c =
      n.outgoing c ++ accepted c.remoteId (os ++ n'.shows a)
    rw [hsent,List.append_assoc,hstep,← List.append_assoc,flow,accepted_append,List.append_assoc]

theorem Steady.outgoing_nil (h : n.Steady t c) (kept : CoreKept cfg n) (quiet : n.Quiet) :
    n.outgoing c = [] := by
  have hchan : n.manager.chan c = [] := by
    rw [Manager.chan,List.flatMap_eq_nil_iff]
    exact fun x hx => (quiet.sessions x (List.mem_filter.mp hx).1).2.2
  rw [outgoing,hchan,onTheWay,h.queue_nil kept,quiet.manager.idle,quiet.toIroh,quiet.hand]
  rfl

theorem Quiet.sends_accepted (quiet : n.Quiet) (run₀ : Run system anyStep (start cfg) n tr)
    (h : n.Steady t c) {n' : Node K} {os : List (NodeObs K)}
    (run : Run system (Undisturbed c.remoteId) n n' os) (quiet' : n'.Quiet) :
    Manager.sentOver c (managerView os) = accepted c.remoteId os := by
  obtain ⟨h',hflow⟩ := h.run run₀ run
  have kept' := coreKept_run (run₀.trans (run.mono fun _ _ _ => trivial))
  rw [h.outgoing_nil (coreKept_run run₀) quiet,h'.outgoing_nil kept' quiet',List.append_nil,
    List.nil_append] at hflow
  exact hflow

end Node
end MeshNetwork
