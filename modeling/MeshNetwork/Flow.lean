import MeshNetwork.CoreWindow
import MeshNetwork.Histories
import MeshNetwork.NodeSteps
import MeshNetwork.Sessions

set_option autoImplicit false

namespace MeshNetwork

section Core
variable {K B : Type} [DecidableEq K]

def VpnCore.queue (self : VpnCore K B) (pk : K) : List B :=
  ((self.peers.lookup pk).map PeerState.packetQueue).getD []

theorem VpnCore.queue_of_lookup {self : VpnCore K B} {pk : K} {s : PeerState B}
    (h : self.peers.lookup pk = some s) : self.queue pk = s.packetQueue := by
  simp [queue,h]

def PeerState.evicted (s : PeerState B) : Signal B → List B
  | .arrived _ =>
    if s.isConnected = false ∧ maxPacketsInQueue ≤ s.packetQueue.length then
      s.packetQueue.head?.toList
    else []
  | _ => []

def Signal.packet {B : Type} : Signal B → List B
  | .arrived p => [p]
  | _ => []

theorem PeerState.step_flow (s : PeerState B) (pk : K) (x : Signal B)
    (hd : s.isConnected = true → s.packetQueue = []) :
    s.packetQueue ++ x.packet =
      s.evicted x ++ sendsTo pk (s.actions pk x) ++ (s.step x).packetQueue := by
  cases hc : s.isConnected with
  | true =>
    have hq := hd hc
    cases x <;> simp [Signal.packet,evicted,actions,step,sendsTo,hc,hq]
  | false =>
    cases x with
    | opened => simp [Signal.packet,evicted,actions,step,sendsTo,hc,List.filterMap_map]
    | closed => simp [Signal.packet,evicted,actions,step,sendsTo,hc]
    | arrived p =>
      by_cases hfull : maxPacketsInQueue ≤ s.packetQueue.length
      · cases hq : s.packetQueue with
        | nil => simp [hq,maxPacketsInQueue] at hfull
        | cons old rest =>
          rw [hq,List.length_cons] at hfull
          simp [Signal.packet,evicted,actions,step,sendsTo,hc,hq,hfull]
      · simp [Signal.packet,evicted,actions,step,sendsTo,hc,hfull]

section Process
variable [Buf B] {ipv4Addr : Ipv4Addr} {routeTable : RouteTable K} {maxPacketSize : Nat}
variable {core next : VpnCore K B}

def VpnCore.arrival (self : VpnCore K B) (pk : K) (ev : Event K B) : List B :=
  ((self.signalFor pk ev).map Signal.packet).getD []

def VpnCore.evicted (self : VpnCore K B) (pk : K) (ev : Event K B) : List B :=
  match self.signalFor pk ev, self.peers.lookup pk with
  | some x, some s => s.evicted x
  | _, _ => []

theorem CoreInvariant.process_flow (h : CoreInvariant ipv4Addr routeTable maxPacketSize core)
    {ev : Event K B} {actions : List (Action K B)} (hp : core.process ev = some (next,actions))
    (pk : K) : core.queue pk ++ core.arrival pk ev =
      core.evicted pk ev ++ sendsTo pk actions ++ next.queue pk := by
  cases hs : core.signalFor pk ev with
  | none =>
    obtain ⟨hl,hsend⟩ := h.process_other hs hp
    simp [VpnCore.arrival,VpnCore.evicted,VpnCore.queue,hs,hl,hsend]
  | some x =>
    have ht := VpnCore.target_of_signalFor hs
    obtain ⟨s,hl⟩ := h.target_known ht
    rw [VpnCore.process_target ht hl] at hp
    simp only [Option.some.injEq,Prod.mk.injEq] at hp
    obtain ⟨rfl,rfl⟩ := hp
    rw [VpnCore.queue_of_lookup hl,VpnCore.queue_of_lookup (core.setPeer_lookup pk _)]
    simp only [VpnCore.arrival,VpnCore.evicted,hs,hl,Option.map_some,Option.getD_some]
    exact s.step_flow pk x (h.drained pk s hl)

end Process
end Core

section Passing
variable {K B : Type} [DecidableEq K]

def CoreAction.packetFor (pk : K) : CoreAction K B → Option B
  | .sendPacketTo p k => if k = pk then some p else none
  | _ => none

/-- The packet for `pk` that an effect is about to hand over or to drop. -/
def Effect.packetFor (pk : K) : Effect K B → Option B
  | .trySend _ p k => if k = pk then some p else none
  | .dropPacket p k => if k = pk then some p else none
  | _ => none

end Passing

namespace Manager
variable {K B : Type} [LinearOrder K]

theorem reaction_packetFor {iroh : Iroh K} {ev : ConnectionEvent K} {effects : List (Effect K B)}
    (h : iroh.Reaction ev effects) {e : Effect K B} (he : e ∈ effects) (pk : K) :
    e.packetFor pk = none := by
  rcases h.effect_cases he with ⟨task,rfl⟩ | ⟨conn,rfl⟩ | ⟨k,rfl⟩ | ⟨conn,rfl⟩ |
    ⟨k,-,rfl | rfl | rfl⟩
  all_goals rfl

/-- A handler that has a packet has nothing else to do, and what it does with the packet
fits the table. -/
structure OnePacket (m : Manager K B) : Prop where
  trySend : ∀ t p k, .trySend t p k ∈ m.pc → m.pc = [.trySend t p k] ∧
    ∃ c, m.iroh.stateTable.lookup k = some (.connected t c)
  dropPacket : ∀ p k, .dropPacket p k ∈ m.pc → m.pc = [.dropPacket p k] ∧
    m.iroh.isConnected k = false

theorem OnePacket.quiet {m : Manager K B} (h : ∀ e ∈ m.pc, ∀ pk, e.packetFor pk = none) :
    OnePacket m where
  trySend t p k he := by
    have hn := h _ he k
    simp [Effect.packetFor] at hn
  dropPacket p k he := by
    have hn := h _ he k
    simp [Effect.packetFor] at hn

theorem coreReaction_packetFor {iroh : Iroh K} {action : CoreAction K B}
    {effects : List (Effect K B)} (h : iroh.CoreReaction action effects) (pk : K) :
    effects.filterMap (Effect.packetFor pk) = (action.packetFor pk).toList := by
  cases h with
  | passed packet pubKey task conn hl =>
    by_cases hk : pubKey = pk <;> simp [Effect.packetFor,CoreAction.packetFor,hk]
  | dropped packet pubKey hc =>
    by_cases hk : pubKey = pk <;> simp [Effect.packetFor,CoreAction.packetFor,hk]
  | restarted pubKey hl =>
    rcases iroh.initNewConnection_eq (B := B) pubKey with ⟨-,hnew⟩ | ⟨-,hnew⟩
    · rw [hnew]
      rfl
    · rw [hnew]
      rfl
  | _ => rfl

theorem OnePacket.core {m : Manager K B} {action : CoreAction K B} {effects : List (Effect K B)}
    (h : m.iroh.CoreReaction action effects) : OnePacket { m with pc := effects } := by
  have quiet : (∀ pk, action.packetFor pk = none) → OnePacket { m with pc := effects } := by
    intro hno
    refine .quiet fun e he pk => ?_
    have hnil := coreReaction_packetFor h pk
    rw [hno pk] at hnil
    exact List.filterMap_eq_nil_iff.mp hnil e he
  cases h with
  | passed packet pubKey task conn hl =>
    refine ⟨fun t p k he => ?_,fun p k he => ?_⟩
    · simp only [List.mem_singleton,Effect.trySend.injEq] at he
      obtain ⟨rfl,rfl,rfl⟩ := he
      exact ⟨rfl,conn,hl⟩
    · simp at he
  | dropped packet pubKey hc =>
    refine ⟨fun t p k he => ?_,fun p k he => ?_⟩
    · simp at he
    · simp only [List.mem_singleton,Effect.dropPacket.injEq] at he
      obtain ⟨rfl,rfl⟩ := he
      exact ⟨rfl,hc⟩
  | _ => exact quiet fun pk => rfl

theorem OnePacket.next {m : Manager K B} (h : OnePacket m) {l : Act K B} (hen : m.enabled l) :
    OnePacket (m.next l) := by
  have hm := moved hen
  generalize hn : m.next l = m' at hm
  cases hm with
  | handle idle queue reaction => exact .quiet fun e he => reaction_packetFor reaction he
  | core idle reaction => exact .core reaction
  | effect hpc =>
    rename_i e rest
    refine ⟨fun t p k he => ?_,fun p k he => ?_⟩
    · obtain ⟨hall,-⟩ := h.trySend t p k (by rw [hpc]; exact List.mem_cons_of_mem _ he)
      rw [hpc,List.cons.injEq] at hall
      change _ ∈ rest at he
      simp [hall.2] at he
    · obtain ⟨hall,-⟩ := h.dropPacket p k (by rw [hpc]; exact List.mem_cons_of_mem _ he)
      rw [hpc,List.cons.injEq] at hall
      change _ ∈ rest at he
      simp [hall.2] at he
  | task own =>
    refine ⟨fun t p k he => ?_,fun p k he => ?_⟩
    · rw [task_pc m own] at he ⊢
      rw [task_iroh m own]
      exact h.trySend t p k he
    · rw [task_pc m own] at he ⊢
      rw [task_iroh m own]
      exact h.dropPacket p k he

theorem onePacket_run {ok : Manager K B → Act K B → Prop} {id : K} {peers : KeySet K}
    {channelCapacity : Nat} {m : Manager K B} {tr : List (Obs K B)}
    (run : Runs.Run system ok (start id peers channelCapacity) m tr) : OnePacket m := by
  refine run.invariant (fun m _ => OnePacket m) (.quiet fun e he pk => ?_)
    fun _ _ _ h _ hen => h.next hen
  obtain ⟨k,-,⟨-,rfl⟩ | ⟨-,rfl⟩⟩ := Iroh.mem_init he <;> rfl

end Manager

/-- Why a packet was lost: it was the oldest of a full queue, the next channel was full,
or the manager had no session for it. -/
inductive Loss where
  | evicted
  | channelFull
  | notConnected
  deriving DecidableEq

section Record
variable {K : Type} [DecidableEq K]

def NodeObs.acceptedFor (pk : K) : NodeObs K → Option Packet
  | .accepted packet k => if k = pk then some packet else none
  | _ => none

def NodeObs.handedTo (pk : K) : NodeObs K → Option Packet
  | .manager (.handed conn packet) => if conn.remoteId = pk then some packet else none
  | _ => none

def NodeObs.lossFor (pk : K) : NodeObs K → Option (Loss × Packet)
  | .evicted packet k => if k = pk then some (.evicted,packet) else none
  | .irohFull packet k => if k = pk then some (.channelFull,packet) else none
  | .manager (.channelFull packet k) => if k = pk then some (.channelFull,packet) else none
  | .manager (.notConnected packet k) => if k = pk then some (.notConnected,packet) else none
  | _ => none

def accepted (pk : K) (tr : List (NodeObs K)) : List Packet :=
  tr.filterMap (NodeObs.acceptedFor pk)

def handed (pk : K) (tr : List (NodeObs K)) : List Packet := tr.filterMap (NodeObs.handedTo pk)

def losses (pk : K) (tr : List (NodeObs K)) : List (Loss × Packet) :=
  tr.filterMap (NodeObs.lossFor pk)

theorem accepted_append (pk : K) (tr tr' : List (NodeObs K)) :
    accepted pk (tr ++ tr') = accepted pk tr ++ accepted pk tr' := List.filterMap_append

theorem handed_append (pk : K) (tr tr' : List (NodeObs K)) :
    handed pk (tr ++ tr') = handed pk tr ++ handed pk tr' := List.filterMap_append

theorem losses_append (pk : K) (tr tr' : List (NodeObs K)) :
    losses pk (tr ++ tr') = losses pk tr ++ losses pk tr' := List.filterMap_append

end Record

namespace Node
variable {K : Type} [LinearOrder K]

/-- The accepted packets for `pk` that are still queued or in flight, the first to leave first. -/
def onTheWay (n : Node K) (pk : K) : List Packet :=
  n.manager.pc.filterMap (Effect.packetFor pk) ++ n.toIroh.filterMap (CoreAction.packetFor pk) ++
    sendsTo pk n.hand ++ n.core.queue pk

def Carries (pk : K) (n n' : Node K) (os : List (NodeObs K)) : Prop :=
  Carried (n.onTheWay pk) (accepted pk os) (handed pk os) ((losses pk os).map Prod.snd)
    (n'.onTheWay pk)

theorem accepted_shows (n : Node K) {a : NodeAct K} (h : a ≠ .coordTun) (pk : K) :
    accepted pk (n.shows a) = [] := by
  refine List.filterMap_eq_nil_iff.mpr fun o ho => ?_
  cases shown ho with
  | accepted hacc => exact absurd rfl h
  | _ => rfl

theorem handed_shows (n : Node K) {a : NodeAct K} (h : a ≠ .manager .effect) (pk : K) :
    handed pk (n.shows a) = [] := by
  refine List.filterMap_eq_nil_iff.mpr fun o ho => ?_
  cases shown ho with
  | manager own =>
    cases Manager.shown own with
    | handed hpc hfound => exact absurd rfl h
    | _ => rfl
  | _ => rfl

theorem losses_shows (n : Node K) {a : NodeAct K} (ht : a ≠ .coordTun) (ha : a ≠ .coordAction)
    (he : a ≠ .manager .effect) (pk : K) : losses pk (n.shows a) = [] := by
  refine List.filterMap_eq_nil_iff.mpr fun o ho => ?_
  cases shown ho with
  | evicted packet k => exact absurd rfl ht
  | irohFull packet k => exact absurd rfl ha
  | manager own =>
    cases Manager.shown own with
    | channelFull hpc => exact absurd rfl he
    | ended hpc hnone => exact absurd rfl he
    | dropped hpc => exact absurd rfl he
    | _ => rfl
  | _ => rfl

omit [LinearOrder K] in
theorem sendsTo_cons [DecidableEq K] (pk : K) (action : Action K Packet)
    (rest : List (Action K Packet)) :
    sendsTo pk (action :: rest) = sendsTo pk [action] ++ sendsTo pk rest := by
  rw [← List.singleton_append]
  exact List.filterMap_append

theorem issues_quiet (n : Node K) (event : Event K Packet) (pk : K) :
    accepted pk (n.issues event) = [] ∧ losses pk (n.issues event) = [] := by
  refine ⟨?_,?_⟩
  all_goals
    refine List.filterMap_eq_nil_iff.mpr fun o ho => ?_
    obtain ⟨packet,k,rfl⟩ := mem_issues ho
    rfl

theorem signalFor_packetFromTun (core : VpnCore K Packet) (pk : K) (packet : Packet) :
    core.signalFor pk (.packetFromTun packet) =
      if core.acceptedFor packet = some pk then some (.arrived packet) else none := by
  simp only [VpnCore.signalFor,VpnCore.target]
  cases core.acceptedFor packet with
  | none => simp
  | some k => by_cases hk : k = pk <;> simp [hk]

theorem evicts_eq (n : Node K) (k : K) (packet : Packet) : n.evicts k =
    (((n.core.peers.lookup k).map fun s => s.evicted (.arrived packet)).getD []).map
      fun old => .evicted old k := by
  unfold evicts
  cases n.core.peers.lookup k with
  | none => rfl
  | some s =>
    simp only [Option.map_some,Option.getD_some,PeerState.evicted]
    split <;> rfl

omit [LinearOrder K] in
theorem evicted_quiet [DecidableEq K] (l : List Packet) (k pk : K) :
    accepted pk (l.map fun old => .evicted old k) = [] ∧
      (losses pk (l.map fun old => .evicted old k)).map Prod.snd = if k = pk then l else [] := by
  refine ⟨?_,?_⟩
  · refine List.filterMap_eq_nil_iff.mpr fun o ho => ?_
    obtain ⟨old,-,rfl⟩ := List.mem_map.mp ho
    rfl
  · by_cases hk : k = pk
    · simp [losses,List.filterMap_map,Function.comp_def,NodeObs.lossFor,hk]
    · simp [losses,List.filterMap_map,Function.comp_def,NodeObs.lossFor,hk]

theorem takes_flow (n : Node K) (packet : Packet) (pk : K) :
    accepted pk (n.takes packet) = n.core.arrival pk (.packetFromTun packet) ∧
      (losses pk (n.takes packet)).map Prod.snd = n.core.evicted pk (.packetFromTun packet) := by
  unfold takes VpnCore.arrival VpnCore.evicted
  rw [signalFor_packetFromTun]
  cases hacc : n.core.acceptedFor packet with
  | none => simp [accepted,losses]
  | some k =>
    obtain ⟨ha,hl⟩ := evicted_quiet
      (((n.core.peers.lookup k).map fun s => s.evicted (.arrived packet)).getD []) k pk
    rw [← evicts_eq] at ha hl
    simp only
    rw [← List.singleton_append,accepted_append,losses_append,List.map_append,ha,hl]
    by_cases hk : k = pk
    · subst hk
      cases hpeer : n.core.peers.lookup k <;>
        simp [accepted,losses,NodeObs.acceptedFor,NodeObs.lossFor,Signal.packet]
    · simp [accepted,losses,NodeObs.acceptedFor,NodeObs.lossFor,hk]

theorem performShows_flow {m : Manager K Packet} (hw : m.Wired) (ho : Manager.OnePacket m)
    {e : Effect K Packet} {rest : List (Effect K Packet)} (hpc : m.pc = e :: rest) (pk : K) :
    handed pk ((m.performShows e).map .manager) ++
      (losses pk ((m.performShows e).map .manager)).map Prod.snd = (e.packetFor pk).toList := by
  cases e with
  | trySend task packet k =>
    obtain ⟨-,c,hl⟩ := ho.trySend task packet k (by rw [hpc]; exact List.mem_cons_self)
    simp only [Manager.performShows]
    cases hf : m.sessions.find? fun s => s.task = task with
    | none =>
      by_cases hk : k = pk <;>
        simp [handed,losses,NodeObs.handedTo,NodeObs.lossFor,Effect.packetFor,hk]
    | some s =>
      have htask : s.task = task := by simpa using List.find?_some hf
      have hconn := hw.owned k task c hl s (List.mem_of_find?_eq_some hf) htask
      have hkey : s.connection.remoteId = k := by
        rw [hconn]
        exact hw.named k task c hl
      simp only
      split
      · by_cases hk : k = pk <;>
          simp [handed,losses,NodeObs.handedTo,NodeObs.lossFor,Effect.packetFor,hkey,hk]
      · by_cases hk : k = pk <;>
          simp [handed,losses,NodeObs.handedTo,NodeObs.lossFor,Effect.packetFor,hk]
  | dropPacket packet k =>
    by_cases hk : k = pk <;>
      simp [handed,losses,NodeObs.handedTo,NodeObs.lossFor,Effect.packetFor,
        Manager.performShows,hk]
  | _ => rfl

omit [LinearOrder K] in
theorem irohSends_flow [DecidableEq K] (n : Node K) (action : Action K Packet) (pk : K) :
    (n.irohSends action).filterMap (CoreAction.packetFor pk) ++
      (losses pk (n.actionShows action)).map Prod.snd = sendsTo pk [action] := by
  cases action with
  | sendPacketTo packet k =>
    simp only [actionShows,irohSends]
    split
    · by_cases hk : k = pk <;> simp [losses,sendsTo,CoreAction.packetFor,hk]
    · by_cases hk : k = pk <;> simp [losses,sendsTo,NodeObs.lossFor,hk]
  | writeToTun packet =>
    simp only [actionShows,irohSends]
    split <;> rfl
  | _ => rfl

theorem signalFor_iroh (core : VpnCore K Packet) (pk : K) (event : IrohEvent K Packet) :
    core.arrival pk (mapIrohEventToCoreEvent event) = [] ∧
      core.evicted pk (mapIrohEventToCoreEvent event) = [] := by
  have hs : ∀ p, core.signalFor pk (mapIrohEventToCoreEvent event) ≠ some (.arrived p) := by
    intro p hp
    obtain ⟨hev,-⟩ := target_packet (VpnCore.target_of_signalFor hp)
    cases event <;> simp [mapIrohEventToCoreEvent] at hev
  unfold VpnCore.arrival VpnCore.evicted
  cases hx : core.signalFor pk (mapIrohEventToCoreEvent event) with
  | none => exact ⟨rfl,rfl⟩
  | some x =>
    refine ⟨?_,?_⟩
    · cases x with
      | arrived p => exact absurd hx (hs p)
      | _ => rfl
    · cases core.peers.lookup pk with
      | none => rfl
      | some s =>
        cases x with
        | arrived p => exact absurd hx (hs p)
        | _ => rfl

theorem carries_process {cfg : Config K} {n n' : Node K} (kept : CoreKept cfg n)
    (free : n.hand = []) {event : Event K Packet} {core : VpnCore K Packet}
    {actions : List (Action K Packet)} (answer : n.core.process event = some (core,actions))
    (hn : n'.core = core ∧ n'.hand = actions ∧ n'.manager = n.manager ∧ n'.toIroh = n.toIroh)
    {pk : K} {os : List (NodeObs K)}
    (harr : accepted pk os = n.core.arrival pk event) (hout : handed pk os = [])
    (hlost : (losses pk os).map Prod.snd = n.core.evicted pk event) : Carries pk n n' os := by
  obtain ⟨hc,hh,hm,hi⟩ := hn
  have hflow := kept.core.process_flow answer pk
  unfold Carries onTheWay
  rw [harr,hout,hlost,hc,hm,hi,hh,free,List.append_assoc (_ ++ _) (sendsTo pk actions)]
  refine .cut ?_
  have hnil : sendsTo pk ([] : List (Action K Packet)) = [] := rfl
  rw [hnil,List.append_nil,List.nil_append,List.append_assoc,hflow]
  simp only [List.append_assoc]

theorem carries_quiet {n n' : Node K} {a : NodeAct K} (ht : a ≠ .coordTun) (ha : a ≠ .coordAction)
    (he : a ≠ .manager .effect) {pk : K} (hway : n'.onTheWay pk = n.onTheWay pk) :
    Carries pk n n' (n.shows a) := by
  unfold Carries
  rw [hway,n.accepted_shows ht pk,n.handed_shows he pk,n.losses_shows ht ha he pk]
  exact .idle _

theorem carries_manager {n : Node K} (wired : n.manager.Wired)
    (one : Manager.OnePacket n.manager) {act : Act K Packet} (hact : n.manager.enabled act)
    (own : ∀ action, act ≠ .recvCore action) (pk : K) :
    Carries pk n { n with manager := n.manager.next act, toCoord := n.toCoord ++ n.posts act }
      (n.shows (.manager act)) := by
  have hmm := Manager.moved hact
  generalize hnext : n.manager.next act = m' at hmm
  cases hmm with
  | handle idle queue reaction =>
    rename_i effects
    have hnone : effects.filterMap (Effect.packetFor pk) = [] :=
      List.filterMap_eq_nil_iff.mpr fun e he => Manager.reaction_packetFor reaction he pk
    refine carries_quiet (by simp) (by simp) (by simp) ?_
    change effects.filterMap _ ++ n.toIroh.filterMap _ ++ sendsTo pk n.hand ++ _ =
      n.manager.pc.filterMap _ ++ n.toIroh.filterMap _ ++ sendsTo pk n.hand ++ _
    rw [hnone,idle,List.filterMap_nil]
  | core idle reaction => exact absurd rfl (own _)
  | effect hpc =>
    rename_i e rest
    have hflow := performShows_flow wired one hpc pk
    have hshow : n.shows (.manager .effect) = (n.manager.performShows e).map .manager := by
      simp [Node.shows,Manager.shows,hpc]
    have hsplit : (e :: rest).filterMap (Effect.packetFor pk) =
        (e.packetFor pk).toList ++ rest.filterMap (Effect.packetFor pk) := by
      cases hp : e.packetFor pk <;> simp [hp]
    unfold Carries
    rw [n.accepted_shows (by simp) pk,hshow]
    change Carried _ _ _ _ (rest.filterMap _ ++ n.toIroh.filterMap _ ++ sendsTo pk n.hand ++ _)
    rw [← List.nil_append (rest.filterMap _ ++ _ ++ _ ++ _)]
    refine .cut ?_
    unfold onTheWay
    rw [hpc,hsplit,← hflow]
    simp only [List.append_assoc,List.append_nil]
  | task ownTask =>
    have hne : act ≠ .effect := by
      rintro rfl
      simp [Act.byTask] at ownTask
    refine carries_quiet (by simp) (by simp) (by simpa using hne) ?_
    unfold onTheWay
    change (n.manager.next act).pc.filterMap _ ++ _ ++ _ ++ _ = _
    rw [Manager.task_pc n.manager ownTask]

theorem carries_step {cfg : Config K} {n : Node K} (kept : CoreKept cfg n)
    (wired : n.manager.Wired) (one : Manager.OnePacket n.manager) {a : NodeAct K}
    (hen : n.enabled a) (pk : K) : Carries pk n (n.next a) (n.shows a) := by
  have harr : a ≠ .coordTun → accepted pk (n.shows a) = [] := fun h => n.accepted_shows h pk
  have hout : a ≠ .manager .effect → handed pk (n.shows a) = [] := fun h => n.handed_shows h pk
  have hlost : a ≠ .coordTun → a ≠ .coordAction → a ≠ .manager .effect →
      losses pk (n.shows a) = [] := fun ht ha he => n.losses_shows ht ha he pk
  have hm := moved hen
  generalize n.next a = n' at hm
  generalize hos : n.shows a = os at hm harr hout hlost
  cases hm with
  | tunRead data => exact hos ▸ carries_quiet (by simp) (by simp) (by simp) rfl
  | tunWrite => exact hos ▸ carries_quiet (by simp) (by simp) (by simp) rfl
  | coordIroh free queue answer =>
    rename_i event rest core actions
    obtain ⟨hnone,hev⟩ := signalFor_iroh n.core pk event
    refine carries_process kept free answer ?_ ?_ (hout (by simp)) ?_
    · exact ⟨rfl,rfl,rfl,rfl⟩
    · rw [hnone]
      exact harr (by simp)
    · rw [hev,hlost (by simp) (by simp) (by simp)]
      rfl
  | coordTun free queue answer =>
    rename_i packet rest core actions
    obtain ⟨ha,hl⟩ := n.issues_quiet (.packetFromTun packet) pk
    obtain ⟨htake,hev⟩ := n.takes_flow packet pk
    refine carries_process kept free answer ?_ ?_ (hout (by simp)) ?_
    · exact ⟨rfl,rfl,rfl,rfl⟩
    · rw [accepted_append,ha,List.append_nil,htake]
    · rw [losses_append,hl,List.append_nil,hev]
  | coordAction hand =>
    rename_i action rest
    have hflow := n.irohSends_flow action pk
    unfold Carries
    rw [harr (by simp),hout (by simp),handleAction_eq]
    change Carried _ _ _ _ (_ ++ (n.toIroh ++ n.irohSends action).filterMap _ ++
      sendsTo pk rest ++ n.core.queue pk)
    rw [List.filterMap_append,← List.append_assoc,List.append_assoc _ (sendsTo pk rest)]
    refine .cut ?_
    unfold onTheWay
    rw [hand,sendsTo_cons,← hflow]
    simp only [List.append_assoc,List.append_nil,List.nil_append]
  | managerCore idle queue =>
    rename_i action rest
    have hreact := Manager.coreReaction_packetFor (Iroh.coreReaction n.manager.iroh action) pk
    refine hos ▸ carries_quiet (by simp) (by simp) (by simp) ?_
    unfold onTheWay
    change (n.manager.iroh.handleCoreEvent action).filterMap _ ++ _ ++ _ ++ _ = _
    rw [hreact,idle,queue,List.filterMap_nil,List.nil_append]
    cases hp : action.packetFor pk <;> simp [hp]
  | manager hact own => exact carries_manager wired one hact own pk

theorem start_onTheWay (cfg : Config K) (pk : K) : (start cfg).onTheWay pk = [] := by
  have hpc : ((start cfg).manager.pc).filterMap (Effect.packetFor pk) = [] := by
    refine List.filterMap_eq_nil_iff.mpr fun e he => ?_
    obtain ⟨k,-,⟨-,rfl⟩ | ⟨-,rfl⟩⟩ := Iroh.mem_init he <;> rfl
  have hq : (start cfg).core.queue pk = [] := by
    unfold VpnCore.queue
    cases hl : (start cfg).core.peers.lookup pk with
    | none => rfl
    | some s =>
      obtain ⟨-,rfl⟩ := (VpnCore.new_lookup cfg.ipv4Addr cfg.routeTable cfg.maxPacketSize pk s).mp hl
      rfl
  unfold onTheWay
  rw [hpc,hq]
  rfl

/-- In every run the accepted packets are handed over in order, lost, or on their way. -/
theorem carried_run {cfg : Config K} {ok : Node K → NodeAct K → Prop} {n : Node K}
    {tr : List (NodeObs K)} (run : Runs.Run system ok (start cfg) n tr) (pk : K) :
    Carried [] (accepted pk tr) (handed pk tr) ((losses pk tr).map Prod.snd) (n.onTheWay pk) := by
  induction run with
  | nil =>
    rw [start_onTheWay]
    exact .idle []
  | @snoc n tr a run hok hen ih =>
    have hm := manager_run run
    have hstep := carries_step (coreKept_run run) (Manager.wired_run hm)
      (Manager.onePacket_run hm) hen pk
    rw [accepted_append,handed_append,losses_append,List.map_append]
    exact ih.trans hstep

structure Numbered (pk : K) (n : Node K) (tr : List (NodeObs K)) : Prop where
  order : (accepted pk tr ++ n.fromTun).Pairwise fun p q => p.ticket < q.ticket
  below : ∀ p ∈ accepted pk tr ++ n.fromTun, p.ticket < n.reads

theorem Numbered.sublist {pk : K} {n n' : Node K} {tr tr' : List (NodeObs K)}
    (h : Numbered pk n tr)
    (hs : (accepted pk tr' ++ n'.fromTun).Sublist (accepted pk tr ++ n.fromTun))
    (hr : n'.reads = n.reads) : Numbered pk n' tr' where
  order := h.order.sublist hs
  below p hp := by
    rw [hr]
    exact h.below p (hs.subset hp)

theorem Numbered.read {pk : K} {n : Node K} {tr : List (NodeObs K)} (h : Numbered pk n tr)
    (data : List UInt8) : Numbered pk (n.next (.tunRead data)) tr := by
  have hlt : ∀ p ∈ accepted pk tr ++ n.fromTun, p.ticket < n.reads + 1 := fun p hp =>
    Nat.lt_succ_of_lt (h.below p hp)
  by_cases hroom : n.fromTun.length < n.cfg.fromTunCapacity
  · have hfrom : (n.next (.tunRead data)).fromTun = n.fromTun ++ [⟨n.reads,data⟩] := by
      simp [next,hroom]
    refine ⟨?_,?_⟩
    · rw [hfrom,← List.append_assoc]
      refine List.pairwise_append.mpr ⟨h.order,List.pairwise_singleton _ _,fun p hp q hq => ?_⟩
      rw [List.mem_singleton.mp hq]
      exact h.below p hp
    · rw [hfrom,← List.append_assoc]
      intro p hp
      rcases List.mem_append.mp hp with hold | hnew
      · exact hlt p hold
      · rw [List.mem_singleton.mp hnew]
        exact Nat.lt_succ_self n.reads
  · have hfrom : (n.next (.tunRead data)).fromTun = n.fromTun := by simp [next,hroom]
    refine ⟨?_,?_⟩
    · rw [hfrom]
      exact h.order
    · rw [hfrom]
      exact hlt

theorem Numbered.next {pk : K} {n : Node K} {tr : List (NodeObs K)} (h : Numbered pk n tr)
    {a : NodeAct K} (hen : n.enabled a) : Numbered pk (n.next a) (tr ++ n.shows a) := by
  have harr : a ≠ .coordTun → accepted pk (n.shows a) = [] := fun ht => n.accepted_shows ht pk
  have hm := moved hen
  generalize hnext : n.next a = n' at hm
  generalize n.shows a = os at hm harr
  have same : a ≠ .coordTun → n'.fromTun = n.fromTun → n'.reads = n.reads →
      Numbered pk n' (tr ++ os) := by
    intro ht hfrom hreads
    refine h.sublist ?_ hreads
    rw [accepted_append,harr ht,List.append_nil,hfrom]
  cases hm with
  | tunRead data =>
    rw [List.append_nil]
    exact h.read data
  | coordTun free queue answer =>
    rename_i packet rest core actions
    refine h.sublist ?_ rfl
    rw [accepted_append,accepted_append,(n.issues_quiet _ pk).1,List.append_nil,
      (n.takes_flow packet pk).1,queue,List.append_assoc]
    refine List.Sublist.append_left ?_ _
    unfold VpnCore.arrival
    rw [signalFor_packetFromTun]
    by_cases hacc : n.core.acceptedFor packet = some pk <;> simp [hacc,Signal.packet]
  | coordAction hand =>
    rw [handleAction_eq] at same ⊢
    exact same (by simp) rfl rfl
  | _ => exact same (by simp) rfl rfl

theorem numbered_run {cfg : Config K} {ok : Node K → NodeAct K → Prop} {n : Node K}
    {tr : List (NodeObs K)} (run : Runs.Run system ok (start cfg) n tr) (pk : K) :
    Numbered pk n tr :=
  run.invariant (Numbered pk) ⟨List.Pairwise.nil,by simp [accepted,start]⟩
    fun _ _ _ h _ hen => h.next hen

theorem mem_accepted {pk : K} {tr : List (NodeObs K)} {p : Packet} (h : p ∈ accepted pk tr) :
    .accepted p pk ∈ tr := by
  obtain ⟨o,ho,hp⟩ := List.mem_filterMap.mp h
  cases o with
  | accepted q k =>
    simp only [NodeObs.acceptedFor,Option.ite_none_right_eq_some,Option.some.injEq] at hp
    obtain ⟨rfl,rfl⟩ := hp
    exact ho
  | _ => simp [NodeObs.acceptedFor] at hp

theorem accepted_own {cfg : Config K} {ok : Node K → NodeAct K → Prop} {n : Node K}
    {tr : List (NodeObs K)} (run : Runs.Run system ok (start cfg) n tr) {pk : K} {p : Packet}
    (hp : p ∈ accepted pk tr) : (Ipv4Packet.header p).srcIp = cfg.ipv4Addr ∧
      cfg.routeTable.lookup (Ipv4Packet.header p).destIp = some pk := by
  induction run with
  | nil => simp [accepted] at hp
  | @snoc n tr a run hok hen ih =>
    rw [accepted_append] at hp
    rcases List.mem_append.mp hp with hold | hnew
    · exact ih hold
    · have hkept := (coreKept_run run).core
      cases shown (mem_accepted hnew) with
      | accepted hacc =>
        obtain ⟨hsend,hroute⟩ := VpnCore.acceptedFor_eq_some.mp hacc
        rw [← hkept.routes,← hkept.addr]
        exact ⟨hsend.src,hroute⟩

end Node
end MeshNetwork
