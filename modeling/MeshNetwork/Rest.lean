import Mathlib.Algebra.BigOperators.Group.Finset.Basic
import MeshNetwork.CircularWait
import MeshNetwork.Flow
import MeshNetwork.Progress
import MeshNetwork.TwoNodes
import MeshNetwork.Work

set_option autoImplicit false

namespace MeshNetwork
open Runs

def Action.work {K B : Type} : Action K B → Nat
  | .connectToPeer _ => 1
  | .disconnectFromPeer _ => 8
  | .sendPacketTo _ _ => 4
  | .writeToTun _ => 2
  | .noAction _ => 1

def Event.work {K B : Type} : Event K B → Nat
  | .peerConnected _ => 9
  | .peerDisconnected _ => 2
  | .packetFromTun _ => 8
  | .packetFromIroh _ _ => 3

def Signal.work {B : Type} : Signal B → Nat
  | .opened => 9
  | .closed => 2
  | .arrived _ => 8

theorem mapIrohEvent_work {K B : Type} (event : IrohEvent K B) :
    (mapIrohEventToCoreEvent event).work = event.work := by cases event <;> rfl

section Core
variable {K B : Type} [DecidableEq K]

def VpnCore.buffered (core : VpnCore K B) : Nat :=
  core.peers.keys.sum fun pk => (core.queue pk).length

theorem VpnCore.setPeer_buffered {core : VpnCore K B} {pk : K} {s : PeerState B}
    (hs : core.peers.lookup pk = some s) (s' : PeerState B) :
    (core.setPeer pk s').buffered + s.packetQueue.length =
      core.buffered + s'.packetQueue.length := by
  have hmem : pk ∈ core.peers.keys := Finmap.mem_keys.mpr (Finmap.mem_iff.mpr ⟨s,hs⟩)
  have hkeys : (core.setPeer pk s').peers.keys = core.peers.keys := by
    ext k
    simp only [setPeer,Finmap.mem_keys,Finmap.mem_insert]
    refine ⟨fun h => h.elim (fun hk => ?_) id,.inr⟩
    rw [hk]
    exact Finmap.mem_keys.mp hmem
  have hothers : ∀ k ∈ core.peers.keys.erase pk,
      ((core.setPeer pk s').queue k).length = (core.queue k).length := fun k hk => by
    simp only [queue,core.setPeer_lookup_ne s' (Finset.ne_of_mem_erase hk)]
  unfold buffered
  rw [hkeys,← Finset.add_sum_erase _ _ hmem,← Finset.add_sum_erase _ _ hmem,
    Finset.sum_congr rfl hothers,queue_of_lookup hs,queue_of_lookup (core.setPeer_lookup pk s')]
  omega

omit [DecidableEq K] in
theorem PeerState.actions_work (s : PeerState B) (pk : K) (x : Signal B) :
    total Action.work (s.actions pk x) + 5 * (s.step x).packetQueue.length <
      x.work + 5 * s.packetQueue.length := by
  cases x with
  | opened =>
    simp only [actions,step]
    split
    · simp [Action.work,Signal.work]
    · have hsum : total Action.work (s.packetQueue.map fun p => Action.sendPacketTo p pk) =
          4 * s.packetQueue.length := by
        simp [total,Function.comp_def,Action.work,Nat.mul_comm]
      rw [hsum]
      simp only [Signal.work,List.length_nil]
      omega
  | closed =>
    simp only [actions,step]
    split <;> simp [Action.work,Signal.work]
  | arrived p =>
    simp only [actions,step]
    repeat' split
    · simp [Action.work,Signal.work]
    · rename_i hfull
      simp only [total_cons,total_nil,Action.work,Signal.work,List.length_append,
        List.length_singleton,List.length_tail]
      simp only [maxPacketsInQueue] at hfull
      omega
    · simp only [total_cons,total_nil,Action.work,Signal.work,List.length_append,
        List.length_singleton]
      omega

variable [Buf B]

theorem VpnCore.reply_work (core : VpnCore K B) (ev : Event K B) :
    (core.reply ev).work < ev.work := by
  cases ev with
  | peerConnected pk => simp [reply,Action.work,Event.work]
  | peerDisconnected pk => simp [reply,Action.work,Event.work]
  | packetFromTun p =>
    simp only [reply]
    split <;> simp [Action.work,Event.work]
  | packetFromIroh p source =>
    simp only [reply]
    split <;> simp [Action.work,Event.work]

theorem VpnCore.target_work {core : VpnCore K B} {ev : Event K B} {pk : K} {x : Signal B}
    (h : core.target ev = some (pk,x)) : x.work = ev.work := by
  cases ev with
  | peerConnected k =>
    simp only [target,Option.ite_none_right_eq_some,Option.some.injEq,Prod.mk.injEq] at h
    obtain ⟨-,-,rfl⟩ := h
    rfl
  | peerDisconnected k =>
    simp only [target,Option.ite_none_right_eq_some,Option.some.injEq,Prod.mk.injEq] at h
    obtain ⟨-,-,rfl⟩ := h
    rfl
  | packetFromTun p =>
    simp only [target,Option.map_eq_some_iff,Prod.mk.injEq] at h
    obtain ⟨k,-,-,rfl⟩ := h
    rfl
  | packetFromIroh p source => simp [target] at h

/-- The answers to an event, with what is then buffered, weigh less than the event. -/
theorem CoreInvariant.process_work {ipv4Addr : Ipv4Addr} {routeTable : RouteTable K}
    {maxPacketSize : Nat} {core next : VpnCore K B}
    (h : CoreInvariant ipv4Addr routeTable maxPacketSize core) {ev : Event K B}
    {actions : List (Action K B)} (hp : core.process ev = some (next,actions)) :
    total Action.work actions + 5 * next.buffered < ev.work + 5 * core.buffered := by
  cases ht : core.target ev with
  | none =>
    rw [VpnCore.process_reply ht] at hp
    simp only [Option.some.injEq,Prod.mk.injEq] at hp
    obtain ⟨rfl,rfl⟩ := hp
    have := core.reply_work ev
    simp only [total_cons,total_nil]
    omega
  | some r =>
    obtain ⟨pk,x⟩ := r
    obtain ⟨s,hs⟩ := h.target_known ht
    rw [VpnCore.process_target ht hs] at hp
    simp only [Option.some.injEq,Prod.mk.injEq] at hp
    obtain ⟨rfl,rfl⟩ := hp
    have hactions := s.actions_work pk x
    have hbuf := VpnCore.setPeer_buffered hs (s.step x)
    rw [VpnCore.target_work ht] at hactions
    omega

end Core

namespace Manager
variable {K B : Type} [LinearOrder K]

structure Served (channelCapacity : Nat) (m : Manager K B) : Prop where
  capacity : m.channelCapacity = channelCapacity
  queued : ∀ q ∈ m.rxFromTasks, q.event ≠ .internalError

theorem perform_capacity (m : Manager K B) (e : Effect K B) :
    (m.perform e).channelCapacity = m.channelCapacity := by
  cases e <;> simp only [perform,insertState]
  repeat' split
  all_goals rfl

omit [LinearOrder K] in
theorem reports_handled {l : Act K B} {q : Queued K} (hq : q ∈ reports l) :
    q.event ≠ .internalError := by
  cases l with
  | reportDial d =>
    simp only [reports,Option.mem_toList,Option.map_eq_some_iff] at hq
    obtain ⟨c,-,rfl⟩ := hq
    simp
  | reportAccept c =>
    rw [List.mem_singleton.mp hq]
    simp
  | reportSession s =>
    rw [List.mem_singleton.mp hq]
    simp
  | _ => simp [reports] at hq

theorem Served.next {channelCapacity : Nat} {m : Manager K B} (h : Served channelCapacity m)
    {l : Act K B} (hen : m.enabled l) : Served channelCapacity (m.next l) := by
  have hm := moved hen
  generalize hn : m.next l = m' at hm
  cases hm with
  | handle idle queue reaction =>
    exact ⟨h.capacity,fun q hq => h.queued q (by rw [queue]; exact List.mem_cons_of_mem _ hq)⟩
  | core idle reaction => exact ⟨h.capacity,h.queued⟩
  | effect hpc =>
    refine ⟨(m.perform_capacity _).trans h.capacity,?_⟩
    change ∀ q ∈ (m.perform _).rxFromTasks, _
    rw [perform_rxFromTasks]
    exact h.queued
  | task own =>
    refine ⟨?_,fun q hq => ?_⟩
    · rw [← h.capacity]
      cases l <;> first | rfl | simp [Act.byTask] at own
    · rw [task_rxFromTasks m own] at hq
      exact (List.mem_append.mp hq).elim (h.queued q) reports_handled

theorem served_run {ok : Manager K B → Act K B → Prop} {id : K} {peers : KeySet K}
    {channelCapacity : Nat} {m : Manager K B} {tr : List (Obs K B)}
    (run : Run system ok (start id peers channelCapacity) m tr) : Served channelCapacity m :=
  run.invariant (fun m _ => Served channelCapacity m) ⟨rfl,by simp [start]⟩
    fun _ _ _ h _ hen => h.next hen

theorem Served.takes {channelCapacity : Nat} {m : Manager K B} (h : Served channelCapacity m)
    (idle : m.pc = []) (hne : m.rxFromTasks ≠ []) : m.enabled .recvTask := by
  cases hq : m.rxFromTasks with
  | nil => exact absurd hq hne
  | cons q rest =>
    refine ⟨idle,q,by simp [hq],?_⟩
    have hev := h.queued q (by simp [hq])
    cases he : q.event with
    | internalError => exact absurd he hev
    | _ => rfl

end Manager

namespace Node
variable {K : Type} [LinearOrder K]

def work (n : Node K) : Nat :=
  total Action.work n.hand + total CoreAction.work n.toIroh + total IrohEvent.work n.toCoord +
    8 * n.fromTun.length + n.toTun.length + 5 * n.core.buffered + n.manager.work

def Inner (_ : Node K) : NodeAct K → Prop
  | .tunRead _ => False
  | .manager act => act.fromOutside = false
  | _ => True

instance (n : Node K) (a : NodeAct K) : Decidable (n.Inner a) :=
  match a with
  | .tunRead _ => .isFalse id
  | .manager act => inferInstanceAs (Decidable (act.fromOutside = false))
  | .tunWrite | .coordIroh | .coordTun | .coordAction | .managerCore => .isTrue trivial

def Reachable (cfg : Config K) (n : Node K) : Prop := ∃ tr, Run system anyStep (start cfg) n tr

omit [LinearOrder K] in
theorem posts_inner (n : Node K) {act : Act K Packet} (own : act.fromOutside = false) :
    n.posts act = n.manager.sendsIn act := by
  cases act with
  | effect =>
    simp only [posts,Manager.sendsIn]
    cases n.manager.pc with
    | nil => rfl
    | cons e rest => cases e <;> rfl
  | readDatagram s packet => simp [Act.fromOutside] at own
  | _ => rfl

theorem handleAction_work (n : Node K) (action : Action K Packet) :
    (n.handleAction action).work < n.work + action.work := by
  rw [handleAction_eq]
  have hsent : total CoreAction.work (n.irohSends action) + (n.tunSends action).length <
      action.work := by
    cases action with
    | sendPacketTo packet pubKey =>
      simp only [irohSends,tunSends]
      split <;> simp [CoreAction.work,Action.work]
    | writeToTun packet =>
      simp only [irohSends,tunSends]
      split <;> simp [Action.work]
    | _ => simp [irohSends,tunSends,CoreAction.work,Action.work]
  simp only [work,total_append,List.length_append]
  omega

theorem inner_lowers {cfg : Config K} {n : Node K} (kept : CoreKept cfg n)
    (wired : n.manager.Wired) {a : NodeAct K} (inner : n.Inner a) (hen : n.enabled a) :
    (n.next a).work < n.work := by
  have hm := moved hen
  generalize n.next a = n' at hm
  generalize n.shows a = os at hm
  cases hm with
  | tunRead data => exact absurd inner id
  | tunWrite =>
    have hpos := List.length_pos_iff.mpr hen
    simp only [work,List.length_tail]
    omega
  | @coordIroh event rest core actions free queue answer =>
    have hlow := kept.core.process_work answer
    rw [mapIrohEvent_work] at hlow
    simp only [work,free,queue,total_nil,total_cons]
    omega
  | coordTun free queue answer =>
    have hlow := kept.core.process_work answer
    simp only [Event.work] at hlow
    simp only [work,free,queue,total_nil,List.length_cons]
    omega
  | @coordAction action rest hand =>
    have hlow := handleAction_work { n with hand := rest } action
    have hhand : n.work = ({ n with hand := rest } : Node K).work + action.work := by
      simp only [work,hand,total_cons]
      omega
    omega
  | managerCore idle queue =>
    rename_i action rest
    have hlow := Manager.recvCore_work idle action
    simp only [work,queue,total_cons]
    omega
  | @manager act hact own =>
    have hlow := wired.next_work hact inner
    rw [← posts_inner n inner] at hlow
    simp only [work,total_append]
    omega

theorem reachable_descends (cfg : Config K) :
    Descends (system (K := K)) Inner (Reachable cfg) work where
  keeps := fun _ a ⟨_,run⟩ _ hen => ⟨_,.snoc a run trivial hen⟩
  lowers := fun _ _ ⟨_,run⟩ inner hen =>
    inner_lowers (coreKept_run run) (Manager.wired_run (manager_run run)) inner hen

/-- All channels and queues are empty, and no task has anything to report or to do. -/
structure Quiet (n : Node K) : Prop where
  hand : n.hand = []
  toIroh : n.toIroh = []
  toCoord : n.toCoord = []
  fromTun : n.fromTun = []
  toTun : n.toTun = []
  manager : n.manager.Drained
  sessions : ∀ x ∈ n.manager.sessions, x.failing = false ∧ x.txOpen = true ∧ x.packetChannel = []

theorem Quiet.resting {n : Node K} (h : n.Quiet) : Resting system Inner n := by
  intro a inner hen
  cases a with
  | tunRead data => exact inner
  | tunWrite => exact hen h.toTun
  | coordIroh =>
    obtain ⟨-,e,he,-⟩ := hen
    simp [h.toCoord] at he
  | coordTun =>
    obtain ⟨-,p,hp,-⟩ := hen
    simp [h.fromTun] at hp
  | coordAction =>
    obtain ⟨a,ha,-⟩ := hen
    simp [h.hand] at ha
  | managerCore => exact hen.2 h.toIroh
  | manager act =>
    have hact := hen.1
    cases act with
    | recvTask =>
      obtain ⟨-,q,hq,-⟩ := hact
      simp [h.manager.queue] at hq
    | effect => exact hact h.manager.idle
    | reportDial d => exact hact.2.1 (h.manager.dials d hact.1).1
    | cancelDial d =>
      have := (h.manager.dials d hact.1).2
      simp [hact.2] at this
    | reportAccept c =>
      have := hact.1
      simp [h.manager.accepts] at this
    | sendDatagram s outcome => exact hact.2.2 (h.sessions s hact.1).2.2
    | reportSession s =>
      have := (h.sessions s hact.1).1
      simp [hact.2.1] at this
    | channelClosed s =>
      have := (h.sessions s hact.1).2.1
      simp [hact.2.2.1] at this
    | cancelSession s =>
      have := h.manager.sessions s hact.1
      simp [hact.2] at this
    | _ => simp [Inner,Act.fromOutside] at inner

section Stuck
variable {cfg : Config K} {n : Node K} {tr : List (NodeObs K)}

/-- The coordinator always takes the next of what waits for it. -/
theorem resting_channels (run : Run system anyStep (start cfg) n tr)
    (rest : Resting system Inner n) :
    n.hand = [] ∧ n.toCoord = [] ∧ n.fromTun = [] ∧ n.toTun = [] := by
  have h := noLinkRequests_run run
  have hhand : n.hand = [] := by
    cases hh : n.hand with
    | nil => rfl
    | cons a l =>
      refine absurd ⟨a,by simp [hh],?_⟩ (rest .coordAction trivial)
      have hno := h.hand a (by simp [hh])
      cases a with
      | disconnectFromPeer pubKey => simp [Action.requestsLink] at hno
      | _ => trivial
  have answers : ∀ event, n.coreAnswers event := fun event => by
    obtain ⟨core,actions,hp,-⟩ := h.kept.core.process event
    simp [coreAnswers,hp]
  refine ⟨hhand,?_,?_,?_⟩
  · cases hq : n.toCoord with
    | nil => rfl
    | cons e l => exact absurd ⟨hhand,e,by simp [hq],answers _⟩ (rest .coordIroh trivial)
  · cases hq : n.fromTun with
    | nil => rfl
    | cons p l => exact absurd ⟨hhand,p,by simp [hq],answers _⟩ (rest .coordTun trivial)
  · exact Classical.not_not.mp (rest .tunWrite trivial)

theorem resting_quiet (run : Run system anyStep (start cfg) n tr) (hm : 0 < cfg.managerCapacity)
    (hc : 0 < cfg.coordCapacity) (rest : Resting system Inner n) : n.Quiet := by
  obtain ⟨hhand,hcoord,hfrom,hto⟩ := resting_channels run rest
  have hserved := Manager.served_run (manager_run run)
  have own : ∀ act : Act K Packet, act.fromOutside = false → n.posts act = [] ∨
      n.toCoord.length < n.cfg.coordCapacity → ¬ n.manager.enabled act := by
    intro act inner hroom hact
    refine rest (.manager act) inner ⟨hact,?_⟩
    cases act with
    | recvCore action => simp [Act.fromOutside] at inner
    | effect => exact hroom
    | _ => trivial
  have hpc : n.manager.pc = [] := by
    by_contra hne
    refine own .effect rfl (.inr ?_) hne
    rw [hcoord,(coreKept_run run).sameCfg]
    exact hc
  have hiroh : n.toIroh = [] := by
    by_contra hne
    exact rest .managerCore trivial ⟨hpc,hne⟩
  have hqueue : n.manager.rxFromTasks = [] := by
    by_contra hne
    exact own .recvTask rfl (.inl rfl) (hserved.takes hpc hne)
  have hroom : n.manager.room := by
    rw [Manager.room,hqueue,hserved.capacity]
    exact hm
  refine ⟨hhand,hiroh,hcoord,hfrom,hto,⟨hpc,hqueue,?_,fun d hd => ⟨?_,?_⟩,fun x hx => ?_⟩,
    fun x hx => ?_⟩
  · cases ha : n.manager.accepts with
    | nil => rfl
    | cons c l => exact absurd ⟨by simp [ha],hroom⟩ (own (.reportAccept c) rfl (.inl rfl))
  · by_contra hready
    exact own (.reportDial d) rfl (.inl rfl) ⟨hd,hready,hroom⟩
  · by_contra haborted
    exact own (.cancelDial d) rfl (.inl rfl) ⟨hd,by simpa using haborted⟩
  · by_contra haborted
    exact own (.cancelSession x) rfl (.inl rfl) ⟨hx,by simpa using haborted⟩
  · have hfailing : x.failing = false := by
      by_contra hf
      exact own (.reportSession x) rfl (.inl rfl) ⟨hx,by simpa using hf,hroom⟩
    have hempty : x.packetChannel = [] := by
      by_contra hne
      exact own (.sendDatagram x .sent) rfl (.inl rfl) ⟨hx,hfailing,hne⟩
    refine ⟨hfailing,?_,hempty⟩
    by_contra hopen
    exact own (.channelClosed x) rfl (.inl rfl) ⟨hx,hfailing,by simpa using hopen,hempty⟩

theorem can_rest (run : Run system anyStep (start cfg) n tr) (hm : 0 < cfg.managerCapacity)
    (hc : 0 < cfg.coordCapacity) : ∃ t os, Run system Inner n t os ∧ t.Quiet := by
  obtain ⟨t,os,run',rest,-⟩ := (reachable_descends cfg).rests ⟨tr,run⟩
  exact ⟨t,os,run',resting_quiet (run.trans (run'.mono fun _ _ _ => trivial)) hm hc rest⟩

structure ComesToRest (n : Node K) : Prop where
  bounded : ∀ ls t, Path system Inner n ls t → ls.length ≤ n.work
  /-- It stops when nothing is left to do, and at no other point. -/
  stops : ∀ ls t, Path system Inner n ls t → (Resting system Inner t ↔ t.Quiet)
  reached : ∃ t os, Run system Inner n t os ∧ t.Quiet

/-- A node that is left alone takes at most `work` more steps, in whatever order, and then
nothing is left to do. -/
theorem comes_to_rest (run : Run system anyStep (start cfg) n tr) (hm : 0 < cfg.managerCapacity)
    (hc : 0 < cfg.coordCapacity) : ComesToRest n := by
  have h := reachable_descends cfg
  refine ⟨fun ls t path => ?_,fun ls t path => ⟨fun rest => ?_,Quiet.resting⟩,can_rest run hm hc⟩
  · have hlen := h.length_le path ⟨tr,run⟩
    omega
  · obtain ⟨os,run'⟩ := h.along path ⟨tr,run⟩
    exact resting_quiet run' hm hc rest

end Stuck

/-- A connection waits to be handled, and a packet for its peer waits at the coordinator. -/
theorem comes_to_rest_ping : ∃ (n : Node Nat) (tr : List (NodeObs Nat)),
    Run system anyStep (start (.main 1 ⟨10,67,1,1⟩ (AList.insert ⟨10,67,1,2⟩ 2 ∅))) n tr ∧
      n.fromTun.length = 1 ∧ n.manager.rxFromTasks.length = 1 ∧ ComesToRest n := by
  let ping : List UInt8 := [0x45,0,0,20,0,0,0,0,64,0,0,0,10,67,1,1,10,67,1,2]
  let conn : Connection Nat := ⟨7,2,false⟩
  obtain ⟨n,tr,run,h⟩ := @exec_reaches _ _ _ (system (K := Nat)) anyStep _ _
    (start (.main 1 ⟨10,67,1,1⟩ (AList.insert ⟨10,67,1,2⟩ 2 ∅)))
    [.manager .effect,.manager (.accepted conn),.manager (.reportAccept conn),.tunRead ping]
    (fun r => decide (r.1.fromTun.length = 1 ∧ r.1.manager.rxFromTasks.length = 1)) (by decide)
  obtain ⟨hfrom,hqueue⟩ := of_decide_eq_true h
  exact ⟨n,tr,run,hfrom,hqueue,comes_to_rest run (by decide) (by decide)⟩

end Node
end MeshNetwork
