import MeshNetwork.Authenticity
import MeshNetwork.Work

set_option autoImplicit false

namespace MeshNetwork
open Runs

variable {K B : Type} [DecidableEq B]

/-- How often `q` is in the channel of a session, when its connection is one of those meant. -/
def Session.holds (P : Connection K → Bool) (q : B) (s : Session K B) : Nat :=
  if P s.connection then s.packetChannel.count q else 0

def Obs.sends (P : Connection K → Bool) (q : B) : Obs K B → Nat
  | .sent conn packet => if P conn = true ∧ packet = q then 1 else 0
  | _ => 0

def Obs.hands (P : Connection K → Bool) (q : B) : Obs K B → Nat
  | .handed conn packet => if P conn = true ∧ packet = q then 1 else 0
  | _ => 0

namespace Session
variable (P : Connection K → Bool) (q : B)

theorem abort_holds (task : TaskId) (s : Session K B) : (s.abort task).holds P q = s.holds P q := by
  unfold abort
  split <;> rfl

theorem closeChannel_holds (task : TaskId) (s : Session K B) :
    (s.closeChannel task).holds P q = s.holds P q := by
  unfold closeChannel
  split <;> rfl

theorem fail_holds (task : TaskId) (s : Session K B) : (s.fail task).holds P q = s.holds P q := by
  unfold fail
  split <;> rfl

theorem push_holds {l : List (Session K B)} (distinct : (l.map task).Nodup) {s : Session K B}
    (hs : s ∈ l) (packet : B) : total (holds P q) (l.map (push s.task packet)) =
      total (holds P q) l + Obs.hands P q (.handed s.connection packet) := by
  have hone := total_map_one (f := holds P q) (g := push s.task packet) distinct hs
    fun y hy => by simp [push,hy]
  have hpushed : (s.push s.task packet).holds P q =
      s.holds P q + Obs.hands P q (.handed s.connection packet) := by
    simp only [holds,push,if_true,Obs.hands,List.count_append,List.count_singleton]
    by_cases hP : P s.connection = true <;> simp [hP]
  omega

theorem pop_holds {l : List (Session K B)} (distinct : (l.map task).Nodup) {s : Session K B}
    (hs : s ∈ l) : total (holds P q) (l.map (pop s.task)) +
      total (Obs.sends P q) (s.packetChannel.head?.toList.map fun p => .sent s.connection p) =
        total (holds P q) l := by
  have hone := total_map_one (f := holds P q) (g := pop s.task) distinct hs
    fun y hy => by simp [pop,hy]
  have hpopped : (s.pop s.task).holds P q +
      total (Obs.sends P q) (s.packetChannel.head?.toList.map fun p => .sent s.connection p) =
        s.holds P q := by
    simp only [holds,pop,if_true]
    by_cases hP : P s.connection = true
    · cases s.packetChannel with
      | nil => simp
      | cons p rest => simp [Obs.sends,hP,List.count_cons]
    · cases s.packetChannel with
      | nil => simp
      | cons p rest => simp [Obs.sends,hP]
  omega

end Session

namespace Manager
variable [LinearOrder K] (P : Connection K → Bool) (q : B)

def held (m : Manager K B) : Nat := total (Session.holds P q) m.sessions

theorem insertState_held (m : Manager K B) (pubKey : K) (state : ConnectionState K) :
    (m.insertState pubKey state).held P q = m.held P q := by
  simp only [held,insertState]
  split
  · exact total_map (Session.closeChannel_holds P q _) _
  · rfl

theorem Wired.effect_held {m : Manager K B} (h : m.Wired) (e : Effect K B) :
    (m.perform e).held P q + total (Obs.sends P q) (m.performShows e) =
      m.held P q + total (Obs.hands P q) (m.performShows e) := by
  cases e with
  | abort task => exact congrArg (· + 0) (total_map (Session.abort_holds P q task) _)
  | trySend task packet pubKey =>
    simp only [perform,performShows]
    split
    · rename_i s hf
      have htask : s.task = task := by simpa using List.find?_some hf
      split
      · have hpush := Session.push_holds P q h.single (List.mem_of_find?_eq_some hf) packet
        rw [htask] at hpush
        simp only [held,hpush,total_cons,total_nil,Obs.sends]
        omega
      · rfl
    · rfl
  | spawnSession conn =>
    have hs := m.insertState_held P q conn.remoteId (.connected m.nextTask conn)
    simp only [held,perform,performShows,total_cons,total_nil,Obs.sends,Obs.hands,Session.holds,
      List.count_nil] at hs ⊢
    simpa using hs
  | spawnDial pubKey =>
    have hs := m.insertState_held P q pubKey (.connecting m.nextTask)
    exact hs
  | insertWaiting pubKey => exact m.insertState_held P q pubKey .waitingIncomingConnection
  | insertDisconnected pubKey => exact m.insertState_held P q pubKey .disconnected
  | _ => rfl

/-- Whatever leaves a channel in a datagram was in it, and whatever is in a channel was handed
to its session. -/
theorem Wired.next_held {m : Manager K B} (h : m.Wired) {l : Act K B} (hen : m.enabled l) :
    (m.next l).held P q + total (Obs.sends P q) (m.shows l) ≤
      m.held P q + total (Obs.hands P q) (m.shows l) := by
  cases l with
  | recvTask =>
    have hsame : (m.next .recvTask).sessions = m.sessions := by
      simp only [Manager.next]
      repeat' split
      all_goals rfl
    simp only [held,hsame]
    exact Nat.le_refl _
  | effect =>
    cases hpc : m.pc with
    | nil => exact absurd hpc hen
    | cons e rest =>
      simp only [Manager.next,shows,hpc]
      exact (h.effect_held P q e).le
  | sendDatagram s outcome =>
    have hpop := Session.pop_holds P q h.single hen.1
    cases outcome with
    | sent => exact hpop.le.trans (Nat.le_add_right _ _)
    | tooLarge => exact (Nat.le_add_right _ _).trans hpop.le
    | failed =>
      have hfail := total_map (Session.fail_holds P q s.task) (m.sessions.map (.pop s.task))
      exact (Nat.le_of_eq hfail).trans ((Nat.le_add_right _ _).trans hpop.le)
  | readFails s => exact Nat.le_of_eq (total_map (Session.fail_holds P q s.task) m.sessions)
  | reportSession s | channelClosed s | cancelSession s =>
    exact total_sublist _ List.filter_sublist
  | _ => exact Nat.le_refl _

theorem held_run {ok : Manager K B → Act K B → Prop} {id : K} {peers : KeySet K}
    {channelCapacity : Nat} {m : Manager K B} {tr : List (Obs K B)}
    (run : Run system ok (start id peers channelCapacity) m tr) :
    m.held P q + total (Obs.sends P q) tr ≤ total (Obs.hands P q) tr := by
  induction run with
  | nil => simp [held,start]
  | snoc l run _ hen ih =>
    have hstep := (wired_run run).next_held P q hen
    simp only [total_append]
    simp only [system] at hstep ⊢
    omega

end Manager

namespace Node
variable {K : Type} [LinearOrder K]

def sentTo (pk : K) (tr : List (NodeObs K)) : List Packet :=
  tr.filterMap fun
    | .manager (.sent conn packet) => if conn.remoteId = pk then some packet else none
    | _ => none

theorem count_sentTo (pk : K) (q : Packet) (tr : List (NodeObs K)) :
    (sentTo pk tr).count q = total (Obs.sends (fun c => c.remoteId = pk) q) (managerView tr) := by
  rw [sentTo,count_filterMap,managerView,total_filterMap]
  refine congrArg List.sum (List.map_congr_left fun o _ => ?_)
  cases o with
  | manager x =>
    cases x with
    | sent conn packet =>
      by_cases hpk : conn.remoteId = pk <;> simp [NodeObs.manager?,Obs.sends,hpk]
    | _ => rfl
  | _ => rfl

theorem count_handed (pk : K) (q : Packet) (tr : List (NodeObs K)) :
    (handed pk tr).count q = total (Obs.hands (fun c => c.remoteId = pk) q) (managerView tr) := by
  rw [handed,count_filterMap,managerView,total_filterMap]
  refine congrArg List.sum (List.map_congr_left fun o _ => ?_)
  cases o with
  | manager x =>
    cases x with
    | handed conn packet =>
      by_cases hpk : conn.remoteId = pk <;>
        simp [NodeObs.handedTo,NodeObs.manager?,Obs.hands,hpk]
    | _ => rfl
  | _ => rfl

variable {cfg : Config K} {n : Node K} {tr : List (NodeObs K)}

/-- No packet leaves for a peer more often than the core accepts it for the peer. -/
theorem count_sentTo_le (run : Run system anyStep (start cfg) n tr) (pk : K) (q : Packet) :
    (sentTo pk tr).count q ≤ (accepted pk tr).count q := by
  have hheld := Manager.held_run (fun c => c.remoteId = pk) q (manager_run run)
  rw [← count_sentTo,← count_handed] at hheld
  have hsub := (carried_run run pk).order.count_le q
  simp only [List.nil_append,List.count_append] at hsub
  omega

theorem accepted_distinct (run : Run system anyStep (start cfg) n tr) (pk : K) :
    ((accepted pk tr).map Packet.ticket).Nodup := by
  rw [List.Nodup,List.pairwise_map]
  exact (List.pairwise_append.mp (numbered_run run pk).order).1.imp fun h => h.ne

theorem sentTo_distinct (run : Run system anyStep (start cfg) n tr) (pk : K) :
    (sentTo pk tr).Nodup :=
  List.nodup_iff_count_le_one.mpr fun q => (count_sentTo_le run pk q).trans
    (List.nodup_iff_count_le_one.mp (accepted_distinct run pk).of_map q)

theorem sentTo_accepted (run : Run system anyStep (start cfg) n tr) {pk : K} {q : Packet}
    (hq : q ∈ sentTo pk tr) : q ∈ accepted pk tr := by
  have hpos := List.count_pos_iff.mpr hq
  exact List.count_pos_iff.mp (hpos.trans_le (count_sentTo_le run pk q))

/-- Each packet that the core accepts for a peer leaves in at most one datagram, over all the
connections that there are to the peer in the course of time. -/
theorem accepted_packets_sent_once (run : Run system anyStep (start cfg) n tr) (pk : K) :
    ((sentTo pk tr).map Packet.ticket).Nodup ∧ ∀ q ∈ sentTo pk tr, .accepted q pk ∈ tr := by
  refine ⟨(sentTo_distinct run pk).map_on fun x hx y hy hxy => ?_,
    fun q hq => mem_accepted (sentTo_accepted run hq)⟩
  exact List.inj_on_of_nodup_map (accepted_distinct run pk) (sentTo_accepted run hx)
    (sentTo_accepted run hy) hxy

/-- The connection is replaced between the two pings. -/
theorem accepted_packets_sent_once_twice :
    let ping : List UInt8 := [0x45,0,0,20,0,0,0,0,64,0,0,0,10,67,1,1,10,67,1,2]
    ∃ (n : Node Nat) (tr : List (NodeObs Nat)),
      Run system anyStep (start (.main 1 ⟨10,67,1,1⟩ (AList.insert ⟨10,67,1,2⟩ 2 ∅))) n tr ∧
      .manager (.sent ⟨7,2,false⟩ ⟨0,ping⟩) ∈ tr ∧ .manager (.sent ⟨8,2,false⟩ ⟨1,ping⟩) ∈ tr ∧
      ((sentTo 2 tr).map Packet.ticket).Nodup ∧ ∀ q ∈ sentTo 2 tr, .accepted q 2 ∈ tr := by
  let ping : List UInt8 := [0x45,0,0,20,0,0,0,0,64,0,0,0,10,67,1,1,10,67,1,2]
  let first : Connection Nat := ⟨7,2,false⟩
  let second : Connection Nat := ⟨8,2,false⟩
  obtain ⟨n,tr,run,h⟩ := @exec_reaches _ _ _ (system (K := Nat)) anyStep _ _
    (start (.main 1 ⟨10,67,1,1⟩ (AList.insert ⟨10,67,1,2⟩ 2 ∅)))
    [.manager .effect,.manager (.accepted first),.manager (.reportAccept first),.manager .recvTask,
      .manager .effect,.manager .effect,.coordIroh,.tunRead ping,.coordTun,.coordAction,
      .managerCore,.manager .effect,
      .manager (.sendDatagram ⟨0,first,false,false,true,[⟨0,ping⟩]⟩ .sent),
      .manager (.accepted second),.manager (.reportAccept second),.manager .recvTask,
      .manager .effect,.manager .effect,.manager .effect,.manager .effect,.coordIroh,.coordAction,
      .tunRead ping,.coordTun,.coordAction,.managerCore,.manager .effect,
      .manager (.sendDatagram ⟨1,second,false,false,true,[⟨1,ping⟩]⟩ .sent)]
    (fun r => decide (.manager (.sent first ⟨0,ping⟩) ∈ r.2 ∧
      .manager (.sent second ⟨1,ping⟩) ∈ r.2)) (by decide)
  obtain ⟨hfirst,hsecond⟩ := of_decide_eq_true h
  exact ⟨n,tr,run,hfirst,hsecond,accepted_packets_sent_once run 2⟩

end Node
end MeshNetwork
