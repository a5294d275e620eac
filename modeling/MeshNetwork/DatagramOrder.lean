import MeshNetwork.Datagrams
import MeshNetwork.KeyOrder
import MeshNetwork.Resilience

set_option autoImplicit false

namespace MeshNetwork
open Runs

variable {K B : Type} [DecidableEq K]

def Dial.brings (c : Connection K) (d : Dial K) : Nat := if d.ready = some c then 1 else 0

def Queued.brings (c : Connection K) (q : Queued K) : Nat :=
  if q.event.connection = some c then 1 else 0

def Effect.installs (c : Connection K) : Effect K B → Nat
  | .spawnSession conn => if conn = c then 1 else 0
  | _ => 0

def Session.serves (c : Connection K) (s : Session K B) : Nat := if s.connection = c then 1 else 0

def Obs.brings (c : Connection K) : Obs K B → Nat
  | .dialed conn => if conn = c then 1 else 0
  | .accepted conn => if conn = c then 1 else 0
  | _ => 0

theorem filterMap_sublist {α β : Type} {f g : α → Option β} {l : List α}
    (h : ∀ a b, f a = some b → g a = some b) : (l.filterMap f).Sublist (l.filterMap g) := by
  induction l with
  | nil => exact .slnil
  | cons a l ih =>
    cases hf : f a with
    | none =>
      rw [List.filterMap_cons_none hf]
      refine ih.trans ?_
      rw [List.filterMap_cons]
      split
      · exact .refl _
      · exact List.sublist_cons_self _ _
    | some b =>
      rw [List.filterMap_cons_some hf,List.filterMap_cons_some (h a b hf)]
      exact ih.cons_cons b

section Handlers
variable {K : Type} [LinearOrder K] (c : Connection K)

theorem Iroh.Reaction.installs {iroh : Iroh K} {event : ConnectionEvent K}
    {effects : List (Effect K B)} (h : iroh.Reaction event effects) :
    total (Effect.installs c) effects ≤ if event.connection = some c then 1 else 0 := by
  cases h with
  | dialed conn hc => simp [Iroh.initReadyConnection,Effect.installs,ConnectionEvent.connection]
  | joined conn hw => simp [Iroh.initReadyConnection,Effect.installs,ConnectionEvent.connection]
  | replaced conn old task hev hl =>
    rcases hev with rfl | rfl <;>
      simp [Iroh.initReadyConnection,Effect.installs,ConnectionEvent.connection]
  | refused conn hev hc => simp [Effect.installs]
  | lost pubKey hc =>
    rcases iroh.initNewConnection_eq (B := B) pubKey with ⟨-,he⟩ | ⟨-,he⟩ <;>
      simp [he,Effect.installs]
  | ignored pubKey hc => simp

theorem Iroh.CoreReaction.installs {iroh : Iroh K} {action : CoreAction K B}
    {effects : List (Effect K B)} (h : iroh.CoreReaction action effects) :
    total (Effect.installs c) effects = 0 := by
  cases h with
  | restarted pubKey hl =>
    rcases iroh.initNewConnection_eq (B := B) pubKey with ⟨-,he⟩ | ⟨-,he⟩ <;>
      simp [he,Effect.installs]
  | _ => simp [Effect.installs]

end Handlers

namespace Session
variable (c : Connection K) (task : TaskId)

theorem abort_serves (s : Session K B) : (s.abort task).serves c = s.serves c := by
  unfold abort
  split <;> rfl

theorem closeChannel_serves (s : Session K B) : (s.closeChannel task).serves c = s.serves c := by
  unfold closeChannel
  split <;> rfl

theorem fail_serves (s : Session K B) : (s.fail task).serves c = s.serves c := by
  unfold fail
  split <;> rfl

theorem pop_serves (s : Session K B) : (s.pop task).serves c = s.serves c := by
  unfold pop
  split <;> rfl

theorem push_serves (packet : B) (s : Session K B) :
    (s.push task packet).serves c = s.serves c := by
  unfold push
  split <;> rfl

end Session

theorem Dial.abort_brings (c : Connection K) (task : TaskId) (d : Dial K) :
    (d.abort task).brings c = d.brings c := by
  unfold abort
  split <;> rfl

namespace Manager
variable {K : Type} [LinearOrder K] (c : Connection K)

def copies (m : Manager K B) : Nat :=
  total (Dial.brings c) m.dials + m.accepts.count c + total (Queued.brings c) m.rxFromTasks +
    total (Effect.installs c) m.pc + total (Session.serves c) m.sessions

theorem insertState_serves (m : Manager K B) (pubKey : K) (state : ConnectionState K) :
    total (Session.serves c) (m.insertState pubKey state).sessions =
      total (Session.serves c) m.sessions := by
  simp only [insertState]
  split
  · exact total_map (Session.closeChannel_serves c _) _
  · rfl

theorem effect_copies {m : Manager K B} {e : Effect K B} {rest : List (Effect K B)}
    (hpc : m.pc = e :: rest) : ((m.perform e).setPc rest).copies c = m.copies c := by
  have hinsert := m.insertState_serves c
  cases e with
  | abort task =>
    have hd := total_map (Dial.abort_brings c task) m.dials
    have hs := total_map (Session.abort_serves (B := B) c task) m.sessions
    simp only [copies,setPc,perform,hpc,hd,hs,total_cons,Effect.installs]
    omega
  | trySend task packet pubKey =>
    have hpush := total_map (Session.push_serves c task packet) m.sessions
    simp only [perform]
    repeat' split
    all_goals
      simp only [copies,setPc,hpc,hpush,total_cons,Effect.installs]
      omega
  | spawnSession conn =>
    have hs := hinsert conn.remoteId (.connected m.nextTask conn)
    simp only [insertState] at hs
    simp only [copies,setPc,perform,insertState,hpc,total_cons,Effect.installs,hs,Session.serves]
    omega
  | spawnDial pubKey =>
    have hs := hinsert pubKey (.connecting m.nextTask)
    simp only [insertState] at hs
    simp only [copies,setPc,perform,insertState,hpc,total_cons,Effect.installs,hs,Dial.brings]
    simp
  | insertWaiting pubKey =>
    have hs := hinsert pubKey .waitingIncomingConnection
    simp only [insertState] at hs
    simp only [copies,setPc,perform,insertState,hpc,total_cons,Effect.installs,hs]
    omega
  | insertDisconnected pubKey =>
    have hs := hinsert pubKey .disconnected
    simp only [insertState] at hs
    simp only [copies,setPc,perform,insertState,hpc,total_cons,Effect.installs,hs]
    omega
  | _ =>
    simp only [copies,setPc,perform,hpc,total_cons,Effect.installs]
    omega

/-- A connection comes from the transport and is then passed on, never copied. -/
theorem next_copies [DecidableEq B] {m : Manager K B} {l : Act K B} (hen : m.enabled l) :
    (m.next l).copies c ≤ m.copies c + total (Obs.brings c) (m.shows l) := by
  cases l with
  | recvTask =>
    have hm := moved hen
    generalize m.next .recvTask = m' at hm ⊢
    cases hm with
    | handle idle queue reaction =>
      have hone := reaction.installs c
      simp only [copies,idle,queue,total_nil,total_cons,Queued.brings]
      omega
    | task own => simp [Act.byTask] at own
  | recvCore action =>
    have hnone := (Iroh.coreReaction m.iroh action).installs c
    have idle : m.pc = [] := hen
    simp only [copies,next,idle,hnone,total_nil]
    omega
  | effect =>
    cases hpc : m.pc with
    | nil => exact absurd hpc hen
    | cons e rest =>
      have hsame := effect_copies c hpc
      simp only [next,hpc]
      omega
  | attempt d serial => exact Nat.le_add_right _ _
  | dialed d serial =>
    have hsum := total_erase (f := Dial.brings c) hen.1
    simp only [copies,next,shows,total_cons,total_nil,Dial.brings,Obs.brings,Option.some.injEq]
      at hsum ⊢
    omega
  | reportDial d =>
    obtain ⟨hd,hready,-⟩ := hen
    have hsum := total_erase (f := Dial.brings c) hd
    obtain ⟨conn,hconn⟩ := Option.ne_none_iff_exists'.mp hready
    simp only [Dial.brings,hconn,Option.some.injEq] at hsum
    simp only [copies,next,hconn,total_append,total_nil,total_cons,Option.map_some,
      Option.toList_some,Queued.brings,ConnectionEvent.connection,Option.some.injEq]
    omega
  | cancelDial d =>
    have hsum := total_erase (f := Dial.brings c) hen.1
    simp only [copies,next]
    omega
  | accepted conn =>
    simp only [copies,next,shows,total_cons,total_nil,Obs.brings,List.count_cons,beq_iff_eq]
    omega
  | reportAccept conn =>
    have hcount := List.count_erase (a := c) (b := conn) (l := m.accepts)
    have hpos : conn = c → 0 < m.accepts.count c := fun h => by
      rw [← h]
      exact List.count_pos_iff.mpr hen.1
    simp only [copies,next,total_append,total_nil,total_cons,Queued.brings,
      ConnectionEvent.connection,Option.some.injEq,hcount,beq_iff_eq]
    split
    · rename_i h
      have := hpos h
      omega
    · omega
  | readDatagram s packet => exact Nat.le_add_right _ _
  | readFails s =>
    have hfail := total_map (Session.fail_serves (B := B) c s.task) m.sessions
    simp only [copies,next,hfail]
    omega
  | sendDatagram s outcome =>
    have hpop := total_map (Session.pop_serves (B := B) c s.task) m.sessions
    have hfail := total_map (Session.fail_serves (B := B) c s.task)
      (m.sessions.map (Session.pop s.task))
    cases outcome with
    | failed =>
      simp only [copies,next,hfail,hpop]
      omega
    | sent | tooLarge =>
      simp only [copies,next,hpop]
      omega
  | reportSession s =>
    have hsub := total_sublist (Session.serves (B := B) c)
      (List.filter_sublist (p := fun x => x.task ≠ s.task) (l := m.sessions))
    simp only [copies,next,total_append,total_cons,total_nil,Queued.brings,
      ConnectionEvent.connection,reduceCtorEq,if_false]
    omega
  | channelClosed s | cancelSession s =>
    have hsub := total_sublist (Session.serves (B := B) c)
      (List.filter_sublist (p := fun x => x.task ≠ s.task) (l := m.sessions))
    simp only [copies,next]
    omega

def serving (m : Manager K B) : List (Session K B) := m.sessions.filter fun s => s.connection = c

def chan (m : Manager K B) : List B := (m.serving c).flatMap Session.packetChannel

def sentOver (tr : List (Obs K B)) : List B :=
  tr.filterMap fun
    | .sent conn packet => if conn = c then some packet else none
    | _ => none

def handedOver (tr : List (Obs K B)) : List B :=
  tr.filterMap fun
    | .handed conn packet => if conn = c then some packet else none
    | _ => none

omit [LinearOrder K] in
theorem total_serves [DecidableEq K] (l : List (Session K B)) :
    total (Session.serves c) l = (l.filter fun s => s.connection = c).length := by
  induction l with
  | nil => rfl
  | cons s l ih =>
    by_cases h : s.connection = c
    · simp only [total_cons,ih,Session.serves,h,if_true,List.filter_cons,decide_true,
        List.length_cons]
      omega
    · simp [ih,Session.serves,h]

theorem serving_single {m : Manager K B} {s : Session K B} (hone : (m.serving c).length ≤ 1)
    (hs : s ∈ m.sessions) (hc : s.connection = c) : m.serving c = [s] := by
  have hmem : s ∈ m.serving c := List.mem_filter.mpr ⟨hs,by simpa using hc⟩
  obtain ⟨x,hx⟩ := List.length_eq_one_iff.mp
    (Nat.le_antisymm hone (List.length_pos_of_mem hmem))
  rw [hx,List.mem_singleton] at hmem
  rw [hx,hmem]

theorem serving_le [DecidableEq K] (m : Manager K B) : (m.serving c).length ≤ m.copies c := by
  rw [serving,← total_serves]
  unfold copies
  omega

theorem serving_map {l : List (Session K B)} {g : Session K B → Session K B}
    (hg : ∀ s, (g s).connection = s.connection) :
    ((l.map g).filter fun s => s.connection = c) = (l.filter fun s => s.connection = c).map g := by
  rw [List.filter_map]
  congr 2
  funext s
  simp [hg]

theorem chan_map {m m' : Manager K B} {g : Session K B → Session K B}
    (hs : m'.sessions = m.sessions.map g)
    (hg : ∀ s, (g s).connection = s.connection ∧ (g s).packetChannel = s.packetChannel) :
    m'.chan c = m.chan c := by
  rw [chan,serving,hs,serving_map c fun s => (hg s).1,chan,serving,List.flatMap_map]
  exact List.flatMap_congr fun s _ => (hg s).2

theorem insertState_chan (m : Manager K B) (pubKey : K) (state : ConnectionState K) :
    (m.insertState pubKey state).chan c = m.chan c := by
  have hclose : ∀ (task : TaskId) (s : Session K B),
      (s.closeChannel task).connection = s.connection ∧
        (s.closeChannel task).packetChannel = s.packetChannel := by
    intro task s
    unfold Session.closeChannel
    split <;> exact ⟨rfl,rfl⟩
  unfold insertState
  split
  · exact chan_map c rfl (hclose _)
  · rfl

/-- What leaves the channels on a connection in a step and what stays in them is what was in them
and what comes into them. -/
def Passes (m m' : Manager K B) (os : List (Obs K B)) : Prop :=
  sentOver c os ++ m'.chan c = m.chan c ++ handedOver c os

theorem Passes.same {m m' : Manager K B} {os : List (Obs K B)} (chan : m'.chan c = m.chan c)
    (sent : sentOver c os = []) (handed : handedOver c os = []) : Passes c m m' os := by
  unfold Passes
  rw [sent,handed,chan,List.nil_append,List.append_nil]

def Leaves (m m' : Manager K B) (os : List (Obs K B)) : Prop :=
  (sentOver c os ++ m'.chan c).Sublist (m.chan c ++ handedOver c os)

theorem Passes.leaves {m m' : Manager K B} {os : List (Obs K B)} (h : Passes c m m' os) :
    Leaves c m m' os := by
  unfold Leaves
  rw [h]

theorem Leaves.quiet {m m' : Manager K B} {os : List (Obs K B)}
    (chan : (m'.chan c).Sublist (m.chan c)) (sent : sentOver c os = []) : Leaves c m m' os := by
  unfold Leaves
  rw [sent,List.nil_append]
  exact chan.trans (List.sublist_append_left _ _)

theorem Wired.serving_ne {m : Manager K B} (h : m.Wired) {s : Session K B}
    (hs : s ∈ m.sessions) (hc : s.connection ≠ c) {g : Session K B → Session K B}
    (hg : ∀ x, x.task ≠ s.task → g x = x) : (m.serving c).map g = m.serving c := by
  refine (List.map_congr_left fun x hx => ?_).trans (List.map_id _)
  obtain ⟨hmem,hx⟩ := List.mem_filter.mp hx
  refine hg x fun ht => hc ?_
  rw [← h.eq_of_task hmem hs ht]
  simpa using hx

theorem Wired.trySend_passes {m : Manager K B} (h : m.Wired) (hone : (m.serving c).length ≤ 1)
    (task : TaskId) (packet : B) (pubKey : K) (rest : List (Effect K B)) :
    Passes c m ((m.perform (.trySend task packet pubKey)).setPc rest)
      (m.performShows (.trySend task packet pubKey)) := by
  simp only [perform,performShows]
  split
  · rename_i s hf
    have hs := List.mem_of_find?_eq_some hf
    obtain rfl : s.task = task := by simpa using List.find?_some hf
    split
    · have hpushed : ∀ x : Session K B, (x.push s.task packet).connection = x.connection :=
        fun x => (x.push_sameLink s.task packet).connection
      let pushed : Manager K B := { m with sessions := m.sessions.map (.push s.task packet) }
      have hnext : (pushed.setPc rest).serving c = (m.serving c).map (.push s.task packet) :=
        serving_map c hpushed
      by_cases hc : s.connection = c
      · have hone := serving_single c hone hs hc
        have hchan : (pushed.setPc rest).chan c = s.packetChannel ++ [packet] := by
          simp [chan,hnext,hone,Session.push]
        have hnow : m.chan c = s.packetChannel := by simp [chan,hone]
        change Passes c m (pushed.setPc rest) _
        unfold Passes
        rw [hchan,hnow]
        simp [sentOver,handedOver,hc]
      · have hchan : (pushed.setPc rest).chan c = m.chan c := by
          rw [chan,hnext,h.serving_ne c hs hc fun x hx => by simp [Session.push,hx],chan]
        exact .same c hchan rfl (by simp [handedOver,hc])
    · exact .same c rfl rfl rfl
  · exact .same c rfl rfl rfl

theorem Wired.effect_passes {m : Manager K B} (h : m.Wired) (hone : (m.serving c).length ≤ 1)
    (e : Effect K B) (rest : List (Effect K B)) :
    Passes c m ((m.perform e).setPc rest) (m.performShows e) := by
  cases e with
  | abort task =>
    refine .same c (chan_map c (g := Session.abort task) rfl fun s => ?_) rfl rfl
    unfold Session.abort
    split <;> exact ⟨rfl,rfl⟩
  | trySend task packet pubKey => exact h.trySend_passes c hone task packet pubKey rest
  | spawnSession conn =>
    refine .same c ?_ rfl rfl
    rw [← m.insertState_chan c conn.remoteId (.connected m.nextTask conn)]
    simp only [chan,serving,setPc,perform,List.filter_cons]
    split <;> simp
  | spawnDial pubKey =>
    exact .same c (m.insertState_chan c pubKey (.connecting m.nextTask)) rfl rfl
  | insertWaiting pubKey =>
    exact .same c (m.insertState_chan c pubKey .waitingIncomingConnection) rfl rfl
  | insertDisconnected pubKey => exact .same c (m.insertState_chan c pubKey .disconnected) rfl rfl
  | _ => exact .same c rfl rfl rfl

theorem popped_chan {m : Manager K B} (s : Session K B) (outcome : SendOutcome) :
    (m.next (.sendDatagram s outcome)).chan c =
      ((m.serving c).map (.pop s.task)).flatMap Session.packetChannel := by
  have hserving : ({ m with sessions := m.sessions.map (.pop s.task) } : Manager K B).serving c =
      (m.serving c).map (.pop s.task) :=
    serving_map c fun x => (x.pop_sameLink s.task).connection
  rw [← hserving]
  cases outcome with
  | failed =>
    refine chan_map c (m := { m with sessions := m.sessions.map (.pop s.task) })
      (g := Session.fail s.task) rfl fun x => ?_
    unfold Session.fail
    split <;> exact ⟨rfl,rfl⟩
  | sent | tooLarge => rfl

theorem Wired.send_passes {m : Manager K B} (h : m.Wired) (hone : (m.serving c).length ≤ 1)
    {s : Session K B} (hs : s ∈ m.sessions) {outcome : SendOutcome}
    (sent : s.connection = c → outcome = .sent) :
    Passes c m (m.next (.sendDatagram s outcome)) (m.shows (.sendDatagram s outcome)) := by
  by_cases hc : s.connection = c
  · obtain rfl := sent hc
    have hone := serving_single c hone hs hc
    unfold Passes
    rw [popped_chan,chan,hone]
    cases hp : s.packetChannel <;> simp [shows,sentOver,handedOver,Session.pop,hp,hc]
  · refine .same c ?_ ?_ ?_
    · rw [popped_chan,h.serving_ne c hs hc fun x hx => by simp [Session.pop,hx],chan]
    · cases outcome with
      | sent => cases hp : s.packetChannel <;> simp [shows,sentOver,hp,hc]
      | tooLarge | failed => rfl
    · cases outcome with
      | sent => cases hp : s.packetChannel <;> simp [shows,handedOver,hp]
      | tooLarge | failed => rfl

theorem Wired.send_leaves {m : Manager K B} (h : m.Wired) (hone : (m.serving c).length ≤ 1)
    {s : Session K B} (hs : s ∈ m.sessions) (outcome : SendOutcome) :
    Leaves c m (m.next (.sendDatagram s outcome)) (m.shows (.sendDatagram s outcome)) := by
  by_cases hsent : s.connection = c → outcome = .sent
  · exact (h.send_passes c hone hs hsent).leaves
  · simp only [Classical.not_imp] at hsent
    obtain ⟨hc,hsent⟩ := hsent
    have hone := serving_single c hone hs hc
    refine .quiet c ?_ ?_
    · rw [popped_chan,chan,hone]
      simp only [List.map_cons,List.map_nil,List.flatMap_cons,List.flatMap_nil,List.append_nil,
        Session.pop,if_true]
      exact List.tail_sublist _
    · cases outcome with
      | sent => exact absurd rfl hsent
      | tooLarge | failed => rfl

theorem Wired.next_leaves {m : Manager K B} (h : m.Wired) (hone : (m.serving c).length ≤ 1)
    {l : Act K B} (hen : m.enabled l) : Leaves c m (m.next l) (m.shows l) := by
  have same : ∀ {m' : Manager K B} {os : List (Obs K B)}, m'.chan c = m.chan c →
      sentOver c os = [] → handedOver c os = [] → Leaves c m m' os :=
    fun chan sent handed => (Passes.same c chan sent handed).leaves
  have dropped : ∀ s : Session K B, (m.sessions.filter fun x => x.task ≠ s.task).Sublist
      m.sessions := fun s => List.filter_sublist
  cases l with
  | recvTask =>
    have hsame : (m.next .recvTask).sessions = m.sessions := by
      simp only [Manager.next]
      repeat' split
      all_goals rfl
    exact same (by rw [chan,serving,hsame,chan,serving]) rfl rfl
  | effect =>
    cases hpc : m.pc with
    | nil => exact absurd hpc hen
    | cons e rest =>
      simp only [Manager.next,shows,hpc]
      exact (h.effect_passes c hone e rest).leaves
  | sendDatagram s outcome => exact h.send_leaves c hone hen.1 outcome
  | readFails s =>
    refine same (chan_map c (g := Session.fail s.task) rfl fun x => ?_) rfl rfl
    unfold Session.fail
    split <;> exact ⟨rfl,rfl⟩
  | reportSession s | channelClosed s | cancelSession s =>
    exact .quiet c (((dropped s).filter _).flatMap _) rfl
  | _ => exact same rfl rfl rfl

section Run
variable [DecidableEq B] {ok : Manager K B → Act K B → Prop} {id : K} {peers : KeySet K}
variable {channelCapacity : Nat} {m : Manager K B} {tr : List (Obs K B)}

theorem copies_run (run : Run system ok (start id peers channelCapacity) m tr) :
    m.copies c ≤ total (Obs.brings c) tr := by
  induction run with
  | nil =>
    have hinit : total (Effect.installs c) ((Iroh.new id peers).init (B := B)) = 0 := by
      refine total_eq_zero fun e he => ?_
      obtain ⟨k,-,⟨-,rfl⟩ | ⟨-,rfl⟩⟩ := Iroh.mem_init he <;> rfl
    simp [copies,start,hinit]
  | snoc l _ _ hen ih =>
    have hstep := next_copies c hen
    rw [total_append]
    simp only [system] at hstep ⊢
    omega

/-- What was brought once leaves in the order in which it was handed over. -/
theorem order_run (run : Run system ok (start id peers channelCapacity) m tr)
    (once : total (Obs.brings c) tr ≤ 1) :
    (sentOver c tr ++ m.chan c).Sublist (handedOver c tr) := by
  induction run with
  | nil => simp [sentOver,handedOver,chan,serving,start]
  | @snoc m tr l run _ hen ih =>
    rw [total_append] at once
    have hone := ((serving_le c m).trans (copies_run c run)).trans
      (by omega : total (Obs.brings c) tr ≤ 1)
    have hstep := (wired_run run).next_leaves c hone hen
    have hold := ih (by omega)
    have hsent : sentOver c (tr ++ m.shows l) = sentOver c tr ++ sentOver c (m.shows l) :=
      List.filterMap_append
    have hhanded : handedOver c (tr ++ m.shows l) = handedOver c tr ++ handedOver c (m.shows l) :=
      List.filterMap_append
    change (sentOver c (tr ++ m.shows l) ++ (m.next l).chan c).Sublist
      (handedOver c (tr ++ m.shows l))
    rw [hsent,hhanded,List.append_assoc]
    refine (hstep.append_left _).trans ?_
    rw [← List.append_assoc]
    exact hold.append_right _

end Run

end Manager

section Network
variable {K : Type} [LinearOrder K] {honest : K → Prop} {cfg : K → Config K} {s : K → Node K}
variable {tr : List (K × NodeObs K)}

omit [LinearOrder K] in
theorem brings_cases [DecidableEq K] {c : Connection K} {o : Obs K Packet} (h : o.brings c ≠ 0) :
    o = .dialed c ∨ o = .accepted c := by
  cases o with
  | dialed conn =>
    simp only [Obs.brings,ne_eq,ite_eq_right_iff,Nat.one_ne_zero,imp_false,not_not] at h
    exact .inl (by rw [h])
  | accepted conn =>
    simp only [Obs.brings,ne_eq,ite_eq_right_iff,Nat.one_ne_zero,imp_false,not_not] at h
    exact .inr (by rw [h])
  | _ => simp [Obs.brings] at h

theorem brought_direction {ok : Node K → NodeAct K → Prop} {n₀ n : Node K}
    {tr : List (NodeObs K)} (run : Run Node.system ok n₀ n tr) (c : Connection K) :
    (.manager (.dialed c) ∈ tr → c.outgoing = true) ∧
      (.manager (.accepted c) ∈ tr → c.outgoing = false) := by
  induction run with
  | nil => simp
  | @snoc n tr a run _ hen ih =>
    refine ⟨fun h => ?_,fun h => ?_⟩
    · rcases List.mem_append.mp h with hold | hnew
      · exact ih.1 hold
      · cases Node.shown hnew with
        | manager own =>
          cases Manager.shown own with
          | dialed d serial => rfl
    · rcases List.mem_append.mp h with hold | hnew
      · exact ih.2 hold
      · cases Node.shown hnew with
        | manager own =>
          cases Manager.shown own with
          | accepted conn => exact hen.1

theorem brings_step {n : Node K} {a : NodeAct K} {c : Connection K}
    (h : 0 < total (Obs.brings c) (managerView (n.shows a))) :
    ∃ o, n.shows a = [.manager o] ∧ (o = .dialed c ∨ o = .accepted c) := by
  obtain ⟨o,ho,hne⟩ := exists_of_total_pos h
  have hcases := brings_cases hne
  refine ⟨o,?_,hcases⟩
  cases Node.shown (Node.mem_managerView.mp ho) with
  | manager own =>
    rcases hcases with rfl | rfl
    · cases Manager.shown own with
      | dialed d serial => rfl
    · cases Manager.shown own with
      | accepted conn => rfl

/-- The transport brings a connection once. -/
theorem brought_once (run : NetRun (vpnNet honest) (fun k => Node.start (cfg k)) s tr) (k : K)
    (c : Connection K) : total (Obs.brings c) (managerView (view k tr)) ≤ 1 := by
  induction run with
  | nil => exact Nat.zero_le _
  | @snoc s tr j a run hj hok hen hall ih =>
    rw [view_append,Node.managerView_append,total_append]
    by_cases hk : k = j
    · subst hk
      rw [view_self]
      change _ + total (Obs.brings c) (managerView ((s k).shows a)) ≤ 1
      rcases Nat.eq_zero_or_pos (total (Obs.brings c) (managerView ((s k).shows a))) with hz | hpos
      · omega
      obtain ⟨o,hshow,hnew⟩ := brings_step hpos
      have hfresh : (k,o) ∉ managerTrace tr := by
        have hallows := hall (.manager o) (by
          change _ ∈ (s k).shows a
          rw [hshow]
          exact List.mem_cons_self)
        rcases hnew with rfl | rfl
        · exact hallows.2
        · exact hallows.1
      have hself : total (Obs.brings c) (managerView ((s k).shows a)) = 1 := by
        rw [hshow]
        rcases hnew with rfl | rfl <;> simp [managerView,NodeObs.manager?,Obs.brings]
      have hnone : total (Obs.brings c) (managerView (view k tr)) = 0 := by
        by_contra hold
        obtain ⟨o',ho',hne⟩ := exists_of_total_pos (Nat.pos_of_ne_zero hold)
        have hmem := Node.mem_managerView.mp ho'
        have hdirection := brought_direction (.snoc a (run.project k) hok hen) c
        have hsame : o' = o := by
          have hin : .manager o' ∈ view k tr ++ (s k).shows a := List.mem_append_left _ hmem
          have hin' : .manager o ∈ view k tr ++ (s k).shows a := by simp [hshow]
          rcases brings_cases hne with rfl | rfl <;> rcases hnew with rfl | rfl
          · rfl
          · have := (hdirection.1 hin).symm.trans (hdirection.2 hin')
            simp at this
          · have := (hdirection.1 hin').symm.trans (hdirection.2 hin)
            simp at this
          · rfl
        rw [hsame] at hmem
        exact hfresh (managerTrace_of_mem (mem_view.mp hmem))
      omega
    · rw [view_ne hk]
      exact ih

theorem sentOn_view (tr : List (K × NodeObs K)) (k : K) (c : Connection K) :
    sentOn (managerTrace tr) k c = Manager.sentOver c (managerView (view k tr)) := by
  simp only [sentOn,managerTrace,Manager.sentOver,managerView,view,List.filterMap_filterMap]
  refine List.filterMap_congr fun x _ => ?_
  obtain ⟨j,o⟩ := x
  by_cases hj : j = k
  · cases o with
    | manager x =>
      cases x with
      | sent conn packet => by_cases hc : conn = c <;> simp [NodeObs.manager?,hj,hc]
      | _ => simp [NodeObs.manager?,hj]
    | _ => simp [NodeObs.manager?,hj]
  · cases o with
    | manager x => cases x <;> simp [NodeObs.manager?,hj]
    | _ => simp [NodeObs.manager?,hj]

theorem handedOver_sublist (c : Connection K) (tr : List (NodeObs K)) :
    (Manager.handedOver c (managerView tr)).Sublist (handed c.remoteId tr) := by
  simp only [Manager.handedOver,managerView,List.filterMap_filterMap,handed]
  refine filterMap_sublist fun o p hp => ?_
  cases o with
  | manager x =>
    cases x with
    | handed conn packet =>
      simp only [NodeObs.manager?,Option.bind_some,Option.ite_none_right_eq_some] at hp
      simp [NodeObs.handedTo,hp.1,hp.2]
    | _ => simp [NodeObs.manager?] at hp
  | _ => simp [NodeObs.manager?] at hp

/-- The packets leave on each connection in the order in which they were read from the TUN, and
each of them was accepted for the node at the other end. -/
theorem datagrams_in_order (run : NetRun (vpnNet honest) (fun k => Node.start (cfg k)) s tr) (k : K)
    (c : Connection K) :
    (sentOn (managerTrace tr) k c).Sublist (accepted c.remoteId (view k tr)) ∧
      (sentOn (managerTrace tr) k c).Pairwise fun p q => p.ticket < q.ticket := by
  have own := run.project k
  have hsent : (sentOn (managerTrace tr) k c).Sublist
      (Manager.handedOver c (managerView (view k tr))) := by
    rw [sentOn_view]
    exact (List.sublist_append_left _ _).trans
      (Manager.order_run c (Node.manager_run own) (brought_once run k c))
  have hhanded : (handed c.remoteId (view k tr)).Sublist
      (accepted c.remoteId (view k tr)) := by
    have hcarried := (Node.carried_run own c.remoteId).order
    rw [List.nil_append] at hcarried
    exact (List.sublist_append_left _ _).trans hcarried
  have hsub := hsent.trans ((handedOver_sublist c _).trans hhanded)
  refine ⟨hsub,?_⟩
  have hread : (accepted c.remoteId (view k tr) ++ (s k).fromTun).Pairwise
      fun p q => p.ticket < q.ticket := (Node.numbered_run own c.remoteId).order
  exact (List.pairwise_append.mp hread).1.sublist hsub

/-- Node 2 dials node 1 and sends the two packets that it reads. -/
theorem datagrams_in_order_two :
    let cfg : Nat → Config Nat := fun k =>
      if k = 1 then .main 1 ⟨10,67,1,1⟩ (AList.insert ⟨10,67,1,2⟩ 2 ∅)
      else .main 2 ⟨10,67,1,2⟩ (AList.insert ⟨10,67,1,1⟩ 1 ∅)
    ∃ (s : Nat → Node Nat) (tr : List (Nat × NodeObs Nat)),
      NetRun (vpnNet fun k => k = 1 ∨ k = 2) (fun k => Node.start (cfg k)) s tr ∧
      (sentOn (managerTrace tr) 2 ⟨7,1,true⟩).length = 2 ∧
      (sentOn (managerTrace tr) 2 ⟨7,1,true⟩).Sublist (accepted 1 (view 2 tr)) ∧
      (sentOn (managerTrace tr) 2 ⟨7,1,true⟩).Pairwise fun p q => p.ticket < q.ticket := by
  let ping : List UInt8 := [0x45,0,0,20,0,0,0,0,64,0,0,0,10,67,1,2,10,67,1,1]
  let cfg : Nat → Config Nat := fun k =>
    if k = 1 then .main 1 ⟨10,67,1,1⟩ (AList.insert ⟨10,67,1,2⟩ 2 ∅)
    else .main 2 ⟨10,67,1,2⟩ (AList.insert ⟨10,67,1,1⟩ 1 ∅)
  let far : Connection Nat := ⟨7,1,true⟩
  obtain ⟨s,tr,run,h⟩ := @netExec_reaches _ _ _ _ _
    (vpnNet (K := Nat) fun k => k = 1 ∨ k = 2) _ _ _ _ (fun k => Node.start (cfg k))
    [(2,.manager .effect),(2,.manager (.attempt ⟨0,1,false,none⟩ 7)),
      (2,.manager (.dialed ⟨0,1,false,none⟩ 7)),
      (2,.manager (.reportDial ⟨0,1,false,some far⟩)),(2,.manager .recvTask),
      (2,.manager .effect),(2,.manager .effect),(2,.coordIroh),(2,.tunRead ping),(2,.tunRead ping),
      (2,.coordTun),(2,.coordAction),(2,.managerCore),(2,.manager .effect),
      (2,.coordTun),(2,.coordAction),(2,.managerCore),(2,.manager .effect),
      (2,.manager (.sendDatagram ⟨1,far,false,false,true,[⟨0,ping⟩,⟨1,ping⟩]⟩ .sent)),
      (2,.manager (.sendDatagram ⟨1,far,false,false,true,[⟨1,ping⟩]⟩ .sent))]
    (fun r => decide ((sentOn (managerTrace r.2) 2 far).length = 2)) (by decide)
  exact ⟨s,tr,run,of_decide_eq_true h,datagrams_in_order run 2 far⟩

end Network
end MeshNetwork
