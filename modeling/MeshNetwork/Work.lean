import MeshNetwork.Sessions
import MeshNetwork.Totals

/-!
What a manager has left to do when nothing more comes from outside. A thing that waits in a
queue weighs more than all that can come of it.
-/

set_option autoImplicit false

namespace MeshNetwork

def IrohEvent.work {K B : Type} : IrohEvent K B → Nat
  | .connectedToPeer _ => 9
  | .disconnectedFromPeer _ => 2
  | .recvPacketFrom _ _ => 3

def Effect.work {K B : Type} : Effect K B → Nat
  | .abort _ => 1
  | .close _ => 1
  | .send event => 1 + event.work
  | .trySend _ _ _ => 2
  | .dropPacket _ _ => 1
  | .spawnSession _ => 8
  | .spawnDial _ => 2
  | .insertWaiting _ => 1
  | .insertDisconnected _ => 1

def ConnectionEvent.work {K : Type} : ConnectionEvent K → Nat
  | .outgoingConnection _ => 21
  | .incomingConnection _ => 21
  | .disconnected _ => 6
  | .internalError => 1

def Queued.work {K : Type} (q : Queued K) : Nat := q.event.work

def CoreAction.work {K B : Type} : CoreAction K B → Nat
  | .sendPacketTo _ _ => 3
  | .connectToPeer _ => 3
  | .disconnectFromPeer _ => 7

def Dial.work {K : Type} (d : Dial K) : Nat :=
  match d.ready with
  | some _ => 22
  | none => 1

def Session.work {K B : Type} (s : Session K B) : Nat := 7 + s.packetChannel.length

/-- The remote side, the network or a user is behind the step, and not the program alone. -/
def Act.fromOutside {K B : Type} : Act K B → Bool
  | .recvCore _ => true
  | .attempt _ _ => true
  | .dialed _ _ => true
  | .accepted _ => true
  | .readDatagram _ _ => true
  | .readFails _ => true
  | .sendDatagram _ .failed => true
  | _ => false

namespace Session
variable {K B : Type}

theorem abort_work (task : TaskId) (s : Session K B) : (s.abort task).work = s.work := by
  unfold abort
  split <;> rfl

theorem closeChannel_work (task : TaskId) (s : Session K B) :
    (s.closeChannel task).work = s.work := by
  unfold closeChannel
  split <;> rfl

theorem pop_work (task : TaskId) (s : Session K B) : (s.pop task).work ≤ s.work := by
  unfold pop
  split
  · simp only [work,List.length_tail]
    omega
  · exact Nat.le_refl _

theorem pop_own_work {s : Session K B} (h : s.packetChannel ≠ []) :
    (s.pop s.task).work < s.work := by
  have hpos := List.length_pos_iff.mpr h
  simp only [pop,if_true,work,List.length_tail]
  omega

theorem push_total {l : List (Session K B)} (h : (l.map Session.task).Nodup) (task : TaskId)
    (packet : B) : total work (l.map (push task packet)) ≤ total work l + 1 := by
  by_cases hex : ∃ s ∈ l, s.task = task
  · obtain ⟨s,hs,rfl⟩ := hex
    have hone := total_map_one (f := work) (g := push s.task packet) h hs
      fun y hy => by simp [push,hy]
    have hpushed : (s.push s.task packet).work = s.work + 1 := by
      simp only [push,if_true,work,List.length_append,List.length_singleton]
      omega
    omega
  · rw [map_push_absent fun y hy ht => hex ⟨y,hy,ht⟩]
    exact Nat.le_succ _

end Session

theorem Dial.abort_work {K : Type} (task : TaskId) (d : Dial K) : (d.abort task).work = d.work := by
  unfold abort
  split <;> rfl

section Handlers
variable {K B : Type} [LinearOrder K]

theorem Iroh.initNewConnection_work (iroh : Iroh K) (pubKey : K) :
    total Effect.work (iroh.initNewConnection (B := B) pubKey) ≤ 2 := by
  rcases iroh.initNewConnection_eq (B := B) pubKey with ⟨-,he⟩ | ⟨-,he⟩ <;> simp [he,Effect.work]

theorem Iroh.Reaction.work {iroh : Iroh K} {event : ConnectionEvent K}
    {effects : List (Effect K B)} (h : iroh.Reaction event effects) :
    total Effect.work effects < event.work := by
  cases h with
  | dialed conn hc =>
    simp [Iroh.initReadyConnection,Effect.work,ConnectionEvent.work,IrohEvent.work]
  | joined conn hw =>
    simp [Iroh.initReadyConnection,Effect.work,ConnectionEvent.work,IrohEvent.work]
  | replaced conn old task hev hl =>
    rcases hev with rfl | rfl <;>
      simp [Iroh.initReadyConnection,Effect.work,ConnectionEvent.work,IrohEvent.work]
  | refused conn hev hc =>
    rcases hev with ⟨rfl,-⟩ | rfl <;> simp [Effect.work,ConnectionEvent.work]
  | lost pubKey hc =>
    have := iroh.initNewConnection_work (B := B) pubKey
    simp only [total_cons,Effect.work,ConnectionEvent.work,IrohEvent.work]
    omega
  | ignored pubKey hc => simp [ConnectionEvent.work]

theorem Iroh.CoreReaction.work {iroh : Iroh K} {action : CoreAction K B}
    {effects : List (Effect K B)} (h : iroh.CoreReaction action effects) :
    total Effect.work effects < action.work := by
  cases h with
  | restarted pubKey hl =>
    have := iroh.initNewConnection_work (B := B) pubKey
    simp only [CoreAction.work]
    omega
  | _ => simp [Effect.work,CoreAction.work,IrohEvent.work]

end Handlers

namespace Manager
variable {K B : Type} [LinearOrder K]

def work (m : Manager K B) : Nat :=
  total Effect.work m.pc + total Queued.work m.rxFromTasks + total Dial.work m.dials +
    22 * m.accepts.length + total Session.work m.sessions

def sendsIn (m : Manager K B) : Act K B → List (IrohEvent K B)
  | .effect =>
    match m.pc with
    | .send event :: _ => [event]
    | _ => []
  | _ => []

theorem insertState_work (m : Manager K B) (pubKey : K) (state : ConnectionState K) :
    total Session.work (m.insertState pubKey state).sessions = total Session.work m.sessions := by
  simp only [insertState]
  split
  · exact total_map (Session.closeChannel_work _) _
  · rfl

theorem Wired.trySend_work {m : Manager K B} (h : m.Wired) (task : TaskId) (packet : B)
    (pubKey : K) : ∃ l, m.perform (.trySend task packet pubKey) = { m with sessions := l } ∧
      total Session.work l ≤ total Session.work m.sessions + 1 := by
  simp only [perform]
  repeat' split
  · exact ⟨_,rfl,Session.push_total h.single task packet⟩
  all_goals exact ⟨m.sessions,rfl,Nat.le_succ _⟩

theorem Wired.effect_work {m : Manager K B} (h : m.Wired) {e : Effect K B}
    {rest : List (Effect K B)} (hpc : m.pc = e :: rest) :
    ((m.perform e).setPc rest).work + total IrohEvent.work (m.sendsIn .effect) < m.work := by
  have hinsert := m.insertState_work
  cases e with
  | abort task =>
    have hd := total_map (Dial.abort_work task) m.dials
    have hs := total_map (Session.abort_work (B := B) task) m.sessions
    simp only [work,setPc,perform,sendsIn,hpc,hd,hs,total_nil,total_cons,Effect.work]
    omega
  | trySend task packet pubKey =>
    obtain ⟨l,hl,hle⟩ := h.trySend_work task packet pubKey
    simp only [work,setPc,hl,sendsIn,hpc,total_nil,total_cons,Effect.work]
    omega
  | spawnSession conn =>
    have hs := hinsert conn.remoteId (.connected m.nextTask conn)
    simp only [insertState] at hs
    simp only [work,setPc,perform,insertState,sendsIn,hpc,total_nil,total_cons,Effect.work]
    rw [hs]
    simp only [Session.work,List.length_nil]
    omega
  | spawnDial pubKey =>
    have hs := hinsert pubKey (.connecting m.nextTask)
    simp only [insertState] at hs
    simp only [work,setPc,perform,insertState,sendsIn,hpc,total_nil,total_cons,Effect.work]
    rw [hs]
    simp only [Dial.work]
    omega
  | insertWaiting pubKey =>
    have hs := hinsert pubKey .waitingIncomingConnection
    simp only [insertState] at hs
    simp only [work,setPc,perform,insertState,sendsIn,hpc,total_nil,total_cons,Effect.work]
    rw [hs]
    omega
  | insertDisconnected pubKey =>
    have hs := hinsert pubKey .disconnected
    simp only [insertState] at hs
    simp only [work,setPc,perform,insertState,sendsIn,hpc,total_nil,total_cons,Effect.work]
    rw [hs]
    omega
  | send event =>
    simp only [work,setPc,perform,sendsIn,hpc,total_nil,total_cons,Effect.work]
    omega
  | close conn =>
    simp only [work,setPc,perform,sendsIn,hpc,total_nil,total_cons,Effect.work]
    omega
  | dropPacket packet pubKey =>
    simp only [work,setPc,perform,sendsIn,hpc,total_nil,total_cons,Effect.work]
    omega

theorem recvCore_work {m : Manager K B} (hpc : m.pc = []) (action : CoreAction K B) :
    (m.next (.recvCore action)).work < m.work + action.work := by
  have := (Iroh.coreReaction m.iroh action).work
  simp only [next,work,hpc,total_nil]
  omega

/-- The steps that the program takes on its own lower the work of the manager. -/
theorem Wired.next_work {m : Manager K B} (h : m.Wired) {l : Act K B} (hen : m.enabled l)
    (own : l.fromOutside = false) :
    (m.next l).work + total IrohEvent.work (m.sendsIn l) < m.work := by
  cases l with
  | recvTask =>
    have hm := moved hen
    generalize m.next .recvTask = m' at hm ⊢
    cases hm with
    | handle idle queue reaction =>
      have hlow := reaction.work
      simp only [work,sendsIn,idle,queue,total_nil,total_cons,Queued.work]
      omega
    | task own => simp [Act.byTask] at own
  | effect =>
    cases hpc : m.pc with
    | nil => exact absurd hpc hen
    | cons e rest =>
      simp only [Manager.next,hpc]
      exact h.effect_work hpc
  | reportDial d =>
    obtain ⟨hd,hready,-⟩ := hen
    have hsum := total_erase (f := Dial.work) hd
    obtain ⟨c,hc⟩ := Option.ne_none_iff_exists'.mp hready
    simp only [Dial.work,hc] at hsum
    simp only [work,Manager.next,sendsIn,hc,total_append,total_nil,total_cons,
      Option.map_some,Option.toList_some,Queued.work,ConnectionEvent.work]
    omega
  | cancelDial d =>
    have hsum := total_erase (f := Dial.work) hen.1
    have hpos : 0 < d.work := by
      unfold Dial.work
      split <;> omega
    simp only [work,Manager.next,sendsIn,total_nil]
    omega
  | reportAccept c =>
    have hlen := List.length_erase_of_mem hen.1
    have hpos := List.length_pos_of_mem hen.1
    simp only [work,Manager.next,sendsIn,total_append,total_nil,total_cons,hlen,
      Queued.work,ConnectionEvent.work]
    omega
  | sendDatagram s outcome =>
    have hlow := total_lt (f := Session.work) (fun x _ => x.pop_work s.task) hen.1
      (Session.pop_own_work hen.2.2)
    cases outcome with
    | failed => simp [Act.fromOutside] at own
    | sent =>
      simp only [work,Manager.next,sendsIn,total_nil]
      omega
    | tooLarge =>
      simp only [work,Manager.next,sendsIn,total_nil]
      omega
  | reportSession s =>
    have hsum := total_filter (f := Session.work) (p := fun x => x.task ≠ s.task) hen.1 (by simp)
    simp only [work,Manager.next,sendsIn,total_append,total_nil,total_cons,
      Queued.work,ConnectionEvent.work]
    simp only [Session.work] at hsum ⊢
    omega
  | channelClosed s =>
    have hsum := total_filter (f := Session.work) (p := fun x => x.task ≠ s.task) hen.1 (by simp)
    simp only [work,Manager.next,sendsIn,total_nil]
    simp only [Session.work] at hsum ⊢
    omega
  | cancelSession s =>
    have hsum := total_filter (f := Session.work) (p := fun x => x.task ≠ s.task) hen.1 (by simp)
    simp only [work,Manager.next,sendsIn,total_nil]
    simp only [Session.work] at hsum ⊢
    omega
  | _ => simp [Act.fromOutside] at own

end Manager
end MeshNetwork
