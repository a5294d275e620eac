import MeshNetwork.Dials

/-!
The order of the public keys: of two peers the one with the greater key opens the
connection. One handler replaces a session without asking who opened the new one.
-/

set_option autoImplicit false

namespace MeshNetwork
open Runs

/-- The connection was opened by the side with the greater key, as seen from the node `id`. -/
def Connection.InOrder {K : Type} [LinearOrder K] (id : K) (c : Connection K) : Prop :=
  if c.outgoing = true then c.remoteId ≤ id else id < c.remoteId

instance {K : Type} [LinearOrder K] (id : K) (c : Connection K) : Decidable (c.InOrder id) :=
  inferInstanceAs (Decidable (if c.outgoing = true then c.remoteId ≤ id else id < c.remoteId))

def ConnectionEvent.connection {K : Type} : ConnectionEvent K → Option (Connection K)
  | .outgoingConnection conn => some conn
  | .incomingConnection conn => some conn
  | _ => none

def Iroh.ReplacesInOrder {K : Type} [LinearOrder K] (self : Iroh K) : ConnectionEvent K → Prop
  | .incomingConnection conn => self.isConnected conn.remoteId = true → self.id < conn.remoteId
  | _ => True

instance {K : Type} [LinearOrder K] (self : Iroh K) (ev : ConnectionEvent K) :
    Decidable (self.ReplacesInOrder ev) :=
  match ev with
  | .incomingConnection conn => inferInstanceAs (Decidable (_ → self.id < conn.remoteId))
  | .outgoingConnection _ | .disconnected _ | .internalError => .isTrue trivial

namespace Manager
variable {K B : Type} [LinearOrder K]

def ReplacesInOrder (m : Manager K B) : Act K B → Prop
  | .recvTask => ∀ q ∈ m.rxFromTasks.head?, m.iroh.ReplacesInOrder q.event
  | _ => True

instance (m : Manager K B) (l : Act K B) : Decidable (m.ReplacesInOrder l) :=
  match l with
  | .recvTask => inferInstanceAs (Decidable (∀ q ∈ m.rxFromTasks.head?, _))
  | .recvCore _ | .effect
  | .attempt _ _ | .dialed _ _ | .reportDial _ | .cancelDial _ | .accepted _ | .reportAccept _
  | .readDatagram _ _ | .readFails _ | .sendDatagram _ _ | .reportSession _ | .channelClosed _
  | .cancelSession _ => .isTrue trivial

structure KeyOrder (id : K) (m : Manager K B) : Prop where
  sameId : m.iroh.id = id
  opened : m.Opened
  installs : ∀ c, .spawnSession c ∈ m.pc → c.InOrder id
  connected : ∀ k t c, m.iroh.stateTable.lookup k = some (.connected t c) →
    c.remoteId = k ∧ c.InOrder id

theorem KeyOrder.dialed {id : K} {m : Manager K B} (h : KeyOrder id m) {q : Queued K}
    (hq : q ∈ m.rxFromTasks) {c : Connection K} (hev : q.event = .outgoingConnection c) :
    c.InOrder id := by
  obtain ⟨ho,hle⟩ := h.opened.outgoing q hq c hev
  rw [h.sameId] at hle
  simpa [Connection.InOrder,ho] using hle

theorem KeyOrder.joined {id : K} {m : Manager K B} (h : KeyOrder id m) {q : Queued K}
    (hq : q ∈ m.rxFromTasks) {c : Connection K} (hev : q.event = .incomingConnection c)
    (hlt : m.iroh.id < c.remoteId) : c.InOrder id := by
  have ho := h.opened.incoming q hq c hev
  rw [h.sameId] at hlt
  simpa [Connection.InOrder,ho] using hlt

theorem KeyOrder.reaction {id : K} {m : Manager K B} (h : KeyOrder id m) {q : Queued K}
    (hq : q ∈ m.rxFromTasks) (hok : m.iroh.ReplacesInOrder q.event) {effects : List (Effect K B)}
    (r : m.iroh.Reaction q.event effects) :
    (∀ c, .spawnSession c ∈ effects → c.InOrder id) ∧
      ∀ c, q.event.connection = some c → ¬ c.InOrder id → effects = [.close c] := by
  have hout := fun c => h.dialed hq (c := c)
  have hin := fun c => h.joined hq (c := c)
  have ready : ∀ {conn : Connection K} (pre : List (Effect K B)), conn.InOrder id →
      (∀ c, .spawnSession c ∉ pre) →
      (∀ c, .spawnSession c ∈ pre ++ Iroh.initReadyConnection conn → c.InOrder id) := by
    intro conn pre ho hpre c hc
    rcases List.mem_append.mp hc with hp | hr
    · exact absurd hp (hpre c)
    · simp only [Iroh.initReadyConnection,List.mem_cons,reduceCtorEq,Effect.spawnSession.injEq,
        List.not_mem_nil,or_false,false_or] at hr
      rw [hr]
      exact ho
  generalize q.event = ev at r hok hout hin
  cases r with
  | dialed conn hcon =>
    have ho := hout conn rfl
    refine ⟨ready [] ho (by simp),fun c hc hno => ?_⟩
    simp only [ConnectionEvent.connection,Option.some.injEq] at hc
    exact absurd (hc ▸ ho) hno
  | joined conn hl =>
    have ho := hin conn rfl (h.opened.waiting conn.remoteId hl)
    refine ⟨ready [] ho (by simp),fun c hc hno => ?_⟩
    simp only [ConnectionEvent.connection,Option.some.injEq] at hc
    exact absurd (hc ▸ ho) hno
  | replaced conn old task hev hl =>
    have ho : conn.InOrder id := by
      rcases hev with rfl | rfl
      · exact hout conn rfl
      · exact hin conn rfl (hok (Iroh.isConnected_of_lookup hl))
    refine ⟨ready _ ho (by simp),fun c hc hno => ?_⟩
    rcases hev with rfl | rfl
    all_goals
      simp only [ConnectionEvent.connection,Option.some.injEq] at hc
      exact absurd (hc ▸ ho) hno
  | refused conn hev hcon =>
    refine ⟨by simp,fun c hc hno => ?_⟩
    rcases hev with ⟨rfl,-⟩ | rfl
    all_goals
      simp only [ConnectionEvent.connection,Option.some.injEq] at hc
      rw [hc]
  | lost pubKey hcon =>
    refine ⟨fun c hc => ?_,by simp [ConnectionEvent.connection]⟩
    rcases m.iroh.initNewConnection_eq (B := B) pubKey with ⟨-,he⟩ | ⟨-,he⟩ <;> simp [he] at hc
  | ignored pubKey hcon => exact ⟨by simp,by simp [ConnectionEvent.connection]⟩

theorem coreReaction_installs {iroh : Iroh K} {action : CoreAction K B}
    {effects : List (Effect K B)} (h : iroh.CoreReaction action effects) (c : Connection K) :
    .spawnSession c ∉ effects := by
  cases h with
  | restarted pubKey hl =>
    rcases iroh.initNewConnection_eq (B := B) pubKey with ⟨-,he⟩ | ⟨-,he⟩ <;> simp [he]
  | _ => simp

theorem KeyOrder.next {id : K} {m : Manager K B} (h : KeyOrder id m) {l : Act K B}
    (hok : m.ReplacesInOrder l) (hen : m.enabled l) : KeyOrder id (m.next l) := by
  have hid : (m.next l).iroh.id = id := (next_id hen).trans h.sameId
  have hopened := h.opened.next hen
  have hm := moved hen
  generalize hn : m.next l = m' at hm hid hopened
  cases hm with
  | @handle q rest effects idle queue reaction =>
    have hq : q ∈ m.rxFromTasks := by
      rw [queue]
      exact List.mem_cons_self
    have hkeeps : m.iroh.ReplacesInOrder q.event := hok q (by rw [queue]; rfl)
    exact ⟨hid,hopened,(h.reaction hq hkeeps reaction).1,h.connected⟩
  | core idle reaction =>
    exact ⟨hid,hopened,fun c hc => absurd hc (coreReaction_installs reaction c),h.connected⟩
  | @effect e rest hpc =>
    refine ⟨hid,hopened,fun c hc => ?_,fun k t c hl => ?_⟩
    · exact h.installs c (by rw [hpc]; exact List.mem_cons_of_mem _ hc)
    · by_cases hw : e.writes = some k
      · obtain ⟨rfl,hk,-⟩ := perform_connected hw hl
        exact ⟨hk,h.installs c (by rw [hpc]; exact List.mem_cons_self)⟩
      · exact h.connected k t c ((perform_lookup_ne m e hw).symm.trans hl)
  | task own =>
    refine ⟨hid,hopened,?_,?_⟩
    · rw [task_pc m own]
      exact h.installs
    · rw [task_iroh m own]
      exact h.connected

theorem keyOrder_run {id : K} {peers : KeySet K} {channelCapacity : Nat} {m : Manager K B}
    {tr : List (Obs K B)}
    (run : Run system ReplacesInOrder (start id peers channelCapacity) m tr) : KeyOrder id m := by
  refine run.invariant (fun m _ => KeyOrder id m) ?_ fun _ _ _ h hok hen => h.next hok hen
  have hstart : Run system ReplacesInOrder (start id peers channelCapacity)
      (start id peers channelCapacity) ([] : List (Obs K B)) := .nil
  refine ⟨rfl,opened_run hstart,fun c hc => ?_,fun k t c hl => ?_⟩
  · obtain ⟨pubKey,-,⟨-,he⟩ | ⟨-,he⟩⟩ := Iroh.mem_init hc <;> simp at he
  · have hs := (start_lookup.mp hl).2
    simp at hs

structure SessionsInOrder (id : K) (m : Manager K B) : Prop where
  connected : ∀ k t c, m.iroh.stateTable.lookup k = some (.connected t c) →
    c.remoteId = k ∧ c.InOrder id
  refuses : ∀ q ∈ m.rxFromTasks.head?, ∀ c, q.event.connection = some c → ¬ c.InOrder id →
    m.pc = [] → m.ReplacesInOrder .recvTask → (m.next .recvTask).pc = [.close c] ∧
      c ∈ ((m.next .recvTask).next .effect).closed ∧
      ((m.next .recvTask).next .effect).iroh = m.iroh

/-- While incoming connections replace sessions of greater keys only, all sessions keep
to the order of the keys. -/
theorem sessions_in_key_order {id : K} {peers : KeySet K} {channelCapacity : Nat}
    {m : Manager K B} {tr : List (Obs K B)}
    (run : Run system ReplacesInOrder (start id peers channelCapacity) m tr) :
    m.SessionsInOrder id := by
  have h := keyOrder_run run
  refine ⟨h.connected,fun q hq c hc hno idle hok => ?_⟩
  have hmem : q ∈ m.rxFromTasks := List.mem_of_mem_head? hq
  have hisOk : ∃ effects : List (Effect K B), m.iroh.handleConnEvent q.event = .ok effects := by
    cases hev : q.event with
    | internalError => simp [hev,ConnectionEvent.connection] at hc
    | _ => exact ⟨_,rfl⟩
  obtain ⟨effects,heff⟩ := hisOk
  obtain rfl := (h.reaction hmem (hok q hq) (Iroh.reaction heff)).2 c hc hno
  obtain ⟨rest,hrest⟩ := List.head?_eq_some_iff.mp hq
  have hnext : m.next .recvTask = { m with rxFromTasks := rest, pc := [.close c] } := by
    simp [next,hrest,heff]
  rw [hnext]
  exact ⟨rfl,List.mem_cons_self,rfl⟩

/-- The peer with the smaller key opens a connection of its own while it is connected: it
replaces the session that the greater key has opened. -/
theorem smaller_key_replaces_session : ∃ (m : Manager Nat (List UInt8)) (tr : List _),
    Run system anyStep (start 3 ⟨[2],by decide⟩ 8192) m tr ∧
      m.iroh.stateTable.lookup 2 = some (.connected 2 ⟨1,2,false⟩) ∧ ¬ m.SessionsInOrder 3 := by
  let dial : Dial Nat := ⟨0,2,false,none⟩
  let incoming : Connection Nat := ⟨1,2,false⟩
  obtain ⟨m,tr,run,h⟩ := @exec_reaches _ _ _ (system (K := Nat) (B := List UInt8)) anyStep _ _
    (start 3 ⟨[2],by decide⟩ 8192)
    [.effect,.dialed dial 0,.reportDial { dial with ready := some ⟨0,2,true⟩ },.recvTask,.effect,
      .effect,.accepted incoming,.reportAccept incoming,.recvTask,.effect,.effect,.effect,.effect]
    (fun r => decide (r.1.iroh.stateTable.lookup 2 = some (.connected 2 ⟨1,2,false⟩))) (by decide)
  have hl := of_decide_eq_true h
  refine ⟨m,tr,run,hl,fun hm => ?_⟩
  have ho := (hm.connected 2 _ _ hl).2
  simp [Connection.InOrder] at ho

/-- The greater key is dialing when a connection from the other side comes in. -/
theorem sessions_in_key_order_refused : ∃ (m : Manager Nat (List UInt8)) (tr : List _),
    Run system ReplacesInOrder (start 3 ⟨[2],by decide⟩ 8192) m tr ∧
      m.rxFromTasks.head? = some ⟨.incomingConnection ⟨1,2,false⟩,none⟩ ∧
      m.SessionsInOrder 3 := by
  let incoming : Connection Nat := ⟨1,2,false⟩
  obtain ⟨m,tr,run,h⟩ := @exec_reaches _ _ _ (system (K := Nat) (B := List UInt8))
    ReplacesInOrder _ _ (start 3 ⟨[2],by decide⟩ 8192)
    [.effect,.accepted incoming,.reportAccept incoming]
    (fun r => decide (r.1.rxFromTasks.head? = some ⟨.incomingConnection ⟨1,2,false⟩,none⟩))
    (by decide)
  exact ⟨m,tr,run,of_decide_eq_true h,sessions_in_key_order run⟩

end Manager
end MeshNetwork
