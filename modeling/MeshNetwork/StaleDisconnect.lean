import MeshNetwork.ManagerSteps

/-!
Which session a `Disconnected` event comes from, and which entry it tears down.
-/

set_option autoImplicit false

namespace MeshNetwork
open Runs

namespace Manager
variable {K B : Type} [LinearOrder K]

def disconnects (pk : K) (queue : List (Queued K)) : List (Option TaskId) :=
  queue.filterMap fun q => if q.event = .disconnected pk then some q.sender else none

/-- Handling the next event makes the manager report that `k` is disconnected. -/
def Reports (m : Manager K B) (k : K) : Prop :=
  ∃ e ∈ (m.next .recvTask).pc, .emitted (.disconnectedFromPeer k) ∈ m.performShows e

/-- Handling the next event takes the session away that `k` has now. -/
def EndsSession (m : Manager K B) (k : K) : Prop :=
  ∃ task c, m.iroh.stateTable.lookup k = some (.connected task c) ∧
    ((m.next .recvTask).carryOut (m.next .recvTask).pc).iroh.stateTable.lookup k ≠
      some (.connected task c)

/-- `q` is the `Disconnected` of the session that `k` has now. -/
def OwnFailure (m : Manager K B) (q : Queued K) (k : K) : Prop :=
  q.event = .disconnected k ∧ ∃ task c,
    m.iroh.stateTable.lookup k = some (.connected task c) ∧ q.sender = some task

/-- Whatever the manager handles next: it reports a peer as disconnected for that peer's own
`Disconnected` alone, and no other one ends a session. -/
structure OwnFailureOnly (m : Manager K B) : Prop where
  sender : m.pc = [] → ∀ pk, ∀ q ∈ m.rxFromTasks.head?, q.event = .disconnected pk →
    ∀ task c, m.iroh.stateTable.lookup pk = some (.connected task c) → q.sender = some task
  reports : m.pc = [] → ∀ q ∈ m.rxFromTasks.head?, ∀ k, m.Reports k ↔ m.OwnFailure q k
  ends : m.pc = [] → ∀ pk, ∀ q ∈ m.rxFromTasks.head?, q.event = .disconnected pk →
    ∀ k, m.EndsSession k ↔ m.OwnFailure q k

def installing (m : Manager K B) : Option (Connection K) :=
  match m.pc.head? with
  | some (.spawnSession conn) => some conn
  | _ => none

def owner (m : Manager K B) (pk : K) : Option TaskId :=
  match m.iroh.stateTable.lookup pk with
  | some (.connected task _) => some task
  | _ => none

/-- No session is installed while a `Disconnected` of its peer is queued, and while no
such event is queued a task other than the entry's own does not queue one. -/
def NoStaleReport (m : Manager K B) : Act K B → Prop
  | .effect => ∀ c ∈ m.installing, disconnects c.remoteId m.rxFromTasks = []
  | .reportSession s => disconnects s.connection.remoteId m.rxFromTasks = [] →
      ¬ m.Rewriting s.connection.remoteId → ∀ task ∈ m.owner s.connection.remoteId, s.task = task
  | _ => True

instance (m : Manager K B) (l : Act K B) : Decidable (m.NoStaleReport l) :=
  match l with
  | .effect => inferInstanceAs (Decidable (∀ c ∈ m.installing, _))
  | .reportSession s => inferInstanceAs
    (Decidable (_ → _ → ∀ task ∈ m.owner s.connection.remoteId, s.task = task))
  | .recvTask | .recvCore _
  | .attempt _ _ | .dialed _ _ | .reportDial _ | .cancelDial _ | .accepted _ | .reportAccept _
  | .readDatagram _ _ | .readFails _ | .sendDatagram _ _ | .channelClosed _
  | .cancelSession _ => .isTrue trivial

def FirstIsOwn (m : Manager K B) : Prop :=
  ∀ pk task c, m.iroh.stateTable.lookup pk = some (.connected task c) → ¬ m.Rewriting pk →
    ∀ sender ∈ (disconnects pk m.rxFromTasks).head?, sender = some task

theorem disconnects_append (pk : K) (l l' : List (Queued K)) :
    disconnects pk (l ++ l') = disconnects pk l ++ disconnects pk l' := by
  simp [disconnects]

theorem mem_disconnects_reports {pk : K} {l : Act K B} {sender : Option TaskId}
    (h : sender ∈ disconnects pk (reports l)) :
    ∃ s, l = .reportSession s ∧ s.connection.remoteId = pk ∧ sender = some s.task := by
  cases l with
  | reportSession s =>
    simp only [reports,disconnects,List.filterMap_cons,List.filterMap_nil] at h
    split at h
    · simp at h
    · rename_i hs
      split at hs
      · rename_i hev
        simp only [ConnectionEvent.disconnected.injEq] at hev
        simp only [Option.some.injEq] at hs
        subst hs
        simp only [List.mem_singleton] at h
        exact ⟨s,rfl,hev,h⟩
      · simp at hs
  | reportDial d =>
    cases hr : d.ready <;> simp [reports,disconnects,hr] at h
  | _ => simp [reports,disconnects] at h

theorem FirstIsOwn.next {m : Manager K B} (h : m.FirstIsOwn) {l : Act K B}
    (hok : m.NoStaleReport l) (hen : m.enabled l) : (m.next l).FirstIsOwn := by
  intro pk task c hl hr sender hs
  have hm := moved hen
  generalize hn : m.next l = m' at hm hl hr hs
  cases hm with
  | handle idle queue reaction =>
    rename_i q rest effects
    by_cases hq : q.event = .disconnected pk
    · rw [hq] at reaction
      cases reaction with
      | replaced conn old t hev hold => simp at hev
      | refused conn hev hold => simp at hev
      | lost pubKey hc =>
        obtain ⟨e,he,hw⟩ := initNewConnection_writes (B := B) m.iroh pk
        exact absurd ⟨e,by simp [he],hw⟩ hr
      | ignored pubKey hc =>
        rw [Iroh.isConnected_of_lookup hl] at hc
        simp at hc
    · have hsame : disconnects pk m.rxFromTasks = disconnects pk rest := by
        rw [queue]
        simp [disconnects,hq]
      rw [← hsame] at hs
      exact h pk task c hl (not_rewriting_idle idle pk) sender hs
  | core idle reaction => exact h pk task c hl (not_rewriting_idle idle pk) sender hs
  | effect hpc =>
    rename_i e rest
    simp only [setPc,perform_rxFromTasks] at hs
    by_cases hw : e.writes = some pk
    · obtain ⟨rfl,hk,-⟩ := perform_connected hw hl
      have hnone := hok c (by simp [installing,hpc])
      rw [← hk,hnone] at hs
      simp at hs
    · replace hl := (perform_lookup_ne m e hw).symm.trans hl
      refine h pk task c hl ?_ sender hs
      intro hold
      obtain ⟨e',he',hw'⟩ := hold
      rw [hpc] at he'
      rcases List.mem_cons.mp he' with rfl | hrest
      · exact hw hw'
      · exact hr ⟨e',hrest,hw'⟩
  | task own =>
    rw [task_iroh m own] at hl
    have hr' : ¬ m.Rewriting pk := by
      unfold Rewriting at hr ⊢
      rwa [task_pc m own] at hr
    rw [task_rxFromTasks m own,disconnects_append] at hs
    cases hd : disconnects pk m.rxFromTasks with
    | cons first others =>
      rw [hd] at hs
      exact h pk task c hl hr' sender (by rw [hd]; exact hs)
    | nil =>
      rw [hd,List.nil_append] at hs
      obtain ⟨s,rfl,rfl,rfl⟩ := mem_disconnects_reports (List.mem_of_mem_head? hs)
      rw [hok hd hr' task (by simp [owner,hl])]

theorem recvTask_reaction {m : Manager K B} {q : Queued K} {rest : List (Queued K)}
    (queue : m.rxFromTasks = q :: rest) :
    (∃ effects, m.iroh.Reaction q.event effects ∧
      m.next .recvTask = { m with rxFromTasks := rest, pc := effects }) ∨
    q.event = .internalError ∧ m.next .recvTask = m := by
  cases hh : m.iroh.handleConnEvent (B := B) q.event with
  | ok effects => exact .inl ⟨effects,Iroh.reaction hh,by simp only [next,queue,hh]⟩
  | error e =>
    refine .inr ⟨?_,by simp only [next,queue,hh]⟩
    cases hev : q.event with
    | internalError => rfl
    | _ => simp [hev,Iroh.handleConnEvent] at hh

omit [LinearOrder K] in
theorem emitted_mem_performShows {m : Manager K B} {e : Effect K B} {event : IrohEvent K B} :
    .emitted event ∈ m.performShows e ↔ e = .send event := by
  cases e with
  | send sent => simp [performShows,eq_comm]
  | trySend task packet pubKey =>
    simp only [performShows]
    repeat' split
    all_goals simp
  | _ => simp [performShows]

theorem reports_iff {m : Manager K B} (idle : m.pc = []) {q : Queued K} {rest : List (Queued K)}
    (queue : m.rxFromTasks = q :: rest) (k : K) :
    m.Reports k ↔ q.event = .disconnected k ∧ m.iroh.isConnected k = true := by
  have hsends : m.Reports k ↔ .send (.disconnectedFromPeer k) ∈ (m.next .recvTask).pc := by
    simp [Reports,emitted_mem_performShows]
  rw [hsends]
  rcases recvTask_reaction queue with ⟨effects,reaction,hnext⟩ | ⟨hev,hnext⟩
  · rw [hnext]
    exact reaction.disconnects_iff k
  · simp [hnext,idle,hev]

/-- A `Disconnected` of a connected peer ends its session, and nothing else changes. -/
theorem endsSession_iff {m : Manager K B} {q : Queued K} {rest : List (Queued K)}
    (queue : m.rxFromTasks = q :: rest) {pk : K} (hev : q.event = .disconnected pk) (k : K) :
    m.EndsSession k ↔ k = pk ∧ m.iroh.isConnected k = true := by
  rcases recvTask_reaction queue with ⟨effects,reaction,hnext⟩ | ⟨hint,-⟩
  · rw [hev] at reaction
    unfold EndsSession
    rw [hnext]
    cases reaction with
    | replaced conn old task hor hl => simp at hor
    | refused conn hor hc => simp at hor
    | ignored pubKey hc =>
      simp only [carryOut,List.foldl_nil,setPc]
      constructor
      · rintro ⟨task,c,hl,hne⟩
        exact absurd hl hne
      · rintro ⟨rfl,h⟩
        simp [hc] at h
    | lost pubKey hc =>
      by_cases hk : k = pk
      · subst hk
        obtain ⟨task,c,hl⟩ := Iroh.isConnected_iff.mp hc
        refine iff_of_true ⟨task,c,hl,?_⟩ ⟨rfl,hc⟩
        rcases m.iroh.initNewConnection_eq (B := B) k with ⟨-,heq⟩ | ⟨-,heq⟩
        · simp [heq,carryOut,setPc,perform]
        · simp [heq,carryOut,setPc,perform]
      · refine iff_of_false ?_ fun h => hk h.1
        rintro ⟨task,c,hl,hne⟩
        refine hne ((carryOut_lookup_ne (fun e he => ?_) _).trans hl)
        obtain ⟨e',heq,hw⟩ := initNewConnection_writes (B := B) m.iroh pk
        rw [heq,List.mem_cons,List.mem_singleton] at he
        rcases he with rfl | rfl
        · simp [Effect.writes]
        · simp [hw,Ne.symm hk]
  · simp [hev] at hint

/-- In a run without stale reports a session is only ended by its own failure. -/
theorem session_ends_by_own_failure {id : K} {peers : KeySet K} {channelCapacity : Nat}
    {m : Manager K B} {tr : List (Obs K B)}
    (run : Run system NoStaleReport (start id peers channelCapacity) m tr) :
    m.OwnFailureOnly := by
  have h : m.FirstIsOwn := by
    refine run.invariant (fun m _ => m.FirstIsOwn) ?_ fun _ _ _ h hok hen => h.next hok hen
    intro pk task c hl hr sender hs
    simp [start,disconnects] at hs
  have queued : ∀ {q}, q ∈ m.rxFromTasks.head? → ∃ rest, m.rxFromTasks = q :: rest := by
    intro q hq
    cases hrx : m.rxFromTasks with
    | nil => simp [hrx] at hq
    | cons head rest =>
      simp only [hrx,List.head?_cons,Option.mem_some_iff] at hq
      exact ⟨rest,by rw [hq]⟩
  have sender : m.pc = [] → ∀ pk, ∀ q ∈ m.rxFromTasks.head?, q.event = .disconnected pk →
      ∀ task c, m.iroh.stateTable.lookup pk = some (.connected task c) → q.sender = some task := by
    intro idle pk q hq hev task c hl
    obtain ⟨rest,queue⟩ := queued hq
    refine h pk task c hl (not_rewriting_idle idle pk) q.sender ?_
    simp [queue,disconnects,hev]
  -- the sender of the event decides once the handler acts on connected peers alone
  have own : m.pc = [] → ∀ q ∈ m.rxFromTasks.head?, ∀ k,
      m.OwnFailure q k ↔ q.event = .disconnected k ∧ m.iroh.isConnected k = true := by
    intro idle q hq k
    constructor
    · rintro ⟨hev,task,c,hl,-⟩
      exact ⟨hev,Iroh.isConnected_of_lookup hl⟩
    · rintro ⟨hev,hc⟩
      obtain ⟨task,c,hl⟩ := Iroh.isConnected_iff.mp hc
      exact ⟨hev,task,c,hl,sender idle k q hq hev task c hl⟩
  refine ⟨sender,fun idle q hq k => ?_,fun idle pk q hq hev k => ?_⟩
  · obtain ⟨rest,queue⟩ := queued hq
    rw [own idle q hq k]
    exact reports_iff idle queue k
  · obtain ⟨rest,queue⟩ := queued hq
    rw [own idle q hq k,endsSession_iff queue hev k,hev,ConnectionEvent.disconnected.injEq]
    exact and_congr_left fun _ => eq_comm

/-- A second connection is accepted before the `Disconnected` of the first is handled:
the event of the first session then ends the second one. -/
theorem stale_disconnect_ends_session : ∃ (m : Manager Nat (List UInt8)) (tr : List _),
    Run system anyStep (start 1 ⟨[2],by decide⟩ 8192) m tr ∧ ¬ m.OwnFailureOnly ∧
      (m.next .recvTask).pc = [.send (.disconnectedFromPeer 2),.insertWaiting 2] := by
  let first : Connection Nat := ⟨0,2,false⟩
  let second : Connection Nat := ⟨1,2,false⟩
  obtain ⟨m,tr,run,h⟩ := @exec_reaches _ _ _ (system (K := Nat) (B := List UInt8)) anyStep _ _
    (start 1 ⟨[2],by decide⟩ 8192)
    [.effect,.accepted first,.reportAccept first,.recvTask,.effect,.effect,
      .accepted second,.reportAccept second,.readFails ⟨0,first,false,false,true,[]⟩,
      .reportSession ⟨0,first,false,true,true,[]⟩,.recvTask,.effect,.effect,.effect,.effect]
    (fun r => decide (r.1.pc = [] ∧ r.1.rxFromTasks.head? = some ⟨.disconnected 2,some 0⟩ ∧
      r.1.iroh.stateTable.lookup 2 = some (.connected 1 second) ∧
      (r.1.next .recvTask).pc = [.send (.disconnectedFromPeer 2),.insertWaiting 2])) (by decide)
  obtain ⟨hpc,hq,hl,hnext⟩ := of_decide_eq_true h
  refine ⟨m,tr,run,fun own => ?_,hnext⟩
  have hsender := own.sender hpc 2 _ hq rfl 1 second hl
  simp at hsender

/-- The session that is installed fails, and its own event is the one that is handled. -/
theorem session_ends_by_own_failure_read : ∃ (m : Manager Nat (List UInt8)) (tr : List _),
    Run system NoStaleReport (start 1 ⟨[2],by decide⟩ 8192) m tr ∧
      m.rxFromTasks.head? = some ⟨.disconnected 2,some 0⟩ ∧ m.OwnFailureOnly := by
  let conn : Connection Nat := ⟨0,2,false⟩
  obtain ⟨m,tr,run,h⟩ := @exec_reaches _ _ _ (system (K := Nat) (B := List UInt8)) NoStaleReport
    _ _ (start 1 ⟨[2],by decide⟩ 8192)
    [.effect,.accepted conn,.reportAccept conn,.recvTask,.effect,.effect,
      .readFails ⟨0,conn,false,false,true,[]⟩,.reportSession ⟨0,conn,false,true,true,[]⟩]
    (fun r => decide (r.1.rxFromTasks.head? = some ⟨.disconnected 2,some 0⟩)) (by decide)
  exact ⟨m,tr,run,of_decide_eq_true h,session_ends_by_own_failure run⟩

end Manager
end MeshNetwork
