import MeshNetwork.ManagerSteps

set_option autoImplicit false

namespace MeshNetwork

/-- The same dial task, which may have got its connection or been aborted since. -/
structure Dial.Continues {K : Type} (d d' : Dial K) : Prop where
  task : d.task = d'.task
  peer : d.peer = d'.peer
  aborted : d'.aborted = true → d.aborted = true
  ready : d.ready = d'.ready ∨ ∃ serial, d.ready = some ⟨serial,d'.peer,true⟩

theorem Dial.Continues.refl {K : Type} (d : Dial K) : d.Continues d := ⟨rfl,rfl,id,.inl rfl⟩

theorem Dial.Continues.live {K : Type} {d d' : Dial K} (h : d.Continues d')
    (ha : d.aborted = false) : d'.aborted = false := by
  refine Bool.eq_false_iff.mpr fun hd' => ?_
  rw [h.aborted hd'] at ha
  simp at ha

theorem Dial.Continues.dialed {K : Type} {d d' : Dial K} (h : d.Continues d')
    (hd' : ∀ c, d'.ready = some c → c.remoteId = d'.peer ∧ c.outgoing = true)
    {c : Connection K} (hc : d.ready = some c) : c.remoteId = d.peer ∧ c.outgoing = true := by
  rw [h.peer]
  rcases h.ready with hsame | ⟨serial,hnew⟩
  · exact hd' c (hsame.symm.trans hc)
  · rw [hnew,Option.some.injEq] at hc
    rw [← hc]
    exact ⟨rfl,rfl⟩

theorem Dial.abort_continues {K : Type} (task : TaskId) (d : Dial K) :
    (d.abort task).Continues d := by
  unfold Dial.abort
  split
  · exact ⟨rfl,rfl,fun _ => rfl,.inl rfl⟩
  · exact .refl d

theorem Dial.abort_aborted {K : Type} {task : TaskId} {d : Dial K}
    (h : (d.abort task).aborted = false) : d.task ≠ task := by
  intro ht
  simp [Dial.abort,ht] at h

def Effect.Fits {K B : Type} [LinearOrder K] (id : K) : Effect K B → Prop
  | .spawnDial pubKey => pubKey ≤ id
  | .insertWaiting pubKey => id < pubKey
  | _ => True

namespace Manager
variable {K B : Type} [LinearOrder K]

theorem perform_dials {m : Manager K B} {e : Effect K B} {d : Dial K}
    (hd : d ∈ (m.perform e).dials) :
    (∃ d' ∈ m.dials, d.Continues d' ∧ (d.aborted = false → e ≠ .abort d.task)) ∨
      (e = .spawnDial d.peer ∧ d = ⟨m.nextTask,d.peer,false,none⟩) := by
  have kept : d ∈ m.dials → (∀ t, e ≠ .abort t) →
      ∃ d' ∈ m.dials, d.Continues d' ∧ (d.aborted = false → e ≠ .abort d.task) :=
    fun hmem hne => ⟨d,hmem,.refl d,fun _ => hne _⟩
  cases e with
  | abort task =>
    left
    obtain ⟨d',hd',rfl⟩ := List.mem_map.mp hd
    refine ⟨d',hd',d'.abort_continues task,fun ha heq => ?_⟩
    simp only [Effect.abort.injEq] at heq
    exact Dial.abort_aborted ha ((d'.abort_continues task).task.symm.trans heq.symm)
  | spawnDial pubKey =>
    rcases List.mem_cons.mp hd with rfl | hold
    · exact .inr ⟨rfl,rfl⟩
    · exact .inl (kept hold (by simp))
  | trySend task packet pubKey =>
    refine .inl (kept ?_ (by simp))
    simp only [perform] at hd
    repeat' split at hd
    all_goals exact hd
  | _ => exact .inl (kept hd (by simp))

theorem task_dials {m : Manager K B} {l : Act K B} (own : l.byTask = true) (hen : m.enabled l)
    {d : Dial K} (hd : d ∈ (m.next l).dials) :
    ∃ d' ∈ m.dials, d.Continues d' ∧ d.aborted = d'.aborted := by
  cases l with
  | recvTask => simp [Act.byTask] at own
  | recvCore action => simp [Act.byTask] at own
  | effect => simp [Act.byTask] at own
  | dialed d' serial =>
    rcases List.mem_cons.mp hd with rfl | hold
    · exact ⟨d',hen.1,⟨rfl,rfl,id,.inr ⟨serial,rfl⟩⟩,rfl⟩
    · exact ⟨d,List.mem_of_mem_erase hold,.refl d,rfl⟩
  | reportDial d' => exact ⟨d,List.mem_of_mem_erase hd,.refl d,rfl⟩
  | cancelDial d' => exact ⟨d,List.mem_of_mem_erase hd,.refl d,rfl⟩
  | _ => exact ⟨d,hd,.refl d,rfl⟩

theorem task_accepts {m : Manager K B} {l : Act K B} (own : l.byTask = true) (hen : m.enabled l)
    {c : Connection K} (hc : c ∈ (m.next l).accepts) : c ∈ m.accepts ∨ c.outgoing = false := by
  cases l with
  | recvTask => simp [Act.byTask] at own
  | recvCore action => simp [Act.byTask] at own
  | effect => simp [Act.byTask] at own
  | accepted c' =>
    rcases List.mem_cons.mp hc with rfl | hold
    · exact .inr hen
    · exact .inl hold
  | reportAccept c' => exact .inl (List.mem_of_mem_erase hc)
  | _ => exact .inl hc

theorem reports_connection {m : Manager K B} {l : Act K B} (hen : m.enabled l) {q : Queued K}
    (hq : q ∈ reports l) {c : Connection K} :
    (q.event = .outgoingConnection c → ∃ d ∈ m.dials, d.ready = some c) ∧
      (q.event = .incomingConnection c → c ∈ m.accepts) := by
  cases l with
  | reportDial d =>
    simp only [reports,Option.mem_toList,Option.map_eq_some_iff] at hq
    obtain ⟨x,hx,rfl⟩ := hq
    refine ⟨fun hev => ⟨d,hen.1,?_⟩,fun hev => by simp at hev⟩
    simp only [ConnectionEvent.outgoingConnection.injEq] at hev
    rw [← hev]
    exact hx
  | reportAccept c' =>
    rw [List.mem_singleton.mp hq]
    refine ⟨fun hev => by simp at hev,fun hev => ?_⟩
    simp only [ConnectionEvent.incomingConnection.injEq] at hev
    rw [← hev]
    exact hen.1
  | reportSession s =>
    rw [List.mem_singleton.mp hq]
    exact ⟨fun hev => by simp at hev,fun hev => by simp at hev⟩
  | _ => simp [reports] at hq

structure Opened (m : Manager K B) : Prop where
  ready : ∀ d ∈ m.dials, ∀ c, d.ready = some c → c.remoteId = d.peer ∧ c.outgoing = true
  accepts : ∀ c ∈ m.accepts, c.outgoing = false
  below : ∀ d ∈ m.dials, d.peer ≤ m.iroh.id
  plan : ∀ e ∈ m.pc, e.Fits m.iroh.id
  waiting : ∀ k, m.iroh.stateTable.lookup k = some .waitingIncomingConnection → m.iroh.id < k
  outgoing : ∀ q ∈ m.rxFromTasks, ∀ c, q.event = .outgoingConnection c →
    c.outgoing = true ∧ c.remoteId ≤ m.iroh.id
  incoming : ∀ q ∈ m.rxFromTasks, ∀ c, q.event = .incomingConnection c → c.outgoing = false

theorem initNewConnection_fits {iroh : Iroh K} {pubKey : K} {e : Effect K B}
    (he : e ∈ iroh.initNewConnection pubKey) : e.Fits iroh.id := by
  rcases iroh.initNewConnection_eq (B := B) pubKey with ⟨hlt,heq⟩ | ⟨hle,heq⟩
  · rw [heq] at he
    rw [List.mem_singleton.mp he]
    exact hlt
  · rw [heq] at he
    rw [List.mem_singleton.mp he]
    exact hle

theorem reaction_fits {iroh : Iroh K} {ev : ConnectionEvent K} {effects : List (Effect K B)}
    (h : iroh.Reaction ev effects) {e : Effect K B} (he : e ∈ effects) : e.Fits iroh.id := by
  rcases h.effect_cases he with ⟨t,rfl⟩ | ⟨c,rfl⟩ | ⟨k,rfl⟩ | ⟨c,rfl⟩ | ⟨k,rfl,hnew⟩
  · trivial
  · trivial
  · trivial
  · trivial
  · cases h with
    | replaced conn old task hev hl => simp at hev
    | refused conn hev hc => simp at hev
    | lost pubKey hc =>
      rcases List.mem_cons.mp he with rfl | hmem
      · trivial
      · exact initNewConnection_fits hmem
    | ignored pubKey hc => simp at he

theorem coreReaction_fits {iroh : Iroh K} {action : CoreAction K B} {effects : List (Effect K B)}
    (h : iroh.CoreReaction action effects) {e : Effect K B} (he : e ∈ effects) :
    e.Fits iroh.id := by
  cases h with
  | restarted pubKey hl => exact initNewConnection_fits he
  | closed pubKey task conn hl =>
    simp only [List.mem_cons,List.not_mem_nil,or_false] at he
    rcases he with rfl | rfl | rfl | rfl <;> trivial
  | cancelled pubKey task hl =>
    simp only [List.mem_cons,List.not_mem_nil,or_false] at he
    rcases he with rfl | rfl <;> trivial
  | ignored pubKey => simp at he
  | _ =>
    rw [List.mem_singleton.mp he]
    trivial

theorem Opened.next {m : Manager K B} (h : m.Opened) {l : Act K B} (hen : m.enabled l) :
    (m.next l).Opened := by
  have hm := moved hen
  generalize hn : m.next l = m' at hm
  cases hm with
  | @handle q rest effects idle queue reaction =>
    have hold : ∀ x ∈ rest, x ∈ m.rxFromTasks := fun x hx => by
      rw [queue]
      exact List.mem_cons_of_mem _ hx
    exact ⟨h.ready,h.accepts,h.below,fun _ he => reaction_fits reaction he,h.waiting,
      fun x hx => h.outgoing x (hold x hx),fun x hx => h.incoming x (hold x hx)⟩
  | core idle reaction =>
    exact ⟨h.ready,h.accepts,h.below,fun _ he => coreReaction_fits reaction he,h.waiting,
      h.outgoing,h.incoming⟩
  | @effect e rest hpc =>
    have hid : ((m.perform e).setPc rest).iroh.id = m.iroh.id := perform_id m e
    have hrx : ((m.perform e).setPc rest).rxFromTasks = m.rxFromTasks := perform_rxFromTasks m e
    have hacc : ((m.perform e).setPc rest).accepts = m.accepts := perform_accepts m e
    have hhead : e.Fits m.iroh.id := h.plan e (by rw [hpc]; exact List.mem_cons_self)
    refine ⟨fun d hd c hc => ?_,by rw [hacc]; exact h.accepts,fun d hd => ?_,fun x hx => ?_,
      fun k hl => ?_,?_,?_⟩
    · rcases perform_dials hd with ⟨d',hd',hcon,-⟩ | ⟨-,heq⟩
      · exact hcon.dialed (h.ready d' hd') hc
      · rw [heq] at hc
        simp at hc
    · rw [hid]
      rcases perform_dials hd with ⟨d',hd',hcon,-⟩ | ⟨rfl,-⟩
      · rw [hcon.peer]
        exact h.below d' hd'
      · exact hhead
    · rw [hid]
      exact h.plan x (by rw [hpc]; exact List.mem_cons_of_mem _ hx)
    · rw [hid]
      by_cases hw : e.writes = some k
      · rw [perform_waiting hw hl] at hhead
        exact hhead
      · exact h.waiting k ((perform_lookup_ne m e hw).symm.trans hl)
    · rw [hrx,hid]
      exact h.outgoing
    · rw [hrx]
      exact h.incoming
  | task own =>
    have hsplit : ∀ q ∈ (m.next l).rxFromTasks, q ∈ m.rxFromTasks ∨ q ∈ reports l := fun q hq => by
      rw [task_rxFromTasks m own] at hq
      exact List.mem_append.mp hq
    refine ⟨fun d hd c hc => ?_,fun c hc => ?_,fun d hd => ?_,?_,?_,fun q hq c hev => ?_,
      fun q hq c hev => ?_⟩
    · obtain ⟨d',hd',hcon,-⟩ := task_dials own hen hd
      exact hcon.dialed (h.ready d' hd') hc
    · rcases task_accepts own hen hc with hold | hin
      · exact h.accepts c hold
      · exact hin
    · obtain ⟨d',hd',hcon,-⟩ := task_dials own hen hd
      rw [task_iroh m own,hcon.peer]
      exact h.below d' hd'
    · rw [task_iroh m own,task_pc m own]
      exact h.plan
    · rw [task_iroh m own]
      exact h.waiting
    · rw [task_iroh m own]
      rcases hsplit q hq with hold | hnew
      · exact h.outgoing q hold c hev
      · obtain ⟨d,hd,hr⟩ := (reports_connection hen hnew).1 hev
        obtain ⟨hpeer,ho⟩ := h.ready d hd c hr
        rw [hpeer]
        exact ⟨ho,h.below d hd⟩
    · rcases hsplit q hq with hold | hnew
      · exact h.incoming q hold c hev
      · exact h.accepts c ((reports_connection hen hnew).2 hev)

theorem opened_run {ok : Manager K B → Act K B → Prop} {id : K} {peers : KeySet K}
    {channelCapacity : Nat} {m : Manager K B} {tr : List (Obs K B)}
    (run : Runs.Run system ok (start id peers channelCapacity) m tr) : m.Opened := by
  refine run.invariant (fun m _ => m.Opened) ?_ fun _ _ _ h _ hen => h.next hen
  refine ⟨by simp [start],by simp [start],by simp [start],fun e he => ?_,fun k hl => ?_,
    by simp [start],by simp [start]⟩
  · obtain ⟨pubKey,-,⟨hlt,rfl⟩ | ⟨hle,rfl⟩⟩ := Iroh.mem_init he
    · exact hlt
    · exact hle
  · have hs := (start_lookup.mp hl).2
    simp at hs

end Manager
end MeshNetwork
