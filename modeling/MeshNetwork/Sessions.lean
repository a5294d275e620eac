import Mathlib.Data.List.Nodup
import MeshNetwork.ManagerSteps

/-!
The table, the session tasks and the queue of the manager belong together: a connected
entry has its session, or the report of its failure, behind it.
-/

set_option autoImplicit false

namespace MeshNetwork

namespace Session
variable {K B : Type}

structure SameLink (x y : Session K B) : Prop where
  task : x.task = y.task
  connection : x.connection = y.connection
  aborted : x.aborted = y.aborted
  txOpen : x.txOpen = y.txOpen

theorem SameLink.refl (x : Session K B) : SameLink x x := ⟨rfl,rfl,rfl,rfl⟩

theorem fail_sameLink (task : TaskId) (x : Session K B) : SameLink (x.fail task) x := by
  unfold fail
  split <;> exact ⟨rfl,rfl,rfl,rfl⟩

theorem pop_sameLink (task : TaskId) (x : Session K B) : SameLink (x.pop task) x := by
  unfold pop
  split <;> exact ⟨rfl,rfl,rfl,rfl⟩

theorem push_sameLink (task : TaskId) (packet : B) (x : Session K B) :
    SameLink (x.push task packet) x := by
  unfold push
  split <;> exact ⟨rfl,rfl,rfl,rfl⟩

theorem map_push_absent {l : List (Session K B)} {task : TaskId} (h : ∀ y ∈ l, y.task ≠ task)
    (packet : B) : l.map (push task packet) = l := by
  have hsame : ∀ y ∈ l, y.push task packet = id y := fun y hy => by simp [push,h y hy]
  rw [List.map_congr_left hsame,List.map_id]

theorem SameLink.trans {x y z : Session K B} (h : SameLink x y) (h' : SameLink y z) :
    SameLink x z :=
  ⟨h.task.trans h'.task,h.connection.trans h'.connection,h.aborted.trans h'.aborted,
    h.txOpen.trans h'.txOpen⟩

@[simp] theorem abort_task (task : TaskId) (x : Session K B) : (x.abort task).task = x.task := by
  unfold abort
  split <;> rfl

@[simp] theorem abort_connection (task : TaskId) (x : Session K B) :
    (x.abort task).connection = x.connection := by
  unfold abort
  split <;> rfl

@[simp] theorem abort_txOpen (task : TaskId) (x : Session K B) :
    (x.abort task).txOpen = x.txOpen := by
  unfold abort
  split <;> rfl

theorem abort_ne {task : TaskId} {x : Session K B} (h : x.task ≠ task) : x.abort task = x := by
  simp [abort,h]

@[simp] theorem closeChannel_task (task : TaskId) (x : Session K B) :
    (x.closeChannel task).task = x.task := by
  unfold closeChannel
  split <;> rfl

@[simp] theorem closeChannel_connection (task : TaskId) (x : Session K B) :
    (x.closeChannel task).connection = x.connection := by
  unfold closeChannel
  split <;> rfl

theorem closeChannel_ne {task : TaskId} {x : Session K B} (h : x.task ≠ task) :
    x.closeChannel task = x := by
  simp [closeChannel,h]

theorem closeChannel_txOpen {task : TaskId} {x : Session K B}
    (h : (x.closeChannel task).txOpen = true) : x.task ≠ task := by
  intro ht
  simp [closeChannel,ht] at h

end Session

namespace Manager
variable {K B : Type} [LinearOrder K]

structure Wired (m : Manager K B) : Prop where
  named : ∀ k t c, m.iroh.stateTable.lookup k = some (.connected t c) → c.remoteId = k
  spawned : ∀ k s t, m.iroh.stateTable.lookup k = some s → s.task = some t → t < m.nextTask
  distinct : ∀ k k' s s' t, m.iroh.stateTable.lookup k = some s →
    m.iroh.stateTable.lookup k' = some s' → s.task = some t → s'.task = some t → k = k'
  started : ∀ x ∈ m.sessions, x.task < m.nextTask
  single : (m.sessions.map Session.task).Nodup
  owned : ∀ k t c, m.iroh.stateTable.lookup k = some (.connected t c) →
    ∀ x ∈ m.sessions, x.task = t → x.connection = c
  channel : ∀ x ∈ m.sessions, x.txOpen = true →
    m.iroh.stateTable.lookup x.connection.remoteId = some (.connected x.task x.connection)
  aborting : ∀ t, m.pc.head? = some (.abort t) → ∃ k s, m.iroh.stateTable.lookup k = some s ∧
    s.task = some t ∧ m.Rewriting k
  abortsFirst : ∀ e ∈ m.pc.tail, ∀ t, e ≠ .abort t
  /-- A connected entry that stays has a session, or the report of its failure. -/
  backed : ∀ k t c, m.iroh.stateTable.lookup k = some (.connected t c) → m.Rewriting k ∨
    (∃ x ∈ m.sessions, x.task = t ∧ x.aborted = false ∧ x.txOpen = true) ∨
    (⟨.disconnected k,some t⟩ : Queued K) ∈ m.rxFromTasks

theorem Wired.eq_of_task {m : Manager K B} (h : m.Wired) {x y : Session K B}
    (hx : x ∈ m.sessions) (hy : y ∈ m.sessions) (ht : x.task = y.task) : x = y :=
  List.inj_on_of_nodup_map h.single hx hy ht

/-- A step of a task keeps the links of the sessions it leaves, and reports the others. -/
theorem Wired.task {m m' : Manager K B} (h : m.Wired) (hi : m'.iroh = m.iroh) (hpc : m'.pc = m.pc)
    (hn : m'.nextTask = m.nextTask) (hq : ∀ q ∈ m.rxFromTasks, q ∈ m'.rxFromTasks)
    (hs : ∀ x ∈ m'.sessions, ∃ y ∈ m.sessions, x.SameLink y)
    (hsingle : (m'.sessions.map Session.task).Nodup)
    (hkeep : ∀ y ∈ m.sessions, y.aborted = false → y.txOpen = true →
      (∃ x ∈ m'.sessions, x.SameLink y) ∨
      (⟨.disconnected y.connection.remoteId,some y.task⟩ : Queued K) ∈ m'.rxFromTasks) :
    m'.Wired where
  named := by
    rw [hi]
    exact h.named
  spawned := by
    rw [hi,hn]
    exact h.spawned
  distinct := by
    rw [hi]
    exact h.distinct
  started x hx := by
    obtain ⟨y,hy,hxy⟩ := hs x hx
    rw [hxy.task,hn]
    exact h.started y hy
  single := hsingle
  owned k t c hl x hx ht := by
    rw [hi] at hl
    obtain ⟨y,hy,hxy⟩ := hs x hx
    rw [hxy.connection]
    exact h.owned k t c hl y hy (hxy.task.symm.trans ht)
  channel x hx ho := by
    obtain ⟨y,hy,hxy⟩ := hs x hx
    rw [hi,hxy.task,hxy.connection]
    exact h.channel y hy (hxy.txOpen.symm.trans ho)
  aborting t ht := by
    rw [hpc] at ht
    obtain ⟨k,s,hl,hst,hr⟩ := h.aborting t ht
    refine ⟨k,s,by rw [hi]; exact hl,hst,?_⟩
    unfold Rewriting
    rw [hpc]
    exact hr
  abortsFirst := by
    rw [hpc]
    exact h.abortsFirst
  backed k t c hl := by
    rw [hi] at hl
    rcases h.backed k t c hl with hr | ⟨y,hy,ht,ha,ho⟩ | hrep
    · left
      unfold Rewriting
      rw [hpc]
      exact hr
    · rcases hkeep y hy ha ho with ⟨x,hx,hxy⟩ | hrep
      · exact .inr (.inl ⟨x,hx,hxy.task.trans ht,hxy.aborted.trans ha,hxy.txOpen.trans ho⟩)
      · right
        right
        rwa [h.owned k t c hl y hy ht,h.named k t c hl,ht] at hrep
    · exact .inr (.inr (hq _ hrep))

def closing (m : Manager K B) (k : K) : List (Session K B) :=
  match m.iroh.stateTable.lookup k with
  | some (.connected task _) => m.sessions.map (Session.closeChannel task)
  | _ => m.sessions

theorem mem_closing {m : Manager K B} {k : K} {x : Session K B} (h : x ∈ m.closing k) :
    ∃ y ∈ m.sessions, x.task = y.task ∧ x.connection = y.connection ∧
      (x.txOpen = true → x = y ∧ ∀ c,
        m.iroh.stateTable.lookup k ≠ some (.connected y.task c)) := by
  unfold closing at h
  split at h
  · rename_i task old hl
    obtain ⟨y,hy,rfl⟩ := List.mem_map.mp h
    refine ⟨y,hy,by simp,by simp,fun ho => ?_⟩
    have hne := Session.closeChannel_txOpen ho
    refine ⟨Session.closeChannel_ne hne,fun c hc => hne ?_⟩
    rw [hl] at hc
    simp only [Option.some.injEq,ConnectionState.connected.injEq] at hc
    exact hc.1.symm
  · rename_i hl
    exact ⟨x,h,rfl,rfl,fun _ => ⟨rfl,fun c hc => hl _ c hc⟩⟩

theorem mem_closing_of_ne {m : Manager K B} {k : K} {y : Session K B} (hy : y ∈ m.sessions)
    (h : ∀ c, m.iroh.stateTable.lookup k ≠ some (.connected y.task c)) : y ∈ m.closing k := by
  unfold closing
  split
  · rename_i task old hl
    have hne : y.task ≠ task := by
      intro ht
      exact h old (by rw [hl,ht])
    exact List.mem_map.mpr ⟨y,hy,Session.closeChannel_ne hne⟩
  · exact hy

theorem closing_task (m : Manager K B) (k : K) :
    (m.closing k).map Session.task = m.sessions.map Session.task := by
  unfold closing
  split
  · rw [List.map_map]
    exact List.map_congr_left fun x _ => x.closeChannel_task _
  · rfl

structure Written (m m' : Manager K B) (k : K) (state : ConnectionState K)
    (new : List (Session K B)) : Prop where
  lookup : m'.iroh.stateTable.lookup k = some state
  others : ∀ k', k' ≠ k → m'.iroh.stateTable.lookup k' = m.iroh.stateTable.lookup k'
  fresh : ∀ t, state.task = some t → t = m.nextTask ∧ t < m'.nextTask
  counter : m.nextTask ≤ m'.nextTask
  sessions : m'.sessions = new ++ m.closing k
  queue : m'.rxFromTasks = m.rxFromTasks
  session : ∀ t c, state = .connected t c → new = [⟨t,c,false,false,true,[]⟩] ∧ c.remoteId = k
  none : (∀ t c, state ≠ .connected t c) → new = []

theorem perform_written {m : Manager K B} {e : Effect K B} {k : K} (h : e.writes = some k) :
    ∃ state new, Written m (m.perform e) k state new := by
  cases e with
  | spawnSession conn =>
    simp only [Effect.writes,Option.some.injEq] at h
    subst h
    refine ⟨.connected m.nextTask conn,[⟨m.nextTask,conn,false,false,true,[]⟩],
      insertState_lookup m _ _,fun k' hk => insertState_lookup_ne m _ hk,?_,Nat.le_succ _,rfl,rfl,?_,?_⟩
    · intro t ht
      simp only [ConnectionState.task,Option.some.injEq] at ht
      subst ht
      exact ⟨rfl,Nat.lt_succ_self _⟩
    · intro t c hs
      simp only [ConnectionState.connected.injEq] at hs
      obtain ⟨rfl,rfl⟩ := hs
      exact ⟨rfl,rfl⟩
    · intro hs
      exact absurd rfl (hs _ _)
  | spawnDial pubKey =>
    simp only [Effect.writes,Option.some.injEq] at h
    subst h
    refine ⟨.connecting m.nextTask,[],insertState_lookup m _ _,
      fun k' hk => insertState_lookup_ne m _ hk,?_,Nat.le_succ _,rfl,rfl,?_,fun _ => rfl⟩
    · intro t ht
      simp only [ConnectionState.task,Option.some.injEq] at ht
      subst ht
      exact ⟨rfl,Nat.lt_succ_self _⟩
    · intro t c hs
      simp at hs
  | insertWaiting pubKey =>
    simp only [Effect.writes,Option.some.injEq] at h
    subst h
    refine ⟨.waitingIncomingConnection,[],insertState_lookup m _ _,
      fun k' hk => insertState_lookup_ne m _ hk,?_,Nat.le_refl _,rfl,rfl,?_,fun _ => rfl⟩
    · intro t ht
      simp [ConnectionState.task] at ht
    · intro t c hs
      simp at hs
  | insertDisconnected pubKey =>
    simp only [Effect.writes,Option.some.injEq] at h
    subst h
    refine ⟨.disconnected,[],insertState_lookup m _ _,
      fun k' hk => insertState_lookup_ne m _ hk,?_,Nat.le_refl _,rfl,rfl,?_,fun _ => rfl⟩
    · intro t ht
      simp [ConnectionState.task] at ht
    · intro t c hs
      simp at hs
  | _ => simp [Effect.writes] at h

theorem Written.mem_new {m m' : Manager K B} {k : K} {state : ConnectionState K}
    {new : List (Session K B)} (w : Written m m' k state new) {x : Session K B} (hx : x ∈ new) :
    ∃ c, state = .connected x.task c ∧ x = ⟨x.task,c,false,false,true,[]⟩ ∧ c.remoteId = k ∧
      x.task = m.nextTask ∧ x.task < m'.nextTask := by
  by_cases hc : ∃ t c, state = .connected t c
  · obtain ⟨t,c,rfl⟩ := hc
    obtain ⟨rfl,hk⟩ := w.session t c rfl
    simp only [List.mem_singleton] at hx
    subst hx
    exact ⟨c,rfl,rfl,hk,w.fresh t rfl⟩
  · rw [w.none fun t c hs => hc ⟨t,c,hs⟩] at hx
    simp at hx

theorem Written.lookup_cases {m m' : Manager K B} {k : K} {state : ConnectionState K}
    {new : List (Session K B)} (w : Written m m' k state new) {k' : K} {s : ConnectionState K}
    (hl : m'.iroh.stateTable.lookup k' = some s) :
    (k' = k ∧ state = s) ∨ (k' ≠ k ∧ m.iroh.stateTable.lookup k' = some s) := by
  by_cases hk : k' = k
  · subst hk
    exact .inl ⟨rfl,Option.some.inj (w.lookup.symm.trans hl)⟩
  · exact .inr ⟨hk,(w.others k' hk).symm.trans hl⟩

theorem Written.setPc {m m' : Manager K B} {k : K} {state : ConnectionState K}
    {new : List (Session K B)} (w : Written m m' k state new) (rest : List (Effect K B)) :
    Written m (m'.setPc rest) k state new :=
  ⟨w.lookup,w.others,w.fresh,w.counter,w.sessions,w.queue,w.session,w.none⟩

theorem Written.session_cases {m m' : Manager K B} {k : K} {state : ConnectionState K}
    {new : List (Session K B)} (w : Written m m' k state new) {x : Session K B}
    (hx : x ∈ m'.sessions) : x ∈ new ∨ x ∈ m.closing k := by
  rw [w.sessions] at hx
  exact List.mem_append.mp hx

theorem Wired.write_single {m m' : Manager K B} (h : m.Wired) {k : K}
    {state : ConnectionState K} {new : List (Session K B)} (w : Written m m' k state new) :
    (m'.sessions.map Session.task).Nodup := by
  rw [w.sessions,List.map_append,closing_task]
  by_cases hc : ∃ t c, state = .connected t c
  · obtain ⟨t,c,rfl⟩ := hc
    obtain ⟨rfl,-⟩ := w.session t c rfl
    refine List.nodup_cons.mpr ⟨fun ht => ?_,h.single⟩
    obtain ⟨y,hy,hyt⟩ := List.mem_map.mp ht
    have hlt := h.started y hy
    rw [hyt,(w.fresh t rfl).1] at hlt
    exact lt_irrefl _ hlt
  · rw [w.none fun t c hs => hc ⟨t,c,hs⟩]
    exact h.single

theorem Wired.task_ne {m : Manager K B} (h : m.Wired) {k : K} {s : ConnectionState K} {t : TaskId}
    (hl : m.iroh.stateTable.lookup k = some s) (ht : s.task = some t) : t ≠ m.nextTask :=
  Nat.ne_of_lt (h.spawned k s t hl ht)

theorem Wired.write_distinct {m m' : Manager K B} (h : m.Wired) {k : K}
    {state : ConnectionState K} {new : List (Session K B)} (w : Written m m' k state new) :
    ∀ k₁ k₂ s₁ s₂ t, m'.iroh.stateTable.lookup k₁ = some s₁ →
      m'.iroh.stateTable.lookup k₂ = some s₂ → s₁.task = some t → s₂.task = some t →
        k₁ = k₂ := by
  intro k₁ k₂ s₁ s₂ t hl₁ hl₂ ht₁ ht₂
  rcases w.lookup_cases hl₁ with ⟨rfl,rfl⟩ | ⟨-,hl₁'⟩
  · rcases w.lookup_cases hl₂ with ⟨rfl,-⟩ | ⟨-,hl₂'⟩
    · rfl
    · exact absurd (w.fresh t ht₁).1 (h.task_ne hl₂' ht₂)
  · rcases w.lookup_cases hl₂ with ⟨rfl,rfl⟩ | ⟨-,hl₂'⟩
    · exact absurd (w.fresh t ht₂).1 (h.task_ne hl₁' ht₁)
    · exact h.distinct k₁ k₂ s₁ s₂ t hl₁' hl₂' ht₁ ht₂

theorem Wired.write_owned {m m' : Manager K B} (h : m.Wired) {k : K}
    {state : ConnectionState K} {new : List (Session K B)} (w : Written m m' k state new) :
    ∀ k' t c, m'.iroh.stateTable.lookup k' = some (.connected t c) →
      ∀ x ∈ m'.sessions, x.task = t → x.connection = c := by
  intro k' t c hl x hx hxt
  rcases w.session_cases hx with hnew | hcl
  · obtain ⟨c',hs,hx',hk,hnext,-⟩ := w.mem_new hnew
    rcases w.lookup_cases hl with ⟨rfl,hs'⟩ | ⟨-,hl'⟩
    · rw [hs] at hs'
      simp only [ConnectionState.connected.injEq] at hs'
      rw [hx']
      exact hs'.2
    · exact absurd (hxt.symm.trans hnext) (h.task_ne hl' rfl)
  · obtain ⟨y,hy,ht,hconn,-⟩ := mem_closing hcl
    rcases w.lookup_cases hl with ⟨rfl,hs⟩ | ⟨-,hl'⟩
    · have hnext := (w.fresh t (by rw [hs]; rfl)).1
      have hlt := h.started y hy
      rw [← ht,hxt,hnext] at hlt
      exact absurd hlt (lt_irrefl _)
    · rw [hconn]
      exact h.owned k' t c hl' y hy (ht.symm.trans hxt)

theorem Wired.write_channel {m m' : Manager K B} (h : m.Wired) {k : K}
    {state : ConnectionState K} {new : List (Session K B)} (w : Written m m' k state new) :
    ∀ x ∈ m'.sessions, x.txOpen = true →
      m'.iroh.stateTable.lookup x.connection.remoteId = some (.connected x.task x.connection) := by
  intro x hx ho
  rcases w.session_cases hx with hnew | hcl
  · obtain ⟨c,hs,hx',hk,-,-⟩ := w.mem_new hnew
    have hconn : x.connection = c := by rw [hx']
    rw [hconn,hk,w.lookup,hs]
  · obtain ⟨y,hy,-,-,hopen⟩ := mem_closing hcl
    obtain ⟨rfl,hne⟩ := hopen ho
    have hl := h.channel x hy ho
    have hk : x.connection.remoteId ≠ k := by
      intro hk
      rw [hk] at hl
      exact hne _ hl
    exact (w.others _ hk).trans hl

omit [LinearOrder K] in
theorem rewriting_rest {m m' : Manager K B} {e : Effect K B} {rest : List (Effect K B)}
    (hpc : m.pc = e :: rest) (hpc' : m'.pc = rest) {k : K} (hw : e.writes ≠ some k)
    (hr : m.Rewriting k) : m'.Rewriting k := by
  obtain ⟨e',he',hw'⟩ := hr
  rw [hpc] at he'
  rcases List.mem_cons.mp he' with rfl | hrest
  · exact absurd hw' hw
  · exact ⟨e',by rw [hpc']; exact hrest,hw'⟩

theorem Wired.write {m : Manager K B} (h : m.Wired) {e : Effect K B} {rest : List (Effect K B)}
    (hpc : m.pc = e :: rest) {k : K} (hw : e.writes = some k) :
    Wired ((m.perform e).setPc rest) := by
  obtain ⟨state,new,hwritten⟩ := perform_written (m := m) hw
  have w := hwritten.setPc rest
  have hfirst := h.abortsFirst
  rw [hpc,List.tail_cons] at hfirst
  refine ⟨?_,?_,h.write_distinct w,?_,h.write_single w,h.write_owned w,h.write_channel w,?_,?_,?_⟩
  · intro k' t c hl
    rcases w.lookup_cases hl with ⟨rfl,hs⟩ | ⟨-,hl'⟩
    · exact (w.session t c hs).2
    · exact h.named k' t c hl'
  · intro k' s t hl ht
    rcases w.lookup_cases hl with ⟨rfl,rfl⟩ | ⟨-,hl'⟩
    · exact (w.fresh t ht).2
    · exact lt_of_lt_of_le (h.spawned k' s t hl' ht) w.counter
  · intro x hx
    rcases w.session_cases hx with hnew | hcl
    · obtain ⟨c,-,-,-,-,hlt⟩ := w.mem_new hnew
      exact hlt
    · obtain ⟨y,hy,ht,-,-⟩ := mem_closing hcl
      rw [ht]
      exact lt_of_lt_of_le (h.started y hy) w.counter
  · intro t ht
    cases rest with
    | nil => simp [setPc] at ht
    | cons e' rest' => exact absurd (Option.some.inj ht) (hfirst e' List.mem_cons_self t)
  · exact fun e' he' => hfirst e' (List.mem_of_mem_tail he')
  · intro k' t c hl
    rcases w.lookup_cases hl with ⟨rfl,hs⟩ | ⟨hk,hl'⟩
    · obtain ⟨hnew,-⟩ := w.session t c hs
      refine .inr (.inl ⟨⟨t,c,false,false,true,[]⟩,?_,rfl,rfl,rfl⟩)
      rw [w.sessions,hnew]
      exact List.mem_append_left _ List.mem_cons_self
    · rcases h.backed k' t c hl' with hr | ⟨y,hy,ht,ha,ho⟩ | hrep
      · refine .inl (rewriting_rest hpc rfl ?_ hr)
        rw [hw]
        exact fun heq => hk (Option.some.inj heq).symm
      · refine .inr (.inl ⟨y,?_,ht,ha,ho⟩)
        rw [w.sessions]
        refine List.mem_append_right _ (mem_closing_of_ne hy fun c' hc' => hk ?_)
        exact h.distinct k' k _ _ t hl' hc' rfl (congrArg some ht)
      · refine .inr (.inr ?_)
        rw [w.queue]
        exact hrep

/-- An effect that writes no entry at most marks a session as aborted, and then the
entry of that session is about to be overwritten. -/
theorem Wired.leave {m : Manager K B} (h : m.Wired) {e : Effect K B} {rest : List (Effect K B)}
    (hpc : m.pc = e :: rest) (hw : ∀ k, e.writes ≠ some k) (hi : (m.perform e).iroh = m.iroh)
    (hn : (m.perform e).nextTask = m.nextTask) {f : Session K B → Session K B}
    (hs : (m.perform e).sessions = m.sessions.map f) (htask : ∀ x, (f x).task = x.task)
    (hconn : ∀ x, (f x).connection = x.connection) (hopen : ∀ x, (f x).txOpen = x.txOpen)
    (habort : ∀ x, (f x).aborted = x.aborted ∨ e = .abort x.task) :
    Wired ((m.perform e).setPc rest) := by
  have hfirst := h.abortsFirst
  rw [hpc,List.tail_cons] at hfirst
  have hmem : ∀ x ∈ ((m.perform e).setPc rest).sessions, ∃ y ∈ m.sessions, f y = x := by
    intro x hx
    change x ∈ (m.perform e).sessions at hx
    rw [hs] at hx
    exact List.mem_map.mp hx
  have hl : ((m.perform e).setPc rest).iroh = m.iroh := hi
  refine ⟨?_,?_,?_,?_,?_,?_,?_,?_,?_,?_⟩
  · rw [hl]
    exact h.named
  · rw [hl]
    change ∀ k s t, _ → _ → t < (m.perform e).nextTask
    rw [hn]
    exact h.spawned
  · rw [hl]
    exact h.distinct
  · intro x hx
    obtain ⟨y,hy,rfl⟩ := hmem x hx
    change _ < (m.perform e).nextTask
    rw [hn,htask]
    exact h.started y hy
  · change ((m.perform e).sessions.map Session.task).Nodup
    rw [hs,List.map_map]
    have heq : m.sessions.map (Session.task ∘ f) = m.sessions.map Session.task :=
      List.map_congr_left fun x _ => htask x
    rw [heq]
    exact h.single
  · rw [hl]
    intro k t c hk x hx ht
    obtain ⟨y,hy,rfl⟩ := hmem x hx
    rw [hconn]
    exact h.owned k t c hk y hy ((htask y).symm.trans ht)
  · rw [hl]
    intro x hx ho
    obtain ⟨y,hy,rfl⟩ := hmem x hx
    rw [hconn,htask]
    exact h.channel y hy ((hopen y).symm.trans ho)
  · intro t ht
    cases rest with
    | nil => simp [setPc] at ht
    | cons e' rest' => exact absurd (Option.some.inj ht) (hfirst e' List.mem_cons_self t)
  · exact fun e' he' => hfirst e' (List.mem_of_mem_tail he')
  · rw [hl]
    intro k t c hk
    rcases h.backed k t c hk with hr | ⟨y,hy,ht,ha,ho⟩ | hrep
    · exact .inl (rewriting_rest hpc rfl (hw k) hr)
    · rcases habort y with hsame | habt
      · refine .inr (.inl ⟨f y,?_,(htask y).trans ht,hsame.trans ha,(hopen y).trans ho⟩)
        change f y ∈ (m.perform e).sessions
        rw [hs]
        exact List.mem_map_of_mem hy
      · obtain ⟨k',s,hl',hst,hr⟩ := h.aborting y.task (by rw [hpc,habt]; rfl)
        have hkk := h.distinct k k' _ s t hk hl' rfl (by rw [hst,ht])
        rw [← hkk] at hr
        exact .inl (rewriting_rest hpc rfl (hw k) hr)
    · refine .inr (.inr ?_)
      change _ ∈ (m.perform e).rxFromTasks
      rw [perform_rxFromTasks]
      exact hrep

theorem trySend_sessions (m : Manager K B) (task : TaskId) (packet : B) (pubKey : K) :
    ∃ f : Session K B → Session K B,
      (m.perform (.trySend task packet pubKey)).sessions = m.sessions.map f ∧
        ∀ x, (f x).SameLink x := by
  simp only [perform]
  repeat' split
  · exact ⟨_,rfl,Session.push_sameLink task packet⟩
  · exact ⟨id,(List.map_id _).symm,.refl⟩
  · exact ⟨id,(List.map_id _).symm,.refl⟩

theorem trySend_frame (m : Manager K B) (task : TaskId) (packet : B) (pubKey : K) :
    (m.perform (.trySend task packet pubKey)).iroh = m.iroh ∧
      (m.perform (.trySend task packet pubKey)).nextTask = m.nextTask := by
  simp only [perform]
  repeat' split
  all_goals exact ⟨rfl,rfl⟩

theorem Wired.effect {m : Manager K B} (h : m.Wired) {e : Effect K B} {rest : List (Effect K B)}
    (hpc : m.pc = e :: rest) : Wired ((m.perform e).setPc rest) := by
  cases e with
  | spawnSession conn => exact h.write hpc rfl
  | spawnDial pubKey => exact h.write hpc rfl
  | insertWaiting pubKey => exact h.write hpc rfl
  | insertDisconnected pubKey => exact h.write hpc rfl
  | abort task =>
    refine h.leave hpc (by simp [Effect.writes]) rfl rfl rfl (Session.abort_task task)
      (Session.abort_connection task) (Session.abort_txOpen task) fun x => ?_
    by_cases ht : x.task = task
    · exact .inr (by rw [ht])
    · exact .inl (by rw [Session.abort_ne ht])
  | trySend task packet pubKey =>
    obtain ⟨f,hs,hf⟩ := trySend_sessions m task packet pubKey
    exact h.leave hpc (by simp [Effect.writes]) (trySend_frame m task packet pubKey).1
      (trySend_frame m task packet pubKey).2 hs (fun x => (hf x).task) (fun x => (hf x).connection)
      (fun x => (hf x).txOpen) fun x => .inl (hf x).aborted
  | close conn =>
    exact h.leave hpc (by simp [Effect.writes]) rfl rfl (List.map_id _).symm (fun _ => rfl)
      (fun _ => rfl) (fun _ => rfl) fun _ => .inl rfl
  | send event =>
    exact h.leave hpc (by simp [Effect.writes]) rfl rfl (List.map_id _).symm (fun _ => rfl)
      (fun _ => rfl) (fun _ => rfl) fun _ => .inl rfl
  | dropPacket packet pubKey =>
    exact h.leave hpc (by simp [Effect.writes]) rfl rfl (List.map_id _).symm (fun _ => rfl)
      (fun _ => rfl) (fun _ => rfl) fun _ => .inl rfl

/-- A handler that begins with an abort goes on to overwrite the entry of that task. -/
theorem Wired.begin {m m' : Manager K B} (h : m.Wired) (hpc : m.pc = []) (hi : m'.iroh = m.iroh)
    (hn : m'.nextTask = m.nextTask) (hs : m'.sessions = m.sessions)
    (ha : ∀ t, m'.pc.head? = some (.abort t) → ∃ k s, m.iroh.stateTable.lookup k = some s ∧
      s.task = some t ∧ m'.Rewriting k)
    (hfirst : ∀ e ∈ m'.pc.tail, ∀ t, e ≠ .abort t)
    (hq : ∀ k t c, m.iroh.stateTable.lookup k = some (.connected t c) →
      (⟨.disconnected k,some t⟩ : Queued K) ∈ m.rxFromTasks →
      m'.Rewriting k ∨ (⟨.disconnected k,some t⟩ : Queued K) ∈ m'.rxFromTasks) : m'.Wired where
  named := by
    rw [hi]
    exact h.named
  spawned := by
    rw [hi,hn]
    exact h.spawned
  distinct := by
    rw [hi]
    exact h.distinct
  started := by
    rw [hs,hn]
    exact h.started
  single := by
    rw [hs]
    exact h.single
  owned := by
    rw [hi,hs]
    exact h.owned
  channel := by
    rw [hi,hs]
    exact h.channel
  aborting := by
    rw [hi]
    exact ha
  abortsFirst := hfirst
  backed k t c hl := by
    rw [hi] at hl
    rcases h.backed k t c hl with hr | hses | hrep
    · exact absurd hr (not_rewriting_idle hpc k)
    · rw [hs]
      exact .inr (.inl hses)
    · rcases hq k t c hl hrep with hr | hrep'
      · exact .inl hr
      · exact .inr (.inr hrep')

theorem Wired.handle {m : Manager K B} (h : m.Wired) {q : Queued K} {rest : List (Queued K)}
    {effects : List (Effect K B)} (idle : m.pc = []) (queue : m.rxFromTasks = q :: rest)
    (reaction : m.iroh.Reaction q.event effects) :
    Wired { m with rxFromTasks := rest, pc := effects } := by
  refine h.begin idle rfl rfl rfl ?_ ?_ ?_
  · intro t ht
    simp only at ht
    generalize q.event = ev at reaction
    cases reaction with
    | replaced conn old task hev hl =>
      simp only [List.cons_append,List.head?_cons,Option.some.injEq,Effect.abort.injEq] at ht
      subst ht
      exact ⟨_,_,hl,rfl,.spawnSession conn,by simp [Iroh.initReadyConnection],rfl⟩
    | _ => simp [Iroh.initReadyConnection] at ht
  · intro e he t
    simp only at he
    rintro rfl
    generalize q.event = ev at reaction
    cases reaction with
    | lost pubKey hc =>
      obtain ⟨e,hnew,hw⟩ := initNewConnection_writes (B := B) m.iroh pubKey
      rw [hnew] at he
      simp only [List.tail_cons,List.mem_singleton] at he
      subst he
      simp [Effect.writes] at hw
    | _ => simp [Iroh.initReadyConnection] at he
  · intro k t c hl hrep
    by_cases hq : q.event = .disconnected k
    · left
      rw [hq] at reaction
      cases reaction with
      | replaced conn old task hev hold => simp at hev
      | refused conn hev hold => simp at hev
      | lost pubKey hc =>
        obtain ⟨e,hnew,hw⟩ := initNewConnection_writes (B := B) m.iroh k
        exact ⟨e,by simp [hnew],hw⟩
      | ignored pubKey hc =>
        rw [Iroh.isConnected_of_lookup hl] at hc
        simp at hc
    · right
      rw [queue] at hrep
      rcases List.mem_cons.mp hrep with heq | hrest
      · exact absurd (by rw [← heq]) hq
      · exact hrest

theorem Wired.core {m : Manager K B} (h : m.Wired) {action : CoreAction K B}
    {effects : List (Effect K B)} (idle : m.pc = [])
    (reaction : m.iroh.CoreReaction action effects) : Wired { m with pc := effects } := by
  refine h.begin idle rfl rfl rfl ?_ ?_ fun k t c _ hrep => .inr hrep
  · intro t ht
    simp only at ht
    cases reaction with
    | closed pubKey task conn hl =>
      simp only [List.head?_cons,Option.some.injEq,Effect.abort.injEq] at ht
      subst ht
      exact ⟨_,_,hl,rfl,.insertDisconnected pubKey,by simp,rfl⟩
    | cancelled pubKey task hl =>
      simp only [List.head?_cons,Option.some.injEq,Effect.abort.injEq] at ht
      subst ht
      exact ⟨_,_,hl,rfl,.insertDisconnected pubKey,by simp,rfl⟩
    | restarted pubKey hl =>
      obtain ⟨e,hnew,hw⟩ := initNewConnection_writes (B := B) m.iroh pubKey
      rw [hnew] at ht
      simp only [List.head?_cons,Option.some.injEq] at ht
      subst ht
      simp [Effect.writes] at hw
    | _ => simp at ht
  · intro e he t
    simp only at he
    rintro rfl
    cases reaction with
    | restarted pubKey hl =>
      obtain ⟨e,hnew,hw⟩ := initNewConnection_writes (B := B) m.iroh pubKey
      rw [hnew] at he
      simp at he
    | _ => simp at he

omit [LinearOrder K] in
theorem sameLink_map {m m' : Manager K B} {f : Session K B → Session K B}
    (hs : m'.sessions = m.sessions.map f) (hf : ∀ x, (f x).SameLink x) :
    (∀ x ∈ m'.sessions, ∃ y ∈ m.sessions, x.SameLink y) ∧
      m'.sessions.map Session.task = m.sessions.map Session.task ∧
      ∀ y ∈ m.sessions, ∃ x ∈ m'.sessions, x.SameLink y := by
  rw [hs]
  refine ⟨fun x hx => ?_,?_,fun y hy => ⟨f y,List.mem_map_of_mem hy,hf y⟩⟩
  · obtain ⟨y,hy,rfl⟩ := List.mem_map.mp hx
    exact ⟨y,hy,hf y⟩
  · rw [List.map_map]
    exact List.map_congr_left fun x _ => (hf x).task

theorem Wired.keep {m : Manager K B} (h : m.Wired) {l : Act K B} (own : l.byTask = true)
    {f : Session K B → Session K B} (hs : (m.next l).sessions = m.sessions.map f)
    (hf : ∀ x, (f x).SameLink x) : (m.next l).Wired := by
  obtain ⟨hfrom,hmap,hto⟩ := sameLink_map hs hf
  refine h.task (task_iroh m own) (task_pc m own) (task_nextTask m own) ?_ hfrom ?_ ?_
  · intro q hq
    rw [task_rxFromTasks m own]
    exact List.mem_append_left _ hq
  · rw [hmap]
    exact h.single
  · exact fun y hy _ _ => .inl (hto y hy)

/-- A session that ends was aborted, or its channel was closed, or it has reported. -/
theorem Wired.remove {m : Manager K B} (h : m.Wired) {l : Act K B} (own : l.byTask = true)
    {s : Session K B} (hmem : s ∈ m.sessions)
    (hs : (m.next l).sessions = m.sessions.filter fun x => x.task ≠ s.task)
    (hend : s.aborted = true ∨ s.txOpen = false ∨
      (⟨.disconnected s.connection.remoteId,some s.task⟩ : Queued K) ∈ (m.next l).rxFromTasks) :
    (m.next l).Wired := by
  refine h.task (task_iroh m own) (task_pc m own) (task_nextTask m own) ?_ ?_ ?_ ?_
  · intro q hq
    rw [task_rxFromTasks m own]
    exact List.mem_append_left _ hq
  · intro x hx
    rw [hs] at hx
    exact ⟨x,(List.mem_filter.mp hx).1,.refl x⟩
  · rw [hs]
    exact h.single.sublist (List.filter_sublist.map _)
  · intro y hy ha ho
    by_cases ht : y.task = s.task
    · rw [h.eq_of_task hy hmem ht] at ha ho ⊢
      rcases hend with hab | hcl | hrep
      · rw [hab] at ha
        simp at ha
      · rw [hcl] at ho
        simp at ho
      · exact .inr hrep
    · left
      rw [hs]
      exact ⟨y,List.mem_filter.mpr ⟨hy,by simpa using ht⟩,.refl y⟩

theorem Wired.next {m : Manager K B} (h : m.Wired) {l : Act K B} (hen : m.enabled l) :
    (m.next l).Wired := by
  have hm := moved hen
  generalize hn : m.next l = m' at hm
  cases hm with
  | handle idle queue reaction => exact h.handle idle queue reaction
  | core idle reaction => exact h.core idle reaction
  | effect hpc => exact h.effect hpc
  | task own =>
    cases l with
    | recvTask => simp [Act.byTask] at own
    | recvCore action => simp [Act.byTask] at own
    | effect => simp [Act.byTask] at own
    | readFails s => exact h.keep own rfl (Session.fail_sameLink s.task)
    | sendDatagram s outcome =>
      cases outcome with
      | failed =>
        have hs : (m.next (.sendDatagram s .failed)).sessions =
            m.sessions.map (Session.fail s.task ∘ Session.pop s.task) := by simp [Manager.next]
        exact h.keep own hs fun x =>
          (Session.fail_sameLink s.task _).trans (Session.pop_sameLink s.task x)
      | sent => exact h.keep own rfl (Session.pop_sameLink s.task)
      | tooLarge => exact h.keep own rfl (Session.pop_sameLink s.task)
    | reportSession s =>
      refine h.remove own hen.1 rfl (.inr (.inr ?_))
      rw [task_rxFromTasks m own]
      exact List.mem_append_right _ List.mem_cons_self
    | channelClosed s => exact h.remove own hen.1 rfl (.inr (.inl hen.2.2.1))
    | cancelSession s => exact h.remove own hen.1 rfl (.inl hen.2)
    | _ => exact h.keep own (List.map_id _).symm fun x => .refl x

theorem start_wired (id : K) (peers : KeySet K) (channelCapacity : Nat) :
    (start id peers channelCapacity : Manager K B).Wired := by
  have hinit : ∀ e ∈ (start id peers channelCapacity : Manager K B).pc, ∀ t, e ≠ .abort t := by
    intro e he t
    obtain ⟨pubKey,-,⟨-,rfl⟩ | ⟨-,rfl⟩⟩ := Iroh.mem_init he
    all_goals simp
  refine ⟨?_,?_,?_,by simp [start],by simp [start],?_,by simp [start],?_,?_,?_⟩
  · intro k t c hk
    have hs := (start_lookup.mp hk).2
    simp at hs
  · intro k s t hk ht
    rw [(start_lookup.mp hk).2] at ht
    simp [ConnectionState.task] at ht
  · intro k k' s s' t hk hk' ht ht'
    rw [(start_lookup.mp hk).2] at ht
    simp [ConnectionState.task] at ht
  · intro k t c hk
    have hs := (start_lookup.mp hk).2
    simp at hs
  · intro t ht
    exact absurd rfl (hinit _ (List.mem_of_mem_head? ht) t)
  · exact fun e he => hinit e (List.mem_of_mem_tail he)
  · intro k t c hk
    have hs := (start_lookup.mp hk).2
    simp at hs

theorem wired_run {ok : Manager K B → Act K B → Prop} {id : K} {peers : KeySet K}
    {channelCapacity : Nat} {m : Manager K B} {tr : List (Obs K B)}
    (run : Runs.Run system ok (start id peers channelCapacity) m tr) : m.Wired :=
  run.invariant (fun m _ => m.Wired) (start_wired id peers channelCapacity)
    fun _ _ _ h _ hen => h.next hen

end Manager
end MeshNetwork
