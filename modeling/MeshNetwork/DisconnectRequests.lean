import MeshNetwork.Dials
import MeshNetwork.Whitelist

/-!
What `DisconnectFromPeer` leaves behind. A dial task is stopped through the handle in its
table entry, and one handler overwrites that entry while the task may still be dialing.
-/

set_option autoImplicit false

namespace MeshNetwork
open Runs

def ConnectionEvent.dialed? {K : Type} : ConnectionEvent K → Option (Connection K)
  | .outgoingConnection conn => some conn
  | _ => none

namespace Manager
variable {K B : Type} [LinearOrder K]

def stillDialing (m : Manager K B) (k : K) : Bool :=
  match m.iroh.stateTable.lookup k with
  | some (.connecting task) => m.dials.any fun d => decide (d.task = task) && !d.aborted
  | _ => false

/-- A dialed connection is taken from the queue only when the task of the `Connecting`
entry that it meets is not dialing any more. -/
def DialEnded (m : Manager K B) : Act K B → Prop
  | .recvTask => ∀ q ∈ m.rxFromTasks.head?, ∀ c ∈ q.event.dialed?,
      m.stillDialing c.remoteId = false
  | _ => True

instance (m : Manager K B) (l : Act K B) : Decidable (m.DialEnded l) :=
  match l with
  | .recvTask => inferInstanceAs (Decidable (∀ q ∈ m.rxFromTasks.head?, ∀ c ∈ q.event.dialed?, _))
  | .recvCore _ | .effect
  | .attempt _ _ | .dialed _ _ | .reportDial _ | .cancelDial _ | .accepted _ | .reportAccept _
  | .readDatagram _ _ | .readFails _ | .sendDatagram _ _ | .reportSession _ | .channelClosed _
  | .cancelSession _ => .isTrue trivial

theorem aborted_of_ended {m : Manager K B} {k : K} (h : m.stillDialing k = false) {t : TaskId}
    (hl : m.iroh.stateTable.lookup k = some (.connecting t)) {d : Dial K} (hd : d ∈ m.dials)
    (ht : d.task = t) : d.aborted = true := by
  simp only [stillDialing,hl,List.any_eq_false] at h
  have hd' := h d hd
  simpa [ht] using hd'

/-- Every dial task that has not been aborted can be aborted through its table entry, and
no handler overwrites the entry without doing so first. -/
structure DialsHeld (m : Manager K B) : Prop where
  wired : m.Wired
  stored : ∀ d ∈ m.dials, d.aborted = false →
    m.iroh.stateTable.lookup d.peer = some (.connecting d.task)
  freed : ∀ e ∈ m.pc, ∀ d ∈ m.dials, e.writes = some d.peer → d.aborted = false →
    .abort d.task ∈ m.pc
  once : (m.pc.filterMap Effect.writes).Nodup
  started : ∀ d ∈ m.dials, d.task < m.nextTask
  single : (m.dials.map Dial.task).Nodup

theorem initNewConnection_once (iroh : Iroh K) (pubKey : K) (pre : List (Effect K B))
    (hpre : pre.filterMap Effect.writes = []) :
    ((pre ++ iroh.initNewConnection pubKey).filterMap Effect.writes).Nodup := by
  rw [List.filterMap_append,hpre]
  rcases iroh.initNewConnection_eq (B := B) pubKey with ⟨-,he⟩ | ⟨-,he⟩
  · rw [he]
    exact List.nodup_singleton pubKey
  · rw [he]
    exact List.nodup_singleton pubKey

theorem reaction_once {iroh : Iroh K} {ev : ConnectionEvent K} {effects : List (Effect K B)}
    (h : iroh.Reaction ev effects) : (effects.filterMap Effect.writes).Nodup := by
  cases h with
  | dialed conn hc => exact List.nodup_singleton conn.remoteId
  | joined conn hl => exact List.nodup_singleton conn.remoteId
  | replaced conn old task hev hl => exact List.nodup_singleton conn.remoteId
  | refused conn hev hc => exact List.nodup_nil
  | lost pubKey hc =>
    exact initNewConnection_once iroh pubKey [.send (.disconnectedFromPeer pubKey)] rfl
  | ignored pubKey hc => exact List.nodup_nil

theorem coreReaction_once {iroh : Iroh K} {action : CoreAction K B} {effects : List (Effect K B)}
    (h : iroh.CoreReaction action effects) : (effects.filterMap Effect.writes).Nodup := by
  cases h with
  | passed packet pubKey task conn hl => exact List.nodup_nil
  | dropped packet pubKey hc => exact List.nodup_nil
  | restarted pubKey hl => exact initNewConnection_once iroh pubKey [] rfl
  | ignored pubKey => exact List.nodup_nil
  | closed pubKey task conn hl => exact List.nodup_singleton pubKey
  | cancelled pubKey task hl => exact List.nodup_singleton pubKey
  | cleared pubKey hc => exact List.nodup_singleton pubKey

theorem reaction_writes {iroh : Iroh K} {ev : ConnectionEvent K} {effects : List (Effect K B)}
    (h : iroh.Reaction ev effects) {e : Effect K B} (he : e ∈ effects) {k : K}
    (hw : e.writes = some k) :
    (∃ c ∈ ev.dialed?, c.remoteId = k ∧ iroh.isConnecting k = true) ∨
      iroh.stateTable.lookup k = some .waitingIncomingConnection ∨ iroh.isConnected k = true := by
  have ready : ∀ conn : Connection K, e ∈ Iroh.initReadyConnection (B := B) conn →
      conn.remoteId = k := by
    intro conn hmem
    exact (initReadyConnection_admits hmem (admits_of_writes hw)).symm
  cases h with
  | dialed conn hc =>
    obtain rfl := ready conn he
    exact .inl ⟨conn,rfl,rfl,hc⟩
  | joined conn hl =>
    obtain rfl := ready conn he
    exact .inr (.inl hl)
  | replaced conn old task hev hl =>
    rcases List.mem_append.mp he with hold | hready
    · simp only [List.mem_cons,List.not_mem_nil,or_false] at hold
      rcases hold with rfl | rfl <;> simp [Effect.writes] at hw
    · obtain rfl := ready conn hready
      exact .inr (.inr (Iroh.isConnected_of_lookup hl))
  | refused conn hev hc =>
    rw [List.mem_singleton.mp he] at hw
    simp [Effect.writes] at hw
  | lost pubKey hc =>
    rcases List.mem_cons.mp he with rfl | hnew
    · simp [Effect.writes] at hw
    · obtain ⟨e',he',hw'⟩ := initNewConnection_writes (B := B) iroh pubKey
      rw [he',List.mem_singleton] at hnew
      rw [hnew,hw',Option.some.injEq] at hw
      rw [← hw]
      exact .inr (.inr hc)
  | ignored pubKey hc => simp at he

/-- A core action overwrites a `Disconnected` entry, or it disconnects a key, and then it
aborts the dial task that it finds. -/
theorem handleCoreEvent_writes {iroh : Iroh K} {action : CoreAction K B} {e : Effect K B}
    (he : e ∈ iroh.handleCoreEvent action) {k : K} (hw : e.writes = some k) :
    (action = .connectToPeer k ∧ iroh.stateTable.lookup k = some .disconnected) ∨
      action = .disconnectFromPeer k ∧ e = .insertDisconnected k ∧
        ∀ t, iroh.stateTable.lookup k = some (.connecting t) →
          .abort t ∈ iroh.handleCoreEvent action := by
  cases action with
  | sendPacketTo packet pubKey =>
    simp only [Iroh.handleCoreEvent] at he
    split at he
    all_goals
      rw [List.mem_singleton.mp he] at hw
      simp [Effect.writes] at hw
  | connectToPeer pubKey =>
    simp only [Iroh.handleCoreEvent] at he
    split at he
    · rename_i hl
      obtain ⟨e',he',hw'⟩ := initNewConnection_writes (B := B) iroh pubKey
      rw [he',List.mem_singleton] at he
      rw [he,hw',Option.some.injEq] at hw
      subst hw
      exact .inl ⟨rfl,hl⟩
    all_goals simp at he
  | disconnectFromPeer pubKey =>
    right
    have hlast : e = .insertDisconnected k ∧ pubKey = k := by
      simp only [Iroh.handleCoreEvent] at he
      rcases List.mem_append.mp he with hpre | hlast
      · split at hpre <;> simp only [List.mem_cons,List.not_mem_nil,or_false] at hpre
        · rcases hpre with rfl | rfl | rfl <;> simp [Effect.writes] at hw
        · rw [hpre] at hw
          simp [Effect.writes] at hw
      · rw [List.mem_singleton.mp hlast] at hw ⊢
        simp only [Effect.writes,Option.some.injEq] at hw
        exact ⟨by rw [hw],hw⟩
    obtain ⟨rfl,rfl⟩ := hlast
    exact ⟨rfl,rfl,fun t hl => by simp [Iroh.handleCoreEvent,hl]⟩

theorem perform_nextTask_le (m : Manager K B) (e : Effect K B) :
    m.nextTask ≤ (m.perform e).nextTask := by
  cases e with
  | spawnSession conn => exact Nat.le_succ _
  | spawnDial pubKey => exact Nat.le_succ _
  | trySend task packet pubKey => exact (trySend_frame m task packet pubKey).2.ge
  | _ => exact Nat.le_refl _

theorem perform_dials_single {m : Manager K B} (started : ∀ d ∈ m.dials, d.task < m.nextTask)
    (single : (m.dials.map Dial.task).Nodup) (e : Effect K B) :
    ((m.perform e).dials.map Dial.task).Nodup := by
  cases e with
  | abort task =>
    have hmap : (m.dials.map (Dial.abort task)).map Dial.task = m.dials.map Dial.task := by
      rw [List.map_map]
      exact List.map_congr_left fun d _ => (d.abort_continues task).task
    change ((m.dials.map (Dial.abort task)).map Dial.task).Nodup
    rw [hmap]
    exact single
  | spawnDial pubKey =>
    refine List.nodup_cons.mpr ⟨fun hmem => ?_,single⟩
    obtain ⟨d,hd,ht⟩ := List.mem_map.mp hmem
    have hlt := started d hd
    rw [ht] at hlt
    exact lt_irrefl _ hlt
  | trySend task packet pubKey =>
    simp only [perform]
    repeat' split
    all_goals exact single
  | _ => exact single

theorem task_dials_single {m : Manager K B} {l : Act K B} (own : l.byTask = true)
    (hen : m.enabled l) (single : (m.dials.map Dial.task).Nodup) :
    ((m.next l).dials.map Dial.task).Nodup := by
  cases l with
  | recvTask => simp [Act.byTask] at own
  | recvCore action => simp [Act.byTask] at own
  | effect => simp [Act.byTask] at own
  | dialed d serial =>
    exact (((List.perm_cons_erase hen.1).map Dial.task).nodup_iff).mp single
  | reportDial d => exact single.sublist (List.erase_sublist.map _)
  | cancelDial d => exact single.sublist (List.erase_sublist.map _)
  | _ => exact single

theorem DialsHeld.handle {m : Manager K B} (h : DialsHeld m) {q : Queued K}
    {rest : List (Queued K)} {effects : List (Effect K B)} (queue : m.rxFromTasks = q :: rest)
    (reaction : m.iroh.Reaction q.event effects) (hok : m.DialEnded .recvTask)
    (hw : Wired { m with rxFromTasks := rest, pc := effects }) :
    DialsHeld { m with rxFromTasks := rest, pc := effects } := by
  refine ⟨hw,h.stored,fun e he d hd hwrites ha => ?_,reaction_once reaction,h.started,h.single⟩
  have hl := h.stored d hd ha
  rcases reaction_writes reaction he hwrites with ⟨c,hc,hk,-⟩ | hwait | hcon
  · have hended := hok q (by rw [queue]; rfl) c hc
    rw [hk] at hended
    rw [aborted_of_ended hended hl hd rfl] at ha
    simp at ha
  · rw [hl] at hwait
    simp at hwait
  · simp [Iroh.isConnected,hl] at hcon

theorem DialsHeld.core {m : Manager K B} (h : DialsHeld m) (action : CoreAction K B)
    (hw : (m.next (.recvCore action)).Wired) : DialsHeld (m.next (.recvCore action)) := by
  refine ⟨hw,h.stored,fun e he d hd hwrites ha => ?_,
    coreReaction_once (Iroh.coreReaction m.iroh action),h.started,h.single⟩
  have hl := h.stored d hd ha
  rcases handleCoreEvent_writes he hwrites with ⟨-,hdis⟩ | ⟨-,-,habort⟩
  · rw [hl] at hdis
    simp at hdis
  · exact habort d.task hl

theorem DialsHeld.effect {m : Manager K B} (h : DialsHeld m) {e : Effect K B}
    {rest : List (Effect K B)} (hpc : m.pc = e :: rest) (hw : Wired ((m.perform e).setPc rest)) :
    DialsHeld ((m.perform e).setPc rest) := by
  have hmem : ∀ x ∈ rest, x ∈ m.pc := fun x hx => by
    rw [hpc]
    exact List.mem_cons_of_mem _ hx
  refine ⟨hw,fun d hd ha => ?_,fun x hx d hd hwrites ha => ?_,?_,fun d hd => ?_,
    perform_dials_single h.started h.single e⟩
  · rcases perform_dials hd with ⟨d',hd',hcon,-⟩ | ⟨rfl,heq⟩
    · have ha' := hcon.live ha
      have hl := h.stored d' hd' ha'
      rw [hcon.peer,hcon.task]
      by_cases hwr : e.writes = some d'.peer
      · have hab := h.freed e (by rw [hpc]; exact List.mem_cons_self) d' hd' hwr ha'
        rw [hpc] at hab
        rcases List.mem_cons.mp hab with heq | hrest
        · rw [← heq] at hwr
          simp [Effect.writes] at hwr
        · exact absurd rfl (h.wired.abortsFirst _ (by rw [hpc]; exact hrest) d'.task)
      · exact (perform_lookup_ne m e hwr).trans hl
    · rw [heq]
      exact insertState_lookup m d.peer (.connecting m.nextTask)
  · rcases perform_dials hd with ⟨d',hd',hcon,hne⟩ | ⟨rfl,heq⟩
    · rw [hcon.peer] at hwrites
      have hab := h.freed x (hmem x hx) d' hd' hwrites (hcon.live ha)
      rw [hpc,← hcon.task] at hab
      rcases List.mem_cons.mp hab with heq | hrest
      · exact absurd heq.symm (hne ha)
      · exact hrest
    · have honce := h.once
      have hspawn : (Effect.spawnDial d.peer : Effect K B).writes = some d.peer := rfl
      rw [hpc,List.filterMap_cons_some hspawn] at honce
      exact absurd (List.mem_filterMap.mpr ⟨x,hx,hwrites⟩) (List.nodup_cons.mp honce).1
  · have honce := h.once
    rw [hpc] at honce
    exact honce.sublist ((List.sublist_cons_self e rest).filterMap _)
  · rcases perform_dials hd with ⟨d',hd',hcon,-⟩ | ⟨rfl,heq⟩
    · rw [hcon.task]
      exact lt_of_lt_of_le (h.started d' hd') (perform_nextTask_le m e)
    · rw [heq]
      exact Nat.lt_succ_self _

theorem DialsHeld.task {m : Manager K B} (h : DialsHeld m) {l : Act K B} (own : l.byTask = true)
    (hen : m.enabled l) (hw : (m.next l).Wired) : DialsHeld (m.next l) := by
  refine ⟨hw,fun d hd ha => ?_,fun e he d hd hwrites ha => ?_,?_,fun d hd => ?_,
    task_dials_single own hen h.single⟩
  · obtain ⟨d',hd',hcon,-⟩ := task_dials own hen hd
    rw [task_iroh m own,hcon.peer,hcon.task]
    exact h.stored d' hd' (hcon.live ha)
  · obtain ⟨d',hd',hcon,-⟩ := task_dials own hen hd
    rw [task_pc m own] at he ⊢
    rw [hcon.peer] at hwrites
    rw [hcon.task]
    exact h.freed e he d' hd' hwrites (hcon.live ha)
  · rw [task_pc m own]
    exact h.once
  · obtain ⟨d',hd',hcon,-⟩ := task_dials own hen hd
    rw [task_nextTask m own,hcon.task]
    exact h.started d' hd'

theorem DialsHeld.next {m : Manager K B} (h : DialsHeld m) {l : Act K B} (hok : m.DialEnded l)
    (hen : m.enabled l) : DialsHeld (m.next l) := by
  have hw := h.wired.next hen
  by_cases hcore : ∃ action, l = .recvCore action
  · obtain ⟨action,rfl⟩ := hcore
    exact h.core action hw
  · have hm := moved hen
    generalize hn : m.next l = m' at hm hw
    cases hm with
    | handle idle queue reaction => exact h.handle queue reaction hok hw
    | core idle reaction => exact absurd ⟨_,rfl⟩ hcore
    | effect hpc => exact h.effect hpc hw
    | task own => exact h.task own hen hw

theorem start_dialsHeld (id : K) (peers : KeySet K) (channelCapacity : Nat) :
    (start id peers channelCapacity : Manager K B).DialsHeld := by
  refine ⟨start_wired id peers channelCapacity,by simp [start],by simp [start],?_,by simp [start],
    by simp [start]⟩
  rw [start_writes]
  exact peers.nodup

theorem dialsHeld_run {id : K} {peers : KeySet K} {channelCapacity : Nat} {m : Manager K B}
    {tr : List (Obs K B)} (run : Run system DialEnded (start id peers channelCapacity) m tr) :
    m.DialsHeld :=
  run.invariant (fun m _ => m.DialsHeld) (start_dialsHeld id peers channelCapacity)
    fun _ _ _ h hok hen => h.next hok hen

structure OneDial (m : Manager K B) : Prop where
  stored : ∀ d ∈ m.dials, d.aborted = false →
    m.iroh.stateTable.lookup d.peer = some (.connecting d.task)
  single : ∀ k, m.liveDials k ≤ 1

theorem DialsHeld.oneDial {m : Manager K B} (h : DialsHeld m) : m.OneDial := by
  refine ⟨h.stored,fun k => ?_⟩
  have hnd : ((m.dials.filter (Dial.toward k)).map Dial.task).Nodup :=
    h.single.sublist (List.filter_sublist.map _)
  have hlookup : ∀ d ∈ m.dials.filter (Dial.toward k),
      m.iroh.stateTable.lookup k = some (.connecting d.task) := by
    intro d hd
    obtain ⟨hmem,ht⟩ := List.mem_filter.mp hd
    simp only [Dial.toward,Bool.and_eq_true,Bool.not_eq_eq_eq_not,Bool.not_true,
      decide_eq_true_eq] at ht
    rw [← ht.2]
    exact h.stored d hmem ht.1
  rw [liveDials,List.countP_eq_length_filter]
  generalize m.dials.filter (Dial.toward k) = l at hnd hlookup
  cases l with
  | nil => exact Nat.zero_le _
  | cons d rest =>
    have hsame : (d :: rest).map Dial.task = List.replicate (d :: rest).length d.task := by
      refine List.eq_replicate_iff.mpr ⟨List.length_map _,fun t ht => ?_⟩
      obtain ⟨d',hd',rfl⟩ := List.mem_map.mp ht
      have heq := (hlookup d' hd').symm.trans (hlookup d List.mem_cons_self)
      simpa using heq
    rw [hsame] at hnd
    exact List.nodup_replicate.mp hnd

/-- The table entry of `pk` is or will be `Disconnected`: no handler writes anything else. -/
structure Clearing (pk : K) (m : Manager K B) : Prop where
  writes : ∀ e ∈ m.pc, e.writes = some pk → e = .insertDisconnected pk
  entry : m.Rewriting pk ∨ m.iroh.stateTable.lookup pk = some .disconnected

structure Cleared (pk : K) (m : Manager K B) : Prop where
  writes : ∀ e ∈ m.pc, e.writes = some pk → e = .insertDisconnected pk
  entry : m.iroh.stateTable.lookup pk = some .disconnected

def NoConnect (pk : K) (_ : Manager K B) (l : Act K B) : Prop := l ≠ .recvCore (.connectToPeer pk)

instance [DecidableEq B] (pk : K) (m : Manager K B) (l : Act K B) : Decidable (m.NoConnect pk l) :=
  inferInstanceAs (Decidable (l ≠ _))

theorem disconnected_writes {pk : K} {m : Manager K B} {l : Act K B}
    (hno : m.NoConnect pk l) (hen : m.enabled l)
    (hw : ∀ e ∈ m.pc, e.writes = some pk → e = .insertDisconnected pk)
    (hl : m.pc = [] → m.iroh.stateTable.lookup pk = some .disconnected) :
    ∀ e ∈ (m.next l).pc, e.writes = some pk → e = .insertDisconnected pk := by
  by_cases hcore : ∃ action, l = .recvCore action
  · obtain ⟨action,rfl⟩ := hcore
    intro e he hwrites
    rcases handleCoreEvent_writes he hwrites with ⟨rfl,-⟩ | ⟨-,rfl,-⟩
    · exact absurd rfl hno
    · rfl
  · have hm := moved hen
    generalize hn : m.next l = m' at hm
    cases hm with
    | handle idle queue reaction =>
      intro e he hwrites
      have hdis := hl idle
      rcases reaction_writes reaction he hwrites with ⟨-,-,-,hc⟩ | hwait | hc
      · simp [Iroh.isConnecting,hdis] at hc
      · rw [hdis] at hwait
        simp at hwait
      · simp [Iroh.isConnected,hdis] at hc
    | core idle reaction => exact absurd ⟨_,rfl⟩ hcore
    | effect hpc => exact fun e he => hw e (by rw [hpc]; exact List.mem_cons_of_mem _ he)
    | task own =>
      rw [task_pc m own]
      exact hw

theorem Clearing.next {pk : K} {m : Manager K B} (h : Clearing pk m) {l : Act K B}
    (hno : m.NoConnect pk l) (hen : m.enabled l) : Clearing pk (m.next l) := by
  have hdis : m.pc = [] → m.iroh.stateTable.lookup pk = some .disconnected := fun idle =>
    h.entry.resolve_left (not_rewriting_idle idle pk)
  refine ⟨disconnected_writes hno hen h.writes hdis,?_⟩
  have hm := moved hen
  generalize hn : m.next l = m' at hm
  cases hm with
  | handle idle queue reaction => exact .inr (hdis idle)
  | core idle reaction => exact .inr (hdis idle)
  | @effect e rest hpc =>
    by_cases hw : e.writes = some pk
    · right
      have he := h.writes e (by rw [hpc]; exact List.mem_cons_self) hw
      exact (perform_lookup_written m e hw).trans (by rw [he]; rfl)
    · rcases h.entry with hr | hl
      · exact .inl (rewriting_rest hpc rfl hw hr)
      · exact .inr ((perform_lookup_ne m e hw).trans hl)
  | task own =>
    unfold Rewriting
    rw [task_pc m own,task_iroh m own]
    exact h.entry

theorem Cleared.next {pk : K} {m : Manager K B} (h : Cleared pk m) {l : Act K B}
    (hno : m.NoConnect pk l) (hen : m.enabled l) : Cleared pk (m.next l) := by
  refine ⟨disconnected_writes hno hen h.writes fun _ => h.entry,?_⟩
  have hm := moved hen
  generalize hn : m.next l = m' at hm
  cases hm with
  | handle idle queue reaction => exact h.entry
  | core idle reaction => exact h.entry
  | @effect e rest hpc =>
    by_cases hw : e.writes = some pk
    · have he := h.writes e (by rw [hpc]; exact List.mem_cons_self) hw
      exact (perform_lookup_written m e hw).trans (by rw [he]; rfl)
    · exact (perform_lookup_ne m e hw).trans h.entry
  | task own =>
    rw [task_iroh m own]
    exact h.entry

/-- Nothing that was spawned for `pk` goes on: what has not ended was aborted, or it is a
session whose packet channel is closed. -/
structure AtRest (pk : K) (m : Manager K B) : Prop where
  dials : ∀ d ∈ m.dials, d.peer = pk → d.aborted = true
  sessions : ∀ s ∈ m.sessions, s.connection.remoteId = pk → s.aborted = true ∨ s.txOpen = false

theorem DialsHeld.atRest {m : Manager K B} (h : DialsHeld m) {pk : K}
    (hl : m.iroh.stateTable.lookup pk = some .disconnected) : AtRest pk m := by
  refine ⟨fun d hd hk => ?_,fun s hs hk => .inr ?_⟩
  · refine Bool.eq_true_of_not_eq_false fun ha => ?_
    have hc := h.stored d hd ha
    rw [hk,hl] at hc
    simp at hc
  · refine Bool.eq_false_of_not_eq_true fun ho => ?_
    have hc := h.wired.channel s hs ho
    rw [hk,hl] at hc
    simp at hc

/-- The state `m` comes after `DisconnectFromPeer(pk)`, which was handled, and after no
later `ConnectToPeer(pk)`. All steps meet `ok`. -/
inductive AfterDisconnect (ok : Manager K B → Act K B → Prop) (s₀ : Manager K B) (pk : K)
    (m : Manager K B) : Prop where
  | intro {before handled : Manager K B} {tr tr' tr'' : List (Obs K B)}
      (reached : Run system ok s₀ before tr) (idle : before.pc = [])
      (handling : Run system (fun m l => ok m l ∧ m.NoConnect pk l)
        (before.next (.recvCore (.disconnectFromPeer pk))) handled tr')
      (done : handled.pc = [])
      (since : Run system (fun m l => ok m l ∧ m.NoConnect pk l) handled m tr'') :
      AfterDisconnect ok s₀ pk m

theorem DialsHeld.since {m m' : Manager K B} {tr : List (Obs K B)} {pk : K} (h : m.DialsHeld)
    (run : Run system (fun m l => DialEnded m l ∧ m.NoConnect pk l) m m' tr) : m'.DialsHeld :=
  run.invariant (fun m _ => m.DialsHeld) h fun _ _ _ h hok hen => h.next hok.1 hen

theorem disconnect_clearing (m : Manager K B) (pk : K) :
    Clearing pk (m.next (.recvCore (.disconnectFromPeer pk))) := by
  refine ⟨fun e he hwrites => ?_,.inl ?_⟩
  · change e ∈ m.iroh.handleCoreEvent (.disconnectFromPeer pk) at he
    rcases handleCoreEvent_writes he hwrites with ⟨hc,-⟩ | ⟨-,he',-⟩
    · simp at hc
    · exact he'
  · refine ⟨.insertDisconnected pk,?_,rfl⟩
    change _ ∈ m.iroh.handleCoreEvent (.disconnectFromPeer pk)
    simp [Iroh.handleCoreEvent]

/-- In runs where a dialed connection meets no entry whose own task still dials, tasks stay
under control, and a disconnect request leaves nothing of the peer running. -/
theorem disconnect_leaves_nothing_running {id : K} {peers : KeySet K} {channelCapacity : Nat}
    {m : Manager K B} {tr : List (Obs K B)}
    (run : Run system DialEnded (start id peers channelCapacity) m tr) : m.OneDial ∧
      ∀ pk (m' : Manager K B), AfterDisconnect DialEnded (start id peers channelCapacity) pk m' →
        AtRest pk m' := by
  refine ⟨(dialsHeld_run run).oneDial,fun pk m' h => ?_⟩
  obtain ⟨reached,idle,handling,done,since⟩ := h
  have hbefore := dialsHeld_run reached
  have hrecv := hbefore.next (l := .recvCore (.disconnectFromPeer pk)) trivial idle
  have hheld := (hrecv.since handling).since since
  have hclearing := handling.invariant (fun m _ => Clearing pk m) (disconnect_clearing _ pk)
    fun _ _ _ h hok hen => h.next hok.2 hen
  have hcleared : Cleared pk _ :=
    ⟨hclearing.writes,hclearing.entry.resolve_left (not_rewriting_idle done pk)⟩
  have hlast := since.invariant (fun m _ => Cleared pk m) hcleared
    fun _ _ _ h hok hen => h.next hok.2 hen
  exact hheld.atRest hlast.entry

/-- A session that was dialed is disconnected while its task is still there. -/
theorem disconnect_leaves_nothing_running_session : ∃ before m : Manager Nat (List UInt8),
    (∃ tr, Run system DialEnded (start 3 ⟨[2],by decide⟩ 8192) before tr) ∧ before.OneDial ∧
      before.iroh.isConnected 2 = true ∧
      AfterDisconnect DialEnded (start 3 ⟨[2],by decide⟩ 8192) 2 m ∧ AtRest 2 m ∧
      m.sessions ≠ [] := by
  let dial : Dial Nat := ⟨0,2,false,none⟩
  let ended (before m : Manager Nat (List UInt8)) : Bool :=
    decide (before.pc = [] ∧ before.iroh.isConnected 2 = true ∧ m.pc = [] ∧ m.sessions ≠ [])
  obtain ⟨before,tr,reached,h⟩ := @exec_reaches _ _ _ (system (K := Nat) (B := List UInt8))
    DialEnded _ _ (start 3 ⟨[2],by decide⟩ 8192)
    [.effect,.dialed dial 0,.reportDial { dial with ready := some ⟨0,2,true⟩ },.recvTask,.effect,
      .effect]
    (fun r => (exec system (fun m l => DialEnded m l ∧ m.NoConnect 2 l)
      (r.1.next (.recvCore (.disconnectFromPeer 2))) [.effect,.effect,.effect,.effect]).any
        fun r' => ended r.1 r'.1) (by decide)
  obtain ⟨m,tr',handling,h'⟩ := exec_reaches _ _ h
  obtain ⟨idle,hcon,done,hses⟩ := of_decide_eq_true h'
  have safe := disconnect_leaves_nothing_running reached
  have after : AfterDisconnect DialEnded (start 3 ⟨[2],by decide⟩ 8192) 2 m :=
    ⟨reached,idle,handling,done,.nil⟩
  exact ⟨before,m,⟨tr,reached⟩,safe.1,hcon,after,safe.2 2 m after,hses⟩

/-- A connection that was dialed before a disconnect request is handled after the next
connect request: it takes the entry of the new dial task, which dials on. -/
theorem late_connection_frees_dial : ∃ m : Manager Nat (List UInt8),
    AfterDisconnect anyStep (start 3 ⟨[2],by decide⟩ 8192) 2 m ∧ ¬ AtRest 2 m ∧ ¬ m.OneDial := by
  let first : Dial Nat := ⟨0,2,false,none⟩
  let second : Dial Nat := ⟨1,2,false,none⟩
  let late : List (Act Nat (List UInt8)) :=
    [.effect,.dialed first 0,.reportDial { first with ready := some ⟨0,2,true⟩ },
      .recvCore (.disconnectFromPeer 2),.effect,.effect,.recvCore (.connectToPeer 2),.effect,
      .recvTask,.effect,.effect]
  let stopped (m : Manager Nat (List UInt8)) : Bool :=
    decide (m.pc = [] ∧ second ∈ m.dials ∧
      m.iroh.stateTable.lookup 2 ≠ some (.connecting 1))
  obtain ⟨before,tr,reached,h⟩ := @exec_reaches _ _ _ (system (K := Nat) (B := List UInt8)) anyStep
    _ _ (start 3 ⟨[2],by decide⟩ 8192) late
    (fun r => (exec system (fun m l => anyStep m l ∧ m.NoConnect 2 l)
      (r.1.next (.recvCore (.disconnectFromPeer 2))) [.effect,.effect,.effect,.effect]).any
        fun r' => decide (r.1.pc = []) && stopped r'.1) (by decide)
  obtain ⟨handled,tr',handling,h'⟩ := exec_reaches _ _ h
  simp only [stopped,Bool.and_eq_true,decide_eq_true_eq] at h'
  obtain ⟨idle,done,hd,hl⟩ := h'
  refine ⟨handled,⟨reached,idle,handling,done,.nil⟩,fun hrest => ?_,fun hone => ?_⟩
  · have ha := hrest.dials second hd rfl
    simp [second] at ha
  · exact hl (hone.stored second hd rfl)

end Manager
end MeshNetwork
