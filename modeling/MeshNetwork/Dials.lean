import MeshNetwork.DialTasks
import MeshNetwork.Sessions

set_option autoImplicit false

namespace MeshNetwork

def Dial.toward {K : Type} [DecidableEq K] (k : K) (d : Dial K) : Bool :=
  !d.aborted && decide (d.peer = k)

def Queued.dialed {K : Type} [DecidableEq K] (k : K) (q : Queued K) : Bool :=
  match q.event with
  | .outgoingConnection conn => decide (conn.remoteId = k)
  | _ => false

def Effect.installsDialed {K B : Type} [DecidableEq K] (k : K) : Effect K B → Bool
  | .spawnSession conn => conn.outgoing && decide (conn.remoteId = k)
  | _ => false

namespace Manager
variable {K B : Type} [LinearOrder K]

def NoLinkActions (_ : Manager K B) : Act K B → Prop
  | .recvCore (.connectToPeer _) => False
  | .recvCore (.disconnectFromPeer _) => False
  | _ => True

instance (m : Manager K B) (l : Act K B) : Decidable (m.NoLinkActions l) :=
  match l with
  | .recvCore (.connectToPeer _) | .recvCore (.disconnectFromPeer _) => .isFalse id
  | .recvCore (.sendPacketTo _ _) | .recvTask | .effect
  | .attempt _ _ | .dialed _ _ | .reportDial _ | .cancelDial _ | .accepted _ | .reportAccept _
  | .readDatagram _ _ | .readFails _ | .sendDatagram _ _ | .reportSession _ | .channelClosed _
  | .cancelSession _ => .isTrue trivial

def liveDials (m : Manager K B) (k : K) : Nat := m.dials.countP (Dial.toward k)

def undelivered (m : Manager K B) (k : K) : Nat := m.rxFromTasks.countP (Queued.dialed k)

def inHand (m : Manager K B) (k : K) : Nat := m.pc.countP (Effect.installsDialed k)

structure Planned (iroh : Iroh K) (pc : List (Effect K B)) : Prop where
  dials : ∀ k, .spawnDial k ∈ pc → k ≤ iroh.id ∧ iroh.isConnecting k = false
  waits : ∀ k, .insertWaiting k ∈ pc → iroh.id < k ∧ iroh.isConnecting k = false
  keeps : ∀ k, .insertDisconnected k ∉ pc
  joins : ∀ c, .spawnSession c ∈ pc → c.outgoing = false → iroh.isConnecting c.remoteId = false
  aborts : ∀ t, .abort t ∈ pc → ∃ k c, iroh.stateTable.lookup k = some (.connected t c)
  once : (pc.filterMap Effect.writes).Nodup

/-- What the table and the tasks have to do with each other when nobody but the manager
itself starts a dial. -/
structure Dialing (m : Manager K B) : Prop where
  waiting : ∀ k, m.iroh.stateTable.lookup k = some .waitingIncomingConnection → m.iroh.id < k
  connecting : ∀ k, m.iroh.isConnecting k = true → k ≤ m.iroh.id
  disconnected : ∀ k, m.iroh.stateTable.lookup k = some .disconnected → m.Rewriting k
  matched : ∀ d ∈ m.dials, m.iroh.stateTable.lookup d.peer = some (.connecting d.task)
  live : ∀ d ∈ m.dials, d.aborted = false
  ready : ∀ d ∈ m.dials, ∀ c, d.ready = some c → c.remoteId = d.peer ∧ c.outgoing = true
  accepts : ∀ c ∈ m.accepts, c.outgoing = false
  outgoing : ∀ q ∈ m.rxFromTasks, ∀ c, q.event = .outgoingConnection c → c.outgoing = true
  incoming : ∀ q ∈ m.rxFromTasks, ∀ c, q.event = .incomingConnection c → c.outgoing = false
  plan : Planned m.iroh m.pc
  /-- One dial for each `Connecting` entry: running, reported or being installed. -/
  count : ∀ k, m.liveDials k + m.undelivered k + m.inHand k =
    if m.iroh.isConnecting k = true then 1 else 0

theorem perform_isConnecting_ne (m : Manager K B) (e : Effect K B) {k : K}
    (h : e.writes ≠ some k) : (m.perform e).iroh.isConnecting k = m.iroh.isConnecting k := by
  unfold Iroh.isConnecting
  rw [perform_lookup_ne m e h]

theorem countP_erase_add {α : Type} [DecidableEq α] {p : α → Bool} {l : List α} {a : α}
    (h : a ∈ l) : l.countP p = (l.erase a).countP p + if p a = true then 1 else 0 := by
  rw [(List.perm_cons_erase h).countP_eq p,List.countP_cons]

/-- The dial tasks of an unwritten key, and the table there, are as they were. -/
structure Untouched (m m' : Manager K B) (k : K) : Prop where
  lookup : m'.iroh.stateTable.lookup k = m.iroh.stateTable.lookup k
  dials : ∀ d, d.peer = k → (d ∈ m'.dials ↔ d ∈ m.dials)
  live : m'.liveDials k = m.liveDials k

theorem perform_untouched {m : Manager K B} {e : Effect K B} {k : K} (h : m.Dialing) (w : m.Wired)
    (he : ∀ t, e = .abort t → ∃ k c, m.iroh.stateTable.lookup k = some (.connected t c))
    (hw : e.writes ≠ some k) : Untouched m (m.perform e) k := by
  have hl := perform_lookup_ne m e hw
  have same : (m.perform e).dials = m.dials → Untouched m (m.perform e) k := by
    intro hd
    refine ⟨hl,fun d _ => by rw [hd],?_⟩
    unfold liveDials
    rw [hd]
  cases e with
  | abort task =>
    obtain ⟨k',c,hc⟩ := he task rfl
    refine same ?_
    have hid : m.dials.map (Dial.abort task) = m.dials.map id := by
      refine List.map_congr_left fun d hd => ?_
      have hne : d.task ≠ task := by
        intro ht
        have hm := h.matched d hd
        have hk := w.distinct d.peer k' _ _ task hm hc (by rw [← ht]; rfl) rfl
        rw [hk,hc] at hm
        simp at hm
      simp [Dial.abort,hne]
    rw [List.map_id] at hid
    exact hid
  | spawnDial pubKey =>
    have hne : pubKey ≠ k := fun hk => hw (by rw [hk]; rfl)
    refine ⟨hl,fun d hd => ?_,?_⟩
    · simp only [perform,List.mem_cons]
      constructor
      · intro hmem
        rcases hmem with rfl | hmem
        · exact absurd hd hne
        · exact hmem
      · exact .inr
    · simp [liveDials,perform,Dial.toward,hne,insertState]
  | trySend task packet pubKey =>
    refine same ?_
    simp only [perform]
    repeat' split
    all_goals rfl
  | _ => exact same rfl

omit [LinearOrder K] in
theorem installsDialed_writes [DecidableEq K] {e : Effect K B} {k : K}
    (h : e.installsDialed k = true) : e.writes = some k := by
  cases e with
  | spawnSession conn =>
    simp only [Effect.installsDialed,Bool.and_eq_true,decide_eq_true_eq] at h
    simp [Effect.writes,h.2]
  | _ => simp [Effect.installsDialed] at h

theorem Dialing.writes_once {m : Manager K B} (h : m.Dialing) {e : Effect K B}
    {rest : List (Effect K B)} (hpc : m.pc = e :: rest) {k : K} (hw : e.writes = some k) :
    ∀ e' ∈ rest, e'.writes ≠ some k := by
  intro e' he' hw'
  have hnd := h.plan.once
  rw [hpc,List.filterMap_cons_some hw] at hnd
  exact (List.nodup_cons.mp hnd).1 (List.mem_filterMap.mpr ⟨e',he',hw'⟩)

/-- When an entry is about to be written no dial is under way for its key, save the one
that the write itself ends. -/
theorem Dialing.write_free {m : Manager K B} (h : m.Dialing) {e : Effect K B}
    {rest : List (Effect K B)} (hpc : m.pc = e :: rest) {k : K} (hw : e.writes = some k) :
    m.liveDials k = 0 ∧ m.undelivered k = 0 ∧ rest.countP (Effect.installsDialed k) = 0 := by
  have hrest : rest.countP (Effect.installsDialed k) = 0 := by
    refine List.countP_eq_zero.mpr fun e' he' hi => ?_
    exact h.writes_once hpc hw e' he' (installsDialed_writes hi)
  have hin : m.inHand k = if e.installsDialed k = true then 1 else 0 := by
    rw [inHand,hpc,List.countP_cons,hrest,Nat.zero_add]
  have hcount := h.count k
  have hmem : e ∈ m.pc := by simp [hpc]
  have free : m.iroh.isConnecting k = false → m.liveDials k = 0 ∧ m.undelivered k = 0 := by
    intro hc
    simp only [hc,Bool.false_eq_true,if_false] at hcount
    omega
  refine (and_assoc.mp ⟨?_,hrest⟩)
  cases e with
  | spawnSession conn =>
    simp only [Effect.writes,Option.some.injEq] at hw
    subst hw
    cases ho : conn.outgoing with
    | true =>
      simp only [Effect.installsDialed,ho,Bool.true_and,decide_true,if_true] at hin
      split at hcount <;> omega
    | false => exact free (h.plan.joins conn hmem ho)
  | spawnDial pubKey =>
    simp only [Effect.writes,Option.some.injEq] at hw
    subst hw
    exact free (h.plan.dials pubKey hmem).2
  | insertWaiting pubKey =>
    simp only [Effect.writes,Option.some.injEq] at hw
    subst hw
    exact free (h.plan.waits pubKey hmem).2
  | insertDisconnected pubKey => exact absurd hmem (h.plan.keeps pubKey)
  | _ => simp [Effect.writes] at hw

theorem Dialing.no_dial {m : Manager K B} (h : m.Dialing) {k : K} (hz : m.liveDials k = 0) :
    ∀ d ∈ m.dials, d.peer ≠ k := by
  intro d hd hk
  have hneg := List.countP_eq_zero.mp hz d hd
  simp [Dial.toward,h.live d hd,hk] at hneg

theorem Dialing.perform_dials {m : Manager K B} (h : m.Dialing) (w : m.Wired) {e : Effect K B}
    {rest : List (Effect K B)} (hpc : m.pc = e :: rest) {d : Dial K}
    (hd : d ∈ (m.perform e).dials) :
    (d ∈ m.dials ∧ e.writes ≠ some d.peer) ∨
      (e = .spawnDial d.peer ∧ d = ⟨m.nextTask,d.peer,false,none⟩) := by
  by_cases hw : e.writes = some d.peer
  · right
    have hfree := h.no_dial (h.write_free hpc hw).1
    cases e with
    | spawnDial pubKey =>
      simp only [Effect.writes,Option.some.injEq] at hw
      simp only [perform,List.mem_cons] at hd
      rcases hd with hd | hold
      · rw [hd]
        exact ⟨rfl,rfl⟩
      · exact absurd rfl (hfree d hold)
    | spawnSession conn => exact absurd rfl (hfree d hd)
    | insertWaiting pubKey => exact absurd rfl (hfree d hd)
    | insertDisconnected pubKey => exact absurd rfl (hfree d hd)
    | _ => simp [Effect.writes] at hw
  · left
    have hu := perform_untouched h w (fun t ht => h.plan.aborts t (by rw [hpc,ht]; simp)) hw
    exact ⟨(hu.dials d rfl).mp hd,hw⟩

theorem Dialing.effect_count {m : Manager K B} (h : m.Dialing) (w : m.Wired) {e : Effect K B}
    {rest : List (Effect K B)} (hpc : m.pc = e :: rest) (k : K) :
    (m.perform e).liveDials k + (m.perform e).undelivered k +
        rest.countP (Effect.installsDialed k) =
      if (m.perform e).iroh.isConnecting k = true then 1 else 0 := by
  have hq : (m.perform e).undelivered k = m.undelivered k := by
    unfold undelivered
    rw [perform_rxFromTasks]
  by_cases hw : e.writes = some k
  · obtain ⟨hlive,hund,hrest⟩ := h.write_free hpc hw
    rw [hq,hund,hrest]
    by_cases he : e = .spawnDial k
    · rw [if_pos ((perform_isConnecting hw).mpr he),he]
      have hd : (m.perform (.spawnDial k)).dials = ⟨m.nextTask,k,false,none⟩ :: m.dials := rfl
      unfold liveDials at hlive ⊢
      rw [hd,List.countP_cons,hlive]
      simp [Dial.toward]
    · rw [if_neg (fun hc => he ((perform_isConnecting hw).mp hc))]
      have hz : (m.perform e).liveDials k = 0 := by
        refine List.countP_eq_zero.mpr fun d hd ht => ?_
        simp only [Dial.toward,Bool.and_eq_true,decide_eq_true_eq] at ht
        rcases h.perform_dials w hpc hd with ⟨-,hne⟩ | ⟨hsp,-⟩
        · rw [ht.2] at hne
          exact hne hw
        · rw [ht.2] at hsp
          exact he hsp
      rw [hz]
  · have hu := perform_untouched h w (fun t ht => h.plan.aborts t (by rw [hpc,ht]; simp)) hw
    have hin : m.inHand k = rest.countP (Effect.installsDialed k) := by
      rw [inHand,hpc,List.countP_cons,if_neg fun hi => hw (installsDialed_writes hi)]
      rfl
    rw [hu.live,hq,← hin,perform_isConnecting_ne m e hw]
    exact h.count k

theorem Dialing.effect {m : Manager K B} (h : m.Dialing) (w : m.Wired) {e : Effect K B}
    {rest : List (Effect K B)} (hpc : m.pc = e :: rest) : Dialing ((m.perform e).setPc rest) := by
  have hid : ((m.perform e).setPc rest).iroh.id = m.iroh.id := perform_id m e
  have hmem : ∀ e' ∈ rest, e' ∈ m.pc := fun e' he' => by
    rw [hpc]
    exact List.mem_cons_of_mem _ he'
  have hkeep : ∀ e' ∈ rest, ∀ k, e'.writes = some k →
      ((m.perform e).setPc rest).iroh.isConnecting k = m.iroh.isConnecting k := by
    intro e' he' k hw'
    exact perform_isConnecting_ne m e fun hw => h.writes_once hpc hw e' he' hw'
  have hrx : ((m.perform e).setPc rest).rxFromTasks = m.rxFromTasks := perform_rxFromTasks m e
  have hacc : ((m.perform e).setPc rest).accepts = m.accepts := perform_accepts m e
  have hhead : e ∈ m.pc := by simp [hpc]
  refine ⟨?_,?_,?_,?_,?_,?_,?_,?_,?_,?_,h.effect_count w hpc⟩
  · intro k hl
    rw [hid]
    by_cases hw : e.writes = some k
    · rw [perform_waiting hw hl] at hhead
      exact (h.plan.waits k hhead).1
    · exact h.waiting k ((perform_lookup_ne m e hw).symm.trans hl)
  · intro k hc
    rw [hid]
    by_cases hw : e.writes = some k
    · rw [(perform_isConnecting hw).mp hc] at hhead
      exact (h.plan.dials k hhead).1
    · exact h.connecting k ((perform_isConnecting_ne m e hw).symm.trans hc)
  · intro k hl
    by_cases hw : e.writes = some k
    · rw [perform_disconnected hw hl] at hhead
      exact absurd hhead (h.plan.keeps k)
    · exact rewriting_rest hpc rfl hw
        (h.disconnected k ((perform_lookup_ne m e hw).symm.trans hl))
  · intro d hd
    rcases h.perform_dials w hpc hd with ⟨hold,hw⟩ | ⟨rfl,heq⟩
    · exact (perform_lookup_ne m e hw).trans (h.matched d hold)
    · rw [heq]
      exact insertState_lookup m d.peer (.connecting m.nextTask)
  · intro d hd
    rcases h.perform_dials w hpc hd with ⟨hold,-⟩ | ⟨-,heq⟩
    · exact h.live d hold
    · rw [heq]
  · intro d hd c hc
    rcases h.perform_dials w hpc hd with ⟨hold,-⟩ | ⟨-,heq⟩
    · exact h.ready d hold c hc
    · rw [heq] at hc
      simp at hc
  · rw [hacc]
    exact h.accepts
  · rw [hrx]
    exact h.outgoing
  · rw [hrx]
    exact h.incoming
  · refine ⟨?_,?_,?_,?_,?_,?_⟩
    · intro k hk
      obtain ⟨hle,hc⟩ := h.plan.dials k (hmem _ hk)
      exact ⟨by rw [hid]; exact hle,(hkeep _ hk k rfl).trans hc⟩
    · intro k hk
      obtain ⟨hlt,hc⟩ := h.plan.waits k (hmem _ hk)
      exact ⟨by rw [hid]; exact hlt,(hkeep _ hk k rfl).trans hc⟩
    · exact fun k hk => h.plan.keeps k (hmem _ hk)
    · exact fun c hc ho => (hkeep _ hc _ rfl).trans (h.plan.joins c (hmem _ hc) ho)
    · intro t ht
      refine absurd rfl (w.abortsFirst _ ?_ t)
      rw [hpc]
      exact ht
    · have hnd := h.plan.once
      rw [hpc] at hnd
      exact hnd.sublist ((List.sublist_cons_self e rest).filterMap _)

theorem Dialing.outgoing_connecting {m : Manager K B} (h : m.Dialing) {q : Queued K}
    (hq : q ∈ m.rxFromTasks) {c : Connection K} (hev : q.event = .outgoingConnection c) :
    m.iroh.isConnecting c.remoteId = true := by
  have hpos : 0 < m.undelivered c.remoteId := by
    refine List.countP_pos_iff.mpr ⟨q,hq,?_⟩
    simp [Queued.dialed,hev]
  have hcount := h.count c.remoteId
  by_contra hc
  rw [if_neg hc] at hcount
  omega

theorem planned_lost {iroh : Iroh K} {pubKey : K} (hc : iroh.isConnecting pubKey = false)
    {pre : List (Effect K B)} (hpre : pre = [] ∨ ∃ ev, pre = [.send ev]) :
    Planned iroh (pre ++ iroh.initNewConnection pubKey) := by
  rcases iroh.initNewConnection_eq (B := B) pubKey with ⟨hlt,he⟩ | ⟨hle,he⟩
  all_goals rcases hpre with rfl | ⟨ev,rfl⟩
  all_goals
    rw [he]
    refine ⟨?_,?_,?_,?_,?_,List.nodup_singleton pubKey⟩ <;> simp_all

/-- What a handler of a connection event plans, and that it plans to install a dialed
connection exactly when it has just taken one from the queue. -/
theorem Dialing.reaction {m : Manager K B} (h : m.Dialing) {q : Queued K}
    (hq : q ∈ m.rxFromTasks) {effects : List (Effect K B)}
    (r : m.iroh.Reaction q.event effects) :
    Planned m.iroh effects ∧ ∀ k, effects.countP (Effect.installsDialed k) =
      if q.dialed k = true then 1 else 0 := by
  have hout := h.outgoing q hq
  have hin := h.incoming q hq
  have hconn := fun c => h.outgoing_connecting hq (c := c)
  unfold Queued.dialed
  generalize q.event = ev at r hout hin hconn
  cases r with
  | dialed conn hc =>
    have ho := hout conn rfl
    refine ⟨?_,fun k => ?_⟩
    · refine ⟨?_,?_,?_,?_,?_,List.nodup_singleton conn.remoteId⟩
      all_goals simp [Iroh.initReadyConnection,ho]
    · simp [Iroh.initReadyConnection,List.countP_cons,Effect.installsDialed,ho]
  | joined conn hl =>
    have ho := hin conn rfl
    have hc : m.iroh.isConnecting conn.remoteId = false := by simp [Iroh.isConnecting,hl]
    refine ⟨?_,fun k => ?_⟩
    · refine ⟨?_,?_,?_,?_,?_,List.nodup_singleton conn.remoteId⟩
      all_goals simp [Iroh.initReadyConnection,hc]
    · simp [Iroh.initReadyConnection,Effect.installsDialed,ho]
  | replaced conn old task hev hl =>
    have hc : m.iroh.isConnecting conn.remoteId = false :=
      Iroh.not_connecting_of_connected (Iroh.isConnected_of_lookup hl)
    rcases hev with rfl | rfl
    · rw [hconn conn rfl] at hc
      simp at hc
    · have ho := hin conn rfl
      refine ⟨?_,fun k => ?_⟩
      · refine ⟨?_,?_,?_,?_,?_,List.nodup_singleton conn.remoteId⟩
        all_goals simp [Iroh.initReadyConnection,hc]
        exact ⟨_,_,hl⟩
      · simp [Iroh.initReadyConnection,Effect.installsDialed,ho]
  | refused conn hev hnc =>
    rcases hev with ⟨rfl,hc⟩ | rfl
    · rw [hconn conn rfl] at hc
      simp at hc
    · refine ⟨?_,fun k => ?_⟩
      · refine ⟨?_,?_,?_,?_,?_,List.nodup_nil⟩ <;> simp
      · simp [Effect.installsDialed]
  | lost pubKey hc =>
    refine ⟨planned_lost (Iroh.not_connecting_of_connected hc) (.inr ⟨_,rfl⟩),fun k => ?_⟩
    rcases m.iroh.initNewConnection_eq (B := B) pubKey with ⟨-,he⟩ | ⟨-,he⟩
    all_goals simp [he,Effect.installsDialed]
  | ignored pubKey hc =>
    refine ⟨?_,fun k => by simp⟩
    refine ⟨?_,?_,?_,?_,?_,List.nodup_nil⟩ <;> simp

theorem Dialing.begin {m m' : Manager K B} (h : m.Dialing) (idle : m.pc = [])
    (hi : m'.iroh = m.iroh) (hd : m'.dials = m.dials) (ha : m'.accepts = m.accepts)
    (hq : ∀ q ∈ m'.rxFromTasks, q ∈ m.rxFromTasks) (hp : Planned m.iroh m'.pc)
    (hc : ∀ k, m'.undelivered k + m'.inHand k = m.undelivered k) : m'.Dialing where
  waiting := by
    rw [hi]
    exact h.waiting
  connecting := by
    rw [hi]
    exact h.connecting
  disconnected k hl := by
    rw [hi] at hl
    exact absurd (h.disconnected k hl) (not_rewriting_idle idle k)
  matched := by
    rw [hi,hd]
    exact h.matched
  live := by
    rw [hd]
    exact h.live
  ready := by
    rw [hd]
    exact h.ready
  accepts := by
    rw [ha]
    exact h.accepts
  outgoing := fun q hm => h.outgoing q (hq q hm)
  incoming := fun q hm => h.incoming q (hq q hm)
  plan := by
    rw [hi]
    exact hp
  count k := by
    have hcount := h.count k
    have hnone : m.inHand k = 0 := by simp [inHand,idle]
    have hlive : m'.liveDials k = m.liveDials k := by simp only [liveDials,hd]
    rw [hi,← hcount,hlive,hnone]
    have hsum := hc k
    omega

theorem Dialing.handle {m : Manager K B} (h : m.Dialing) {q : Queued K} {rest : List (Queued K)}
    {effects : List (Effect K B)} (idle : m.pc = []) (queue : m.rxFromTasks = q :: rest)
    (r : m.iroh.Reaction q.event effects) :
    Dialing { m with rxFromTasks := rest, pc := effects } := by
  obtain ⟨hp,hin⟩ := h.reaction (by simp [queue]) r
  refine h.begin idle rfl rfl rfl ?_ hp fun k => ?_
  · intro x hx
    rw [queue]
    exact List.mem_cons_of_mem _ hx
  · simp only [undelivered,inHand,queue,List.countP_cons,hin k]

theorem Dialing.core {m : Manager K B} (h : m.Dialing) {action : CoreAction K B}
    {effects : List (Effect K B)} (idle : m.pc = []) (hok : m.NoLinkActions (.recvCore action))
    (r : m.iroh.CoreReaction action effects) : Dialing { m with pc := effects } := by
  refine h.begin idle rfl rfl rfl (fun _ hx => hx) ?_ fun k => ?_
  · cases r with
    | passed packet pubKey task conn hl =>
      refine ⟨?_,?_,?_,?_,?_,List.nodup_nil⟩ <;> simp
    | dropped packet pubKey hc => refine ⟨?_,?_,?_,?_,?_,List.nodup_nil⟩ <;> simp
    | _ => exact absurd hok (by simp [NoLinkActions])
  · cases r with
    | passed packet pubKey task conn hl => simp [undelivered,inHand,Effect.installsDialed]
    | dropped packet pubKey hc => simp [undelivered,inHand,Effect.installsDialed]
    | _ => exact absurd hok (by simp [NoLinkActions])

theorem Dialing.move {m : Manager K B} (h : m.Dialing) {l : Act K B} (own : l.byTask = true)
    (hen : m.enabled l)
    (hc : ∀ k, (m.next l).liveDials k + (reports l).countP (Queued.dialed k) = m.liveDials k) :
    (m.next l).Dialing where
  waiting := by
    rw [task_iroh m own]
    exact h.waiting
  connecting := by
    rw [task_iroh m own]
    exact h.connecting
  disconnected k hl := by
    rw [task_iroh m own] at hl
    unfold Rewriting
    rw [task_pc m own]
    exact h.disconnected k hl
  matched d hmem := by
    obtain ⟨d',hd',hcon,-⟩ := task_dials own hen hmem
    rw [task_iroh m own,hcon.peer,hcon.task]
    exact h.matched d' hd'
  live d hmem := by
    obtain ⟨d',hd',-,hab⟩ := task_dials own hen hmem
    exact hab.trans (h.live d' hd')
  ready d hmem c hready := by
    obtain ⟨d',hd',hcon,-⟩ := task_dials own hen hmem
    exact hcon.dialed (h.ready d' hd') hready
  accepts c hmem := by
    rcases task_accepts own hen hmem with hold | hin
    · exact h.accepts c hold
    · exact hin
  outgoing q hq c hev := by
    rw [task_rxFromTasks m own] at hq
    rcases List.mem_append.mp hq with hold | hnew
    · exact h.outgoing q hold c hev
    · obtain ⟨d,hd,hr⟩ := (reports_connection hen hnew).1 hev
      exact (h.ready d hd c hr).2
  incoming q hq c hev := by
    rw [task_rxFromTasks m own] at hq
    rcases List.mem_append.mp hq with hold | hnew
    · exact h.incoming q hold c hev
    · exact h.accepts c ((reports_connection hen hnew).2 hev)
  plan := by
    rw [task_iroh m own,task_pc m own]
    exact h.plan
  count k := by
    have hcount := h.count k
    have hsum := hc k
    have hund : (m.next l).undelivered k =
        m.undelivered k + (reports l).countP (Queued.dialed k) := by
      unfold undelivered
      rw [task_rxFromTasks m own,List.countP_append]
    have hhand : (m.next l).inHand k = m.inHand k := by
      unfold inHand
      rw [task_pc m own]
    rw [task_iroh m own,← hcount,hund,hhand]
    omega

theorem Dialing.next {m : Manager K B} (h : m.Dialing) (w : m.Wired) {l : Act K B}
    (hok : m.NoLinkActions l) (hen : m.enabled l) : (m.next l).Dialing := by
  have hm := moved hen
  generalize hn : m.next l = m' at hm
  cases hm with
  | handle idle queue reaction => exact h.handle idle queue reaction
  | core idle reaction => exact h.core idle hok reaction
  | effect hpc => exact h.effect w hpc
  | task own =>
    refine h.move own hen fun k => ?_
    cases l with
    | recvTask => simp [Act.byTask] at own
    | recvCore action => simp [Act.byTask] at own
    | effect => simp [Act.byTask] at own
    | dialed d serial =>
      have hmem : d ∈ m.dials := hen.1
      have hd : (m.next (.dialed d serial)).dials =
          { d with ready := some ⟨serial,d.peer,true⟩ } :: m.dials.erase d := rfl
      simp only [liveDials,hd,reports,List.countP_nil,Nat.add_zero,List.countP_cons]
      exact (countP_erase_add hmem).symm
    | reportDial d =>
      have hmem : d ∈ m.dials := hen.1
      have hd : (m.next (.reportDial d)).dials = m.dials.erase d := rfl
      cases hr : d.ready with
      | none => exact absurd hr hen.2.1
      | some c =>
        obtain ⟨hpeer,-⟩ := h.ready d hmem c hr
        have herase := countP_erase_add (p := Dial.toward k) hmem
        simp only [liveDials,hd,herase,reports,hr,Option.map_some,Option.toList_some,
          List.countP_singleton,Queued.dialed,Dial.toward,h.live d hmem,hpeer]
        simp
    | cancelDial d =>
      have hlive := h.live d hen.1
      rw [hen.2] at hlive
      simp at hlive
    | reportAccept c => simp [reports,Queued.dialed,liveDials,Manager.next]
    | reportSession s => simp [reports,Queued.dialed,liveDials,Manager.next]
    | _ => rfl

theorem start_not_connecting (id : K) (peers : KeySet K) (channelCapacity : Nat) (k : K) :
    (start id peers channelCapacity : Manager K B).iroh.isConnecting k = false := by
  refine Bool.eq_false_iff.mpr fun h => ?_
  obtain ⟨t,ht⟩ := Iroh.isConnecting_iff.mp h
  simpa using (start_lookup.mp ht).2

theorem start_writes (id : K) (peers : KeySet K) (channelCapacity : Nat) :
    (start id peers channelCapacity : Manager K B).pc.filterMap Effect.writes = peers.elems :=
  Iroh.init_writes (B := B) (Iroh.new id peers)

theorem start_planned (id : K) (peers : KeySet K) (channelCapacity : Nat) :
    Planned (start id peers channelCapacity : Manager K B).iroh
      (start id peers channelCapacity : Manager K B).pc := by
  have hc := start_not_connecting (B := B) id peers channelCapacity
  have hpc : ∀ e ∈ (start id peers channelCapacity : Manager K B).pc, ∃ k,
      (id < k ∧ e = .insertWaiting k) ∨ (k ≤ id ∧ e = .spawnDial k) := by
    intro e he
    obtain ⟨k,-,hk⟩ := Iroh.mem_init he
    exact ⟨k,hk⟩
  refine ⟨?_,?_,?_,?_,?_,?_⟩
  · intro k hk
    obtain ⟨k',⟨-,he⟩ | ⟨hle,he⟩⟩ := hpc _ hk
    · simp at he
    · simp only [Effect.spawnDial.injEq] at he
      subst he
      exact ⟨hle,hc k⟩
  · intro k hk
    obtain ⟨k',⟨hlt,he⟩ | ⟨-,he⟩⟩ := hpc _ hk
    · simp only [Effect.insertWaiting.injEq] at he
      subst he
      exact ⟨hlt,hc k⟩
    · simp at he
  · intro k hk
    obtain ⟨k',⟨-,he⟩ | ⟨-,he⟩⟩ := hpc _ hk <;> simp at he
  · intro c hk
    obtain ⟨k',⟨-,he⟩ | ⟨-,he⟩⟩ := hpc _ hk <;> simp at he
  · intro t ht
    obtain ⟨k',⟨-,he⟩ | ⟨-,he⟩⟩ := hpc _ ht <;> simp at he
  · rw [start_writes]
    exact peers.nodup

theorem start_dialing (id : K) (peers : KeySet K) (channelCapacity : Nat) :
    (start id peers channelCapacity : Manager K B).Dialing := by
  have hc := start_not_connecting (B := B) id peers channelCapacity
  refine ⟨?_,?_,?_,by simp [start],by simp [start],by simp [start],by simp [start],
    by simp [start],by simp [start],start_planned id peers channelCapacity,?_⟩
  · intro k hk
    have hs := (start_lookup.mp hk).2
    simp at hs
  · intro k hk
    rw [hc k] at hk
    simp at hk
  · intro k hk
    have hw : k ∈ (start id peers channelCapacity : Manager K B).pc.filterMap Effect.writes := by
      rw [start_writes]
      exact (start_lookup.mp hk).1
    obtain ⟨e,he,hek⟩ := List.mem_filterMap.mp hw
    exact ⟨e,he,hek⟩
  · intro k
    have hhand : (start id peers channelCapacity : Manager K B).inHand k = 0 := by
      refine List.countP_eq_zero.mpr fun e he hi => ?_
      obtain ⟨k',-,⟨-,rfl⟩ | ⟨-,rfl⟩⟩ := Iroh.mem_init he <;> simp [Effect.installsDialed] at hi
    rw [hc k,hhand]
    simp [liveDials,undelivered,start]

theorem next_id {m : Manager K B} {l : Act K B} (hen : m.enabled l) :
    (m.next l).iroh.id = m.iroh.id := by
  have hm := moved hen
  generalize hn : m.next l = m' at hm
  cases hm with
  | handle idle queue reaction => rfl
  | core idle reaction => rfl
  | effect hpc => exact perform_id m _
  | task own => rw [task_iroh m own]

/-- A dial is only spawned, and only attempted, toward a key that is not greater. -/
structure DialsBelow (id : K) (m : Manager K B) (tr : List (Obs K B)) : Prop where
  wired : m.Wired
  dialing : m.Dialing
  sameId : m.iroh.id = id
  spawned : ∀ k, .dialSpawned k ∈ tr → k ≤ id
  attempted : ∀ k n, .attempted k n ∈ tr → k ≤ id

theorem Dialing.below {m : Manager K B} (h : m.Dialing) {d : Dial K} (hd : d ∈ m.dials) :
    d.peer ≤ m.iroh.id :=
  h.connecting d.peer (Iroh.isConnecting_of_lookup (h.matched d hd))

theorem DialsBelow.next {id : K} {m : Manager K B} {tr : List (Obs K B)}
    (h : DialsBelow id m tr) {l : Act K B} (hok : m.NoLinkActions l) (hen : m.enabled l) :
    DialsBelow id (m.next l) (tr ++ m.shows l) where
  wired := h.wired.next hen
  dialing := h.dialing.next h.wired hok hen
  sameId := (next_id hen).trans h.sameId
  spawned k hk := by
    rcases List.mem_append.mp hk with hold | hnew
    · exact h.spawned k hold
    · cases shown hnew with
      | dialSpawned hpc =>
        rw [← h.sameId]
        exact (h.dialing.plan.dials k (by simp [hpc])).1
  attempted k n hk := by
    rcases List.mem_append.mp hk with hold | hnew
    · exact h.attempted k n hold
    · cases shown hnew with
      | attempted d serial =>
        rw [← h.sameId]
        exact h.dialing.below hen.1

theorem dialsBelow_run {id : K} {peers : KeySet K} {channelCapacity : Nat} {m : Manager K B}
    {tr : List (Obs K B)}
    (run : Runs.Run system NoLinkActions (start id peers channelCapacity) m tr) :
    DialsBelow id m tr := by
  refine run.invariant (DialsBelow id) ?_ fun _ _ _ h hok hen => h.next hok hen
  exact ⟨start_wired id peers channelCapacity,start_dialing id peers channelCapacity,rfl,
    by simp,by simp⟩

structure AcceptsShown (m : Manager K B) (tr : List (Obs K B)) : Prop where
  accepts : ∀ c ∈ m.accepts, .accepted c ∈ tr
  queued : ∀ q ∈ m.rxFromTasks, ∀ c, q.event = .incomingConnection c → .accepted c ∈ tr

theorem AcceptsShown.next {m : Manager K B} {tr : List (Obs K B)} (h : AcceptsShown m tr)
    {l : Act K B} (hen : m.enabled l) : AcceptsShown (m.next l) (tr ++ m.shows l) := by
  have grow : ∀ c, .accepted c ∈ tr → .accepted c ∈ tr ++ m.shows l :=
    fun c hc => List.mem_append_left _ hc
  have hm := moved hen
  generalize hn : m.next l = m' at hm
  cases hm with
  | handle idle queue reaction =>
    refine ⟨fun c hc => grow c (h.accepts c hc),fun q hq c hev => grow c (h.queued q ?_ c hev)⟩
    rw [queue]
    exact List.mem_cons_of_mem _ hq
  | core idle reaction =>
    exact ⟨fun c hc => grow c (h.accepts c hc),fun q hq c hev => grow c (h.queued q hq c hev)⟩
  | effect hpc =>
    refine ⟨fun c hc => grow c (h.accepts c ?_),fun q hq c hev => grow c (h.queued q ?_ c hev)⟩
    · rw [← perform_accepts m]
      exact hc
    · rw [← perform_rxFromTasks m]
      exact hq
  | task own =>
    refine ⟨?_,fun q hq c hev => ?_⟩
    · cases l with
      | accepted c =>
        intro c' hc'
        rcases List.mem_cons.mp hc' with rfl | hold
        · simp [shows]
        · exact grow c' (h.accepts c' hold)
      | reportAccept c => exact fun c' hc' => grow c' (h.accepts c' (List.mem_of_mem_erase hc'))
      | recvTask => simp [Act.byTask] at own
      | recvCore action => simp [Act.byTask] at own
      | effect => simp [Act.byTask] at own
      | _ => exact fun c' hc' => grow c' (h.accepts c' hc')
    · rw [task_rxFromTasks m own] at hq
      rcases List.mem_append.mp hq with hold | hnew
      · exact grow c (h.queued q hold c hev)
      · exact grow c (h.accepts c ((reports_connection hen hnew).2 hev))

theorem acceptsShown_run {ok : Manager K B → Act K B → Prop} {id : K} {peers : KeySet K}
    {channelCapacity : Nat} {m : Manager K B} {tr : List (Obs K B)}
    (run : Runs.Run system ok (start id peers channelCapacity) m tr) : AcceptsShown m tr :=
  run.invariant AcceptsShown ⟨by simp [start],by simp [start]⟩ fun _ _ _ h _ hen => h.next hen

end Manager
end MeshNetwork
