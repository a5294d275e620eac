import MeshNetwork.SingleDialer
import MeshNetwork.Whitelist

set_option autoImplicit false

namespace MeshNetwork
open Runs

namespace Manager
variable {K B : Type}

/-- A handle of the connection exists: in the table, in a task, in the queue, or in the
handler in progress. -/
def Holds [DecidableEq K] (m : Manager K B) (c : Connection K) : Prop :=
  (∃ k t, m.iroh.stateTable.lookup k = some (.connected t c)) ∨
  (∃ x ∈ m.sessions, x.connection = c) ∨
  (∃ d ∈ m.dials, d.ready = some c) ∨
  c ∈ m.accepts ∨
  (∃ q ∈ m.rxFromTasks, q.event = .outgoingConnection c ∨ q.event = .incomingConnection c) ∨
  .spawnSession c ∈ m.pc ∨ .close c ∈ m.pc

def OpenAt [DecidableEq K] (m : Manager K B) (c : Connection K) : Prop :=
  m.Holds c ∧ c ∉ m.closed

/-- Nothing is left to report or to handle, and no aborted task is still pending. A manager has
drained between two handled events only, not while it is carrying out a handler. -/
structure Drained (m : Manager K B) : Prop where
  idle : m.pc = []
  queue : m.rxFromTasks = []
  accepts : m.accepts = []
  dials : ∀ d ∈ m.dials, d.ready = none ∧ d.aborted = false
  sessions : ∀ x ∈ m.sessions, x.aborted = false

end Manager

variable {K B : Type} [LinearOrder K]

def Linked (X Y : K) (a b : Manager K B) : Prop :=
  ∀ x ∈ a.sessions, x.connection.remoteId = Y → x.txOpen = true ∧ a.OpenAt x.connection ∧
    b.OpenAt (otherEnd X x.connection)

theorem Manager.Drained.table_of_holds {m : Manager K B} (h : m.Drained) (w : m.Wired)
    {c : Connection K} (hopen : ∀ x ∈ m.sessions, x.connection = c → x.txOpen = true)
    (hc : m.Holds c) : ∃ t, m.iroh.stateTable.lookup c.remoteId = some (.connected t c) := by
  rcases hc with ⟨k,t,hl⟩ | ⟨x,hx,rfl⟩ | ⟨d,hd,hr⟩ | hacc | ⟨q,hq,-⟩ | hpc | hpc
  · rw [w.named k t c hl]
    exact ⟨t,hl⟩
  · exact ⟨x.task,w.channel x hx (hopen x hx rfl)⟩
  · rw [(h.dials d hd).1] at hr
    simp at hr
  · rw [h.accepts] at hacc
    simp at hacc
  · rw [h.queue] at hq
    simp at hq
  · rw [h.idle] at hpc
    simp at hpc
  · rw [h.idle] at hpc
    simp at hpc

/-- If one of two quiet managers is connected, the other is on the same connection. -/
theorem Manager.Drained.other_connected {X Y : K} {a b : Manager K B} (ha : a.Drained)
    (hb : b.Drained) (wa : a.Wired) (wb : b.Wired) (hab : Linked X Y a b) (hba : Linked Y X b a)
    {t : TaskId} {c : Connection K} (hl : a.iroh.stateTable.lookup Y = some (.connected t c)) :
    ∃ t', b.iroh.stateTable.lookup X = some (.connected t' (otherEnd X c)) := by
  have hY := wa.named Y t c hl
  rcases wa.backed Y t c hl with hr | ⟨x,hx,ht,-,-⟩ | hrep
  · exact absurd hr (Manager.not_rewriting_idle ha.idle Y)
  · have hxc := wa.owned Y t c hl x hx ht
    obtain ⟨-,-,hopen⟩ := hab x hx (by rw [hxc]; exact hY)
    rw [hxc] at hopen
    refine hb.table_of_holds wb (fun y hy hyc => ?_) hopen.1
    exact (hba y hy (by rw [hyc]; rfl)).1
  · rw [ha.queue] at hrep
    simp at hrep

/-- Both are connected on the two ends of one connection, or the greater key has one
live dial and the smaller one is waiting. -/
def Settled (X Y : K) (a b : Manager K B) : Prop :=
  (∃ t t' c, a.iroh.stateTable.lookup Y = some (.connected t c) ∧
    b.iroh.stateTable.lookup X = some (.connected t' (otherEnd X c))) ∨
  (a.iroh.isConnecting Y = true ∧ a.liveDials Y = 1 ∧
    b.iroh.stateTable.lookup X = some .waitingIncomingConnection)

section Pair
variable [Buf B] {mesh : K → Prop} {peers : K → KeySet K} {channelCapacity : K → Nat}
variable {s : K → Manager K B} {tr : List (K × Obs K B)}

theorem drained_entry (run : NetRun (managerNet mesh)
    (fun k => Manager.start k (peers k) (channelCapacity k)) s tr) {X Y : K}
    (hXY : Y ∈ peers X) (hd : (s X).Drained) :
    (∃ t c, (s X).iroh.stateTable.lookup Y = some (.connected t c)) ∨
    ((s X).iroh.isConnecting Y = true ∧ Y ≤ X) ∨
    ((s X).iroh.stateTable.lookup Y = some .waitingIncomingConnection ∧ X < Y) := by
  have h := mesh_dialsBelow run X
  have listed : Run Manager.system Manager.Listed
      (Manager.start X (peers X) (channelCapacity X)) (s X) (view X tr) := by
    refine (run.project X).mono fun m l hl => ?_
    cases l with
    | recvCore action =>
      cases action with
      | disconnectFromPeer pubKey => exact absurd hl id
      | _ => trivial
    | _ => trivial
  have hmem := ((Manager.whitelistKept_run listed).table Y).mpr hXY
  obtain ⟨state,hl⟩ := Finmap.mem_iff.mp hmem
  cases state with
  | connected t c => exact .inl ⟨t,c,hl⟩
  | connecting t =>
    have hc := Iroh.isConnecting_of_lookup hl
    have hle := h.dialing.connecting Y hc
    rw [h.sameId] at hle
    exact .inr (.inl ⟨hc,hle⟩)
  | waitingIncomingConnection =>
    have hlt := h.dialing.waiting Y hl
    rw [h.sameId] at hlt
    exact .inr (.inr ⟨hl,hlt⟩)
  | disconnected =>
    exact absurd (h.dialing.disconnected Y hl) (Manager.not_rewriting_idle hd.idle Y)

/-- Two nodes that whitelist each other are never left half open or stuck. -/
theorem two_nodes_settle (run : NetRun (managerNet mesh)
    (fun k => Manager.start k (peers k) (channelCapacity k)) s tr) {X Y : K} (hlt : Y < X)
    (hXY : Y ∈ peers X) (hYX : X ∈ peers Y) (hX : (s X).Drained) (hY : (s Y).Drained)
    (linkX : Linked X Y (s X) (s Y)) (linkY : Linked Y X (s Y) (s X)) :
    Settled X Y (s X) (s Y) := by
  have hx := mesh_dialsBelow run X
  have hy := mesh_dialsBelow run Y
  rcases drained_entry run hXY hX with ⟨t,c,hl⟩ | ⟨hc,-⟩ | ⟨-,hgt⟩
  · obtain ⟨t',hl'⟩ := hX.other_connected hY hx.wired hy.wired linkX linkY hl
    exact .inl ⟨t,t',c,hl,hl'⟩
  · right
    have hcount := hx.dialing.count Y
    have hund : (s X).undelivered Y = 0 := by simp [Manager.undelivered,hX.queue]
    have hhand : (s X).inHand Y = 0 := by simp [Manager.inHand,hX.idle]
    rw [if_pos hc,hund,hhand] at hcount
    refine ⟨hc,hcount,?_⟩
    rcases drained_entry run hYX hY with ⟨t,c,hl⟩ | ⟨-,hle⟩ | ⟨hw,-⟩
    · obtain ⟨t',hl'⟩ := hY.other_connected hX hy.wired hx.wired linkY linkX hl
      simp [Iroh.isConnecting,hl'] at hc
    · exact absurd hlt (not_lt.mpr hle)
    · exact hw
  · exact absurd hlt (not_lt.mpr hgt.le)

end Pair

/-- One dial and one accept bring both nodes onto the same connection. -/
theorem two_nodes_settle_connected : ∃ (s : Nat → Manager Nat (List UInt8)) (tr : List _),
    NetRun (managerNet fun k => k = 1 ∨ k = 2)
      (fun k => .start k (if k = 1 then ⟨[2],by decide⟩ else ⟨[1],by decide⟩) 8192) s tr ∧
      (s 2).iroh.isConnecting 1 = false ∧ Settled 2 1 (s 2) (s 1) := by
  let dialed : Session Nat (List UInt8) := ⟨1,⟨7,1,true⟩,false,false,true,[]⟩
  let accepted : Session Nat (List UInt8) := ⟨0,⟨7,2,false⟩,false,false,true,[]⟩
  obtain ⟨s,tr,run,h⟩ := @netExec_reaches _ _ _ _ _
    (managerNet (K := Nat) (B := List UInt8) fun k => k = 1 ∨ k = 2) _ _ _ _
    (fun k => .start k (if k = 1 then ⟨[2],by decide⟩ else ⟨[1],by decide⟩) 8192)
    [(1,.effect),(2,.effect),(2,.attempt ⟨0,1,false,none⟩ 7),(1,.accepted ⟨7,2,false⟩),
      (2,.dialed ⟨0,1,false,none⟩ 7),(1,.reportAccept ⟨7,2,false⟩),
      (2,.reportDial ⟨0,1,false,some ⟨7,1,true⟩⟩),(2,.recvTask),(2,.effect),(2,.effect),
      (1,.recvTask),(1,.effect),(1,.effect)]
    (fun r => decide ((r.1 2).pc = [] ∧ (r.1 2).rxFromTasks = [] ∧ (r.1 2).accepts = [] ∧
      (r.1 2).dials = [] ∧ (r.1 2).sessions = [dialed] ∧ (r.1 2).closed = [] ∧
      (r.1 1).pc = [] ∧ (r.1 1).rxFromTasks = [] ∧ (r.1 1).accepts = [] ∧
      (r.1 1).dials = [] ∧ (r.1 1).sessions = [accepted] ∧ (r.1 1).closed = [] ∧
      (r.1 2).iroh.isConnecting 1 = false)) (by decide)
  have facts := of_decide_eq_true h
  dsimp only at facts
  obtain ⟨p₂,q₂,a₂,d₂,x₂,c₂,p₁,q₁,a₁,d₁,x₁,c₁,hc⟩ := facts
  have drained₂ : (s 2).Drained := ⟨p₂,q₂,a₂,by simp [d₂],by simp [x₂,dialed]⟩
  have drained₁ : (s 1).Drained := ⟨p₁,q₁,a₁,by simp [d₁],by simp [x₁,accepted]⟩
  have open₂ : (s 2).OpenAt ⟨7,1,true⟩ := ⟨.inr (.inl ⟨dialed,by simp [x₂],rfl⟩),by simp [c₂]⟩
  have open₁ : (s 1).OpenAt ⟨7,2,false⟩ :=
    ⟨.inr (.inl ⟨accepted,by simp [x₁],rfl⟩),by simp [c₁]⟩
  refine ⟨s,tr,run,hc,two_nodes_settle run (by decide) (by decide) (by decide) drained₂
    drained₁ ?_ ?_⟩
  · intro x hx _
    rw [x₂,List.mem_singleton] at hx
    subst hx
    exact ⟨rfl,open₂,open₁⟩
  · intro x hx _
    rw [x₁,List.mem_singleton] at hx
    subst hx
    exact ⟨rfl,open₁,open₂⟩

end MeshNetwork
