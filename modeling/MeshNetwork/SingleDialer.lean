import MeshNetwork.Dials
import MeshNetwork.Transport

/-!
A mesh of managers that are never told to connect or to disconnect. Of two nodes only
the one with the greater key dials.
-/

set_option autoImplicit false

namespace MeshNetwork
open Runs

variable {K B : Type} [LinearOrder K] [Buf B]

def managerNet (mesh : K → Prop) : Net K (Manager K B) (Act K B) (Obs K B) where
  system := Manager.system
  member := mesh
  ok := fun _ => Manager.NoLinkActions
  allows := transportAllows mesh

section Decide
variable (mesh : K → Prop) [DecidablePred mesh] [DecidableEq B]

instance : DecidablePred (managerNet (B := B) mesh).member := inferInstanceAs (DecidablePred mesh)

instance (k : K) (m : Manager K B) (l : Act K B) : Decidable ((managerNet mesh).ok k m l) :=
  inferInstanceAs (Decidable (m.NoLinkActions l))

instance (m : Manager K B) (l : Act K B) : Decidable ((managerNet mesh).system.enabled m l) :=
  inferInstanceAs (Decidable (m.enabled l))

instance (tr : List (K × Obs K B)) (k : K) (o : Obs K B) :
    Decidable ((managerNet mesh).allows tr k o) :=
  inferInstanceAs (Decidable (transportAllows mesh tr k o))

end Decide

/-- The event leads into one of the two branches that close a connection because it
violates the order of the public keys. -/
def ViolatesOrder (iroh : Iroh K) (event : ConnectionEvent K) : Prop :=
  ∃ c, (event = .outgoingConnection c ∧
      iroh.stateTable.lookup c.remoteId = some .waitingIncomingConnection) ∨
    (event = .incomingConnection c ∧ iroh.isConnecting c.remoteId = true)

def ConnectionEvent.concerns {K : Type} (pubKey : K) (event : ConnectionEvent K) : Prop :=
  ∃ c : Connection K, c.remoteId = pubKey ∧
    (event = .outgoingConnection c ∨ event = .incomingConnection c)

section Mesh
variable {mesh : K → Prop} {peers : K → KeySet K} {channelCapacity : K → Nat}
variable {s : K → Manager K B} {tr : List (K × Obs K B)}

theorem mesh_dialsBelow (run : NetRun (managerNet mesh)
    (fun k => Manager.start k (peers k) (channelCapacity k)) s tr) (k : K) :
    Manager.DialsBelow k (s k) (view k tr) := Manager.dialsBelow_run (run.project k)

/-- An incoming connection from a member of the mesh was dialed by that member. -/
theorem incoming_from_greater (run : NetRun (managerNet mesh)
    (fun k => Manager.start k (peers k) (channelCapacity k)) s tr) {X : K} {q : Queued K}
    (hq : q ∈ (s X).rxFromTasks) {c : Connection K} (hev : q.event = .incomingConnection c)
    (hm : mesh c.remoteId) : X ≤ c.remoteId := by
  have hacc : .accepted c ∈ view X tr :=
    (Manager.acceptsShown_run (run.project X)).queued q hq c hev
  obtain ⟨u,hu,-,hdialer⟩ := run.allowed (mem_view.mp hacc)
  have hatt : .attempted X c.serial ∈ view c.remoteId tr :=
    mem_view.mpr (hu.subset (hdialer hm))
  exact (mesh_dialsBelow run c.remoteId).attempted X c.serial hatt

/-- What the manager of `X` has to do with `Y` when one node of each pair dials. -/
structure OneDialer (X Y : K) (m : Manager K B) (shown : List (Obs K B)) : Prop where
  order : .dialSpawned Y ∈ shown → Y < X
  /-- Between two handled events (`m.pc = []`) a `Connecting` entry has one dial, running or
  reported; the handling of an event is one step of the node. -/
  count : m.pc = [] → m.liveDials Y + m.undelivered Y =
    if m.iroh.isConnecting Y = true then 1 else 0
  /-- During a handler the connection it is about to install counts as well. -/
  handling : m.liveDials Y + m.undelivered Y + m.inHand Y =
    if m.iroh.isConnecting Y = true then 1 else 0
  outgoing : ∀ q ∈ m.rxFromTasks, ∀ c, c.remoteId = Y → q.event = .outgoingConnection c →
    m.iroh.isConnecting Y = true
  incoming : ∀ q ∈ m.rxFromTasks, ∀ c, c.remoteId = Y → q.event = .incomingConnection c →
    m.iroh.isConnecting Y = false
  inOrder : ∀ q ∈ m.rxFromTasks, q.event.concerns Y → ¬ ViolatesOrder m.iroh q.event

/-- Only the greater of two keys dials, once for each `Connecting` entry, and every event
meets an entry that the order of the keys has it expect. -/
theorem single_dialer (run : NetRun (managerNet mesh)
    (fun k => Manager.start k (peers k) (channelCapacity k)) s tr) {X Y : K}
    (hY : mesh Y) (hne : X ≠ Y) : OneDialer X Y (s X) (view X tr) := by
  have h := mesh_dialsBelow run X
  have hcount := h.dialing.count Y
  have hout : ∀ q ∈ (s X).rxFromTasks, ∀ c, c.remoteId = Y →
      q.event = .outgoingConnection c → (s X).iroh.isConnecting Y = true := by
    intro q hq c hc hev
    rw [← hc]
    exact h.dialing.outgoing_connecting hq hev
  have hin : ∀ q ∈ (s X).rxFromTasks, ∀ c, c.remoteId = Y →
      q.event = .incomingConnection c → (s X).iroh.isConnecting Y = false := by
    intro q hq c hc hev
    refine Bool.eq_false_iff.mpr fun hconn => ?_
    have hle := h.dialing.connecting Y hconn
    rw [h.sameId] at hle
    have hge := incoming_from_greater run hq hev (by rw [hc]; exact hY)
    rw [hc] at hge
    exact hne (le_antisymm hge hle)
  refine ⟨fun hd => ?_,fun idle => ?_,hcount,hout,hin,fun q hq hcon => ?_⟩
  · exact lt_of_le_of_ne (h.spawned Y hd) (Ne.symm hne)
  · have hnone : (s X).inHand Y = 0 := by simp [Manager.inHand,idle]
    rw [hnone,Nat.add_zero] at hcount
    exact hcount
  · rintro ⟨c,⟨hev,hw⟩ | ⟨hev,hconn⟩⟩
    · have hc := h.dialing.outgoing_connecting hq hev
      simp [Iroh.isConnecting,hw] at hc
    · obtain ⟨c',hc',hev' | hev'⟩ := hcon
      · rw [hev] at hev'
        simp at hev'
      · rw [hev,ConnectionEvent.incomingConnection.injEq] at hev'
        subst hev'
        rw [hc',hin q hq c hc' hev] at hconn
        simp at hconn

end Mesh

/-- The greater of two nodes dials, and the smaller one accepts. -/
theorem single_dialer_two : ∃ (s : Nat → Manager Nat (List UInt8)) (tr : List _),
    NetRun (managerNet fun k => k = 1 ∨ k = 2)
      (fun k => .start k (if k = 1 then ⟨[2],by decide⟩ else ⟨[1],by decide⟩) 8192) s tr ∧
      (2,.dialSpawned 1) ∈ tr ∧ (s 1).rxFromTasks ≠ [] ∧ (s 2).rxFromTasks ≠ [] ∧
      OneDialer 2 1 (s 2) (view 2 tr) ∧ OneDialer 1 2 (s 1) (view 1 tr) := by
  obtain ⟨s,tr,run,h⟩ := @netExec_reaches _ _ _ _ _
    (managerNet (K := Nat) (B := List UInt8) fun k => k = 1 ∨ k = 2) _ _ _ _
    (fun k => .start k (if k = 1 then ⟨[2],by decide⟩ else ⟨[1],by decide⟩) 8192)
    [(1,.effect),(2,.effect),(2,.attempt ⟨0,1,false,none⟩ 7),(1,.accepted ⟨7,2,false⟩),
      (2,.dialed ⟨0,1,false,none⟩ 7),(1,.reportAccept ⟨7,2,false⟩),
      (2,.reportDial ⟨0,1,false,some ⟨7,1,true⟩⟩)]
    (fun r => decide ((2,.dialSpawned 1) ∈ r.2 ∧ (r.1 1).rxFromTasks ≠ [] ∧
      (r.1 2).rxFromTasks ≠ [])) (by decide)
  obtain ⟨hd,hq₁,hq₂⟩ := of_decide_eq_true h
  exact ⟨s,tr,run,hd,hq₁,hq₂,single_dialer run (.inl rfl) (by decide),
    single_dialer run (.inr rfl) (by decide)⟩

end MeshNetwork
