import MeshNetwork.NodeSteps
import MeshNetwork.Whitelist

/-!
Coordinator and manager send to each other over bounded channels, and both may wait for
room. The coordinator never does: its only waiting send passes on a request that the core
makes for unknown keys, and the manager reports no such key.
-/

set_option autoImplicit false

namespace MeshNetwork

def Action.requestsLink {K B : Type} : Action K B → Bool
  | .connectToPeer _ => true
  | .disconnectFromPeer _ => true
  | _ => false

theorem PeerState.actions_requestsLink {K B : Type} {pk : K} {s : PeerState B} {x : Signal B}
    {a : Action K B} (h : a ∈ s.actions pk x) : a.requestsLink = false := by
  cases x with
  | opened =>
    simp only [PeerState.actions] at h
    split at h
    · rw [List.mem_singleton.mp h]
      rfl
    · obtain ⟨p,-,rfl⟩ := List.mem_map.mp h
      rfl
  | closed =>
    simp only [PeerState.actions] at h
    split at h
    · simp at h
    · rw [List.mem_singleton.mp h]
      rfl
  | arrived p =>
    simp only [PeerState.actions] at h
    repeat' split at h
    · rw [List.mem_singleton.mp h]
      rfl
    · simp only [List.mem_cons,List.not_mem_nil,or_false] at h
      rcases h with rfl | rfl <;> rfl
    · rw [List.mem_singleton.mp h]
      rfl

namespace VpnCore
variable {K B : Type} [DecidableEq K] [Buf B]

/-- Only a connection to an unknown key makes the core ask for anything. -/
theorem reply_requestsLink {self : VpnCore K B} {ev : Event K B}
    (h : ∀ pk, ev ≠ .peerConnected pk) : (self.reply ev).requestsLink = false := by
  cases ev with
  | peerConnected pk => exact absurd rfl (h pk)
  | peerDisconnected pk => rfl
  | packetFromTun p =>
    simp only [reply]
    split <;> rfl
  | packetFromIroh p source =>
    simp only [reply]
    split <;> rfl

end VpnCore

section Core
variable {K B : Type} [DecidableEq K] [Buf B] {ipv4Addr : Ipv4Addr} {routeTable : RouteTable K}
variable {maxPacketSize : Nat} {core next : VpnCore K B}

theorem CoreInvariant.process_requestsLink
    (h : CoreInvariant ipv4Addr routeTable maxPacketSize core) {ev : Event K B}
    (hev : ∀ pk, ev = .peerConnected pk → ∃ ip, routeTable.lookup ip = some pk)
    {actions : List (Action K B)} (hp : core.process ev = some (next,actions)) {a : Action K B}
    (ha : a ∈ actions) : a.requestsLink = false := by
  cases ht : core.target ev with
  | none =>
    rw [VpnCore.process_reply ht] at hp
    simp only [Option.some.injEq,Prod.mk.injEq] at hp
    obtain ⟨-,rfl⟩ := hp
    rw [List.mem_singleton.mp ha]
    refine VpnCore.reply_requestsLink fun pk heq => ?_
    subst heq
    have hn : core.isNeighbour pk = true :=
      VpnCore.isNeighbour_iff.mpr (Finmap.mem_iff.mp ((h.keys pk).mpr (hev pk rfl)))
    simp [VpnCore.target,hn] at ht
  | some r =>
    obtain ⟨k,x⟩ := r
    obtain ⟨s,hs⟩ := h.target_known ht
    rw [VpnCore.process_target ht hs] at hp
    simp only [Option.some.injEq,Prod.mk.injEq] at hp
    obtain ⟨-,rfl⟩ := hp
    exact PeerState.actions_requestsLink ha

end Core

namespace Node
variable {K : Type} [LinearOrder K]

def ManagerWaits (n : Node K) : Prop :=
  ∃ event rest, n.manager.pc = .send event :: rest ∧ n.cfg.coordCapacity ≤ n.toCoord.length

def CoordWaits (n : Node K) : Prop := ∃ a rest, n.hand = a :: rest ∧ ¬ n.takesAction a

/-- Whitelist, channels and core go together: nobody is told of an unknown key. -/
structure NoLinkRequests (cfg : Config K) (n : Node K) (tr : List (NodeObs K)) : Prop where
  kept : CoreKept cfg n
  hand : ∀ a ∈ n.hand, a.requestsLink = false
  toIroh : ∀ a ∈ n.toIroh, ∃ packet pubKey, a = .sendPacketTo packet pubKey
  whitelist : Manager.WhitelistKept cfg.peers n.manager (managerView tr)
  reported : ∀ pubKey, .connectedToPeer pubKey ∈ n.toCoord → pubKey ∈ cfg.peers

omit [LinearOrder K] in
theorem irohSends_packet {n : Node K} {action : Action K Packet}
    (h : action.requestsLink = false) {a : CoreAction K Packet} (ha : a ∈ n.irohSends action) :
    ∃ packet pubKey, a = .sendPacketTo packet pubKey := by
  cases action with
  | connectToPeer pubKey => simp [Action.requestsLink] at h
  | disconnectFromPeer pubKey => simp [Action.requestsLink] at h
  | sendPacketTo packet pubKey =>
    simp only [irohSends] at ha
    split at ha
    · exact ⟨packet,pubKey,List.mem_singleton.mp ha⟩
    · simp at ha
  | writeToTun packet => simp [irohSends] at ha
  | noAction log => simp [irohSends] at ha

omit [LinearOrder K] in
theorem posts_connected {n : Node K} {act : Act K Packet} {pubKey : K}
    (h : .connectedToPeer pubKey ∈ n.posts act) :
    ∃ e ∈ n.manager.pc, e.admits = some pubKey := by
  cases act with
  | effect =>
    simp only [posts] at h
    split at h
    · rename_i event rest hpc
      refine ⟨.send event,by simp [hpc],?_⟩
      rw [← List.mem_singleton.mp h]
      rfl
    · simp at h
  | readDatagram s packet =>
    simp only [posts] at h
    split at h <;> simp at h
  | _ => simp [posts] at h

theorem NoLinkRequests.answers {cfg : Config K} {n : Node K} {tr : List (NodeObs K)}
    (h : NoLinkRequests cfg n tr) {ev : Event K Packet}
    (hev : ∀ pubKey, ev = .peerConnected pubKey → pubKey ∈ cfg.peers)
    {core : VpnCore K Packet} {actions : List (Action K Packet)}
    (hp : n.core.process ev = some (core,actions)) :
    ∀ a ∈ actions, a.requestsLink = false := fun _ ha =>
  h.kept.core.process_requestsLink (fun pk heq => (cfg.peers_iff pk).mp (hev pk heq)) hp ha

theorem NoLinkRequests.heard {cfg : Config K} {n : Node K} {tr : List (NodeObs K)}
    (h : NoLinkRequests cfg n tr) {ev : Event K Packet}
    (hmem : ev ∈ n.toCoord.map mapIrohEventToCoreEvent) {pubKey : K}
    (hev : ev = .peerConnected pubKey) : pubKey ∈ cfg.peers := by
  obtain ⟨e,he,hmap⟩ := List.mem_map.mp hmem
  subst hev
  cases e with
  | connectedToPeer k =>
    simp only [mapIrohEventToCoreEvent,Event.peerConnected.injEq] at hmap
    rw [← hmap]
    exact h.reported k he
  | disconnectedFromPeer k => simp [mapIrohEventToCoreEvent] at hmap
  | recvPacketFrom packet k => simp [mapIrohEventToCoreEvent] at hmap

theorem NoLinkRequests.next {cfg : Config K} {n : Node K} {tr : List (NodeObs K)}
    (h : NoLinkRequests cfg n tr) {a : NodeAct K} (hen : n.enabled a) :
    NoLinkRequests cfg (n.next a) (tr ++ n.shows a) := by
  have hkept := h.kept.next hen
  have hview := n.managerView_shows (a := a)
  have hm := moved hen
  generalize n.next a = n' at hm hkept
  generalize n.shows a = os at hm hview
  have still : managerView os = [] →
      Manager.WhitelistKept cfg.peers n.manager (managerView (tr ++ os)) := fun hnil => by
    rw [managerView_append,hnil,List.append_nil]
    exact h.whitelist
  cases hm with
  | tunRead data => exact ⟨hkept,h.hand,h.toIroh,still rfl,h.reported⟩
  | tunWrite => exact ⟨hkept,h.hand,h.toIroh,still rfl,h.reported⟩
  | @coordIroh event rest core actions free queue answer =>
    refine ⟨hkept,?_,h.toIroh,still (hview (by simp)),fun pubKey hmem => ?_⟩
    · have hmem : mapIrohEventToCoreEvent event ∈ n.toCoord.map mapIrohEventToCoreEvent := by
        rw [queue]
        exact List.mem_cons_self
      exact h.answers (fun _ => h.heard hmem) answer
    · exact h.reported pubKey (by rw [queue]; exact List.mem_cons_of_mem _ hmem)
  | coordTun free queue answer =>
    refine ⟨hkept,?_,h.toIroh,still (hview (by simp)),h.reported⟩
    exact h.answers (fun pubKey heq => by simp at heq) answer
  | @coordAction action rest hhand =>
    have hno : ∀ x ∈ action :: rest, x.requestsLink = false := by
      rw [← hhand]
      exact h.hand
    rw [handleAction_eq] at hkept ⊢
    refine ⟨hkept,fun x hx => hno x (List.mem_cons_of_mem _ hx),fun x hx => ?_,
      still (hview (by simp)),h.reported⟩
    rcases List.mem_append.mp hx with hold | hnew
    · exact h.toIroh x hold
    · exact irohSends_packet (hno action List.mem_cons_self) hnew
  | @managerCore action rest idle queue =>
    obtain ⟨packet,pubKey,rfl⟩ := h.toIroh action (by rw [queue]; exact List.mem_cons_self)
    refine ⟨hkept,h.hand,fun x hx => h.toIroh x ?_,?_,h.reported⟩
    · rw [queue]
      exact List.mem_cons_of_mem _ hx
    · rw [List.append_nil]
      simpa [Manager.shows] using h.whitelist.next (l := .recvCore (.sendPacketTo packet pubKey))
        trivial idle
  | @manager act hact own =>
    refine ⟨hkept,h.hand,h.toIroh,?_,fun pubKey hmem => ?_⟩
    · rw [managerView_append,managerView_map]
      refine h.whitelist.next ?_ hact
      cases act with
      | recvCore action => exact absurd rfl (own action)
      | _ => trivial
    · rcases List.mem_append.mp hmem with hold | hnew
      · exact h.reported pubKey hold
      · obtain ⟨e,he,hk⟩ := posts_connected hnew
        exact h.whitelist.pending e he pubKey hk

theorem noLinkRequests_run {cfg : Config K} {ok : Node K → NodeAct K → Prop} {n : Node K}
    {tr : List (NodeObs K)} (run : Runs.Run system ok (start cfg) n tr) :
    NoLinkRequests cfg n tr := by
  refine run.invariant (NoLinkRequests cfg) ?_ fun _ _ _ h _ hen => h.next hen
  exact ⟨start_coreKept cfg,by simp [start],by simp [start],
    Manager.start_whitelistKept cfg.id cfg.peers cfg.managerCapacity,by simp [start]⟩

structure NeverCircular (n : Node K) : Prop where
  /-- The core is asked nothing that it answers with a request for a link. -/
  answers : ∀ event, event ∈ n.toCoord.map mapIrohEventToCoreEvent ∨
      (∃ packet, event = .packetFromTun packet) → ∃ core actions,
    n.core.process event = some (core,actions) ∧ ∀ a ∈ actions, a.requestsLink = false
  hand : ∀ a ∈ n.hand, a.requestsLink = false
  coordFree : ¬ n.CoordWaits
  noCircle : ¬ (n.ManagerWaits ∧ n.CoordWaits)
  /-- While the manager waits, the coordinator has a step to take. -/
  coordMoves : n.ManagerWaits → 0 < n.cfg.coordCapacity →
    n.enabled .coordIroh ∨ n.enabled .coordAction

/-- For every configuration and all capacities the coordinator never waits. -/
theorem never_wait_in_circle {cfg : Config K} {n : Node K} {tr : List (NodeObs K)}
    (run : Runs.Run system Runs.anyStep (start cfg) n tr) : NeverCircular n := by
  have h := noLinkRequests_run run
  have htakes : ∀ a ∈ n.hand, n.takesAction a := by
    intro a ha
    have hno := h.hand a ha
    cases a with
    | disconnectFromPeer pubKey => simp [Action.requestsLink] at hno
    | _ => trivial
  have hfree : ¬ n.CoordWaits := by
    rintro ⟨a,rest,hhand,hwait⟩
    exact hwait (htakes a (by rw [hhand]; exact List.mem_cons_self))
  refine ⟨fun event hev => ?_,h.hand,hfree,fun hboth => hfree hboth.2,fun hwait hpos => ?_⟩
  · obtain ⟨core,actions,hp,-⟩ := h.kept.core.process event
    refine ⟨core,actions,hp,h.answers (fun pubKey heq => ?_) hp⟩
    rcases hev with hmem | ⟨packet,hpacket⟩
    · exact h.heard hmem heq
    · simp [hpacket] at heq
  · cases hhand : n.hand with
    | nil =>
      left
      obtain ⟨event,rest,-,hfull⟩ := hwait
      cases hq : n.toCoord with
      | nil =>
        rw [hq,List.length_nil] at hfull
        omega
      | cons e queue =>
        obtain ⟨core,actions,hp,-⟩ := h.kept.core.process (mapIrohEventToCoreEvent e)
        exact ⟨hhand,e,by simp [hq],by simp [coreAnswers,hp]⟩
    | cons a rest =>
      have ha : a ∈ n.hand := by rw [hhand]; exact List.mem_cons_self
      exact .inr ⟨a,by simp [hhand],htakes a ha⟩

/-- A second connection of a peer is installed while the channel to the coordinator is
full: the manager waits, and the coordinator goes on. -/
theorem never_wait_in_circle_full :
    ∃ (n : Node Nat) (tr : List (NodeObs Nat)), Runs.Run system Runs.anyStep
      (start { Config.main 1 ⟨10,67,1,1⟩ (AList.insert ⟨10,67,1,2⟩ 2 ∅) with coordCapacity := 1 })
      n tr ∧ n.ManagerWaits ∧ NeverCircular n := by
  let first : Connection Nat := ⟨0,2,false⟩
  let second : Connection Nat := ⟨1,2,false⟩
  obtain ⟨n,tr,run,h⟩ := @Runs.exec_reaches _ _ _ (system (K := Nat)) Runs.anyStep _ _
    (start { Config.main 1 ⟨10,67,1,1⟩ (AList.insert ⟨10,67,1,2⟩ 2 ∅) with coordCapacity := 1 })
    [.manager .effect,.manager (.accepted first),.manager (.reportAccept first),.manager .recvTask,
      .manager .effect,.manager .effect,.manager (.accepted second),
      .manager (.reportAccept second),.manager .recvTask,.manager .effect,.manager .effect]
    (fun r => decide (r.1.manager.pc.head? = some (.send (.connectedToPeer 2)) ∧
      r.1.cfg.coordCapacity ≤ r.1.toCoord.length)) (by decide)
  obtain ⟨hpc,hfull⟩ := of_decide_eq_true h
  obtain ⟨rest,hrest⟩ := List.head?_eq_some_iff.mp hpc
  exact ⟨n,tr,run,⟨_,rest,hrest,hfull⟩,never_wait_in_circle run⟩

end Node
end MeshNetwork
