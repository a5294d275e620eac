import MeshNetwork.Forwarding
import MeshNetwork.PeerIndependence
import MeshNetwork.Stuttering

set_option autoImplicit false

namespace MeshNetwork
open Unwinding

/-- The event reports a peer as what the core has it down for already, or is about a key
outside the whitelist. -/
def VpnCore.Repeats {K B : Type} [DecidableEq K] (self : VpnCore K B) : Event K B → Prop
  | .peerConnected pk => self.isConnectOpen pk = some true ∨ self.verifyConnection pk = false
  | .peerDisconnected pk => self.isConnectOpen pk = some false ∨ self.verifyConnection pk = false
  | .packetFromTun _ => False
  | .packetFromIroh _ _ => False

section Repeated
variable {K B : Type} [DecidableEq K]

theorem VpnCore.lookup_of_isConnectOpen {self : VpnCore K B} {pk : K} {isConnected : Bool}
    (h : self.isConnectOpen pk = some isConnected) :
    ∃ s, self.peers.lookup pk = some s ∧ s.isConnected = isConnected := by
  simpa only [isConnectOpen,Option.map_eq_some_iff] using h

variable [Buf B]

theorem VpnCore.Repeats.process {self : VpnCore K B} {ev : Event K B} (h : self.Repeats ev) :
    ∃ action, self.process ev = some (self,[action]) ∧ action.packet? = none := by
  cases ev with
  | peerConnected pk =>
    rcases h with hopen | hkey
    · obtain ⟨s,hs,hc⟩ := lookup_of_isConnectOpen hopen
      have hn : self.isNeighbour pk = true := isNeighbour_iff.mpr ⟨s,hs⟩
      have ht : self.target (.peerConnected pk) = some (pk,.opened) := by simp [target,hn]
      have hstep : s.step .opened = s := by simp [PeerState.step,hc]
      have hp := process_target ht hs
      rw [hstep,setPeer_self hs] at hp
      exact ⟨.noAction .alreadyConnected,by simpa [PeerState.actions,hc] using hp,rfl⟩
    · have ht : self.target (.peerConnected pk) = none := by
        simpa [target,verifyConnection] using hkey
      exact ⟨.disconnectFromPeer pk,process_reply ht,rfl⟩
  | peerDisconnected pk =>
    rcases h with hclosed | hkey
    · obtain ⟨s,hs,hc⟩ := lookup_of_isConnectOpen hclosed
      have hn : self.isNeighbour pk = true := isNeighbour_iff.mpr ⟨s,hs⟩
      have ht : self.target (.peerDisconnected pk) = some (pk,.closed) := by simp [target,hn]
      have hstep : s.step .closed = s := by simp [PeerState.step,hc]
      have hp := process_target ht hs
      rw [hstep,setPeer_self hs] at hp
      exact ⟨.noAction .alreadyDisconnected,by simpa [PeerState.actions,hc] using hp,rfl⟩
    · have ht : self.target (.peerDisconnected pk) = none := by
        simpa [target,verifyConnection] using hkey
      exact ⟨.noAction .unknownPeer,process_reply ht,rfl⟩
  | packetFromTun p => exact h.elim
  | packetFromIroh p source => exact h.elim

/-- Such events may be put anywhere into the history of a core, any number of them: the state
it ends in and the answers to the other events stay the same, and no packet is sent or
written on their account. -/
theorem repeated_events_are_harmless (ipv4Addr : Ipv4Addr) (routeTable : RouteTable K)
    (maxPacketSize : Nat) (evs : List (Event K B)) (ms : List (Event K B × Bool))
    (h : Inserted VpnCore.process VpnCore.Repeats (.new ipv4Addr routeTable maxPacketSize) evs ms) :
    ∃ core outs outs',
      (VpnCore.new ipv4Addr routeTable maxPacketSize).run evs = some (core,outs) ∧
      (VpnCore.new ipv4Addr routeTable maxPacketSize).run (ms.map Prod.fst) = some (core,outs') ∧
      visible Prod.snd ms outs' = outs ∧
      ∀ actions ∈ visible (fun m => !m.2) ms outs', ∀ action ∈ actions, action.packet? = none := by
  obtain ⟨core,outs,hrun,-⟩ := (VpnCore.new_invariant ipv4Addr routeTable maxPacketSize).run evs
  have still : ∀ (core : VpnCore K B) ev, core.Repeats ev → ∃ actions,
      core.process ev = some (core,actions) ∧ ∀ action ∈ actions, action.packet? = none := by
    intro core ev hev
    obtain ⟨action,hp,hnone⟩ := hev.process
    exact ⟨[action],hp,List.forall_mem_singleton.mpr hnone⟩
  obtain ⟨outs',hrun',hsame,hnone⟩ := h.follow still ((VpnCore.run_eq_run _ evs).symm.trans hrun)
  exact ⟨core,outs,outs',hrun,(VpnCore.run_eq_run _ _).trans hrun',hsame,hnone⟩

/-- The peer is reported lost while it has yet to connect, with a packet in its queue, and
reported twice when its session is replaced; a stranger connects in between. -/
theorem repeated_events_are_harmless_replaced :
    let ping : List UInt8 := [0x45,0,0,20,0,0,0,0,64,0,0,0,10,67,1,1,10,67,1,2]
    let core₀ : VpnCore Nat (List UInt8) :=
      .new ⟨10,67,1,1⟩ (AList.insert ⟨10,67,1,2⟩ 2 ∅) 1100
    let ms : List (Event Nat (List UInt8) × Bool) := [(.packetFromTun ping,true),
      (.peerDisconnected 2,false),(.peerConnected 9,false),(.peerConnected 2,true),
      (.peerConnected 2,false)]
    ∃ core outs outs', core₀.run [.packetFromTun ping,.peerConnected 2] = some (core,outs) ∧
      core₀.run (ms.map Prod.fst) = some (core,outs') ∧ visible Prod.snd ms outs' = outs ∧
      ∀ actions ∈ visible (fun m => !m.2) ms outs', ∀ action ∈ actions, action.packet? = none :=
  repeated_events_are_harmless ⟨10,67,1,1⟩ (AList.insert ⟨10,67,1,2⟩ 2 ∅) 1100 _ _
    (.kept rfl (.extra (.inl rfl) (.extra (.inr rfl) (.kept rfl (.extra (.inl rfl) (.nil _))))))

end Repeated
end MeshNetwork
