import MeshNetwork.Authenticity
import MeshNetwork.LinkChecks

/-!
The packets that the core passes on, in either direction and also from a buffer: what the
two checks in front of them have in common. Neither check looks at the header length.
-/

set_option autoImplicit false

namespace MeshNetwork
open Ipv4Packet

def Action.packet? {K B : Type} : Action K B → Option B
  | .sendPacketTo packet _ => some packet
  | .writeToTun packet => some packet
  | _ => none

theorem Action.packet?_eq_some {K B : Type} {action : Action K B} {packet : B} :
    action.packet? = some packet ↔
      (∃ pubKey, action = .sendPacketTo packet pubKey) ∨ action = .writeToTun packet := by
  cases action <;> simp [Action.packet?]

section Passed
variable {K B : Type} [Buf B]

structure LengthsChecked (maxPacketSize : Nat) (packet : B) : Prop where
  size : len packet ≤ maxPacketSize
  long : 20 ≤ len packet
  version : byte packet 0 >>> 4 = 4
  total : (header packet).totalLength ≤ len packet

/-- One end of the packet is the node itself, and the other end has a route. -/
def EndsKnown (ipv4Addr : Ipv4Addr) (routeTable : RouteTable K) (packet : B) : Prop :=
  ((header packet).srcIp = ipv4Addr ∧ ∃ pk, routeTable.lookup (header packet).destIp = some pk) ∨
    ((header packet).destIp = ipv4Addr ∧ ∃ pk, routeTable.lookup (header packet).srcIp = some pk)

variable [DecidableEq K] {ipv4Addr : Ipv4Addr} {routeTable : RouteTable K} {maxPacketSize : Nat}

theorem CoreInvariant.passed {core next : VpnCore K B}
    (h : CoreInvariant ipv4Addr routeTable maxPacketSize core) {ev : Event K B}
    {actions : List (Action K B)} (hp : core.process ev = some (next,actions))
    {action : Action K B} (ha : action ∈ actions) {packet : B}
    (hpacket : action.packet? = some packet) :
    LengthsChecked maxPacketSize packet ∧ EndsKnown ipv4Addr routeTable packet := by
  rcases Action.packet?_eq_some.mp hpacket with ⟨pk,rfl⟩ | rfl
  · obtain ⟨hok,hroute⟩ := h.emitted hp ha
    have hsrc := hok.src
    rw [h.addr] at hsrc
    rw [h.routes] at hroute
    exact ⟨⟨h.size ▸ hok.size,hok.long,hok.version,hok.total⟩,.inl ⟨hsrc,pk,hroute⟩⟩
  · obtain ⟨source,-,hok⟩ := h.writes hp ha
    have hdest := hok.dest
    have hsrc := hok.src
    rw [h.addr] at hdest
    rw [h.routes] at hsrc
    exact ⟨⟨h.size ▸ hok.size,hok.long,hok.version,hok.total⟩,.inr ⟨hdest,source,hsrc⟩⟩

/-- Whatever a reachable core answers, it does not panic, and what it passes on is within
the packet size and has the bytes of a version 4 header and those it says it has. -/
theorem passed_packets_lengths (ipv4Addr : Ipv4Addr) (routeTable : RouteTable K)
    (maxPacketSize : Nat) (evs : List (Event K B)) :
    ∃ core outs, (VpnCore.new ipv4Addr routeTable maxPacketSize).run evs = some (core,outs) ∧
      ∀ ev, ∃ next actions, core.process ev = some (next,actions) ∧
        ∀ action ∈ actions, ∀ packet, action.packet? = some packet →
          LengthsChecked maxPacketSize packet := by
  obtain ⟨core,outs,hrun,h⟩ := (VpnCore.new_invariant ipv4Addr routeTable maxPacketSize).run evs
  refine ⟨core,outs,hrun,fun ev => ?_⟩
  obtain ⟨next,actions,hp,-,-⟩ := h.process ev
  exact ⟨next,actions,hp,fun action ha packet hpacket => (h.passed hp ha hpacket).1⟩

/-- The header length field counts words of four bytes. -/
def headerLength (packet : B) : Nat := 4 * (byte packet 0 &&& 15).toNat

structure LengthsCoherent (maxPacketSize : Nat) (packet : B) : Prop where
  size : len packet ≤ maxPacketSize
  version : byte packet 0 >>> 4 = 4
  header : 20 ≤ headerLength packet
  fits : headerLength packet ≤ (Ipv4Packet.header packet).totalLength
  total : (Ipv4Packet.header packet).totalLength ≤ len packet

end Passed

/-- A packet of a peer whose header length field is zero is written to the TUN, and an own
packet with a total length of zero is sent. -/
theorem incoherent_lengths_pass :
    let core : VpnCore Nat (List UInt8) :=
      .new ⟨10,67,1,1⟩ (AList.insert ⟨10,67,1,2⟩ 2 ∅) 1100
    let headless : List UInt8 := [0x40,0,0,20,0,0,0,0,64,0,0,0,10,67,1,2,10,67,1,1]
    let empty : List UInt8 := [0x45,0,0,0,0,0,0,0,64,0,0,0,10,67,1,1,10,67,1,2]
    (∃ next, core.process (.packetFromIroh headless 2) = some (next,[.writeToTun headless])) ∧
      ¬ LengthsCoherent 1100 headless ∧
      (∃ mid next, core.process (.peerConnected 2) = some (mid,[]) ∧
        mid.process (.packetFromTun empty) = some (next,[.sendPacketTo empty 2])) ∧
      ¬ LengthsCoherent 1100 empty := by
  refine ⟨⟨_,rfl⟩,fun h => ?_,⟨_,_,rfl,rfl⟩,fun h => ?_⟩
  · exact absurd h.header (by decide)
  · exact absurd h.fits (by decide)

end MeshNetwork
