import MeshNetwork.SlidingWindow
import MeshNetwork.VpnCore

set_option autoImplicit false

namespace MeshNetwork
open Ipv4Packet

structure VpnCore.SendOk {K B : Type} [Buf B] (core : VpnCore K B) (packet : B) : Prop where
  long : 20 ≤ len packet
  version : byte packet 0 >>> 4 = 4
  size : len packet ≤ core.maxPacketSize
  total : (header packet).totalLength ≤ len packet
  ttl : byte packet 8 ≠ 0
  src : (header packet).srcIp = core.ipv4Addr
  dest : core.routeTable.lookup (header packet).destIp ≠ none

structure VpnCore.RecvOk {K B : Type} [Buf B] (core : VpnCore K B) (packet : B) (source : K) :
    Prop where
  long : 20 ≤ len packet
  version : byte packet 0 >>> 4 = 4
  size : len packet ≤ core.maxPacketSize
  total : (header packet).totalLength ≤ len packet
  src : core.routeTable.lookup (header packet).srcIp = some source
  dest : (header packet).destIp = core.ipv4Addr

namespace VpnCore
variable {K B : Type} [Buf B]

theorem verifySendPacket_total (self : VpnCore K B) (packet : B) :
    ∃ r, self.verifySendPacket packet = some r := by
  unfold verifySendPacket
  rw [new_eq_parse]
  cases parse packet with
  | error e => exact ⟨_,rfl⟩
  | ok h =>
    simp only [Option.bind_eq_bind,Option.bind_some]
    repeat' split
    all_goals exact ⟨_,rfl⟩

theorem verifySendPacket_ok {self : VpnCore K B} {packet : B} {ip : Ipv4Addr} :
    self.verifySendPacket packet = some (.ok ip) ↔
      self.SendOk packet ∧ ip = (header packet).destIp := by
  unfold verifySendPacket
  rw [new_eq_parse]
  constructor
  · intro h
    cases hp : parse packet with
    | error e => simp [hp] at h
    | ok hd =>
      obtain ⟨hlong,hver,rfl⟩ := parse_ok hp
      simp only [hp,Option.bind_eq_bind,Option.bind_some] at h
      repeat' split at h
      all_goals simp only [Option.pure_def,Option.some.injEq,reduceCtorEq,Except.ok.injEq] at h
      subst ip
      refine ⟨⟨hlong,hver,?_,?_,?_,?_,?_⟩,rfl⟩
      all_goals simp_all [header,isNeighbourIpv4]
  · rintro ⟨h,rfl⟩
    have hp : parse packet = .ok (header packet) := by
      have hlong := h.long
      simp [parse,h.version]
      omega
    have hsize := h.size
    have htotal := h.total
    have httl : (header packet).ttl ≠ 0 := h.ttl
    have hlen : (header packet).packetLength = len packet := rfl
    have hdest := h.dest
    simp [hp,hlen,Nat.not_lt.mpr hsize,Nat.not_lt.mpr htotal,httl,h.src,isNeighbourIpv4,hdest]

variable [DecidableEq K]

theorem verifyRecvPacket_total (self : VpnCore K B) (packet : B) (source : K) :
    ∃ r, self.verifyRecvPacket packet source = some r := by
  unfold verifyRecvPacket
  rw [new_eq_parse]
  cases parse packet with
  | error e => exact ⟨_,rfl⟩
  | ok h =>
    simp only [Option.bind_eq_bind,Option.bind_some]
    cases hs : self.routeTable.lookup h.srcIp with
    | none =>
      simp only [isNeighbourIpv4,hs]
      repeat' split
      all_goals simp_all
    | some k =>
      simp only [Option.bind_some]
      repeat' split
      all_goals exact ⟨_,rfl⟩

theorem verifyRecvPacket_ok {self : VpnCore K B} {packet : B} {source : K} :
    self.verifyRecvPacket packet source = some (.ok ()) ↔ self.RecvOk packet source := by
  unfold verifyRecvPacket
  rw [new_eq_parse]
  constructor
  · intro h
    cases hp : parse packet with
    | error e => simp [hp] at h
    | ok hd =>
      obtain ⟨hlong,hver,rfl⟩ := parse_ok hp
      cases hs : self.routeTable.lookup (header packet).srcIp with
      | none => 
        simp only [hp,hs,isNeighbourIpv4,Option.bind_eq_bind,Option.bind_some] at h
        repeat' split at h
        all_goals simp_all
      | some k =>
        simp only [hp,hs,isNeighbourIpv4,Option.bind_eq_bind,Option.bind_some] at h
        repeat' split at h
        all_goals simp only [Option.pure_def,Option.some.injEq,reduceCtorEq] at h
        exact ⟨hlong,hver,by simp_all [header],by simp_all [header],by simp_all,by simp_all⟩
  · intro h
    have hp : parse packet = .ok (header packet) := by
      have hlong := h.long
      simp [parse,h.version]
      omega
    have hsize := h.size
    have htotal := h.total
    have hlen : (header packet).packetLength = len packet := rfl
    simp [hp,hlen,Nat.not_lt.mpr hsize,Nat.not_lt.mpr htotal,h.src,isNeighbourIpv4,h.dest]

/-- The key a packet from the TUN is accepted for: it passes `verify_send_packet`
and the route table maps its destination to that key. -/
def acceptedFor (self : VpnCore K B) (packet : B) : Option K :=
  match self.verifySendPacket packet with
  | some (.ok ip) => self.routeTable.lookup ip
  | _ => none

omit [DecidableEq K] in
theorem acceptedFor_eq_some {self : VpnCore K B} {packet : B} {pk : K} :
    self.acceptedFor packet = some pk ↔
      self.SendOk packet ∧ self.routeTable.lookup (header packet).destIp = some pk := by
  unfold acceptedFor
  constructor
  · intro h
    split at h
    · rename_i ip hv
      obtain ⟨hok,rfl⟩ := verifySendPacket_ok.mp hv
      exact ⟨hok,h⟩
    · simp at h
  · rintro ⟨hok,hr⟩
    rw [verifySendPacket_ok.mpr ⟨hok,rfl⟩]
    exact hr

end VpnCore

def PeerState.step {B : Type} (s : PeerState B) : Signal B → PeerState B
  | .opened => if s.isConnected then s else ⟨true,[]⟩
  | .closed => if s.isConnected then ⟨false,s.packetQueue⟩ else s
  | .arrived p =>
    if s.isConnected then s
    else if maxPacketsInQueue ≤ s.packetQueue.length then ⟨false,s.packetQueue.tail ++ [p]⟩
    else ⟨false,s.packetQueue ++ [p]⟩

def PeerState.actions {K B : Type} (pk : K) (s : PeerState B) : Signal B → List (Action K B)
  | .opened => if s.isConnected then [.noAction .alreadyConnected]
    else s.packetQueue.map fun p => .sendPacketTo p pk
  | .closed => if s.isConnected then [] else [.noAction .alreadyDisconnected]
  | .arrived p =>
    if s.isConnected then [.sendPacketTo p pk]
    else if maxPacketsInQueue ≤ s.packetQueue.length then
      [.noAction .packetQueueOverflow,.noAction .packetBuffered]
    else [.noAction .packetBuffered]

namespace VpnCore
variable {K B : Type} [DecidableEq K] [Buf B]

/-- The peer an event is about, and what it means to the gate of that peer. -/
def target (self : VpnCore K B) : Event K B → Option (K × Signal B)
  | .peerConnected pk => if self.isNeighbour pk then some (pk,.opened) else none
  | .peerDisconnected pk => if self.isNeighbour pk then some (pk,.closed) else none
  | .packetFromTun p => (self.acceptedFor p).map fun pk => (pk,.arrived p)
  | .packetFromIroh _ _ => none

def setPeer (self : VpnCore K B) (pk : K) (s : PeerState B) : VpnCore K B :=
  { self with peers := self.peers.insert pk s }

def reply (self : VpnCore K B) : Event K B → Action K B
  | .peerConnected pk => .disconnectFromPeer pk
  | .peerDisconnected _ => .noAction .unknownPeer
  | .packetFromTun p =>
    match self.verifySendPacket p with
    | some (.error e) => .noAction (.sendPacketError e)
    | _ => .noAction (.sendPacketError .unknownDestIp)
  | .packetFromIroh p source =>
    match self.verifyRecvPacket p source with
    | some (.error e) => .noAction (.recvPacketError e)
    | _ => .writeToTun p

omit [Buf B] in
@[simp] theorem setPeer_lookup (self : VpnCore K B) (pk : K) (s : PeerState B) :
    (self.setPeer pk s).peers.lookup pk = some s := by
  simp [setPeer]

omit [Buf B] in
theorem setPeer_lookup_ne (self : VpnCore K B) {pk k : K} (s : PeerState B) (h : k ≠ pk) :
    (self.setPeer pk s).peers.lookup k = self.peers.lookup k := by
  simp [setPeer,Finmap.lookup_insert_of_ne _ h]

omit [Buf B] in
theorem setPeer_self {self : VpnCore K B} {pk : K} {s : PeerState B}
    (h : self.peers.lookup pk = some s) : self.setPeer pk s = self := by
  have heq : self.peers.insert pk s = self.peers := by
    apply Finmap.ext_lookup
    intro k
    by_cases hk : k = pk
    · subst k
      simp [h]
    · simp [Finmap.lookup_insert_of_ne _ hk]
  unfold setPeer
  rw [heq]

omit [Buf B] in
theorem isNeighbour_iff {self : VpnCore K B} {pk : K} :
    self.isNeighbour pk = true ↔ ∃ s, self.peers.lookup pk = some s := by
  rw [isNeighbour,Option.isSome_iff_exists]

/-- An event about a peer in the table changes that peer alone. -/
theorem process_target {self : VpnCore K B} {ev : Event K B} {pk : K} {input : Signal B}
    {s : PeerState B} (ht : self.target ev = some (pk,input))
    (hs : self.peers.lookup pk = some s) :
    self.process ev = some (self.setPeer pk (s.step input),s.actions pk input) := by
  have hn : self.isNeighbour pk = true := isNeighbour_iff.mpr ⟨s,hs⟩
  cases ev with
  | peerConnected k =>
    simp only [target,Option.ite_none_right_eq_some,Option.some.injEq,Prod.mk.injEq] at ht
    obtain ⟨-,rfl,rfl⟩ := ht
    cases hc : s.isConnected with
    | true => simp [process,onPeerConnected,hn,isConnectOpen,hs,hc,PeerState.step,
        PeerState.actions,setPeer_self hs]
    | false => simp [process,onPeerConnected,hn,isConnectOpen,hs,hc,PeerState.step,
        PeerState.actions,setPeer]
  | peerDisconnected k =>
    simp only [target,Option.ite_none_right_eq_some,Option.some.injEq,Prod.mk.injEq] at ht
    obtain ⟨-,rfl,rfl⟩ := ht
    cases hc : s.isConnected with
    | true => simp [process,onPeerDisconnected,hn,isConnectOpen,hs,hc,PeerState.step,
        PeerState.actions,setPeer]
    | false => simp [process,onPeerDisconnected,hn,isConnectOpen,hs,hc,PeerState.step,
        PeerState.actions,setPeer_self hs]
  | packetFromTun p =>
    simp only [target,Option.map_eq_some_iff,Prod.mk.injEq] at ht
    obtain ⟨k,hk,rfl,rfl⟩ := ht
    obtain ⟨hok,hr⟩ := acceptedFor_eq_some.mp hk
    have hv := verifySendPacket_ok.mpr ⟨hok,rfl⟩
    cases hc : s.isConnected with
    | true => simp [process,sendPacket,hv,hr,isConnectOpen,hs,hc,PeerState.step,
        PeerState.actions,setPeer_self hs]
    | false =>
      by_cases hfull : maxPacketsInQueue ≤ s.packetQueue.length
      · simp [process,sendPacket,hv,hr,isConnectOpen,hs,hc,PeerState.step,
          PeerState.actions,setPeer,hfull]
      · simp [process,sendPacket,hv,hr,isConnectOpen,hs,hc,PeerState.step,
          PeerState.actions,setPeer,hfull]
  | packetFromIroh p source => simp [target] at ht

theorem process_reply {self : VpnCore K B} {ev : Event K B} (ht : self.target ev = none) :
    self.process ev = some (self,[self.reply ev]) := by
  cases ev with
  | peerConnected k =>
    have hn : self.isNeighbour k = false := by simpa [target] using ht
    simp [process,onPeerConnected,hn,reply]
  | peerDisconnected k =>
    have hn : self.isNeighbour k = false := by simpa [target] using ht
    simp [process,onPeerDisconnected,hn,reply]
  | packetFromTun p =>
    obtain ⟨r,hr⟩ := verifySendPacket_total self p
    simp only [target,Option.map_eq_none_iff,acceptedFor,hr] at ht
    cases r with
    | error e => simp [process,sendPacket,hr,reply]
    | ok ip => simp [process,sendPacket,hr,reply,show self.routeTable.lookup ip = none from ht]
  | packetFromIroh p source =>
    obtain ⟨r,hr⟩ := verifyRecvPacket_total self p source
    cases r with
    | error e => simp [process,recvPacket,hr,reply]
    | ok u => simp [process,recvPacket,hr,reply]

end VpnCore
end MeshNetwork
