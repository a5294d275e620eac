import Mathlib.Data.Finmap
import MeshNetwork.Ipv4

/-!
The core of `vpn_core.rs`. Every function that may panic returns an `Option`
whose `none` is the panic.
-/

set_option autoImplicit false

namespace MeshNetwork

def maxPacketsInQueue : Nat := 1000

structure PeerState (B : Type) where
  isConnected : Bool
  packetQueue : List B
  deriving DecidableEq

inductive Event (K B : Type) where
  | peerConnected (pubKey : K)
  | peerDisconnected (pubKey : K)
  | packetFromTun (packet : B)
  | packetFromIroh (packet : B) (source : K)
  deriving DecidableEq

inductive SendPacketError where
  | incorrectSrcIp
  | unknownDestIp
  | mtuError
  | incorrectTTL
  | brokenLength
  | parseError (e : ParseError)
  deriving DecidableEq

inductive RecvPacketError where
  | unknownSrcIp
  | incorrectDestIp
  | mtuError
  | spoofing
  | brokenLength
  | parseError (e : ParseError)
  deriving DecidableEq

inductive LogEvent where
  | unknownPeer
  | alreadyConnected
  | alreadyDisconnected
  | sendPacketError (e : SendPacketError)
  | recvPacketError (e : RecvPacketError)
  | connectionNotOpen
  | internalStateError
  | packetBuffered
  | packetQueueOverflow
  deriving DecidableEq

inductive Action (K B : Type) where
  | connectToPeer (pubKey : K)
  | disconnectFromPeer (pubKey : K)
  | sendPacketTo (packet : B) (pubKey : K)
  | writeToTun (packet : B)
  | noAction (log : LogEvent)
  deriving DecidableEq

/-- A `HashMap<Ipv4Addr, PublicKey>`, listed in its iteration order. -/
abbrev RouteTable (K : Type) := AList fun _ : Ipv4Addr => K

structure VpnCore (K B : Type) where
  maxPacketSize : Nat
  ipv4Addr : Ipv4Addr
  peers : Finmap fun _ : K => PeerState B
  routeTable : RouteTable K

namespace VpnCore
variable {K B : Type} [DecidableEq K]

def new (ipv4Addr : Ipv4Addr) (routeTable : RouteTable K) (maxPacketSize : Nat) :
    VpnCore K B where
  maxPacketSize := maxPacketSize
  ipv4Addr := ipv4Addr
  peers := routeTable.entries.foldl
    (fun peers e => peers.insert e.2 { isConnected := false, packetQueue := [] }) ∅
  routeTable := routeTable

def isNeighbour (self : VpnCore K B) (node : K) : Bool := (self.peers.lookup node).isSome

def isNeighbourIpv4 (self : VpnCore K B) (node : Ipv4Addr) : Bool :=
  (self.routeTable.lookup node).isSome

/-- `self.peers[node].is_connected`, which panics on a missing key. -/
def isConnectOpen (self : VpnCore K B) (node : K) : Option Bool :=
  (self.peers.lookup node).map PeerState.isConnected

def verifyConnection (self : VpnCore K B) (pubKey : K) : Bool := self.isNeighbour pubKey

def onPeerConnected (self : VpnCore K B) (node : K) :
    Option (VpnCore K B × List (Action K B)) :=
  if !self.isNeighbour node then some (self,[.disconnectFromPeer node])
  else do
    if ← self.isConnectOpen node then return (self,[.noAction .alreadyConnected])
    match self.peers.lookup node with
    | some peer =>
      return ({ self with peers := self.peers.insert node ⟨true,[]⟩ },
        peer.packetQueue.map fun packet => .sendPacketTo packet node)
    | none => return (self,[.noAction .internalStateError])

def onPeerDisconnected (self : VpnCore K B) (node : K) :
    Option (VpnCore K B × List (Action K B)) :=
  if !self.isNeighbour node then some (self,[.noAction .unknownPeer])
  else do
    if !(← self.isConnectOpen node) then return (self,[.noAction .alreadyDisconnected])
    match self.peers.lookup node with
    | some peer =>
      return ({ self with peers := self.peers.insert node { peer with isConnected := false } },[])
    | none => return (self,[.noAction .internalStateError])

variable [Buf B]

def verifySendPacket (self : VpnCore K B) (packet : B) :
    Option (Except SendPacketError Ipv4Addr) := do
  match ← Ipv4Packet.new packet with
  | .error e => return .error (.parseError e)
  | .ok ipv4Packet =>
    if ipv4Packet.packetLength > self.maxPacketSize then return .error .mtuError
    if ipv4Packet.packetLength < ipv4Packet.totalLength then return .error .brokenLength
    if ipv4Packet.ttl = 0 then return .error .incorrectTTL
    if ipv4Packet.srcIp ≠ self.ipv4Addr then return .error .incorrectSrcIp
    if !self.isNeighbourIpv4 ipv4Packet.destIp then return .error .unknownDestIp
    return .ok ipv4Packet.destIp

def verifyRecvPacket (self : VpnCore K B) (packet : B) (source : K) :
    Option (Except RecvPacketError Unit) := do
  match ← Ipv4Packet.new packet with
  | .error e => return .error (.parseError e)
  | .ok ipv4Packet =>
    if ipv4Packet.packetLength > self.maxPacketSize then return .error .mtuError
    if ipv4Packet.packetLength < ipv4Packet.totalLength then return .error .brokenLength
    if !self.isNeighbourIpv4 ipv4Packet.srcIp then return .error .unknownSrcIp
    if ipv4Packet.destIp ≠ self.ipv4Addr then return .error .incorrectDestIp
    if (← self.routeTable.lookup ipv4Packet.srcIp) ≠ source then return .error .spoofing
    return .ok ()

def sendPacket (self : VpnCore K B) (packet : B) :
    Option (VpnCore K B × List (Action K B)) := do
  match ← self.verifySendPacket packet with
  | .error e => return (self,[.noAction (.sendPacketError e)])
  | .ok destIp =>
    match self.routeTable.lookup destIp with
    | none => return (self,[.noAction (.sendPacketError .unknownDestIp)])
    | some pubKey =>
      if ← self.isConnectOpen pubKey then return (self,[.sendPacketTo packet pubKey])
      match self.peers.lookup pubKey with
      | none => return (self,[.noAction .internalStateError])
      | some peer =>
        let full := peer.packetQueue.length ≥ maxPacketsInQueue
        let queue := if full then peer.packetQueue.tail else peer.packetQueue
        let overflow := if full then [.noAction .packetQueueOverflow] else []
        return ({ self with
            peers := self.peers.insert pubKey { peer with packetQueue := queue ++ [packet] } },
          overflow ++ [.noAction .packetBuffered])

def recvPacket (self : VpnCore K B) (packet : B) (source : K) :
    Option (VpnCore K B × List (Action K B)) := do
  match ← self.verifyRecvPacket packet source with
  | .ok _ => return (self,[.writeToTun packet])
  | .error e => return (self,[.noAction (.recvPacketError e)])

def process (self : VpnCore K B) : Event K B → Option (VpnCore K B × List (Action K B))
  | .peerConnected pk => self.onPeerConnected pk
  | .peerDisconnected pk => self.onPeerDisconnected pk
  | .packetFromTun packet => self.sendPacket packet
  | .packetFromIroh packet source => self.recvPacket packet source

def run : VpnCore K B → List (Event K B) → Option (VpnCore K B × List (List (Action K B)))
  | self, [] => some (self,[])
  | self, ev :: evs => do
    let (next,actions) ← self.process ev
    let (last,rest) ← next.run evs
    return (last,actions :: rest)

end VpnCore
end MeshNetwork
