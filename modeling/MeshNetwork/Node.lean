import MeshNetwork.CoreInvariant
import MeshNetwork.ManagerSteps

/-!
The node that `main` assembles: the TUN worker, the coordinator of `coord.rs` with the
core in it, and the manager, with bounded channels between them. All of them are taken to
be running: `main` ends the process as soon as one of them has ended.
-/

set_option autoImplicit false

namespace MeshNetwork

/-- A buffer with the number of the TUN read that it came from. The program only sees
the bytes; the number identifies the read in statements. -/
structure Packet where
  ticket : Nat
  data : List UInt8
  deriving DecidableEq

instance : Buf Packet := ⟨Packet.data⟩

/-- What `main` passes on: the set of peers is the set of values of the route table. -/
structure Config (K : Type) where
  id : K
  ipv4Addr : Ipv4Addr
  routeTable : RouteTable K
  maxPacketSize : Nat
  peers : KeySet K
  peers_iff : ∀ k, k ∈ peers ↔ ∃ ip, routeTable.lookup ip = some k
  managerCapacity : Nat
  irohCapacity : Nat
  coordCapacity : Nat
  fromTunCapacity : Nat
  toTunCapacity : Nat

/-- The assembly in `main`, with its safety MTU and its channel capacities. -/
def Config.main {K : Type} [DecidableEq K] (id : K) (ipv4Addr : Ipv4Addr)
    (routeTable : RouteTable K) : Config K where
  id := id
  ipv4Addr := ipv4Addr
  routeTable := routeTable
  maxPacketSize := 1100
  peers := ⟨(routeTable.entries.map Sigma.snd).dedup,List.nodup_dedup _⟩
  peers_iff k := by
    rw [← VpnCore.exists_entry_iff]
    change k ∈ (routeTable.entries.map Sigma.snd).dedup ↔ _
    rw [List.mem_dedup,List.mem_map]
  managerCapacity := 8192
  irohCapacity := 8192
  coordCapacity := 8192
  fromTunCapacity := 8192
  toTunCapacity := 8192

structure Node (K : Type) where
  cfg : Config K
  core : VpnCore K Packet
  /-- the actions `handle_actions` has yet to carry out -/
  hand : List (Action K Packet)
  manager : Manager K Packet
  toIroh : List (CoreAction K Packet)
  toCoord : List (IrohEvent K Packet)
  fromTun : List Packet
  toTun : List Packet
  reads : Nat

inductive NodeAct (K : Type) where
  | tunRead (data : List UInt8)
  | tunWrite
  | coordIroh
  | coordTun
  | coordAction
  | managerCore
  | manager (act : Act K Packet)
  deriving DecidableEq

inductive NodeObs (K : Type) where
  | processed (event : IrohEvent K Packet)
  | accepted (packet : Packet) (pubKey : K)
  | evicted (packet : Packet) (pubKey : K)
  | issued (packet : Packet) (pubKey : K)
  | irohFull (packet : Packet) (pubKey : K)
  | wroteTun (packet : Packet)
  | manager (obs : Obs K Packet)
  deriving DecidableEq

def mapIrohEventToCoreEvent {K B : Type} : IrohEvent K B → Event K B
  | .connectedToPeer pubKey => .peerConnected pubKey
  | .disconnectedFromPeer pubKey => .peerDisconnected pubKey
  | .recvPacketFrom packet pubKey => .packetFromIroh packet pubKey

namespace Node
variable {K : Type} [LinearOrder K]

def start (cfg : Config K) : Node K where
  cfg := cfg
  core := .new cfg.ipv4Addr cfg.routeTable cfg.maxPacketSize
  hand := []
  manager := .start cfg.id cfg.peers cfg.managerCapacity
  toIroh := []
  toCoord := []
  fromTun := []
  toTun := []
  reads := 0

/-- What a step of the manager or of a session sends to the coordinator. A handler waits
for room, a session drops the packet when there is none. -/
def posts (n : Node K) : Act K Packet → List (IrohEvent K Packet)
  | .effect =>
    match n.manager.pc with
    | .send event :: _ => [event]
    | _ => []
  | .readDatagram s packet =>
    if n.toCoord.length < n.cfg.coordCapacity then [.recvPacketFrom packet s.connection.remoteId]
    else []
  | _ => []

def takesManagerStep (n : Node K) : Act K Packet → Prop
  | .recvCore _ => False
  | .effect => n.posts .effect = [] ∨ n.toCoord.length < n.cfg.coordCapacity
  | _ => True

def coreAnswers (n : Node K) (event : Event K Packet) : Prop := (n.core.process event).isSome

/-- `DisconnectFromPeer` waits for room in the channel, the other actions never wait. -/
def takesAction (n : Node K) : Action K Packet → Prop
  | .disconnectFromPeer _ => n.toIroh.length < n.cfg.irohCapacity
  | _ => True

def enabled (n : Node K) : NodeAct K → Prop
  | .tunRead _ => True
  | .tunWrite => n.toTun ≠ []
  | .coordIroh => n.hand = [] ∧ ∃ e ∈ n.toCoord.head?, n.coreAnswers (mapIrohEventToCoreEvent e)
  | .coordTun => n.hand = [] ∧ ∃ p ∈ n.fromTun.head?, n.coreAnswers (.packetFromTun p)
  | .coordAction => ∃ a ∈ n.hand.head?, n.takesAction a
  | .managerCore => n.manager.pc = [] ∧ n.toIroh ≠ []
  | .manager act => n.manager.enabled act ∧ n.takesManagerStep act

def handle (n : Node K) (event : Event K Packet) : Node K :=
  match n.core.process event with
  | some (core,actions) => { n with core := core, hand := actions }
  | none => n

def handleAction (n : Node K) : Action K Packet → Node K
  | .connectToPeer _ => n
  | .disconnectFromPeer pubKey => { n with toIroh := n.toIroh ++ [.disconnectFromPeer pubKey] }
  | .sendPacketTo packet pubKey =>
    if n.toIroh.length < n.cfg.irohCapacity then
      { n with toIroh := n.toIroh ++ [.sendPacketTo packet pubKey] }
    else n
  | .writeToTun packet =>
    if n.toTun.length < n.cfg.toTunCapacity then { n with toTun := n.toTun ++ [packet] }
    else n
  | .noAction _ => n

def next (n : Node K) : NodeAct K → Node K
  | .tunRead data =>
    { n with
      reads := n.reads + 1
      fromTun := if n.fromTun.length < n.cfg.fromTunCapacity then n.fromTun ++ [⟨n.reads,data⟩]
        else n.fromTun }
  | .tunWrite => { n with toTun := n.toTun.tail }
  | .coordIroh =>
    match n.toCoord with
    | event :: rest =>
      ({ n with toCoord := rest } : Node K).handle (mapIrohEventToCoreEvent event)
    | [] => n
  | .coordTun =>
    match n.fromTun with
    | packet :: rest => ({ n with fromTun := rest } : Node K).handle (.packetFromTun packet)
    | [] => n
  | .coordAction =>
    match n.hand with
    | action :: rest => ({ n with hand := rest } : Node K).handleAction action
    | [] => n
  | .managerCore =>
    match n.toIroh with
    | action :: rest => { n with toIroh := rest, manager := n.manager.next (.recvCore action) }
    | [] => n
  | .manager act => { n with manager := n.manager.next act, toCoord := n.toCoord ++ n.posts act }

def issues (n : Node K) (event : Event K Packet) : List (NodeObs K) :=
  match n.core.process event with
  | some (_,actions) => actions.filterMap fun
    | .sendPacketTo packet pubKey => some (.issued packet pubKey)
    | _ => none
  | none => []

def evicts (n : Node K) (pubKey : K) : List (NodeObs K) :=
  match n.core.peers.lookup pubKey with
  | some peer =>
    if peer.isConnected = false ∧ maxPacketsInQueue ≤ peer.packetQueue.length then
      peer.packetQueue.head?.toList.map fun old => .evicted old pubKey
    else []
  | none => []

def takes (n : Node K) (packet : Packet) : List (NodeObs K) :=
  match n.core.acceptedFor packet with
  | some pubKey => .accepted packet pubKey :: n.evicts pubKey
  | none => []

def actionShows (n : Node K) : Action K Packet → List (NodeObs K)
  | .sendPacketTo packet pubKey =>
    if n.toIroh.length < n.cfg.irohCapacity then [] else [.irohFull packet pubKey]
  | .writeToTun packet =>
    if n.toTun.length < n.cfg.toTunCapacity then [.wroteTun packet] else []
  | _ => []

def shows (n : Node K) : NodeAct K → List (NodeObs K)
  | .coordIroh =>
    match n.toCoord with
    | event :: _ => .processed event :: n.issues (mapIrohEventToCoreEvent event)
    | [] => []
  | .coordTun =>
    match n.fromTun with
    | packet :: _ => n.takes packet ++ n.issues (.packetFromTun packet)
    | [] => []
  | .coordAction =>
    match n.hand with
    | action :: _ => n.actionShows action
    | [] => []
  | .manager act => (n.manager.shows act).map .manager
  | _ => []

def system : Runs.System (Node K) (NodeAct K) (NodeObs K) := ⟨enabled,next,shows⟩

instance (n : Node K) (act : Act K Packet) : Decidable (n.takesManagerStep act) := by
  cases act <;> simp only [takesManagerStep] <;> infer_instance

instance (n : Node K) (a : Action K Packet) : Decidable (n.takesAction a) := by
  cases a <;> simp only [takesAction] <;> infer_instance

instance (n : Node K) (event : Event K Packet) : Decidable (n.coreAnswers event) :=
  inferInstanceAs (Decidable (_ = true))

instance (n : Node K) (a : NodeAct K) : Decidable (n.enabled a) := by
  cases a <;> simp only [enabled] <;> infer_instance

instance (n : Node K) (a : NodeAct K) : Decidable (Node.system.enabled n a) :=
  inferInstanceAs (Decidable (n.enabled a))

end Node
end MeshNetwork
