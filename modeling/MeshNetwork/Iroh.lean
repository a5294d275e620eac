import Mathlib.Data.Finmap
import Mathlib.Order.Defs.LinearOrder

/-!
The connection manager of `iroh.rs`. A handler is the list of the effects it has, in
the order of the source: between two of them other tasks may run, and `send` may wait.
-/

set_option autoImplicit false

namespace MeshNetwork

/-- One end of a connection. The program only reads `remote_id`; the serial number and
the side that opened the connection identify it in statements. -/
structure Connection (K : Type) where
  serial : Nat
  remoteId : K
  outgoing : Bool
  deriving DecidableEq

abbrev TaskId := Nat

/-- A session task owns the receiver of its packet channel, so the task of a
`connected` entry also names the channel of that entry. -/
inductive ConnectionState (K : Type) where
  | connected (task : TaskId) (connection : Connection K)
  | connecting (task : TaskId)
  | waitingIncomingConnection
  | disconnected
  deriving DecidableEq

inductive IrohEvent (K B : Type) where
  | connectedToPeer (pubKey : K)
  | disconnectedFromPeer (pubKey : K)
  | recvPacketFrom (packet : B) (pubKey : K)
  deriving DecidableEq

inductive CoreAction (K B : Type) where
  | sendPacketTo (packet : B) (pubKey : K)
  | connectToPeer (pubKey : K)
  | disconnectFromPeer (pubKey : K)
  deriving DecidableEq

inductive ConnectionEvent (K : Type) where
  | outgoingConnection (conn : Connection K)
  | incomingConnection (conn : Connection K)
  | disconnected (pubKey : K)
  | internalError
  deriving DecidableEq

inductive Effect (K B : Type) where
  /-- `task.abort()` -/
  | abort (task : TaskId)
  /-- `conn.close(..)` -/
  | close (conn : Connection K)
  /-- `tx_to_coord.send(..).await` -/
  | send (event : IrohEvent K B)
  /-- `tx_packet_channel.try_send(packet)` -/
  | trySend (task : TaskId) (packet : B) (pubKey : K)
  /-- the packet goes out of scope -/
  | dropPacket (packet : B) (pubKey : K)
  /-- a new packet channel, `tokio::spawn(on_peer_connected(..))` and the `Connected` entry -/
  | spawnSession (conn : Connection K)
  /-- `tokio::spawn(connect_to_peer(..))` and the `Connecting` entry -/
  | spawnDial (pubKey : K)
  /-- `state_table.insert(.., WaitingIncomingConnection)` -/
  | insertWaiting (pubKey : K)
  /-- `state_table.insert(.., Disconnected)` -/
  | insertDisconnected (pubKey : K)
  deriving DecidableEq

/-- A `HashSet<PublicKey>`, listed in its iteration order. -/
structure KeySet (K : Type) where
  elems : List K
  nodup : elems.Nodup

instance {K : Type} : Membership K (KeySet K) := ⟨fun s k => k ∈ s.elems⟩

instance {K : Type} [DecidableEq K] (s : KeySet K) (k : K) : Decidable (k ∈ s) :=
  inferInstanceAs (Decidable (k ∈ s.elems))

structure Iroh (K : Type) where
  id : K
  stateTable : Finmap fun _ : K => ConnectionState K
  peers : KeySet K

namespace Iroh
variable {K B : Type} [LinearOrder K]

def new (id : K) (peers : KeySet K) : Iroh K where
  id := id
  stateTable := peers.elems.foldl (fun t pubKey => t.insert pubKey .disconnected) ∅
  peers := peers

def initNewConnection (self : Iroh K) (pubKey : K) : List (Effect K B) :=
  if self.id < pubKey then [.insertWaiting pubKey]
  else [.spawnDial pubKey]

def initReadyConnection (conn : Connection K) : List (Effect K B) :=
  [.send (.connectedToPeer conn.remoteId),.spawnSession conn]

def init (self : Iroh K) : List (Effect K B) :=
  self.peers.elems.flatMap fun pubKey =>
    if pubKey > self.id then [.insertWaiting pubKey]
    else [.spawnDial pubKey]

/-- `Err(())` stops the manager. -/
def handleConnEvent (self : Iroh K) : ConnectionEvent K → Except Unit (List (Effect K B))
  | .outgoingConnection conn => .ok <|
    match self.stateTable.lookup conn.remoteId with
    | some (.connecting _) => initReadyConnection conn
    | some (.connected expiredTask expiredConn) =>
      [.abort expiredTask,.close expiredConn] ++ initReadyConnection conn
    | some .waitingIncomingConnection => [.close conn]
    | some .disconnected => [.close conn]
    | none => [.close conn]
  | .incomingConnection conn => .ok <|
    match self.stateTable.lookup conn.remoteId with
    | some .waitingIncomingConnection => initReadyConnection conn
    | some (.connected expiredTask expiredConn) =>
      [.abort expiredTask,.close expiredConn] ++ initReadyConnection conn
    | some (.connecting _) => [.close conn]
    | some .disconnected => [.close conn]
    | none => [.close conn]
  | .disconnected pubKey => .ok <|
    match self.stateTable.lookup pubKey with
    | some (.connected _ _) =>
      .send (.disconnectedFromPeer pubKey) :: self.initNewConnection pubKey
    | some (.connecting _) => []
    | some .waitingIncomingConnection => []
    | some .disconnected => []
    | none => []
  | .internalError => .error ()

def handleCoreEvent (self : Iroh K) : CoreAction K B → List (Effect K B)
  | .sendPacketTo packet pubKey =>
    match self.stateTable.lookup pubKey with
    | some (.connected task _) => [.trySend task packet pubKey]
    | _ => [.dropPacket packet pubKey]
  | .connectToPeer pubKey =>
    match self.stateTable.lookup pubKey with
    | some .disconnected => self.initNewConnection pubKey
    | some (.connected _ _) => []
    | some (.connecting _) => []
    | some .waitingIncomingConnection => []
    | none => []
  | .disconnectFromPeer pubKey =>
    (match self.stateTable.lookup pubKey with
      | some (.connected oldTask oldConn) =>
        [.abort oldTask,.close oldConn,.send (.disconnectedFromPeer pubKey)]
      | some (.connecting connTask) => [.abort connTask]
      | _ => []) ++ [.insertDisconnected pubKey]

end Iroh
end MeshNetwork
