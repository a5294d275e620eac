import MeshNetwork.Node
import MeshNetwork.Tun

/-!
The process that `main` runs: the coordinator, the manager and the supervisor of the TUN are
three tasks with channels between them. `main` waits for the first of them to end, for
whatever reason, and then the process is over. The channels between the coordinator and the
manager are not closed before one of the two has ended.
-/

set_option autoImplicit false

namespace MeshNetwork

inductive MainTask where
  | coord
  | iroh
  | tun
  deriving DecidableEq

structure Process (K : Type) where
  cfg : Config K
  core : VpnCore K Packet
  hand : List (Action K Packet)
  manager : Manager K Packet
  toIroh : List (CoreAction K Packet)
  toCoord : List (IrohEvent K Packet)
  /-- the supervisor with both channels between it and the coordinator -/
  tun : Tun Packet
  reads : Nat
  /-- the arm of the `select!` in `main` that was taken -/
  ended : Option MainTask

inductive ProcessAct (K : Type) where
  | tun (act : TunAct Packet)
  | node (act : NodeAct K)
  | coordPanics
  | coordTunClosed
  | managerFails

inductive ProcessObs (K : Type) where
  | node (obs : NodeObs K)
  | tun (obs : TunObs Packet)
  | read (device : Nat) (result : Except ErrorKind Packet)
  deriving DecidableEq

/-- The supervisor or one of its workers takes the step, not the coordinator. -/
def TunAct.own {P : Type} : TunAct P → Bool
  | .coordSends _ | .coordReceives | .coordEnds => false
  | _ => true

def NodeAct.own {K : Type} : NodeAct K → Bool
  | .tunRead _ | .tunWrite => false
  | _ => true

namespace Process
variable {K : Type} [LinearOrder K]

def main (id : K) (ipv4Addr : Ipv4Addr) (routeTable : RouteTable K) : Process K :=
  let cfg : Config K := .main id ipv4Addr routeTable
  { cfg := cfg
    core := .new ipv4Addr routeTable cfg.maxPacketSize
    hand := []
    manager := .start id cfg.peers cfg.managerCapacity
    toIroh := []
    toCoord := []
    tun := .new cfg.toTunCapacity
    reads := 0
    ended := none }

def node (p : Process K) : Node K where
  cfg := p.cfg
  core := p.core
  hand := p.hand
  manager := p.manager
  toIroh := p.toIroh
  toCoord := p.toCoord
  fromTun := p.tun.toCoord
  toTun := p.tun.fromCoord
  reads := p.reads

def withNode (p : Process K) (n : Node K) : Process K :=
  { p with
    core := n.core
    hand := n.hand
    manager := n.manager
    toIroh := n.toIroh
    toCoord := n.toCoord
    tun := { p.tun with toCoord := n.fromTun, fromCoord := n.toTun }
    reads := n.reads }

/-- A packet that a worker has read is given the number of the read. -/
def numbers (p : Process K) : TunAct Packet → Prop
  | .read _ (.ok packet) => packet.ticket = p.reads
  | _ => True

def readsOf : TunAct Packet → Nat
  | .read _ (.ok packet) => if len packet = 0 then 0 else 1
  | _ => 0

def writing (p : Process K) : Option Packet :=
  match p.hand with
  | .writeToTun packet :: _ => some packet
  | _ => none

def panics (p : Process K) : Prop :=
  p.hand = [] ∧
    ((∃ e ∈ p.toCoord.head?, ¬ p.node.coreAnswers (mapIrohEventToCoreEvent e)) ∨
      ∃ packet ∈ p.tun.toCoord.head?, ¬ p.node.coreAnswers (.packetFromTun packet))

/-- The coordinator finds that the receiver of its packets is gone, or that nobody is left to
send it any. -/
def tunClosed (p : Process K) : Prop :=
  (p.writing ≠ none ∧ p.tun.rxFromCoord = .dropped) ∨
    (p.hand = [] ∧ p.tun.toCoord = [] ∧ p.tun.phase = .returned ∧ p.tun.readers = [] ∧
      p.tun.readHalves = [])

def enabled (p : Process K) : ProcessAct K → Prop
  | .tun act => p.ended = none ∧ act.own = true ∧ p.tun.enabled act ∧ p.numbers act
  | .node act => p.ended = none ∧ act.own = true ∧ p.node.enabled act ∧
      (act = .coordAction → p.writing ≠ none → p.tun.rxFromCoord ≠ .dropped)
  | .coordPanics => p.ended = none ∧ p.panics
  | .coordTunClosed => p.ended = none ∧ p.tunClosed
  | .managerFails => p.ended = none ∧ p.manager.pc = [] ∧
      ∃ q ∈ p.manager.rxFromTasks.head?,
        (p.manager.iroh.handleConnEvent (B := Packet) q.event).isOk = false

def next (p : Process K) : ProcessAct K → Process K
  | .tun act =>
    let tun := p.tun.next act
    { p with
      tun := tun
      reads := p.reads + readsOf act
      ended := if tun.phase = .returned then some .tun else none }
  | .node act => p.withNode (p.node.next act)
  | .coordPanics | .coordTunClosed => { p with ended := some .coord }
  | .managerFails => { p with ended := some .iroh }

def readShows : TunAct Packet → List (ProcessObs K)
  | .read r result => [.read r.device result]
  | _ => []

def sends : NodeObs K → Option (ProcessObs K)
  | .wroteTun packet => some (.tun (.sent packet))
  | _ => none

def shows (p : Process K) : ProcessAct K → List (ProcessObs K)
  | .tun act => readShows act ++ (p.tun.shows act).map .tun
  | .node act => (p.node.shows act).map .node ++ (p.node.shows act).filterMap sends
  | .coordPanics | .coordTunClosed | .managerFails => []

def system : Runs.System (Process K) (ProcessAct K) (ProcessObs K) := ⟨enabled,next,shows⟩

instance (p : Process K) (act : TunAct Packet) : Decidable (p.numbers act) := by
  unfold numbers
  split <;> infer_instance

instance (p : Process K) : Decidable p.panics := inferInstanceAs (Decidable (_ ∧ (_ ∨ _)))

instance (p : Process K) : Decidable p.tunClosed :=
  inferInstanceAs (Decidable ((¬ _ = none ∧ _ = RxOwner.dropped) ∨ _))

instance (p : Process K) (a : ProcessAct K) : Decidable (p.enabled a) :=
  match a with
  | .tun _ => inferInstanceAs (Decidable (_ ∧ _ = true ∧ _ ∧ _))
  | .node act => inferInstanceAs (Decidable (_ ∧ _ = true ∧ p.node.enabled act ∧
      (act = .coordAction → ¬ p.writing = none → ¬ p.tun.rxFromCoord = .dropped)))
  | .coordPanics => inferInstanceAs (Decidable (_ ∧ p.panics))
  | .coordTunClosed => inferInstanceAs (Decidable (_ ∧ p.tunClosed))
  | .managerFails => inferInstanceAs (Decidable (_ ∧ _ ∧ ∃ q ∈ p.manager.rxFromTasks.head?,
      (p.manager.iroh.handleConnEvent (B := Packet) q.event).isOk = false))

instance (p : Process K) (a : ProcessAct K) : Decidable (Process.system.enabled p a) :=
  inferInstanceAs (Decidable (p.enabled a))

end Process
end MeshNetwork
