import MeshNetwork.Iroh
import MeshNetwork.LabelledRuns

/-!
The manager of one node with the tasks it has spawned and the queue they report to.
A label names the task that takes a step and the outcome of what it was waiting for.
-/

set_option autoImplicit false

namespace MeshNetwork

/-- A `connect_to_peer` task; `ready` is a connection it has yet to report. -/
structure Dial (K : Type) where
  task : TaskId
  peer : K
  aborted : Bool
  ready : Option (Connection K)
  deriving DecidableEq

/-- An `on_peer_connected` task with the packets in its channel; it is `failing` from
a failed read or send until it has reported `Disconnected`. -/
structure Session (K B : Type) where
  task : TaskId
  connection : Connection K
  aborted : Bool
  failing : Bool
  txOpen : Bool
  packetChannel : List B
  deriving DecidableEq

/-- An event in the queue of the manager. The manager never sees who sent it. -/
structure Queued (K : Type) where
  event : ConnectionEvent K
  sender : Option TaskId
  deriving DecidableEq

structure Manager (K B : Type) where
  iroh : Iroh K
  channelCapacity : Nat
  /-- what is left of the handler in progress -/
  pc : List (Effect K B)
  rxFromTasks : List (Queued K)
  dials : List (Dial K)
  /-- connections accepted but not yet reported -/
  accepts : List (Connection K)
  sessions : List (Session K B)
  /-- connections closed or broken at this end -/
  closed : List (Connection K)
  nextTask : TaskId

inductive SendOutcome where
  | sent
  | tooLarge
  | failed
  deriving DecidableEq

inductive Act (K B : Type) where
  | recvTask
  | recvCore (action : CoreAction K B)
  | effect
  | attempt (dial : Dial K) (serial : Nat)
  | dialed (dial : Dial K) (serial : Nat)
  | reportDial (dial : Dial K)
  | cancelDial (dial : Dial K)
  | accepted (conn : Connection K)
  | reportAccept (conn : Connection K)
  | readDatagram (session : Session K B) (packet : B)
  | readFails (session : Session K B)
  | sendDatagram (session : Session K B) (outcome : SendOutcome)
  | reportSession (session : Session K B)
  | channelClosed (session : Session K B)
  | cancelSession (session : Session K B)
  deriving DecidableEq

inductive Obs (K B : Type) where
  | emitted (event : IrohEvent K B)
  | dialSpawned (pubKey : K)
  | attempted (pubKey : K) (serial : Nat)
  | dialed (conn : Connection K)
  | accepted (conn : Connection K)
  | installed (conn : Connection K)
  | received (conn : Connection K) (packet : B)
  | sent (conn : Connection K) (packet : B)
  | handed (conn : Connection K) (packet : B)
  | channelFull (packet : B) (pubKey : K)
  | notConnected (packet : B) (pubKey : K)
  deriving DecidableEq

def Dial.abort {K : Type} (task : TaskId) (d : Dial K) : Dial K :=
  if d.task = task then { d with aborted := true } else d

namespace Session
variable {K B : Type}

def abort (task : TaskId) (s : Session K B) : Session K B :=
  if s.task = task then { s with aborted := true } else s

/-- The sender of the packet channel is dropped. -/
def closeChannel (task : TaskId) (s : Session K B) : Session K B :=
  if s.task = task then { s with txOpen := false } else s

def push (task : TaskId) (packet : B) (s : Session K B) : Session K B :=
  if s.task = task then { s with packetChannel := s.packetChannel ++ [packet] } else s

def pop (task : TaskId) (s : Session K B) : Session K B :=
  if s.task = task then { s with packetChannel := s.packetChannel.tail } else s

def fail (task : TaskId) (s : Session K B) : Session K B :=
  if s.task = task then { s with failing := true } else s

end Session

namespace Manager
variable {K B : Type} [LinearOrder K]

/-- `state_table.insert`: the entry that was there is dropped. -/
def insertState (m : Manager K B) (pubKey : K) (state : ConnectionState K) : Manager K B :=
  { m with
    iroh := { m.iroh with stateTable := m.iroh.stateTable.insert pubKey state }
    sessions :=
      match m.iroh.stateTable.lookup pubKey with
      | some (.connected task _) => m.sessions.map (Session.closeChannel task)
      | _ => m.sessions }

def perform (m : Manager K B) : Effect K B → Manager K B
  | .abort task =>
    { m with
      dials := m.dials.map (Dial.abort task)
      sessions := m.sessions.map (Session.abort task) }
  | .close conn => { m with closed := conn :: m.closed }
  | .send _ => m
  | .trySend task packet _ =>
    match m.sessions.find? fun s => s.task = task with
    | some s =>
      if s.packetChannel.length < m.channelCapacity then
        { m with sessions := m.sessions.map (Session.push task packet) }
      else m
    | none => m
  | .dropPacket _ _ => m
  | .spawnSession conn =>
    let next := m.insertState conn.remoteId (.connected m.nextTask conn)
    { next with
      sessions := ⟨m.nextTask,conn,false,false,true,[]⟩ :: next.sessions
      nextTask := m.nextTask + 1 }
  | .spawnDial pubKey =>
    let next := m.insertState pubKey (.connecting m.nextTask)
    { next with
      dials := ⟨m.nextTask,pubKey,false,none⟩ :: next.dials
      nextTask := m.nextTask + 1 }
  | .insertWaiting pubKey => m.insertState pubKey .waitingIncomingConnection
  | .insertDisconnected pubKey => m.insertState pubKey .disconnected

def setPc (m : Manager K B) (pc : List (Effect K B)) : Manager K B := { m with pc := pc }

def performShows (m : Manager K B) : Effect K B → List (Obs K B)
  | .abort _ => []
  | .close _ => []
  | .send event => [.emitted event]
  | .trySend task packet pubKey =>
    match m.sessions.find? fun s => s.task = task with
    | some s =>
      if s.packetChannel.length < m.channelCapacity then [.handed s.connection packet]
      else [.channelFull packet pubKey]
    | none => [.notConnected packet pubKey]
  | .dropPacket packet pubKey => [.notConnected packet pubKey]
  | .spawnSession conn => [.installed conn]
  | .spawnDial pubKey => [.dialSpawned pubKey]
  | .insertWaiting _ => []
  | .insertDisconnected _ => []

def start (id : K) (peers : KeySet K) (channelCapacity : Nat) : Manager K B where
  iroh := Iroh.new id peers
  channelCapacity := channelCapacity
  pc := (Iroh.new id peers).init
  rxFromTasks := []
  dials := []
  accepts := []
  sessions := []
  closed := []
  nextTask := 0

def room (m : Manager K B) : Prop := m.rxFromTasks.length < m.channelCapacity

instance (m : Manager K B) : Decidable m.room := inferInstanceAs (Decidable (_ < _))

def enabled (m : Manager K B) : Act K B → Prop
  | .recvTask => m.pc = [] ∧ ∃ q ∈ m.rxFromTasks.head?, (m.iroh.handleConnEvent (B := B) q.event).isOk
  | .recvCore _ => m.pc = []
  | .effect => m.pc ≠ []
  | .attempt d _ => d ∈ m.dials ∧ d.ready = none
  | .dialed d _ => d ∈ m.dials ∧ d.ready = none
  | .reportDial d => d ∈ m.dials ∧ d.ready ≠ none ∧ m.room
  | .cancelDial d => d ∈ m.dials ∧ d.aborted = true
  | .accepted c => c.outgoing = false
  | .reportAccept c => c ∈ m.accepts ∧ m.room
  | .readDatagram s _ => s ∈ m.sessions ∧ s.failing = false
  | .readFails s => s ∈ m.sessions ∧ s.failing = false
  | .sendDatagram s _ => s ∈ m.sessions ∧ s.failing = false ∧ s.packetChannel ≠ []
  | .reportSession s => s ∈ m.sessions ∧ s.failing = true ∧ m.room
  | .channelClosed s => s ∈ m.sessions ∧ s.failing = false ∧ s.txOpen = false ∧
      s.packetChannel = []
  | .cancelSession s => s ∈ m.sessions ∧ s.aborted = true

def next (m : Manager K B) : Act K B → Manager K B
  | .recvTask =>
    match m.rxFromTasks with
    | q :: rest =>
      match m.iroh.handleConnEvent q.event with
      | .ok effects => { m with rxFromTasks := rest, pc := effects }
      | .error _ => m
    | [] => m
  | .recvCore action => { m with pc := m.iroh.handleCoreEvent action }
  | .effect =>
    match m.pc with
    | e :: rest => (m.perform e).setPc rest
    | [] => m
  | .attempt _ _ => m
  | .dialed d serial =>
    { m with dials := { d with ready := some ⟨serial,d.peer,true⟩ } :: m.dials.erase d }
  | .reportDial d =>
    { m with
      dials := m.dials.erase d
      rxFromTasks := m.rxFromTasks ++
        (d.ready.map fun c => ⟨.outgoingConnection c,some d.task⟩).toList }
  | .cancelDial d => { m with dials := m.dials.erase d }
  | .accepted c => { m with accepts := c :: m.accepts }
  | .reportAccept c =>
    { m with
      accepts := m.accepts.erase c
      rxFromTasks := m.rxFromTasks ++ [⟨.incomingConnection c,none⟩] }
  | .readDatagram _ _ => m
  | .readFails s =>
    { m with
      sessions := m.sessions.map (Session.fail s.task)
      closed := s.connection :: m.closed }
  | .sendDatagram s outcome =>
    let popped := m.sessions.map (Session.pop s.task)
    { m with
      sessions := match outcome with
        | .failed => popped.map (Session.fail s.task)
        | _ => popped }
  | .reportSession s =>
    { m with
      sessions := m.sessions.filter fun x => x.task ≠ s.task
      rxFromTasks := m.rxFromTasks ++ [⟨.disconnected s.connection.remoteId,some s.task⟩] }
  | .channelClosed s => { m with sessions := m.sessions.filter fun x => x.task ≠ s.task }
  | .cancelSession s => { m with sessions := m.sessions.filter fun x => x.task ≠ s.task }

def shows (m : Manager K B) : Act K B → List (Obs K B)
  | .effect =>
    match m.pc with
    | e :: _ => m.performShows e
    | [] => []
  | .attempt d serial => [.attempted d.peer serial]
  | .dialed d serial => [.dialed ⟨serial,d.peer,true⟩]
  | .accepted c => [.accepted c]
  | .readDatagram s packet => [.received s.connection packet]
  | .sendDatagram s .sent => s.packetChannel.head?.toList.map fun p => .sent s.connection p
  | _ => []

def system : Runs.System (Manager K B) (Act K B) (Obs K B) := ⟨enabled,next,shows⟩

instance [DecidableEq B] (m : Manager K B) (a : Act K B) : Decidable (m.enabled a) := by
  cases a <;> simp only [enabled] <;> infer_instance

instance [DecidableEq B] (m : Manager K B) (a : Act K B) :
    Decidable (Manager.system.enabled m a) :=
  inferInstanceAs (Decidable (m.enabled a))

end Manager
end MeshNetwork
