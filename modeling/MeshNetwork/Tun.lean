import MeshNetwork.Io
import MeshNetwork.Ipv4
import MeshNetwork.LabelledRuns

/-!
The supervisor of `tun.rs` with the workers it spawns for each device. The receiving end of
the channel from the coordinator has one owner at a time and travels with the messages.
-/

set_option autoImplicit false

namespace MeshNetwork

inductive TunEvent where
  | info (text : String)
  | fatalError
  | dropPacket
  | reconnectRequired
  deriving DecidableEq

def classifyTunError : ErrorKind → TunEvent
  | .wouldBlock | .interrupted | .writeZero | .invalidData | .unexpectedEof | .timedOut =>
    .dropPacket
  | .networkDown | .brokenPipe | .staleNetworkFileHandle | .notConnected | .connectionReset
  | .connectionAborted => .reconnectRequired
  | .permissionDenied | .notFound | .alreadyExists | .invalidInput | .resourceBusy | .addrInUse
  | .unsupported => .fatalError
  | .other => .fatalError

/-- The receiving end of a oneshot channel; it is `closed` when the sender was dropped. -/
inductive EndData where
  | pending
  | sent (event : TunEvent)
  | closed
  deriving DecidableEq

inductive RxOwner where
  | supervisor
  | writer (device : Nat)
  | endMessage
  | dropped
  deriving DecidableEq

/-- A `worker_tun_reader` in its loop; `stop` is a stop signal sent or its sender dropped. -/
structure Reader where
  device : Nat
  stop : Bool
  deriving DecidableEq

inductive WriterPhase (P : Type) where
  | receiving
  | holding (packet : P)
  | writing (packet : P)
  deriving DecidableEq

structure Writer (P : Type) where
  device : Nat
  stop : Bool
  phase : WriterPhase P
  deriving DecidableEq

inductive TunPhase where
  | creating
  | selecting
  | stoppingWriter (event : TunEvent)
  | stoppingReader (event : TunEvent)
  | returned
  deriving DecidableEq

structure Tun (P : Type) where
  phase : TunPhase
  /-- the devices created so far, which number the iterations -/
  created : Nat
  rxFromCoord : RxOwner
  endDataReader : EndData
  endDataWriter : EndData
  readers : List Reader
  writers : List (Writer P)
  /-- devices whose half is held by a worker that has sent its end and has yet to return -/
  readHalves : List Nat
  writeHalves : List Nat
  fromCoord : List P
  toCoord : List P
  capacity : Nat
  /-- the coordinator runs, with its ends of both channels -/
  coordOpen : Bool

inductive TunAct (P : Type) where
  | create
  | createFails
  | noticeReader
  | noticeWriter
  | writerBack (event : TunEvent)
  | readerBack (event : TunEvent)
  | stopReader (reader : Reader)
  | read (reader : Reader) (result : Except ErrorKind P)
  | readerReturns (device : Nat)
  | stopWriter (writer : Writer P)
  | recv (writer : Writer P)
  | write (writer : Writer P) (packet : P)
  | written (writer : Writer P) (packet : P) (result : Except ErrorKind Nat)
  | writerReturns (device : Nat)
  | coordSends (packet : P)
  | coordReceives
  | coordEnds

inductive Side where
  | reader
  | writer
  deriving DecidableEq

/-- One iteration of `run` that has come to its end: whose end the supervisor noticed
first, what both workers ended with, and whether the loop goes on. -/
structure Iteration where
  device : Nat
  first : Side
  reader : TunEvent
  writer : TunEvent
  restarts : Bool
  deriving DecidableEq

inductive TunObs (P : Type) where
  | created (device : Nat)
  | readerEnds (device : Nat) (event : TunEvent)
  | writerEnds (device : Nat) (event : TunEvent)
  | iteration (it : Iteration)
  | sent (packet : P)
  | taken (device : Nat) (packet : P)
  | passed (device : Nat) (packet : P)
  | written (device : Nat) (packet : P) (result : Except ErrorKind Nat)
  deriving DecidableEq

/-- What a worker does next after an error of its device: it ends with an event or, for
`none`, goes on with its loop. -/
def TunEvent.ends : TunEvent → Option TunEvent
  | .reconnectRequired => some .reconnectRequired
  | .dropPacket => none
  | .fatalError => some .fatalError
  | .info _ => none

namespace Tun
variable {P : Type}

def new (capacity : Nat) : Tun P where
  phase := .creating
  created := 0
  rxFromCoord := .supervisor
  endDataReader := .pending
  endDataWriter := .pending
  readers := []
  writers := []
  readHalves := []
  writeHalves := []
  fromCoord := []
  toCoord := []
  capacity := capacity
  coordOpen := true

def awaits (t : Tun P) (device : Nat) : Bool :=
  match t.phase with
  | .creating | .returned => false
  | .selecting | .stoppingWriter _ | .stoppingReader _ => device = t.created

/-- The receiver is dropped with what is still waiting in the channel. -/
def dropRx (t : Tun P) : Tun P := { t with rxFromCoord := .dropped, fromCoord := [] }

/-- The variables of the iteration go out of scope: the senders of the stop signals are
dropped, which a worker takes for the signal. -/
def leave (t : Tun P) (phase : TunPhase) : Tun P :=
  { t with
    phase := phase
    readers := t.readers.map fun r => { r with stop := true }
    writers := t.writers.map fun w => { w with stop := true } }

def returns (t : Tun P) : Tun P :=
  match t.rxFromCoord with
  | .supervisor | .endMessage => (t.leave .returned).dropRx
  | .writer _ | .dropped => t.leave .returned

/-- The match on the event noticed first, once the other end has come: whether the loop
goes on. -/
def restarts : TunEvent → Bool
  | .reconnectRequired => true
  | .fatalError => false
  | .info _ | .dropPacket => true

def finish (t : Tun P) (event : TunEvent) : Tun P :=
  if restarts event then t.leave .creating else t.returns

def readerEnds (t : Tun P) (r : Reader) (event : TunEvent) : Tun P :=
  { t with
    readers := t.readers.erase r
    readHalves := r.device :: t.readHalves
    endDataReader := if t.awaits r.device then .sent event else t.endDataReader }

variable [DecidableEq P]

/-- The end message carries the receiver; it is lost when nobody awaits the message. -/
def writerEnds (t : Tun P) (w : Writer P) (event : TunEvent) : Tun P :=
  let ended := { t with
    writers := t.writers.erase w
    writeHalves := w.device :: t.writeHalves }
  if t.awaits w.device then { ended with endDataWriter := .sent event, rxFromCoord := .endMessage }
  else ended.dropRx

def setWriter (t : Tun P) (w : Writer P) (phase : WriterPhase P) : Tun P :=
  { t with writers := { w with phase := phase } :: t.writers.erase w }

variable [Buf P]

def readEnds (t : Tun P) : Except ErrorKind P → Option TunEvent
  | .ok packet =>
    if len packet = 0 then some .reconnectRequired
    else if t.coordOpen then none else some .fatalError
  | .error kind => (classifyTunError kind).ends

/-- The buffer of the reader has `1 << 16` bytes. -/
def enabled (t : Tun P) : TunAct P → Prop
  | .create | .createFails => t.phase = .creating
  | .noticeReader => t.phase = .selecting ∧ t.endDataReader ≠ .pending
  | .noticeWriter => t.phase = .selecting ∧ t.endDataWriter ≠ .pending
  | .writerBack event => t.phase = .stoppingWriter event ∧ t.endDataWriter ≠ .pending
  | .readerBack event => t.phase = .stoppingReader event ∧ t.endDataReader ≠ .pending
  | .stopReader r => r ∈ t.readers ∧ r.stop = true
  | .read r result => r ∈ t.readers ∧ ∀ packet ∈ result.toOption, len packet ≤ 1 <<< 16
  | .readerReturns device => device ∈ t.readHalves
  | .stopWriter w => w ∈ t.writers ∧ w.phase = .receiving ∧ w.stop = true
  | .recv w => w ∈ t.writers ∧ w.phase = .receiving ∧ (t.fromCoord ≠ [] ∨ t.coordOpen = false)
  | .write w packet => w ∈ t.writers ∧ w.phase = .holding packet
  | .written w packet _ => w ∈ t.writers ∧ w.phase = .writing packet
  | .writerReturns device => device ∈ t.writeHalves
  | .coordSends _ => t.coordOpen = true ∧ t.rxFromCoord ≠ .dropped ∧
      t.fromCoord.length < t.capacity
  | .coordReceives => t.coordOpen = true ∧ t.toCoord ≠ []
  | .coordEnds => t.coordOpen = true

def next (t : Tun P) : TunAct P → Tun P
  | .create =>
    let device := t.created + 1
    { t with
      phase := .selecting
      created := device
      rxFromCoord := .writer device
      endDataReader := .pending
      endDataWriter := .pending
      readers := ⟨device,false⟩ :: t.readers
      writers := ⟨device,false,.receiving⟩ :: t.writers }
  | .createFails => t
  | .noticeReader =>
    match t.endDataReader with
    | .sent event =>
      { t with
        phase := .stoppingWriter event
        writers := t.writers.map fun w => if w.device = t.created then { w with stop := true } else w }
    | .closed | .pending => t.returns
  | .noticeWriter =>
    match t.endDataWriter with
    | .sent event =>
      { t with
        phase := .stoppingReader event
        rxFromCoord := .supervisor
        readers := t.readers.map fun r => if r.device = t.created then { r with stop := true } else r }
    | .closed | .pending => t.returns
  | .writerBack event =>
    match t.endDataWriter with
    | .sent _ => finish { t with rxFromCoord := .supervisor } event
    | .closed | .pending => t.returns
  | .readerBack event =>
    match t.endDataReader with
    | .sent _ => t.finish event
    | .closed | .pending => t.returns
  | .stopReader r => t.readerEnds r (.info "nothing")
  | .read r result =>
    match t.readEnds result with
    | some event => t.readerEnds r event
    | none =>
      match result with
      | .ok packet =>
        if t.toCoord.length < t.capacity then { t with toCoord := t.toCoord ++ [packet] } else t
      | .error _ => t
  | .readerReturns device => { t with readHalves := t.readHalves.erase device }
  | .stopWriter w => t.writerEnds w (.info "nothing")
  | .recv w =>
    match t.fromCoord with
    | packet :: rest => { t with fromCoord := rest }.setWriter w (.holding packet)
    | [] => t.writerEnds w .fatalError
  | .write w packet => t.setWriter w (.writing packet)
  | .written w _ (.ok _) => t.setWriter w .receiving
  | .written w _ (.error kind) =>
    match (classifyTunError kind).ends with
    | some event => t.writerEnds w event
    | none => t.setWriter w .receiving
  | .writerReturns device => { t with writeHalves := t.writeHalves.erase device }
  | .coordSends packet => { t with fromCoord := t.fromCoord ++ [packet] }
  | .coordReceives => { t with toCoord := t.toCoord.tail }
  | .coordEnds => { t with coordOpen := false }

def shows (t : Tun P) : TunAct P → List (TunObs P)
  | .create => [.created (t.created + 1)]
  | .writerBack event =>
    match t.endDataWriter with
    | .sent w => [.iteration ⟨t.created,.reader,event,w,restarts event⟩]
    | .closed | .pending => []
  | .readerBack event =>
    match t.endDataReader with
    | .sent r => [.iteration ⟨t.created,.writer,r,event,restarts event⟩]
    | .closed | .pending => []
  | .stopReader r => [.readerEnds r.device (.info "nothing")]
  | .read r result => (t.readEnds result).toList.map fun event => .readerEnds r.device event
  | .stopWriter w => [.writerEnds w.device (.info "nothing")]
  | .recv w =>
    match t.fromCoord with
    | packet :: _ => [.taken w.device packet]
    | [] => [.writerEnds w.device .fatalError]
  | .write w packet => [.passed w.device packet]
  | .written w packet (.ok n) => [.written w.device packet (.ok n)]
  | .written w packet (.error kind) =>
    .written w.device packet (.error kind) ::
      (classifyTunError kind).ends.toList.map fun event => .writerEnds w.device event
  | .coordSends packet => [.sent packet]
  | .createFails | .noticeReader | .noticeWriter | .readerReturns _ | .writerReturns _
  | .coordReceives | .coordEnds => []

def system : Runs.System (Tun P) (TunAct P) (TunObs P) := ⟨enabled,next,shows⟩

instance (t : Tun P) (l : TunAct P) : Decidable (t.enabled l) :=
  match l with
  | .create | .createFails => inferInstanceAs (Decidable (t.phase = .creating))
  | .noticeReader | .noticeWriter => inferInstanceAs (Decidable (_ ∧ ¬ _ = EndData.pending))
  | .writerBack _ | .readerBack _ => inferInstanceAs (Decidable (_ ∧ ¬ _ = EndData.pending))
  | .stopReader _ => inferInstanceAs (Decidable (_ ∧ _ = true))
  | .read _ result =>
    inferInstanceAs (Decidable (_ ∧ ∀ packet ∈ result.toOption, len packet ≤ 1 <<< 16))
  | .readerReturns _ | .writerReturns _ => inferInstanceAs (Decidable (_ ∈ _))
  | .stopWriter _ => inferInstanceAs (Decidable (_ ∧ _ ∧ _ = true))
  | .recv _ => inferInstanceAs (Decidable (_ ∧ _ ∧ (¬ _ = [] ∨ _ = false)))
  | .write _ _ | .written _ _ _ => inferInstanceAs (Decidable (_ ∧ _ = _))
  | .coordSends _ => inferInstanceAs (Decidable (_ ∧ _ ∧ _ < _))
  | .coordReceives => inferInstanceAs (Decidable (_ ∧ ¬ _ = []))
  | .coordEnds => inferInstanceAs (Decidable (_ = true))

instance (t : Tun P) (l : TunAct P) : Decidable (system.enabled t l) :=
  inferInstanceAs (Decidable (t.enabled l))

end Tun
end MeshNetwork
