import Mathlib.Logic.Function.Basic

/-!
File operations that may fail, as functions of what is on the disk. A disk comes with the
faults that its operations will meet, in the order in which they are carried out.
-/

set_option autoImplicit false

namespace MeshNetwork

/-- The variants of `std::io::ErrorKind` that the program names; `other` stands for the rest. -/
inductive ErrorKind where
  | wouldBlock
  | interrupted
  | writeZero
  | invalidData
  | unexpectedEof
  | timedOut
  | networkDown
  | brokenPipe
  | staleNetworkFileHandle
  | notConnected
  | connectionReset
  | connectionAborted
  | permissionDenied
  | notFound
  | alreadyExists
  | invalidInput
  | resourceBusy
  | addrInUse
  | unsupported
  | other
  deriving DecidableEq

/-- An operation fails with `kind`. A write that fails may have created the file and got
as far as `written` bytes. -/
structure Fault where
  kind : ErrorKind
  written : Option Nat
  deriving DecidableEq

structure Disk where
  files : String → Option (List UInt8)
  faults : Nat → Option Fault
  /-- the number of operations so far -/
  ops : Nat

namespace Disk

def fault (d : Disk) : Option Fault := d.faults d.ops

def tick (d : Disk) : Disk := { d with ops := d.ops + 1 }

def setFile (d : Disk) (path : String) (data : List UInt8) : Disk :=
  { d with files := Function.update d.files path (some data) }

@[simp] theorem tick_files (d : Disk) : d.tick.files = d.files := rfl

theorem setFile_files (d : Disk) (path : String) (data : List UInt8) :
    (d.setFile path data).files = Function.update d.files path (some data) := rfl

/-- No operation fails from now on. -/
def healthy (d : Disk) : Disk := { d with faults := fun _ => none }

@[simp] theorem healthy_files (d : Disk) : d.healthy.files = d.files := rfl

end Disk

@[simp] theorem value_mapError {ε ε' α : Type} (f : ε → ε') (a : α) :
    (Except.ok a).mapError f = .ok a := rfl

@[simp] theorem failure_mapError {ε ε' α : Type} (f : ε → ε') (e : ε) :
    (Except.error e : Except ε α).mapError f = .error (f e) := rfl

def Fs (ε α : Type) : Type := Disk → Except ε α × Disk

namespace Fs
variable {ε ε' α β : Type}

instance : Monad (Fs ε) where
  pure a d := (.ok a,d)
  bind x f d :=
    match x d with
    | (.ok a,d') => f a d'
    | (.error e,d') => (.error e,d')

def fail (e : ε) : Fs ε α := fun d => (.error e,d)

def lift (x : Except ε α) : Fs ε α := fun d => (x,d)

def mapError (f : ε → ε') (x : Fs ε α) : Fs ε' α := fun d => ((x d).1.mapError f,(x d).2)

/-- Only a file that is not there is reported as not found. -/
def read (path : String) : Fs ErrorKind (List UInt8) := fun d =>
  let found : Except ErrorKind (List UInt8) :=
    match d.files path with
    | some data => .ok data
    | none => .error .notFound
  match d.fault with
  | some f => (if f.kind = .notFound then found else .error f.kind,d.tick)
  | none => (found,d.tick)

def put (path : String) (old data : List UInt8) : Fs ErrorKind Unit := fun d =>
  match d.fault with
  | none => (.ok (),d.tick.setFile path (old ++ data))
  | some f =>
    match f.written with
    | none => (.error f.kind,d.tick)
    | some n => (.error f.kind,d.tick.setFile path (old ++ data.take n))

def write (path : String) (data : List UInt8) : Fs ErrorKind Unit := put path [] data

def create (path : String) : Fs ErrorKind Unit := write path []

def append (path : String) (data : List UInt8) : Fs ErrorKind Unit := fun d =>
  put path ((d.files path).getD []) data d

theorem bind_ok {x : Fs ε α} {f : α → Fs ε β} {d d' : Disk} {b : β}
    (h : (x >>= f) d = (.ok b,d')) : ∃ a d₁, x d = (.ok a,d₁) ∧ f a d₁ = (.ok b,d') := by
  change (match x d with
    | (.ok a,d₁) => f a d₁
    | (.error e,d₁) => (.error e,d₁)) = _ at h
  cases hx : x d with
  | mk r d₁ =>
    cases r with
    | error e => simp [hx] at h
    | ok a =>
      simp only [hx] at h
      exact ⟨a,d₁,rfl,h⟩

theorem bind_of_ok {x : Fs ε α} {f : α → Fs ε β} {d d₁ : Disk} {a : α} (h : x d = (.ok a,d₁)) :
    (x >>= f) d = f a d₁ := by
  change (match x d with
    | (.ok a,d₁) => f a d₁
    | (.error e,d₁) => (.error e,d₁)) = _
  rw [h]

theorem bind_of_error {x : Fs ε α} {f : α → Fs ε β} {d d₁ : Disk} {e : ε}
    (h : x d = (.error e,d₁)) : (x >>= f) d = (.error e,d₁) := by
  change (match x d with
    | (.ok a,d₁) => f a d₁
    | (.error e,d₁) => (.error e,d₁)) = _
  rw [h]

theorem mapError_ok {f : ε → ε'} {x : Fs ε α} {d d' : Disk} {a : α}
    (h : x.mapError f d = (.ok a,d')) : x d = (.ok a,d') := by
  cases hx : x d with
  | mk r d₁ =>
    cases r with
    | error e => simp [mapError,hx] at h
    | ok b => simpa [mapError,hx] using h

theorem mapError_of_ok {f : ε → ε'} {x : Fs ε α} {d d' : Disk} {a : α} (h : x d = (.ok a,d')) :
    x.mapError f d = (.ok a,d') := by
  simp [mapError,h]

theorem mapError_of_error {f : ε → ε'} {x : Fs ε α} {d d' : Disk} {e : ε}
    (h : x d = (.error e,d')) : x.mapError f d = (.error (f e),d') := by
  simp [mapError,h]

theorem read_healthy {path : String} {d : Disk} (healthy : d.fault = none) {data : List UInt8}
    (h : d.files path = some data) : read path d = (.ok data,d.tick) := by
  simp [read,healthy,h]

theorem read_cases (path : String) (d : Disk) :
    (∃ data, d.files path = some data ∧ read path d = (.ok data,d.tick)) ∨
      (d.files path = none ∧ read path d = (.error .notFound,d.tick)) ∨
      ∃ kind, kind ≠ .notFound ∧ read path d = (.error kind,d.tick) := by
  have found : d.fault = none ∨ (∃ f, d.fault = some f ∧ f.kind = .notFound) →
      (∃ data, d.files path = some data ∧ read path d = (.ok data,d.tick)) ∨
        (d.files path = none ∧ read path d = (.error .notFound,d.tick)) := by
    rintro (hnone | ⟨f,hf,hkind⟩)
    · cases hfile : d.files path <;> simp [read,hfile,hnone]
    · cases hfile : d.files path <;> simp [read,hfile,hf,hkind]
  cases hf : d.fault with
  | none => exact (found (.inl hf)).imp_right .inl
  | some f =>
    by_cases hkind : f.kind = .notFound
    · exact (found (.inr ⟨f,hf,hkind⟩)).imp_right .inl
    · exact .inr (.inr ⟨f.kind,hkind,by simp [read,hf,hkind]⟩)

theorem read_disk (path : String) (d : Disk) : (read path d).2 = d.tick := by
  rcases read_cases path d with ⟨data,-,hr⟩ | ⟨-,hr⟩ | ⟨kind,-,hr⟩
  · rw [hr]
  · rw [hr]
  · rw [hr]

theorem read_ok {path : String} {d d' : Disk} {data : List UInt8}
    (h : read path d = (.ok data,d')) : d.files path = some data ∧ d' = d.tick := by
  rcases read_cases path d with ⟨found,hfile,hr⟩ | ⟨-,hr⟩ | ⟨kind,-,hr⟩
  · rw [hr,Prod.mk.injEq,Except.ok.injEq] at h
    exact ⟨hfile.trans (congrArg some h.1),h.2.symm⟩
  · simp [hr] at h
  · simp [hr] at h

theorem read_notFound {path : String} {d d' : Disk}
    (h : read path d = (.error .notFound,d')) : d.files path = none := by
  rcases read_cases path d with ⟨data,-,hr⟩ | ⟨absent,-⟩ | ⟨kind,hkind,hr⟩
  · simp [hr] at h
  · exact absent
  · rw [hr,Prod.mk.injEq,Except.error.injEq] at h
    exact absurd h.1 hkind

theorem put_cases {path : String} {old data : List UInt8} {d d' : Disk}
    {r : Except ErrorKind Unit} (h : put path old data d = (r,d')) :
    (r = .ok () ∧ d' = d.tick.setFile path (old ++ data)) ∨ ∃ kind, r = .error kind ∧
      (d' = d.tick ∨ ∃ n, d' = d.tick.setFile path (old ++ data.take n)) := by
  unfold put at h
  cases hf : d.fault with
  | none =>
    simp only [hf,Prod.mk.injEq] at h
    exact .inl ⟨h.1.symm,h.2.symm⟩
  | some f =>
    cases hw : f.written with
    | none =>
      simp only [hf,hw,Prod.mk.injEq] at h
      exact .inr ⟨f.kind,h.1.symm,.inl h.2.symm⟩
    | some n =>
      simp only [hf,hw,Prod.mk.injEq] at h
      exact .inr ⟨f.kind,h.1.symm,.inr ⟨n,h.2.symm⟩⟩

theorem put_ok {path : String} {old data : List UInt8} {d d' : Disk} {u : Unit}
    (h : put path old data d = (.ok u,d')) : d' = d.tick.setFile path (old ++ data) := by
  rcases put_cases h with ⟨-,hd⟩ | ⟨kind,hr,-⟩
  · exact hd
  · cases hr

section Finishes

def Finishes (x : Fs ε α) : Prop := ∀ d : Disk, (∀ n, d.faults n = none) →
  ∃ a d', x d = (.ok a,d') ∧ d'.faults = d.faults

theorem Finishes.pure (a : α) : Finishes (pure a : Fs ε α) := fun d _ => ⟨a,d,rfl,rfl⟩

theorem Finishes.bind {x : Fs ε α} {f : α → Fs ε β} (hx : Finishes x)
    (hf : ∀ a, Finishes (f a)) : Finishes (x >>= f) := by
  intro d healthy
  obtain ⟨a,d₁,ha,hd₁⟩ := hx d healthy
  obtain ⟨b,d₂,hb,hd₂⟩ := hf a d₁ (by rw [hd₁]; exact healthy)
  exact ⟨b,d₂,(bind_of_ok ha).trans hb,hd₂.trans hd₁⟩

theorem put_finishes (path : String) (old data : List UInt8) : Finishes (put path old data) := by
  intro d healthy
  refine ⟨(),d.tick.setFile path (old ++ data),?_,rfl⟩
  simp [put,Disk.fault,healthy]

theorem append_finishes (path : String) (data : List UInt8) : Finishes (append path data) :=
  fun d healthy => put_finishes path _ data d healthy

end Finishes
end Fs
end MeshNetwork
