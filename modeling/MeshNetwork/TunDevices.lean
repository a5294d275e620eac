import MeshNetwork.TunEnds

set_option autoImplicit false

namespace MeshNetwork
open Runs

def TunObs.ends {P : Type} : Side → Nat → TunEvent → TunObs P
  | .reader => .readerEnds
  | .writer => .writerEnds

def Iteration.ended (it : Iteration) : Side → TunEvent
  | .reader => it.reader
  | .writer => it.writer

namespace Tun
variable {P : Type}

/-- The devices whose half is held by a worker of the side that has sent its end. -/
def halves (t : Tun P) : Side → List Nat
  | .reader => t.readHalves
  | .writer => t.writeHalves

def endData (t : Tun P) : Side → EndData
  | .reader => t.endDataReader
  | .writer => t.endDataWriter

section Halves
variable {t : Tun P} (side : Side)

@[simp] theorem leave_halves (phase : TunPhase) : (t.leave phase).halves side = t.halves side := by
  cases side <;> rfl

@[simp] theorem dropRx_halves : t.dropRx.halves side = t.halves side := by
  cases side <;> rfl

@[simp] theorem returns_halves : t.returns.halves side = t.halves side := by
  unfold returns
  cases t.rxFromCoord <;> simp

@[simp] theorem finish_halves (event : TunEvent) :
    (t.finish event).halves side = t.halves side := by
  unfold finish
  split <;> simp

theorem readerEnds_halves (r : Reader) (event : TunEvent) :
    (t.readerEnds r event).halves side =
      if side = .reader then r.device :: t.halves side else t.halves side := by
  cases side <;> rfl

variable [DecidableEq P]

theorem writerEnds_halves (w : Writer P) (event : TunEvent) :
    (t.writerEnds w event).halves side =
      if side = .writer then w.device :: t.halves side else t.halves side := by
  unfold writerEnds
  cases t.awaits w.device <;> cases side <;> rfl

@[simp] theorem setWriter_halves (w : Writer P) (phase : WriterPhase P) :
    (t.setWriter w phase).halves side = t.halves side := by
  cases side <;> rfl

end Halves

inductive HalvesMove (t : Tun P) (side : Side) (halves : List Nat) (os : List (TunObs P)) :
    Prop where
  | same (eq : halves = t.halves side)
  | ends (d : Nat) (e : TunEvent) (eq : halves = d :: t.halves side)
      (shown : TunObs.ends side d e ∈ os)
  | returns (d : Nat) (eq : halves = (t.halves side).erase d)

section Step
variable {t : Tun P} {side : Side}

theorem HalvesMove.reader {t' : Tun P} {os : List (TunObs P)} (r : Reader) (e : TunEvent)
    (eq : t' = t.readerEnds r e) (shown : .readerEnds r.device e ∈ os) :
    t.HalvesMove side (t'.halves side) os := by
  subst eq
  rw [readerEnds_halves]
  cases side with
  | reader => exact .ends r.device e rfl shown
  | writer => exact .same rfl

variable [DecidableEq P]

theorem HalvesMove.writer {t' : Tun P} {os : List (TunObs P)} (w : Writer P) (e : TunEvent)
    (eq : t' = t.writerEnds w e) (shown : .writerEnds w.device e ∈ os) :
    t.HalvesMove side (t'.halves side) os := by
  subst eq
  rw [writerEnds_halves]
  cases side with
  | reader => exact .same rfl
  | writer => exact .ends w.device e rfl shown

theorem next_halves [Buf P] (t : Tun P) (l : TunAct P) (side : Side) :
    t.HalvesMove side ((t.next l).halves side) (t.shows l) := by
  cases l with
  | create => exact .same (by cases side <;> rfl)
  | createFails => exact .same rfl
  | noticeReader =>
    refine .same ?_
    unfold next
    cases t.endDataReader with
    | sent event => cases side <;> rfl
    | closed => exact returns_halves side
    | pending => exact returns_halves side
  | noticeWriter =>
    refine .same ?_
    unfold next
    cases t.endDataWriter with
    | sent event => cases side <;> rfl
    | closed => exact returns_halves side
    | pending => exact returns_halves side
  | writerBack event =>
    refine .same ?_
    unfold next
    cases t.endDataWriter with
    | sent e =>
      simp only [finish_halves]
      cases side <;> rfl
    | closed => exact returns_halves side
    | pending => exact returns_halves side
  | readerBack event =>
    refine .same ?_
    unfold next
    cases t.endDataReader with
    | sent e => exact finish_halves side event
    | closed => exact returns_halves side
    | pending => exact returns_halves side
  | stopReader r => exact .reader r _ rfl List.mem_cons_self
  | read r result =>
    cases he : t.readEnds result with
    | some e => exact .reader r e (by simp [next,he]) (by simp [shows,he])
    | none =>
      refine .same ?_
      cases result with
      | ok packet =>
        simp only [next,he]
        split <;> cases side <;> rfl
      | error kind => simp only [next,he]
  | readerReturns device =>
    cases side with
    | reader => exact .returns device rfl
    | writer => exact .same rfl
  | stopWriter w => exact .writer w _ rfl List.mem_cons_self
  | recv w =>
    cases hq : t.fromCoord with
    | cons packet rest =>
      refine .same ?_
      simp only [next,hq,setWriter_halves]
      cases side <;> rfl
    | nil => exact .writer w .fatalError (by simp [next,hq]) (by simp [shows,hq])
  | write w packet => exact .same (by simp [next])
  | written w packet result =>
    cases result with
    | ok n => exact .same (by simp [next])
    | error kind =>
      cases he : (classifyTunError kind).ends with
      | none => exact .same (by simp [next,he])
      | some e => exact .writer w e (by simp [next,he]) (by simp [shows,he])
  | writerReturns device =>
    cases side with
    | reader => exact .same rfl
    | writer => exact .returns device rfl
  | coordSends packet => exact .same (by cases side <;> rfl)
  | coordReceives => exact .same (by cases side <;> rfl)
  | coordEnds => exact .same (by cases side <;> rfl)

end Step

/-- The end of a worker is shown while its message is still to come. -/
theorem Moves.ends {t t' : Tun P} {os : List (TunObs P)} (m : t.Moves t' os) {side : Side} {d : Nat}
    {e : TunEvent} (h : TunObs.ends side d e ∈ os) :
    d = t.created ∧ t.awaits t.created = true ∧ t.endData side = .pending := by
  cases m with
  | readerEnds loop device awaited pending own =>
    cases side with
    | reader =>
      simp only [TunObs.ends,List.mem_singleton,TunObs.readerEnds.injEq] at h
      exact ⟨h.1,awaited,pending⟩
    | writer => simp [TunObs.ends] at h
  | writerEnds loop device awaited pending own idle =>
    cases side with
    | reader =>
      rcases idle with ⟨-,rfl⟩ | ⟨packet,kind,-,rfl⟩ <;> simp [TunObs.ends] at h
    | writer =>
      have hd : d = t.created := by
        rcases idle with ⟨-,rfl⟩ | ⟨packet,kind,-,rfl⟩
        · simp only [TunObs.ends,List.nil_append,List.mem_singleton,TunObs.writerEnds.injEq] at h
          exact h.1
        · simp [TunObs.ends] at h
          exact h.1
      exact ⟨hd,awaited,pending⟩
  | create phase readers writers => cases side <;> simp [TunObs.ends] at h
  | noticeReader phase own readers sent => simp at h
  | noticeWriter phase own writers sent => simp at h
  | restart readers writers reader writer phase => cases side <;> simp [TunObs.ends] at h
  | stop readers writers reader writer phase => cases side <;> simp [TunObs.ends] at h
  | writerTakes loop phase queue => cases side <;> simp [TunObs.ends] at h
  | writerPasses loop phase => cases side <;> simp [TunObs.ends] at h
  | writerGoesOn loop phase => cases side <;> simp [TunObs.ends] at h
  | sends packet rx => cases side <;> simp [TunObs.ends] at h
  | quiet readHalves writeHalves toCoord coordOpen => simp at h

section Ends
variable {t t' : Tun P} {tr os : List (TunObs P)}

theorem Logged.endsOf (h : Logged t tr) (side : Side) :
    EndsOf t tr (TunObs.ends side) (fun it => it.ended side) (t.endData side) := by
  cases side with
  | reader => exact h.readers
  | writer => exact h.writers

theorem Logged.not_ended (h : Logged t tr) (awaited : t.awaits t.created = true) {side : Side}
    (pending : t.endData side = .pending) (e : TunEvent) :
    TunObs.ends side t.created e ∉ tr := by
  rw [h.endsOf side t.created e,pending]
  rintro (⟨it,hit,hd,-⟩ | ⟨-,hs⟩)
  · have hpast := (h.past it hit).2
    rw [hd,awaited] at hpast
    simp at hpast
  · simp at hs

def Opened (t : Tun P) (tr : List (TunObs P)) : Prop :=
  ∀ d, .created d ∈ tr → (d = t.created ∧ t.awaits d = true) ∨ ∃ it ∈ iterations tr, it.device = d

theorem Opened.goesOn (h : Opened t tr) (created : t'.created = t.created)
    (awaits : t'.awaits = t.awaits) (none : ∀ d, .created d ∉ os) : Opened t' (tr ++ os) := by
  intro d hd
  rw [List.mem_append,or_iff_left (none d)] at hd
  rw [created,awaits,iterations_append]
  rcases h d hd with hopen | ⟨it,hit,hdev⟩
  · exact .inl hopen
  · exact .inr ⟨it,List.mem_append_left _ hit,hdev⟩

theorem Opened.closes {it : Iteration} (h : Opened t tr) (device : it.device = t.created) :
    Opened t' (tr ++ [.iteration it]) := by
  intro d hd
  rw [List.mem_append,or_iff_left (by simp)] at hd
  rw [iterations_append]
  rcases h d hd with ⟨rfl,-⟩ | ⟨x,hx,hdev⟩
  · exact .inr ⟨it,List.mem_append_right _ List.mem_cons_self,device⟩
  · exact .inr ⟨x,List.mem_append_left _ hx,hdev⟩

theorem Opened.moved (m : t.Moves t' os) (h : Opened t tr) : Opened t' (tr ++ os) := by
  cases m with
  | create phase readers writers =>
    intro d hd
    rw [iterations_append]
    rcases List.mem_append.mp hd with hold | hnew
    · rcases h d hold with ⟨-,ha⟩ | ⟨it,hit,hdev⟩
      · simp [awaits,phase] at ha
      · exact .inr ⟨it,List.mem_append_left _ hit,hdev⟩
    · simp only [List.mem_singleton,TunObs.created.injEq] at hnew
      exact .inl ⟨hnew,by simp [awaits,hnew]⟩
  | noticeReader phase own readers sent =>
    refine h.goesOn rfl ?_ (by simp)
    funext d
    simp [awaits,phase]
  | noticeWriter phase own writers sent =>
    refine h.goesOn rfl ?_ (by simp)
    funext d
    simp [awaits,phase]
  | restart readers writers reader writer phase => exact h.closes rfl
  | stop readers writers reader writer phase => exact h.closes rfl
  | readerEnds loop device awaited pending own => exact h.goesOn rfl rfl (by simp)
  | writerEnds loop device awaited pending own idle =>
    rcases idle with ⟨-,rfl⟩ | ⟨packet,kind,-,rfl⟩
    · exact h.goesOn rfl rfl (by simp)
    · exact h.goesOn rfl rfl (by simp)
  | writerTakes loop phase queue => exact h.goesOn rfl rfl (by simp)
  | writerPasses loop phase => exact h.goesOn rfl rfl (by simp)
  | writerGoesOn loop phase => exact h.goesOn rfl rfl (by simp)
  | sends packet rx => exact h.goesOn rfl rfl (by simp)
  | quiet readHalves writeHalves toCoord coordOpen => exact h.goesOn rfl rfl (by simp)

structure Held (t : Tun P) (tr : List (TunObs P)) : Prop where
  once : ∀ side, (t.halves side).Nodup
  ended : ∀ side, ∀ d ∈ t.halves side, ∃ e, TunObs.ends side d e ∈ tr

theorem Held.next [DecidableEq P] [Buf P] {l : TunAct P} (hl : Logged t tr) (h : Held t tr)
    (hs : t.Supervised) (hen : t.enabled l) : Held (t.next l) (tr ++ t.shows l) := by
  have hm := hs.moves hen
  refine ⟨fun side => ?_,fun side d hd => ?_⟩
  · cases next_halves t l side with
    | same eq =>
      rw [eq]
      exact h.once side
    | ends d e eq shown =>
      obtain ⟨rfl,awaited,pending⟩ := hm.ends shown
      rw [eq,List.nodup_cons]
      refine ⟨fun hmem => ?_,h.once side⟩
      obtain ⟨e',he'⟩ := h.ended side _ hmem
      exact hl.not_ended awaited pending e' he'
    | returns d eq =>
      rw [eq]
      exact (h.once side).erase d
  · have hold : d ∈ t.halves side → ∃ e, TunObs.ends side d e ∈ tr ++ t.shows l := by
      intro hmem
      obtain ⟨e,he⟩ := h.ended side d hmem
      exact ⟨e,List.mem_append_left _ he⟩
    cases next_halves t l side with
    | same eq =>
      rw [eq] at hd
      exact hold hd
    | ends d' e eq shown =>
      rw [eq] at hd
      rcases List.mem_cons.mp hd with rfl | hmem
      · exact ⟨e,List.mem_append_right _ shown⟩
      · exact hold hmem
    | returns d' eq =>
      rw [eq] at hd
      exact hold (List.mem_of_mem_erase hd)

end Ends

section Devices
variable [DecidableEq P] [Buf P]

def Returning : Tun P → TunAct P → Prop
  | _,.readerReturns _ => True
  | _,.writerReturns _ => True
  | _,_ => False

theorem readers_return (devices : List Nat) {t : Tun P} (h : t.readHalves = devices) :
    Run system Returning t { t with readHalves := [] } [] := by
  induction devices generalizing t with
  | nil =>
    rw [← h]
    exact .nil
  | cons d rest ih =>
    have hen : t.enabled (.readerReturns d) := by simp [enabled,h]
    have hnext : (t.next (.readerReturns d)).readHalves = rest := by simp [next,h]
    have hstep : Run system Returning t (t.next (.readerReturns d)) [] :=
      .snoc (TunAct.readerReturns d) .nil trivial hen
    exact Run.trans hstep (ih hnext)

theorem writers_return (devices : List Nat) {t : Tun P} (h : t.writeHalves = devices) :
    Run system Returning t { t with writeHalves := [] } [] := by
  induction devices generalizing t with
  | nil =>
    rw [← h]
    exact .nil
  | cons d rest ih =>
    have hen : t.enabled (.writerReturns d) := by simp [enabled,h]
    have hnext : (t.next (.writerReturns d)).writeHalves = rest := by simp [next,h]
    have hstep : Run system Returning t (t.next (.writerReturns d)) [] :=
      .snoc (TunAct.writerReturns d) .nil trivial hen
    exact Run.trans hstep (ih hnext)

/-- The last device is the only one with workers in their loops, and none is in its loop when
a device is to be created. Halves of older devices are held by workers that have sent their
ends, and that need nobody else to return. -/
structure OneDevice (t : Tun P) (tr : List (TunObs P)) : Prop where
  readers : ∀ r ∈ t.readers, t.readers = [r] ∧ r.device = t.created
  writers : ∀ w ∈ t.writers, t.writers = [w] ∧ w.device = t.created
  creating : t.enabled .create → t.readers = [] ∧ t.writers = [] ∧
    ∀ d, .created d ∈ tr → ∀ side, ∃ e, TunObs.ends side d e ∈ tr
  held : Held t tr
  released : Run system Returning t { t with readHalves := [], writeHalves := [] } []

theorem one_device_runs {capacity : Nat} {t : Tun P} {tr : List (TunObs P)}
    (run : Run system anyStep (new capacity) t tr) : OneDevice t tr := by
  have hinv : t.Supervised ∧ Logged t tr ∧ Opened t tr ∧ Held t tr := by
    refine run.invariant (fun t tr => t.Supervised ∧ Logged t tr ∧ Opened t tr ∧ Held t tr) ?_ ?_
    · refine ⟨new_supervised capacity,new_logged capacity,by simp [Opened],fun side => ?_,?_⟩
      · cases side <;> exact List.nodup_nil
      · intro side d hd
        cases side <;> simp [halves,new] at hd
    · rintro t tr l ⟨hs,hl,ho,hh⟩ - hen
      have hm := hs.moves hen
      exact ⟨hs.moved hm,hl.moved hm,ho.moved hm,hh.next hl hs hen⟩
  obtain ⟨hs,hl,ho,hh⟩ := hinv
  refine ⟨fun r hr => ?_,fun w hw => ?_,fun hc => ?_,hh,?_⟩
  · obtain ⟨loop,device,-,-⟩ := hs.reader hr
    exact ⟨loop,device⟩
  · obtain ⟨loop,device,-,-⟩ := hs.writer hw
    exact ⟨loop,device⟩
  · have phase : t.phase = .creating := hc
    obtain ⟨readers,writers,-⟩ := hs.at_creating phase
    refine ⟨readers,writers,fun d hd side => ?_⟩
    rcases ho d hd with ⟨-,ha⟩ | ⟨it,hit,hdev⟩
    · simp [awaits,phase] at ha
    · exact ⟨it.ended side,(hl.endsOf side d _).mpr (.inl ⟨it,hit,hdev,rfl⟩)⟩
  · exact Run.trans (readers_return _ rfl) (writers_return _ rfl)

end Devices

/-- The reader of the first device has met its end, and the second device is created with a
half of the first one still held, until the worker returns. -/
theorem one_device_runs_reconnect : ∃ (t : Tun (List UInt8)) (tr : List _),
    Run system anyStep (new 8192) t tr ∧ .created 2 ∈ tr ∧ t.readHalves = [1] ∧
      OneDevice t tr := by
  obtain ⟨t,tr,run,h⟩ := @exec_reaches _ _ _ (system (P := List UInt8)) anyStep _ _ (new 8192)
    [.create,.read ⟨1,false⟩ (.ok []),.noticeReader,.stopWriter ⟨1,true,.receiving⟩,
      .writerReturns 1,.writerBack .reconnectRequired,.create]
    (fun r => decide (.created 2 ∈ r.2 ∧ r.1.readHalves = [1])) (by decide)
  obtain ⟨hcreated,hheld⟩ := of_decide_eq_true h
  exact ⟨t,tr,run,hcreated,hheld,one_device_runs run⟩

/-- Both workers of the first device have sent their ends, and both halves are held, when the
supervisor goes on to create the next device. -/
theorem device_created_while_held : ∃ (t : Tun (List UInt8)) (tr : List _),
    Run system anyStep (new 8192) t tr ∧ .created 1 ∈ tr ∧ t.enabled .create ∧
      t.readHalves = [1] ∧ t.writeHalves = [1] := by
  obtain ⟨t,tr,run,h⟩ := @exec_reaches _ _ _ (system (P := List UInt8)) anyStep _ _ (new 8192)
    [.create,.read ⟨1,false⟩ (.ok []),.noticeReader,.stopWriter ⟨1,true,.receiving⟩,
      .writerBack .reconnectRequired]
    (fun r => decide (.created 1 ∈ r.2 ∧ r.1.enabled .create ∧ r.1.readHalves = [1] ∧
      r.1.writeHalves = [1])) (by decide)
  exact ⟨t,tr,run,of_decide_eq_true h⟩

end Tun
end MeshNetwork
