import MeshNetwork.Tun

set_option autoImplicit false

namespace MeshNetwork

/-- The events that a worker ends with when it has seen no stop signal. -/
def TunEvent.Own (event : TunEvent) : Prop := event = .reconnectRequired ∨ event = .fatalError

theorem TunEvent.own_of_ends {event e : TunEvent} (h : event.ends = some e) : e.Own := by
  cases event <;> simp only [ends,Option.some.injEq,reduceCtorEq] at h
  · exact .inr h.symm
  · exact .inl h.symm

namespace Tun
variable {P : Type}

/-- The reader of the iteration is in its loop, or it has sent its end. The stop signal
has not been sent as long as the supervisor `waits` for both workers. -/
inductive ReaderSide (waits : Prop) (t : Tun P) : Prop where
  | running {r : Reader} (loop : t.readers = [r]) (device : r.device = t.created)
      (pending : t.endDataReader = .pending) (fresh : waits → r.stop = false)
  | ended {e : TunEvent} (loop : t.readers = []) (sent : t.endDataReader = .sent e)
      (own : waits → e.Own)

inductive WriterSide (waits : Prop) (t : Tun P) : Prop where
  | running {w : Writer P} (loop : t.writers = [w]) (device : w.device = t.created)
      (pending : t.endDataWriter = .pending) (rx : t.rxFromCoord = .writer t.created)
      (fresh : waits → w.stop = false)
  | ended {e : TunEvent} (loop : t.writers = []) (sent : t.endDataWriter = .sent e)
      (rx : t.rxFromCoord = .endMessage) (own : waits → e.Own)

inductive Supervised (t : Tun P) : Prop where
  | creating (phase : t.phase = .creating) (readers : t.readers = []) (writers : t.writers = [])
      (rx : t.rxFromCoord = .supervisor)
  | selecting (phase : t.phase = .selecting) (reader : ReaderSide True t)
      (writer : WriterSide True t)
  | stoppingWriter {e : TunEvent} (phase : t.phase = .stoppingWriter e) (own : e.Own)
      (readers : t.readers = []) (reader : t.endDataReader = .sent e) (writer : WriterSide False t)
  | stoppingReader {e : TunEvent} (phase : t.phase = .stoppingReader e) (own : e.Own)
      (writers : t.writers = []) (writer : t.endDataWriter = .sent e)
      (rx : t.rxFromCoord = .supervisor) (reader : ReaderSide False t)
  | returned (phase : t.phase = .returned) (readers : t.readers = []) (writers : t.writers = [])
      (rx : t.rxFromCoord = .dropped)

inductive Moves (t : Tun P) : Tun P → List (TunObs P) → Prop where
  | create (phase : t.phase = .creating) (readers : t.readers = []) (writers : t.writers = []) :
      Moves t { t with
        phase := .selecting
        created := t.created + 1
        rxFromCoord := .writer (t.created + 1)
        endDataReader := .pending
        endDataWriter := .pending
        readers := [⟨t.created + 1,false⟩]
        writers := [⟨t.created + 1,false,.receiving⟩] } [.created (t.created + 1)]
  | noticeReader {e : TunEvent} (phase : t.phase = .selecting) (own : e.Own)
      (readers : t.readers = []) (sent : t.endDataReader = .sent e) :
      Moves t { t with
        phase := .stoppingWriter e
        writers := t.writers.map fun w =>
          if w.device = t.created then { w with stop := true } else w } []
  | noticeWriter {e : TunEvent} (phase : t.phase = .selecting) (own : e.Own)
      (writers : t.writers = []) (sent : t.endDataWriter = .sent e) :
      Moves t { t with
        phase := .stoppingReader e
        rxFromCoord := .supervisor
        readers := t.readers.map fun r =>
          if r.device = t.created then { r with stop := true } else r } []
  | restart {first : Side} {r w : TunEvent} (readers : t.readers = []) (writers : t.writers = [])
      (reader : t.endDataReader = .sent r) (writer : t.endDataWriter = .sent w)
      (phase : first = .reader ∧ t.phase = .stoppingWriter r ∧ r = .reconnectRequired ∨
        first = .writer ∧ t.phase = .stoppingReader w ∧ w = .reconnectRequired) :
      Moves t { t with phase := .creating, rxFromCoord := .supervisor }
        [.iteration ⟨t.created,first,r,w,true⟩]
  | stop {first : Side} {r w : TunEvent} (readers : t.readers = []) (writers : t.writers = [])
      (reader : t.endDataReader = .sent r) (writer : t.endDataWriter = .sent w)
      (phase : first = .reader ∧ t.phase = .stoppingWriter r ∧ r = .fatalError ∨
        first = .writer ∧ t.phase = .stoppingReader w ∧ w = .fatalError) :
      Moves t { t with phase := .returned, rxFromCoord := .dropped, fromCoord := [] }
        [.iteration ⟨t.created,first,r,w,false⟩]
  | readerEnds {r : Reader} {e : TunEvent} (loop : t.readers = [r]) (device : r.device = t.created)
      (awaited : t.awaits t.created = true) (pending : t.endDataReader = .pending)
      (own : r.stop = false → e.Own) :
      Moves t { t with
        readers := []
        readHalves := t.created :: t.readHalves
        endDataReader := .sent e } [.readerEnds t.created e]
  | writerTakes {w : Writer P} {packet : P} {rest : List P} (loop : t.writers = [w])
      (phase : w.phase = .receiving) (queue : t.fromCoord = packet :: rest) :
      Moves t { t with fromCoord := rest, writers := [{ w with phase := .holding packet }] }
        [.taken w.device packet]
  | writerPasses {w : Writer P} {packet : P} (loop : t.writers = [w])
      (phase : w.phase = .holding packet) :
      Moves t { t with writers := [{ w with phase := .writing packet }] } [.passed w.device packet]
  | writerGoesOn {w : Writer P} {packet : P} {r : Except ErrorKind Nat}
      (loop : t.writers = [w]) (phase : w.phase = .writing packet) :
      Moves t { t with writers := [{ w with phase := .receiving }] } [.written w.device packet r]
  | writerEnds {w : Writer P} {e : TunEvent} {os : List (TunObs P)} (loop : t.writers = [w])
      (device : w.device = t.created) (awaited : t.awaits t.created = true)
      (pending : t.endDataWriter = .pending) (own : w.stop = false → e.Own)
      (idle : w.phase = .receiving ∧ os = [] ∨ ∃ packet kind, w.phase = .writing packet ∧
        os = [.written w.device packet (.error kind)]) :
      Moves t { t with
        writers := []
        writeHalves := t.created :: t.writeHalves
        endDataWriter := .sent e
        rxFromCoord := .endMessage } (os ++ [.writerEnds t.created e])
  | sends (packet : P) (rx : t.rxFromCoord ≠ .dropped) :
      Moves t { t with fromCoord := t.fromCoord ++ [packet] } [.sent packet]
  | quiet (readHalves writeHalves : List Nat) (toCoord : List P) (coordOpen : Bool) :
      Moves t { t with readHalves, writeHalves, toCoord, coordOpen } []

theorem Supervised.reader {t : Tun P} (h : t.Supervised) {r : Reader} (hr : r ∈ t.readers) :
    t.readers = [r] ∧ r.device = t.created ∧ t.endDataReader = .pending ∧
      t.awaits t.created = true := by
  have side : ∀ {waits : Prop}, ReaderSide waits t →
      t.readers = [r] ∧ r.device = t.created ∧ t.endDataReader = .pending := by
    intro waits hs
    cases hs with
    | running loop device pending fresh =>
      rw [loop,List.mem_singleton] at hr
      subst hr
      exact ⟨loop,device,pending⟩
    | ended loop sent own => simp [loop] at hr
  cases h with
  | creating phase readers writers rx => simp [readers] at hr
  | selecting phase reader writer =>
    obtain ⟨hl,hd,he⟩ := side reader
    exact ⟨hl,hd,he,by simp [awaits,phase]⟩
  | stoppingWriter phase own readers reader writer => simp [readers] at hr
  | stoppingReader phase own writers writer rx reader =>
    obtain ⟨hl,hd,he⟩ := side reader
    exact ⟨hl,hd,he,by simp [awaits,phase]⟩
  | returned phase readers writers rx => simp [readers] at hr

theorem Supervised.writer {t : Tun P} (h : t.Supervised) {w : Writer P} (hw : w ∈ t.writers) :
    t.writers = [w] ∧ w.device = t.created ∧ t.endDataWriter = .pending ∧
      t.awaits t.created = true := by
  have side : ∀ {waits : Prop}, WriterSide waits t →
      t.writers = [w] ∧ w.device = t.created ∧ t.endDataWriter = .pending := by
    intro waits hs
    cases hs with
    | running loop device pending rx fresh =>
      rw [loop,List.mem_singleton] at hw
      subst hw
      exact ⟨loop,device,pending⟩
    | ended loop sent rx own => simp [loop] at hw
  cases h with
  | creating phase readers writers rx => simp [writers] at hw
  | selecting phase reader writer =>
    obtain ⟨hl,hd,he⟩ := side writer
    exact ⟨hl,hd,he,by simp [awaits,phase]⟩
  | stoppingWriter phase own readers reader writer =>
    obtain ⟨hl,hd,he⟩ := side writer
    exact ⟨hl,hd,he,by simp [awaits,phase]⟩
  | stoppingReader phase own writers writer rx reader => simp [writers] at hw
  | returned phase readers writers rx => simp [writers] at hw

/-- An end message that has come carries an event: no sender is dropped before it is used. -/
theorem ReaderSide.sent {waits : Prop} {t : Tun P} (h : ReaderSide waits t)
    (hne : t.endDataReader ≠ .pending) :
    ∃ e, t.readers = [] ∧ t.endDataReader = .sent e ∧ (waits → e.Own) := by
  cases h with
  | running loop device pending fresh => exact absurd pending hne
  | ended loop sent own => exact ⟨_,loop,sent,own⟩

theorem WriterSide.sent {waits : Prop} {t : Tun P} (h : WriterSide waits t)
    (hne : t.endDataWriter ≠ .pending) :
    ∃ e, t.writers = [] ∧ t.endDataWriter = .sent e ∧ t.rxFromCoord = .endMessage ∧
      (waits → e.Own) := by
  cases h with
  | running loop device pending rx fresh => exact absurd pending hne
  | ended loop sent rx own => exact ⟨_,loop,sent,rx,own⟩

theorem Supervised.at_creating {t : Tun P} (h : t.Supervised) (hp : t.phase = .creating) :
    t.readers = [] ∧ t.writers = [] ∧ t.rxFromCoord = .supervisor := by
  cases h with
  | creating phase readers writers rx => exact ⟨readers,writers,rx⟩
  | selecting phase _ _ | stoppingWriter phase _ _ _ _ | stoppingReader phase _ _ _ _ _
  | returned phase _ _ _ => simp [hp] at phase

theorem Supervised.at_selecting {t : Tun P} (h : t.Supervised) (hp : t.phase = .selecting) :
    ReaderSide True t ∧ WriterSide True t := by
  cases h with
  | selecting phase reader writer => exact ⟨reader,writer⟩
  | creating phase _ _ _ | stoppingWriter phase _ _ _ _ | stoppingReader phase _ _ _ _ _
  | returned phase _ _ _ => simp [hp] at phase

theorem Supervised.at_stoppingWriter {t : Tun P} (h : t.Supervised) {e : TunEvent}
    (hp : t.phase = .stoppingWriter e) :
    e.Own ∧ t.readers = [] ∧ t.endDataReader = .sent e ∧ WriterSide False t := by
  cases h with
  | stoppingWriter phase own readers reader writer =>
    simp only [hp,TunPhase.stoppingWriter.injEq] at phase
    subst phase
    exact ⟨own,readers,reader,writer⟩
  | creating phase _ _ _ | selecting phase _ _ | stoppingReader phase _ _ _ _ _
  | returned phase _ _ _ => simp [hp] at phase

theorem Supervised.at_stoppingReader {t : Tun P} (h : t.Supervised) {e : TunEvent}
    (hp : t.phase = .stoppingReader e) : e.Own ∧ t.writers = [] ∧ t.endDataWriter = .sent e ∧
      t.rxFromCoord = .supervisor ∧ ReaderSide False t := by
  cases h with
  | stoppingReader phase own writers writer rx reader =>
    simp only [hp,TunPhase.stoppingReader.injEq] at phase
    subst phase
    exact ⟨own,writers,writer,rx,reader⟩
  | creating phase _ _ _ | selecting phase _ _ | stoppingWriter phase _ _ _ _
  | returned phase _ _ _ => simp [hp] at phase

theorem readEnds_own [Buf P] {t : Tun P} {result : Except ErrorKind P} {e : TunEvent}
    (h : t.readEnds result = some e) : e.Own := by
  cases result with
  | error kind => exact TunEvent.own_of_ends h
  | ok packet =>
    simp only [readEnds] at h
    split at h
    · simp only [Option.some.injEq] at h
      exact .inl h.symm
    · split at h
      · simp at h
      · simp only [Option.some.injEq] at h
        exact .inr h.symm

/-- Both workers have ended: the event noticed first decides. -/
theorem finish_moves {t : Tun P} {first : Side} {noticed r w : TunEvent} (own : noticed.Own)
    (readers : t.readers = []) (writers : t.writers = []) (reader : t.endDataReader = .sent r)
    (writer : t.endDataWriter = .sent w)
    (phase : first = .reader ∧ t.phase = .stoppingWriter r ∧ r = noticed ∨
      first = .writer ∧ t.phase = .stoppingReader w ∧ w = noticed) :
    t.Moves (finish { t with rxFromCoord := .supervisor } noticed)
      [.iteration ⟨t.created,first,r,w,restarts noticed⟩] := by
  rcases own with rfl | rfl
  · have hfinish : finish { t with rxFromCoord := .supervisor } .reconnectRequired =
        { t with phase := .creating, rxFromCoord := .supervisor } := by
      simp [finish,restarts,leave,readers,writers]
    rw [hfinish]
    exact .restart readers writers reader writer phase
  · have hfinish : finish { t with rxFromCoord := .supervisor } .fatalError =
        { t with phase := .returned, rxFromCoord := .dropped, fromCoord := [] } := by
      simp [finish,restarts,returns,leave,dropRx,readers,writers]
    rw [hfinish]
    exact .stop readers writers reader writer phase

theorem Supervised.readerEnds_moves {t : Tun P} (h : t.Supervised) {r : Reader}
    (hr : r ∈ t.readers) {e : TunEvent} (own : r.stop = false → e.Own) :
    t.Moves (t.readerEnds r e) [.readerEnds r.device e] := by
  obtain ⟨loop,device,pending,awaited⟩ := h.reader hr
  have hends : t.readerEnds r e = { t with
      readers := []
      readHalves := t.created :: t.readHalves
      endDataReader := .sent e } := by
    simp [readerEnds,loop,device,awaited]
  rw [hends,device]
  exact .readerEnds loop device awaited pending own

section Step
variable [DecidableEq P]

theorem Supervised.writerEnds_moves {t : Tun P} (h : t.Supervised) {w : Writer P}
    (hw : w ∈ t.writers) {e : TunEvent} {os : List (TunObs P)} (own : w.stop = false → e.Own)
    (idle : w.phase = .receiving ∧ os = [] ∨ ∃ packet kind, w.phase = .writing packet ∧
      os = [.written w.device packet (.error kind)]) :
    t.Moves (t.writerEnds w e) (os ++ [.writerEnds w.device e]) := by
  obtain ⟨loop,device,pending,awaited⟩ := h.writer hw
  have hends : t.writerEnds w e = { t with
      writers := []
      writeHalves := t.created :: t.writeHalves
      endDataWriter := .sent e
      rxFromCoord := .endMessage } := by
    simp [writerEnds,loop,device,awaited]
  rw [hends]
  conv in TunObs.writerEnds w.device e => rw [device]
  exact .writerEnds loop device awaited pending own idle

theorem Supervised.setWriter {t : Tun P} (h : t.Supervised) {w : Writer P} (hw : w ∈ t.writers)
    (phase : WriterPhase P) :
    t.setWriter w phase = { t with writers := [{ w with phase := phase }] } := by
  simp [Tun.setWriter,(h.writer hw).1]

variable [Buf P]

theorem Supervised.moves {t : Tun P} (h : t.Supervised) {l : TunAct P} (hen : t.enabled l) :
    t.Moves (t.next l) (t.shows l) := by
  cases l with
  | create =>
    obtain ⟨readers,writers,-⟩ := h.at_creating hen
    have hm := Moves.create hen readers writers
    simpa [next,shows,readers,writers] using hm
  | createFails => exact .quiet t.readHalves t.writeHalves t.toCoord t.coordOpen
  | noticeReader =>
    obtain ⟨reader,-⟩ := h.at_selecting hen.1
    obtain ⟨e,loop,sent,own⟩ := reader.sent hen.2
    have hm := Moves.noticeReader hen.1 (own trivial) loop sent
    simpa [next,shows,sent] using hm
  | noticeWriter =>
    obtain ⟨-,writer⟩ := h.at_selecting hen.1
    obtain ⟨e,loop,sent,-,own⟩ := writer.sent hen.2
    have hm := Moves.noticeWriter hen.1 (own trivial) loop sent
    simpa [next,shows,sent] using hm
  | writerBack event =>
    obtain ⟨own,readers,reader,writer⟩ := h.at_stoppingWriter hen.1
    obtain ⟨e,loop,sent,-,-⟩ := writer.sent hen.2
    have hm := finish_moves own readers loop reader sent (.inl ⟨rfl,hen.1,rfl⟩)
    simpa [next,shows,sent] using hm
  | readerBack event =>
    obtain ⟨own,writers,writer,rx,reader⟩ := h.at_stoppingReader hen.1
    obtain ⟨e,loop,sent,-⟩ := reader.sent hen.2
    have hm := finish_moves own loop writers sent writer (.inr ⟨rfl,hen.1,rfl⟩)
    have hsame : { t with rxFromCoord := .supervisor } = t := by rw [← rx]
    rw [hsame] at hm
    simpa [next,shows,sent] using hm
  | stopReader r => exact h.readerEnds_moves hen.1 fun hs => by simp [hen.2] at hs
  | read r result =>
    cases he : t.readEnds result with
    | some e =>
      have hm := h.readerEnds_moves hen.1 fun _ => readEnds_own he
      simpa [next,shows,he] using hm
    | none =>
      cases result with
      | ok packet =>
        by_cases hroom : t.toCoord.length < t.capacity
        · have hm := Moves.quiet (t := t) t.readHalves t.writeHalves (t.toCoord ++ [packet])
            t.coordOpen
          simpa [next,shows,he,hroom] using hm
        · have hm := Moves.quiet (t := t) t.readHalves t.writeHalves t.toCoord t.coordOpen
          simpa [next,shows,he,hroom] using hm
      | error kind =>
        have hm := Moves.quiet (t := t) t.readHalves t.writeHalves t.toCoord t.coordOpen
        simpa [next,shows,he] using hm
  | readerReturns device =>
    exact .quiet (t.readHalves.erase device) t.writeHalves t.toCoord t.coordOpen
  | stopWriter w =>
    exact h.writerEnds_moves hen.1 (fun hs => by simp [hen.2.2] at hs) (.inl ⟨hen.2.1,rfl⟩)
  | recv w =>
    cases hq : t.fromCoord with
    | cons packet rest =>
      have hm := Moves.writerTakes (h.writer hen.1).1 hen.2.1 hq
      simpa [next,shows,hq,Tun.setWriter,(h.writer hen.1).1] using hm
    | nil =>
      have hm := h.writerEnds_moves hen.1 (fun _ => .inr rfl) (.inl ⟨hen.2.1,rfl⟩)
      simpa [next,shows,hq] using hm
  | write w packet =>
    have hm := Moves.writerPasses (h.writer hen.1).1 hen.2
    simpa [next,shows,h.setWriter hen.1] using hm
  | written w packet result =>
    cases result with
    | ok n =>
      have hm := Moves.writerGoesOn (r := .ok n) (h.writer hen.1).1 hen.2
      simpa [next,shows,h.setWriter hen.1] using hm
    | error kind =>
      cases he : (classifyTunError kind).ends with
      | none =>
        have hm := Moves.writerGoesOn (r := .error kind) (h.writer hen.1).1 hen.2
        simpa [next,shows,he,h.setWriter hen.1] using hm
      | some e =>
        have hm := h.writerEnds_moves hen.1 (fun _ => TunEvent.own_of_ends he)
          (.inr ⟨packet,kind,hen.2,rfl⟩)
        simpa [next,shows,he] using hm
  | writerReturns device =>
    exact .quiet t.readHalves (t.writeHalves.erase device) t.toCoord t.coordOpen
  | coordSends packet => exact .sends packet hen.2.1
  | coordReceives => exact .quiet t.readHalves t.writeHalves t.toCoord.tail t.coordOpen
  | coordEnds => exact .quiet t.readHalves t.writeHalves t.toCoord false

end Step

section Frame
variable {t t' : Tun P} {waits : Prop}

theorem ReaderSide.frame (h : ReaderSide waits t) (readers : t'.readers = t.readers)
    (created : t'.created = t.created) (endData : t'.endDataReader = t.endDataReader) :
    ReaderSide waits t' := by
  cases h with
  | running loop device pending fresh =>
    exact .running (readers.trans loop) (device.trans created.symm) (endData.trans pending) fresh
  | ended loop sent own => exact .ended (readers.trans loop) (endData.trans sent) own

theorem WriterSide.frame (h : WriterSide waits t) (writers : t'.writers = t.writers)
    (created : t'.created = t.created) (endData : t'.endDataWriter = t.endDataWriter)
    (rxFromCoord : t'.rxFromCoord = t.rxFromCoord) : WriterSide waits t' := by
  cases h with
  | running loop device pending rx fresh =>
    refine .running (writers.trans loop) (device.trans created.symm) (endData.trans pending) ?_ fresh
    rw [rxFromCoord,created]
    exact rx
  | ended loop sent rx own =>
    exact .ended (writers.trans loop) (endData.trans sent) (rxFromCoord.trans rx) own

theorem WriterSide.goesOn (h : WriterSide waits t) {w : Writer P} (loop : t.writers = [w])
    (phase : WriterPhase P) (writers : t'.writers = [{ w with phase := phase }])
    (created : t'.created = t.created) (endData : t'.endDataWriter = t.endDataWriter)
    (rxFromCoord : t'.rxFromCoord = t.rxFromCoord) : WriterSide waits t' := by
  cases h with
  | @running w' loop' device pending rx fresh =>
    rw [loop,List.singleton_inj] at loop'
    subst loop'
    refine .running writers (device.trans created.symm) (endData.trans pending) ?_ fresh
    rw [rxFromCoord,created]
    exact rx
  | ended loop' sent rx own => simp [loop] at loop'

theorem Supervised.frame (h : t.Supervised) (phase : t'.phase = t.phase)
    (created : t'.created = t.created) (rxFromCoord : t'.rxFromCoord = t.rxFromCoord)
    (endDataReader : t'.endDataReader = t.endDataReader)
    (endDataWriter : t'.endDataWriter = t.endDataWriter) (readers : t'.readers = t.readers)
    (writers : t'.writers = t.writers) : t'.Supervised := by
  cases h with
  | creating hp hr hw rx =>
    exact .creating (phase.trans hp) (readers.trans hr) (writers.trans hw) (rxFromCoord.trans rx)
  | selecting hp reader writer =>
    exact .selecting (phase.trans hp) (reader.frame readers created endDataReader)
      (writer.frame writers created endDataWriter rxFromCoord)
  | stoppingWriter hp own hr reader writer =>
    exact .stoppingWriter (phase.trans hp) own (readers.trans hr) (endDataReader.trans reader)
      (writer.frame writers created endDataWriter rxFromCoord)
  | stoppingReader hp own hw writer rx reader =>
    exact .stoppingReader (phase.trans hp) own (writers.trans hw) (endDataWriter.trans writer)
      (rxFromCoord.trans rx) (reader.frame readers created endDataReader)
  | returned hp hr hw rx =>
    exact .returned (phase.trans hp) (readers.trans hr) (writers.trans hw) (rxFromCoord.trans rx)

theorem Supervised.writerGoesOn (h : t.Supervised) {w : Writer P} (loop : t.writers = [w])
    (fromCoord : List P) (phase : WriterPhase P) :
    Supervised { t with fromCoord := fromCoord, writers := [{ w with phase := phase }] } := by
  cases h with
  | creating hp hr hw rx => simp [loop] at hw
  | selecting hp reader writer =>
    exact .selecting hp (reader.frame rfl rfl rfl) (writer.goesOn loop phase rfl rfl rfl rfl)
  | stoppingWriter hp own hr reader writer =>
    exact .stoppingWriter hp own hr reader (writer.goesOn loop phase rfl rfl rfl rfl)
  | stoppingReader hp own hw writer rx reader => simp [loop] at hw
  | returned hp hr hw rx => simp [loop] at hw

theorem ReaderSide.fresh {r : Reader} (h : ReaderSide waits t) (loop : t.readers = [r])
    (hwaits : waits) : r.stop = false := by
  cases h with
  | @running r' loop' device pending fresh =>
    rw [loop,List.singleton_inj] at loop'
    rw [loop']
    exact fresh hwaits
  | ended loop' sent own => simp [loop] at loop'

theorem WriterSide.fresh {w : Writer P} (h : WriterSide waits t) (loop : t.writers = [w])
    (hwaits : waits) : w.stop = false := by
  cases h with
  | @running w' loop' device pending rx fresh =>
    rw [loop,List.singleton_inj] at loop'
    rw [loop']
    exact fresh hwaits
  | ended loop' sent rx own => simp [loop] at loop'

theorem ReaderSide.stop (h : ReaderSide True t) (phase : TunPhase) (rxFromCoord : RxOwner) :
    ReaderSide False { t with
    phase := phase
    rxFromCoord := rxFromCoord
    readers := t.readers.map fun r =>
      if r.device = t.created then { r with stop := true } else r } := by
  cases h with
  | @running r loop device pending fresh =>
    exact .running (r := { r with stop := true }) (by simp [loop,device]) device pending False.elim
  | ended loop sent own => exact .ended (by simp [loop]) sent False.elim

theorem WriterSide.stop (h : WriterSide True t) (phase : TunPhase) : WriterSide False { t with
    phase := phase
    writers := t.writers.map fun w =>
      if w.device = t.created then { w with stop := true } else w } := by
  cases h with
  | @running w loop device pending rx fresh =>
    exact .running (w := { w with stop := true }) (by simp [loop,device]) device pending rx
      False.elim
  | ended loop sent rx own => exact .ended (by simp [loop]) sent rx False.elim

theorem Supervised.moved {os : List (TunObs P)} (h : t.Supervised) (m : t.Moves t' os) :
    t'.Supervised := by
  cases m with
  | create phase readers writers =>
    exact .selecting rfl (.running rfl rfl rfl fun _ => rfl) (.running rfl rfl rfl rfl fun _ => rfl)
  | noticeReader phase own readers sent =>
    exact .stoppingWriter rfl own readers sent ((h.at_selecting phase).2.stop _)
  | noticeWriter phase own writers sent =>
    exact .stoppingReader rfl own writers sent rfl ((h.at_selecting phase).1.stop _ _)
  | restart readers writers reader writer phase => exact .creating rfl readers writers rfl
  | stop readers writers reader writer phase => exact .returned rfl readers writers rfl
  | readerEnds loop device awaited pending own =>
    cases h with
    | creating hp hr hw rx => simp [loop] at hr
    | selecting hp reader writer =>
      have hfresh := reader.fresh loop trivial
      exact .selecting hp (.ended rfl rfl fun _ => own hfresh) (writer.frame rfl rfl rfl rfl)
    | stoppingWriter hp own' hr reader writer => simp [loop] at hr
    | stoppingReader hp own' hw writer rx reader =>
      exact .stoppingReader hp own' hw writer rx (.ended rfl rfl False.elim)
    | returned hp hr hw rx => simp [loop] at hr
  | writerTakes loop phase queue => exact h.writerGoesOn loop _ _
  | writerPasses loop phase => exact h.writerGoesOn loop t.fromCoord _
  | writerGoesOn loop phase => exact h.writerGoesOn loop t.fromCoord _
  | writerEnds loop device awaited pending own idle =>
    cases h with
    | creating hp hr hw rx => simp [loop] at hw
    | selecting hp reader writer =>
      have hfresh := writer.fresh loop trivial
      exact .selecting hp (reader.frame rfl rfl rfl) (.ended rfl rfl rfl fun _ => own hfresh)
    | stoppingWriter hp own' hr reader writer =>
      exact .stoppingWriter hp own' hr reader (.ended rfl rfl rfl False.elim)
    | stoppingReader hp own' hw writer rx reader => simp [loop] at hw
    | returned hp hr hw rx => simp [loop] at hw
  | sends packet rx => exact h.frame rfl rfl rfl rfl rfl rfl rfl
  | quiet readHalves writeHalves toCoord coordOpen => exact h.frame rfl rfl rfl rfl rfl rfl rfl

end Frame

theorem new_supervised (capacity : Nat) : (new capacity : Tun P).Supervised :=
  .creating rfl rfl rfl rfl

/-- An invariant of the runs is shown for what a step can do under supervision. -/
theorem run_invariant [DecidableEq P] [Buf P] {ok : Tun P → TunAct P → Prop} {capacity : Nat}
    {t : Tun P} {tr : List (TunObs P)} (run : Runs.Run system ok (new capacity) t tr)
    (Q : Tun P → List (TunObs P) → Prop) (start : Q (new capacity) [])
    (next : ∀ t t' tr os, t.Supervised → t.Moves t' os → Q t tr → Q t' (tr ++ os)) :
    t.Supervised ∧ Q t tr := by
  refine run.invariant (fun t tr => t.Supervised ∧ Q t tr) ⟨new_supervised capacity,start⟩ ?_
  intro t tr l h _ hen
  have hm := h.1.moves hen
  exact ⟨h.1.moved hm,next t _ tr _ h.1 hm h.2⟩

end Tun
end MeshNetwork
