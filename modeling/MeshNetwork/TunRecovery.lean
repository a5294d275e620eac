import MeshNetwork.Process
import MeshNetwork.TunStops

set_option autoImplicit false

namespace MeshNetwork
open Runs

namespace Tun
variable {P : Type}

/-- `run` has not returned, and no worker of the device has ended for good. -/
structure Mendable (t : Tun P) : Prop where
  goesOn : t.phase ≠ .returned
  told : t.Told
  reader : t.awaits t.created = true → t.endDataReader ≠ .sent .fatalError
  writer : t.awaits t.created = true → t.endDataWriter ≠ .sent .fatalError

structure Serving (t : Tun P) : Prop where
  phase : t.phase = .selecting
  readers : t.readers = [⟨t.created,false⟩]
  writers : t.writers = [⟨t.created,false,.receiving⟩]
  rx : t.rxFromCoord = .writer t.created

variable [DecidableEq P] [Buf P]

theorem mendable_run {ok : Tun P → TunAct P → Prop} {capacity : Nat} {t : Tun P}
    {tr : List (TunObs P)} (run : Run system ok (new capacity) t tr)
    (readers : ∀ d, .readerEnds d .fatalError ∉ tr)
    (writers : ∀ d, .writerEnds d .fatalError ∉ tr) : t.Mendable := by
  obtain ⟨-,h⟩ := logged_run run
  refine ⟨fun hp => ?_,told_run run,fun ha sent => ?_,fun ha sent => ?_⟩
  · obtain ⟨it,hit,hr⟩ := h.returned.mp hp
    have hfatal := h.fatal hit hr
    cases hf : it.first with
    | reader =>
      simp only [Iteration.noticed,hf] at hfatal
      exact readers _ ((h.readers _ _).mpr (.inl ⟨it,hit,rfl,hfatal⟩))
    | writer =>
      simp only [Iteration.noticed,hf] at hfatal
      exact writers _ ((h.writers _ _).mpr (.inl ⟨it,hit,rfl,hfatal⟩))
  · exact readers _ ((h.readers _ _).mpr (.inr ⟨ha,sent⟩))
  · exact writers _ ((h.writers _ _).mpr (.inr ⟨ha,sent⟩))

structure Mends (t : Tun P) (l : TunAct P) : Prop where
  own : l.own = true
  noRead : ∀ r result, l ≠ .read r result
  goesOn : (t.next l).phase ≠ .returned

section Back
variable {t : Tun P}

theorem mends_to {l : TunAct P} {t' : Tun P} (hnext : t.next l = t') (hen : t.enabled l)
    (h : t.Mends l) : Run system Mends t t' (t.shows l) := by
  rw [← hnext]
  exact Run.single (S := system) l h hen

theorem creates (phase : t.phase = .creating) (readers : t.readers = [])
    (writers : t.writers = []) : ∃ t' os, Run system Mends t t' os ∧ t'.Serving := by
  have hmends : t.Mends .create := ⟨rfl,by simp,by simp [next]⟩
  have hen : t.enabled .create := phase
  refine ⟨_,_,mends_to rfl hen hmends,rfl,?_,?_,rfl⟩
  · simp [next,readers]
  · simp [next,writers]

theorem writer_receives {w : Writer P} (loop : t.writers = [w]) (phase : t.phase ≠ .returned) :
    ∃ os, Run system Mends t { t with writers := [{ w with phase := .receiving }] } os := by
  have hset : ∀ (t : Tun P) (w : Writer P) (phase : WriterPhase P), t.writers = [w] →
      t.setWriter w phase = { t with writers := [{ w with phase := phase }] } := by
    intro t w phase loop
    simp [setWriter,loop]
  have writes : ∀ (t : Tun P) (w : Writer P) (packet : P), t.writers = [w] → t.phase ≠ .returned →
      w.phase = .writing packet →
      ∃ os, Run system Mends t { t with writers := [{ w with phase := .receiving }] } os := by
    intro t w packet loop phase hw
    have hnext : t.next (.written w packet (.ok 0)) =
        { t with writers := [{ w with phase := .receiving }] } := hset t w _ loop
    have hmends : t.Mends (.written w packet (.ok 0)) :=
      ⟨rfl,by simp,by rw [hnext]; exact phase⟩
    exact ⟨_,mends_to hnext ⟨by rw [loop]; exact List.mem_cons_self,hw⟩ hmends⟩
  cases hw : w.phase with
  | receiving =>
    have hsame : ({ t with writers := [{ w with phase := .receiving }] } : Tun P) = t := by
      rw [← hw,← loop]
    rw [hsame]
    exact ⟨[],.nil⟩
  | holding packet =>
    have hnext : t.next (.write w packet) =
        { t with writers := [{ w with phase := .writing packet }] } := hset t w _ loop
    have hmends : t.Mends (.write w packet) := ⟨rfl,by simp,by rw [hnext]; exact phase⟩
    have first := mends_to hnext ⟨by rw [loop]; exact List.mem_cons_self,hw⟩ hmends
    obtain ⟨os,second⟩ := writes { t with writers := [{ w with phase := .writing packet }] }
      { w with phase := .writing packet } packet rfl phase rfl
    exact ⟨_,first.trans second⟩
  | writing packet => exact writes t w packet loop phase hw

theorem writer_back (phase : t.phase = .stoppingWriter .reconnectRequired)
    (readers : t.readers = []) (writers : t.writers = []) {e : TunEvent}
    (sent : t.endDataWriter = .sent e) : ∃ t' os, Run system Mends t t' os ∧ t'.Serving := by
  let t₁ : Tun P := { t with rxFromCoord := .supervisor }.leave .creating
  have hnext : t.next (.writerBack .reconnectRequired) = t₁ := by
    simp only [next,sent,finish,restarts,if_true,t₁]
  have hmends : t.Mends (.writerBack .reconnectRequired) :=
    ⟨rfl,by simp,by rw [hnext]; simp [t₁,leave]⟩
  have first := mends_to hnext ⟨phase,by simp [sent]⟩ hmends
  obtain ⟨t',os,second,ht⟩ := creates (t := t₁) rfl (by simp [t₁,leave,readers])
    (by simp [t₁,leave,writers])
  exact ⟨t',_,first.trans second,ht⟩

theorem reader_back (phase : t.phase = .stoppingReader .reconnectRequired)
    (readers : t.readers = []) (writers : t.writers = []) {e : TunEvent}
    (sent : t.endDataReader = .sent e) : ∃ t' os, Run system Mends t t' os ∧ t'.Serving := by
  let t₁ : Tun P := t.leave .creating
  have hnext : t.next (.readerBack .reconnectRequired) = t₁ := by
    simp only [next,sent,finish,restarts,if_true,t₁]
  have hmends : t.Mends (.readerBack .reconnectRequired) :=
    ⟨rfl,by simp,by rw [hnext]; simp [t₁,leave]⟩
  have first := mends_to hnext ⟨phase,by simp [sent]⟩ hmends
  obtain ⟨t',os,second,ht⟩ := creates (t := t₁) rfl (by simp [t₁,leave,readers])
    (by simp [t₁,leave,writers])
  exact ⟨t',_,first.trans second,ht⟩

theorem stops_writer (told : t.Told) (supervised : t.Supervised)
    (phase : t.phase = .stoppingWriter .reconnectRequired) :
    ∃ t' os, Run system Mends t t' os ∧ t'.Serving := by
  obtain ⟨-,readers,-,writer⟩ := supervised.at_stoppingWriter phase
  cases writer with
  | ended loop sent rx own => exact writer_back phase readers loop sent
  | @running w loop device pending rx fresh =>
    obtain ⟨os,first⟩ := writer_receives loop (by simp [phase])
    let w₁ : Writer P := { w with phase := .receiving }
    let t₁ : Tun P := { t with writers := [w₁] }
    have hstop : w₁.stop = true :=
      told.writer _ phase w (by rw [loop]; exact List.mem_cons_self)
    let t₂ : Tun P := { t with
      writers := []
      writeHalves := w₁.device :: t.writeHalves
      endDataWriter := .sent (.info "nothing")
      rxFromCoord := .endMessage }
    have hnext : t₁.next (.stopWriter w₁) = t₂ := by
      have hawaits : t₁.awaits w₁.device = true := by simp [awaits,t₁,w₁,phase,device]
      have herase : t₁.writers.erase w₁ = [] := by simp [t₁]
      simp only [next,writerEnds,hawaits,herase,if_true,t₁,t₂]
    have hmends : t₁.Mends (.stopWriter w₁) :=
      ⟨rfl,by simp,by rw [hnext]; simp [t₂,phase]⟩
    have second := mends_to hnext ⟨List.mem_cons_self,rfl,hstop⟩ hmends
    obtain ⟨t',os',third,ht⟩ := writer_back (t := t₂) phase readers rfl rfl
    exact ⟨t',_,(first.trans second).trans third,ht⟩

theorem stops_reader (told : t.Told) (supervised : t.Supervised)
    (phase : t.phase = .stoppingReader .reconnectRequired) :
    ∃ t' os, Run system Mends t t' os ∧ t'.Serving := by
  obtain ⟨-,writers,-,-,reader⟩ := supervised.at_stoppingReader phase
  cases reader with
  | ended loop sent own => exact reader_back phase loop writers sent
  | @running r loop device pending fresh =>
    have hstop : r.stop = true :=
      told.reader _ phase r (by rw [loop]; exact List.mem_cons_self)
    let t₁ : Tun P := { t with
      readers := []
      readHalves := r.device :: t.readHalves
      endDataReader := .sent (.info "nothing") }
    have hnext : t.next (.stopReader r) = t₁ := by
      have hawaits : t.awaits r.device = true := by simp [awaits,phase,device]
      have herase : t.readers.erase r = [] := by simp [loop]
      simp only [next,readerEnds,hawaits,herase,if_true,t₁]
    have hmends : t.Mends (.stopReader r) :=
      ⟨rfl,by simp,by rw [hnext]; simp [t₁,phase]⟩
    have first := mends_to hnext ⟨by rw [loop]; exact List.mem_cons_self,hstop⟩ hmends
    obtain ⟨t',os',second,ht⟩ := reader_back (t := t₁) phase rfl writers rfl
    exact ⟨t',_,first.trans second,ht⟩

/-- Wherever the supervisor and the workers are, they can get to serve a device. -/
theorem mends (h : t.Mendable) (supervised : t.Supervised) :
    ∃ t' os, Run system Mends t t' os ∧ t'.Serving := by
  -- the end that is noticed first is not a fatal one
  have notices : ∀ {l : TunAct P}, t.Mends l → t.enabled l →
      ((t.next l).phase = .stoppingWriter .reconnectRequired ∨
        (t.next l).phase = .stoppingReader .reconnectRequired) →
      ∃ t' os, Run system Mends t t' os ∧ t'.Serving := by
    intro l hmends hen hphase
    have first := mends_to rfl hen hmends
    have hm := supervised.moves hen
    have told := h.told.moved supervised hm
    rcases hphase with hw | hr
    · obtain ⟨t',os,second,ht⟩ := stops_writer told (supervised.moved hm) hw
      exact ⟨t',_,first.trans second,ht⟩
    · obtain ⟨t',os,second,ht⟩ := stops_reader told (supervised.moved hm) hr
      exact ⟨t',_,first.trans second,ht⟩
  cases hp : t.phase with
  | creating =>
    obtain ⟨readers,writers,-⟩ := supervised.at_creating hp
    exact creates hp readers writers
  | stoppingWriter e =>
    obtain ⟨own,-,sent,-⟩ := supervised.at_stoppingWriter hp
    obtain rfl := own.resolve_right fun hf => h.reader (by simp [awaits,hp]) (by rw [sent,hf])
    exact stops_writer h.told supervised hp
  | stoppingReader e =>
    obtain ⟨own,-,sent,-,-⟩ := supervised.at_stoppingReader hp
    obtain rfl := own.resolve_right fun hf => h.writer (by simp [awaits,hp]) (by rw [sent,hf])
    exact stops_reader h.told supervised hp
  | returned => exact absurd hp h.goesOn
  | selecting =>
    obtain ⟨reader,writer⟩ := supervised.at_selecting hp
    have awaited : t.awaits t.created = true := by simp [awaits,hp]
    cases reader with
    | @ended e loop sent own =>
      have he : e = .reconnectRequired :=
        (own trivial).resolve_right fun hf => h.reader awaited (by rw [sent,hf])
      have hen : t.enabled .noticeReader := ⟨hp,by simp [sent]⟩
      refine notices (l := .noticeReader) ⟨rfl,by simp,?_⟩ hen ?_ <;> simp [next,sent,he]
    | @running r loop device pending fresh =>
      cases writer with
      | @ended e hw sent rx own =>
        have he : e = .reconnectRequired :=
          (own trivial).resolve_right fun hf => h.writer awaited (by rw [sent,hf])
        have hen : t.enabled .noticeWriter := ⟨hp,by simp [sent]⟩
        refine notices (l := .noticeWriter) ⟨rfl,by simp,?_⟩ hen ?_ <;> simp [next,sent,he]
      | @running w hw wdevice wpending rx wfresh =>
        obtain ⟨os,first⟩ := writer_receives hw h.goesOn
        have hr : r = ⟨t.created,false⟩ := by rw [← device,← fresh trivial]
        have hw' : ({ w with phase := .receiving } : Writer P) = ⟨t.created,false,.receiving⟩ := by
          rw [← wdevice,← wfresh trivial]
        exact ⟨_,os,first,hp,by rw [loop,hr],by rw [hw'],rx⟩

end Back
end Tun
end MeshNetwork
