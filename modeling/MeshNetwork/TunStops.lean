import MeshNetwork.Progress
import MeshNetwork.Totals
import MeshNetwork.TunEnds

set_option autoImplicit false

namespace MeshNetwork
open Runs

/-- The steps that the supervisor and the workers take of themselves; for a write the device
has to be done with the packet, and for a read there has to be one. -/
def TunAct.due {P : Type} : TunAct P → Bool
  | .noticeReader | .noticeWriter | .writerBack _ | .readerBack _ | .stopReader _
  | .stopWriter _ | .recv _ | .write _ _ | .written _ _ _ => true
  | _ => false

def TunAct.sends {P : Type} : TunAct P → Bool
  | .coordSends _ => true
  | _ => false

def TunPhase.work : TunPhase → Nat
  | .selecting => 2
  | .stoppingWriter _ | .stoppingReader _ => 1
  | .creating | .returned => 0

def Writer.work {P : Type} (w : Writer P) : Nat :=
  match w.phase with
  | .receiving => 1
  | .writing _ => 2
  | .holding _ => 3

namespace Tun
variable {P : Type}

def remaining (t : Tun P) : Nat :=
  t.phase.work + t.readers.length + total Writer.work t.writers + 3 * t.fromCoord.length

structure Told (t : Tun P) : Prop where
  writer : ∀ e, t.phase = .stoppingWriter e → ∀ w ∈ t.writers, w.stop = true
  reader : ∀ e, t.phase = .stoppingReader e → ∀ r ∈ t.readers, r.stop = true

theorem new_told (capacity : Nat) : (new capacity : Tun P).Told :=
  ⟨by simp [new],by simp [new]⟩

section Step
variable {t t' : Tun P} {os : List (TunObs P)}

theorem Told.setWriter (h : t.Told) {w : Writer P} (loop : t.writers = [w]) (fromCoord : List P)
    (phase : WriterPhase P) :
    Told { t with fromCoord := fromCoord, writers := [{ w with phase := phase }] } := by
  refine ⟨fun e he x hx => ?_,h.reader⟩
  rw [List.mem_singleton.mp hx]
  exact h.writer e he w (by rw [loop]; exact List.mem_cons_self)

theorem Told.moved (h : t.Told) (supervised : t.Supervised) (m : t.Moves t' os) : t'.Told := by
  cases m with
  | noticeReader phase own hr sent =>
    refine ⟨fun e _ w hw => ?_,by simp⟩
    obtain ⟨x,hx,rfl⟩ := List.mem_map.mp hw
    simp [(supervised.writer hx).2.1]
  | noticeWriter phase own hw sent =>
    refine ⟨by simp,fun e _ r hr => ?_⟩
    obtain ⟨x,hx,rfl⟩ := List.mem_map.mp hr
    simp [(supervised.reader hx).2.1]
  | create phase _ _ => exact ⟨by simp,by simp⟩
  | restart _ _ _ _ _ => exact ⟨by simp,by simp⟩
  | stop _ _ _ _ _ => exact ⟨by simp,by simp⟩
  | readerEnds loop device awaited pending own => exact ⟨h.writer,by simp⟩
  | writerTakes loop phase queue => exact h.setWriter loop _ _
  | writerPasses loop phase => exact h.setWriter loop t.fromCoord _
  | writerGoesOn loop phase => exact h.setWriter loop t.fromCoord _
  | writerEnds loop device awaited pending own idle => exact ⟨by simp,h.reader⟩
  | sends packet rx => exact ⟨h.writer,h.reader⟩
  | quiet _ _ _ _ => exact ⟨h.writer,h.reader⟩

end Step

theorem work_map {f : Writer P → Writer P} (hf : ∀ w, (f w).phase = w.phase)
    (l : List (Writer P)) : total Writer.work (l.map f) = total Writer.work l :=
  total_map (fun w => by simp [Writer.work,hf w]) l

theorem remaining_leave (t : Tun P) (phase : TunPhase) : (t.leave phase).remaining =
    phase.work + t.readers.length + total Writer.work t.writers + 3 * t.fromCoord.length := by
  have same := work_map (f := fun w : Writer P => { w with stop := true }) fun _ => rfl
  simp only [remaining,leave,List.length_map,same]

theorem remaining_returns_le (t : Tun P) : t.returns.remaining ≤ (t.leave .returned).remaining := by
  unfold returns
  split <;> simp [remaining,dropRx]

theorem remaining_finish_lt {t : Tun P} (event : TunEvent) (h : t.phase.work = 1) :
    1 + (t.finish event).remaining ≤ t.remaining := by
  have hret := t.remaining_returns_le
  rw [remaining_leave] at hret
  unfold finish
  split
  · rw [remaining_leave,remaining,h]
    simp only [TunPhase.work]
    omega
  · simp only [TunPhase.work] at hret
    have hnow : t.remaining = 1 + t.readers.length + total Writer.work t.writers +
        3 * t.fromCoord.length := by rw [remaining,h]
    omega

section Due
variable {t : Tun P}

theorem Supervised.remaining_readerEnds (h : t.Supervised) {r : Reader} (hr : r ∈ t.readers)
    (e : TunEvent) : 1 + (t.readerEnds r e).remaining ≤ t.remaining := by
  simp only [remaining,readerEnds,(h.reader hr).1]
  simp
  omega

variable [DecidableEq P]

theorem Supervised.remaining_setWriter (h : t.Supervised) {w : Writer P} (hw : w ∈ t.writers)
    (phase : WriterPhase P) : (t.setWriter w phase).remaining + w.work =
      t.remaining + Writer.work { w with phase := phase } := by
  simp only [remaining,h.setWriter hw,(h.writer hw).1]
  simp
  omega

theorem Supervised.remaining_writerEnds (h : t.Supervised) {w : Writer P} (hw : w ∈ t.writers)
    (e : TunEvent) : 1 + (t.writerEnds w e).remaining ≤ t.remaining := by
  obtain ⟨loop,device,-,awaited⟩ := h.writer hw
  have hwork : 1 ≤ w.work := by
    unfold Writer.work
    split <;> omega
  simp only [remaining,writerEnds,loop,device,awaited]
  simp
  omega

variable [Buf P]

/-- Each step of the supervisor and the workers leaves less to do, and only a packet from the
coordinator more. -/
theorem Supervised.remaining_next (h : t.Supervised) {l : TunAct P} (hen : t.enabled l)
    (hl : l ≠ .create) : l.due.toNat + (t.next l).remaining ≤ t.remaining + 3 * l.sends.toNat := by
  cases l with
  | create => exact absurd rfl hl
  | noticeReader =>
    obtain ⟨e,-,sent,-⟩ := (h.at_selecting hen.1).1.sent hen.2
    have hw := work_map (f := fun w => if w.device = t.created then { w with stop := true } else w)
      (fun w => by split <;> rfl) t.writers
    simp only [remaining,next,sent,hw,hen.1,TunPhase.work,TunAct.due,TunAct.sends,Bool.toNat_true]
    omega
  | noticeWriter =>
    obtain ⟨e,-,sent,-,-⟩ := (h.at_selecting hen.1).2.sent hen.2
    simp only [remaining,next,sent,hen.1,TunPhase.work,TunAct.due,TunAct.sends,List.length_map,
      Bool.toNat_true]
    omega
  | writerBack event =>
    obtain ⟨-,-,-,writer⟩ := h.at_stoppingWriter hen.1
    obtain ⟨e,-,sent,-,-⟩ := writer.sent hen.2
    have hnext : t.next (.writerBack event) =
        finish { t with rxFromCoord := .supervisor } event := by
      simp only [next,sent]
    rw [hnext]
    exact remaining_finish_lt (t := { t with rxFromCoord := .supervisor }) event
      (by rw [hen.1]; rfl)
  | readerBack event =>
    obtain ⟨-,-,-,-,reader⟩ := h.at_stoppingReader hen.1
    obtain ⟨e,-,sent,-⟩ := reader.sent hen.2
    have hnext : t.next (.readerBack event) = t.finish event := by simp only [next,sent]
    rw [hnext]
    exact remaining_finish_lt event (by rw [hen.1]; rfl)
  | stopReader r => exact h.remaining_readerEnds hen.1 _
  | read r result =>
    have hread := h.remaining_readerEnds hen.1
    simp only [next]
    split
    · rename_i e he
      have := hread e
      simp only [TunAct.due,TunAct.sends,Bool.toNat_false]
      omega
    · cases result with
      | ok packet =>
        dsimp only
        split <;> simp [TunAct.due,remaining]
      | error kind => simp [TunAct.due]
  | stopWriter w => exact h.remaining_writerEnds hen.1 _
  | recv w =>
    cases hq : t.fromCoord with
    | nil =>
      simp only [next,hq]
      exact h.remaining_writerEnds hen.1 _
    | cons packet rest =>
      simp only [next,hq]
      have hrest : Supervised { t with fromCoord := rest } := h.frame rfl rfl rfl rfl rfl rfl rfl
      have hset := hrest.remaining_setWriter (w := w) hen.1 (.holding packet)
      simp only [Writer.work,hen.2.1] at hset
      simp only [remaining,hq,List.length_cons] at hset ⊢
      simp only [TunAct.due,TunAct.sends,Bool.toNat_true,Bool.toNat_false]
      omega
  | write w packet =>
    have hset := h.remaining_setWriter hen.1 (.writing packet)
    simp only [Writer.work,hen.2] at hset
    simp only [next,TunAct.due,TunAct.sends,Bool.toNat_true,Bool.toNat_false]
    omega
  | written w packet result =>
    have hset := h.remaining_setWriter hen.1 .receiving
    simp only [Writer.work,hen.2] at hset
    have hends := h.remaining_writerEnds hen.1
    cases result with
    | ok n =>
      simp only [next,TunAct.due,TunAct.sends,Bool.toNat_true,Bool.toNat_false]
      omega
    | error kind =>
      simp only [next,TunAct.due,TunAct.sends,Bool.toNat_true,Bool.toNat_false]
      split
      · rename_i e he
        have := hends e
        omega
      · omega
  | coordSends packet =>
    simp only [remaining,next,TunAct.due,TunAct.sends,List.length_append]
    simp
    omega
  | _ => simp [TunAct.due,next,remaining]

theorem Supervised.bounded (h : t.Supervised) {ls : List (TunAct P)} {t' : Tun P}
    (path : Path system anyStep t ls t') (hnew : .create ∉ ls) :
    ls.countP TunAct.due + t'.remaining ≤ t.remaining + 3 * ls.countP TunAct.sends := by
  induction path with
  | nil t => simp
  | @cons t t' ls l _ hen _ ih =>
    rw [List.mem_cons,not_or] at hnew
    have hstep := h.remaining_next hen (Ne.symm hnew.1)
    have hrest := ih (h.moved (h.moves hen)) hnew.2
    rw [List.countP_cons,List.countP_cons]
    change _ + (t.next l).remaining ≤ _ at hstep
    change _ ≤ (t.next l).remaining + _ at hrest
    cases hd : l.due <;> cases hs : l.sends <;> simp_all <;> omega

omit [DecidableEq P] in
/-- As long as the iteration has not ended, one of its steps is possible once a worker has. -/
theorem Supervised.due_enabled (h : t.Supervised) (told : t.Told)
    (awaited : t.awaits t.created = true) (ended : t.readers = [] ∨ t.writers = []) :
    ∃ l : TunAct P, l.due = true ∧ t.enabled l := by
  cases h with
  | creating phase _ _ _ => simp [awaits,phase] at awaited
  | returned phase _ _ _ => simp [awaits,phase] at awaited
  | selecting phase reader writer =>
    rcases ended with hr | hw
    · cases reader with
      | running loop _ _ _ => simp [loop] at hr
      | ended loop sent own => exact ⟨.noticeReader,rfl,phase,by simp [sent]⟩
    · cases writer with
      | running loop _ _ _ _ => simp [loop] at hw
      | ended loop sent rx own => exact ⟨.noticeWriter,rfl,phase,by simp [sent]⟩
  | @stoppingWriter e phase own readers reader writer =>
    cases writer with
    | ended loop sent rx own => exact ⟨.writerBack e,rfl,phase,by simp [sent]⟩
    | @running w loop device pending rx fresh =>
      have hw : w ∈ t.writers := by rw [loop]; exact List.mem_cons_self
      cases hp : w.phase with
      | receiving => exact ⟨.stopWriter w,rfl,hw,hp,told.writer e phase w hw⟩
      | holding packet => exact ⟨.write w packet,rfl,hw,hp⟩
      | writing packet => exact ⟨.written w packet (.ok 0),rfl,hw,hp⟩
  | @stoppingReader e phase own writers writer rx reader =>
    cases reader with
    | ended loop sent own => exact ⟨.readerBack e,rfl,phase,by simp [sent]⟩
    | @running r loop device pending fresh =>
      have hr : r ∈ t.readers := by rw [loop]; exact List.mem_cons_self
      exact ⟨.stopReader r,rfl,hr,told.reader e phase r hr⟩

theorem Logged.ended {tr : List (TunObs P)} (h : Logged t tr) (supervised : t.Supervised)
    (told : t.Told) {d : Nat} {e : TunEvent} (hends : .readerEnds d e ∈ tr ∨ .writerEnds d e ∈ tr)
    (rest : Resting system (fun _ l => l.due = true) t) : ∃ it ∈ iterations tr, it.device = d := by
  by_contra hnone
  have hopen : t.awaits t.created = true ∧ (t.readers = [] ∨ t.writers = []) := by
    rcases hends with hr | hw
    · rcases (h.readers d e).mp hr with ⟨it,hit,hd,-⟩ | ⟨ha,sent⟩
      · exact absurd ⟨it,hit,hd⟩ hnone
      · refine ⟨eq_of_awaits ha ▸ ha,.inl (List.eq_nil_iff_forall_not_mem.mpr fun r hmem => ?_)⟩
        simp [(supervised.reader hmem).2.2.1] at sent
    · rcases (h.writers d e).mp hw with ⟨it,hit,hd,-⟩ | ⟨ha,sent⟩
      · exact absurd ⟨it,hit,hd⟩ hnone
      · refine ⟨eq_of_awaits ha ▸ ha,.inr (List.eq_nil_iff_forall_not_mem.mpr fun w hmem => ?_)⟩
        simp [(supervised.writer hmem).2.2.1] at sent
  obtain ⟨l,hdue,hen⟩ := supervised.due_enabled told hopen.1 hopen.2
  exact rest l hdue hen

theorem told_run {ok : Tun P → TunAct P → Prop} {capacity : Nat} {tr : List (TunObs P)}
    (run : Run system ok (new capacity) t tr) : t.Told :=
  (run_invariant run (fun t _ => t.Told) (new_told capacity)
    fun _ _ _ _ supervised hm h => h.moved supervised hm).2

end Due

structure Decisions [DecidableEq P] [Buf P] (t : Tun P) (tr : List (TunObs P)) : Prop where
  readers : ∀ it ∈ iterations tr, ∀ e, .readerEnds it.device e ∈ tr ↔ e = it.reader
  writers : ∀ it ∈ iterations tr, ∀ e, .writerEnds it.device e ∈ tr ↔ e = it.writer
  another : ∀ d, .created d ∈ tr → d = 1 ∨
    ∃ it ∈ iterations tr, it.device + 1 = d ∧ it.restarts = true
  returned : t.phase = .returned ↔ ∃ it ∈ iterations tr, it.restarts = false
  right : ∀ it ∈ iterations tr, it.Right ↔ ¬ it.Overlooks
  /-- Once a worker has ended, its iteration has too as soon as no step is due. -/
  ends : ∀ d e, (.readerEnds d e ∈ tr ∨ .writerEnds d e ∈ tr) →
    Resting system (fun _ l => l.due = true) t → ∃ it ∈ iterations tr, it.device = d
  stops : ∀ d, (.readerEnds d .fatalError ∈ tr ∨ .writerEnds d .fatalError ∈ tr) →
    Resting system (fun _ l => l.due = true) t →
    ∃ it ∈ iterations tr, it.device = d ∧ (¬ it.Overlooks → t.phase = .returned)
  bounded : ∀ ls t', Path system anyStep t ls t' → .create ∉ ls →
    ls.countP TunAct.due + t'.remaining ≤ t.remaining + 3 * ls.countP TunAct.sends
  leads : ∀ d, (.readerEnds d .fatalError ∈ tr ∨ .writerEnds d .fatalError ∈ tr) →
    ∃ t' u, Run system (fun _ l => l.due = true) t t' u ∧
      ∃ it ∈ iterations (tr ++ u), it.device = d ∧ (¬ it.Overlooks → t'.phase = .returned)

theorem stops_at_rest [DecidableEq P] [Buf P] {capacity : Nat} {t : Tun P} {tr : List (TunObs P)}
    (run : Run system anyStep (new capacity) t tr) {d : Nat}
    (hends : .readerEnds d .fatalError ∈ tr ∨ .writerEnds d .fatalError ∈ tr)
    (rest : Resting system (fun _ l => l.due = true) t) :
    ∃ it ∈ iterations tr, it.device = d ∧ (¬ it.Overlooks → t.phase = .returned) := by
  obtain ⟨supervised,h⟩ := logged_run run
  obtain ⟨it,hit,rfl⟩ := h.ended supervised (told_run run) hends rest
  refine ⟨it,hit,rfl,fun hnot => h.returned.mpr ⟨it,hit,?_⟩⟩
  have hr := (Iteration.right_iff (h.decided it hit).1 (h.decided it hit).2).mpr hnot
  rw [h.readers.only h.distinct hit (h.past it hit).2,
    h.writers.only h.distinct hit (h.past it hit).2] at hends
  by_contra hgoes
  obtain ⟨-,hreader,hwriter⟩ := hr.mp (by simpa using hgoes)
  rcases hends with hf | hf
  · exact hreader hf.symm
  · exact hwriter hf.symm

theorem due_descends [DecidableEq P] [Buf P] :
    Descends (system (P := P)) (fun _ l => l.due = true) Supervised remaining where
  keeps _ _ h _ hen := h.moved (h.moves hen)
  lowers t l h hdue hen := by
    have hne : l ≠ .create := fun hl => by simp [hl,TunAct.due] at hdue
    have hsends : l.sends = false := by
      cases l <;> first | rfl | simp [TunAct.due] at hdue
    have hstep := h.remaining_next hen hne
    simp only [hdue,hsends,Bool.toNat_true,Bool.toNat_false] at hstep
    change (t.next l).remaining < t.remaining
    omega

/-- The loop goes on exactly when it should, but for a fatal error that was not the end
noticed first. -/
theorem fatal_errors_stop_tun [DecidableEq P] [Buf P] {capacity : Nat} {t : Tun P}
    {tr : List (TunObs P)} (run : Run system anyStep (new capacity) t tr) : Decisions t tr := by
  obtain ⟨supervised,h⟩ := logged_run run
  refine ⟨fun it hit => h.readers.only h.distinct hit (h.past it hit).2,
    fun it hit => h.writers.only h.distinct hit (h.past it hit).2,h.another,h.returned,
    fun it hit => Iteration.right_iff (h.decided it hit).1 (h.decided it hit).2,
    fun d e hends rest => h.ended supervised (told_run run) hends rest,
    fun d hends rest => stops_at_rest run hends rest,
    fun ls t' path hnew => supervised.bounded path hnew,fun d hends => ?_⟩
  -- whatever due steps are taken, they come to an end, and then the iteration has ended
  obtain ⟨t',u,run',rest,-⟩ := due_descends.rests supervised
  have whole := run.trans (run'.mono fun _ _ _ => trivial)
  exact ⟨t',u,run',stops_at_rest whole (hends.imp (List.mem_append_left u) (List.mem_append_left u))
    rest⟩

/-- The device of the reader reports that the permission is denied, and a write finds the
pipe broken: the end of the writer is noticed first, and another device is created. -/
theorem fatal_error_overlooked : ∃ (t : Tun (List UInt8)) (tr : List _),
    Run system anyStep (new 8192) t tr ∧ .readerEnds 1 .fatalError ∈ tr ∧ .created 2 ∈ tr ∧
      ∃ it ∈ iterations tr, it.device = 1 ∧ ¬ it.Right := by
  let writer : Writer (List UInt8) := ⟨1,false,.receiving⟩
  let overlooking : Iteration := ⟨1,.writer,.fatalError,.reconnectRequired,true⟩
  obtain ⟨t,tr,run,h⟩ := @exec_reaches _ _ _ (system (P := List UInt8)) anyStep _ _ (new 8192)
    [.create,.coordSends [1],.recv writer,.write { writer with phase := .holding [1] } [1],
      .written { writer with phase := .writing [1] } [1] (.error .brokenPipe),
      .read ⟨1,false⟩ (.error .permissionDenied),.noticeWriter,.readerBack .reconnectRequired,
      .create]
    (fun r => decide (.readerEnds 1 .fatalError ∈ r.2 ∧ .created 2 ∈ r.2 ∧
      overlooking ∈ iterations r.2)) (by decide)
  obtain ⟨hends,hcreated,hit⟩ := of_decide_eq_true h
  refine ⟨t,tr,run,hends,hcreated,overlooking,hit,rfl,fun hright => ?_⟩
  exact absurd rfl (hright.mp rfl).2.1

/-- The same two ends, noticed the other way round. -/
theorem fatal_errors_stop_tun_noticed : ∃ (t : Tun (List UInt8)) (tr : List _),
    Run system anyStep (new 8192) t tr ∧ t.phase = .returned ∧ Decisions t tr := by
  let writer : Writer (List UInt8) := ⟨1,false,.receiving⟩
  obtain ⟨t,tr,run,h⟩ := @exec_reaches _ _ _ (system (P := List UInt8)) anyStep _ _ (new 8192)
    [.create,.coordSends [1],.recv writer,.write { writer with phase := .holding [1] } [1],
      .written { writer with phase := .writing [1] } [1] (.error .brokenPipe),
      .read ⟨1,false⟩ (.error .permissionDenied),.noticeReader,.writerBack .fatalError]
    (fun r => decide (r.1.phase = .returned)) (by decide)
  exact ⟨t,tr,run,of_decide_eq_true h,fatal_errors_stop_tun run⟩

end Tun
end MeshNetwork
