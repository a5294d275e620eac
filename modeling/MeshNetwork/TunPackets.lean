import MeshNetwork.TunSteps

set_option autoImplicit false

namespace MeshNetwork
open Runs

namespace TunObs
variable {P : Type}

def sent? : TunObs P → Option P
  | .sent packet => some packet
  | _ => none

def taken? : TunObs P → Option P
  | .taken _ packet => some packet
  | _ => none

def passed? : TunObs P → Option P
  | .passed _ packet => some packet
  | _ => none

def written? : TunObs P → Option (P × Except ErrorKind Nat)
  | .written _ packet result => some (packet,result)
  | _ => none

end TunObs

def WriterPhase.held? {P : Type} : WriterPhase P → Option P
  | .holding packet => some packet
  | _ => none

def WriterPhase.written? {P : Type} : WriterPhase P → Option P
  | .writing packet => some packet
  | _ => none

namespace Tun
variable {P : Type}

def inHand (t : Tun P) : List P := t.writers.filterMap fun w => w.phase.held?

def beingWritten (t : Tun P) : List P := t.writers.filterMap fun w => w.phase.written?

@[simp] theorem inHand_single {t : Tun P} {w : Writer P} (loop : t.writers = [w]) :
    t.inHand = w.phase.held?.toList := by
  cases h : w.phase.held? <;> simp [inHand,loop,h]

@[simp] theorem beingWritten_single {t : Tun P} {w : Writer P} (loop : t.writers = [w]) :
    t.beingWritten = w.phase.written?.toList := by
  cases h : w.phase.written? <;> simp [beingWritten,loop,h]

theorem inHand_none {t : Tun P} (writers : t.writers = []) : t.inHand = [] := by
  simp [inHand,writers]

theorem beingWritten_none {t : Tun P} (writers : t.writers = []) : t.beingWritten = [] := by
  simp [beingWritten,writers]

/-- Every packet taken from the channel is passed to a write, in order and once; every
write has a result of its own; and what has not been taken is still in the channel. -/
structure Accounted (t : Tun P) (tr : List (TunObs P)) : Prop where
  passed : tr.filterMap TunObs.taken? = tr.filterMap TunObs.passed? ++ t.inHand
  results : tr.filterMap TunObs.passed? =
    (tr.filterMap TunObs.written?).map Prod.fst ++ t.beingWritten
  waiting : t.phase ≠ .returned →
    tr.filterMap TunObs.sent? = tr.filterMap TunObs.taken? ++ t.fromCoord

theorem Accounted.quiet {t t' : Tun P} {tr os : List (TunObs P)} (h : Accounted t tr)
    (writers : t'.inHand = t.inHand ∧ t'.beingWritten = t.beingWritten)
    (waiting : t'.phase ≠ .returned → t.phase ≠ .returned ∧ t'.fromCoord = t.fromCoord)
    (silent : os.filterMap TunObs.taken? = [] ∧ os.filterMap TunObs.passed? = [] ∧
      os.filterMap TunObs.written? = [] ∧ os.filterMap TunObs.sent? = []) :
    Accounted t' (tr ++ os) := by
  obtain ⟨htaken,hpassed,hwritten,hsent⟩ := silent
  refine ⟨?_,?_,fun hp => ?_⟩
  · simp only [List.filterMap_append,htaken,hpassed,List.append_nil,writers.1]
    exact h.passed
  · simp only [List.filterMap_append,hwritten,hpassed,List.append_nil,writers.2]
    exact h.results
  · simp only [List.filterMap_append,htaken,hsent,List.append_nil,(waiting hp).2]
    exact h.waiting (waiting hp).1

theorem Supervised.not_returned {t : Tun P} (h : t.Supervised) {w : Writer P}
    (loop : t.writers = [w]) : t.phase ≠ .returned := by
  intro hp
  cases h with
  | returned phase readers writers rx => simp [loop] at writers
  | creating phase _ _ _ | selecting phase _ _ | stoppingWriter phase _ _ _ _
  | stoppingReader phase _ _ _ _ _ => simp [hp] at phase

theorem Accounted.writer {t t' : Tun P} {tr : List (TunObs P)} {o : TunObs P} {w w' : Writer P}
    (h : Accounted t tr) (loop : t.writers = [w]) (loop' : t'.writers = [w'])
    (phase : t.phase ≠ .returned)
    (passed : w.phase.held?.toList ++ [o].filterMap TunObs.taken? =
      [o].filterMap TunObs.passed? ++ w'.phase.held?.toList)
    (results : w.phase.written?.toList ++ [o].filterMap TunObs.passed? =
      ([o].filterMap TunObs.written?).map Prod.fst ++ w'.phase.written?.toList)
    (waiting : t.fromCoord ++ [o].filterMap TunObs.sent? =
      [o].filterMap TunObs.taken? ++ t'.fromCoord) :
    Accounted t' (tr ++ [o]) := by
  have hpassed := h.passed
  have hresults := h.results
  rw [inHand_single loop] at hpassed
  rw [beingWritten_single loop] at hresults
  refine ⟨?_,?_,fun _ => ?_⟩
  · rw [List.filterMap_append,List.filterMap_append,hpassed,inHand_single loop',
      List.append_assoc,passed,← List.append_assoc]
  · rw [List.filterMap_append,List.filterMap_append,List.map_append,hresults,
      beingWritten_single loop',List.append_assoc,results,← List.append_assoc]
  · rw [List.filterMap_append,List.filterMap_append,h.waiting phase,List.append_assoc,waiting,
      ← List.append_assoc]

theorem Accounted.moved {t t' : Tun P} {tr os : List (TunObs P)} (hs : t.Supervised)
    (m : t.Moves t' os) (h : Accounted t tr) : Accounted t' (tr ++ os) := by
  cases m with
  | create phase readers writers =>
    refine h.quiet ⟨?_,?_⟩ (fun _ => ⟨by simp [phase],rfl⟩) ⟨rfl,rfl,rfl,rfl⟩
    · rw [inHand_none writers]
      rfl
    · rw [beingWritten_none writers]
      rfl
  | noticeReader phase own readers sent =>
    refine h.quiet ⟨?_,?_⟩ (fun _ => ⟨by simp [phase],rfl⟩) ⟨rfl,rfl,rfl,rfl⟩
    · simp only [inHand,List.filterMap_map]
      congr 1
      funext w
      simp only [Function.comp_apply]
      split <;> rfl
    · simp only [beingWritten,List.filterMap_map]
      congr 1
      funext w
      simp only [Function.comp_apply]
      split <;> rfl
  | noticeWriter phase own writers sent =>
    exact h.quiet ⟨rfl,rfl⟩ (fun _ => ⟨by simp [phase],rfl⟩) ⟨rfl,rfl,rfl,rfl⟩
  | restart readers writers reader writer phase =>
    refine h.quiet ⟨rfl,rfl⟩ (fun _ => ⟨fun hp => ?_,rfl⟩) ⟨rfl,rfl,rfl,rfl⟩
    rcases phase with ⟨-,hphase,-⟩ | ⟨-,hphase,-⟩ <;> simp [hp] at hphase
  | stop readers writers reader writer phase =>
    exact h.quiet ⟨rfl,rfl⟩ (fun hp => absurd rfl hp) ⟨rfl,rfl,rfl,rfl⟩
  | readerEnds loop device awaited pending own =>
    exact h.quiet ⟨rfl,rfl⟩ (fun hp => ⟨hp,rfl⟩) ⟨rfl,rfl,rfl,rfl⟩
  | writerTakes loop phase queue =>
    exact h.writer loop rfl (hs.not_returned loop) (by rw [phase]; rfl) (by rw [phase]; rfl)
      (by rw [queue]; exact List.append_nil _)
  | writerPasses loop phase =>
    exact h.writer loop rfl (hs.not_returned loop) (by rw [phase]; rfl) (by rw [phase]; rfl)
      (List.append_nil _)
  | writerGoesOn loop phase =>
    exact h.writer loop rfl (hs.not_returned loop) (by rw [phase]; rfl) (by rw [phase]; rfl)
      (List.append_nil _)
  | @writerEnds w e os loop device awaited pending own idle =>
    have hret := hs.not_returned loop
    rcases idle with ⟨phase,rfl⟩ | ⟨packet,kind,phase,rfl⟩
    · refine h.quiet ⟨?_,?_⟩ (fun _ => ⟨hret,rfl⟩) ⟨rfl,rfl,rfl,rfl⟩
      · rw [inHand_single loop,phase]
        rfl
      · rw [beingWritten_single loop,phase]
        rfl
    · -- the result of the write that failed, and then the end
      have hdone : Accounted { t with writers := [{ w with phase := .receiving }] }
          (tr ++ [.written w.device packet (.error kind)]) :=
        h.writer loop rfl hret (by rw [phase]; rfl) (by rw [phase]; rfl) (List.append_nil _)
      rw [← List.append_assoc]
      exact hdone.quiet ⟨rfl,rfl⟩ (fun _ => ⟨hret,rfl⟩) ⟨rfl,rfl,rfl,rfl⟩
  | sends packet rx =>
    refine ⟨?_,?_,fun hp => ?_⟩
    · rw [List.filterMap_append,List.filterMap_append]
      change _ ++ [] = (_ ++ []) ++ t.inHand
      rw [List.append_nil,List.append_nil]
      exact h.passed
    · rw [List.filterMap_append,List.filterMap_append]
      change _ ++ [] = (_ ++ []).map Prod.fst ++ t.beingWritten
      rw [List.append_nil,List.append_nil]
      exact h.results
    · rw [List.filterMap_append,List.filterMap_append]
      change _ ++ [packet] = (_ ++ []) ++ (t.fromCoord ++ [packet])
      rw [List.append_nil,h.waiting hp,List.append_assoc]
  | quiet readHalves writeHalves toCoord coordOpen =>
    exact h.quiet ⟨rfl,rfl⟩ (fun hp => ⟨hp,rfl⟩) ⟨rfl,rfl,rfl,rfl⟩

theorem Supervised.single {t : Tun P} (h : t.Supervised) :
    t.readers.length ≤ 1 ∧ t.writers.length ≤ 1 := by
  constructor
  · cases hl : t.readers with
    | nil => exact Nat.zero_le 1
    | cons r rest =>
      rw [← hl,(h.reader (r := r) (by rw [hl]; exact List.mem_cons_self)).1]
      exact Nat.le_refl 1
  · cases hl : t.writers with
    | nil => exact Nat.zero_le 1
    | cons w rest =>
      rw [← hl,(h.writer (w := w) (by rw [hl]; exact List.mem_cons_self)).1]
      exact Nat.le_refl 1

theorem Supervised.no_writers {t : Tun P} (h : t.Supervised)
    (hp : t.phase = .creating ∨ t.phase = .returned) : t.writers = [] := by
  rcases hp with hp | hp
  · exact (h.at_creating hp).2.1
  · cases hl : t.writers with
    | nil => rfl
    | cons w rest =>
      have hw := (h.writer (w := w) (by rw [hl]; exact List.mem_cons_self)).1
      exact absurd hp (h.not_returned hw)

/-- The supervisor loses and repeats no packet: those written to the devices are those
taken from the channel, and between two devices nothing is in anybody's hand. -/
structure Lossless (t : Tun P) (tr : List (TunObs P)) : Prop extends Accounted t tr where
  settled : t.phase = .creating ∨ t.phase = .returned →
    tr.filterMap TunObs.taken? = tr.filterMap TunObs.passed? ∧
      tr.filterMap TunObs.passed? = (tr.filterMap TunObs.written?).map Prod.fst
  handedBack : t.phase = .creating → t.rxFromCoord = .supervisor
  single : t.readers.length ≤ 1 ∧ t.writers.length ≤ 1

theorem packets_survive_reconnects [DecidableEq P] [Buf P] {capacity : Nat} {t : Tun P}
    {tr : List (TunObs P)} (run : Run system anyStep (new capacity) t tr) : Lossless t tr := by
  obtain ⟨hs,ha⟩ := run_invariant run Accounted ⟨rfl,rfl,fun _ => rfl⟩
    fun _ _ _ _ hs hm h => h.moved hs hm
  refine ⟨ha,fun hp => ?_,fun hp => (hs.at_creating hp).2.2,hs.single⟩
  have hnone := hs.no_writers hp
  have hpassed := ha.passed
  have hresults := ha.results
  rw [inHand_none hnone,List.append_nil] at hpassed
  rw [beingWritten_none hnone,List.append_nil] at hresults
  exact ⟨hpassed,hresults⟩

/-- The write of the first packet finds the device gone, and the second packet is written to
the device that is created next. -/
theorem packets_survive_reconnects_pipe : ∃ (t : Tun (List UInt8)) (tr : List _),
    Run system anyStep (new 8192) t tr ∧ t.created = 2 ∧
      tr.filterMap TunObs.written? = [([1],.error .brokenPipe),([2],.ok 1)] ∧ Lossless t tr := by
  let reader : Reader := ⟨1,true⟩
  let writer (device : Nat) : Writer (List UInt8) := ⟨device,false,.receiving⟩
  obtain ⟨t,tr,run,h⟩ := @exec_reaches _ _ _ (system (P := List UInt8)) anyStep _ _ (new 8192)
    [.create,.coordSends [1],.coordSends [2],.recv (writer 1),
      .write { writer 1 with phase := .holding [1] } [1],
      .written { writer 1 with phase := .writing [1] } [1] (.error .brokenPipe),.noticeWriter,
      .stopReader reader,.readerBack .reconnectRequired,.writerReturns 1,.readerReturns 1,.create,
      .recv (writer 2),.write { writer 2 with phase := .holding [2] } [2],
      .written { writer 2 with phase := .writing [2] } [2] (.ok 1)]
    (fun r => decide (r.1.created = 2 ∧
      r.2.filterMap TunObs.written? = [([1],.error .brokenPipe),([2],.ok 1)])) (by decide)
  obtain ⟨hcreated,hwritten⟩ := of_decide_eq_true h
  exact ⟨t,tr,run,hcreated,hwritten,packets_survive_reconnects run⟩

end Tun
end MeshNetwork
