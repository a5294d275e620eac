import Mathlib.Data.List.Nodup
import MeshNetwork.TunSteps

set_option autoImplicit false

namespace MeshNetwork
open Runs

namespace Iteration

def noticed (it : Iteration) : TunEvent :=
  match it.first with
  | .reader => it.reader
  | .writer => it.writer

def other (it : Iteration) : TunEvent :=
  match it.first with
  | .reader => it.writer
  | .writer => it.reader

def Right (it : Iteration) : Prop :=
  it.restarts = true ↔ (it.reader = .reconnectRequired ∨ it.writer = .reconnectRequired) ∧
    it.reader ≠ .fatalError ∧ it.writer ≠ .fatalError

/-- The worker whose end is awaited after a reconnect was noticed has met a fatal error. -/
def Overlooks (it : Iteration) : Prop :=
  it.noticed = .reconnectRequired ∧ it.other = .fatalError

theorem right_iff {it : Iteration} (restarts : it.restarts = Tun.restarts it.noticed)
    (own : it.noticed.Own) : it.Right ↔ ¬ it.Overlooks := by
  unfold Right
  rw [restarts]
  cases hf : it.first with
  | reader =>
    simp only [Overlooks,noticed,other,hf] at own ⊢
    rcases own with hr | hr
    · simp [hr,Tun.restarts]
    · simp [hr,Tun.restarts]
  | writer =>
    simp only [Overlooks,noticed,other,hf] at own ⊢
    rcases own with hw | hw
    · simp [hw,Tun.restarts]
    · simp [hw,Tun.restarts]

end Iteration

def iterations {P : Type} (tr : List (TunObs P)) : List Iteration :=
  tr.filterMap fun
    | .iteration it => some it
    | _ => none

theorem iterations_append {P : Type} (tr os : List (TunObs P)) :
    iterations (tr ++ os) = iterations tr ++ iterations os :=
  List.filterMap_append

namespace Tun
variable {P : Type}

def EndsOf (t : Tun P) (tr : List (TunObs P)) (ends : Nat → TunEvent → TunObs P)
    (event : Iteration → TunEvent) (endData : EndData) : Prop :=
  ∀ d e, ends d e ∈ tr ↔ (∃ it ∈ iterations tr, it.device = d ∧ event it = e) ∨
    (t.awaits d = true ∧ endData = .sent e)

structure Logged (t : Tun P) (tr : List (TunObs P)) : Prop where
  decided : ∀ it ∈ iterations tr, it.restarts = restarts it.noticed ∧ it.noticed.Own
  past : ∀ it ∈ iterations tr, it.device ≤ t.created ∧ t.awaits it.device = false
  distinct : ((iterations tr).map Iteration.device).Nodup
  readers : EndsOf t tr .readerEnds Iteration.reader t.endDataReader
  writers : EndsOf t tr .writerEnds Iteration.writer t.endDataWriter
  creating : t.phase = .creating → t.created = 0 ∨
    ∃ it ∈ iterations tr, it.device = t.created ∧ it.restarts = true
  another : ∀ d, .created d ∈ tr → d = 1 ∨
    ∃ it ∈ iterations tr, it.device + 1 = d ∧ it.restarts = true
  returned : t.phase = .returned ↔ ∃ it ∈ iterations tr, it.restarts = false

theorem EndsOf.keeps {t t' : Tun P} {tr os : List (TunObs P)} {ends : Nat → TunEvent → TunObs P}
    {event : Iteration → TunEvent} {endData endData' : EndData} (h : EndsOf t tr ends event endData)
    (silent : iterations os = []) (awaits : t'.awaits = t.awaits) (same : endData' = endData)
    (none : ∀ d e, ends d e ∉ os) : EndsOf t' (tr ++ os) ends event endData' := by
  intro d e
  rw [iterations_append,silent,List.append_nil,awaits,same,List.mem_append,or_iff_left (none d e)]
  exact h d e

theorem Logged.goesOn {t t' : Tun P} {tr os : List (TunObs P)} (h : Logged t tr)
    (created : t'.created = t.created) (awaits : t'.awaits = t.awaits)
    (creating : t'.phase = .creating → t.phase = .creating)
    (returned : t'.phase = .returned ↔ t.phase = .returned)
    (silent : iterations os = []) (creates : ∀ d, .created d ∉ os)
    (readers : EndsOf t' (tr ++ os) .readerEnds Iteration.reader t'.endDataReader)
    (writers : EndsOf t' (tr ++ os) .writerEnds Iteration.writer t'.endDataWriter) :
    Logged t' (tr ++ os) := by
  have hits : iterations (tr ++ os) = iterations tr := by
    rw [iterations_append,silent,List.append_nil]
  refine ⟨?_,?_,?_,readers,writers,fun hp => ?_,fun d hd => ?_,?_⟩
  · rw [hits]
    exact h.decided
  · rw [hits,created,awaits]
    exact h.past
  · rw [hits]
    exact h.distinct
  · rw [hits,created]
    exact h.creating (creating hp)
  · rw [List.mem_append,or_iff_left (creates d)] at hd
    rw [hits]
    exact h.another d hd
  · rw [hits,returned]
    exact h.returned

theorem Logged.quiet {t t' : Tun P} {tr os : List (TunObs P)} (h : Logged t tr)
    (created : t'.created = t.created) (awaits : t'.awaits = t.awaits)
    (endDataReader : t'.endDataReader = t.endDataReader)
    (endDataWriter : t'.endDataWriter = t.endDataWriter)
    (creating : t'.phase = .creating → t.phase = .creating)
    (returned : t'.phase = .returned ↔ t.phase = .returned)
    (silent : iterations os = []) (ends : ∀ d e, .readerEnds d e ∉ os ∧ .writerEnds d e ∉ os)
    (creates : ∀ d, .created d ∉ os) : Logged t' (tr ++ os) :=
  h.goesOn created awaits creating returned silent creates
    (h.readers.keeps silent awaits endDataReader fun d e => (ends d e).1)
    (h.writers.keeps silent awaits endDataWriter fun d e => (ends d e).2)

theorem eq_of_awaits {t : Tun P} {d : Nat} (h : t.awaits d = true) : d = t.created := by
  unfold awaits at h
  split at h
  · simp at h
  · simp at h
  all_goals exact of_decide_eq_true h

theorem EndsOf.sends {t t' : Tun P} {tr os : List (TunObs P)} {ends : Nat → TunEvent → TunObs P}
    {event : Iteration → TunEvent} {endData endData' : EndData} {e : TunEvent}
    (h : EndsOf t tr ends event endData) (silent : iterations os = [])
    (awaits : t'.awaits = t.awaits) (awaited : t.awaits t.created = true)
    (pending : endData = .pending) (sent : endData' = .sent e)
    (mem : ∀ d e', ends d e' ∈ os ↔ d = t.created ∧ e' = e) :
    EndsOf t' (tr ++ os) ends event endData' := by
  intro d e'
  rw [iterations_append,silent,List.append_nil,List.mem_append,h d e',mem,awaits,pending,sent]
  constructor
  · rintro ((hit | ⟨-,hp⟩) | ⟨rfl,rfl⟩)
    · exact .inl hit
    · simp at hp
    · exact .inr ⟨awaited,rfl⟩
  · rintro (hit | ⟨ha,hs⟩)
    · exact .inl (.inl hit)
    · simp only [EndData.sent.injEq] at hs
      exact .inr ⟨eq_of_awaits ha,hs.symm⟩

theorem EndsOf.closes {t t' : Tun P} {tr : List (TunObs P)} {ends : Nat → TunEvent → TunObs P}
    {event : Iteration → TunEvent} {endData endData' : EndData} {it : Iteration}
    (h : EndsOf t tr ends event endData) (awaited : t.awaits t.created = true)
    (closed : ∀ d, t'.awaits d = false) (device : it.device = t.created)
    (sent : endData = .sent (event it)) (other : ∀ d e, ends d e ≠ .iteration it) :
    EndsOf t' (tr ++ [.iteration it]) ends event endData' := by
  intro d e
  have hits : iterations (tr ++ [.iteration it]) = iterations tr ++ [it] := iterations_append tr _
  rw [hits,List.mem_append,List.mem_singleton,or_iff_left (other d e),h d e,closed,sent]
  constructor
  · rintro (⟨x,hx,hd,he⟩ | ⟨ha,hs⟩)
    · exact .inl ⟨x,List.mem_append_left _ hx,hd,he⟩
    · simp only [EndData.sent.injEq] at hs
      exact .inl ⟨it,List.mem_append_right _ List.mem_cons_self,device.trans (eq_of_awaits ha).symm,hs⟩
  · rintro (⟨x,hx,hd,he⟩ | ⟨ha,-⟩)
    · rcases List.mem_append.mp hx with hold | hnew
      · exact .inl ⟨x,hold,hd,he⟩
      · rw [List.mem_singleton.mp hnew] at hd he
        rw [← hd,device,he]
        exact .inr ⟨awaited,rfl⟩
    · simp at ha

theorem Logged.closes {t t' : Tun P} {tr : List (TunObs P)} {it : Iteration} (h : Logged t tr)
    (awaited : t.awaits t.created = true) (created : t'.created = t.created)
    (device : it.device = t.created) (reader : t.endDataReader = .sent it.reader)
    (writer : t.endDataWriter = .sent it.writer) (own : it.noticed.Own)
    (decided : it.restarts = restarts it.noticed)
    (phase : t'.phase = if it.restarts then .creating else .returned) :
    Logged t' (tr ++ [.iteration it]) := by
  have hits : iterations (tr ++ [.iteration it]) = iterations tr ++ [it] := iterations_append tr _
  have closed : ∀ d, t'.awaits d = false := fun d => by
    unfold awaits
    rw [phase]
    cases it.restarts <;> rfl
  have hopen : t.phase ≠ .returned := fun hp => by simp [awaits,hp] at awaited
  refine ⟨fun x hx => ?_,fun x hx => ?_,?_,?_,?_,fun hp => ?_,fun d hd => ?_,?_⟩
  · rw [hits] at hx
    rcases List.mem_append.mp hx with hold | hnew
    · exact h.decided x hold
    · rw [List.mem_singleton.mp hnew]
      exact ⟨decided,own⟩
  · rw [hits] at hx
    rw [created]
    rcases List.mem_append.mp hx with hold | hnew
    · exact ⟨(h.past x hold).1,closed _⟩
    · rw [List.mem_singleton.mp hnew,device]
      exact ⟨Nat.le_refl _,closed _⟩
  · rw [hits,List.map_append,List.nodup_append]
    refine ⟨h.distinct,List.nodup_singleton _,fun d hd d' hd' heq => ?_⟩
    obtain ⟨x,hx,rfl⟩ := List.mem_map.mp hd
    rw [List.map_singleton,List.mem_singleton,device] at hd'
    have hpast := (h.past x hx).2
    rw [heq,hd',awaited] at hpast
    simp at hpast
  · exact h.readers.closes awaited closed device reader (by simp)
  · exact h.writers.closes awaited closed device writer (by simp)
  · rw [hits,created]
    have hr : it.restarts = true := by
      by_contra hr
      simp [phase,hr] at hp
    exact .inr ⟨it,List.mem_append_right _ List.mem_cons_self,device,hr⟩
  · rw [hits]
    rcases List.mem_append.mp hd with hold | hnew
    · rcases h.another d hold with h1 | ⟨x,hx,hdx⟩
      · exact .inl h1
      · exact .inr ⟨x,List.mem_append_left _ hx,hdx⟩
    · simp at hnew
  · rw [hits,phase]
    constructor
    · intro hp
      refine ⟨it,List.mem_append_right _ List.mem_cons_self,?_⟩
      by_contra hr
      simp [hr] at hp
    · rintro ⟨x,hx,hr⟩
      rcases List.mem_append.mp hx with hold | hnew
      · exact absurd (h.returned.mpr ⟨x,hold,hr⟩) hopen
      · rw [List.mem_singleton.mp hnew] at hr
        simp [hr]

theorem Logged.opens {t t' : Tun P} {tr : List (TunObs P)} (h : Logged t tr)
    (idle : t.phase = .creating) (created : t'.created = t.created + 1)
    (phase : t'.phase = .selecting) (reader : t'.endDataReader = .pending)
    (writer : t'.endDataWriter = .pending) :
    Logged t' (tr ++ [.created (t.created + 1)]) := by
  have hits : iterations (tr ++ [.created (t.created + 1)]) = iterations tr :=
    (iterations_append tr _).trans (List.append_nil _)
  have hclosed : ∀ d, t.awaits d = false := fun d => by simp [awaits,idle]
  refine ⟨?_,fun x hx => ?_,?_,fun d e => ?_,fun d e => ?_,fun hp => ?_,fun d hd => ?_,?_⟩
  · rw [hits]
    exact h.decided
  · rw [hits] at hx
    have hle := (h.past x hx).1
    refine ⟨by omega,?_⟩
    simp only [awaits,phase,created,decide_eq_false_iff_not]
    omega
  · rw [hits]
    exact h.distinct
  · rw [hits,List.mem_append,h.readers d e,hclosed,reader]
    simp
  · rw [hits,List.mem_append,h.writers d e,hclosed,writer]
    simp
  · simp [phase] at hp
  · rw [hits]
    rcases List.mem_append.mp hd with hold | hnew
    · exact h.another d hold
    · simp only [List.mem_singleton,TunObs.created.injEq] at hnew
      rcases h.creating idle with h0 | ⟨x,hx,hdx,hr⟩
      · exact .inl (by omega)
      · exact .inr ⟨x,hx,by omega,hr⟩
  · rw [hits,← h.returned,phase,idle]
    simp

theorem Logged.moved {t t' : Tun P} {tr os : List (TunObs P)} (m : t.Moves t' os)
    (h : Logged t tr) : Logged t' (tr ++ os) := by
  cases m with
  | create phase readers writers => exact h.opens phase rfl rfl rfl rfl
  | noticeReader phase own readers sent =>
    refine h.quiet rfl ?_ rfl rfl (by simp) (by simp [phase]) rfl (by simp) (by simp)
    funext d
    simp [awaits,phase]
  | noticeWriter phase own writers sent =>
    refine h.quiet rfl ?_ rfl rfl (by simp) (by simp [phase]) rfl (by simp) (by simp)
    funext d
    simp [awaits,phase]
  | restart readers writers reader writer phase =>
    rcases phase with ⟨rfl,hphase,rfl⟩ | ⟨rfl,hphase,rfl⟩
    · exact h.closes (by simp [awaits,hphase]) rfl rfl reader writer (.inl rfl) rfl rfl
    · exact h.closes (by simp [awaits,hphase]) rfl rfl reader writer (.inl rfl) rfl rfl
  | stop readers writers reader writer phase =>
    rcases phase with ⟨rfl,hphase,rfl⟩ | ⟨rfl,hphase,rfl⟩
    · exact h.closes (by simp [awaits,hphase]) rfl rfl reader writer (.inr rfl) rfl rfl
    · exact h.closes (by simp [awaits,hphase]) rfl rfl reader writer (.inr rfl) rfl rfl
  | readerEnds loop device awaited pending own =>
    exact h.goesOn rfl rfl id Iff.rfl rfl (by simp)
      (h.readers.sends rfl rfl awaited pending rfl (by simp))
      (h.writers.keeps rfl rfl rfl (by simp))
  | @writerEnds w e os loop device awaited pending own idle =>
    rcases idle with ⟨-,rfl⟩ | ⟨packet,kind,-,rfl⟩
    · exact h.goesOn rfl rfl id Iff.rfl rfl (by simp) (h.readers.keeps rfl rfl rfl (by simp))
        (h.writers.sends rfl rfl awaited pending rfl (by simp))
    · exact h.goesOn rfl rfl id Iff.rfl rfl (by simp) (h.readers.keeps rfl rfl rfl (by simp))
        (h.writers.sends rfl rfl awaited pending rfl (by simp))
  | writerTakes loop phase queue =>
    exact h.quiet rfl rfl rfl rfl id Iff.rfl rfl (by simp) (by simp)
  | writerPasses loop phase => exact h.quiet rfl rfl rfl rfl id Iff.rfl rfl (by simp) (by simp)
  | writerGoesOn loop phase => exact h.quiet rfl rfl rfl rfl id Iff.rfl rfl (by simp) (by simp)
  | sends packet rx => exact h.quiet rfl rfl rfl rfl id Iff.rfl rfl (by simp) (by simp)
  | quiet readHalves writeHalves toCoord coordOpen =>
    exact h.quiet rfl rfl rfl rfl id Iff.rfl rfl (by simp) (by simp)

theorem new_logged (capacity : Nat) : Logged (new capacity : Tun P) [] where
  decided := by simp [iterations]
  past := by simp [iterations]
  distinct := List.nodup_nil
  readers := fun d e => by simp [iterations,new]
  writers := fun d e => by simp [iterations,new]
  creating := fun _ => .inl rfl
  another := by simp
  returned := by simp [iterations,new]

theorem Logged.fatal {t : Tun P} {tr : List (TunObs P)} (h : Logged t tr) {it : Iteration}
    (hit : it ∈ iterations tr) (left : it.restarts = false) : it.noticed = .fatalError := by
  obtain ⟨hrestarts,own⟩ := h.decided it hit
  rcases own with hreconnects | hfatal
  · rw [left,hreconnects] at hrestarts
    simp [restarts] at hrestarts
  · exact hfatal

theorem logged_run [DecidableEq P] [Buf P] {ok : Tun P → TunAct P → Prop} {capacity : Nat}
    {t : Tun P} {tr : List (TunObs P)} (run : Run system ok (new capacity) t tr) :
    t.Supervised ∧ Logged t tr :=
  run_invariant run Logged (new_logged capacity) fun _ _ _ _ _ hm h => h.moved hm

/-- The iteration after which `run` has returned is the last one. -/
theorem last_leaves [DecidableEq P] [Buf P] {ok : Tun P → TunAct P → Prop} {capacity : Nat}
    {t : Tun P} {tr : List (TunObs P)} (run : Run system ok (new capacity) t tr)
    (returned : t.phase = .returned) :
    ∃ it, (iterations tr).getLast? = some it ∧ it.restarts = false := by
  have hinv := (run_invariant run
    (fun t tr => Logged t tr ∧ ∀ it ∈ (iterations tr).dropLast, it.restarts = true)
    ⟨new_logged capacity,by simp [iterations]⟩ fun t t' tr os _ hm h => ⟨h.1.moved hm,?_⟩).2
  · obtain ⟨it,hit,left⟩ := hinv.1.returned.mp returned
    have hne := List.ne_nil_of_mem hit
    have hsplit := List.dropLast_append_getLast hne
    rw [← hsplit,List.mem_append,List.mem_singleton] at hit
    rcases hit with hearlier | rfl
    · simp [hinv.2 it hearlier] at left
    · exact ⟨_,List.getLast?_eq_some_getLast hne,left⟩
  · obtain ⟨h,hlast⟩ := h
    have going : t.phase ≠ .returned → ∀ it ∈ iterations tr, it.restarts = true := by
      intro hp it hit
      by_contra hr
      exact hp (h.returned.mpr ⟨it,hit,by simpa using hr⟩)
    have closes : ∀ it, t.phase ≠ .returned →
        ∀ x ∈ (iterations (tr ++ [.iteration it])).dropLast, x.restarts = true := by
      intro it hp
      have hits : iterations (tr ++ [.iteration it]) = iterations tr ++ [it] :=
        iterations_append tr _
      rw [hits,List.dropLast_concat]
      exact going hp
    have silent : iterations os = [] →
        ∀ x ∈ (iterations (tr ++ os)).dropLast, x.restarts = true := by
      intro hnone
      rw [iterations_append,hnone,List.append_nil]
      exact hlast
    cases hm with
    | restart _ _ _ _ phase =>
      refine closes _ ?_
      rcases phase with ⟨-,hp,-⟩ | ⟨-,hp,-⟩ <;> simp [hp]
    | stop _ _ _ _ phase =>
      refine closes _ ?_
      rcases phase with ⟨-,hp,-⟩ | ⟨-,hp,-⟩ <;> simp [hp]
    | writerEnds _ _ _ _ _ idle =>
      refine silent ?_
      rcases idle with ⟨-,rfl⟩ | ⟨packet,kind,-,rfl⟩ <;> rfl
    | _ => exact silent rfl

theorem EndsOf.only {t : Tun P} {tr : List (TunObs P)} {ends : Nat → TunEvent → TunObs P}
    {event : Iteration → TunEvent} {endData : EndData} (h : EndsOf t tr ends event endData)
    (distinct : ((iterations tr).map Iteration.device).Nodup) {it : Iteration}
    (hit : it ∈ iterations tr) (past : t.awaits it.device = false) (e : TunEvent) :
    ends it.device e ∈ tr ↔ e = event it := by
  rw [h it.device e]
  constructor
  · rintro (⟨x,hx,hd,he⟩ | ⟨ha,-⟩)
    · rw [← List.inj_on_of_nodup_map distinct hx hit hd,he]
    · simp [past] at ha
  · rintro rfl
    exact .inl ⟨it,hit,rfl,rfl⟩

end Tun
end MeshNetwork
