import MeshNetwork.Progress

/-!
Views of a larger system as a run of a smaller one: a map takes its states to those of the
other, and each of its steps is matched there by one step or by some that show nothing.
-/

set_option autoImplicit false

namespace MeshNetwork.Runs

variable {σ Λ Ω σ' Λ' Ω' : Type}

inductive Matched (T : System σ Λ Ω) (ok : σ → Λ → Prop) (s : σ) : σ → List Ω → Prop where
  | silent {t : σ} (run : Run T ok s t []) : Matched T ok s t []
  | one (l : Λ) (hok : ok s l) (hen : T.enabled s l) : Matched T ok s (T.next s l) (T.shows s l)

theorem Matched.still {T : System σ Λ Ω} {ok : σ → Λ → Prop} (s : σ) : Matched T ok s s [] :=
  .silent .nil

theorem Matched.run {T : System σ Λ Ω} {ok : σ → Λ → Prop} {s t : σ} {os : List Ω}
    (h : Matched T ok s t os) : Run T ok s t os := by
  cases h with
  | silent run => exact run
  | one l hok hen => exact Run.single l hok hen

/-- `view` makes a step of `T` or none out of each step of `S`, as long as `inv` holds. -/
structure Projects (S : System σ Λ Ω) (T : System σ' Λ' Ω') (ok : σ → Λ → Prop)
    (ok' : σ' → Λ' → Prop) (inv : σ → Prop) (state : σ → σ') (seen : Ω → Option Ω') : Prop where
  keeps : ∀ s l, inv s → ok s l → S.enabled s l → inv (S.next s l)
  step : ∀ s l, inv s → ok s l → S.enabled s l →
    Matched T ok' (state s) (state (S.next s l)) ((S.shows s l).filterMap seen)

section Projection
variable {S : System σ Λ Ω} {T : System σ' Λ' Ω'} {ok : σ → Λ → Prop} {ok' : σ' → Λ' → Prop}
variable {inv : σ → Prop} {state : σ → σ'} {seen : Ω → Option Ω'}

theorem Projects.run (h : Projects S T ok ok' inv state seen) {s₀ s : σ} {tr : List Ω}
    (start : inv s₀) (run : Run S ok s₀ s tr) :
    inv s ∧ Run T ok' (state s₀) (state s) (tr.filterMap seen) := by
  induction run with
  | nil => exact ⟨start,.nil⟩
  | snoc l _ hok hen ih =>
    rw [List.filterMap_append]
    exact ⟨h.keeps _ l ih.1 hok hen,ih.2.trans (h.step _ l ih.1 hok hen).run⟩

end Projection

section Network
variable {κ : Type} [DecidableEq κ]

def seenBy (seen : Ω → Option Ω') (tr : List (κ × Ω)) : List (κ × Ω') :=
  tr.filterMap fun x => (seen x.2).map (Prod.mk x.1)

omit [DecidableEq κ] in
theorem seenBy_append (seen : Ω → Option Ω') (tr tr' : List (κ × Ω)) :
    seenBy seen (tr ++ tr') = seenBy seen tr ++ seenBy seen tr' := List.filterMap_append

omit [DecidableEq κ] in
theorem seenBy_map (seen : Ω → Option Ω') (k : κ) (os : List Ω) :
    seenBy seen (os.map (Prod.mk k)) = (os.filterMap seen).map (Prod.mk k) := by
  rw [seenBy,List.filterMap_map,List.map_filterMap]
  rfl

omit [DecidableEq κ] in
theorem mem_seenBy {seen : Ω → Option Ω'} {tr : List (κ × Ω)} {k : κ} {o' : Ω'} :
    (k,o') ∈ seenBy seen tr ↔ ∃ o, (k,o) ∈ tr ∧ seen o = some o' := by
  simp only [seenBy,List.mem_filterMap]
  constructor
  · rintro ⟨⟨j,o⟩,hmem,h⟩
    obtain ⟨x,hx,heq⟩ := Option.map_eq_some_iff.mp h
    simp only [Prod.mk.injEq] at heq
    obtain ⟨rfl,rfl⟩ := heq
    exact ⟨o,hmem,hx⟩
  · rintro ⟨o,hmem,h⟩
    exact ⟨(k,o),hmem,by simp [h]⟩

theorem view_seenBy (seen : Ω → Option Ω') (k : κ) (tr : List (κ × Ω)) :
    view k (seenBy seen tr) = (view k tr).filterMap seen := by
  simp only [view,seenBy,List.filterMap_filterMap]
  refine List.filterMap_congr fun x _ => ?_
  by_cases hk : x.1 = k <;> cases hx : seen x.2 <;> simp [hk,hx]

theorem NetRun.silent {M : Net κ σ Λ Ω} {s₀ s : κ → σ} {tr : List (κ × Ω)}
    (run : NetRun M s₀ s tr) {k : κ} (hk : M.member k) {t : σ}
    (own : Run M.system (M.ok k) (s k) t []) : NetRun M s₀ (Function.update s k t) tr := by
  generalize hos : ([] : List Ω) = os at own
  induction own with
  | nil => simpa using run
  | @snoc t os l _ hok hen ih =>
    obtain ⟨hnil,hshow⟩ := List.append_eq_nil_iff.mp hos.symm
    have hself : Function.update s k t k = t := Function.update_self k t s
    have hnext := (ih hnil.symm).snoc k l hk (by rw [hself]; exact hok) (by rw [hself]; exact hen)
      (by simp [hshow])
    rw [hself,hshow,List.map_nil,List.append_nil,Function.update_idem] at hnext
    exact hnext

structure NetProjects (N : Net κ σ Λ Ω) (M : Net κ σ' Λ' Ω') (inv : κ → σ → Prop)
    (state : σ → σ') (seen : Ω → Option Ω') : Prop where
  member : ∀ k, N.member k → M.member k
  steps : ∀ k, Projects N.system M.system (N.ok k) (M.ok k) (inv k) state seen
  allows : ∀ tr k o o', seen o = some o' → N.allows tr k o → M.allows (seenBy seen tr) k o'

theorem NetProjects.run {N : Net κ σ Λ Ω} {M : Net κ σ' Λ' Ω'} {inv : κ → σ → Prop}
    {state : σ → σ'} {seen : Ω → Option Ω'} (h : NetProjects N M inv state seen) {s₀ s : κ → σ}
    {tr : List (κ × Ω)} (start : ∀ k, inv k (s₀ k)) (run : NetRun N s₀ s tr) :
    (∀ k, inv k (s k)) ∧
      NetRun M (fun k => state (s₀ k)) (fun k => state (s k)) (seenBy seen tr) := by
  induction run with
  | nil => exact ⟨start,.nil⟩
  | @snoc s tr k l _ hk hok hen hall ih =>
    obtain ⟨held,seenRun⟩ := ih
    refine ⟨fun j => ?_,?_⟩
    · by_cases hj : j = k
      · subst hj
        rw [Function.update_self]
        exact (h.steps j).keeps _ l (held j) hok hen
      · rw [Function.update_of_ne hj]
        exact held j
    have hstate : (fun j => state (Function.update s k (N.system.next (s k) l) j)) =
        Function.update (fun j => state (s j)) k (state (N.system.next (s k) l)) :=
      funext fun j => Function.apply_update (fun _ => state) s k _ j
    have hstep := (h.steps k).step _ l (held k) hok hen
    have hobs : ∀ o' ∈ (N.system.shows (s k) l).filterMap seen, M.allows (seenBy seen tr) k o' := by
      intro o' ho'
      obtain ⟨o,ho,hseen⟩ := List.mem_filterMap.mp ho'
      exact h.allows tr k o o' hseen (hall o ho)
    rw [hstate,seenBy_append,seenBy_map]
    generalize state (N.system.next (s k) l) = t at hstep
    generalize (N.system.shows (s k) l).filterMap seen = os at hstep hobs
    cases hstep with
    | silent own =>
      rw [List.map_nil,List.append_nil]
      exact seenRun.silent (h.member k hk) own
    | one l' hok' hen' => exact .snoc k l' seenRun (h.member k hk) hok' hen' hobs

/-- Each step of `T` is answered in `S`, by a step that shows `T` the same and by others of which
it sees nothing, as long as `inv` holds. -/
structure Answers (S : System σ Λ Ω) (T : System σ' Λ' Ω') (ok : σ → Λ → Prop)
    (ok' : σ' → Λ' → Prop) (inv : σ → Prop) (state : σ → σ') (seen : Ω → Option Ω') : Prop where
  step : ∀ s l', inv s → ok' (state s) l' → T.enabled (state s) l' → ∃ l t os, ok s l ∧
    S.enabled s l ∧ (S.shows s l).filterMap seen = T.shows (state s) l' ∧
    Run S ok (S.next s l) t os ∧ os.filterMap seen = [] ∧ inv t ∧ state t = T.next (state s) l'

structure NetAnswers (N : Net κ σ Λ Ω) (M : Net κ σ' Λ' Ω') (only : κ → Prop)
    (inv : κ → σ → Prop) (state : σ → σ') (seen : Ω → Option Ω') : Prop where
  member : ∀ k, M.member k → N.member k
  moving : ∀ k t l, M.ok k t l → only k
  steps : ∀ k, Answers N.system M.system (N.ok k) (M.ok k) (inv k) state seen
  allows : ∀ tr k o, (∀ o', seen o = some o' → M.allows (seenBy seen tr) k o') → N.allows tr k o

theorem NetPath.unseen {N : Net κ σ Λ Ω} {seen : Ω → Option Ω'}
    (allows : ∀ tr k o, seen o = none → N.allows tr k o) {s s' : κ → σ} {tr tr' : List (κ × Ω)}
    (path : NetPath N s tr s' tr') {k : κ} (hk : N.member k) {t : σ} {os : List Ω}
    (own : Run N.system (N.ok k) (s' k) t os) (hos : os.filterMap seen = []) :
    NetPath N s tr (Function.update s' k t) (tr' ++ os.map (Prod.mk k)) := by
  induction own with
  | nil => simpa using path
  | @snoc t os l _ hok hen ih =>
    rw [List.filterMap_append,List.append_eq_nil_iff] at hos
    have hself : Function.update s' k t k = t := Function.update_self k t s'
    have hnext := (ih hos.1).snoc k l hk (by rw [hself]; exact hok) (by rw [hself]; exact hen)
      (fun o ho => by
        rw [hself] at ho
        exact allows _ k o (List.filterMap_eq_nil_iff.mp hos.2 o ho))
    rw [hself,Function.update_idem] at hnext
    rw [List.map_append,← List.append_assoc]
    exact hnext

/-- Whatever the other network can go on to, this one can go on to as well. -/
theorem NetAnswers.path {N : Net κ σ Λ Ω} {M : Net κ σ' Λ' Ω'} {only : κ → Prop}
    {inv : κ → σ → Prop} {state : σ → σ'} {seen : Ω → Option Ω'}
    (h : NetAnswers N M only inv state seen) {s : κ → σ} {tr : List (κ × Ω)} {s' : κ → σ'}
    {tr' : List (κ × Ω')} (start : ∀ k, only k → inv k (s k))
    (path : NetPath M (fun k => state (s k)) (seenBy seen tr) s' tr') :
    ∃ t u, NetPath (N.among fun k _ => only k) s tr t (tr ++ u) ∧ (∀ k, state (t k) = s' k) ∧
      (∀ k, only k → inv k (t k)) ∧ seenBy seen (tr ++ u) = tr' := by
  induction path with
  | nil => exact ⟨s,[],by simpa using NetPath.nil,fun _ => rfl,start,by rw [List.append_nil]⟩
  | @snoc s' tr' k l' _ hk hok hen hall ih =>
    obtain ⟨t,u,own,hstate,held,rfl⟩ := ih
    have honly := h.moving k _ l' hok
    rw [← hstate k] at hok hen hall
    obtain ⟨l,t₁,os,hok₁,hen₁,hshows,silent,hos,hinv,hnext⟩ :=
      (h.steps k).step (t k) l' (held k honly) hok hen
    have one := own.snoc k l (h.member k hk) ⟨hok₁,honly⟩ hen₁ fun o ho =>
      h.allows _ k o fun o' ho' => hall o' (by
        rw [← hshows]
        exact List.mem_filterMap.mpr ⟨o,ho,ho'⟩)
    have quiet : ∀ u k o, seen o = none → (N.among fun k _ => only k).allows u k o :=
      fun u k o hnone => h.allows u k o fun o' ho' => by simp [hnone] at ho'
    have rest := NetPath.unseen quiet one (h.member k hk)
      (by
        rw [Function.update_self]
        exact silent.mono fun _ _ hok => ⟨hok,honly⟩) hos
    rw [Function.update_idem,List.append_assoc,List.append_assoc] at rest
    refine ⟨_,_,rest,fun j => ?_,fun j hj => ?_,?_⟩
    · by_cases hjk : j = k
      · subst hjk
        rw [Function.update_self,Function.update_self,hnext,hstate]
      · rw [Function.update_of_ne hjk,Function.update_of_ne hjk]
        exact hstate j
    · by_cases hjk : j = k
      · subst hjk
        rw [Function.update_self]
        exact hinv
      · rw [Function.update_of_ne hjk]
        exact held j hj
    · have hunseen : seenBy seen (os.map (Prod.mk k)) = [] := by rw [seenBy_map,hos,List.map_nil]
      have hseen : seenBy seen ((N.system.shows (t k) l).map (Prod.mk k)) =
          (M.system.shows (s' k) l').map (Prod.mk k) := by rw [seenBy_map,hshows,hstate]
      simp only [seenBy_append,Net.among,hseen,hunseen,List.append_nil,List.append_assoc]

end Network
end MeshNetwork.Runs
