import MeshNetwork.NetworkRuns

/-!
Systems that come to rest. When every step of some kind lowers a measure, at most so many
of them can follow each other, and a run of them leads to a state where none is possible.
-/

set_option autoImplicit false

namespace MeshNetwork.Runs

variable {σ Λ Ω : Type}

inductive Path (S : System σ Λ Ω) (ok : σ → Λ → Prop) : σ → List Λ → σ → Prop where
  | nil (s : σ) : Path S ok s [] s
  | cons {s t : σ} {ls : List Λ} (l : Λ) : ok s l → S.enabled s l → Path S ok (S.next s l) ls t →
      Path S ok s (l :: ls) t

def Resting (S : System σ Λ Ω) (ok : σ → Λ → Prop) (s : σ) : Prop := ∀ l, ok s l → ¬ S.enabled s l

structure Descends (S : System σ Λ Ω) (ok : σ → Λ → Prop) (inv : σ → Prop) (work : σ → Nat) :
    Prop where
  keeps : ∀ s l, inv s → ok s l → S.enabled s l → inv (S.next s l)
  lowers : ∀ s l, inv s → ok s l → S.enabled s l → work (S.next s l) < work s

theorem Run.single {S : System σ Λ Ω} {ok : σ → Λ → Prop} {s : σ} (l : Λ) (hok : ok s l)
    (hen : S.enabled s l) : Run S ok s (S.next s l) (S.shows s l) :=
  .snoc l .nil hok hen

section Measure
variable {S : System σ Λ Ω} {ok : σ → Λ → Prop} {inv : σ → Prop} {work : σ → Nat}

theorem Descends.length_le (h : Descends S ok inv work) {s t : σ} {ls : List Λ}
    (path : Path S ok s ls t) (hs : inv s) : ls.length + work t ≤ work s := by
  induction path with
  | nil s => simp
  | cons l hok hen _ ih =>
    have hrest := ih (h.keeps _ l hs hok hen)
    have hlow := h.lowers _ l hs hok hen
    rw [List.length_cons]
    omega

theorem Descends.along (h : Descends S ok inv work) {s t : σ} {ls : List Λ}
    (path : Path S ok s ls t) (hs : inv s) : inv t := by
  induction path with
  | nil s => exact hs
  | cons l hok hen _ ih => exact ih (h.keeps _ l hs hok hen)

theorem Descends.rests (h : Descends S ok inv work) {s : σ} (hs : inv s) :
    ∃ t tr, Run S ok s t tr ∧ Resting S ok t ∧ inv t := by
  induction hw : work s using Nat.strongRecOn generalizing s with
  | ind w ih =>
    by_cases hrest : Resting S ok s
    · exact ⟨s,[],.nil,hrest,hs⟩
    · simp only [Resting,not_forall,not_not] at hrest
      obtain ⟨l,hok,hen⟩ := hrest
      have hlow := h.lowers s l hs hok hen
      rw [hw] at hlow
      obtain ⟨t,tr,run,ht⟩ := ih _ hlow (h.keeps s l hs hok hen) rfl
      exact ⟨t,_,(Run.single l hok hen).trans run,ht⟩

end Measure

section Network
variable {κ : Type} [DecidableEq κ] {N : Net κ σ Λ Ω}

/-- What a network can go on to from a state that it has reached with `tr`. -/
inductive NetPath (N : Net κ σ Λ Ω) (s : κ → σ) (tr : List (κ × Ω)) :
    (κ → σ) → List (κ × Ω) → Prop where
  | nil : NetPath N s tr s tr
  | snoc {s' : κ → σ} {tr' : List (κ × Ω)} (k : κ) (l : Λ) : NetPath N s tr s' tr' →
      N.member k → N.ok k (s' k) l → N.system.enabled (s' k) l →
      (∀ o ∈ N.system.shows (s' k) l, N.allows tr' k o) →
      NetPath N s tr (Function.update s' k (N.system.next (s' k) l))
        (tr' ++ (N.system.shows (s' k) l).map (Prod.mk k))

theorem NetRun.along {s₀ s s' : κ → σ} {tr tr' : List (κ × Ω)} (run : NetRun N s₀ s tr)
    (path : NetPath N s tr s' tr') : NetRun N s₀ s' tr' := by
  induction path with
  | nil => exact run
  | snoc k l _ hk hok hen hall ih => exact .snoc k l ih hk hok hen hall

theorem NetPath.trans {s s' s'' : κ → σ} {tr tr' tr'' : List (κ × Ω)}
    (first : NetPath N s tr s' tr') (second : NetPath N s' tr' s'' tr'') :
    NetPath N s tr s'' tr'' := by
  induction second with
  | nil => exact first
  | snoc k l _ hk hok hen hall ih => exact .snoc k l ih hk hok hen hall

theorem NetPath.project {s s' : κ → σ} {tr tr' : List (κ × Ω)} (path : NetPath N s tr s' tr')
    (k : κ) : ∃ u, tr' = tr ++ u ∧ Run N.system (N.ok k) (s k) (s' k) (view k u) := by
  induction path with
  | nil => exact ⟨[],(List.append_nil tr).symm,.nil⟩
  | @snoc s' tr' j l _ hmem hok hen hall ih =>
    obtain ⟨u,rfl,own⟩ := ih
    refine ⟨u ++ (N.system.shows (s' j) l).map (Prod.mk j),List.append_assoc _ _ _,?_⟩
    rw [view_append]
    by_cases h : k = j
    · subst h
      rw [view_self,Function.update_self]
      exact .snoc l own hok hen
    · rw [view_ne h,List.append_nil,Function.update_of_ne h]
      exact own

/-- One member takes a run of steps whose observations the environment never forbids. -/
theorem NetPath.then_member {s s' : κ → σ} {tr tr' : List (κ × Ω)}
    (path : NetPath N s tr s' tr') {k : κ} (hk : N.member k) {ok : σ → Λ → Prop}
    (allowed : ∀ t l, ok t l → N.system.enabled t l → N.ok k t l ∧
      ∀ o ∈ N.system.shows t l, ∀ tr, N.allows tr k o)
    {t : σ} {os : List Ω} (own : Run N.system ok (s' k) t os) :
    NetPath N s tr (Function.update s' k t) (tr' ++ os.map (Prod.mk k)) := by
  induction own with
  | nil => simpa using path
  | @snoc t os l _ hok hen ih =>
    obtain ⟨hmember,hobs⟩ := allowed t l hok hen
    have hself : Function.update s' k t k = t := Function.update_self k t s'
    have hnext := ih.snoc k l hk (by rw [hself]; exact hmember) (by rw [hself]; exact hen)
      (fun o ho => hobs o (by rw [hself] at ho; exact ho) _)
    rw [hself,Function.update_idem] at hnext
    rw [List.map_append,← List.append_assoc]
    exact hnext

theorem netExec_path [∀ s l, Decidable (N.system.enabled s l)] [∀ k s l, Decidable (N.ok k s l)]
    [DecidablePred N.member] [∀ tr k o, Decidable (N.allows tr k o)] {s s' s'' : κ → σ}
    {tr tr' tr'' : List (κ × Ω)} {ls : List (κ × Λ)} (path : NetPath N s tr s' tr')
    (h : netExec N s' tr' ls = some (s'',tr'')) : NetPath N s tr s'' tr'' := by
  induction ls generalizing s' tr' with
  | nil =>
    simp only [netExec,Option.some.injEq,Prod.mk.injEq] at h
    obtain ⟨rfl,rfl⟩ := h
    exact path
  | cons x ls ih =>
    obtain ⟨k,l⟩ := x
    simp only [netExec] at h
    split at h
    · rename_i hc
      obtain ⟨hmem,hok,hen,hall⟩ := hc
      exact ih (.snoc k l path hmem hok hen hall) h
    · simp at h

def Net.among (N : Net κ σ Λ Ω) (only : κ → Λ → Prop) : Net κ σ Λ Ω :=
  { N with ok := fun k s l => N.ok k s l ∧ only k l }

variable {only : κ → Λ → Prop} {s s' : κ → σ} {tr tr' : List (κ × Ω)}

theorem NetPath.all (path : NetPath (N.among only) s tr s' tr') : NetPath N s tr s' tr' := by
  induction path with
  | nil => exact .nil
  | snoc k l _ hk hok hen hall ih => exact .snoc k l ih hk hok.1 hen hall

theorem NetPath.widen {more : κ → Λ → Prop} (h : ∀ k l, only k l → more k l)
    (path : NetPath (N.among only) s tr s' tr') : NetPath (N.among more) s tr s' tr' := by
  induction path with
  | nil => exact .nil
  | snoc k l _ hk hok hen hall ih => exact .snoc k l ih hk ⟨hok.1,h k l hok.2⟩ hen hall

theorem NetPath.still (path : NetPath (N.among only) s tr s' tr') {k : κ} (h : ∀ l, ¬ only k l) :
    s' k = s k := by
  induction path with
  | nil => rfl
  | @snoc s' tr' j l _ _ hok _ _ ih =>
    have hne : k ≠ j := fun heq => h l (by rw [heq]; exact hok.2)
    rw [Function.update_of_ne hne]
    exact ih

end Network

end MeshNetwork.Runs
