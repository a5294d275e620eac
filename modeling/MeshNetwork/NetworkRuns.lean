import MeshNetwork.LabelledRuns

/-!
A family of labelled systems in one environment: members take turns in any order, and
what a member may observe depends on what all of them have shown before.
-/

set_option autoImplicit false

namespace MeshNetwork.Runs

structure Net (κ σ Λ Ω : Type) where
  system : System σ Λ Ω
  member : κ → Prop
  ok : κ → σ → Λ → Prop
  allows : List (κ × Ω) → κ → Ω → Prop

variable {κ σ Λ Ω : Type} [DecidableEq κ]

inductive NetRun (N : Net κ σ Λ Ω) (s₀ : κ → σ) : (κ → σ) → List (κ × Ω) → Prop where
  | nil : NetRun N s₀ s₀ []
  | snoc {s : κ → σ} {tr : List (κ × Ω)} (k : κ) (l : Λ) : NetRun N s₀ s tr → N.member k →
      N.ok k (s k) l → N.system.enabled (s k) l →
      (∀ o ∈ N.system.shows (s k) l, N.allows tr k o) →
      NetRun N s₀ (Function.update s k (N.system.next (s k) l))
        (tr ++ (N.system.shows (s k) l).map (Prod.mk k))

def view (k : κ) (tr : List (κ × Ω)) : List Ω :=
  tr.filterMap fun x => if x.1 = k then some x.2 else none

theorem view_append (k : κ) (tr tr' : List (κ × Ω)) : view k (tr ++ tr') = view k tr ++ view k tr' :=
  List.filterMap_append

theorem view_self (k : κ) (os : List Ω) : view k (os.map (Prod.mk k)) = os := by
  simp [view]

theorem view_ne {k j : κ} (h : k ≠ j) (os : List Ω) : view k (os.map (Prod.mk j)) = [] := by
  simp [view,Ne.symm h]

theorem mem_view {k : κ} {o : Ω} {tr : List (κ × Ω)} : o ∈ view k tr ↔ (k,o) ∈ tr := by
  simp only [view,List.mem_filterMap]
  constructor
  · rintro ⟨⟨j,o'⟩,hmem,h⟩
    split at h
    · rename_i hj
      simp only [Option.some.injEq] at h
      simp only at hj
      rw [← hj,← h]
      exact hmem
    · simp at h
  · intro hmem
    exact ⟨(k,o),hmem,by simp⟩

/-- A run of the network is a run of each member. -/
theorem NetRun.project {N : Net κ σ Λ Ω} {s₀ s : κ → σ} {tr : List (κ × Ω)}
    (run : NetRun N s₀ s tr) (k : κ) : Run N.system (N.ok k) (s₀ k) (s k) (view k tr) := by
  induction run with
  | nil => exact .nil
  | snoc j l _ hmem hok hen hall ih =>
    rw [view_append]
    by_cases h : k = j
    · subst h
      rw [view_self,Function.update_self]
      exact .snoc l ih hok hen
    · rw [view_ne h,List.append_nil,Function.update_of_ne h]
      exact ih

theorem NetRun.made {N : Net κ σ Λ Ω} {s₀ s : κ → σ} {tr : List (κ × Ω)}
    (run : NetRun N s₀ s tr) {u v : List (κ × Ω)} {k : κ} {o : Ω} (h : tr = u ++ (k,o) :: v) :
    ∃ s' u' l, NetRun N s₀ s' u' ∧ u' <+: u ∧ N.member k ∧ N.ok k (s' k) l ∧
      N.system.enabled (s' k) l ∧ o ∈ N.system.shows (s' k) l ∧ N.allows u' k o := by
  induction run generalizing u v with
  | nil => simp at h
  | @snoc s tr j l run hmem hok hen hall ih =>
    rcases List.append_eq_append_iff.mp h with ⟨w,hu,hshow⟩ | ⟨w,htr,hshow⟩
    · have hko : (k,o) ∈ (N.system.shows (s j) l).map (Prod.mk j) := by
        rw [hshow]
        simp
      obtain ⟨o',ho',heq⟩ := List.mem_map.mp hko
      simp only [Prod.mk.injEq] at heq
      obtain ⟨rfl,rfl⟩ := heq
      exact ⟨s,tr,l,run,⟨w,hu.symm⟩,hmem,hok,hen,ho',hall _ ho'⟩
    · cases w with
      | nil =>
        rw [List.append_nil] at htr
        rw [List.nil_append] at hshow
        have hko : (k,o) ∈ (N.system.shows (s j) l).map (Prod.mk j) := by
          rw [← hshow]
          exact List.mem_cons_self
        obtain ⟨o',ho',heq⟩ := List.mem_map.mp hko
        simp only [Prod.mk.injEq] at heq
        obtain ⟨rfl,rfl⟩ := heq
        exact ⟨s,tr,l,run,htr ▸ List.prefix_rfl,hmem,hok,hen,ho',hall _ ho'⟩
      | cons x w =>
        simp only [List.cons_append,List.cons.injEq] at hshow
        obtain ⟨rfl,-⟩ := hshow
        exact ih htr

theorem NetRun.allowed {N : Net κ σ Λ Ω} {s₀ s : κ → σ} {tr : List (κ × Ω)}
    (run : NetRun N s₀ s tr) {k : κ} {o : Ω} (h : (k,o) ∈ tr) :
    ∃ u, u <+: tr ∧ N.allows u k o := by
  obtain ⟨u,v,heq⟩ := List.append_of_mem h
  obtain ⟨s',u',l,-,hpre,-,-,-,-,hall⟩ := run.made heq
  exact ⟨u',hpre.trans (by rw [heq]; exact List.prefix_append _ _),hall⟩

section Exec
variable (N : Net κ σ Λ Ω) [∀ s l, Decidable (N.system.enabled s l)]
variable [∀ k s l, Decidable (N.ok k s l)] [DecidablePred N.member]
variable [∀ tr k o, Decidable (N.allows tr k o)]

def netExec : (κ → σ) → List (κ × Ω) → List (κ × Λ) → Option ((κ → σ) × List (κ × Ω))
  | s, tr, [] => some (s,tr)
  | s, tr, (k,l) :: ls =>
    if N.member k ∧ N.ok k (s k) l ∧ N.system.enabled (s k) l ∧
        ∀ o ∈ N.system.shows (s k) l, N.allows tr k o then
      netExec (Function.update s k (N.system.next (s k) l))
        (tr ++ (N.system.shows (s k) l).map (Prod.mk k)) ls
    else none

theorem netExec_run {s₀ s s' : κ → σ} {tr tr' : List (κ × Ω)} {ls : List (κ × Λ)}
    (run : NetRun N s₀ s tr) (h : netExec N s tr ls = some (s',tr')) : NetRun N s₀ s' tr' := by
  induction ls generalizing s tr with
  | nil =>
    simp only [netExec,Option.some.injEq,Prod.mk.injEq] at h
    obtain ⟨rfl,rfl⟩ := h
    exact run
  | cons x ls ih =>
    obtain ⟨k,l⟩ := x
    simp only [netExec] at h
    split at h
    · rename_i hc
      obtain ⟨hmem,hok,hen,hall⟩ := hc
      exact ih (.snoc k l run hmem hok hen hall) h
    · simp at h

theorem netExec_reaches {s₀ : κ → σ} {ls : List (κ × Λ)} {p : (κ → σ) × List (κ × Ω) → Bool}
    (h : (netExec N s₀ [] ls).any p = true) : ∃ s tr, NetRun N s₀ s tr ∧ p (s,tr) = true := by
  cases hr : netExec N s₀ [] ls with
  | none => simp [hr] at h
  | some r =>
    rw [hr,Option.any_some] at h
    exact ⟨r.1,r.2,netExec_run N .nil hr,h⟩

end Exec
end MeshNetwork.Runs
