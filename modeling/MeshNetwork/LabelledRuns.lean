import Mathlib.Data.List.Basic
import Mathlib.Logic.Function.Basic

/-!
Labelled systems: a label resolves every choice of the scheduler and of the
environment, and each step shows a list of observations to the outside.
-/

set_option autoImplicit false

namespace MeshNetwork.Runs

structure System (σ Λ Ω : Type) where
  enabled : σ → Λ → Prop
  next : σ → Λ → σ
  shows : σ → Λ → List Ω

variable {σ Λ Ω : Type}

/-- The runs from `s₀` whose steps all meet `ok`, with everything observed so far. -/
inductive Run (S : System σ Λ Ω) (ok : σ → Λ → Prop) (s₀ : σ) : σ → List Ω → Prop where
  | nil : Run S ok s₀ s₀ []
  | snoc {s : σ} {tr : List Ω} (l : Λ) : Run S ok s₀ s tr → ok s l → S.enabled s l →
      Run S ok s₀ (S.next s l) (tr ++ S.shows s l)

def anyStep : σ → Λ → Prop := fun _ _ => True

instance (s : σ) (l : Λ) : Decidable (anyStep s l) := inferInstanceAs (Decidable True)

theorem Run.invariant {S : System σ Λ Ω} {ok : σ → Λ → Prop} {s₀ s : σ} {tr : List Ω}
    (run : Run S ok s₀ s tr) (P : σ → List Ω → Prop) (start : P s₀ [])
    (next : ∀ s tr l, P s tr → ok s l → S.enabled s l →
      P (S.next s l) (tr ++ S.shows s l)) : P s tr := by
  induction run with
  | nil => exact start
  | snoc l _ hok hen ih => exact next _ _ l ih hok hen

theorem Run.mono {S : System σ Λ Ω} {ok ok' : σ → Λ → Prop} {s₀ s : σ} {tr : List Ω}
    (run : Run S ok s₀ s tr) (h : ∀ s l, ok s l → ok' s l) : Run S ok' s₀ s tr := by
  induction run with
  | nil => exact .nil
  | snoc l _ hok hen ih => exact .snoc l ih (h _ _ hok) hen

theorem Run.trans {S : System σ Λ Ω} {ok : σ → Λ → Prop} {s₀ s₁ s₂ : σ} {tr₁ tr₂ : List Ω}
    (first : Run S ok s₀ s₁ tr₁) (second : Run S ok s₁ s₂ tr₂) :
    Run S ok s₀ s₂ (tr₁ ++ tr₂) := by
  induction second with
  | nil => simpa using first
  | snoc l _ hok hen ih =>
    rw [← List.append_assoc]
    exact .snoc l ih hok hen

section Exec
variable (S : System σ Λ Ω) (ok : σ → Λ → Prop)
variable [∀ s l, Decidable (S.enabled s l)] [∀ s l, Decidable (ok s l)]

/-- Carry out a list of labels; `none` when one of them may not be taken. -/
def exec : σ → List Λ → Option (σ × List Ω)
  | s, [] => some (s,[])
  | s, l :: ls =>
    if ok s l ∧ S.enabled s l then
      (exec (S.next s l) ls).map fun r => (r.1,S.shows s l ++ r.2)
    else none

theorem exec_run {s₀ s : σ} {ls : List Λ} {tr : List Ω}
    (h : exec S ok s₀ ls = some (s,tr)) : Run S ok s₀ s tr := by
  induction ls generalizing s₀ tr with
  | nil =>
    simp only [exec,Option.some.injEq,Prod.mk.injEq] at h
    obtain ⟨rfl,rfl⟩ := h
    exact .nil
  | cons l ls ih =>
    by_cases hl : ok s₀ l ∧ S.enabled s₀ l
    · simp only [exec,hl,and_self,if_true,Option.map_eq_some_iff,Prod.mk.injEq] at h
      obtain ⟨⟨s₂,tr₂⟩,hrest,rfl,rfl⟩ := h
      exact Run.trans (.snoc l .nil hl.1 hl.2) (ih hrest)
    · simp [exec,hl] at h

theorem exec_reaches {s₀ : σ} {ls : List Λ} {p : σ × List Ω → Bool}
    (h : (exec S ok s₀ ls).any p = true) : ∃ s tr, Run S ok s₀ s tr ∧ p (s,tr) = true := by
  cases hr : exec S ok s₀ ls with
  | none => simp [hr] at h
  | some r =>
    rw [hr,Option.any_some] at h
    exact ⟨r.1,r.2,exec_run S ok hr,h⟩

end Exec
end MeshNetwork.Runs
