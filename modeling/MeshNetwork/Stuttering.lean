import MeshNetwork.Unwinding

/-!
Inputs that leave the state of a machine alone may be put anywhere into its history: the
other inputs are answered as before, and the run ends in the same state.
-/

set_option autoImplicit false

namespace MeshNetwork.Unwinding

variable {σ ε ο : Type}

/-- The second history is the first one, from the given state, with further inputs put in.
Each of these is `idle` in the state reached before it. The inputs of the first history are
marked `true`, and the others `false`. -/
inductive Inserted (step : σ → ε → Option (σ × ο)) (idle : σ → ε → Prop) :
    σ → List ε → List (ε × Bool) → Prop where
  | nil (s : σ) : Inserted step idle s [] []
  | kept {s t : σ} {e : ε} {o : ο} {es : List ε} {ms : List (ε × Bool)} :
      step s e = some (t,o) → Inserted step idle t es ms →
      Inserted step idle s (e :: es) ((e,true) :: ms)
  | extra {s : σ} {e : ε} {es : List ε} {ms : List (ε × Bool)} :
      idle s e → Inserted step idle s es ms → Inserted step idle s es ((e,false) :: ms)

variable {step : σ → ε → Option (σ × ο)} {idle : σ → ε → Prop}

/-- A run follows the history with the further inputs step by step; it stands still at each
of them. -/
theorem Inserted.follow {quiet : ο → Prop}
    (still : ∀ s e, idle s e → ∃ o, step s e = some (s,o) ∧ quiet o) {s u : σ} {es : List ε}
    {ms : List (ε × Bool)} {os : List ο} (h : Inserted step idle s es ms)
    (hrun : run step s es = some (u,os)) : ∃ os', run step s (ms.map Prod.fst) = some (u,os') ∧
      visible Prod.snd ms os' = os ∧ ∀ o ∈ visible (fun m => !m.2) ms os', quiet o := by
  induction h generalizing os with
  | nil s =>
    simp only [run,Option.some.injEq,Prod.mk.injEq] at hrun
    obtain ⟨rfl,rfl⟩ := hrun
    exact ⟨[],rfl,rfl,by simp [visible]⟩
  | kept hstep _ ih =>
    obtain ⟨t,o,os₁,hstep',hrest,rfl⟩ := run_cons hrun
    rw [hstep,Option.some.injEq,Prod.mk.injEq] at hstep'
    obtain ⟨rfl,rfl⟩ := hstep'
    obtain ⟨os',hrun',hsame,hquiet⟩ := ih hrest
    exact ⟨_,run_of_step hstep hrun',by simp [visible,hsame],by simpa [visible] using hquiet⟩
  | @extra s e es ms hidle _ ih =>
    obtain ⟨o,hstep,ho⟩ := still s e hidle
    obtain ⟨os',hrun',hsame,hquiet⟩ := ih hrun
    refine ⟨o :: os',run_of_step hstep hrun',by simpa [visible] using hsame,?_⟩
    simp only [visible,Bool.not_false,if_true]
    exact List.forall_mem_cons.mpr ⟨ho,hquiet⟩

end MeshNetwork.Unwinding
