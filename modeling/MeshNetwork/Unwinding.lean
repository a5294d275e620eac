import Mathlib.Data.List.Basic

/-!
Machines that answer every input, seen through a filter on the inputs: when the inputs
that are filtered out leave a view of the state alone and the others act on that view, the
view and the answers that remain depend on the remaining inputs only.
-/

set_option autoImplicit false

namespace MeshNetwork.Unwinding

variable {σ ε ο : Type}

def run (step : σ → ε → Option (σ × ο)) : σ → List ε → Option (σ × List ο)
  | s, [] => some (s,[])
  | s, e :: es => do
    let (t,o) ← step s e
    let (u,os) ← run step t es
    return (u,o :: os)

def visible (p : ε → Bool) : List ε → List ο → List ο
  | e :: es, o :: os => if p e then o :: visible p es os else visible p es os
  | _, _ => []

structure Unwinds (step : σ → ε → Option (σ × ο)) (p : ε → Bool) (R : σ → σ → Prop) : Prop where
  symm : ∀ s t, R s t → R t s
  trans : ∀ s t u, R s t → R t u → R s u
  total : ∀ s t e, R s t → ∃ u o, step s e = some (u,o)
  hidden : ∀ s t e u o, R s t → p e = false → step s e = some (u,o) → R u t
  shared : ∀ s t e u v o o', R s t → p e = true → step s e = some (u,o) →
    step t e = some (v,o') → R u v ∧ o = o'

theorem run_cons {step : σ → ε → Option (σ × ο)} {s u : σ} {e : ε} {es : List ε} {os : List ο}
    (h : run step s (e :: es) = some (u,os)) : ∃ t o os', step s e = some (t,o) ∧
      run step t es = some (u,os') ∧ os = o :: os' := by
  simp only [run,Option.bind_eq_bind,Option.bind_eq_some_iff,Option.pure_def,Option.some.injEq,
    Prod.mk.injEq] at h
  obtain ⟨⟨t,o⟩,hstep,⟨u',os'⟩,hrun,rfl,rfl⟩ := h
  exact ⟨t,o,os',hstep,hrun,rfl⟩

theorem run_of_step {step : σ → ε → Option (σ × ο)} {s t u : σ} {e : ε} {es : List ε} {o : ο}
    {os : List ο} (hstep : step s e = some (t,o)) (hrun : run step t es = some (u,os)) :
    run step s (e :: es) = some (u,o :: os) := by
  simp [run,hstep,hrun]

section Run
variable {step : σ → ε → Option (σ × ο)} {p : ε → Bool} {R : σ → σ → Prop}

theorem Unwinds.follow (h : Unwinds step p R) {s t u : σ} {es : List ε} {os : List ο}
    (hR : R s t) (hrun : run step s es = some (u,os)) :
    ∃ v, run step t (es.filter p) = some (v,visible p es os) ∧ R u v := by
  induction es generalizing s t os with
  | nil =>
    simp only [run,Option.some.injEq,Prod.mk.injEq] at hrun
    obtain ⟨rfl,rfl⟩ := hrun
    exact ⟨t,rfl,hR⟩
  | cons e es ih =>
    obtain ⟨s',o,os',hstep,hrest,rfl⟩ := run_cons hrun
    cases hp : p e with
    | false =>
      obtain ⟨v,hv,huv⟩ := ih (h.hidden s t e s' o hR hp hstep) hrest
      exact ⟨v,by simpa [visible,hp] using hv,huv⟩
    | true =>
      obtain ⟨t',o',hstep'⟩ := h.total t s e (h.symm s t hR)
      obtain ⟨hR',rfl⟩ := h.shared s t e s' t' o o' hR hp hstep hstep'
      obtain ⟨v,hv,huv⟩ := ih hR' hrest
      refine ⟨v,?_,huv⟩
      rw [List.filter_cons_of_pos hp]
      simpa [visible,hp] using run_of_step hstep' hv

/-- Two runs over inputs with the same visible part cannot be told apart. -/
theorem Unwinds.two_runs (h : Unwinds step p R) {s t u v : σ} {es fs : List ε} {os ps : List ο}
    (hR : R s t) (hes : run step s es = some (u,os)) (hfs : run step t fs = some (v,ps))
    (hsame : es.filter p = fs.filter p) : R u v ∧ visible p es os = visible p fs ps := by
  have hts := h.symm s t hR
  obtain ⟨x,hx,hux⟩ := h.follow hR hes
  obtain ⟨y,hy,hvy⟩ := h.follow (h.trans t s t hts hR) hfs
  rw [hsame,hy,Option.some.injEq,Prod.mk.injEq] at hx
  obtain ⟨rfl,hvis⟩ := hx
  exact ⟨h.trans u y v hux (h.symm v y hvy),hvis.symm⟩

end Run
end MeshNetwork.Unwinding
