import Mathlib.Data.List.DropRight
import Mathlib.Data.List.Perm.Basic
import Mathlib.Data.List.Flatten
import Mathlib.Algebra.Order.Group.Multiset
import Mathlib.Tactic.Abel

/-!
A gate with a bounded memory: items that arrive while it is open pass at once,
and opening it releases the last `n` items that arrived while it was closed.
-/

set_option autoImplicit false

namespace MeshNetwork

inductive Signal (α : Type) where
  | opened
  | closed
  | arrived (x : α)
  deriving DecidableEq

def Signal.map {α β : Type} (f : α → β) : Signal α → Signal β
  | .opened => .opened
  | .closed => .closed
  | .arrived x => .arrived (f x)

def arrivals {α : Type} (signals : List (Signal α)) : List α :=
  signals.filterMap fun
    | .arrived x => some x
    | _ => none

/-- The whole past of a gate: `earlier` holds the arrivals of each closed interval
that has ended, `current` those since the gate last became closed. -/
structure Ledger (α : Type) where
  isOpen : Bool
  earlier : List (List α)
  current : List α
  emitted : List α

namespace Ledger
variable {α : Type}

def empty : Ledger α := ⟨false,[],[],[]⟩

def step (n : Nat) (l : Ledger α) : Signal α → Ledger α
  | .opened => if l.isOpen then l
    else ⟨true,l.earlier ++ [l.current],[],l.emitted ++ l.current.rtake n⟩
  | .closed => if l.isOpen then { l with isOpen := false } else l
  | .arrived x => if l.isOpen then { l with emitted := l.emitted ++ [x] }
    else { l with current := l.current ++ [x] }

def released (n : Nat) (l : Ledger α) : Signal α → List α
  | .opened => if l.isOpen then [] else l.current.rtake n
  | .closed => []
  | .arrived x => if l.isOpen then [x] else []

theorem step_emitted (n : Nat) (l : Ledger α) (x : Signal α) :
    (l.step n x).emitted = l.emitted ++ l.released n x := by
  cases x <;> simp only [step,released] <;> split <;> simp

def ofSignals (n : Nat) (signals : List (Signal α)) : Ledger α := signals.foldl (step n) empty

def intervals (l : Ledger α) : List (List α) := l.earlier ++ [l.current]

def waiting (n : Nat) (l : Ledger α) : List α := l.current.rtake n

def lost (n : Nat) (l : Ledger α) : List α := l.intervals.flatMap fun i => i.rdrop n

theorem ofSignals_snoc (n : Nat) (signals : List (Signal α)) (x : Signal α) :
    ofSignals n (signals ++ [x]) = (ofSignals n signals).step n x := by
  simp [ofSignals]

theorem rdrop_append_rtake (n : Nat) (l : List α) : l.rdrop n ++ l.rtake n = l := by
  simp [List.rdrop,List.rtake]

theorem rtake_push {n : Nat} (hn : 0 < n) (l : List α) (x : α) :
    (l ++ [x]).rtake n =
      (if n ≤ (l.rtake n).length then (l.rtake n).tail else l.rtake n) ++ [x] := by
  obtain ⟨m,rfl⟩ : ∃ m, n = m + 1 := ⟨n - 1,by omega⟩
  rw [List.rtake_concat_succ]
  congr 1
  simp only [List.rtake,List.length_drop]
  split
  · rw [List.tail_drop]
    congr 1
    omega
  · congr 1
    omega

theorem length_rtake_full (n : Nat) (l : List α) : n ≤ (l.rtake n).length ↔ n ≤ l.length := by
  simp only [List.rtake,List.length_drop]
  omega

/-- An item is lost exactly when at least `n` later items arrived in its interval. -/
theorem mem_lost (n : Nat) (l : Ledger α) (x : α) :
    x ∈ l.lost n ↔ ∃ i ∈ l.intervals, ∃ xs ys, i = xs ++ x :: ys ∧ n ≤ ys.length := by
  simp only [lost,List.mem_flatMap]
  constructor
  · rintro ⟨i,hi,hx⟩
    obtain ⟨xs,zs,heq⟩ := List.append_of_mem hx
    refine ⟨i,hi,xs,zs ++ i.rtake n,?_,?_⟩
    · have h := rdrop_append_rtake n i
      rw [heq] at h
      simpa using h.symm
    · have hlen : n < i.length := by
        have h := congrArg List.length heq
        simp [List.rdrop] at h
        omega
      simp only [List.length_append,List.rtake,List.length_drop]
      omega
  · rintro ⟨i,hi,xs,ys,rfl,hn⟩
    refine ⟨_,hi,?_⟩
    have hk : (xs ++ x :: ys).length - n = xs.length + (ys.length - n + 1) := by
      simp
      omega
    rw [List.rdrop,hk,List.take_length_add_append]
    simp

def evicted (n : Nat) (l : Ledger α) : Signal α → Nat
  | .arrived _ => if l.isOpen = false ∧ n ≤ l.current.length then 1 else 0
  | _ => 0

theorem lost_length_step (n : Nat) (l : Ledger α) (x : Signal α) :
    ((l.step n x).lost n).length = (l.lost n).length + l.evicted n x := by
  cases x with
  | opened => cases ho : l.isOpen <;> simp [step,evicted,ho,lost,intervals,List.rdrop]
  | closed => cases ho : l.isOpen <;> simp [step,evicted,ho,lost,intervals]
  | arrived x =>
    cases ho : l.isOpen with
    | true => simp [step,evicted,ho,lost,intervals]
    | false =>
      simp only [step,evicted,ho,Bool.false_eq_true,if_false,lost,intervals,
        List.flatMap_append,List.flatMap_singleton,List.length_append,List.rdrop,
        List.length_take,List.length_singleton,true_and]
      split <;> omega

theorem current_open {n : Nat} (signals : List (Signal α))
    (h : (ofSignals n signals).isOpen = true) : (ofSignals n signals).current = [] := by
  induction signals using List.reverseRecOn with
  | nil => rfl
  | append_singleton signals x ih =>
    rw [ofSignals_snoc] at h ⊢
    cases x with
    | opened =>
      simp only [step] at h ⊢
      split
      · rename_i ho
        exact ih ho
      · rfl
    | closed =>
      simp only [step] at h ⊢
      split at h
      · simp at h
      · rename_i hc
        exact absurd h hc
    | arrived a =>
      simp only [step] at h ⊢
      split at h
      · rename_i ho
        simpa [ho] using ih ho
      · rename_i hc
        exact absurd h hc

theorem arrivals_snoc (signals : List (Signal α)) (x : Signal α) :
    arrivals (signals ++ [x]) = arrivals signals ++ arrivals [x] := by
  simp [arrivals]

/-- Emissions keep the order of arrival, and come before whatever still waits. -/
theorem emitted_append_current_sublist (n : Nat) (signals : List (Signal α)) :
    ((ofSignals n signals).emitted ++ (ofSignals n signals).current).Sublist
      (arrivals signals) := by
  induction signals using List.reverseRecOn with
  | nil => simp [arrivals,ofSignals,empty]
  | append_singleton signals x ih =>
    have hopen := @current_open α n signals
    rw [ofSignals_snoc,arrivals_snoc]
    cases x with
    | opened =>
      simp only [step]
      split
      · simpa [arrivals] using ih
      · have hr : ((ofSignals n signals).current.rtake n).Sublist
            (ofSignals n signals).current := List.drop_sublist _ _
        simpa [arrivals] using (hr.append_left (ofSignals n signals).emitted).trans ih
    | closed =>
      simp only [step]
      split <;> simpa [arrivals] using ih
    | arrived a =>
      have ha : arrivals [.arrived a] = [a] := rfl
      simp only [step,ha]
      split
      · rename_i ho
        rw [hopen ho] at ih ⊢
        simpa using (List.Sublist.append ih (List.Sublist.refl [a]))
      · simpa [← List.append_assoc] using (List.Sublist.append ih (List.Sublist.refl [a]))

theorem emitted_sublist (n : Nat) (signals : List (Signal α)) :
    ((ofSignals n signals).emitted).Sublist (arrivals signals) :=
  (List.sublist_append_left _ _).trans (emitted_append_current_sublist n signals)

theorem fates_by_interval (n : Nat) (signals : List (Signal α)) :
    (arrivals signals : Multiset α) = (ofSignals n signals).emitted +
      (((ofSignals n signals).earlier.flatMap fun i => i.rdrop n) +
        (ofSignals n signals).current) := by
  induction signals using List.reverseRecOn with
  | nil => rfl
  | append_singleton signals x ih =>
    have hopen := @current_open α n signals
    rw [ofSignals_snoc,arrivals_snoc,← Multiset.coe_add,ih]
    cases x with
    | opened =>
      simp only [step]
      split
      · simp [arrivals]
      · have hsplit := rdrop_append_rtake n (ofSignals n signals).current
        simp only [List.flatMap_append,List.flatMap_singleton,← Multiset.coe_add]
        nth_rewrite 1 [← hsplit]
        simp only [← Multiset.coe_add,arrivals,List.filterMap_cons_none,List.filterMap_nil,
          Multiset.coe_nil]
        abel
    | closed =>
      simp only [step]
      split <;> simp [arrivals]
    | arrived a =>
      have ha : arrivals [.arrived a] = [a] := rfl
      simp only [step,ha]
      split
      · simp only [← Multiset.coe_add]
        abel
      · simp only [← Multiset.coe_add]
        abel

/-- Every arrival is emitted, lost or still waiting, and only one of these. -/
theorem fates (n : Nat) (signals : List (Signal α)) :
    (arrivals signals).Perm ((ofSignals n signals).emitted ++ (ofSignals n signals).lost n ++
      (ofSignals n signals).waiting n) := by
  rw [← Multiset.coe_eq_coe,fates_by_interval n signals]
  have hsplit := rdrop_append_rtake n (ofSignals n signals).current
  nth_rewrite 1 [← hsplit]
  simp only [lost,intervals,waiting,List.flatMap_append,List.flatMap_singleton,
    ← Multiset.coe_add]
  abel

end Ledger
end MeshNetwork
