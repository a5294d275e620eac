import Mathlib.Data.List.Basic

set_option autoImplicit false

namespace MeshNetwork

section Latest
variable {α β : Type}

/-- What the last item that says anything says, or `b`. -/
def latest (f : α → Option β) (b : β) (l : List α) : β := (l.filterMap f).getLast?.getD b

@[simp] theorem latest_nil (f : α → Option β) (b : β) : latest f b [] = b := rfl

theorem latest_append (f : α → Option β) (b : β) (l l' : List α) :
    latest f b (l ++ l') = latest f (latest f b l) l' := by
  simp only [latest,List.filterMap_append,List.getLast?_append]
  cases (l'.filterMap f).getLast? <;> simp

theorem latest_singleton (f : α → Option β) (b : β) (a : α) : latest f b [a] = (f a).getD b := by
  cases h : f a <;> simp [latest,h]

theorem latest_cons (f : α → Option β) (b : β) (a : α) (l : List α) :
    latest f b (a :: l) = latest f ((f a).getD b) l := by
  rw [← List.singleton_append,latest_append,latest_singleton]

theorem latest_map {γ : Type} (f : β → Option γ) (g : α → β) (b : γ) (l : List α) :
    latest f b (l.map g) = latest (f ∘ g) b l := by
  simp only [latest,List.filterMap_map]

end Latest

section Carriage
variable {α : Type} {a b c arrived arrived' out out' lost lost' : List α}

/-- A chain of queues: what was in it and what has arrived leaves at the far end, is lost,
or is still there, and nothing overtakes. -/
structure Carried (before arrived out lost after : List α) : Prop where
  order : (out ++ after).Sublist (before ++ arrived)
  counted : (before ++ arrived).Perm (out ++ lost ++ after)

theorem Carried.idle (l : List α) : Carried l [] [] [] l :=
  ⟨by simp,by simp⟩

/-- Some leave at the front, and some are lost from one place further back. -/
theorem Carried.cut {front back : List α} (h : a ++ arrived = out ++ front ++ lost ++ back) :
    Carried a arrived out lost (front ++ back) := by
  constructor
  · rw [h,← List.append_assoc]
    exact (List.sublist_append_left (out ++ front) lost).append_right back
  · rw [h]
    rw [← List.append_assoc (out ++ lost)]
    refine List.Perm.append_right back ?_
    rw [List.append_assoc,List.append_assoc]
    exact List.perm_append_comm.append_left out

theorem Carried.lossless (h : Carried a arrived out [] b) : out ++ b = a ++ arrived := by
  refine h.order.eq_of_length ?_
  have hcount := h.counted.length_eq
  rw [List.append_nil] at hcount
  exact hcount.symm

theorem Carried.trans (h : Carried a arrived out lost b) (h' : Carried b arrived' out' lost' c) :
    Carried a (arrived ++ arrived') (out ++ out') (lost ++ lost') c where
  order := by
    have hfirst : (out ++ (b ++ arrived')).Sublist (a ++ arrived ++ arrived') := by
      rw [← List.append_assoc]
      exact h.order.append_right arrived'
    rw [List.append_assoc,← List.append_assoc a]
    exact (h'.order.append_left out).trans hfirst
  counted := by
    have hfirst : (a ++ (arrived ++ arrived')).Perm (out ++ lost ++ (b ++ arrived')) := by
      rw [← List.append_assoc,← List.append_assoc]
      exact h.counted.append_right arrived'
    refine hfirst.trans ((h'.counted.append_left (out ++ lost)).trans ?_)
    simp only [List.append_assoc]
    refine List.Perm.append_left out ?_
    rw [← List.append_assoc lost,← List.append_assoc out' lost]
    exact List.perm_append_comm.append_right (lost' ++ c)

end Carriage

end MeshNetwork
