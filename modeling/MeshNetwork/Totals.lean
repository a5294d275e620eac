import Mathlib.Algebra.GroupWithZero.Nat
import Mathlib.Algebra.Order.BigOperators.Group.List
import Mathlib.Algebra.Order.Group.Nat

set_option autoImplicit false

namespace MeshNetwork

def total {α : Type} (f : α → Nat) (l : List α) : Nat := (l.map f).sum

section Total
variable {α : Type} {f : α → Nat}

@[simp] theorem total_nil : total f [] = 0 := rfl

@[simp] theorem total_cons (a : α) (l : List α) : total f (a :: l) = f a + total f l := rfl

@[simp] theorem total_append (l l' : List α) : total f (l ++ l') = total f l + total f l' := by
  simp [total]

theorem total_map_congr {g : α → α} {l : List α} (h : ∀ a ∈ l, f (g a) = f a) :
    total f (l.map g) = total f l := by
  rw [total,List.map_map]
  exact congrArg List.sum (List.map_congr_left h)

theorem total_map {g : α → α} (h : ∀ a, f (g a) = f a) (l : List α) :
    total f (l.map g) = total f l :=
  total_map_congr fun a _ => h a

theorem total_sublist (f : α → Nat) {l l' : List α} (h : l.Sublist l') : total f l ≤ total f l' :=
  List.Sublist.sum_le_sum (h.map f) fun _ _ => Nat.zero_le _

theorem total_erase [DecidableEq α] {a : α} {l : List α} (h : a ∈ l) :
    f a + total f (l.erase a) = total f l := List.sum_map_erase f h

theorem total_filter {p : α → Bool} {a : α} {l : List α} (h : a ∈ l) (hp : p a = false) :
    f a + total f (l.filter p) ≤ total f l := by
  induction l with
  | nil => simp at h
  | cons b l ih =>
    rcases List.mem_cons.mp h with rfl | hmem
    · have hsub : total f (l.filter p) ≤ total f l := total_sublist f List.filter_sublist
      simp only [List.filter_cons,hp,Bool.false_eq_true,if_false,total_cons]
      omega
    · have hrest := ih hmem
      simp only [List.filter_cons]
      split <;> simp only [total_cons] <;> omega

theorem total_lt {g : α → α} {l : List α} (hle : ∀ b ∈ l, f (g b) ≤ f b) {a : α} (ha : a ∈ l)
    (hlt : f (g a) < f a) : total f (l.map g) < total f l := by
  rw [total,List.map_map]
  exact List.sum_lt_sum (f ∘ g) f hle ⟨a,ha,hlt⟩

theorem total_map_one {β : Type} {g : α → α} {key : α → β} {l : List α}
    (distinct : (l.map key).Nodup) {x : α} (hx : x ∈ l)
    (others : ∀ y, key y ≠ key x → f (g y) = f y) :
    total f (l.map g) + f x = total f l + f (g x) := by
  induction l with
  | nil => simp at hx
  | cons a l ih =>
    rw [List.map_cons,List.nodup_cons] at distinct
    simp only [List.map_cons,total_cons]
    rcases List.mem_cons.mp hx with rfl | hmem
    · have hrest : total f (l.map g) = total f l := by
        refine total_map_congr fun y hy => others y fun hkey => distinct.1 ?_
        rw [← hkey]
        exact List.mem_map_of_mem hy
      omega
    · have hne : key a ≠ key x := fun hkey => distinct.1 (by
        rw [hkey]
        exact List.mem_map_of_mem hmem)
      have hsame := others a hne
      have hrest := ih distinct.2 hmem
      omega

theorem le_total {l : List α} {a : α} (h : a ∈ l) : f a ≤ total f l := by
  have hsingle := total_sublist f (List.singleton_sublist.mpr h)
  simpa using hsingle

theorem add_le_total {l : List α} {a b : α} (ha : a ∈ l) (hb : b ∈ l) (hne : a ≠ b) :
    f a + f b ≤ total f l := by
  induction l with
  | nil => simp at ha
  | cons c l ih =>
    rw [total_cons]
    rcases List.mem_cons.mp ha with rfl | ha'
    · have hrest := le_total (f := f) (List.mem_of_ne_of_mem (Ne.symm hne) hb)
      omega
    · rcases List.mem_cons.mp hb with rfl | hb'
      · have hrest := le_total (f := f) ha'
        omega
      · have hrest := ih ha' hb'
        omega

theorem count_filterMap {β : Type} [DecidableEq β] (f : α → Option β) (b : β) (l : List α) :
    (l.filterMap f).count b = total (fun a => if f a = some b then 1 else 0) l := by
  induction l with
  | nil => rfl
  | cons a l ih =>
    cases h : f a with
    | none => simp [h,ih]
    | some c =>
      simp only [List.filterMap_cons,h,List.count_cons,ih,total_cons,Option.some.injEq,beq_iff_eq]
      omega

theorem total_filterMap {β : Type} (f : β → Nat) (g : α → Option β) (l : List α) :
    total f (l.filterMap g) = total (fun a => ((g a).map f).getD 0) l := by
  induction l with
  | nil => rfl
  | cons a l ih => cases h : g a <;> simp [h,ih]

theorem total_eq_zero {l : List α} (h : ∀ a ∈ l, f a = 0) : total f l = 0 := by
  induction l with
  | nil => rfl
  | cons a l ih =>
    rw [total_cons,h a List.mem_cons_self,ih fun b hb => h b (List.mem_cons_of_mem a hb)]

theorem exists_of_total_pos {l : List α} (h : 0 < total f l) : ∃ a ∈ l, f a ≠ 0 := by
  by_contra hnone
  simp only [not_exists,not_and,not_not] at hnone
  rw [total_eq_zero hnone] at h
  exact absurd h (Nat.lt_irrefl 0)

end Total
end MeshNetwork
