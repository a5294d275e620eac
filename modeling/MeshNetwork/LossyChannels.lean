import Mathlib.Data.Multiset.AddSub
import MeshNetwork.LabelledRuns

/-!
Channels that may lose, delay and reorder what is put into them, but neither make anything up
nor give anything twice.
-/

set_option autoImplicit false

namespace MeshNetwork.Runs

variable {ι α : Type}

inductive ChannelObs (ι α : Type) where
  | put (i : ι) (a : α)
  | get (i : ι) (a : α)
  deriving DecidableEq

variable [DecidableEq ι] [DecidableEq α]

/-- A channel holds what was put into it and not yet got; what is lost is never got. -/
def lossyChannels (ι α : Type) [DecidableEq ι] [DecidableEq α] :
    System (ι → Multiset α) (ChannelObs ι α) (ChannelObs ι α) where
  enabled s
    | .put _ _ => True
    | .get i a => a ∈ s i
  next s
    | .put i a => Function.update s i (a ::ₘ s i)
    | .get i a => Function.update s i ((s i).erase a)
  shows _ o := [o]

abbrev ChannelRun (s : ι → Multiset α) (tr : List (ChannelObs ι α)) : Prop :=
  Run (lossyChannels ι α) anyStep (fun _ => 0) s tr

theorem ChannelRun.snoc {s : ι → Multiset α} {tr : List (ChannelObs ι α)} (run : ChannelRun s tr)
    {o : ChannelObs ι α} (h : (lossyChannels ι α).enabled s o) :
    ChannelRun ((lossyChannels ι α).next s o) (tr ++ [o]) :=
  Run.snoc o run trivial h

theorem put_count (s : ι → Multiset α) (i j : ι) (a b : α) :
    ((lossyChannels ι α).next s (.put j b) i).count a =
      (s i).count a + [ChannelObs.put j b].count (.put i a) := by
  change (Function.update s j (b ::ₘ s j) i).count a = _
  by_cases hi : i = j
  · subst hi
    by_cases hb : a = b
    · simp [hb]
    · simp [hb,Ne.symm hb]
  · simp [hi,Ne.symm hi]

theorem get_count {s : ι → Multiset α} {j : ι} {b : α} (h : b ∈ s j) (i : ι) (a : α) :
    ((lossyChannels ι α).next s (.get j b) i).count a + [ChannelObs.get j b].count (.get i a) =
      (s i).count a := by
  change (Function.update s j ((s j).erase b) i).count a + _ = _
  by_cases hi : i = j
  · subst hi
    by_cases hb : a = b
    · subst hb
      have hpos := Multiset.count_pos.mpr h
      simp
      omega
    · simp [hb,Ne.symm hb]
  · simp [hi,Ne.symm hi]

theorem ChannelRun.count {s : ι → Multiset α} {tr : List (ChannelObs ι α)} (run : ChannelRun s tr)
    (i : ι) (a : α) : (s i).count a + tr.count (.get i a) = tr.count (.put i a) := by
  induction run with
  | nil => simp
  | @snoc s tr o run _ hen ih =>
    change _ + (tr ++ [o]).count _ = (tr ++ [o]).count _
    rw [List.count_append,List.count_append]
    cases o with
    | put j b =>
      have hput := put_count s i j a b
      have hget : [ChannelObs.put j b].count (.get i a) = 0 := by simp
      omega
    | get j b =>
      have hget := get_count hen i a
      have hput : [ChannelObs.get j b].count (.put i a) = 0 := by simp
      omega

theorem ChannelRun.get {s : ι → Multiset α} {tr : List (ChannelObs ι α)} (run : ChannelRun s tr)
    {i : ι} {a : α} (h : tr.count (.get i a) < tr.count (.put i a)) :
    ∃ s', ChannelRun s' (tr ++ [.get i a]) := by
  have hcount := run.count i a
  have hmem : a ∈ s i := Multiset.count_pos.mp (by omega)
  exact ⟨_,run.snoc (o := .get i a) hmem⟩

theorem ChannelRun.put {s : ι → Multiset α} {tr : List (ChannelObs ι α)} (run : ChannelRun s tr)
    (i : ι) (a : α) : ∃ s', ChannelRun s' (tr ++ [.put i a]) :=
  ⟨_,run.snoc (o := .put i a) trivial⟩

end MeshNetwork.Runs
