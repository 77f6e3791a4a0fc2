import Mathlib

/-!
# Foundations/Sweep — a loop that removes from the list it runs over

An iterator over a list is an index into it.  A loop that removes the element it stands at moves the next one
to its place, and then steps over it.  So it keeps what it should keep (`filter_sweep`), but of two neighbours
that should both go the second stays: the loop is the filter it stands for exactly when no two neighbours go
(`sweep_eq_filter_iff`).
-/

namespace Sweep

variable {α : Type*} [DecidableEq α] (keep : α → Bool)

/-- The loop from an index on. -/
def sweepFrom (l : List α) (i : ℕ) : List α :=
  if h : i < l.length then
    if keep l[i] then sweepFrom l (i + 1) else sweepFrom (l.erase l[i]) (i + 1)
  else l
termination_by l.length - i
decreasing_by
  · omega
  · rw [List.length_erase_of_mem (List.getElem_mem h)]
    omega

/-- `for x in l: if not keep(x): l.remove(x)` -/
def sweep (l : List α) : List α := sweepFrom keep l 0

/-- No two neighbours go. -/
def Apart (l : List α) : Prop := l.IsChain fun x y => keep x ∨ keep y

instance (l : List α) : Decidable (Apart keep l) := inferInstanceAs (Decidable (l.IsChain _))

variable {keep}

/-- **What should be kept stays.** -/
theorem filter_sweepFrom (l : List α) (i : ℕ) : (sweepFrom keep l i).filter keep = l.filter keep := by
  fun_induction sweepFrom keep l i with
  | case1 l i h hkeep ih => exact ih
  | case2 l i h hgo ih =>
    have hnot : l[i] ∉ l.filter keep := fun hin => hgo (List.mem_filter.mp hin).2
    rw [ih, ← List.erase_filter, List.erase_of_not_mem hnot]
  | case3 l i h => rfl

/-! ## A turn -/

section Turn

variable {before after : List α} {x y : α}

theorem sweepFrom_nil : sweepFrom keep before before.length = before := by
  rw [sweepFrom, dif_neg (Nat.lt_irrefl _)]

/-- Past the end. -/
theorem sweepFrom_past : sweepFrom keep before (before.length + 1) = before := by
  rw [sweepFrom, dif_neg (by omega)]

/-- An element that is kept. -/
theorem sweepFrom_keep (hx : keep x) :
    sweepFrom keep (before ++ x :: after) before.length =
      sweepFrom keep ((before ++ [x]) ++ after) (before ++ [x]).length := by
  rw [sweepFrom, dif_pos (by simp)]
  simp [hx]

/-- An element that goes, where there is none like it before. -/
theorem sweepFrom_go (hx : keep x = false) (hnew : x ∉ before) :
    sweepFrom keep (before ++ x :: after) before.length = sweepFrom keep (before ++ after) (before.length + 1) := by
  have herase : (before ++ x :: after).erase x = before ++ after := by
    rw [List.erase_append_right _ hnew, List.erase_cons_head]
  rw [sweepFrom, dif_pos (by simp)]
  simp [hx, herase]

/-- Where there is one, that one goes instead. -/
theorem sweepFrom_goOld (hx : keep x = false) (hold : x ∈ before) :
    sweepFrom keep (before ++ x :: after) before.length =
      sweepFrom keep ((before.erase x ++ [x]) ++ after) ((before.erase x ++ [x]).length + 1) := by
  have herase : (before ++ x :: after).erase x = before.erase x ++ [x] ++ after := by
    rw [List.erase_append_left _ hold, List.append_assoc, List.singleton_append]
  have hlength : (before.erase x ++ [x]).length = before.length := by
    have hpos := List.length_pos_of_mem hold
    rw [List.length_append, List.length_erase_of_mem hold, List.length_singleton]
    omega
  rw [sweepFrom, dif_pos (by simp), hlength]
  simp only [List.getElem_append_right (Nat.le_refl _), Nat.sub_self, List.getElem_cons_zero, hx, herase,
    Bool.false_eq_true, if_false]

/-- One more element is stepped over. -/
theorem sweepFrom_over : sweepFrom keep (before ++ y :: after) (before.length + 1) =
    sweepFrom keep ((before ++ [y]) ++ after) (before ++ [y]).length := by
  simp

end Turn

/-! ## The whole loop -/

omit [DecidableEq α] in
/-- An element that is kept is apart from every neighbour. -/
theorem apart_cons {x : α} {l : List α} (hx : keep x) : Apart keep (x :: l) ↔ Apart keep l :=
  List.isChain_cons.trans (and_iff_right fun _ _ => Or.inl hx)

/-- **Nothing that should go is left** exactly when no two neighbours should. -/
theorem forall_mem_sweepFrom (before after : List α) :
    (∀ x ∈ sweepFrom keep (before ++ after) before.length, keep x) ↔ (∀ x ∈ before, keep x) ∧ Apart keep after := by
  induction hn : after.length using Nat.strong_induction_on generalizing before after with
  | _ n ih =>
  subst hn
  have hconcat : ∀ (l : List α) (y : α), (∀ x ∈ l ++ [y], keep x) ↔ (∀ x ∈ l, keep x) ∧ keep y := fun l y => by
    rw [List.forall_mem_append, List.forall_mem_singleton]
  cases after with
  | nil =>
    rw [List.append_nil, sweepFrom_nil]
    exact (and_iff_left List.isChain_nil).symm
  | cons x rest =>
    by_cases hx : keep x
    · rw [sweepFrom_keep hx, ih rest.length (by simp) _ rest rfl, hconcat, and_assoc, and_iff_right hx, apart_cons hx]
    · have hgo : keep x = false := by simpa using hx
      by_cases hold : x ∈ before
      · refine ⟨fun hall => ?_, fun h => absurd (h.1 x hold) hx⟩
        rw [sweepFrom_goOld hgo hold] at hall
        -- The element itself is left behind, and stays there.
        cases rest with
        | nil =>
          rw [List.append_nil, sweepFrom_past, hconcat] at hall
          exact absurd hall.2 hx
        | cons y rest =>
          rw [sweepFrom_over, ih rest.length (by simp) _ rest rfl, hconcat, hconcat] at hall
          exact absurd hall.1.1.2 hx
      · rw [sweepFrom_go hgo hold]
        cases rest with
        | nil =>
          rw [List.append_nil, sweepFrom_past]
          exact (and_iff_left (List.isChain_singleton x)).symm
        | cons y rest =>
          have happart : Apart keep (x :: y :: rest) ↔ keep y ∧ Apart keep rest := by
            refine List.isChain_cons_cons.trans ?_
            rw [or_iff_right hx]
            exact and_congr_right fun hy => apart_cons hy
          rw [sweepFrom_over, ih rest.length (by simp) _ rest rfl, hconcat, happart, and_assoc]

theorem forall_mem_sweep (l : List α) : (∀ x ∈ sweep keep l, keep x) ↔ Apart keep l := by
  have h : (∀ x ∈ sweepFrom keep ([] ++ l) 0, keep x) ↔ _ := forall_mem_sweepFrom [] l
  exact h.trans (and_iff_right fun x hx => absurd hx List.not_mem_nil)

/-- **The loop is the filter** exactly when no two neighbours go. -/
theorem sweep_eq_filter_iff (l : List α) : sweep keep l = l.filter keep ↔ Apart keep l := by
  rw [← forall_mem_sweep, ← filter_sweepFrom l 0]
  exact eq_comm.trans List.filter_eq_self

end Sweep
