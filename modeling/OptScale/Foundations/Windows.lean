import Mathlib

/-!
# Foundations/Windows — marks that cut the instants into windows

Marks that come one after the other cut the instants after the first of them into windows: each goes
from one mark, which it does not contain, to the next, which it does.  Every instant up to the last
mark is in exactly one window (`existsUnique_inWindow`).
-/

namespace Windows

variable {ρ : Type*} {time : ρ → ℤ} {marks : List ρ} {m : ℤ} {i j : ℕ}

/-- The marks come one after the other. -/
def Ordered (time : ρ → ℤ) (marks : List ρ) : Prop := marks.IsChain fun r r' => time r < time r'

/-- The instant is in the window that begins at the mark of a place. -/
def InWindow (time : ρ → ℤ) (marks : List ρ) (m : ℤ) (i : ℕ) : Prop :=
  ∃ r r', marks[i]? = some r ∧ marks[i + 1]? = some r' ∧ time r < m ∧ m ≤ time r'

/-- A mark is later than all those before it. -/
theorem Ordered.lt (h : Ordered time marks) {r r' : ρ} (hij : i < j) (hr : marks[i]? = some r)
    (hr' : marks[j]? = some r') : time r < time r' := by
  have hpairwise : marks.Pairwise fun r r' => time r < time r' :=
    haveI : Trans (fun r r' : ρ => time r < time r') (fun r r' => time r < time r')
        (fun r r' => time r < time r') := ⟨lt_trans⟩
    List.IsChain.pairwise h
  obtain ⟨hi, rfl⟩ := List.getElem?_eq_some_iff.mp hr
  obtain ⟨hj, rfl⟩ := List.getElem?_eq_some_iff.mp hr'
  exact List.pairwise_iff_getElem.mp hpairwise i j hi hj hij

/-- No instant is in two windows. -/
theorem InWindow.unique (h : Ordered time marks) (hi : InWindow time marks m i)
    (hj : InWindow time marks m j) : i = j := by
  obtain ⟨a, a', ha, ha', ham, hma⟩ := hi
  obtain ⟨b, b', hb, hb', hbm, hmb⟩ := hj
  have hle : ∀ {i j : ℕ} {a' b : ρ}, marks[i + 1]? = some a' → marks[j]? = some b → time b < m →
      m ≤ time a' → j ≤ i := by
    intro i j a' b ha' hb hbm hma
    by_contra hlt
    rcases Nat.lt_or_eq_of_le (Nat.succ_le_of_lt (not_le.mp hlt)) with hlt | rfl
    · exact absurd (h.lt hlt ha' hb) (not_lt.mpr (hbm.le.trans hma))
    · obtain rfl := Option.some.inj (ha'.symm.trans hb)
      exact absurd hbm (not_lt.mpr hma)
  exact Nat.le_antisymm (hle hb' ha ham hmb) (hle ha' hb hbm hma)

/-- Some window has the instant. -/
theorem exists_inWindow {r r' : ρ} (hr' : marks.getLast? = some r') (hle : m ≤ time r') :
    marks.head? = some r → time r < m → ∃ i, InWindow time marks m i := by
  induction marks generalizing r with
  | nil => intro hr _; cases hr
  | cons a marks ih =>
    intro hr hlt
    obtain rfl := Option.some.inj hr
    cases marks with
    | nil =>
      obtain rfl := Option.some.inj hr'
      exact absurd hlt (not_lt.mpr hle)
    | cons b marks =>
      by_cases hb : m ≤ time b
      · exact ⟨0, a, b, rfl, rfl, hlt, hb⟩
      · rw [List.getLast?_cons_cons] at hr'
        obtain ⟨i, c, c', hc, hc', hcm⟩ := ih hr' rfl (not_le.mp hb)
        exact ⟨i + 1, c, c', hc, hc', hcm⟩

/-- **Every instant is in one window**, from the first mark to the last. -/
theorem existsUnique_inWindow (h : Ordered time marks) {r r' : ρ} (hr : marks.head? = some r)
    (hr' : marks.getLast? = some r') (hlt : time r < m) (hle : m ≤ time r') :
    ∃! i, InWindow time marks m i := by
  obtain ⟨i, hi⟩ := exists_inWindow hr' hle hr hlt
  exact ⟨i, hi, fun j hj => hj.unique h hi⟩

end Windows
