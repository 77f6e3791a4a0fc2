import Mathlib

/-!
# Foundations/Watermark — events published up to an instant

A log is *up to* a watermark `w` when it holds every event that occurs by `w` once and no other.
Publishing the window `(w, c]` moves it up to `c` (`append`); calling it up to another instant is
right exactly when no event lies between the two (`upTo_iff`).
-/

namespace Watermark

variable {ε τ : Type*} [DecidableEq ε] [LinearOrder τ] {occurs : ε → τ → Prop}

/-- The log holds what occurs by `w` once, and nothing that occurs later. -/
def UpTo (occurs : ε → τ → Prop) (w : τ) (log : List ε) : Prop :=
  ∀ e t, occurs e t → log.count e = if t ≤ w then 1 else 0

namespace UpTo

variable {w c o : τ} {log batch : List ε}

theorem count_le_one (h : UpTo occurs w log) {e : ε} {t : τ} (he : occurs e t) :
    log.count e ≤ 1 := by
  rw [h e t he]
  split_ifs
  · exact le_rfl
  · exact Nat.zero_le 1

theorem count_eq_one (h : UpTo occurs w log) {e : ε} {t : τ} (he : occurs e t) (ht : t ≤ w) :
    log.count e = 1 := by
  rw [h e t he, if_pos ht]

/-- **Publishing a window**: the batch holds what occurs in `(w, c]`, each event once. -/
theorem append (h : UpTo occurs w log) (hbatch : batch.Nodup)
    (hwindow : ∀ e t, occurs e t → (e ∈ batch ↔ w < t ∧ t ≤ c)) (hwc : w ≤ c) :
    UpTo occurs c (log ++ batch) := by
  intro e t he
  rw [List.count_append, h e t he, hbatch.count]
  by_cases htw : t ≤ w
  · have hout : e ∉ batch := fun hin => absurd ((hwindow e t he).mp hin).1 (not_lt.mpr htw)
    rw [if_pos htw, if_neg hout, if_pos (htw.trans hwc)]
  · rw [if_neg htw, Nat.zero_add]
    refine if_congr ?_ rfl rfl
    rw [hwindow e t he]
    exact and_iff_right (not_le.mp htw)

end UpTo

/-- **Moving the watermark** is right exactly when nothing occurs between the old and the new. -/
theorem upTo_iff {w o : τ} {log : List ε} (h : UpTo occurs w log) :
    UpTo occurs o log ↔ ∀ e t, occurs e t → t ∉ Set.uIoc w o := by
  refine forall₃_congr fun e t he => ?_
  rw [h e t he, Set.mem_uIoc]
  by_cases hw : t ≤ w <;> by_cases ho : t ≤ o
  · simp [hw, ho, not_lt.mpr hw, not_lt.mpr ho]
  · simp [hw, ho, not_le.mp ho]
  · simp [hw, ho, not_le.mp hw]
  · simp [hw, ho]

end Watermark
