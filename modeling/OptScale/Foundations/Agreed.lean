import Mathlib

/-!
# Foundations/Agreed — what a list of values agrees on

A list of values agrees on the one value it has.  A further value leaves it there where it is the same, and is what
is agreed on where it is the first (`agreed_concat`); the order does not matter (`agreed_perm`).
-/

namespace Agreed

variable {β : Type*} [DecidableEq β] {vs ws : List β} {v w : β}

/-- The one value of a list. -/
def agreed : List β → Option β
  | [] => none
  | v :: vs => if ∀ w ∈ vs, w = v then some v else none

@[simp] theorem agreed_nil : agreed ([] : List β) = none := rfl

@[simp] theorem agreed_singleton : agreed [v] = some v := by simp [agreed]

theorem agreed_eq_some_iff : agreed vs = some v ↔ vs ≠ [] ∧ ∀ w ∈ vs, w = v := by
  cases vs with
  | nil => simp
  | cons u us =>
    simp only [agreed, Option.ite_none_right_eq_some, Option.some.injEq, ne_eq, reduceCtorEq, not_false_eq_true,
      true_and, List.forall_mem_cons]
    constructor
    · rintro ⟨h, rfl⟩
      exact ⟨rfl, h⟩
    · rintro ⟨rfl, h⟩
      exact ⟨h, rfl⟩

theorem agreed_perm (h : vs.Perm ws) : agreed vs = agreed ws := by
  refine Option.ext fun v => ?_
  rw [agreed_eq_some_iff, agreed_eq_some_iff]
  exact and_congr (not_congr ⟨fun hvs => (hvs ▸ h).nil_eq.symm, fun hws => (hws ▸ h).eq_nil⟩)
    ⟨fun hv w hw => hv w (h.mem_iff.mpr hw), fun hw v hv => hw v (h.mem_iff.mp hv)⟩

/-- **One more value.** -/
theorem agreed_concat (hvs : vs ≠ []) : agreed (vs ++ [w]) = (agreed vs).filter (· = w) := by
  refine Option.ext fun v => ?_
  rw [Option.filter_eq_some_iff, agreed_eq_some_iff, agreed_eq_some_iff]
  simp only [List.mem_append, List.mem_singleton, or_imp, forall_and, forall_eq, decide_eq_true_eq]
  exact ⟨fun h => ⟨⟨hvs, h.2.1⟩, h.2.2.symm⟩, fun h => ⟨by simp, h.1.2, h.2.symm⟩⟩

/-- What is not agreed on stays so. -/
theorem agreed_append_eq_none (hvs : vs ≠ []) (h : agreed vs = none) : agreed (vs ++ ws) = none := by
  refine Option.eq_none_iff_forall_ne_some.mpr fun v hv => ?_
  obtain ⟨-, hall⟩ := agreed_eq_some_iff.mp hv
  have hvs' := agreed_eq_some_iff.mpr ⟨hvs, fun w hw => hall w (List.mem_append_left _ hw)⟩
  rw [h] at hvs'
  cases hvs'

end Agreed
