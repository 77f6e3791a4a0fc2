import Mathlib

/-!
# Foundations/Slot — half-open slots on a time line

A slot `[start, stop)` may have no end (`stop = ⊤`) and may be empty (`stop ≤ start`).  Two slots
meet exactly where the later of the two starts lies in both (`not_disjoint_iff`), so disjointness
is decided at the starts.
-/

/-- A half-open slot, without an end when `stop` is `⊤`. -/
structure Slot (α : Type*) where
  start : α
  stop : WithTop α

namespace Slot

variable {α : Type*} [LinearOrder α]

/-- The instants of the slot. -/
def instants (A : Slot α) : Set α := {t | A.start ≤ t ∧ (t : WithTop α) < A.stop}

theorem mem_instants {A : Slot α} {t : α} :
    t ∈ A.instants ↔ A.start ≤ t ∧ (t : WithTop α) < A.stop := Iff.rfl

/-- **A slot that holds an instant holds everything from its start up to it.** -/
theorem mem_of_le {A : Slot α} {s t : α} (ht : t ∈ A.instants) (hs : A.start ≤ s) (hst : s ≤ t) :
    s ∈ A.instants :=
  ⟨hs, lt_of_le_of_lt (WithTop.coe_le_coe.mpr hst) ht.2⟩

/-- **Two slots meet exactly where one of them starts.** -/
theorem not_disjoint_iff {A B : Slot α} :
    ¬ Disjoint A.instants B.instants ↔
      A.start ∈ A.instants ∧ A.start ∈ B.instants ∨
        B.start ∈ A.instants ∧ B.start ∈ B.instants := by
  rw [Set.not_disjoint_iff]
  constructor
  · rintro ⟨t, hA, hB⟩
    rcases le_total A.start B.start with h | h
    · exact Or.inr ⟨mem_of_le hA h hB.1, mem_of_le hB le_rfl hB.1⟩
    · exact Or.inl ⟨mem_of_le hA le_rfl hA.1, mem_of_le hB h hA.1⟩
  · rintro (⟨hA, hB⟩ | ⟨hA, hB⟩)
    · exact ⟨_, hA, hB⟩
    · exact ⟨_, hA, hB⟩

end Slot
