import Mathlib

/-!
# Foundations/Latest — the last of dated elements

`latest?` is the first of the elements with the greatest date.
-/

section Latest

variable {α : Type*} (date : α → ℤ)

/-- The later one; of two elements of one date the first. -/
def later (best : Option α) (a : α) : Option α :=
  match best with
  | none => some a
  | some b => if date b < date a then some a else some b

/-- The first of the elements with the greatest date. -/
def latest? (l : List α) : Option α := l.foldl (later date) none

variable {date}

theorem latest?_concat (l : List α) (a : α) :
    latest? date (l ++ [a]) = later date (latest? date l) a := by
  rw [latest?, List.foldl_append, List.foldl_cons, List.foldl_nil, latest?]

theorem latest?_eq_none {l : List α} : latest? date l = none ↔ l = [] := by
  induction l using List.reverseRecOn with
  | nil => exact ⟨fun _ => rfl, fun _ => rfl⟩
  | append_singleton l a ih =>
    rw [latest?_concat]
    refine ⟨fun h => ?_, fun h => absurd h (List.concat_ne_nil a l)⟩
    cases hl : latest? date l with
    | none =>
      rw [hl] at h
      exact nomatch h
    | some b =>
      rw [hl] at h
      simp only [later] at h
      split at h <;> exact nomatch h

/-- **The latest element** is one of the list, and none is later. -/
theorem latest?_spec {l : List α} {b : α} (h : latest? date l = some b) :
    b ∈ l ∧ ∀ a ∈ l, date a ≤ date b := by
  induction l using List.reverseRecOn generalizing b with
  | nil => exact nomatch h
  | append_singleton l a ih =>
    rw [latest?_concat] at h
    cases hl : latest? date l with
    | none =>
      rw [hl] at h
      obtain rfl := Option.some.inj h
      obtain rfl := latest?_eq_none.mp hl
      exact ⟨List.mem_singleton.mpr rfl, List.forall_mem_singleton.mpr le_rfl⟩
    | some c =>
      obtain ⟨hc, hmax⟩ := ih hl
      rw [hl] at h
      simp only [later] at h
      split at h
      · rename_i hlt
        obtain rfl := Option.some.inj h
        refine ⟨List.mem_append_right _ (List.mem_singleton.mpr rfl), ?_⟩
        exact List.forall_mem_append.mpr ⟨fun x hx => le_trans (hmax x hx) (le_of_lt hlt),
          List.forall_mem_singleton.mpr le_rfl⟩
      · rename_i hle
        obtain rfl := Option.some.inj h
        exact ⟨List.mem_append_left _ hc, List.forall_mem_append.mpr
          ⟨hmax, List.forall_mem_singleton.mpr (not_lt.mp hle)⟩⟩

theorem latest?_mem {l : List α} {b : α} (h : latest? date l = some b) : b ∈ l := (latest?_spec h).1

end Latest
