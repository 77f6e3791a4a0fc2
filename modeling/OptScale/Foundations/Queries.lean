import OptScale.Foundations.Grouped

/-!
# Foundations/Queries — grouping and joining

`groupBy` makes one row of the rows of a key, `join` puts the rows of two lists together that agree on a key.
What a list adds up to its groups add up to, and a sum over a join is a sum over pairs, in either order.
-/

namespace Queries

variable {α β κ M : Type*} [DecidableEq κ]

/-- `GROUP BY key` -/
def groupBy (key : α → κ) (l : List α) : List (κ × List α) :=
  (l.map key).dedup.map fun k => (k, l.filter fun a => key a = k)

/-- `INNER JOIN` on equal keys. -/
def join (left : α → κ) (right : β → κ) (l : List α) (m : List β) : List (α × β) :=
  l.flatMap fun a => (m.filter fun b => left a = right b).map fun b => (a, b)

/-! ## Groups -/

section Groups

variable {key : α → κ} {l : List α}

/-- A group is that of a row, and has all the rows of its key. -/
theorem mem_groupBy {g : κ × List α} :
    g ∈ groupBy key l ↔ (∃ a ∈ l, key a = g.1) ∧ g.2 = l.filter fun a => key a = g.1 := by
  obtain ⟨k, group⟩ := g
  simp only [groupBy, List.mem_map, List.mem_dedup, Prod.mk.injEq]
  constructor
  · rintro ⟨k, hk, rfl, rfl⟩
    exact ⟨hk, rfl⟩
  · rintro ⟨hk, hgroup⟩
    exact ⟨k, hk, rfl, hgroup.symm⟩

/-- **The group of a key**, if any row has the key. -/
theorem filter_groupBy (k : κ) : (groupBy key l).filter (fun g => g.1 = k) =
    if ∃ a ∈ l, key a = k then [(k, l.filter fun a => key a = k)] else [] := by
  have hkeys : (groupBy key l).filter (fun g => g.1 = k) =
      ((l.map key).dedup.filter fun x => x = k).map fun k => (k, l.filter fun a => key a = k) :=
    List.filter_map ..
  have hkey : (l.map key).dedup.filter (fun x => x = k) =
      List.replicate ((l.map key).dedup.count k) k := List.filter_eq k
  rw [hkeys, hkey, List.count_dedup]
  simp only [List.mem_map]
  split <;> rfl

/-- **The groups add up to the list.** -/
theorem sum_groupBy [AddCommMonoid M] (f : α → M) :
    ((groupBy key l).map fun g => (g.2.map f).sum).sum = (l.map f).sum := by
  rw [groupBy, List.map_map]
  exact Grouped.sum_groups key f l

end Groups

/-! ## Pairs -/

section Pairs

variable [AddCommMonoid M] {left : α → κ} {right : β → κ} {l : List α} {m : List β}

omit [DecidableEq κ] in
/-- **Sums over pairs** may be taken in either order. -/
theorem sum_comm (f : α → β → M) : (l.map fun a => (m.map fun b => f a b).sum).sum =
    (m.map fun b => (l.map fun a => f a b).sum).sum := by
  induction l with
  | nil => simp
  | cons a l ih => simp only [List.map_cons, List.sum_cons, ih, List.sum_map_add]

/-- **A sum over a join** is a sum over the pairs that agree. -/
theorem sum_join (f : α × β → M) : ((join left right l m).map f).sum =
    (l.map fun a => (m.map fun b => if left a = right b then f (a, b) else 0).sum).sum := by
  unfold join
  induction l with
  | nil => rfl
  | cons a l ih =>
    rw [List.flatMap_cons, List.map_append, List.sum_append, ih, List.map_map, List.map_cons,
      List.sum_cons, Grouped.sum_filter]
    rfl

end Pairs

end Queries
