import OptScale.Foundations.Grouped

/-!
# Foundations/Overwritten — the last items of the groups

Where the items of a list are kept by key, the last one of a group takes the place of the others.  What the last
items add up to and what the others add up to is the sum of the list (`sumLast_add_sumOver`); so nothing is lost
exactly where the others weigh nothing (`sumOver_eq_zero_iff`).
-/

namespace Grouped

variable {α κ M : Type*} [DecidableEq κ] (key : α → κ)

/-- A filter after a filter. -/
theorem filter_filter_prop (l : List α) (p q : α → Prop) [DecidablePred p] [DecidablePred q] :
    ((l.filter fun a => p a).filter fun a => q a) = l.filter fun a => p a ∧ q a := by
  rw [List.filter_filter]
  exact List.filter_congr fun a _ => by rw [Bool.decide_and, Bool.and_comm]

/-- The items of a list under a key. -/
def group (l : List α) (k : κ) : List α := l.filter fun a => key a = k

/-- **A later item has the same key.** -/
def Overwritten (l : List α) (a : α) : Prop := a ∈ (group key l (key a)).dropLast

/-- The keys of a list. -/
def keys (l : List α) : List κ := (l.map key).dedup

variable {key} {l : List α} {a : α} {k : κ}

theorem mem_group : a ∈ group key l k ↔ a ∈ l ∧ key a = k := by
  rw [group, List.mem_filter, decide_eq_true_eq]

theorem mem_keys : k ∈ keys key l ↔ ∃ a ∈ l, key a = k := by
  rw [keys, List.mem_dedup, List.mem_map]

theorem Overwritten.mem (h : Overwritten key l a) : a ∈ l := (mem_group.mp (List.mem_of_mem_dropLast h)).1

/-- A key's group is not empty, and its last item has the key. -/
theorem exists_last (hk : k ∈ keys key l) : ∃ a, (group key l k).getLast? = some a ∧ a ∈ l ∧ key a = k := by
  obtain ⟨a, ha, hak⟩ := mem_keys.mp hk
  have hne : group key l k ≠ [] := List.ne_nil_of_mem (mem_group.mpr ⟨ha, hak⟩)
  exact ⟨_, List.getLast?_eq_some_getLast hne, mem_group.mp (List.getLast_mem hne)⟩

section Sums

variable [AddCommMonoid M] (key) (l) (f : α → M)

/-- The weight of the last item under a key. -/
def weightLast (k : κ) : M := ((group key l k).getLast?.map f).getD 0

/-- The weight of the other items under a key. -/
def weightOver (k : κ) : M := ((group key l k).dropLast.map f).sum

/-- What the last items weigh. -/
def sumLast : M := ((keys key l).map (weightLast key l f)).sum

/-- What the items weigh that are overwritten. -/
def sumOver : M := ((keys key l).map (weightOver key l f)).sum

theorem sumLast_congr {g : α → M} (h : ∀ a ∈ l, f a = g a) : sumLast key l f = sumLast key l g := by
  refine congrArg List.sum (List.map_congr_left fun k hk => ?_)
  obtain ⟨a, hlast, ha, -⟩ := exists_last hk
  rw [weightLast, weightLast, hlast, Option.map_some, Option.map_some, h a ha]

/-- **Nothing but what is overwritten is lost.** -/
theorem sumLast_add_sumOver : sumLast key l f + sumOver key l f = (l.map f).sum := by
  rw [← sum_groups key f l, sumLast, sumOver, ← List.sum_map_add]
  refine congrArg List.sum (List.map_congr_left fun k hk => ?_)
  obtain ⟨a, hlast, -⟩ := exists_last hk
  have hgroup := List.dropLast_append_getLast? a hlast
  rw [weightLast, weightOver, hlast, add_comm]
  change ((group key l k).dropLast.map f).sum + f a = ((group key l k).map f).sum
  rw [← congrArg (fun g => (List.map f g).sum) hgroup, List.map_append, List.sum_append, List.map_singleton,
    List.sum_singleton]

/-- What some of the items weigh, by another condition. -/
theorem sum_filter_and_not (p q : α → Prop) [DecidablePred p] [DecidablePred q] :
    ((l.filter fun a => p a).map f).sum =
      ((l.filter fun a => p a ∧ q a).map f).sum + ((l.filter fun a => p a ∧ ¬ q a).map f).sum := by
  rw [sum_filter, sum_filter, sum_filter, ← List.sum_map_add]
  refine congrArg List.sum (List.map_congr_left fun a _ => ?_)
  by_cases hp : p a <;> by_cases hq : q a <;> simp only [hp, hq, and_self, and_true, and_false, not_true_eq_false,
    not_false_eq_true, if_true, if_false, add_zero, zero_add]

variable {key l f} [PartialOrder M] [IsOrderedAddMonoid M]

theorem weightOver_nonneg (h : ∀ a ∈ l, 0 ≤ f a) (k : κ) : 0 ≤ weightOver key l f k := by
  refine List.sum_nonneg fun x hx => ?_
  obtain ⟨a, ha, rfl⟩ := List.mem_map.mp hx
  exact h a (mem_group.mp (List.mem_of_mem_dropLast ha)).1

theorem sumOver_nonneg (h : ∀ a ∈ l, 0 ≤ f a) : 0 ≤ sumOver key l f := by
  refine List.sum_nonneg fun x hx => ?_
  obtain ⟨k, -, rfl⟩ := List.mem_map.mp hx
  exact weightOver_nonneg h k

/-- **Nothing is lost** exactly where what is overwritten weighs nothing. -/
theorem sumOver_eq_zero_iff (h : ∀ a ∈ l, 0 ≤ f a) :
    sumOver key l f = 0 ↔ ∀ a, Overwritten key l a → f a = 0 := by
  constructor
  · intro hzero a ha
    have hgroup : weightOver key l f (key a) = 0 := List.all_zero_of_le_zero_le_of_sum_eq_zero
      (fun x hx => by
        obtain ⟨k, -, rfl⟩ := List.mem_map.mp hx
        exact weightOver_nonneg h k)
      hzero (List.mem_map_of_mem (mem_keys.mpr ⟨a, ha.mem, rfl⟩))
    refine List.all_zero_of_le_zero_le_of_sum_eq_zero (fun x hx => ?_) hgroup (List.mem_map_of_mem ha)
    obtain ⟨b, hb, rfl⟩ := List.mem_map.mp hx
    exact h b (mem_group.mp (List.mem_of_mem_dropLast hb)).1
  · intro hzero
    refine List.sum_eq_zero fun x hx => ?_
    obtain ⟨k, -, rfl⟩ := List.mem_map.mp hx
    refine List.sum_eq_zero fun y hy => ?_
    obtain ⟨a, ha, rfl⟩ := List.mem_map.mp hy
    refine hzero a ?_
    rw [Overwritten, (mem_group.mp (List.mem_of_mem_dropLast ha)).2]
    exact ha

/-- **The groups of some keys** are not more than the list. -/
theorem sum_groups_le_of_nodup {ks : List κ} (hks : ks.Nodup) (h : ∀ a ∈ l, 0 ≤ f a) :
    (ks.map fun k => ((group key l k).map f).sum).sum ≤ (l.map f).sum := by
  have hgroup : ∀ k ∈ ks, group key l k = group key (l.filter fun a => key a ∈ ks) k := by
    intro k hk
    rw [group, group, filter_filter_prop]
    exact List.filter_congr fun a _ => decide_eq_decide.mpr ⟨fun hak => ⟨hak ▸ hk, hak⟩, And.right⟩
  have hsum : (ks.map fun k => ((group key l k).map f).sum).sum = ((l.filter fun a => key a ∈ ks).map f).sum := by
    rw [← sum_groups_of_nodup hks key f fun a ha => of_decide_eq_true (List.mem_filter.mp ha).2]
    exact congrArg List.sum (List.map_congr_left fun k hk => by rw [hgroup k hk]; rfl)
  rw [hsum]
  refine (List.filter_sublist.map f).sum_le_sum fun x hx => ?_
  obtain ⟨a, ha, rfl⟩ := List.mem_map.mp hx
  exact h a ha

end Sums

end Grouped

namespace Table

variable {α κ M : Type*} {key : α → κ} [DecidableEq κ] [AddCommMonoid M]

/-- **The rows of some keys**, added up key by key. -/
theorem sum_rows_of_keys {t : Table key} {ks : List κ} (hks : ks.Nodup) (hin : ∀ k ∈ ks, k ∈ t.rows.map key)
    (w : α → M) : ((t.rows.filter fun a => key a ∈ ks).map w).sum =
      (ks.map fun k => ((t.get? k).map w).getD 0).sum := by
  have hkeys : ((t.rows.filter fun a => key a ∈ ks).map key).Perm ks := by
    refine (List.perm_ext_iff_of_nodup (t.nodup.sublist (List.filter_sublist.map key)) hks).mpr fun k => ?_
    rw [List.mem_map]
    constructor
    · rintro ⟨a, ha, rfl⟩
      exact of_decide_eq_true (List.mem_filter.mp ha).2
    · intro hk
      obtain ⟨a, ha, rfl⟩ := List.mem_map.mp (hin k hk)
      exact ⟨a, List.mem_filter.mpr ⟨ha, decide_eq_true hk⟩, rfl⟩
  rw [← (hkeys.map _).sum_eq, List.map_map]
  refine congrArg List.sum (List.map_congr_left fun a ha => ?_)
  rw [Function.comp_apply, Table.get?_eq_some.mpr ⟨List.mem_of_mem_filter ha, rfl⟩]
  rfl

end Table
