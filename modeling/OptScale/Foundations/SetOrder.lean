import Mathlib

/-!
# Foundations/SetOrder — sets that are gone through in an order of their own

A set made of a list is gone through in some order, each element once; nothing else is known of it.
-/

/-- An order a Python set is iterated in, whatever was put into it. -/
structure SetOrder (α : Type) where
  toList : List α → List α
  nodup : ∀ l, (toList l).Nodup
  mem : ∀ l x, x ∈ toList l ↔ x ∈ l

namespace SetOrder

variable {α β : Type} [DecidableEq α] [DecidableEq β]

/-- **The order of a set is one of its elements.** -/
theorem toList_perm (order : SetOrder α) (l : List α) : (order.toList l).Perm l.dedup :=
  (List.perm_ext_iff_of_nodup (order.nodup l) (List.nodup_dedup l)).mpr fun x => by
    rw [order.mem, List.mem_dedup]

/-- The elements in the order they last came. -/
def lastCome : SetOrder α where
  toList := List.dedup
  nodup := List.nodup_dedup
  mem _ _ := List.mem_dedup

/-- **Pairs taken apart**: the first components in some order, and with each its second components in some
order, are the pairs, each once. -/
theorem flatMap_toList_perm (first : SetOrder α) (second : SetOrder β) (l : List (α × β)) :
    ((first.toList (l.map Prod.fst)).flatMap fun a =>
      (second.toList ((l.filter fun p => p.1 = a).map Prod.snd)).map fun b => (a, b)).Perm l.dedup := by
  have hmem : ∀ p : α × β, p ∈ ((first.toList (l.map Prod.fst)).flatMap fun a =>
      (second.toList ((l.filter fun p => p.1 = a).map Prod.snd)).map fun b => (a, b)) ↔ p ∈ l := by
    rintro ⟨a, b⟩
    simp only [List.mem_flatMap, List.mem_map, first.mem, second.mem, List.mem_filter, decide_eq_true_eq]
    constructor
    · rintro ⟨a', -, b', ⟨⟨a'', b''⟩, ⟨hp, rfl⟩, rfl⟩, heq⟩
      exact heq ▸ hp
    · intro hp
      exact ⟨a, ⟨(a, b), hp, rfl⟩, b, ⟨(a, b), ⟨hp, rfl⟩, rfl⟩, rfl⟩
  refine (List.perm_ext_iff_of_nodup ?_ (List.nodup_dedup l)).mpr fun p => by rw [hmem, List.mem_dedup]
  refine List.nodup_flatMap.mpr ⟨fun a _ => (second.nodup _).map fun b b' h => (Prod.mk.inj h).2, ?_⟩
  refine (first.nodup _).imp fun {a a'} hne p hp hp' => hne ?_
  obtain ⟨b, -, rfl⟩ := List.mem_map.mp hp
  obtain ⟨b', -, heq⟩ := List.mem_map.mp hp'
  exact (Prod.mk.inj heq).1.symm

end SetOrder
