import OptScale.Foundations.Ledger

/-!
# Foundations/Replacements — batches that replace what a ledger holds

A replacement takes back what was found under a key, if anything was, and enters a new value.  A batch with one
replacement for each of its keys leaves them with their new values and every other key as it was
(`balance_replaced`, `balance_of_not_replaced`).  It does so for any keys: of a batch that is stored in part, key by
key, the stored part is a batch.

What is found is right as long as no key has more than one value left (`Single`), which batches and collapses
keep.
-/

namespace Ledger

variable {κ R : Type*}

/-- A value for a key, and the one it takes the place of. -/
structure Replacement (κ R : Type*) where
  key : κ
  old : Option R
  new : R
  deriving DecidableEq

namespace Replacement

/-- The rows that make a replacement. -/
def rows (c : Replacement κ R) : List (Row κ R) :=
  (c.old.map fun v => ⟨c.key, v, -1⟩).toList ++ [⟨c.key, c.new, 1⟩]

variable {c : Replacement κ R} {cs : List (Replacement κ R)} {r : Row κ R}

theorem key_of_mem_rows (hr : r ∈ c.rows) : r.key = c.key := by
  obtain ⟨k, old, new⟩ := c
  cases old with
  | none =>
    obtain rfl : r = ⟨k, new, 1⟩ := List.mem_singleton.mp hr
    rfl
  | some v =>
    obtain rfl | rfl : r = ⟨k, v, -1⟩ ∨ r = ⟨k, new, 1⟩ := by simpa [rows] using hr
    · rfl
    · rfl

/-- The rows of a batch. -/
def batch (cs : List (Replacement κ R)) : List (Row κ R) := cs.flatMap rows

@[simp] theorem batch_nil : batch ([] : List (Replacement κ R)) = [] := rfl

@[simp] theorem batch_cons : batch (c :: cs) = c.rows ++ batch cs := rfl

@[simp] theorem mem_batch : r ∈ batch cs ↔ ∃ c ∈ cs, r ∈ c.rows := List.mem_flatMap

end Replacement

open Replacement

variable [DecidableEq κ] [Ring R]

/-- What is left under a key. -/
def Found (table : Multiset (Row κ R)) (k : κ) : Option R → Prop
  | none => ∀ r ∈ table, r.key ≠ k
  | some v => balance table k = (1, v)

/-- **No key has more than one value left**, and one that has none has no row. -/
def Single (table : Multiset (Row κ R)) : Prop := ∀ k, (∀ r ∈ table, r.key ≠ k) ∨ (balance table k).1 = 1

/-- The net value of a key that has rows. -/
def find (table : Multiset (Row κ R)) (k : κ) : Option R :=
  if k ∈ table.map Row.key then some (balance table k).2 else none

variable {table table' : Multiset (Row κ R)} {c : Replacement κ R} {cs : List (Replacement κ R)} {k : κ}
  {old : Option R}

theorem single_zero : Single (0 : Multiset (Row κ R)) := fun _ => Or.inl fun r hr => absurd hr (Multiset.notMem_zero r)

/-- **What is found is what is left.** -/
theorem Single.found (h : Single table) (k : κ) : Found table k (find table k) := by
  unfold find
  split
  · rename_i hrow
    obtain ⟨r, hr, hk⟩ := Multiset.mem_map.mp hrow
    rcases h k with hnone | hone
    · exact absurd hk (hnone r hr)
    · exact Prod.ext hone rfl
  · rename_i hnone
    exact fun r hr hk => hnone (Multiset.mem_map.mpr ⟨r, hr, hk⟩)

theorem Single.balance_of_find (h : Single table) {v : R} (hv : find table k = some v) :
    balance table k = (1, v) := by
  have hfound := h.found k
  rwa [hv] at hfound

/-! ## Batches -/

theorem balance_batch_of_ne (hk : ∀ c ∈ cs, c.key ≠ k) : balance (batch cs : Multiset (Row κ R)) k = 0 := by
  refine balance_of_forall_ne fun r hr => ?_
  obtain ⟨c, hc, hr⟩ := mem_batch.mp (Multiset.mem_coe.mp hr)
  rw [key_of_mem_rows hr]
  exact hk c hc

/-- **A key without a replacement** keeps its balance. -/
theorem balance_of_not_replaced (hk : ∀ c ∈ cs, c.key ≠ k) :
    balance (table + (batch cs : Multiset (Row κ R))) k = balance table k := by
  rw [balance_add, balance_batch_of_ne hk, add_zero]

theorem Found.of_not_replaced (h : Found table k old) (hk : ∀ c ∈ cs, c.key ≠ k) :
    Found (table + (batch cs : Multiset (Row κ R))) k old := by
  cases old with
  | none =>
    intro r hr hrk
    obtain hr | hr := Multiset.mem_add.mp hr
    · exact h r hr hrk
    · obtain ⟨c, hc, hr⟩ := mem_batch.mp (Multiset.mem_coe.mp hr)
      exact hk c hc ((key_of_mem_rows hr).symm.trans hrk)
  | some v => exact (balance_of_not_replaced hk).trans h

/-- **One replacement.** -/
theorem balance_rows (h : Found table c.key c.old) :
    balance (table + (c.rows : Multiset (Row κ R))) c.key = (1, c.new) := by
  obtain ⟨k, old, new⟩ := c
  cases old with
  | none =>
    have hrows : table + (rows ⟨k, none, new⟩ : Multiset (Row κ R)) = ⟨k, new, 1⟩ ::ₘ table := by
      rw [add_comm]
      rfl
    rw [hrows]
    exact balance_enter (balance_of_forall_ne h) new
  | some v =>
    have hrows : table + (rows ⟨k, some v, new⟩ : Multiset (Row κ R)) =
        ⟨k, v, -1⟩ ::ₘ ⟨k, new, 1⟩ ::ₘ table := by
      have hcons : (rows ⟨k, some v, new⟩ : Multiset (Row κ R)) = ⟨k, v, -1⟩ ::ₘ ⟨k, new, 1⟩ ::ₘ 0 := rfl
      rw [hcons, add_comm, Multiset.cons_add, Multiset.cons_add, zero_add]
    rw [hrows]
    exact balance_replace h new

/-- **A batch leaves each of its keys with the new value.** -/
theorem balance_replaced (hnodup : (cs.map Replacement.key).Nodup) (hfound : ∀ c ∈ cs, Found table c.key c.old)
    (hc : c ∈ cs) : balance (table + (batch cs : Multiset (Row κ R))) c.key = (1, c.new) := by
  induction cs generalizing table with
  | nil => exact absurd hc List.not_mem_nil
  | cons d cs ih =>
    obtain ⟨hd, hnodup⟩ := List.nodup_cons.mp hnodup
    obtain ⟨hfd, hfound⟩ := List.forall_mem_cons.mp hfound
    have hne : ∀ c ∈ cs, c.key ≠ d.key := fun c hc hkey => hd (hkey ▸ List.mem_map_of_mem hc)
    rw [batch_cons, ← Multiset.coe_add, ← add_assoc]
    rcases List.mem_cons.mp hc with rfl | hc
    · rw [balance_of_not_replaced hne, balance_rows hfd]
    · have hone : batch [d] = d.rows := List.append_nil d.rows
      refine ih hnodup (fun c hc => ?_) hc
      rw [← hone]
      exact (hfound c hc).of_not_replaced fun x hx => by
        rw [List.mem_singleton.mp hx]
        exact (hne c hc).symm

/-- **A batch keeps single what is single.** -/
theorem Single.batch (h : Single table) (hnodup : (cs.map Replacement.key).Nodup)
    (hfound : ∀ c ∈ cs, Found table c.key c.old) : Single (table + (batch cs : Multiset (Row κ R))) := by
  intro k
  by_cases hk : ∃ c ∈ cs, c.key = k
  · obtain ⟨c, hc, rfl⟩ := hk
    exact Or.inr (congrArg Prod.fst (balance_replaced hnodup hfound hc))
  · have hk : ∀ c ∈ cs, c.key ≠ k := fun c hc hkey => hk ⟨c, hc, hkey⟩
    rcases h k with hnone | hone
    · have hfound : Found table k none := hnone
      exact Or.inl (hfound.of_not_replaced hk)
    · exact Or.inr ((congrArg Prod.fst (balance_of_not_replaced hk)).trans hone)

/-! ## Collapses -/

omit [DecidableEq κ] [Ring R] in
theorem mem_of_collapse (h : Collapse table table') {r : Row κ R} (hr : r ∈ table') : r ∈ table := by
  obtain ⟨_, _, _⟩ := h
  exact Multiset.mem_cons_of_mem (Multiset.mem_cons_of_mem hr)

theorem Found.collapse (h : Found table k old) (hc : Collapse table table') : Found table' k old := by
  cases old with
  | none => exact fun r hr => h r (mem_of_collapse hc hr)
  | some v => exact (balance_collapse hc).trans h

theorem Single.collapse (h : Single table) (hc : Collapse table table') : Single table' := fun k =>
  (h k).imp (fun hnone r hr => hnone r (mem_of_collapse hc hr)) fun hone => by rwa [balance_collapse hc]

end Ledger
