import Mathlib

/-!
# Foundations/Ledger — a ledger of signed rows

A row adds its cost to its key with a sign, so a row is taken back by one of the opposite sign.  The
ledger may at any time drop two rows that take each other back (`Collapse`).  All a reader may rely
on is the `balance` of a key, its net sign and net cost; it is additive in the rows, and no collapse
changes it.  A query finds the keys with a positive one (`Selects`).
-/

namespace Ledger

variable {κ R : Type*}

/-- A signed row of a key. -/
structure Row (κ R : Type*) where
  key : κ
  cost : R
  sign : ℤ
  deriving DecidableEq

/-- Two rows that take each other back are dropped. -/
inductive Collapse : Multiset (Row κ R) → Multiset (Row κ R) → Prop
  | pair (rows : Multiset (Row κ R)) (k : κ) (c : R) :
    Collapse (⟨k, c, 1⟩ ::ₘ ⟨k, c, -1⟩ ::ₘ rows) rows

variable [DecidableEq κ] [Ring R]

/-- What a row adds to its key. -/
def Row.worth (r : Row κ R) : ℤ × R := (r.sign, r.cost * (r.sign : R))

/-- The net sign and the net cost of a key. -/
def balance (rows : Multiset (Row κ R)) (k : κ) : ℤ × R :=
  ((rows.filter fun r => r.key = k).map Row.worth).sum

variable {rows batch rows' : Multiset (Row κ R)} {k : κ}

@[simp] theorem balance_zero : balance (0 : Multiset (Row κ R)) k = 0 := rfl

@[simp] theorem balance_add : balance (rows + batch) k = balance rows k + balance batch k := by
  simp only [balance, Multiset.filter_add, Multiset.map_add, Multiset.sum_add]

theorem balance_cons_self (c : R) (sign : ℤ) :
    balance (⟨k, c, sign⟩ ::ₘ rows) k = (sign, c * (sign : R)) + balance rows k := by
  unfold balance
  rw [Multiset.filter_cons_of_pos (p := fun r : Row κ R => r.key = k) _ rfl, Multiset.map_cons,
    Multiset.sum_cons]
  rfl

theorem balance_cons_of_ne {r : Row κ R} (h : r.key ≠ k) :
    balance (r ::ₘ rows) k = balance rows k := by
  unfold balance
  rw [Multiset.filter_cons_of_neg (p := fun r : Row κ R => r.key = k) _ h]

/-- The net sign alone. -/
theorem balance_fst : (balance rows k).1 = ((rows.filter fun r => r.key = k).map Row.sign).sum := by
  have hfst := map_multiset_sum (AddMonoidHom.fst ℤ R)
    ((rows.filter fun r => r.key = k).map Row.worth)
  rw [Multiset.map_map] at hfst
  exact hfst

/-- The net cost alone. -/
theorem balance_snd : (balance rows k).2 =
    ((rows.filter fun r => r.key = k).map fun r => r.cost * (r.sign : R)).sum := by
  have hsnd := map_multiset_sum (AddMonoidHom.snd ℤ R)
    ((rows.filter fun r => r.key = k).map Row.worth)
  rw [Multiset.map_map] at hsnd
  exact hsnd

theorem balance_of_forall_ne (h : ∀ r ∈ rows, r.key ≠ k) : balance rows k = 0 := by
  unfold balance
  rw [Multiset.filter_eq_nil.mpr h]
  rfl

/-- A key with one row. -/
theorem balance_of_nodup {l : List (Row κ R)} (hl : (l.map Row.key).Nodup) {r : Row κ R} (hr : r ∈ l) :
    balance (l : Multiset (Row κ R)) r.key = r.worth := by
  induction l with
  | nil => exact absurd hr List.not_mem_nil
  | cons a l ih =>
    obtain ⟨ha, hl⟩ := List.nodup_cons.mp hl
    rw [← Multiset.cons_coe]
    obtain rfl | hr := List.mem_cons.mp hr
    · rw [balance_cons_self, balance_of_forall_ne fun b hb h => ha (List.mem_map.mpr ⟨b, hb, h⟩), add_zero]
      rfl
    · rw [balance_cons_of_ne fun h => ha (List.mem_map.mpr ⟨r, hr, h.symm⟩), ih hl hr]

/-- Of rows that enter their key alone the net sign is their number. -/
theorem balance_fst_of_entered (h : ∀ r ∈ rows, r.sign = 1) :
    (balance rows k).1 = rows.countP fun r => r.key = k := by
  rw [balance_fst, Multiset.map_congr rfl fun r hr => h r (Multiset.mem_filter.mp hr).1, Multiset.map_const',
    Multiset.sum_replicate, Multiset.countP_eq_card_filter, nsmul_eq_mul, mul_one]

/-- A key with a balance has a row. -/
theorem exists_of_balance_ne_zero (h : balance rows k ≠ 0) : ∃ r ∈ rows, r.key = k := by
  by_contra hnone
  exact h (balance_of_forall_ne fun r hr hk => hnone ⟨r, hr, hk⟩)

/-- Rows written once for each of several keys. -/
theorem balance_map {keys : Multiset κ} (hkeys : keys.Nodup) {f : κ → Row κ R}
    (hf : ∀ k, (f k).key = k) :
    balance (keys.map f) k = if k ∈ keys then (f k).worth else 0 := by
  induction keys using Multiset.induction with
  | empty => rfl
  | cons a keys ih =>
    obtain ⟨ha, hkeys⟩ := Multiset.nodup_cons.mp hkeys
    rw [Multiset.map_cons]
    by_cases hak : a = k
    · subst hak
      have hrest : balance (keys.map f) a = 0 := by rw [ih hkeys, if_neg ha]
      rw [if_pos (Multiset.mem_cons_self a keys), ← add_zero (f a).worth, ← hrest]
      unfold balance
      rw [Multiset.filter_cons_of_pos (p := fun r : Row κ R => r.key = a) _ (hf a),
        Multiset.map_cons, Multiset.sum_cons]
    · rw [balance_cons_of_ne (by rw [hf]; exact hak), ih hkeys]
      exact if_congr (Multiset.mem_cons.trans (or_iff_right fun h => hak h.symm)).symm rfl rfl

/-- **A collapse keeps every balance.** -/
theorem balance_collapse (h : Collapse rows rows') : balance rows' k = balance rows k := by
  obtain ⟨_, k', c⟩ := h
  by_cases hk : k' = k
  · rw [hk, balance_cons_self, balance_cons_self]
    simp [← add_assoc]
  · rw [balance_cons_of_ne hk, balance_cons_of_ne hk]

/-- So do any number of them. -/
theorem balance_collapses (h : Relation.ReflTransGen Collapse rows rows') :
    balance rows' k = balance rows k := by
  induction h with
  | refl => rfl
  | tail _ hstep ih => rw [balance_collapse hstep, ih]

/-- **Entering a key** that has no balance. -/
theorem balance_enter (h : balance rows k = 0) (c : R) : balance (⟨k, c, 1⟩ ::ₘ rows) k = (1, c) := by
  rw [balance_cons_self, h]
  simp

/-- **Taking a key back.** -/
theorem balance_takeBack {old : R} (h : balance rows k = (1, old)) :
    balance (⟨k, old, -1⟩ ::ₘ rows) k = 0 := by
  rw [balance_cons_self, h]
  simp

/-- **Replacing the cost of a key**: the net cost is taken back and the new one entered. -/
theorem balance_replace {old : R} (h : balance rows k = (1, old)) (c : R) :
    balance (⟨k, old, -1⟩ ::ₘ ⟨k, c, 1⟩ ::ₘ rows) k = (1, c) := by
  rw [Multiset.cons_swap]
  exact balance_enter (balance_takeBack h) c

/-! ## Queries -/

variable {ε : Type*}

/-- **What a query finds**: of the keys it asks for those with a positive net sign, each once and with its net
cost. -/
structure Selects (rows : Multiset (Row κ R)) (asked : κ → Prop) (key : ε → κ) (cost : ε → R)
    (found : List ε) : Prop where
  nodup : (found.map key).Nodup
  mem : ∀ k, k ∈ found.map key ↔ asked k ∧ 0 < (balance rows k).1
  sums : ∀ e ∈ found, (balance rows (key e)).2 = cost e

variable {asked : κ → Prop} {key : ε → κ} {cost : ε → R} {found : List ε}

/-- Among keys with at most one row left, what is found has its balance. -/
theorem Selects.balance_eq (h : Selects rows asked key cost found)
    (hrows : ∀ k, (balance rows k).1 = 0 ∨ (balance rows k).1 = 1) {e : ε} (he : e ∈ found) :
    balance rows (key e) = (1, cost e) := by
  have hpos := ((h.mem (key e)).mp (List.mem_map_of_mem he)).2
  have hone : (balance rows (key e)).1 = 1 := by
    obtain hzero | hone := hrows (key e)
    · omega
    · exact hone
  exact Prod.ext hone (h.sums e he)

/-- **Queries for one chunk after the other** come to one query. -/
theorem Selects.flatten {σ : Type*} (field : κ → σ) {query : List σ → List ε} :
    ∀ {chunks : List (List σ)}, chunks.flatten.Nodup →
      (∀ c ∈ chunks, Selects rows (fun k => asked k ∧ field k ∈ c) key cost (query c)) →
        Selects rows (fun k => asked k ∧ field k ∈ chunks.flatten) key cost (chunks.map query).flatten
  | [], _, _ => ⟨List.nodup_nil, fun k => by simp, fun e he => absurd he List.not_mem_nil⟩
  | c :: chunks, hnodup, hquery => by
    rw [List.flatten_cons, List.nodup_append] at hnodup
    obtain ⟨-, hnodup, hdisjoint⟩ := hnodup
    have hc := hquery c List.mem_cons_self
    have hrest := Selects.flatten field hnodup fun c hc => hquery c (List.mem_cons_of_mem _ hc)
    rw [List.map_cons, List.flatten_cons, List.flatten_cons]
    refine ⟨?_, fun k => ?_, fun e he => ?_⟩
    · rw [List.map_append, List.nodup_append]
      refine ⟨hc.nodup, hrest.nodup, fun k hk l hl h => ?_⟩
      have hk := ((hc.mem k).mp hk).1.2
      have hl := ((hrest.mem l).mp hl).1.2
      exact hdisjoint _ hk _ hl (congrArg field h)
    · rw [List.map_append, List.mem_append, hc.mem, hrest.mem, List.mem_append]
      tauto
    · exact (List.mem_append.mp he).elim (hc.sums e) (hrest.sums e)

end Ledger
