import Mathlib

/-!
# Foundations/Dict — dictionaries

A dictionary has each of its keys once.  It is read key by key: what is set, popped, updated or collected by a loop
over another dictionary is said by its lookups.  A loop that sets other keys than those it runs over is read the same
way, as long as no two of its items set one key (`lookup_foldl`).
-/

/-- A dictionary. -/
abbrev Dict (κ V : Type*) := AList fun _ : κ => V

namespace Dict

/-- Dictionaries are compared item by item. -/
instance {κ V : Type*} [DecidableEq κ] [DecidableEq V] : DecidableEq (Dict κ V) := fun a b =>
  decidable_of_iff (a.entries = b.entries) AList.ext_iff.symm

variable {κ V : Type*} [DecidableEq κ]

/-- `d[key] = value` -/
def set (d : Dict κ V) (key : κ) (value : V) : Dict κ V := d.insert key value

/-- `d.pop(key, None)`: the rest. -/
def popped (d : Dict κ V) (key : κ) : Dict κ V := d.erase key

/-- `d.update(more)` -/
def update (d more : Dict κ V) : Dict κ V := more ∪ d

/-- A loop over the items of a dictionary that sets some keys of another one. -/
def collect (f : κ → V → Option V) (d acc : Dict κ V) : Dict κ V :=
  d.foldl (fun acc key value =>
    match f key value with
    | some v => set acc key v
    | none => acc) acc

variable (d more acc : Dict κ V) (key k : κ) (value : V)

@[simp] theorem lookup_empty : (∅ : Dict κ V).lookup k = none := rfl

@[simp] theorem lookup_set : (set d key value).lookup k = if k = key then some value else d.lookup k := by
  split
  · rename_i h
    rw [h]
    exact AList.lookup_insert d
  · rename_i h
    exact AList.lookup_insert_ne h

@[simp] theorem lookup_popped : (popped d key).lookup k = if k = key then none else d.lookup k := by
  split
  · rename_i h
    rw [h]
    exact AList.lookup_erase key d
  · rename_i h
    exact AList.lookup_erase_ne h

@[simp] theorem lookup_update : (update d more).lookup k = (more.lookup k).or (d.lookup k) := by
  unfold update
  by_cases h : k ∈ more
  · obtain ⟨v, hv⟩ := Option.isSome_iff_exists.mp (AList.lookup_isSome.mpr h)
    rw [AList.lookup_union_left h, hv, Option.some_or]
  · rw [AList.lookup_union_right h, AList.lookup_eq_none.mpr h, Option.none_or]

/-- **What a loop collects.** -/
@[simp] theorem lookup_collect (f : κ → V → Option V) :
    (collect f d acc).lookup k = ((d.lookup k).bind (f k)).or (acc.lookup k) := by
  obtain ⟨entries, hnodup⟩ := d
  unfold collect AList.foldl AList.lookup
  simp only
  induction entries generalizing acc with
  | nil => rfl
  | cons entry entries ih =>
    obtain ⟨a, v⟩ := entry
    obtain ⟨hnew, hrest⟩ := List.nodupKeys_cons.mp hnodup
    rw [List.foldl_cons, ih _ hrest]
    by_cases hk : k = a
    · subst hk
      rw [List.dlookup_eq_none.mpr hnew, List.dlookup_cons_eq, Option.bind_none, Option.none_or, Option.bind_some]
      cases hf : f k v with
      | none => rw [Option.none_or]
      | some w => exact (lookup_set acc k k w).trans (if_pos rfl)
    · rw [List.dlookup_cons_ne entries ⟨a, v⟩ hk]
      cases f a v with
      | none => rfl
      | some w => rw [show (set acc a w).entries.dlookup k = acc.entries.dlookup k from
          (lookup_set acc a k w).trans (if_neg hk)]

/-! ## Loops that set other keys -/

section Loop

variable {κ' W : Type*} [DecidableEq κ'] {step : Dict κ' W → κ → V → Dict κ' W} {out : κ → Option (κ' × W)}

omit [DecidableEq κ] in
/-- What a loop over some items sets, if no two of them set one key. -/
theorem lookup_foldl_entries {entries : List (Sigma fun _ : κ => V)} (hnodup : entries.NodupKeys)
    (hstep : ∀ entry ∈ entries, ∀ acc : Dict κ' W, step acc entry.1 entry.2 =
      (out entry.1).elim acc fun item => set acc item.1 item.2)
    (hout : ∀ x ∈ entries, ∀ y ∈ entries, ∀ i ∈ out x.1, ∀ j ∈ out y.1, i.1 = j.1 → x.1 = y.1)
    (acc : Dict κ' W) (k' : κ') (w : W) :
    (entries.foldl (fun acc entry => step acc entry.1 entry.2) acc).lookup k' = some w ↔
      (∃ entry ∈ entries, out entry.1 = some (k', w)) ∨
        acc.lookup k' = some w ∧ ∀ entry ∈ entries, ∀ i ∈ out entry.1, i.1 ≠ k' := by
  induction entries generalizing acc with
  | nil => simp
  | cons first rest ih =>
    obtain ⟨hnew, hrest⟩ := List.nodupKeys_cons.mp hnodup
    obtain ⟨hfirst, hsteps⟩ := List.forall_mem_cons.mp hstep
    have hfresh : ∀ entry ∈ rest, ∀ i ∈ out first.1, ∀ j ∈ out entry.1, i.1 ≠ j.1 :=
      fun entry hentry i hi j hj hij => by
        have hkey := hout first List.mem_cons_self entry (List.mem_cons_of_mem _ hentry) i hi j hj hij
        exact hnew (hkey ▸ List.mem_keys_of_mem hentry)
    rw [List.foldl_cons, ih hrest hsteps (fun x hx y hy => hout x (List.mem_cons_of_mem _ hx) y
      (List.mem_cons_of_mem _ hy)), hfirst]
    simp only [List.exists_mem_cons_iff, List.forall_mem_cons]
    cases hitem : out first.1 with
    | none => simp
    | some item =>
      obtain ⟨key, value⟩ := item
      have hother : ∀ entry ∈ rest, ∀ j ∈ out entry.1, j.1 ≠ key := fun entry hentry j hj hkey =>
        hfresh entry hentry _ hitem j hj hkey.symm
      simp only [Option.elim_some, lookup_set, Option.mem_def, Option.some.injEq, forall_eq',
        Prod.mk.injEq]
      by_cases hk : k' = key
      · subst hk
        simp only [if_true, Option.some.injEq, true_and, ne_eq, not_true, false_and, and_false,
          or_false]
        constructor
        · rintro (hin | ⟨rfl, -⟩)
          · exact Or.inr hin
          · exact Or.inl rfl
        · rintro (rfl | hin)
          · exact Or.inr ⟨rfl, hother⟩
          · exact Or.inl hin
      · simp only [if_neg hk, Ne.symm hk, false_and, false_or, ne_eq, not_false_eq_true, true_and]

/-- **What a loop over a dictionary sets**, if no two items set one key. -/
theorem lookup_foldl
    (hstep : ∀ k v, d.lookup k = some v → ∀ acc : Dict κ' W, step acc k v =
      (out k).elim acc fun item => set acc item.1 item.2)
    (hout : ∀ k ∈ d, ∀ l ∈ d, ∀ i ∈ out k, ∀ j ∈ out l, i.1 = j.1 → k = l) (k' : κ') (w : W) :
    (d.foldl step ∅).lookup k' = some w ↔ ∃ k ∈ d, out k = some (k', w) := by
  obtain ⟨entries, hnodup⟩ := d
  have hentry : ∀ entry ∈ entries, ∀ acc : Dict κ' W, step acc entry.1 entry.2 =
      (out entry.1).elim acc fun item => set acc item.1 item.2 := fun entry hin =>
    hstep entry.1 entry.2 (List.mem_dlookup hnodup hin)
  have hkeys : ∀ x ∈ entries, ∀ y ∈ entries, ∀ i ∈ out x.1, ∀ j ∈ out y.1, i.1 = j.1 → x.1 = y.1 :=
    fun x hx y hy => hout x.1 (List.mem_keys_of_mem hx) y.1 (List.mem_keys_of_mem hy)
  have hloop := lookup_foldl_entries hnodup hentry hkeys ∅ k' w
  simp only [lookup_empty, reduceCtorEq, false_and, or_false] at hloop
  refine hloop.trans ⟨?_, ?_⟩
  · rintro ⟨entry, hin, hitem⟩
    exact ⟨entry.1, List.mem_keys_of_mem hin, hitem⟩
  · rintro ⟨k, hk, hitem⟩
    obtain ⟨entry, hin, rfl⟩ := List.mem_map.mp hk
    exact ⟨entry, hin, hitem⟩

end Loop

end Dict
