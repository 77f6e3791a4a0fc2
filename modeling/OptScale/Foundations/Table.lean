import Mathlib

/-!
# Foundations/Table — tables with a primary key

A table is the list of its rows together with the fact that no key occurs twice, so a table with
two rows of one key cannot be built.  Rows are added by `insert?` (refused on a taken key), changed
by `updateWhere` (which keeps every key), changed or added by `upsert`, deleted by `deleteWhere`,
and read by `filter` on `rows` or by `get?`.  What is done to a table may be read through a function
of its rows (`map_upsert`, `map_deleteWhere`).
-/

/-- The rows of a table whose primary key is `key`. -/
structure Table {α κ : Type*} (key : α → κ) where
  rows : List α
  nodup : (rows.map key).Nodup

namespace Table

variable {α κ : Type*} {key : α → κ}

/-- The table without rows. -/
def empty : Table key := ⟨[], List.nodup_nil⟩

@[simp] theorem rows_empty : (empty : Table key).rows = [] := rfl

@[ext] theorem ext {s t : Table key} (h : s.rows = t.rows) : s = t := by
  obtain ⟨_, _⟩ := s
  obtain ⟨_, _⟩ := t
  congr

/-- **Rows with one key are one row.** -/
theorem eq_of_key (t : Table key) {a b : α} (ha : a ∈ t.rows) (hb : b ∈ t.rows)
    (h : key a = key b) : a = b :=
  List.inj_on_of_nodup_map t.nodup ha hb h

theorem key_ne (t : Table key) {a b : α} (ha : a ∈ t.rows) (hb : b ∈ t.rows) (h : a ≠ b) :
    key a ≠ key b := fun hk => h (t.eq_of_key ha hb hk)

/-- **What the rows give, taken by key**: of everything the rows contribute to a list, the share of
one row is what carries its key. -/
theorem filter_flatMap [DecidableEq κ] {β : Type*} (t : Table key) {f : α → List β} {g : β → κ}
    (hf : ∀ a ∈ t.rows, ∀ b ∈ f a, g b = key a) {a : α} (ha : a ∈ t.rows) :
    (t.rows.flatMap f).filter (fun b => g b = key a) = f a := by
  obtain ⟨rows, hnodup⟩ := t
  induction rows with
  | nil => exact absurd ha List.not_mem_nil
  | cons r rows ih =>
    obtain ⟨hr, hrows⟩ := List.nodup_cons.mp hnodup
    obtain ⟨hfr, hfrows⟩ := List.forall_mem_cons.mp hf
    have hshare : ∀ b ∈ rows, ∀ x ∈ f b, g x = key b := hfrows
    rw [List.flatMap_cons, List.filter_append]
    obtain rfl | ha := List.mem_cons.mp ha
    · have hself : (f a).filter (fun b => g b = key a) = f a :=
        List.filter_eq_self.mpr fun b hb => decide_eq_true (hfr b hb)
      have hother : (rows.flatMap f).filter (fun b => g b = key a) = [] := by
        refine List.filter_eq_nil_iff.mpr fun b hb hkey => ?_
        obtain ⟨x, hx, hbx⟩ := List.mem_flatMap.mp hb
        exact hr (of_decide_eq_true hkey ▸ hshare x hx b hbx ▸ List.mem_map_of_mem hx)
      rw [hself, hother, List.append_nil]
    · have hself : (f r).filter (fun b => g b = key a) = [] := by
        refine List.filter_eq_nil_iff.mpr fun b hb hkey => hr ?_
        rw [← hfr b hb, of_decide_eq_true hkey]
        exact List.mem_map_of_mem ha
      rw [hself, List.nil_append]
      exact ih hrows hfrows ha

/-- Add a row whose key is not in use. -/
def add (t : Table key) (a : α) (h : key a ∉ t.rows.map key) : Table key where
  rows := t.rows ++ [a]
  nodup := by
    rw [List.map_append, List.nodup_append]
    refine ⟨t.nodup, List.nodup_singleton _, fun x hx y hy hxy => ?_⟩
    obtain rfl : y = key a := by simpa using hy
    exact h (hxy ▸ hx)

@[simp] theorem mem_add {t : Table key} {a b : α} {h : key a ∉ t.rows.map key} :
    b ∈ (t.add a h).rows ↔ b ∈ t.rows ∨ b = a := by
  rw [add, List.mem_append, List.mem_singleton]

section Insert

variable [DecidableEq κ]

/-- Add a row under a key of its own. -/
def insert? (t : Table key) (a : α) : Option (Table key) :=
  if h : key a ∈ t.rows.map key then none else some (t.add a h)

theorem insert?_eq_some {t t' : Table key} {a : α} :
    t.insert? a = some t' ↔ key a ∉ t.rows.map key ∧ t'.rows = t.rows ++ [a] := by
  unfold insert?
  split
  · simp_all
  · rename_i h
    exact ⟨fun h' => ⟨h, (Option.some.inj h').symm ▸ rfl⟩, fun h' => congrArg _ (ext h'.2.symm)⟩

/-- The row of a key. -/
def get? (t : Table key) (k : κ) : Option α := t.rows.find? fun a => key a = k

theorem get?_eq_some {t : Table key} {k : κ} {a : α} :
    t.get? k = some a ↔ a ∈ t.rows ∧ key a = k := by
  constructor
  · exact fun h => ⟨List.mem_of_find?_eq_some h, by simpa using List.find?_some h⟩
  · rintro ⟨ha, rfl⟩
    cases h : t.get? (key a) with
    | none => exact absurd (decide_eq_true rfl) (List.find?_eq_none.mp h a ha)
    | some b =>
      have hb := List.mem_of_find?_eq_some h
      have hk : key b = key a := by simpa using List.find?_some h
      rw [t.eq_of_key hb ha hk]

end Insert

/-- Change the rows that satisfy `p`, each under its own key. -/
def updateWhere (t : Table key) (p : α → Bool) (f : α → α) (hf : ∀ a, key (f a) = key a) :
    Table key where
  rows := t.rows.map fun a => if p a then f a else a
  nodup := by
    rw [List.map_map]
    refine (List.map_congr_left fun a _ => ?_) ▸ t.nodup
    simp only [Function.comp_apply]
    split
    · rw [hf]
    · rfl

theorem mem_updateWhere {t : Table key} {p : α → Bool} {f : α → α}
    {hf : ∀ a, key (f a) = key a} {b : α} :
    b ∈ (t.updateWhere p f hf).rows ↔ ∃ a ∈ t.rows, (if p a then f a else a) = b :=
  List.mem_map

/-- Delete the rows that satisfy `p`. -/
def deleteWhere (t : Table key) (p : α → Bool) : Table key where
  rows := t.rows.filter fun a => !p a
  nodup := t.nodup.sublist (List.filter_sublist.map _)

theorem mem_deleteWhere {t : Table key} {p : α → Bool} {a : α} :
    a ∈ (t.deleteWhere p).rows ↔ a ∈ t.rows ∧ p a = false := by
  rw [deleteWhere, List.mem_filter, Bool.not_eq_true']

/-- Change the row of a key, or add it. -/
def upsert [DecidableEq κ] (t : Table key) (a : α) (f : α → α) (hf : ∀ a, key (f a) = key a) :
    Table key :=
  match t.insert? a with
  | some t' => t'
  | none => t.updateWhere (fun b => key b = key a) f hf

/-- **An upsert** leaves the other rows alone, and has the row of its key from the old one or afresh. -/
theorem mem_upsert [DecidableEq κ] {t : Table key} {a : α} {f : α → α}
    {hf : ∀ a, key (f a) = key a} {b : α} :
    b ∈ (t.upsert a f hf).rows ↔ (b ∈ t.rows ∧ key b ≠ key a) ∨
      (∃ c ∈ t.rows, key c = key a ∧ f c = b) ∨ (key a ∉ t.rows.map key ∧ b = a) := by
  unfold upsert
  cases h : t.insert? a with
  | some t' =>
    obtain ⟨hnew, hrows⟩ := insert?_eq_some.mp h
    have hne : ∀ c ∈ t.rows, key c ≠ key a := fun c hc hk => hnew (hk ▸ List.mem_map_of_mem hc)
    simp only [hrows, List.mem_append, List.mem_singleton]
    constructor
    · rintro (hb | rfl)
      · exact Or.inl ⟨hb, hne b hb⟩
      · exact Or.inr (Or.inr ⟨hnew, rfl⟩)
    · rintro (⟨hb, -⟩ | ⟨c, hc, hk, -⟩ | ⟨-, rfl⟩)
      · exact Or.inl hb
      · exact absurd hk (hne c hc)
      · exact Or.inr rfl
  | none =>
    have hold : key a ∈ t.rows.map key := by
      by_contra hnew
      rw [insert?, dif_neg hnew] at h
      exact nomatch h
    simp only [mem_updateWhere, decide_eq_true_eq]
    constructor
    · rintro ⟨c, hc, rfl⟩
      split_ifs with hk
      · exact Or.inr (Or.inl ⟨c, hc, hk, rfl⟩)
      · exact Or.inl ⟨hc, hk⟩
    · rintro (⟨hb, hk⟩ | ⟨c, hc, hk, rfl⟩ | ⟨hnew, -⟩)
      · exact ⟨b, hb, if_neg hk⟩
      · exact ⟨c, hc, if_pos hk⟩
      · exact absurd hold hnew

/-- The key that was upserted is in use. -/
theorem exists_upsert [DecidableEq κ] (t : Table key) (a : α) (f : α → α)
    (hf : ∀ a, key (f a) = key a) : ∃ b ∈ (t.upsert a f hf).rows, key b = key a := by
  by_cases hold : key a ∈ t.rows.map key
  · obtain ⟨c, hc, hk⟩ := List.mem_map.mp hold
    exact ⟨f c, mem_upsert.mpr (Or.inr (Or.inl ⟨c, hc, hk, rfl⟩)), (hf c).trans hk⟩
  · exact ⟨a, mem_upsert.mpr (Or.inr (Or.inr ⟨hold, rfl⟩)), rfl⟩

/-- **The keys in use after an upsert** are those before it and the upserted one. -/
theorem exists_key_upsert [DecidableEq κ] {t : Table key} {a : α} {f : α → α}
    {hf : ∀ a, key (f a) = key a} {k : κ} :
    (∃ b ∈ (t.upsert a f hf).rows, key b = k) ↔ (∃ b ∈ t.rows, key b = k) ∨ key a = k := by
  constructor
  · rintro ⟨b, hb, rfl⟩
    obtain ⟨hb, -⟩ | ⟨c, hc, -, rfl⟩ | ⟨-, rfl⟩ := mem_upsert.mp hb
    · exact Or.inl ⟨b, hb, rfl⟩
    · exact Or.inl ⟨c, hc, (hf c).symm⟩
    · exact Or.inr rfl
  · rintro (⟨b, hb, rfl⟩ | rfl)
    · by_cases hk : key b = key a
      · exact hk ▸ t.exists_upsert a f hf
      · exact ⟨b, mem_upsert.mpr (Or.inl ⟨hb, hk⟩), rfl⟩
    · exact t.exists_upsert a f hf

theorem get?_eq_none [DecidableEq κ] {t : Table key} {k : κ} : t.get? k = none ↔ k ∉ t.rows.map key := by
  rw [get?, List.find?_eq_none, List.mem_map]
  simp

/-- **The row of a key after an upsert.** -/
theorem get?_upsert [DecidableEq κ] {t : Table key} {a : α} {f : α → α} {hf : ∀ a, key (f a) = key a} {k : κ} :
    (t.upsert a f hf).get? k = if key a = k then some (((t.get? k).map f).getD a) else t.get? k := by
  split
  · rename_i hk
    subst hk
    rw [get?_eq_some, mem_upsert]
    cases hget : t.get? (key a) with
    | none => exact ⟨Or.inr (Or.inr ⟨get?_eq_none.mp hget, rfl⟩), rfl⟩
    | some b =>
      obtain ⟨hb, hkey⟩ := get?_eq_some.mp hget
      exact ⟨Or.inr (Or.inl ⟨b, hb, hkey, rfl⟩), (hf b).trans hkey⟩
  · rename_i hk
    refine Option.ext fun b => ?_
    rw [get?_eq_some, get?_eq_some, mem_upsert]
    constructor
    · rintro ⟨⟨hb, -⟩ | ⟨c, hc, hkey, rfl⟩ | ⟨-, rfl⟩, rfl⟩
      · exact ⟨hb, rfl⟩
      · exact absurd (hkey.symm.trans (hf c).symm) hk
      · exact absurd rfl hk
    · rintro ⟨hb, rfl⟩
      exact ⟨Or.inl ⟨hb, Ne.symm hk⟩, rfl⟩

theorem get?_updateWhere [DecidableEq κ] {t : Table key} {p : α → Bool} {f : α → α} {hf : ∀ a, key (f a) = key a}
    {k : κ} : (t.updateWhere p f hf).get? k = (t.get? k).map fun a => if p a then f a else a := by
  unfold get? updateWhere
  rw [List.find?_map]
  refine congrArg (Option.map _) (congrArg (fun q => List.find? q t.rows) (funext fun a => ?_))
  simp only [Function.comp_apply]
  split
  · rw [hf]
  · rfl

/-! ## The rows of an upsert, in their order -/

section Order

variable [DecidableEq κ] {t : Table key} {a : α} {f : α → α} {hf : ∀ a, key (f a) = key a}

/-- A row of a new key comes last. -/
theorem rows_upsert_of_new (h : key a ∉ t.rows.map key) : (t.upsert a f hf).rows = t.rows ++ [a] := by
  rw [upsert, insert?, dif_neg h]
  rfl

/-- A row of a key in use stays in its place. -/
theorem rows_upsert_of_old (h : key a ∈ t.rows.map key) :
    (t.upsert a f hf).rows = t.rows.map fun b => if key b = key a then f b else b := by
  rw [upsert, insert?, dif_pos h]
  simp only [updateWhere, decide_eq_true_eq]

/-- **An upsert touches one part of the rows**, if the other does not have its key. -/
theorem rows_upsert_append {u v : Table key} (hv : v.rows = t.rows ++ u.rows)
    (ha : key a ∉ t.rows.map key) :
    (v.upsert a f hf).rows = t.rows ++ (u.upsert a f hf).rows := by
  by_cases hu : key a ∈ u.rows.map key
  · have hkeep : t.rows.map (fun b => if key b = key a then f b else b) = t.rows := by
      refine (List.map_congr_left fun b hb => if_neg fun hk => ha ?_).trans (List.map_id' _)
      exact hk ▸ List.mem_map_of_mem hb
    rw [rows_upsert_of_old (hv ▸ List.map_append ▸ List.mem_append_right _ hu), hv,
      List.map_append, hkeep, rows_upsert_of_old hu]
  · have hv' : key a ∉ v.rows.map key := by
      rw [hv, List.map_append, List.mem_append]
      exact not_or.mpr ⟨ha, hu⟩
    rw [rows_upsert_of_new hv', rows_upsert_of_new hu, hv, List.append_assoc]

theorem filter_upsert_of_ne {k : κ} (hk : key a ≠ k) :
    (t.upsert a f hf).rows.filter (fun b => key b = k) = t.rows.filter fun b => key b = k := by
  by_cases ha : key a ∈ t.rows.map key
  · rw [rows_upsert_of_old ha, List.filter_map]
    have hcomp : (fun b => decide (key b = k)) ∘ (fun b => if key b = key a then f b else b) =
        fun b => decide (key b = k) := by
      funext b
      simp only [Function.comp_apply]
      split
      · rw [hf]
      · rfl
    rw [hcomp]
    refine (List.map_congr_left fun b hb => if_neg fun hba => hk ?_).trans (List.map_id' _)
    exact hba ▸ of_decide_eq_true (List.mem_filter.mp hb).2
  · rw [rows_upsert_of_new ha, List.filter_append, List.filter_cons_of_neg (by simpa using hk),
      List.filter_nil, List.append_nil]

/-- **The row of the upserted key.** -/
theorem filter_upsert_self : (t.upsert a f hf).rows.filter (fun b => key b = key a) =
    if key a ∈ t.rows.map key then (t.rows.filter fun b => key b = key a).map f else [a] := by
  split
  · rename_i ha
    rw [rows_upsert_of_old ha, List.filter_map]
    have hcomp : (fun b => decide (key b = key a)) ∘ (fun b => if key b = key a then f b else b) =
        fun b => decide (key b = key a) := by
      funext b
      simp only [Function.comp_apply]
      split
      · rw [hf]
      · rfl
    rw [hcomp]
    exact List.map_congr_left fun b hb => if_pos (of_decide_eq_true (List.mem_filter.mp hb).2)
  · rename_i ha
    have hnone : t.rows.filter (fun b => key b = key a) = [] :=
      List.filter_eq_nil_iff.mpr fun b hb hk =>
        ha (of_decide_eq_true hk ▸ List.mem_map_of_mem hb)
    rw [rows_upsert_of_new ha, List.filter_append, hnone]
    simp

end Order

/-! ## Tables read through a function -/

section Map

variable {β : Type*} {key' : β → κ}

/-- The rows read through a function that keeps their keys. -/
def map (t : Table key) (f : α → β) (hf : ∀ a, key' (f a) = key a) : Table key' where
  rows := t.rows.map f
  nodup := by
    rw [List.map_map, show key' ∘ f = key from funext hf]
    exact t.nodup

variable {t : Table key} {f : α → β} {hf : ∀ a, key' (f a) = key a}

/-- **A deletion may be read through a function.** -/
theorem map_deleteWhere {p : β → Bool} {q : α → Bool} (hpq : ∀ a, p (f a) = q a) :
    (t.map f hf).deleteWhere p = (t.deleteWhere q).map f hf := by
  apply ext
  have hcomp : (fun b => !p b) ∘ f = fun a => !q a := funext fun a => congrArg _ (hpq a)
  change (t.rows.map f).filter _ = (t.rows.filter _).map f
  rw [List.filter_map, hcomp]

/-- **An upsert may be read through a function**, if its changes may. -/
theorem map_upsert [DecidableEq κ] {a : α} {g : β → β} {h : α → α}
    {hg : ∀ b, key' (g b) = key' b} {hh : ∀ a, key (h a) = key a}
    (hgh : ∀ c, key c = key a → g (f c) = f (h c)) :
    (t.map f hf).upsert (f a) g hg = (t.upsert a h hh).map f hf := by
  apply ext
  have hkeys : (t.map f hf).rows.map key' = t.rows.map key := by
    rw [map, List.map_map, show key' ∘ f = key from funext hf]
  by_cases hnew : key a ∈ t.rows.map key
  · have hnew' : key' (f a) ∈ (t.map f hf).rows.map key' := by rwa [hkeys, hf]
    simp only [upsert, insert?, dif_pos hnew, dif_pos hnew']
    simp only [updateWhere, map, List.map_map]
    refine List.map_congr_left fun c _ => ?_
    simp only [Function.comp_apply, hf, decide_eq_true_eq]
    split
    · rename_i hc
      exact hgh c hc
    · rfl
  · have hnew' : key' (f a) ∉ (t.map f hf).rows.map key' := by rwa [hkeys, hf]
    simp only [upsert, insert?, dif_neg hnew, dif_neg hnew']
    simp [add, map]

end Map

end Table
