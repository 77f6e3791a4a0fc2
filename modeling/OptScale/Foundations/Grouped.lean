import OptScale.Foundations.Dict
import OptScale.Foundations.Fallible
import OptScale.Foundations.Table

/-!
# Foundations/Grouped — sums that are taken by key

What a list adds up to is what the groups of its keys add up to (`sum_groups`), and an upsert that
adds a weight to a row adds it to the table (`Table.sum_upsert`).  A dictionary that is set under the
keys of a list has the last item of each group (`Dict.lookup_setAll`).
-/

namespace Grouped

variable {α κ M : Type*} [DecidableEq κ] [AddCommMonoid M]

/-- What is added at one place of a list without duplicates. -/
theorem sum_map_single {ks : List κ} (hks : ks.Nodup) {k : κ} (hk : k ∈ ks) (m : M) :
    (ks.map fun x => if k = x then m else 0).sum = m := by
  rw [← List.sum_toFinset _ hks, Finset.sum_ite_eq, if_pos (List.mem_toFinset.mpr hk)]

/-- Groups of keys that are listed once. -/
theorem sum_groups_of_nodup {ks : List κ} (hks : ks.Nodup) (key : α → κ) (f : α → M) {l : List α}
    (hl : ∀ a ∈ l, key a ∈ ks) :
    (ks.map fun k => ((l.filter fun a => key a = k).map f).sum).sum = (l.map f).sum := by
  induction l with
  | nil => simp
  | cons a l ih =>
    obtain ⟨ha, hl⟩ := List.forall_mem_cons.mp hl
    have hcons : ∀ k, (((a :: l).filter fun x => key x = k).map f).sum =
        (if key a = k then f a else 0) + ((l.filter fun x => key x = k).map f).sum := by
      intro k
      by_cases hk : key a = k
      · rw [List.filter_cons, if_pos (decide_eq_true hk), List.map_cons, List.sum_cons, if_pos hk]
      · rw [List.filter_cons, if_neg (by simpa using hk), if_neg hk, zero_add]
    rw [List.map_congr_left fun k _ => hcons k, List.sum_map_add, sum_map_single hks ha, ih hl,
      List.map_cons, List.sum_cons]

/-- **The groups of a list add up to the list.** -/
theorem sum_groups (key : α → κ) (f : α → M) (l : List α) :
    ((l.map key).dedup.map fun k => ((l.filter fun a => key a = k).map f).sum).sum =
      (l.map f).sum :=
  sum_groups_of_nodup (List.nodup_dedup _) key f fun _ ha =>
    List.mem_dedup.mpr (List.mem_map_of_mem ha)

omit [DecidableEq κ] in
/-- What some of a list gives, added up over the list. -/
theorem sum_filterMap {β : Type*} (p : α → Option β) (f : β → M) (l : List α) :
    ((l.filterMap p).map f).sum = (l.map fun a => ((p a).map f).getD 0).sum := by
  induction l with
  | nil => rfl
  | cons a l ih =>
    cases ha : p a with
    | none => simp [ha, ih]
    | some b => simp [ha, ih]

omit [DecidableEq κ] in
/-- What a filter keeps, added up over the list. -/
theorem sum_filter (p : α → Prop) [DecidablePred p] (f : α → M) (l : List α) :
    ((l.filter fun a => p a).map f).sum = (l.map fun a => if p a then f a else 0).sum := by
  induction l with
  | nil => rfl
  | cons a l ih =>
    by_cases ha : p a
    · rw [List.filter_cons, if_pos (decide_eq_true ha), List.map_cons, List.map_cons, List.sum_cons, List.sum_cons,
        if_pos ha, ih]
    · rw [List.filter_cons, if_neg (by simpa using ha), List.map_cons, List.sum_cons, if_neg ha, zero_add, ih]

end Grouped

namespace Table

variable {α κ M : Type*} {key : α → κ} [DecidableEq κ] [AddCommMonoid M]

/-- **An upsert adds its weight.** -/
theorem sum_upsert {t : Table key} {a : α} {f : α → α} {hf : ∀ a, key (f a) = key a} (w : α → M)
    (hw : ∀ b, key b = key a → w (f b) = w b + w a) :
    ((t.upsert a f hf).rows.map w).sum = (t.rows.map w).sum + w a := by
  by_cases ha : key a ∈ t.rows.map key
  · have hrow : ∀ b, w (if key b = key a then f b else b) =
        w b + if key a = key b then w a else 0 := by
      intro b
      by_cases hb : key b = key a
      · rw [if_pos hb, if_pos hb.symm, hw b hb]
      · rw [if_neg hb, if_neg (Ne.symm hb), add_zero]
    have hsingle : (t.rows.map fun b => if key a = key b then w a else 0).sum = w a := by
      have h := Grouped.sum_map_single t.nodup ha (w a)
      rwa [List.map_map] at h
    rw [rows_upsert_of_old ha, List.map_map]
    simp only [Function.comp_def, hrow, List.sum_map_add, hsingle]
  · rw [rows_upsert_of_new ha, List.map_append, List.sum_append, List.map_singleton,
      List.sum_singleton]

end Table

namespace Dict

variable {α κ V M : Type*} [DecidableEq κ]

/-- Set the values of a list under their keys. -/
def setAll (key : α → κ) (value : α → V) (l : List α) : Dict κ V :=
  l.foldl (fun d a => set d (key a) (value a)) ∅

variable (key : α → κ) (value : α → V) (l : List α)

/-- **What is set under a key** is the value of its last item. -/
theorem lookup_setAll (k : κ) :
    (setAll key value l).lookup k = (l.filter fun a => key a = k).getLast?.map value := by
  unfold setAll
  induction l using List.reverseRecOn with
  | nil => rfl
  | append_singleton l a ih =>
    rw [List.foldl_concat, lookup_set, List.filter_append, List.filter_singleton]
    by_cases hk : k = key a
    · rw [if_pos hk, decide_eq_true hk.symm, cond_true, List.getLast?_concat, Option.map_some]
    · rw [if_neg hk, decide_eq_false (Ne.symm hk), cond_false, List.append_nil, ih]

theorem mem_setAll {a : α} (ha : a ∈ l) : key a ∈ setAll key value l := by
  rw [← AList.lookup_isSome, lookup_setAll, Option.isSome_map, List.getLast?_isSome]
  exact List.ne_nil_of_mem (List.mem_filter.mpr ⟨ha, decide_eq_true rfl⟩)

/-- **A dictionary whose values are the sums of the groups** has the sum of the list. -/
theorem sum_setAll [AddCommMonoid M] (weight : V → M) (f : α → M)
    (hsum : ∀ k v, (setAll key value l).lookup k = some v →
      weight v = ((l.filter fun a => key a = k).map f).sum) :
    ((setAll key value l).entries.map fun entry => weight entry.2).sum = (l.map f).sum := by
  rw [← Grouped.sum_groups_of_nodup (setAll key value l).nodupKeys key f fun a ha =>
    mem_setAll key value l ha]
  unfold List.keys
  rw [List.map_map]
  refine congrArg List.sum (List.map_congr_left fun entry hentry => hsum entry.1 entry.2 ?_)
  exact List.mem_dlookup (setAll key value l).nodupKeys hentry

/-! ### Dictionaries that are added to -/

/-- An entry and the others. -/
theorem getD_add_sum_kerase [AddCommMonoid M] (w : V → M) (entries : List (Sigma fun _ : κ => V)) (k : κ) :
    ((entries.dlookup k).map w).getD 0 + ((entries.kerase k).map fun e => w e.2).sum =
      (entries.map fun e => w e.2).sum := by
  induction entries with
  | nil => simp
  | cons entry entries ih =>
    obtain ⟨k', v⟩ := entry
    by_cases hk : k = k'
    · subst hk
      simp
    · rw [List.dlookup_cons_ne entries ⟨k', v⟩ hk, List.kerase_cons_ne hk, List.map_cons, List.map_cons,
        List.sum_cons, List.sum_cons, add_left_comm, ih]

/-- **What is set takes the place of what was there**, also in a sum. -/
theorem sum_set [AddCommMonoid M] (w : V → M) (d : Dict κ V) (k : κ) (v : V) :
    ((d.lookup k).map w).getD 0 + ((set d k v).entries.map fun e => w e.2).sum =
      (d.entries.map fun e => w e.2).sum + w v := by
  rw [set, AList.entries_insert, List.map_cons, List.sum_cons, add_left_comm, AList.lookup,
    getD_add_sum_kerase w d.entries k, add_comm]

/-- The sum of the values. -/
def total [AddCommMonoid V] (d : Dict κ V) : V := (d.entries.map Sigma.snd).sum

/-- `d[key] += value`, where a missing value is zero. -/
def addTo [AddCommMonoid V] (d : Dict κ V) (k : κ) (v : V) : Dict κ V := set d k ((d.lookup k).getD 0 + v)

/-- **What is added to an entry is added to the total.** -/
theorem total_addTo [AddCommMonoid V] (d : Dict κ V) (k : κ) (v : V) : total (addTo d k v) = total d + v := by
  have hrest := getD_add_sum_kerase id d.entries k
  rw [Option.map_id_apply] at hrest
  rw [total, addTo, set, AList.entries_insert, List.map_cons, List.sum_cons, add_right_comm]
  exact congrArg (· + v) hrest

/-! ### Dictionaries of lists -/

/-- `d[k].append(v)`, where a missing list is empty. -/
def appendTo (d : Dict κ (List V)) (k : κ) (v : V) : Dict κ (List V) := set d k ((d.lookup k).getD [] ++ [v])

/-- **What is appended under a key** is its group. -/
theorem lookup_foldl_appendTo (k : κ) :
    (l.foldl (fun d a => appendTo d (key a) (value a)) ∅).lookup k =
      if (l.filter fun a => key a = k) = [] then none else some ((l.filter fun a => key a = k).map value) := by
  induction l using List.reverseRecOn with
  | nil => rfl
  | append_singleton l a ih =>
    rw [List.foldl_concat, appendTo, lookup_set, List.filter_append, List.filter_singleton]
    by_cases hk : key a = k
    · subst hk
      rw [if_pos rfl, decide_eq_true rfl, cond_true,
        if_neg (List.append_ne_nil_of_right_ne_nil _ (List.cons_ne_nil a [])), ih, List.map_append, List.map_singleton]
      split
      · rename_i hnil
        rw [hnil]
        rfl
      · rfl
    · rw [if_neg (Ne.symm hk), decide_eq_false hk, cond_false, List.append_nil, ih]

/-- A key has one entry at most. -/
theorem filter_entries (d : Dict κ V) (k : κ) :
    (d.entries.filter fun e => e.1 = k) = ((d.lookup k).map fun v => (⟨k, v⟩ : Sigma fun _ : κ => V)).toList := by
  obtain ⟨entries, hnodup⟩ := d
  unfold AList.lookup
  simp only
  induction entries with
  | nil => rfl
  | cons e entries ih =>
    obtain ⟨k', v⟩ := e
    obtain ⟨hnew, hrest⟩ := List.nodupKeys_cons.mp hnodup
    by_cases hk : k' = k
    · subst hk
      have hnil : (entries.filter fun e => e.1 = k') = [] := List.filter_eq_nil_iff.mpr fun e he hek => by
        have hin : e.1 ∈ entries.keys := List.mem_keys_of_mem he
        rw [of_decide_eq_true hek] at hin
        exact hnew hin
      rw [List.filter_cons, if_pos (decide_eq_true rfl), hnil, List.dlookup_cons_eq]
      rfl
    · rw [List.filter_cons, if_neg (by simpa using hk), ih hrest, List.dlookup_cons_ne entries ⟨k', v⟩ (Ne.symm hk)]

/-! ### Dictionaries of dictionaries -/

section Nested

variable {ι : Type*} [DecidableEq ι]

/-- `d.get(k, {}).get(i)` -/
def lookupAt (d : Dict κ (Dict ι V)) (k : κ) (i : ι) : Option V := (d.lookup k).bind fun inner => inner.lookup i

/-- `d[k][i] = v`, where a missing dictionary is empty. -/
def setAt (d : Dict κ (Dict ι V)) (k : κ) (i : ι) (v : V) : Dict κ (Dict ι V) :=
  set d k (set ((d.lookup k).getD ∅) i v)

/-- The items of a dictionary under a key. -/
def itemsAt (k : κ) (inner : Dict ι V) : List (κ × ι × V) := inner.entries.map fun e => (k, e.1, e.2)

/-- The items, one dictionary after the other. -/
def items (d : Dict κ (Dict ι V)) : List (κ × ι × V) := d.entries.flatMap fun e => itemsAt e.1 e.2

theorem lookupAt_setAt (d : Dict κ (Dict ι V)) (k k' : κ) (i i' : ι) (v : V) :
    lookupAt (setAt d k i v) k' i' = if k' = k ∧ i' = i then some v else lookupAt d k' i' := by
  unfold lookupAt setAt
  rw [lookup_set]
  by_cases hk : k' = k
  · subst hk
    rw [if_pos rfl, Option.bind_some, lookup_set]
    by_cases hi : i' = i
    · rw [if_pos hi, if_pos ⟨rfl, hi⟩]
    · rw [if_neg hi, if_neg fun h => hi h.2]
      cases d.lookup k' <;> rfl
  · rw [if_neg hk, if_neg fun h => hk h.1]

omit [DecidableEq ι] in
/-- The items under a key and the others. -/
theorem itemsAt_append_kerase (entries : List (Sigma fun _ : κ => Dict ι V)) (k : κ) :
    List.Perm (itemsAt k ((entries.dlookup k).getD ∅) ++ (entries.kerase k).flatMap fun e => itemsAt e.1 e.2)
      (entries.flatMap fun e => itemsAt e.1 e.2) := by
  induction entries with
  | nil => exact List.Perm.refl _
  | cons entry entries ih =>
    obtain ⟨k', inner⟩ := entry
    by_cases hk : k = k'
    · subst hk
      rw [List.dlookup_cons_eq, List.kerase_cons_eq (rfl : k = (⟨k, inner⟩ : Sigma fun _ : κ => Dict ι V).1)]
      exact List.Perm.refl _
    · rw [List.dlookup_cons_ne entries ⟨k', inner⟩ hk, List.kerase_cons_ne hk, List.flatMap_cons, List.flatMap_cons]
      refine List.Perm.trans ?_ (ih.append_left _)
      rw [← List.append_assoc, ← List.append_assoc]
      exact (List.perm_append_comm).append_right _

/-- **A new item is one more item.** -/
theorem items_setAt {d : Dict κ (Dict ι V)} {k : κ} {i : ι} (v : V) (hnew : lookupAt d k i = none) :
    (items (setAt d k i v)).Perm ((k, i, v) :: items d) := by
  have hinner : (set ((d.lookup k).getD ∅) i v).entries = ⟨i, v⟩ :: ((d.lookup k).getD ∅).entries := by
    refine AList.entries_insert_of_notMem (AList.lookup_eq_none.mp ?_)
    unfold lookupAt at hnew
    cases hd : d.lookup k with
    | none => rfl
    | some inner =>
      rw [hd, Option.bind_some] at hnew
      exact hnew
  unfold items
  rw [setAt, set, AList.entries_insert, List.flatMap_cons]
  have hhead : itemsAt k (set ((d.lookup k).getD ∅) i v) = (k, i, v) :: itemsAt k ((d.lookup k).getD ∅) := by
    unfold itemsAt
    rw [hinner]
    rfl
  rw [hhead, List.cons_append]
  exact (itemsAt_append_kerase d.entries k).cons _

/-- **What is set item by item has the items.** -/
theorem items_foldl_setAt {l : List (κ × ι × V)} (hl : (l.map fun x => (x.1, x.2.1)).Nodup) :
    (items (l.foldl (fun d x => setAt d x.1 x.2.1 x.2.2) ∅)).Perm l ∧
      ∀ k i, lookupAt (l.foldl (fun d x => setAt d x.1 x.2.1 x.2.2) ∅) k i ≠ none → (k, i) ∈ l.map fun x => (x.1, x.2.1) := by
  induction l using List.reverseRecOn with
  | nil => exact ⟨List.Perm.refl _, fun k i h => absurd rfl h⟩
  | append_singleton l x ih =>
    rw [List.map_append, List.nodup_append] at hl
    obtain ⟨hnodup, -, hnew⟩ := hl
    obtain ⟨hperm, hkeys⟩ := ih hnodup
    rw [List.foldl_concat]
    refine ⟨?_, fun k i h => ?_⟩
    · refine (items_setAt _ ?_).trans ((hperm.cons _).trans (List.perm_append_singleton x l).symm)
      by_contra hlookup
      exact hnew _ (hkeys _ _ hlookup) _ List.mem_cons_self rfl
    · rw [lookupAt_setAt] at h
      rw [List.map_append, List.mem_append]
      split at h
      · rename_i hkey
        exact Or.inr (List.mem_singleton.mpr (Prod.ext hkey.1 hkey.2))
      · exact Or.inl (hkeys k i h)

omit [DecidableEq κ] [DecidableEq ι] in
theorem mem_itemsAt {k k' : κ} {i : ι} {v : V} {inner : Dict ι V} :
    (k, i, v) ∈ itemsAt k' inner ↔ k = k' ∧ ⟨i, v⟩ ∈ inner.entries := by
  unfold itemsAt
  rw [List.mem_map]
  constructor
  · rintro ⟨e, he, h⟩
    obtain ⟨rfl, rfl, rfl⟩ : k' = k ∧ e.1 = i ∧ e.2 = v := by simpa using h
    exact ⟨rfl, he⟩
  · rintro ⟨rfl, h⟩
    exact ⟨⟨i, v⟩, h, rfl⟩

/-- **The items are what is looked up.** -/
theorem mem_items {d : Dict κ (Dict ι V)} {k : κ} {i : ι} {v : V} :
    (k, i, v) ∈ items d ↔ lookupAt d k i = some v := by
  unfold items lookupAt
  rw [List.mem_flatMap, Option.bind_eq_some_iff]
  constructor
  · rintro ⟨e, he, h⟩
    obtain ⟨rfl, hin⟩ := mem_itemsAt.mp h
    exact ⟨e.2, List.mem_dlookup d.nodupKeys he, List.mem_dlookup e.2.nodupKeys hin⟩
  · rintro ⟨inner, hinner, h⟩
    exact ⟨⟨k, inner⟩, List.of_mem_dlookup hinner, mem_itemsAt.mpr ⟨rfl, List.of_mem_dlookup h⟩⟩

/-- What is set item by item is looked up, and nothing else changes. -/
theorem lookupAt_foldl_setAt {α : Type*} (key : α → κ × ι) (value : α → V) (l : List α) (d : Dict κ (Dict ι V))
    (k : κ) (i : ι) : lookupAt (l.foldl (fun d a => setAt d (key a).1 (key a).2 (value a)) d) k i =
      ((l.filter fun a => key a = (k, i)).getLast?.map value).or (lookupAt d k i) := by
  induction l using List.reverseRecOn with
  | nil => rfl
  | append_singleton l a ih =>
    rw [List.foldl_concat, lookupAt_setAt, List.filter_append, List.filter_singleton]
    by_cases hk : key a = (k, i)
    · rw [if_pos ⟨congrArg Prod.fst hk.symm, congrArg Prod.snd hk.symm⟩, decide_eq_true hk, cond_true,
        List.getLast?_concat, Option.map_some, Option.some_or]
    · rw [if_neg fun h => hk (Prod.ext h.1.symm h.2.symm), decide_eq_false hk, cond_false, List.append_nil, ih]

/-- What a loop changes, each place once. -/
theorem lookupAt_foldl_change {α : Type*} {key : α → κ × ι} {l : List α} (hl : (l.map key).Nodup)
    (change : Option V → α → V) (d : Dict κ (Dict ι V)) (k : κ) (i : ι) :
    lookupAt (l.foldl (fun d a => setAt d (key a).1 (key a).2 (change (lookupAt d (key a).1 (key a).2) a)) d) k i =
      ((l.find? fun a => key a = (k, i)).map fun a => change (lookupAt d k i) a).or (lookupAt d k i) := by
  induction l using List.reverseRecOn with
  | nil => rfl
  | append_singleton l a ih =>
    rw [List.map_append, List.nodup_append] at hl
    obtain ⟨hl, -, hnew⟩ := hl
    rw [List.foldl_concat, lookupAt_setAt, List.find?_append]
    by_cases hk : key a = (k, i)
    · have hnone : (l.find? fun b => key b = (k, i)) = none := List.find?_eq_none.mpr fun b hb hbk =>
        hnew _ (List.mem_map_of_mem hb) _ List.mem_cons_self ((of_decide_eq_true hbk).trans hk.symm)
      rw [hk, if_pos ⟨rfl, rfl⟩, ih hl, hnone, List.find?_cons, decide_eq_true hk]
      rfl
    · rw [if_neg fun h => hk (Prod.ext h.1.symm h.2.symm), ih hl, List.find?_cons, decide_eq_false hk,
        List.find?_nil, Option.or_none]

/-! ### Loops over items -/

/-- `d[k][i] += v`, where a missing value is zero. -/
def addAt [AddCommMonoid V] (d : Dict κ (Dict ι V)) (k : κ) (i : ι) (v : V) : Dict κ (Dict ι V) :=
  setAt d k i ((lookupAt d k i).getD 0 + v)

/-- **What is added item by item** is the sum of the group. -/
theorem lookupAt_foldl_addAt [AddCommMonoid V] {α : Type*} (key : α → κ × ι) (w : α → V) (l : List α) (k : κ)
    (i : ι) :
    (lookupAt (l.foldl (fun d a => addAt d (key a).1 (key a).2 (w a)) ∅) k i).getD 0 =
      ((l.filter fun a => key a = (k, i)).map w).sum := by
  induction l using List.reverseRecOn with
  | nil => rfl
  | append_singleton l a ih =>
    rw [List.foldl_concat, addAt, lookupAt_setAt, List.filter_append, List.filter_singleton, List.map_append,
      List.sum_append, ← ih]
    by_cases hk : key a = (k, i)
    · rw [if_pos ⟨congrArg Prod.fst hk.symm, congrArg Prod.snd hk.symm⟩, decide_eq_true hk, cond_true, hk,
        List.map_singleton, List.sum_singleton, Option.getD_some]
    · rw [if_neg fun h => hk (Prod.ext h.1.symm h.2.symm), decide_eq_false hk, cond_false, List.map_nil,
        List.sum_nil, add_zero]

end Nested

/-! ### Loops that may fail -/

section Fails

universe u

variable {κ ι V : Type u} {ε : Type*} [DecidableEq κ] [DecidableEq ι]

/-- A loop over the items of a dictionary that sets a value under each key. -/
def setItemsM (f : κ → V → Except ε V) (d acc : Dict κ V) : Except ε (Dict κ V) :=
  d.entries.foldlM (fun acc e => do
    let v ← f e.1 e.2
    pure (set acc e.1 v)) acc

/-- A loop over the items that changes each value in place. -/
def mapItemsM (f : κ → ι → V → Except ε V) (d : Dict κ (Dict ι V)) : Except ε (Dict κ (Dict ι V)) :=
  (items d).foldlM (fun acc x => do
    let v ← f x.1 x.2.1 x.2.2
    pure (setAt acc x.1 x.2.1 v)) d

/-- **What a loop sets whose turns all succeed.** -/
theorem setItemsM_ok {f : κ → V → Except ε V} {g : κ → V → V} {d : Dict κ V}
    (h : ∀ k v, d.lookup k = some v → f k v = .ok (g k v)) (acc : Dict κ V) :
    ∃ d', setItemsM f d acc = .ok d' ∧ ∀ k, d'.lookup k = ((d.lookup k).map (g k)).or (acc.lookup k) := by
  refine ⟨collect (fun k v => some (g k v)) d acc, ?_, fun k => ?_⟩
  · refine Fallible.foldlM_ok (fun s e he => ?_) acc
    rw [h e.1 e.2 (List.mem_dlookup d.nodupKeys he), Fallible.ok_bind]
    rfl
  · rw [lookup_collect, Option.map_eq_bind]
    rfl

/-- **What a loop makes of the values** when its turns all succeed. -/
theorem mapItemsM_ok {f : κ → ι → V → Except ε V} {g : κ → ι → V → V} {d : Dict κ (Dict ι V)}
    (h : ∀ k i v, lookupAt d k i = some v → f k i v = .ok (g k i v)) :
    ∃ d', mapItemsM f d = .ok d' ∧ ∀ k i, lookupAt d' k i = (lookupAt d k i).map (g k i) := by
  have hrun : mapItemsM f d =
      .ok ((items d).foldl (fun acc x => setAt acc x.1 x.2.1 (g x.1 x.2.1 x.2.2)) d) := by
    refine Fallible.foldlM_ok (fun s x hx => ?_) d
    rw [h x.1 x.2.1 x.2.2 (mem_items.mp hx), Fallible.ok_bind]
    rfl
  refine ⟨_, hrun, fun k i => ?_⟩
  rw [lookupAt_foldl_setAt (fun x : κ × ι × V => (x.1, x.2.1)) (fun x => g x.1 x.2.1 x.2.2)]
  cases hd : lookupAt d k i with
  | none =>
    have hnone : (items d).filter (fun x => (x.1, x.2.1) = (k, i)) = [] := by
      refine List.filter_eq_nil_iff.mpr fun x hx hk => ?_
      obtain ⟨rfl, rfl⟩ := Prod.mk.inj (of_decide_eq_true hk)
      rw [mem_items.mp hx] at hd
      exact nomatch hd
    rw [hnone]
    rfl
  | some v =>
    have hmem : (k, i, v) ∈ (items d).filter fun x => (x.1, x.2.1) = (k, i) :=
      List.mem_filter.mpr ⟨mem_items.mpr hd, decide_eq_true rfl⟩
    obtain ⟨x, hx⟩ := Option.isSome_iff_exists.mp (List.getLast?_isSome.mpr (List.ne_nil_of_mem hmem))
    obtain ⟨hin, hk⟩ := List.mem_filter.mp (List.mem_of_getLast? hx)
    obtain ⟨rfl, rfl⟩ := Prod.mk.inj (of_decide_eq_true hk)
    obtain rfl : x.2.2 = v := Option.some.inj ((mem_items.mp hin).symm.trans hd)
    rw [hx]
    rfl

end Fails

end Dict
