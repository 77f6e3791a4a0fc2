import OptScale.Foundations.Moves
import OptScale.Rest.Priority

/-!
# Rest/Ranked — priorities that are the places of an order

Where the priorities of an organization's live items are 1, 2, …, the `UPDATE`s of `set_priority` are the
assignments of a move: none of them meets the unique constraint (`moves_of_setPriority`), and they leave the
priorities of the new order.
-/

open Fallible Moves

namespace PriorityMixin

/-! ## `set_priority` as a move -/

/-- An `UPDATE` as an assignment. -/
def pair (u : Placed) : Uuid × ℕ := (u.id, u.priority)

theorem map_id_enumerate (l : List Uuid) : (enumerate l).map Placed.id = l := by
  rw [enumerate, List.map_map]
  exact List.zipIdx_map_fst 1 l

theorem map_pair_enumerate (l : List Uuid) : (enumerate l).map pair = l.zipIdx 1 := by
  rw [enumerate, List.map_map]
  exact List.map_id' _

theorem map_priority_enumerate (l : List Uuid) : (enumerate l).map Placed.priority = List.range' 1 l.length := by
  rw [enumerate, List.map_map]
  exact List.zipIdx_map_snd 1 l

theorem mem_enumerate {l : List Uuid} {p : Placed} : p ∈ enumerate l ↔ ∃ j, l[j]? = some p.id ∧ p.priority = 1 + j := by
  rw [enumerate, List.mem_map]
  constructor
  · rintro ⟨⟨r, i⟩, h, rfl⟩
    obtain ⟨j, hj⟩ := List.mem_iff_getElem?.mp h
    rw [List.getElem?_zipIdx, Option.map_eq_some_iff] at hj
    obtain ⟨r', hr', heq⟩ := hj
    obtain ⟨rfl, rfl⟩ := Prod.mk.inj heq
    exact ⟨j, hr', rfl⟩
  · rintro ⟨j, hj, hp⟩
    refine ⟨(p.id, p.priority), List.mem_iff_getElem?.mpr ⟨j, ?_⟩, rfl⟩
    rw [List.getElem?_zipIdx, hj, hp]
    rfl

theorem maxPriority_enumerate {l : List Uuid} (hl : l ≠ []) : maxPriority (enumerate l) = .ok l.length := by
  have hpos : 1 ≤ l.length := List.length_pos_iff.mpr hl
  have hmax : (List.range' 1 l.length).max? = some l.length := by
    refine List.max?_eq_some_iff.mpr ⟨List.mem_range'_1.mpr (by omega), fun b hb => ?_⟩
    have h := List.mem_range'_1.mp hb
    omega
  rw [maxPriority, map_priority_enumerate, hmax]
  rfl

theorem moved_enumerate (l : List Uuid) (x : Uuid) (q : ℕ) : moved (enumerate l) x q = moveTo (q - 1) x l := by
  rw [moved, map_id_enumerate]
  rfl

/-- **What `set_priority` issues** are the assignments of a move, or nothing where the item is in its place. -/
theorem setPriority_eq_ok {model : String} {l : List Uuid} (hl : l.Nodup) {x : Uuid} {q : ℕ} {us : List Placed}
    (h : setPriority model (enumerate l) x q = .ok us) :
    x ∈ l ∧ (∀ u ∈ us, u.id ∈ l) ∧ ∀ g, Numbers 1 l g →
      (∀ k, Set.InjOn (assignAll g ((us.map pair).take k)) {r | r ∈ l}) ∧
        Numbers 1 (moveTo (q - 1) x l) (assignAll g (us.map pair)) := by
  simp only [setPriority, bind_eq_ok, require_eq_ok, orFail_eq_ok] at h
  obtain ⟨n, hn, _, ⟨hq, hqn⟩, target, htarget, h⟩ := h
  have hne : l ≠ [] := by
    rintro rfl
    cases hn
  rw [maxPriority_enumerate hne] at hn
  obtain rfl := Except.ok.inj hn
  obtain ⟨j, hj, hpriority⟩ := mem_enumerate.mp (List.mem_of_find?_eq_some htarget)
  have hid : target.id = x := by simpa using List.find?_some htarget
  rw [hid] at hj
  have hx : x ∈ l := List.mem_of_getElem? hj
  refine ⟨hx, ?_⟩
  split at h
  · rename_i hsame
    obtain rfl := pure_eq_ok.mp h
    refine ⟨fun u hu => absurd hu List.not_mem_nil, fun g hg => ⟨fun k => ?_, ?_⟩⟩
    · rw [List.map_nil, List.take_nil]
      exact hg.injOn
    · obtain ⟨before, after, rfl⟩ := List.append_of_mem hx
      have hnot : x ∉ before := fun h => (List.nodup_append.mp hl).2.2 x h x List.mem_cons_self rfl
      have hhere : (before ++ x :: after)[before.length]? = some x := by
        rw [List.getElem?_append_right le_rfl, Nat.sub_self]
        rfl
      have hjb : j = before.length :=
        (List.getElem?_inj (List.getElem?_eq_some_iff.mp hj).1 hl).mp (hj.trans hhere.symm)
      have hq1 : q - 1 = before.length := by omega
      rw [hq1, moveTo_self hnot]
      exact hg
  · rename_i hne'
    obtain rfl := pure_eq_ok.mp h
    rw [moved_enumerate]
    have hperm := moveTo_perm (q - 1) hx
    have hmem : ∀ u ∈ enumerate (moveTo (q - 1) x l), u.id ∈ l := fun u hu =>
      hperm.mem_iff.mp (List.mem_of_getElem? (mem_enumerate.mp hu).choose_spec.1)
    refine ⟨fun u hu => ?_, fun g hg => ?_⟩
    · rcases List.mem_cons.mp hu with rfl | hu
      · exact hx
      · refine hmem u ?_
        split at hu
        · exact List.mem_reverse.mp hu
        · exact hu
    · have hgx : g x = target.priority := by rw [hg j x hj, hpriority]
      have hspec := move_spec hl hg hx hq hqn (hgx ▸ hne')
      rw [updates, hgx] at hspec
      have hpairs : ((⟨x, l.length + 1⟩ : Placed) :: if q < target.priority then
          (enumerate (moveTo (q - 1) x l)).reverse else enumerate (moveTo (q - 1) x l)).map pair =
          (x, l.length + 1) :: if q < target.priority then ((moveTo (q - 1) x l).zipIdx 1).reverse
            else (moveTo (q - 1) x l).zipIdx 1 := by
        rw [List.map_cons]
        refine congrArg (_ :: ·) ?_
        split
        · rw [List.map_reverse, map_pair_enumerate]
        · rw [map_pair_enumerate]
      rw [hpairs]
      exact hspec

/-- The target priority is one of the places. -/
theorem setPriority_bounds {model : String} {l : List Uuid} {x : Uuid} {q : ℕ} {us : List Placed}
    (h : setPriority model (enumerate l) x q = .ok us) : 1 ≤ q ∧ q ≤ l.length := by
  simp only [setPriority, bind_eq_ok, require_eq_ok] at h
  obtain ⟨n, hn, _, hbounds, -⟩ := h
  have hne : l ≠ [] := by
    rintro rfl
    cases hn
  rw [maxPriority_enumerate hne] at hn
  obtain rfl := Except.ok.inj hn
  exact hbounds

/-- A list with the places for priorities is the enumeration of its ids. -/
theorem eq_enumerate {items : List Placed} (h : items.map Placed.priority = List.range' 1 items.length) :
    items = enumerate (items.map Placed.id) := by
  have hpair : Function.Injective pair := by
    rintro ⟨i, p⟩ ⟨j, q⟩ heq
    obtain ⟨rfl, rfl⟩ := Prod.mk.inj heq
    rfl
  refine (List.map_injective_iff.mpr hpair) ?_
  have hfst : (items.map pair).map Prod.fst = items.map Placed.id := List.map_map
  have hsnd : (items.map pair).map Prod.snd = items.map Placed.priority := List.map_map
  rw [map_pair_enumerate, List.zipIdx_eq_zip_range', List.length_map, ← h]
  exact List.zip_of_prod hfst hsnd

theorem enumerate_concat (l : List Uuid) (x : Uuid) : enumerate (l ++ [x]) = enumerate l ++ [⟨x, l.length + 1⟩] := by
  rw [enumerate, List.zipIdx_append, List.map_append, Nat.add_comm]
  rfl

theorem pairwise_enumerate (l : List Uuid) : (enumerate l).Pairwise fun a b => a.priority < b.priority := by
  rw [← List.pairwise_map (f := Placed.priority) (R := (· < ·)), map_priority_enumerate]
  exact List.pairwise_lt_range'

/-! ## The items of an organization -/

section Tables

variable {α : Type} {key : α → Uuid} {M : PriorityModel key} {t t' : Table key} {organizationId : Uuid}
variable {l : List Uuid} {g : Uuid → ℕ}

variable (M t organizationId) in
/-- The live items of the organization in the order of their priorities. -/
def order : List Uuid := (allItems M t organizationId).map Placed.id

variable (M t organizationId) in
/-- **The priorities are the places** of the order: 1, 2, … without gaps or repeats. -/
def Ranked : Prop :=
  (allItems M t organizationId).map Placed.priority = List.range' 1 (allItems M t organizationId).length

theorem mem_live {a : α} :
    a ∈ live M t organizationId ↔ a ∈ t.rows ∧ M.deletedAt a = 0 ∧ M.organizationId a = organizationId := by
  rw [live, List.mem_filter, decide_eq_true_eq]

theorem mem_allItems {p : Placed} : p ∈ allItems M t organizationId ↔ ∃ a ∈ live M t organizationId, placed M a = p := by
  rw [allItems, List.mem_insertionSort, List.mem_map]

theorem mem_order {r : Uuid} : r ∈ order M t organizationId ↔ ∃ a ∈ live M t organizationId, key a = r := by
  rw [order, List.mem_map]
  simp only [mem_allItems]
  constructor
  · rintro ⟨_, ⟨a, ha, rfl⟩, rfl⟩
    exact ⟨a, ha, rfl⟩
  · rintro ⟨a, ha, rfl⟩
    exact ⟨placed M a, ⟨a, ha, rfl⟩, rfl⟩

theorem nodup_order : (order M t organizationId).Nodup := by
  have hperm : (order M t organizationId).Perm ((live M t organizationId).map key) := by
    refine ((List.perm_insertionSort _ _).map Placed.id).trans (.of_eq ?_)
    rw [List.map_map]
    rfl
  exact hperm.nodup_iff.mpr (t.nodup.sublist (List.filter_sublist.map _))

theorem order_subset_keys {r : Uuid} (h : r ∈ order M t organizationId) : r ∈ t.rows.map key := by
  obtain ⟨a, ha, rfl⟩ := mem_order.mp h
  exact List.mem_map_of_mem (mem_live.mp ha).1

theorem Ranked.allItems_eq (h : Ranked M t organizationId) :
    allItems M t organizationId = enumerate (order M t organizationId) := eq_enumerate h

/-- **The items are known by their priorities**: an enumeration of them is their order. -/
theorem allItems_eq (hl : l.Nodup)
    (h : ∀ p : Placed, p ∈ enumerate l ↔ ∃ a ∈ live M t organizationId, placed M a = p) :
    allItems M t organizationId = enumerate l := by
  have hnodup : (enumerate l).Nodup := .of_map Placed.id (by rwa [map_id_enumerate])
  have hnodup' : (allItems M t organizationId).Nodup := .of_map Placed.id nodup_order
  have hperm : (allItems M t organizationId).Perm (enumerate l) :=
    (List.perm_ext_iff_of_nodup hnodup' hnodup).mpr fun p => mem_allItems.trans (h p).symm
  have hsorted : (enumerate l).Pairwise fun a b => a.priority ≤ b.priority :=
    (pairwise_enumerate l).imp le_of_lt
  refine hperm.eq_of_pairwise (fun a b ha hb hab hba => ?_) (List.pairwise_insertionSort _ _) hsorted
  obtain ⟨j, hj, ha⟩ := mem_enumerate.mp (hperm.mem_iff.mp ha)
  obtain ⟨j', hj', hb⟩ := mem_enumerate.mp hb
  obtain rfl : j = j' := by omega
  have hid : a.id = b.id := Option.some.inj (hj.symm.trans hj')
  obtain ⟨i, p⟩ := a
  obtain ⟨i', p'⟩ := b
  obtain rfl : i = i' := hid
  obtain rfl : p = p' := le_antisymm hab hba
  rfl

theorem order_of_allItems_eq (h : allItems M t organizationId = enumerate l) : order M t organizationId = l := by
  rw [order, h, map_id_enumerate]

theorem ranked_of_allItems_eq (h : allItems M t organizationId = enumerate l) : Ranked M t organizationId := by
  have hlength : (enumerate l).length = l.length := by rw [← List.length_map (f := Placed.id), map_id_enumerate]
  rw [Ranked, h, map_priority_enumerate, hlength]

theorem ranked_empty : Ranked M .empty organizationId := rfl

/-- What is not about the live items of the organization does not matter. -/
theorem allItems_congr (h : live M t' organizationId = live M t organizationId) :
    allItems M t' organizationId = allItems M t organizationId := by
  rw [allItems, h, allItems]

/-! ## Rows that follow assignments -/

variable (M t organizationId l g) in
/-- The live rows of the organization are the rows of the ids, with their numbers for priorities. -/
structure Holds : Prop where
  mem_iff : ∀ a ∈ t.rows, key a ∈ l ↔ M.deletedAt a = 0 ∧ M.organizationId a = organizationId
  priority : ∀ a ∈ t.rows, key a ∈ l → M.priority a = g (key a)

theorem Ranked.holds (h : Ranked M t organizationId) {fresh : List Uuid}
    (hfresh : ∀ r ∈ fresh, r ∉ t.rows.map key) (hg : Numbers 1 (order M t organizationId ++ fresh) g) :
    Holds M t organizationId (order M t organizationId ++ fresh) g where
  mem_iff a ha := by
    constructor
    · intro hkey
      rcases List.mem_append.mp hkey with hkey | hkey
      · obtain ⟨b, hb, hba⟩ := mem_order.mp hkey
        obtain ⟨hbt, hb⟩ := mem_live.mp hb
        exact t.eq_of_key hbt ha hba ▸ hb
      · exact absurd (List.mem_map_of_mem ha) (hfresh _ hkey)
    · exact fun hlive => List.mem_append_left _ (mem_order.mpr ⟨a, mem_live.mpr ⟨ha, hlive⟩, rfl⟩)
  priority a ha hkey := by
    have hin : key a ∈ order M t organizationId := by
      rcases List.mem_append.mp hkey with hkey | hkey
      · exact hkey
      · exact absurd (List.mem_map_of_mem ha) (hfresh _ hkey)
    obtain ⟨b, hb, hba⟩ := mem_order.mp hin
    obtain rfl := t.eq_of_key (mem_live.mp hb).1 ha hba
    have hitem : placed M b ∈ enumerate (order M t organizationId) :=
      h.allItems_eq ▸ mem_allItems.mpr ⟨b, hb, rfl⟩
    obtain ⟨j, hj, hpriority⟩ := mem_enumerate.mp hitem
    have hlt := (List.getElem?_eq_some_iff.mp hj).1
    rw [hg j (key b) (by rw [List.getElem?_append_left hlt]; exact hj)]
    exact hpriority

/-- **An `UPDATE` follows an assignment** that keeps the numbers apart. -/
theorem Holds.update (h : Holds M t organizationId l g) {u : Placed} (hu : u.id ∈ l)
    (hinj : Set.InjOn (assign g (pair u)) {r | r ∈ l}) :
    ∃ t', update M t u = .ok t' ∧ Holds M t' organizationId l (assign g (pair u)) := by
  refine ⟨_, update_eq_ok.mpr ⟨fun a ha hau b hb hbu hdeleted horg hpriority => ?_, rfl⟩, ⟨fun a ha => ?_, fun a ha => ?_⟩⟩
  · have hlive := (h.mem_iff a ha).mp (hau ▸ hu)
    rw [← hdeleted, ← horg] at hlive
    have hbl := (h.mem_iff b hb).mpr hlive
    refine hbu (hinj hbl hu ?_)
    rw [assign_of_ne (u := pair u) hbu, ← h.priority b hb hbl, hpriority]
    exact (assign_self (pair u)).symm
  · obtain ⟨b, hb, rfl⟩ := Table.mem_updateWhere.mp ha
    split
    · rw [M.key_withPriority, M.deletedAt_withPriority, M.organizationId_withPriority]
      exact h.mem_iff b hb
    · exact h.mem_iff b hb
  · obtain ⟨b, hb, rfl⟩ := Table.mem_updateWhere.mp ha
    split
    · rename_i hbu
      rw [M.key_withPriority, M.priority_withPriority, of_decide_eq_true hbu]
      exact fun _ => (assign_self (pair u)).symm
    · rename_i hbu
      intro hbl
      rw [assign_of_ne (u := pair u) fun heq => hbu (decide_eq_true heq), h.priority b hb hbl]

/-- **`UPDATE`s follow assignments** that keep the numbers apart all along. -/
theorem Holds.updateAll {us : List Placed} (hus : ∀ u ∈ us, u.id ∈ l) :
    ∀ {t : Table key} {g : Uuid → ℕ}, Holds M t organizationId l g →
      (∀ k, Set.InjOn (assignAll g ((us.map pair).take k)) {r | r ∈ l}) →
      ∃ t', updateAll M t us = .ok t' ∧ Holds M t' organizationId l (assignAll g (us.map pair)) := by
  induction us with
  | nil => exact fun {t g} h _ => ⟨t, updateAll_nil.mpr rfl, h⟩
  | cons u us ih =>
    intro t g h hinj
    obtain ⟨hu, hus⟩ := List.forall_mem_cons.mp hus
    obtain ⟨t₁, hfirst, h₁⟩ := h.update hu (hinj 1)
    obtain ⟨t', hrest, h'⟩ := ih hus h₁ fun k => hinj (k + 1)
    exact ⟨t', updateAll_cons.mpr ⟨t₁, hfirst, hrest⟩, h'⟩

theorem Holds.nodup (h : Holds M t organizationId l g) (hinj : Set.InjOn g {r | r ∈ l}) :
    ((live M t organizationId).map M.priority).Nodup := by
  have hrows : t.rows.Nodup := .of_map key t.nodup
  refine List.Nodup.map_on (fun a ha b hb hab => ?_) (hrows.filter _)
  obtain ⟨hat, ha⟩ := mem_live.mp ha
  obtain ⟨hbt, hb⟩ := mem_live.mp hb
  have hal := (h.mem_iff a hat).mpr ha
  have hbl := (h.mem_iff b hbt).mpr hb
  rw [h.priority a hat hal, h.priority b hbt hbl] at hab
  exact t.eq_of_key hat hbt (hinj hal hbl hab)

/-- The items are enumerated once the numbers are the places. -/
theorem Holds.allItems_eq (h : Holds M t organizationId l g) (hl : l.Nodup) (hg : Numbers 1 l g)
    (hrows : ∀ r ∈ l, r ∈ t.rows.map key) : allItems M t organizationId = enumerate l := by
  refine PriorityMixin.allItems_eq hl fun p => ⟨fun hp => ?_, ?_⟩
  · obtain ⟨j, hj, hpriority⟩ := mem_enumerate.mp hp
    have hin := List.mem_of_getElem? hj
    obtain ⟨a, ha, hap⟩ := List.mem_map.mp (hrows _ hin)
    rw [← hap] at hin
    refine ⟨a, mem_live.mpr ⟨ha, (h.mem_iff a ha).mp hin⟩, ?_⟩
    obtain ⟨i, q⟩ := p
    obtain rfl : key a = i := hap
    obtain rfl : q = 1 + j := hpriority
    rw [placed, h.priority a ha hin, hg j _ hj]
  · rintro ⟨a, ha, rfl⟩
    obtain ⟨hat, ha⟩ := mem_live.mp ha
    have hin := (h.mem_iff a hat).mpr ha
    obtain ⟨j, hj⟩ := List.mem_iff_getElem?.mp hin
    exact mem_enumerate.mpr ⟨j, hj, by rw [placed, h.priority a hat hin, hg j _ hj]⟩

/-- A change of other organizations' items. -/
theorem live_updateWhere {other : Uuid} {p : α → Bool} {f : α → α} {hf : ∀ a, key (f a) = key a}
    (h : ∀ a ∈ t.rows, p a = true → M.organizationId a ≠ other ∧ M.organizationId (f a) ≠ other) :
    live M (t.updateWhere p f hf) other = live M t other := by
  have hsame : ∀ a ∈ t.rows, (p a = true ∧ M.organizationId a ≠ other ∧ M.organizationId (f a) ≠ other) ∨
      (if p a then f a else a) = a := by
    intro a ha
    by_cases hpa : p a = true
    · exact Or.inl ⟨hpa, h a ha hpa⟩
    · exact Or.inr (if_neg hpa)
  have hfilter : t.rows.filter ((fun a => decide (M.deletedAt a = 0 ∧ M.organizationId a = other)) ∘
      fun a => if p a then f a else a) =
      t.rows.filter fun a => decide (M.deletedAt a = 0 ∧ M.organizationId a = other) := by
    refine List.filter_congr fun a ha => ?_
    rw [Function.comp_apply]
    rcases hsame a ha with ⟨hpa, hold, hnew⟩ | heq
    · rw [if_pos hpa, decide_eq_false fun h => hnew h.2, decide_eq_false fun h => hold h.2]
    · rw [heq]
  rw [live, Table.updateWhere, List.filter_map, hfilter]
  refine (List.map_congr_left fun a ha => ?_).trans (List.map_id' _)
  obtain ⟨hat, hlive⟩ := List.mem_filter.mp ha
  exact (hsame a hat).resolve_left fun hother => hother.2.1 (of_decide_eq_true hlive).2

/-- **The items of other organizations** are not touched. -/
theorem live_updateAll {other : Uuid} {us : List Placed} : ∀ {t t' : Table key}, updateAll M t us = .ok t' →
    (∀ u ∈ us, ∀ a ∈ t.rows, key a = u.id → M.organizationId a ≠ other) → live M t' other = live M t other := by
  induction us with
  | nil =>
    intro t t' h _
    rw [updateAll_nil.mp h]
  | cons u us ih =>
    intro t t' h hother
    obtain ⟨hu, hus⟩ := List.forall_mem_cons.mp hother
    obtain ⟨t₁, hfirst, hrest⟩ := updateAll_cons.mp h
    obtain ⟨-, rfl⟩ := update_eq_ok.mp hfirst
    rw [ih hrest fun v hv a ha hav => ?_]
    · exact live_updateWhere fun a ha hau => ⟨hu a ha (of_decide_eq_true hau), by
        rw [M.organizationId_withPriority]
        exact hu a ha (of_decide_eq_true hau)⟩
    · obtain ⟨b, hb, rfl⟩ := Table.mem_updateWhere.mp ha
      split at hav
      · rw [M.key_withPriority] at hav
        rw [if_pos (by assumption), M.organizationId_withPriority]
        exact hus v hv b hb hav
      · rw [if_neg (by assumption)]
        exact hus v hv b hb hav

/-! ## A ranked table -/

/-- **What `set_priority` issues goes through**, statement by statement, and keeps the numbers apart. -/
theorem Ranked.updates (h : Ranked M t organizationId) {fresh : List Uuid}
    (hfresh : ∀ r ∈ fresh, r ∉ t.rows.map key) (hnodup : (order M t organizationId ++ fresh).Nodup) {model : String}
    {x : Uuid} {q : ℕ} {us : List Placed}
    (hset : setPriority model (enumerate (order M t organizationId ++ fresh)) x q = .ok us) (k : ℕ) :
    ∃ t' g, updateAll M t (us.take k) = .ok t' ∧ Holds M t' organizationId (order M t organizationId ++ fresh) g ∧
      Set.InjOn g {r | r ∈ order M t organizationId ++ fresh} ∧
      (us.length ≤ k → Numbers 1 (moveTo (q - 1) x (order M t organizationId ++ fresh)) g) ∧
      ∀ other, other ≠ organizationId → live M t' other = live M t other := by
  obtain ⟨g, hg⟩ := exists_numbers hnodup
  obtain ⟨-, hids, hspec⟩ := setPriority_eq_ok hnodup hset
  obtain ⟨hinj, hnumbers⟩ := hspec g hg
  have hholds := h.holds hfresh hg
  have hids' : ∀ u ∈ us.take k, u.id ∈ order M t organizationId ++ fresh := fun u hu =>
    hids u (List.mem_of_mem_take hu)
  have hinj' : ∀ m, Set.InjOn (assignAll g (((us.take k).map pair).take m))
      {r | r ∈ order M t organizationId ++ fresh} := by
    intro m
    rw [List.map_take, List.take_take]
    exact hinj (min m k)
  obtain ⟨t', hupdate, h'⟩ := hholds.updateAll hids' hinj'
  refine ⟨t', _, hupdate, h', ?_, fun hlength => ?_, fun other hother => ?_⟩
  · rw [List.map_take]
    exact hinj k
  · rw [List.take_of_length_le hlength]
    exact hnumbers
  · refine live_updateAll hupdate fun u hu a ha hau horg => hother ?_
    exact horg.symm.trans ((hholds.mem_iff a ha).mp (hau ▸ hids' u hu)).2

/-- **After every `UPDATE`** the priorities of the live items are pairwise distinct. -/
theorem Ranked.apart (h : Ranked M t organizationId) {model : String} {x : Uuid} {q : ℕ} {us : List Placed}
    (hset : setPriority model (allItems M t organizationId) x q = .ok us) (k : ℕ) :
    ∃ t', updateAll M t (us.take k) = .ok t' ∧ ((live M t' organizationId).map M.priority).Nodup := by
  have happend : order M t organizationId ++ [] = order M t organizationId := List.append_nil _
  rw [h.allItems_eq, ← happend] at hset
  obtain ⟨t', g, hupdate, h', hinj, -, -⟩ :=
    h.updates (fun _ hr => absurd hr List.not_mem_nil) (happend.symm ▸ nodup_order) hset k
  exact ⟨t', hupdate, h'.nodup hinj⟩

/-- **A move** leaves the items of the new order. -/
theorem Ranked.move (h : Ranked M t organizationId) {model : String} {x : Uuid} {q : ℕ} {us : List Placed}
    (hset : setPriority model (allItems M t organizationId) x q = .ok us) (hupdate : updateAll M t us = .ok t') :
    x ∈ order M t organizationId ∧
      allItems M t' organizationId = enumerate (moveTo (q - 1) x (order M t organizationId)) ∧
      ∀ other, other ≠ organizationId → live M t' other = live M t other := by
  have happend : order M t organizationId ++ [] = order M t organizationId := List.append_nil _
  have hmem := (setPriority_eq_ok nodup_order (h.allItems_eq ▸ hset)).1
  rw [h.allItems_eq, ← happend] at hset
  obtain ⟨t₁, g, hupdate', h', -, hnumbers, hothers⟩ :=
    h.updates (fun _ hr => absurd hr List.not_mem_nil) (happend.symm ▸ nodup_order) hset us.length
  rw [List.take_length, hupdate] at hupdate'
  obtain rfl := Except.ok.inj hupdate'
  rw [happend] at h' hnumbers
  refine ⟨hmem, ?_, hothers⟩
  have hperm := moveTo_perm (q - 1) hmem
  have hkeys : t'.rows.map key = t.rows.map key := updateAll_map (fun i a => M.key_withPriority i a) hupdate
  refine Holds.allItems_eq (g := g) ⟨fun a ha => ?_, fun a ha hin => ?_⟩ (hperm.nodup_iff.mpr nodup_order)
    (hnumbers le_rfl) fun r hr => ?_
  · rw [hperm.mem_iff]
    exact h'.mem_iff a ha
  · exact h'.priority a ha (hperm.mem_iff.mp hin)
  · rw [hkeys]
    exact order_subset_keys (hperm.mem_iff.mp hr)

section Place

variable {x : Uuid} {model : String} {q : ℕ} {us : List Placed}

theorem nodup_order_concat (hx : x ∉ t.rows.map key) : (order M t organizationId ++ [x]).Nodup := by
  have hnot : x ∉ order M t organizationId := fun h => hx (order_subset_keys h)
  refine List.nodup_append.mpr ⟨nodup_order, List.nodup_singleton x, fun r hr r' hr' heq => hnot ?_⟩
  rw [← List.mem_singleton.mp hr', ← heq]
  exact hr

theorem Ranked.concat (h : Ranked M t organizationId) :
    allItems M t organizationId ++ [⟨x, (allItems M t organizationId).length + 1⟩] =
      enumerate (order M t organizationId ++ [x]) := by
  have hlength : (allItems M t organizationId).length = (order M t organizationId).length :=
    (List.length_map Placed.id).symm
  rw [hlength, h.allItems_eq, ← enumerate_concat]

/-- **What makes place for a new item** goes through and leaves its priority free. -/
theorem Ranked.exists_place (h : Ranked M t organizationId) (hx : x ∉ t.rows.map key)
    (hset : setPriority model (allItems M t organizationId ++ [⟨x, (allItems M t organizationId).length + 1⟩]) x q =
      .ok us) :
    ∃ t' g, updateAll M t us = .ok t' ∧ Holds M t' organizationId (order M t organizationId ++ [x]) g ∧
      Numbers 1 (moveTo (q - 1) x (order M t organizationId ++ [x])) g ∧ g x = q ∧
      (∀ a ∈ live M t' organizationId, M.priority a ≠ q) ∧
      ∀ other, other ≠ organizationId → live M t' other = live M t other := by
  have hfresh : ∀ r ∈ [x], r ∉ t.rows.map key := by
    intro r hr
    obtain rfl := List.mem_singleton.mp hr
    exact hx
  have hmem : x ∈ order M t organizationId ++ [x] := List.mem_append_right _ (List.mem_singleton_self x)
  rw [h.concat] at hset
  have hrange : 1 ≤ q ∧ q ≤ (order M t organizationId).length + 1 := by
    have hbounds := setPriority_bounds hset
    rwa [List.length_append, List.length_singleton] at hbounds
  obtain ⟨t', g, hupdate, h', hinj, hnumbers, hothers⟩ := h.updates hfresh (nodup_order_concat hx) hset us.length
  rw [List.take_length] at hupdate
  have hkeys : t'.rows.map key = t.rows.map key := updateAll_map (fun i a => M.key_withPriority i a) hupdate
  have herase : ((order M t organizationId ++ [x]).erase x).length = (order M t organizationId).length := by
    rw [List.length_erase_of_mem hmem, List.length_append, List.length_singleton, Nat.add_sub_cancel]
  have hgx : g x = q := by
    rw [hnumbers le_rfl (q - 1) x (getElem?_moveTo_self (by omega))]
    omega
  refine ⟨t', g, hupdate, h', hnumbers le_rfl, hgx, fun b hb hbq => ?_, hothers⟩
  obtain ⟨hbt, hlive⟩ := mem_live.mp hb
  have hbl := (h'.mem_iff b hbt).mpr hlive
  rw [h'.priority b hbt hbl, ← hgx] at hbq
  have hbx : key b = x := hinj hbl hmem hbq
  exact hx (hkeys ▸ hbx ▸ List.mem_map_of_mem hbt)

/-- **A new item** is in its place. -/
theorem Ranked.place (h : Ranked M t organizationId) (hx : x ∉ t.rows.map key)
    (hset : setPriority model (allItems M t organizationId ++ [⟨x, (allItems M t organizationId).length + 1⟩]) x q =
      .ok us) (hupdate : updateAll M t us = .ok t') {a : α} (hnew : key a ∉ t'.rows.map key) (hax : key a = x)
    (hdeleted : M.deletedAt a = 0) (horg : M.organizationId a = organizationId) (hpriority : M.priority a = q) :
    allItems M (t'.add a hnew) organizationId = enumerate (moveTo (q - 1) x (order M t organizationId ++ [x])) ∧
      ∀ other, other ≠ organizationId → live M (t'.add a hnew) other = live M t other := by
  have hmem : x ∈ order M t organizationId ++ [x] := List.mem_append_right _ (List.mem_singleton_self x)
  obtain ⟨t₁, g, hupdate', h', hnumbers, hgx, -, hothers⟩ := h.exists_place hx hset
  rw [hupdate] at hupdate'
  obtain rfl := Except.ok.inj hupdate'
  have hkeys : t'.rows.map key = t.rows.map key := updateAll_map (fun i a => M.key_withPriority i a) hupdate
  have hperm := moveTo_perm (q - 1) hmem
  refine ⟨?_, fun other hother => ?_⟩
  · refine Holds.allItems_eq (g := g) ⟨fun b hb => ?_, fun b hb hin => ?_⟩
      (hperm.nodup_iff.mpr (nodup_order_concat hx)) hnumbers fun r hr => ?_
    · rw [hperm.mem_iff]
      rcases Table.mem_add.mp hb with hb | rfl
      · exact h'.mem_iff b hb
      · exact iff_of_true (hax ▸ hmem) ⟨hdeleted, horg⟩
    · rcases Table.mem_add.mp hb with hb | rfl
      · exact h'.priority b hb (hperm.mem_iff.mp hin)
      · rw [hpriority, hax, hgx]
    · rcases List.mem_append.mp (hperm.mem_iff.mp hr) with hr | hr
      · obtain ⟨b, hb, rfl⟩ := List.mem_map.mp (hkeys.symm ▸ order_subset_keys hr : r ∈ t'.rows.map key)
        exact List.mem_map_of_mem (Table.mem_add.mpr (Or.inl hb))
      · obtain rfl := List.mem_singleton.mp hr
        exact hax ▸ List.mem_map_of_mem (Table.mem_add.mpr (Or.inr rfl))
  · rw [← hothers other hother, live, Table.add, List.filter_append, List.filter_cons_of_neg, List.filter_nil,
      List.append_nil, live]
    exact fun hlive => hother (horg ▸ (of_decide_eq_true hlive).2.symm)

end Place

variable (M t organizationId) in
/-- **No statement that `set_priority` issues is refused**: the priorities of the live items are distinct after each of
them, and a new item finds its own priority free. -/
structure Movable : Prop where
  apart : ∀ x q us, setPriority M.name (allItems M t organizationId) x q = .ok us → ∀ k, ∃ t',
    updateAll M t (us.take k) = .ok t' ∧ ((live M t' organizationId).map M.priority).Nodup
  place : ∀ x, x ∉ t.rows.map key → ∀ q us, setPriority M.name (allItems M t organizationId ++
    [⟨x, (allItems M t organizationId).length + 1⟩]) x q = .ok us → ∃ t',
    updateAll M t us = .ok t' ∧ ∀ a ∈ live M t' organizationId, M.priority a ≠ q

theorem Ranked.movable (h : Ranked M t organizationId) : Movable M t organizationId where
  apart _ _ _ hset k := h.apart hset k
  place _ hx _ _ hset := by
    obtain ⟨t', -, hupdate, -, -, -, hfree, -⟩ := h.exists_place hx hset
    exact ⟨t', hupdate, hfree⟩

/-- **The last item** leaves the others in their places. -/
theorem allItems_retire {x : Uuid} (h : allItems M t organizationId = enumerate (l ++ [x])) {f : α → α}
    {hf : ∀ a, key (f a) = key a} (hdeleted : ∀ a, M.deletedAt (f a) ≠ 0)
    (horg : ∀ a, M.organizationId (f a) = M.organizationId a) :
    allItems M (t.updateWhere (fun a => key a = x) f hf) organizationId = enumerate l ∧
      ∀ other, other ≠ organizationId →
        live M (t.updateWhere (fun a => key a = x) f hf) other = live M t other := by
  have horder := order_of_allItems_eq h
  have hnodup : (l ++ [x]).Nodup := horder ▸ nodup_order
  have hnot : x ∉ l := fun hx => (List.nodup_append.mp hnodup).2.2 x hx x (List.mem_singleton_self x) rfl
  have hlive : ∀ b, b ∈ live M (t.updateWhere (fun a => key a = x) f hf) organizationId ↔
      b ∈ live M t organizationId ∧ key b ≠ x := by
    intro b
    rw [mem_live, Table.mem_updateWhere, mem_live]
    constructor
    · rintro ⟨⟨a, ha, rfl⟩, hb⟩
      split at hb
      · exact absurd hb.1 (hdeleted a)
      · rename_i hax
        rw [if_neg hax]
        exact ⟨⟨ha, hb⟩, by simpa using hax⟩
    · rintro ⟨⟨hb, hlive⟩, hbx⟩
      exact ⟨⟨b, hb, if_neg (by simpa using hbx)⟩, hlive⟩
  have hitem : ∀ p : Placed, p ∈ enumerate (l ++ [x]) ↔ ∃ a ∈ live M t organizationId, placed M a = p := fun p => by
    rw [← h, mem_allItems]
  refine ⟨allItems_eq (List.nodup_append.mp hnodup).1 fun p => ⟨fun hp => ?_, ?_⟩, fun other hother => ?_⟩
  · obtain ⟨a, ha, rfl⟩ := (hitem p).mp (enumerate_concat l x ▸ List.mem_append_left _ hp)
    refine ⟨a, (hlive a).mpr ⟨ha, ?_⟩, rfl⟩
    rintro rfl
    exact hnot (List.mem_of_getElem? (mem_enumerate.mp hp).choose_spec.1)
  · rintro ⟨a, ha, rfl⟩
    obtain ⟨ha, hax⟩ := (hlive a).mp ha
    have hin := (hitem _).mpr ⟨a, ha, rfl⟩
    rw [enumerate_concat] at hin
    refine (List.mem_append.mp hin).resolve_right fun hlast => hax ?_
    exact congrArg Placed.id (List.mem_singleton.mp hlast)
  · have hx : ∀ a ∈ t.rows, key a = x → M.organizationId a = organizationId := by
      intro a ha hax
      have hin : x ∈ order M t organizationId := horder ▸ List.mem_append_right _ (List.mem_singleton_self x)
      obtain ⟨b, hb, hbx⟩ := mem_order.mp hin
      obtain ⟨hbt, -, hborg⟩ := mem_live.mp hb
      rw [t.eq_of_key ha hbt (hax.trans hbx.symm)]
      exact hborg
    refine live_updateWhere fun a ha hax => ?_
    have haorg := hx a ha (of_decide_eq_true hax)
    rw [horg, haorg]
    exact ⟨hother.symm, hother.symm⟩

/-! ## From one table to the next -/

variable (M t t') in
/-- **The priorities are the places**, and all items but one are in the order they were in. -/
structure Reordered : Prop where
  ranked : ∀ organizationId, Ranked M t' organizationId
  order : ∃ x, ∀ organizationId, (order M t' organizationId).erase x = (order M t organizationId).erase x

theorem Reordered.refl (h : ∀ organizationId, Ranked M t organizationId) : Reordered M t t := ⟨h, 0, fun _ => rfl⟩

/-- What is left of one organization's items, the others being left alone. -/
theorem Reordered.of_items (h : ∀ other, Ranked M t other) {x : Uuid}
    (hitems : allItems M t' organizationId = enumerate l)
    (herase : l.erase x = (PriorityMixin.order M t organizationId).erase x)
    (hothers : ∀ other, other ≠ organizationId → live M t' other = live M t other) : Reordered M t t' where
  ranked other := by
    by_cases hother : other = organizationId
    · rw [hother]
      exact ranked_of_allItems_eq hitems
    · rw [Ranked, allItems_congr (hothers other hother)]
      exact h other
  order := by
    refine ⟨x, fun other => ?_⟩
    by_cases hother : other = organizationId
    · rw [hother, order_of_allItems_eq hitems, herase]
    · rw [PriorityMixin.order, allItems_congr (hothers other hother), PriorityMixin.order]

/-- **Moving an item** reorders. -/
theorem Reordered.of_move (h : ∀ other, Ranked M t other) {model : String} {x : Uuid} {q : ℕ} {us : List Placed}
    (hset : setPriority model (allItems M t organizationId) x q = .ok us) (hupdate : updateAll M t us = .ok t') :
    Reordered M t t' := by
  obtain ⟨-, hitems, hothers⟩ := (h organizationId).move hset hupdate
  exact .of_items h hitems (erase_moveTo (q - 1) nodup_order) hothers

/-- **An action on an item** reorders. -/
theorem Reordered.of_change (h : ∀ other, Ranked M t other) {model : String} {action : Option String} {item : Placed}
    {us : List Placed} (hchange : changePriority model action item (allItems M t organizationId) = .ok us)
    (hupdate : updateAll M t us = .ok t') : Reordered M t t' := by
  simp only [changePriority, bind_eq_ok] at hchange
  obtain ⟨maxPriority, -, target, -, hchange⟩ := hchange
  cases target with
  | none =>
    obtain rfl := pure_eq_ok.mp hchange
    rw [← updateAll_nil.mp hupdate]
    exact .refl h
  | some target => exact .of_move h hchange hupdate

/-- What else is changed does not matter. -/
theorem Reordered.congr {t₁ : Table key} (h : Reordered M t t₁)
    (hsame : ∀ other, allItems M t' other = allItems M t₁ other) : Reordered M t t' where
  ranked other := by
    rw [Ranked, hsame]
    exact h.ranked other
  order := by
    obtain ⟨x, hx⟩ := h.order
    refine ⟨x, fun other => ?_⟩
    rw [PriorityMixin.order, hsame]
    exact hx other

/-- **Adding a new item at the end** reorders: nothing has to be moved for it. -/
theorem Reordered.of_append (h : ∀ other, Ranked M t other) {a : α} (hdeleted : M.deletedAt a = 0)
    (hpriority : M.priority a = (allItems M t (M.organizationId a)).length + 1) (hnew : key a ∉ t.rows.map key) :
    Reordered M t (t.add a hnew) := by
  have hnot : key a ∉ PriorityMixin.order M t (M.organizationId a) := fun h => hnew (order_subset_keys h)
  have hlive : ∀ b, b ∈ live M (t.add a hnew) (M.organizationId a) ↔ b ∈ live M t (M.organizationId a) ∨ b = a := by
    intro b
    rw [mem_live, Table.mem_add, mem_live]
    constructor
    · rintro ⟨hb | rfl, hb'⟩
      · exact Or.inl ⟨hb, hb'⟩
      · exact Or.inr rfl
    · rintro (⟨hb, hb'⟩ | rfl)
      · exact ⟨Or.inl hb, hb'⟩
      · exact ⟨Or.inr rfl, hdeleted, rfl⟩
  have hitems : allItems M (t.add a hnew) (M.organizationId a) =
      enumerate (PriorityMixin.order M t (M.organizationId a) ++ [key a]) := by
    refine PriorityMixin.allItems_eq (nodup_order_concat hnew) fun p => ?_
    rw [← (h _).concat, List.mem_append, mem_allItems, List.mem_singleton]
    constructor
    · rintro (⟨b, hb, rfl⟩ | rfl)
      · exact ⟨b, (hlive b).mpr (Or.inl hb), rfl⟩
      · exact ⟨a, (hlive a).mpr (Or.inr rfl), by rw [placed, hpriority]⟩
    · rintro ⟨b, hb, rfl⟩
      rcases (hlive b).mp hb with hb | rfl
      · exact Or.inl ⟨b, hb, rfl⟩
      · exact Or.inr (by rw [placed, hpriority])
  refine .of_items (x := key a) h hitems ?_ fun other hother => ?_
  · rw [List.erase_append_right _ hnot, List.erase_cons_head, List.append_nil, List.erase_of_not_mem hnot]
  · unfold live Table.add
    rw [List.filter_append, List.filter_cons_of_neg, List.filter_nil, List.append_nil]
    exact fun hin => hother (of_decide_eq_true hin).2.symm

/-- **Placing a new item** reorders. -/
theorem Reordered.of_place (h : ∀ other, Ranked M t other) {a : α} (ha : key a ∉ t.rows.map key)
    (hdeleted : M.deletedAt a = 0) {model : String} {us : List Placed}
    (hset : setPriority model (allItems M t (M.organizationId a) ++
      [⟨key a, (allItems M t (M.organizationId a)).length + 1⟩]) (key a) (M.priority a) = .ok us)
    (hupdate : updateAll M t us = .ok t') (hnew : key a ∉ t'.rows.map key) : Reordered M t (t'.add a hnew) := by
  have hnot : key a ∉ PriorityMixin.order M t (M.organizationId a) := fun h => ha (order_subset_keys h)
  obtain ⟨hitems, hothers⟩ := (h (M.organizationId a)).place ha hset hupdate hnew rfl hdeleted rfl rfl
  refine .of_items (x := key a) h hitems ?_ hothers
  rw [erase_moveTo _ (nodup_order_concat ha), List.erase_append_right _ hnot, List.erase_cons_head, List.append_nil,
    List.erase_of_not_mem hnot]

/-- **Moving an item to the end and taking it out** reorders. -/
theorem Reordered.of_retire (h : ∀ other, Ranked M t other) {t₁ : Table key} {x : Uuid}
    (hlast : allItems M t₁ organizationId = enumerate ((PriorityMixin.order M t organizationId).erase x ++ [x]))
    (hothers : ∀ other, other ≠ organizationId → live M t₁ other = live M t other) {f : α → α}
    {hf : ∀ a, key (f a) = key a} (hdeleted : ∀ a, M.deletedAt (f a) ≠ 0)
    (horg : ∀ a, M.organizationId (f a) = M.organizationId a) :
    Reordered M t (t₁.updateWhere (fun a => key a = x) f hf) := by
  obtain ⟨hitems, hothers'⟩ := allItems_retire hlast hdeleted horg
  refine .of_items (x := x) h hitems ?_ fun other hother => (hothers' other hother).trans (hothers other hother)
  exact List.erase_of_not_mem nodup_order.not_mem_erase

/-- The last item of a table that is ranked is there already. -/
theorem Ranked.last (h : Ranked M t organizationId) {a : α} (ha : a ∈ live M t organizationId)
    (hlast : M.priority a = (allItems M t organizationId).length) :
    allItems M t organizationId = enumerate ((PriorityMixin.order M t organizationId).erase (key a) ++ [key a]) := by
  have hlength : (allItems M t organizationId).length = (PriorityMixin.order M t organizationId).length :=
    (List.length_map Placed.id).symm
  have hitem : placed M a ∈ enumerate (PriorityMixin.order M t organizationId) :=
    h.allItems_eq ▸ mem_allItems.mpr ⟨a, ha, rfl⟩
  obtain ⟨j, hj, hpriority⟩ := mem_enumerate.mp hitem
  have hend : j = (PriorityMixin.order M t organizationId).length - 1 := by
    have hone : 1 + j = (PriorityMixin.order M t organizationId).length := by
      rw [← hlength, ← hlast]
      exact hpriority.symm
    omega
  have hget : (PriorityMixin.order M t organizationId).getLast? = some (key a) := by
    rw [List.getLast?_eq_getElem?, ← hend]
    exact hj
  have hsplit := List.dropLast_append_getLast? _ hget
  have hnodup : (PriorityMixin.order M t organizationId).Nodup := nodup_order
  rw [← hsplit] at hnodup
  have hnot : key a ∉ (PriorityMixin.order M t organizationId).dropLast := fun hin =>
    (List.nodup_append.mp hnodup).2.2 _ hin _ (List.mem_singleton_self _) rfl
  have herase : (PriorityMixin.order M t organizationId).erase (key a) =
      (PriorityMixin.order M t organizationId).dropLast := by
    conv_lhs => rw [← hsplit]
    rw [List.erase_append_right _ hnot, List.erase_cons_head, List.append_nil]
  rw [herase, hsplit]
  exact h.allItems_eq

/-- **Deleting an item**, the last one or moved to the end, reorders. -/
theorem Reordered.of_delete (h : ∀ other, Ranked M t other) {t₁ : Table key} {a : α}
    (ha : a ∈ live M t (M.organizationId a)) {model : String}
    (hmoved : (if M.priority a = (allItems M t (M.organizationId a)).length then .ok t
      else do
        let updates ← setPriority model (allItems M t (M.organizationId a)) (key a)
          (allItems M t (M.organizationId a)).length
        updateAll M t updates : Except Failure (Table key)) = .ok t₁) {f : α → α} {hf : ∀ a, key (f a) = key a}
    (hdeleted : ∀ a, M.deletedAt (f a) ≠ 0) (horg : ∀ a, M.organizationId (f a) = M.organizationId a) :
    Reordered M t (t₁.updateWhere (fun b => key b = key a) f hf) := by
  split at hmoved
  · rename_i hlast
    obtain rfl := Except.ok.inj hmoved
    exact .of_retire h ((h _).last ha hlast) (fun _ _ => rfl) hdeleted horg
  · obtain ⟨us, hset, hupdate⟩ := bind_eq_ok.mp hmoved
    obtain ⟨hmem, hitems, hothers⟩ := (h _).move hset hupdate
    have hlength : (allItems M t (M.organizationId a)).length =
        (PriorityMixin.order M t (M.organizationId a)).length := (List.length_map Placed.id).symm
    rw [hlength, moveTo_last hmem] at hitems
    exact .of_retire h hitems hothers hdeleted horg

end Tables

end PriorityMixin
