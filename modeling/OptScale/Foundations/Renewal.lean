import OptScale.Foundations.Ledger

/-!
# Foundations/Renewal — a batch that renews what a ledger holds

New values are given for places, and the places come in groups.  What a ledger holds is found place by place and
compared with the new values: where the two agree the whole group of the place is left out of the batch, and
where they differ what was found is taken back.  What is left of the new values is entered.

Within a group only the order decides (`filter_cancelled`): what differs is taken back up to the first that
agrees.  So a batch renews a group exactly when the first found of it agrees and nothing of it was to change, or
none agrees (`renews_iff`).
-/

namespace Renewal

open Ledger

variable {γ ι V E ρ : Type*}

/-- The new values, by place. -/
abbrev New (γ ι V : Type*) := List ((γ × ι) × V)

variable [DecidableEq γ] [DecidableEq ι] [DecidableEq V]

/-- Leave out a group. -/
def pop (new : New γ ι V) (g : γ) : New γ ι V := new.filter fun x => x.1.1 ≠ g

variable (place : E → γ × ι) (values : E → V) (cancel : E → ρ)

/-- Compare one that was found with the new values, and list what takes it back. -/
def compareStep (s : New γ ι V × List ρ) (e : E) : New γ ι V × List ρ :=
  match s.1.lookup (place e) with
  | none => s
  | some v => if v = values e then (pop s.1 (place e).1, s.2) else (s.1, s.2 ++ [cancel e])

/-- The batch, from what was found chunk by chunk. -/
def renew (enter : (γ × ι) × V → ρ) (new : New γ ι V) (chunks : List (List E)) : List ρ :=
  let s := chunks.foldl (fun s found => found.foldl (compareStep place values cancel) s) (new, [])
  s.2 ++ s.1.map enter

/-! ## What is taken back, and what is entered -/

/-- There are new values for the place. -/
def Hit (new : New γ ι V) (e : E) : Prop := (new.lookup (place e)).isSome

instance (new : New γ ι V) (e : E) : Decidable (Hit place new e) := inferInstanceAs (Decidable (_ = true))

/-- They are the values that were found. -/
def Agrees (new : New γ ι V) (e : E) : Prop := new.lookup (place e) = some (values e)

instance (new : New γ ι V) (e : E) : Decidable (Agrees place values new e) :=
  inferInstanceAs (Decidable (_ = _))

/-- All that is taken back. -/
def cancelled : New γ ι V → List E → List E
  | _, [] => []
  | new, e :: found =>
    if Agrees place values new e then cancelled (pop new (place e).1) found
    else if Hit place new e then e :: cancelled new found
    else cancelled new found

/-- All that is entered. -/
def kept (new : New γ ι V) (found : List E) : New γ ι V :=
  new.filter fun x => ∀ e ∈ found, Agrees place values new e → (place e).1 ≠ x.1.1

variable {place values cancel} {new : New γ ι V} {found : List E} {g : γ} {e : E}

omit [DecidableEq V] in
theorem lookup_pop (p : γ × ι) : (pop new g).lookup p = if p.1 = g then none else new.lookup p := by
  induction new with
  | nil => simp [pop]
  | cons x new ih =>
    obtain ⟨q, v⟩ := x
    simp only [pop] at ih
    by_cases hq : q.1 = g
    · have hkeep : pop ((q, v) :: new) g = pop new g := List.filter_cons_of_neg (by simpa using hq)
      rw [hkeep, pop, ih, List.lookup_cons]
      split
      · rfl
      · rename_i hp
        have hne : p ≠ q := fun h => hp (h ▸ hq)
        rw [beq_eq_false_iff_ne.mpr hne]
    · have hkeep : pop ((q, v) :: new) g = (q, v) :: pop new g := List.filter_cons_of_pos (by simpa using hq)
      rw [hkeep, List.lookup_cons, List.lookup_cons, pop, ih]
      by_cases hpq : p = q
      · simp only [hpq, if_neg hq, beq_self_eq_true]
      · rw [beq_eq_false_iff_ne.mpr hpq]

omit [DecidableEq V] in
theorem hit_pop : Hit place (pop new g) e ↔ Hit place new e ∧ (place e).1 ≠ g := by
  unfold Hit
  rw [lookup_pop]
  split
  · simp_all
  · simp_all

omit [DecidableEq V] in
theorem agrees_pop : Agrees place values (pop new g) e ↔ Agrees place values new e ∧ (place e).1 ≠ g := by
  unfold Agrees
  rw [lookup_pop]
  split
  · simp_all
  · simp_all

omit [DecidableEq V] in
theorem Hit.exists_mem (h : Hit place new e) : ∃ x ∈ new, x.1 = place e := by
  obtain ⟨v, hv⟩ := Option.isSome_iff_exists.mp h
  obtain ⟨l, l', rfl, -⟩ := List.lookup_eq_some_iff.mp hv
  exact ⟨(place e, v), List.mem_append_right _ List.mem_cons_self, rfl⟩

omit [DecidableEq V] in
theorem Agrees.hit (h : Agrees place values new e) : Hit place new e := by
  unfold Hit
  rw [h]
  rfl

theorem kept_cons_of_agrees (h : Agrees place values new e) :
    kept place values new (e :: found) = kept place values (pop new (place e).1) found := by
  unfold kept
  rw [pop, List.filter_filter]
  refine List.filter_congr fun x _ => ?_
  rw [← pop]
  simp only [agrees_pop, List.forall_mem_cons, h, forall_const, ← Bool.decide_and, decide_eq_decide]
  constructor
  · rintro ⟨hne, hrest⟩
    exact ⟨fun u hu hagrees => hrest u hu hagrees.1, hne.symm⟩
  · rintro ⟨hrest, hne⟩
    refine ⟨hne.symm, fun u hu hagrees heq => hrest u hu ⟨hagrees, ?_⟩ heq⟩
    rw [heq]
    exact hne

theorem kept_cons_of_not_agrees (h : ¬ Agrees place values new e) :
    kept place values new (e :: found) = kept place values new found := by
  unfold kept
  refine List.filter_congr fun x _ => ?_
  simp only [List.forall_mem_cons, h, false_imp_iff, true_and]

/-- **What the loop comes to.** -/
theorem foldl_compareStep : ∀ (found : List E) (new : New γ ι V) (list : List ρ),
    found.foldl (compareStep place values cancel) (new, list) =
      (kept place values new found, list ++ (cancelled place values new found).map cancel)
  | [], new, list => by simp [kept, cancelled]
  | e :: found, new, list => by
    rw [List.foldl_cons]
    by_cases hagrees : Agrees place values new e
    · have hstep : compareStep place values cancel (new, list) e = (pop new (place e).1, list) := by
        unfold compareStep
        rw [show (new, list).1.lookup (place e) = some (values e) from hagrees]
        exact if_pos rfl
      rw [hstep, foldl_compareStep found, kept_cons_of_agrees hagrees, cancelled, if_pos hagrees]
    · rw [kept_cons_of_not_agrees hagrees, cancelled, if_neg hagrees]
      by_cases hhit : Hit place new e
      · obtain ⟨v, hv⟩ := Option.isSome_iff_exists.mp hhit
        have hstep : compareStep place values cancel (new, list) e = (new, list ++ [cancel e]) := by
          unfold compareStep
          rw [show (new, list).1.lookup (place e) = some v from hv]
          exact if_neg fun h => hagrees (hv.trans (congrArg some h))
        rw [hstep, foldl_compareStep found, if_pos hhit, List.map_cons, List.append_assoc]
        rfl
      · have hstep : compareStep place values cancel (new, list) e = (new, list) := by
          unfold compareStep
          rw [show (new, list).1.lookup (place e) = none from Option.not_isSome_iff_eq_none.mp hhit]
        rw [hstep, foldl_compareStep found, if_neg hhit]

theorem renew_eq (enter : (γ × ι) × V → ρ) (new : New γ ι V) (chunks : List (List E)) :
    renew place values cancel enter new chunks =
      (cancelled place values new chunks.flatten).map cancel ++
        (kept place values new chunks.flatten).map enter := by
  unfold renew
  rw [← List.foldl_flatten, foldl_compareStep]
  rfl

/-! ## Group by group -/

variable (place values new found g)

/-- What was found of a group and is to be renewed. -/
def foundOf : List E := found.filter fun e => (place e).1 = g ∧ Hit place new e

/-- The first of these agrees. -/
def FirstAgrees : Prop := ∃ e ∈ (foundOf place new found g).head?, Agrees place values new e

/-- None of them agrees. -/
def NoneAgrees : Prop := ∀ e ∈ found, (place e).1 = g → ¬ Agrees place values new e

variable {place values new found g}

omit [DecidableEq V] in
theorem foundOf_pop {g' : γ} : foundOf place (pop new g') found g =
    if g = g' then [] else foundOf place new found g := by
  unfold foundOf
  split
  · rename_i h
    subst h
    exact List.filter_eq_nil_iff.mpr fun e _ => by simp +contextual [hit_pop]
  · rename_i h
    refine List.filter_congr fun e _ => ?_
    rw [decide_eq_decide, hit_pop]
    constructor
    · exact fun ⟨hg, hhit, _⟩ => ⟨hg, hhit⟩
    · rintro ⟨rfl, hhit⟩
      exact ⟨rfl, hhit, h⟩

theorem takeWhile_pop {g' : γ} (h : g ≠ g') :
    (foundOf place new found g).takeWhile (fun e => ¬ Agrees place values (pop new g') e) =
      (foundOf place new found g).takeWhile fun e => ¬ Agrees place values new e := by
  induction found with
  | nil => rfl
  | cons e found ih =>
    unfold foundOf at ih ⊢
    rw [List.filter_cons]
    split
    · rename_i hof
      obtain ⟨rfl, -⟩ := of_decide_eq_true hof
      simp only [List.takeWhile_cons, agrees_pop, h, ne_eq, not_false_eq_true, and_true] at ih ⊢
      rw [ih]
    · exact ih

/-- **Taken back is what differs, up to the first that agrees.** -/
theorem filter_cancelled : ∀ {found : List E} {new : New γ ι V},
    (cancelled place values new found).filter (fun e => (place e).1 = g) =
      (foundOf place new found g).takeWhile fun e => ¬ Agrees place values new e
  | [], _ => rfl
  | e :: found, new => by
    unfold cancelled
    by_cases hagrees : Agrees place values new e
    · rw [if_pos hagrees, filter_cancelled, foundOf_pop]
      by_cases hg : g = (place e).1
      · subst hg
        have hof : foundOf place new (e :: found) (place e).1 = e :: foundOf place new found (place e).1 :=
          List.filter_cons_of_pos (by simpa using hagrees.hit)
        rw [if_pos rfl, hof, List.takeWhile_nil, List.takeWhile_cons_of_neg (by simpa using hagrees)]
      · have hof : foundOf place new (e :: found) g = foundOf place new found g :=
          List.filter_cons_of_neg (by simpa using fun h => absurd h.symm hg)
        rw [if_neg hg, takeWhile_pop hg, hof]
    · rw [if_neg hagrees]
      by_cases hof : (place e).1 = g ∧ Hit place new e
      · have hcons : foundOf place new (e :: found) g = e :: foundOf place new found g :=
          List.filter_cons_of_pos (decide_eq_true hof)
        rw [if_pos hof.2, List.filter_cons_of_pos (by simpa using hof.1), filter_cancelled, hcons,
          List.takeWhile_cons_of_pos (by simpa using hagrees)]
      · have hskip : foundOf place new (e :: found) g = foundOf place new found g :=
          List.filter_cons_of_neg (by simpa using hof)
        rw [hskip, ← filter_cancelled]
        split
        · rename_i hhit
          exact List.filter_cons_of_neg (by simpa using fun h => hof ⟨h, hhit⟩)
        · rfl

theorem cancelled_sublist : ∀ {found : List E} {new : New γ ι V},
    (cancelled place values new found).Sublist found
  | [], _ => .slnil
  | e :: found, new => by
    unfold cancelled
    split
    · exact cancelled_sublist.cons e
    · split
      · exact cancelled_sublist.cons_cons e
      · exact cancelled_sublist.cons e

theorem mem_cancelled : e ∈ cancelled place values new found ↔
    e ∈ (foundOf place new found (place e).1).takeWhile fun u => ¬ Agrees place values new u := by
  rw [← filter_cancelled, List.mem_filter, decide_eq_true_eq, and_iff_left rfl]

theorem hit_of_mem_cancelled (h : e ∈ cancelled place values new found) : Hit place new e :=
  (of_decide_eq_true (List.mem_filter.mp (List.takeWhile_subset _ (mem_cancelled.mp h))).2).2

/-- **Nothing found, nothing taken back**: all new values are entered. -/
theorem renew_of_not_hit {enter : (γ × ι) × V → ρ} {chunks : List (List E)}
    (h : ∀ e ∈ chunks.flatten, ¬ Hit place new e) :
    renew place values cancel enter new chunks = new.map enter := by
  have hcancelled : cancelled place values new chunks.flatten = [] :=
    List.eq_nil_iff_forall_not_mem.mpr fun e he => h e (cancelled_sublist.subset he) (hit_of_mem_cancelled he)
  have hkept : kept place values new chunks.flatten = new :=
    List.filter_eq_self.mpr fun x _ => decide_eq_true fun e he hagrees => absurd hagrees.hit (h e he)
  rw [renew_eq, hcancelled, hkept, List.map_nil, List.nil_append]

/-! ## In a ledger -/

theorem lookup_eq_some_iff {α β : Type*} [BEq α] [LawfulBEq α] {l : List (α × β)} (hl : (l.map Prod.fst).Nodup)
    {a : α} {b : β} : l.lookup a = some b ↔ (a, b) ∈ l := by
  rw [List.lookup_eq_some_iff]
  constructor
  · rintro ⟨_, _, rfl, -⟩
    exact List.mem_append_right _ List.mem_cons_self
  · intro hab
    obtain ⟨l₁, l₂, rfl⟩ := List.append_of_mem hab
    refine ⟨l₁, l₂, rfl, fun p hp => bne_iff_ne.mpr fun h => ?_⟩
    rw [List.map_append, List.nodup_append] at hl
    exact hl.2.2 p.1 (List.mem_map_of_mem hp) a (List.mem_map_of_mem List.mem_cons_self) h.symm

variable {κ R : Type*} (key : γ × ι → κ) (cost : V → R)

/-- The row that enters new values. -/
def entry (x : (γ × ι) × V) : Row κ R := ⟨key x.1, cost x.2, 1⟩

variable (place values) in
/-- The row that takes back what was found. -/
def takeBack (e : E) : Row κ R := ⟨key (place e), cost (values e), -1⟩

variable (place values new found) in
/-- The rows of a batch. -/
def batch : List (Row κ R) :=
  (cancelled place values new found).map (takeBack place values key cost) ++
    (kept place values new found).map (entry key cost)

theorem map_renew (toRow : ρ → Row κ R) (enter : (γ × ι) × V → ρ) (chunks : List (List E))
    (hcancel : ∀ e, toRow (cancel e) = takeBack place values key cost e)
    (henter : ∀ x, toRow (enter x) = entry key cost x) :
    (renew place values cancel enter new chunks).map toRow =
      batch place values new chunks.flatten key cost := by
  rw [renew_eq, List.map_append, List.map_map, List.map_map]
  exact congrArg₂ _ (List.map_congr_left fun e _ => hcancel e) (List.map_congr_left fun x _ => henter x)

variable [DecidableEq κ] [Ring R] {key cost} {rows : Multiset (Row κ R)}

omit [DecidableEq κ] [Ring R] in
/-- A row of the batch is at a place with new values. -/
theorem exists_of_mem_batch {r : Row κ R}
    (hr : r ∈ batch place values new found key cost) : ∃ x ∈ new, key x.1 = r.key := by
  obtain hr | hr := List.mem_append.mp hr
  · obtain ⟨e, he, rfl⟩ := List.mem_map.mp hr
    obtain ⟨x, hx, hp⟩ := (hit_of_mem_cancelled he).exists_mem
    exact ⟨x, hx, congrArg key hp⟩
  · obtain ⟨x, hx, rfl⟩ := List.mem_map.mp hr
    exact ⟨x, (List.mem_filter.mp hx).1, rfl⟩

/-- **No other key is touched.** -/
theorem balance_batch_of_ne {k : κ} (hk : ∀ x ∈ new, key x.1 ≠ k) :
    balance (rows + (batch place values new found key cost : Multiset (Row κ R))) k = balance rows k := by
  have hnone : balance (batch place values new found key cost : Multiset (Row κ R)) k = 0 :=
    balance_of_forall_ne fun r hr h => by
      obtain ⟨x, hx, hkey⟩ := exists_of_mem_batch hr
      exact hk x hx (hkey.trans h)
  rw [balance_add, hnone, add_zero]

section Renews

variable (hkey : ∀ x ∈ new, ∀ y ∈ new, key x.1 = key y.1 → x.1 = y.1) (hnew : (new.map Prod.fst).Nodup)

include hkey hnew in
/-- What is entered for a place. -/
theorem balance_entered {x : (γ × ι) × V} (hx : x ∈ new) :
    balance (((kept place values new found).map (entry key cost) : List (Row κ R)) : Multiset (Row κ R))
        (key x.1) =
      if ∃ e ∈ found, (place e).1 = x.1.1 ∧ Agrees place values new e then 0 else (1, cost x.2) := by
  split
  · rename_i h
    obtain ⟨e, he, hg, hagrees⟩ := h
    refine balance_of_forall_ne fun r hr hk => ?_
    obtain ⟨y, hy, rfl⟩ := List.mem_map.mp hr
    obtain ⟨hy, hkeep⟩ := List.mem_filter.mp hy
    exact of_decide_eq_true hkeep e he hagrees (hg.trans (congrArg Prod.fst (hkey y hy x hx hk)).symm)
  · rename_i h
    have hmem : x ∈ kept place values new found :=
      List.mem_filter.mpr ⟨hx, decide_eq_true fun e he hagrees hg => h ⟨e, he, hg, hagrees⟩⟩
    have hnodup : (((kept place values new found).map (entry key cost)).map Row.key).Nodup := by
      rw [List.map_map]
      refine ((List.Nodup.of_map _ hnew).filter _).map_on fun y hy z hz h => ?_
      have hy := (List.mem_filter.mp hy).1
      have hz := (List.mem_filter.mp hz).1
      exact List.inj_on_of_nodup_map hnew hy hz (hkey y hy z hz h)
    have hrow := balance_of_nodup hnodup (List.mem_map_of_mem (f := entry key cost) hmem)
    rw [show key x.1 = (entry key cost x).key from rfl, hrow]
    simp [Row.worth, entry]

variable (hplace : (found.map place).Nodup)
  (hfound : ∀ e ∈ found, balance rows (key (place e)) = (1, cost (values e)))

include hkey hnew hplace hfound in
/-- What is taken back for a place. -/
theorem balance_takenBack {x : (γ × ι) × V} (hx : x ∈ new) :
    balance (((cancelled place values new found).map (takeBack place values key cost) : List (Row κ R)) :
        Multiset (Row κ R)) (key x.1) =
      if ∃ e ∈ cancelled place values new found, place e = x.1 then - balance rows (key x.1) else 0 := by
  split
  · rename_i h
    obtain ⟨e, he, hp⟩ := h
    have hin : ∀ e ∈ cancelled place values new found, e ∈ found ∧ ∃ y ∈ new, y.1 = place e := by
      exact fun e he => ⟨cancelled_sublist.subset he, (hit_of_mem_cancelled he).exists_mem⟩
    have hnodup :
        (((cancelled place values new found).map (takeBack place values key cost)).map Row.key).Nodup := by
      rw [List.map_map]
      refine ((List.Nodup.of_map _ hplace).sublist cancelled_sublist).map_on fun a ha b hb h => ?_
      obtain ⟨ha, y, hy, hya⟩ := hin a ha
      obtain ⟨hb, z, hz, hzb⟩ := hin b hb
      have hyz : y.1 = z.1 := hkey y hy z hz (by rw [hya, hzb]; exact h)
      exact List.inj_on_of_nodup_map hplace ha hb (hya.symm.trans (hyz.trans hzb))
    have hrow := balance_of_nodup hnodup (List.mem_map_of_mem (f := takeBack place values key cost) he)
    rw [← hp, hfound e (hin e he).1,
      show key (place e) = (takeBack place values key cost e).key from rfl, hrow]
    simp [Row.worth, takeBack]
  · rename_i h
    refine balance_of_forall_ne fun r hr hk => ?_
    obtain ⟨e, he, rfl⟩ := List.mem_map.mp hr
    obtain ⟨y, hy, hp⟩ := (hit_of_mem_cancelled he).exists_mem
    exact h ⟨e, he, hp.symm.trans (hkey y hy x hx ((congrArg key hp).trans hk))⟩

include hkey hnew hplace hfound in
/-- **What a batch does to a place.** -/
theorem balance_batch {x : (γ × ι) × V} (hx : x ∈ new) :
    balance (rows + (batch place values new found key cost : Multiset (Row κ R))) (key x.1) =
      balance rows (key x.1) +
        ((if ∃ e ∈ cancelled place values new found, place e = x.1 then - balance rows (key x.1) else 0) +
          if ∃ e ∈ found, (place e).1 = x.1.1 ∧ Agrees place values new e then 0 else (1, cost x.2)) := by
  rw [batch, ← Multiset.coe_add, balance_add, balance_add, balance_entered hkey hnew hx,
    balance_takenBack hkey hnew hplace hfound hx]

/-- Where the first agrees nothing of the group is taken back. -/
theorem FirstAgrees.not_cancelled {p : γ × ι} (h : FirstAgrees place values new found p.1) :
    ¬ ∃ e ∈ cancelled place values new found, place e = p := by
  rintro ⟨e, he, rfl⟩
  obtain ⟨u, hu, hagrees⟩ := h
  have hmem := mem_cancelled.mp he
  obtain ⟨rest, hrest⟩ := List.head?_eq_some_iff.mp hu
  rw [hrest, List.takeWhile_cons_of_neg (by simpa using hagrees)] at hmem
  exact List.not_mem_nil hmem

omit [DecidableEq V] in
theorem FirstAgrees.popped (h : FirstAgrees place values new found g) :
    ∃ e ∈ found, (place e).1 = g ∧ Agrees place values new e := by
  obtain ⟨u, hu, hagrees⟩ := h
  obtain ⟨hu, hof⟩ := List.mem_filter.mp (List.mem_of_mem_head? hu)
  exact ⟨u, hu, (of_decide_eq_true hof).1, hagrees⟩

omit [DecidableEq V] in
theorem NoneAgrees.not_popped (h : NoneAgrees place values new found g) :
    ¬ ∃ e ∈ found, (place e).1 = g ∧ Agrees place values new e := by
  rintro ⟨e, he, hg, hagrees⟩
  exact h e he hg hagrees

/-- Where none agrees all that was found is taken back. -/
theorem NoneAgrees.cancelled (h : NoneAgrees place values new found (place e).1) (he : e ∈ found)
    (hhit : Hit place new e) : e ∈ cancelled place values new found := by
  rw [mem_cancelled, List.takeWhile_eq_self_iff.mpr]
  · exact List.mem_filter.mpr ⟨he, decide_eq_true ⟨rfl, hhit⟩⟩
  · intro u hu
    obtain ⟨hu, hof⟩ := List.mem_filter.mp hu
    exact decide_eq_true (h u hu (of_decide_eq_true hof).1)

variable (place values new found key cost rows) in
/-- A place the batch comes out right for: its group stands and is left alone, or is taken back whole. -/
def Renewable (x : (γ × ι) × V) : Prop :=
  (FirstAgrees place values new found x.1.1 ∧ balance rows (key x.1) = (1, cost x.2)) ∨
    (NoneAgrees place values new found x.1.1 ∧
      (balance rows (key x.1) = 0 ∨ ∃ e ∈ found, place e = x.1))

omit [DecidableEq V] in
include hnew in
theorem hit_of_mem {x : (γ × ι) × V} (hx : x ∈ new) (he : place e = x.1) : Hit place new e := by
  unfold Hit
  rw [he, (lookup_eq_some_iff hnew).mpr hx]
  rfl

include hkey hnew hplace hfound in
/-- **A batch renews the ledger** exactly when every place is renewable. -/
theorem renews_iff :
    (∀ x ∈ new, balance (rows + (batch place values new found key cost : Multiset (Row κ R))) (key x.1) =
        (1, cost x.2)) ↔ ∀ x ∈ new, Renewable place values new found key cost rows x := by
  constructor
  · intro hrenews x hx
    by_cases hnone : NoneAgrees place values new found x.1.1
    · refine Or.inr ⟨hnone, ?_⟩
      by_contra hnot
      obtain ⟨hzero, hunfound⟩ := not_or.mp hnot
      have hbalance := hrenews x hx
      have huncancelled : ¬ ∃ e ∈ cancelled place values new found, place e = x.1 := by
        rintro ⟨e, he, hp⟩
        exact hunfound ⟨e, cancelled_sublist.subset he, hp⟩
      rw [balance_batch hkey hnew hplace hfound hx, if_neg huncancelled, if_neg hnone.not_popped, zero_add,
        add_eq_right] at hbalance
      exact hzero hbalance
    · obtain ⟨u, hu, hg, hagrees⟩ : ∃ u ∈ found, (place u).1 = x.1.1 ∧ Agrees place values new u := by
        simpa only [NoneAgrees, not_forall, not_not, exists_prop] using hnone
      have hof : u ∈ foundOf place new found x.1.1 :=
        List.mem_filter.mpr ⟨hu, decide_eq_true ⟨hg, hagrees.hit⟩⟩
      obtain ⟨e, rest, hrest⟩ := List.exists_cons_of_ne_nil (List.ne_nil_of_mem hof)
      by_cases hfirst : Agrees place values new e
      · have hagree : FirstAgrees place values new found x.1.1 := ⟨e, by rw [hrest]; rfl, hfirst⟩
        have hbalance := hrenews x hx
        rw [balance_batch hkey hnew hplace hfound hx, if_neg hagree.not_cancelled, if_pos hagree.popped,
          add_zero, add_zero] at hbalance
        exact Or.inl ⟨hagree, hbalance⟩
      · -- the first differs, so that it is taken back, and a later one keeps its group out
        have hmem : e ∈ foundOf place new found x.1.1 := hrest ▸ List.mem_cons_self
        obtain ⟨-, heg, hhit⟩ := (List.mem_filter.mp hmem).imp id of_decide_eq_true
        obtain ⟨v, hv⟩ := Option.isSome_iff_exists.mp hhit
        have hcancel : e ∈ cancelled place values new found := by
          rw [mem_cancelled, heg, hrest, List.takeWhile_cons_of_pos (by simpa using hfirst)]
          exact List.mem_cons_self
        have hin := (lookup_eq_some_iff hnew).mp hv
        have hbalance := hrenews _ hin
        rw [balance_batch hkey hnew hplace hfound hin, if_pos ⟨e, hcancel, rfl⟩,
          if_pos ⟨u, hu, hg.trans heg.symm, hagrees⟩, add_zero, add_neg_cancel] at hbalance
        exact absurd (congrArg Prod.fst hbalance) (by simp)
  · intro hrenewable x hx
    rw [balance_batch hkey hnew hplace hfound hx]
    obtain ⟨hfirst, hbalance⟩ | ⟨hnone, hrest⟩ := hrenewable x hx
    · rw [if_neg hfirst.not_cancelled, if_pos hfirst.popped, add_zero, add_zero, hbalance]
    · rw [if_neg hnone.not_popped]
      obtain hzero | ⟨e, he, hp⟩ := hrest
      · rw [hzero, neg_zero, ite_self, zero_add, zero_add]
      · have hcancel : e ∈ cancelled place values new found :=
          NoneAgrees.cancelled (hp ▸ hnone) he (hit_of_mem hnew hx hp)
        rw [if_pos ⟨e, hcancel, hp⟩, ← add_assoc, add_neg_cancel, zero_add]

end Renews

end Renewal
