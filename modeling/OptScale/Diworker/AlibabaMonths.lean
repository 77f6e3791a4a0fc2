import OptScale.Foundations.Calendar
import OptScale.Foundations.SetOrder
import OptScale.Foundations.Dict
import OptScale.Diworker.RawRecords

/-!
# Diworker/AlibabaMonths — round-down discounts of the full months of a period

Alibaba rounds a month's bill down, and the discount is known by the month only; so it is booked for the months
that are wholly in the imported period.  `get_full_months_in_period` counts the current month, whose last second
may have come, only if it is also the first, begins with the period and is at that second exactly
(`books_iff`).
-/

open Datetime

namespace AlibabaReportImporter

/-! ## The months -/

/-- The loop over the months before the current one. -/
def monthsFrom (nextMonthStart : Datetime) (hday : nextMonthStart.day ≤ 28) (now : Datetime) : List Datetime :=
  if nextMonthStart < firstOf now.toMonth then
    nextMonthStart :: monthsFrom (nextMonthStart.replaceMonth hday nextMonthStart.toMonth.next) hday now
  else []
termination_by now.toMonth.index - nextMonthStart.toMonth.index
decreasing_by
  rename_i h
  have hlt := lt_iff.mp h
  have hday' := nextMonthStart.day_mem
  simp only [firstOf, replaceMonth, Month.index_next] at hlt ⊢
  omega

/-- The second after a month is on a day that every month has. -/
theorem day_addSecond_lastOf (m : Month) : (lastOf m).addSecond.day ≤ 28 := by
  rw [addSecond_lastOf]
  exact Nat.le_of_ble_eq_true rfl

/-- `get_full_months_in_period` -/
def getFullMonthsInPeriod (start now : Datetime) : List Datetime :=
  let monthStart := firstOf start.toMonth
  let monthEnd := lastOf start.toMonth
  if start.toMonth.year = now.toMonth.year ∧ start.toMonth.month = now.toMonth.month then
    if start = monthStart ∧ now = monthEnd then [now] else []
  else
    (if start = monthStart ∧ now > monthEnd then [start] else []) ++
      monthsFrom monthEnd.addSecond (day_addSecond_lastOf _) now

/-- **A full month** of a period: it begins in it, and its last second has come. -/
def Full (start now : Datetime) (m : Month) : Prop := start ≤ firstOf m ∧ lastOf m ≤ now

/-! ## The discounts -/

/-- The value of a field of a bill. -/
inductive BillValue
  | text (s : String)
  | number (q : ℚ)
  | date (d : Datetime)
  deriving DecidableEq

/-- An item of a month's overview. -/
structure BillItem where
  productName : String
  roundDownDiscount : ℚ
  fields : RawDocument BillValue

/-- The discount of a resource. -/
structure Discount where
  fields : RawDocument BillValue
  cost : ℚ

/-- `item_resource_id` -/
def BillItem.resourceId (i : BillItem) : String := i.productName ++ " RDD"

/-- Add an item to the discounts. -/
def addItem (serviceRddMap : Dict String Discount) (i : BillItem) : Dict String Discount :=
  let rdd := (serviceRddMap.lookup i.resourceId).getD ⟨i.fields, 0⟩
  Dict.set serviceRddMap i.resourceId { rdd with cost := rdd.cost + i.roundDownDiscount }

/-- `get_round_down_discount`, from the items of the overview. -/
def getRoundDownDiscount (items : List BillItem) : Dict String Discount := items.foldl addItem ∅

/-- An import: the account, the report, and what the cloud answers. -/
structure RddImport where
  cloudAccId : String
  reportIdentity : String
  billOverview : Month → List BillItem
  /-- The order of the set of dates. -/
  order : SetOrder Datetime

/-- `replace` of day, hour, minute and second. -/
def atLastDay (date : Datetime) (seconds : ℕ) (h : seconds < 86400) : Datetime :=
  { toMonth := date.toMonth, day := date.toMonth.lastDay, time := seconds * 1000000 + date.time % 1000000
    day_mem := ⟨by have := date.toMonth.le_lastDay; omega, le_refl _⟩
    time_lt := by omega }

variable (I : RddImport)

/-- The raw record of a discount. -/
def rddRecord (date : Datetime) (resourceId : String) (rdd : Discount) : RawDocument BillValue
  | "resource_id" => some (.text resourceId)
  | "start_date" => some (.date (atLastDay date 0 (by omega)))
  | "end_date" => some (.date (atLastDay date 86399 (by omega)))
  | "cloud_account_id" => some (.text I.cloudAccId)
  | "cost" => some (.number (-|rdd.cost|))
  | "NickName" => some (.text resourceId)
  | "Region" => some (.text "")
  | "Tag" => some (.text "")
  | "report_identity" => some (.text I.reportIdentity)
  | field => rdd.fields field

/-- `get_unique_field_list` -/
def uniqueFieldList : List String :=
  ["CommodityCode", "Item", "BillingItem", "BillingType", "ProductCode", "ProductType", "UsageUnit", "ListPrice",
    "start_date", "resource_id", "cloud_account_id"]

/-- `get_update_fields` -/
def updateFields : List String :=
  ["NickName", "Zone", "InstanceSpec", "InstanceConfig", "PretaxGrossAmount", "PretaxAmount", "Usage",
    "InvoiceDiscount", "DeductedByCoupons", "cost", "report_identity"]

theorem disjoint_fields : uniqueFieldList.Disjoint updateFields := by
  unfold List.Disjoint uniqueFieldList updateFields
  decide

/-- The fields of the importer. -/
def fields : RawFields (RawDocument BillValue) (List (Option BillValue)) :=
  .ofNames BillValue uniqueFieldList updateFields disjoint_fields

/-- `CHUNK_SIZE` -/
def chunkSize : ℕ := 200

/-- Append a record; the chunk is not emptied when it is written. -/
def addRecord (s : List (RawDocument BillValue) × Table fields.unique) (rdd : RawDocument BillValue) :
    List (RawDocument BillValue) × Table fields.unique :=
  let chunk := s.1 ++ [rdd]
  (chunk, if chunkSize ≤ chunk.length then BaseReportImporter.updateRawRecords fields chunk s.2 else s.2)

/-- The dates that discounts are asked for. -/
def fullMonths (start now : Datetime) : List Datetime := I.order.toList (getFullMonthsInPeriod start now)

/-- The records of the discounts of a date. -/
def recordsOf (date : Datetime) : List (RawDocument BillValue) :=
  (getRoundDownDiscount (I.billOverview date.toMonth)).entries.map fun e => rddRecord I date e.1 e.2

/-- `generate_rdd_records` -/
def generateRddRecords (start now : Datetime) (raw : Table fields.unique) : Table fields.unique :=
  let s := ((fullMonths I start now).flatMap (recordsOf I)).foldl addRecord ([], raw)
  if s.1 ≠ [] then BaseReportImporter.updateRawRecords fields s.1 s.2 else s.2

/-! ## Which months are counted -/

variable {start now : Datetime} {m : Month}

/-- **The loop** goes from a month up to the current one, which is left out. -/
theorem mem_monthsFrom (n : ℕ) : ∀ (m : Month) (hday : (firstOf m).day ≤ 28),
    now.toMonth.index - m.index ≤ n → ∀ d, d ∈ monthsFrom (firstOf m) hday now ↔
      ∃ m' : Month, m.index ≤ m'.index ∧ m'.index < now.toMonth.index ∧ d = firstOf m' := by
  have hlt : ∀ m : Month, firstOf m < firstOf now.toMonth ↔ m.index < now.toMonth.index := by
    intro m
    rw [lt_iff]
    simp [firstOf]
  induction n with
  | zero =>
    intro m hday hn d
    rw [monthsFrom, if_neg fun h => absurd ((hlt m).mp h) (by omega)]
    simp only [List.not_mem_nil, false_iff, not_exists, not_and]
    omega
  | succ n ih =>
    intro m hday hn d
    rw [monthsFrom]
    split
    next h =>
      have hm := (hlt m).mp h
      simp only [toMonth_firstOf, replaceMonth_firstOf, List.mem_cons]
      rw [ih m.next hday (by rw [Month.index_next]; omega), Month.index_next]
      constructor
      · rintro (rfl | ⟨m', hle, hm', rfl⟩)
        · exact ⟨m, le_refl _, hm, rfl⟩
        · exact ⟨m', by omega, hm', rfl⟩
      · rintro ⟨m', hle, hm', rfl⟩
        rcases Nat.eq_or_lt_of_le hle with heq | hless
        · exact Or.inl (congrArg _ (Month.index_injective heq.symm))
        · exact Or.inr ⟨m', hless, hm', rfl⟩
    next h =>
      have hm : ¬ m.index < now.toMonth.index := fun h' => h ((hlt m).mpr h')
      simp only [List.not_mem_nil, false_iff, not_exists, not_and]
      omega

theorem same_month_iff : (start.toMonth.year = now.toMonth.year ∧ start.toMonth.month = now.toMonth.month) ↔
    start.toMonth = now.toMonth := by
  constructor
  · rintro ⟨hyear, hmonth⟩
    refine Month.index_injective ?_
    rw [Month.index, Month.index, hyear, hmonth]
  · intro h
    exact ⟨congrArg Month.year h, congrArg Month.month h⟩

theorem mem_getFullMonthsInPeriod {d : Datetime} : d ∈ getFullMonthsInPeriod start now ↔
    (start.toMonth = now.toMonth ∧ (start = firstOf start.toMonth ∧ now = lastOf start.toMonth) ∧ d = now) ∨
    (start.toMonth ≠ now.toMonth ∧ ((start = firstOf start.toMonth ∧ lastOf start.toMonth < now) ∧ d = start ∨
      ∃ m, start.toMonth.index < m.index ∧ m.index < now.toMonth.index ∧ d = firstOf m)) := by
  have hloop : d ∈ monthsFrom (lastOf start.toMonth).addSecond (day_addSecond_lastOf _) now ↔
      ∃ m, start.toMonth.index < m.index ∧ m.index < now.toMonth.index ∧ d = firstOf m := by
    simp only [addSecond_lastOf]
    rw [mem_monthsFrom _ _ _ (le_refl _), Month.index_next]
    rfl
  unfold getFullMonthsInPeriod
  simp only [same_month_iff]
  by_cases hsame : start.toMonth = now.toMonth
  · rw [if_pos hsame]
    constructor
    · intro hd
      split at hd
      next h => exact Or.inl ⟨hsame, h, List.mem_singleton.mp hd⟩
      next => exact absurd hd List.not_mem_nil
    · rintro (⟨-, h, rfl⟩ | ⟨hne, -⟩)
      · rw [if_pos h]
        exact List.mem_singleton_self _
      · exact absurd hsame hne
  · rw [if_neg hsame, List.mem_append, hloop]
    constructor
    · rintro (hd | hd)
      · split at hd
        next h => exact Or.inr ⟨hsame, Or.inl ⟨h, List.mem_singleton.mp hd⟩⟩
        next => exact absurd hd List.not_mem_nil
      · exact Or.inr ⟨hsame, Or.inr hd⟩
    · rintro (⟨h, -⟩ | ⟨-, ⟨h, rfl⟩ | hd⟩)
      · exact absurd h hsame
      · refine Or.inl ?_
        rw [if_pos h]
        exact List.mem_singleton_self _
      · exact Or.inr hd

/-- **The months that are counted** are the full ones before the current month; the current one is counted if it
is the period to the second. -/
theorem exists_month_iff : (∃ d ∈ getFullMonthsInPeriod start now, d.toMonth = m) ↔
    Full start now m ∧
      (m.index < now.toMonth.index ∨ start = firstOf now.toMonth ∧ now = lastOf now.toMonth) := by
  simp only [mem_getFullMonthsInPeriod, Full, le_firstOf_iff, lastOf_le_iff (m := m)]
  by_cases hsame : start.toMonth = now.toMonth
  · constructor
    · rintro ⟨d, ⟨-, ⟨hstart, hnow⟩, rfl⟩ | ⟨hne, -⟩, rfl⟩
      · rw [hsame] at hstart hnow
        exact ⟨⟨Or.inr hstart, Or.inr ⟨rfl, hnow.symm.le⟩⟩, Or.inr ⟨hstart, hnow⟩⟩
      · exact absurd hsame hne
    · rintro ⟨⟨hstart, hnow⟩, hcurrent⟩
      have hm : ¬ m.index < now.toMonth.index := by
        intro hlt
        rcases hstart with hless | rfl
        · rw [hsame] at hless
          omega
        · rw [← hsame] at hlt
          exact lt_irrefl _ hlt
      obtain ⟨hfirst, hlast⟩ := hcurrent.resolve_left hm
      obtain ⟨rfl, -⟩ := hnow.resolve_left hm
      exact ⟨now, Or.inl ⟨hsame, ⟨hsame ▸ hfirst, hsame ▸ hlast⟩, rfl⟩, rfl⟩
  · have hindex : start.toMonth.index ≠ now.toMonth.index := fun h => hsame (Month.index_injective h)
    constructor
    · rintro ⟨d, ⟨h, -⟩ | ⟨-, ⟨⟨hstart, hlast⟩, rfl⟩ | ⟨m', hm', hnow, rfl⟩⟩, rfl⟩
      · exact absurd h hsame
      · have hlt : d.toMonth.index < now.toMonth.index := by
          rcases lastOf_le_iff.mp hlast.le with hlt | ⟨h, -⟩
          · exact hlt
          · exact absurd h hsame
        exact ⟨⟨Or.inr hstart, Or.inl hlt⟩, Or.inl hlt⟩
      · exact ⟨⟨Or.inl hm', Or.inl hnow⟩, Or.inl hnow⟩
    · rintro ⟨⟨hstart, -⟩, hlt | ⟨hfirst, -⟩⟩
      · rcases hstart with hless | rfl
        · exact ⟨firstOf m, Or.inr ⟨hsame, Or.inr ⟨m, hless, hlt, rfl⟩⟩, rfl⟩
        · have hlast : lastOf m < now := lt_iff.mpr (Or.inl hlt)
          exact ⟨firstOf m, Or.inr ⟨hsame, Or.inl ⟨⟨rfl, hlast⟩, rfl⟩⟩, rfl⟩
      · exact absurd (congrArg Datetime.toMonth hfirst) hsame

/-! ## The discounts that are booked -/

/-- **The discount of a resource** is the sum over its items. -/
theorem cost_getRoundDownDiscount (items : List BillItem) (resourceId : String) :
    ((getRoundDownDiscount items).lookup resourceId).elim 0 Discount.cost =
      ((items.filter fun i => i.resourceId = resourceId).map BillItem.roundDownDiscount).sum := by
  induction items using List.reverseRecOn with
  | nil => rfl
  | append_singleton items i ih =>
    have hconcat : getRoundDownDiscount (items ++ [i]) = addItem (getRoundDownDiscount items) i :=
      List.foldl_concat ..
    rw [hconcat, addItem, List.filter_append, List.map_append, List.sum_append, ← ih]
    by_cases h : i.resourceId = resourceId
    · subst h
      rw [Dict.lookup_set, if_pos rfl, List.filter_cons_of_pos (by simp)]
      cases (getRoundDownDiscount items).lookup i.resourceId <;> simp
    · rw [Dict.lookup_set, if_neg (Ne.symm h), List.filter_cons_of_neg (by simpa using h)]
      simp

variable {I : RddImport} {raw : Table fields.unique}

/-- The dates are on whole seconds, so that a record depends on the month only. -/
theorem rddRecord_of_mem {d : Datetime} (hd : d ∈ getFullMonthsInPeriod start now) (resourceId : String)
    (rdd : Discount) : rddRecord I d resourceId rdd = rddRecord I (firstOf d.toMonth) resourceId rdd := by
  have hsecond : d.time % 1000000 = 0 := by
    rcases mem_getFullMonthsInPeriod.mp hd with ⟨-, ⟨-, hnow⟩, rfl⟩ | ⟨-, ⟨⟨hstart, -⟩, rfl⟩ | ⟨m, -, -, rfl⟩⟩
    · have htime : d.time = 86399000000 := congrArg Datetime.time hnow
      omega
    · have htime : d.time = 0 := congrArg Datetime.time hstart
      omega
    · rfl
  have hday : ∀ (seconds : ℕ) (h : seconds < 86400),
      atLastDay d seconds h = atLastDay (firstOf d.toMonth) seconds h := by
    intro seconds h
    have hfirst : (firstOf d.toMonth).time % 1000000 = 0 := rfl
    simp only [atLastDay, toMonth_firstOf, hsecond, hfirst]
  unfold rddRecord
  simp only [hday]

/-- A month is counted by one date. -/
theorem nodup_months : ((fullMonths I start now).map Datetime.toMonth).Nodup := by
  refine (I.order.nodup _).map_on fun d hd d' hd' h => ?_
  replace hd := (I.order.mem _ _).mp hd
  replace hd' := (I.order.mem _ _).mp hd'
  rcases mem_getFullMonthsInPeriod.mp hd with ⟨hs, ⟨-, -⟩, rfl⟩ | ⟨hs, hd⟩
  · rcases mem_getFullMonthsInPeriod.mp hd' with ⟨-, ⟨-, -⟩, rfl⟩ | ⟨hs', -⟩
    · rfl
    · exact absurd hs hs'
  · have hfirst : ∀ d : Datetime, ((start = firstOf start.toMonth ∧ lastOf start.toMonth < now) ∧ d = start ∨
        ∃ m, start.toMonth.index < m.index ∧ m.index < now.toMonth.index ∧ d = firstOf m) →
        d = firstOf d.toMonth := by
      rintro d (⟨⟨h, -⟩, rfl⟩ | ⟨m, -, -, rfl⟩)
      · exact h
      · rfl
    rcases mem_getFullMonthsInPeriod.mp hd' with ⟨hs', -⟩ | ⟨-, hd'⟩
    · exact absurd hs' hs
    · rw [hfirst d hd, hfirst d' hd', h]

/-- The key of a discount's record tells its month and its resource. -/
theorem unique_rddRecord {d d' : Datetime} {id id' : String} {rdd rdd' : Discount}
    (h : fields.unique (rddRecord I d id rdd) = fields.unique (rddRecord I d' id' rdd')) :
    d.toMonth = d'.toMonth ∧ id = id' := by
  have hfield := List.map_inj_left.mp h
  have hstart := hfield "start_date" (by decide)
  have hid := hfield "resource_id" (by decide)
  simp only [rddRecord, Option.some.injEq, BillValue.date.injEq, BillValue.text.injEq] at hstart hid
  have hmonth := congrArg Datetime.toMonth hstart
  exact ⟨hmonth, hid⟩

/-- **Each record has its own key.** -/
theorem nodup_unique_records :
    (((fullMonths I start now).flatMap (recordsOf I)).map fields.unique).Nodup := by
  rw [List.map_flatMap]
  refine List.nodup_flatMap.mpr ⟨fun d _ => ?_, ?_⟩
  · rw [recordsOf, List.map_map]
    have hkeys := (getRoundDownDiscount (I.billOverview d.toMonth)).nodupKeys
    refine (List.Nodup.of_map _ hkeys).map_on fun e he e' he' h => ?_
    exact List.inj_on_of_nodup_map hkeys he he' (unique_rddRecord h).2
  · refine (List.pairwise_map.mp nodup_months).imp fun {d d'} hne k hk hk' => hne ?_
    obtain ⟨r, hr, rfl⟩ := List.mem_map.mp hk
    obtain ⟨r', hr', heq⟩ := List.mem_map.mp hk'
    obtain ⟨e, -, rfl⟩ := List.mem_map.mp hr
    obtain ⟨e', -, rfl⟩ := List.mem_map.mp hr'
    exact (unique_rddRecord heq.symm).1

variable (raw) in
/-- **The loop over the records**: the chunk holds all of them, and only their keys are written. -/
theorem foldl_addRecord (records : List (RawDocument BillValue)) :
    (records.foldl addRecord ([], raw)).1 = records ∧
      ∀ k, (∀ e ∈ records, fields.unique e ≠ k) →
        (records.foldl addRecord ([], raw)).2.get? k = raw.get? k := by
  induction records using List.reverseRecOn with
  | nil => exact ⟨rfl, fun _ _ => rfl⟩
  | append_singleton records rdd ih =>
    obtain ⟨hchunk, hother⟩ := ih
    rw [List.foldl_concat]
    refine ⟨by rw [addRecord, hchunk], fun k hk => ?_⟩
    have hold := hother k fun e he => hk e (List.mem_append_left _ he)
    rw [addRecord]
    split
    · rw [hchunk, BaseReportImporter.get?_updateRawRecords_of_ne hk, hold]
    · exact hold

/-- A record that is written has its cost. -/
theorem cost_update {d : RawDocument BillValue} (date : Datetime) (id : String) (rdd : Discount) :
    fields.update (rddRecord I date id rdd) d "cost" = some (.number (-|rdd.cost|)) := by
  have hset : "cost" ∈ updateFields ∧ (rddRecord I date id rdd "cost").isSome := ⟨by decide, rfl⟩
  rw [fields, RawFields.update_ofNames, if_pos hset]
  rfl

variable (I start now raw) in
/-- **What is booked**: the discounts of the counted months, and nothing else. -/
theorem get?_generateRddRecords :
    (∀ d ∈ getFullMonthsInPeriod start now, ∀ e ∈ (getRoundDownDiscount (I.billOverview d.toMonth)).entries,
      ∃ r, (generateRddRecords I start now raw).get? (fields.unique (rddRecord I d e.1 e.2)) = some r ∧
        r "cost" = some (.number (-|e.2.cost|))) ∧
    ∀ k, (∀ d ∈ getFullMonthsInPeriod start now, ∀ e ∈ (getRoundDownDiscount (I.billOverview d.toMonth)).entries,
      fields.unique (rddRecord I d e.1 e.2) ≠ k) →
        (generateRddRecords I start now raw).get? k = raw.get? k := by
  obtain ⟨hchunk, hother⟩ := foldl_addRecord raw ((fullMonths I start now).flatMap (recordsOf I))
  constructor
  · intro d hd e he
    have hmem : rddRecord I d e.1 e.2 ∈ (fullMonths I start now).flatMap (recordsOf I) :=
      List.mem_flatMap.mpr ⟨d, (I.order.mem _ _).mpr hd, List.mem_map.mpr ⟨e, he, rfl⟩⟩
    rw [generateRddRecords]
    simp only [hchunk]
    rw [if_pos (List.ne_nil_of_mem hmem),
      BaseReportImporter.get?_updateRawRecords_of_nodup nodup_unique_records hmem]
    refine ⟨_, rfl, ?_⟩
    rcases (((fullMonths I start now).flatMap (recordsOf I)).foldl addRecord ([], raw)).2.get? _ with _ | old
    · rfl
    · exact cost_update d e.1 e.2
  · intro k hk
    have hkeys : ∀ r ∈ (fullMonths I start now).flatMap (recordsOf I), fields.unique r ≠ k := by
      intro r hr
      obtain ⟨d, hd, hr⟩ := List.mem_flatMap.mp hr
      obtain ⟨e, he, rfl⟩ := List.mem_map.mp hr
      exact hk d ((I.order.mem _ _).mp hd) e he
    rw [generateRddRecords]
    simp only [hchunk]
    split
    · rw [BaseReportImporter.get?_updateRawRecords_of_ne hkeys, hother k hkeys]
    · exact hother k hkeys

/-! ## Full months are booked -/

/-- **The discounts of the full months are booked**, each once, and no others. -/
structure BooksFullMonths (I : RddImport) (start now : Datetime) (raw : Table fields.unique) : Prop where
  months : ∀ m, (∃ d ∈ getFullMonthsInPeriod start now, d.toMonth = m) ↔ Full start now m
  /-- Each month is asked for once. -/
  once : ((fullMonths I start now).map Datetime.toMonth).Nodup
  booked : ∀ m, Full start now m → ∀ e ∈ (getRoundDownDiscount (I.billOverview m)).entries,
    ∃ r, (generateRddRecords I start now raw).get? (fields.unique (rddRecord I (firstOf m) e.1 e.2)) = some r ∧
      r "cost" = some (.number (-|e.2.cost|))
  others : ∀ k, (∀ m, Full start now m → ∀ e ∈ (getRoundDownDiscount (I.billOverview m)).entries,
    fields.unique (rddRecord I (firstOf m) e.1 e.2) ≠ k) →
      (generateRddRecords I start now raw).get? k = raw.get? k

/-- **The current month is missed**: the period reaches over it, it is in its last second, and this is not the
period to the second. -/
def MissesCurrent (start now : Datetime) : Prop :=
  Full start now now.toMonth ∧ ¬ (start = firstOf now.toMonth ∧ now = lastOf now.toMonth)

/-- **The discounts of the full months are booked exactly where the current month is not missed.** -/
theorem books_iff (I : RddImport) (start now : Datetime) (raw : Table fields.unique) :
    BooksFullMonths I start now raw ↔ ¬ MissesCurrent start now := by
  constructor
  · rintro h ⟨hfull, hnot⟩
    obtain ⟨-, hlt | hcurrent⟩ := exists_month_iff.mp ((h.months now.toMonth).mpr hfull)
    · exact lt_irrefl _ hlt
    · exact hnot hcurrent
  · intro h
    have hmonths : ∀ m, (∃ d ∈ getFullMonthsInPeriod start now, d.toMonth = m) ↔ Full start now m := by
      intro m
      rw [exists_month_iff]
      refine ⟨fun hm => hm.1, fun hfull => ⟨hfull, ?_⟩⟩
      rcases lastOf_le_iff.mp hfull.2 with hlt | ⟨rfl, -⟩
      · exact Or.inl hlt
      · exact Or.inr (not_not.mp fun hnot => h ⟨hfull, hnot⟩)
    obtain ⟨hbooked, hothers⟩ := get?_generateRddRecords start now I raw
    refine ⟨hmonths, nodup_months, fun m hfull e he => ?_, fun k hk => hothers k fun d hd e he => ?_⟩
    · obtain ⟨d, hd, rfl⟩ := (hmonths m).mpr hfull
      rw [← rddRecord_of_mem hd]
      exact hbooked d hd e he
    · rw [rddRecord_of_mem hd]
      exact hk d.toMonth ((hmonths _).mp ⟨d, hd, rfl⟩) e he

/-- January 2024. -/
def january : Month := ⟨2024, 1, by decide⟩

/-- Half a second before February. -/
def lastHalfSecond : Datetime :=
  { lastOf january with time := 86399500000, time_lt := by omega }

/-- An account without bills. -/
def withoutBills : RddImport :=
  { cloudAccId := "a1", reportIdentity := "r1", billOverview := fun _ => [], order := SetOrder.lastCome }

/-- **In the last half second of the month** it is not counted. -/
theorem misses_january :
    ¬ ∀ (I : RddImport) (start now : Datetime) (raw : Table fields.unique), BooksFullMonths I start now raw := by
  intro h
  have hlast : lastOf january < lastHalfSecond :=
    lt_iff.mpr (Or.inr ⟨rfl, Or.inr ⟨rfl, (by decide : 86399000000 < 86399500000)⟩⟩)
  have hfull : Full (firstOf january) lastHalfSecond january := ⟨le_refl _, hlast.le⟩
  obtain ⟨d, hd, -⟩ :=
    ((h withoutBills (firstOf january) lastHalfSecond Table.empty).months january).mpr hfull
  have hnone : getFullMonthsInPeriod (firstOf january) lastHalfSecond = [] := by decide
  rw [hnone] at hd
  exact absurd hd List.not_mem_nil

end AlibabaReportImporter
