import OptScale.Diworker.GcpImporter

/-!
# Diworker/GcpBilling — whether the billing rows of a day are conserved

The raw records of a day's keys cost what the rows cost with their credits, however the rows are split and
whatever was written before.  But an amount that is missing in the first row of a key cannot be added to
(`day_conserved_iff`).
-/

open Fallible Queries Dict BaseReportImporter

namespace GcpReportImporter

/-! ## Rows of one expense -/

/-- An amount that adds nothing. -/
def Nothing (value : Option ℚ) : Prop := value = none ∨ value = some 0

/-- **The amounts of a list can be added up**: the first is there, or nothing is added to it. -/
def Addable (amounts : List (Option ℚ)) : Prop :=
  amounts.head? = some none → ∀ value ∈ amounts.tail, Nothing value

theorem addAmount_ok {common value : Option ℚ} :
    (∃ sum, addAmount common value = .ok sum) ↔ (common = none → Nothing value) := by
  rcases value with _ | v
  · exact ⟨fun _ _ => Or.inl rfl, fun _ => ⟨common, rfl⟩⟩
  · by_cases hv : v = 0
    · subst hv
      have hsame : addAmount common (some 0) = .ok common := by
        rw [addAmount, if_pos rfl]
      exact ⟨fun _ _ => Or.inr rfl, fun _ => ⟨common, hsame⟩⟩
    · simp only [addAmount, Nothing, reduceCtorEq, Option.some.injEq, hv, or_self]
      cases common <;> simp [Except.map]

theorem addAmount_isNone {common value sum : Option ℚ} (h : addAmount common value = .ok sum) :
    sum = none ↔ common = none := by
  rcases value with _ | v
  · obtain rfl := Except.ok.inj h
    exact Iff.rfl
  · by_cases hv : v = 0
    · rw [addAmount, if_pos hv] at h
      obtain rfl := Except.ok.inj h
      exact Iff.rfl
    · rw [addAmount, if_neg hv] at h
      cases common with
      | none => exact nomatch h
      | some c =>
        obtain rfl := Except.ok.inj h
        simp

/-- **What one item adds.** -/
theorem mergeItem_eq_ok {commonItem item merged : GcpRecord} (h : mergeItem commonItem item = .ok merged) :
    merged.key = commonItem.key ∧ merged.cost = commonItem.cost + item.cost ∧
      addAmount commonItem.usageAmount item.usageAmount = .ok merged.usageAmount ∧
      addAmount commonItem.usageAmountInPricingUnits item.usageAmountInPricingUnits =
        .ok merged.usageAmountInPricingUnits := by
  simp only [mergeItem, bind_eq_ok, pure_eq_ok] at h
  obtain ⟨usage, husage, pricing, hpricing, rfl⟩ := h
  exact ⟨rfl, rfl, husage, hpricing⟩

/-- **What the items of a key add up to.** -/
theorem foldlM_mergeItem {first merged : GcpRecord} {rest : List GcpRecord}
    (h : rest.foldlM mergeItem first = .ok merged) :
    merged.key = first.key ∧ merged.cost = first.cost + (rest.map GcpRecord.cost).sum := by
  induction rest generalizing first with
  | nil =>
    obtain rfl := Except.ok.inj h
    exact ⟨rfl, (add_zero _).symm⟩
  | cons item rest ih =>
    rw [List.foldlM_cons, bind_eq_ok] at h
    obtain ⟨common, hitem, h⟩ := h
    obtain ⟨hkey, hcost, -⟩ := mergeItem_eq_ok hitem
    obtain ⟨hkey', hcost'⟩ := ih h
    refine ⟨hkey'.trans hkey, ?_⟩
    rw [hcost', hcost, List.map_cons, List.sum_cons]
    ring

theorem mergeItem_ok {commonItem item : GcpRecord} : (∃ merged, mergeItem commonItem item = .ok merged) ↔
    (commonItem.usageAmount = none → Nothing item.usageAmount) ∧
    (commonItem.usageAmountInPricingUnits = none → Nothing item.usageAmountInPricingUnits) := by
  rw [← addAmount_ok, ← addAmount_ok]
  simp only [mergeItem, bind_eq_ok, pure_eq_ok]
  constructor
  · rintro ⟨_, usage, husage, pricing, hpricing, -⟩
    exact ⟨⟨usage, husage⟩, ⟨pricing, hpricing⟩⟩
  · rintro ⟨⟨usage, husage⟩, ⟨pricing, hpricing⟩⟩
    exact ⟨_, usage, husage, pricing, hpricing, rfl⟩

theorem foldlM_mergeItem_ok {first : GcpRecord} {rest : List GcpRecord} :
    (∃ merged, rest.foldlM mergeItem first = .ok merged) ↔
      (first.usageAmount = none → ∀ item ∈ rest, Nothing item.usageAmount) ∧
      (first.usageAmountInPricingUnits = none → ∀ item ∈ rest, Nothing item.usageAmountInPricingUnits) := by
  induction rest generalizing first with
  | nil => exact ⟨fun _ => ⟨fun _ _ h => absurd h List.not_mem_nil, fun _ _ h => absurd h List.not_mem_nil⟩,
      fun _ => ⟨first, rfl⟩⟩
  | cons item rest ih =>
    simp only [List.foldlM_cons, bind_eq_ok, List.forall_mem_cons]
    constructor
    · rintro ⟨merged, common, hitem, hrest⟩
      obtain ⟨-, -, husage, hpricing⟩ := mergeItem_eq_ok hitem
      obtain ⟨hitem₁, hitem₂⟩ := mergeItem_ok.mp ⟨common, hitem⟩
      obtain ⟨hrest₁, hrest₂⟩ := ih.mp ⟨merged, hrest⟩
      exact ⟨fun h => ⟨hitem₁ h, hrest₁ ((addAmount_isNone husage).mpr h)⟩,
        fun h => ⟨hitem₂ h, hrest₂ ((addAmount_isNone hpricing).mpr h)⟩⟩
    · rintro ⟨h₁, h₂⟩
      obtain ⟨common, hitem⟩ := mergeItem_ok.mpr ⟨fun h => (h₁ h).1, fun h => (h₂ h).1⟩
      obtain ⟨-, -, husage, hpricing⟩ := mergeItem_eq_ok hitem
      obtain ⟨merged, hrest⟩ := ih.mpr ⟨fun h => (h₁ ((addAmount_isNone husage).mp h)).2,
        fun h => (h₂ ((addAmount_isNone hpricing).mp h)).2⟩
      exact ⟨merged, common, hitem, hrest⟩

/-- **The items of a key are put together** where their amounts can be added up. -/
theorem mergeGroup_ok {group : List GcpRecord} (hne : group ≠ []) :
    (∃ merged, mergeGroup group = .ok merged) ↔ Addable (group.map GcpRecord.usageAmount) ∧
      Addable (group.map GcpRecord.usageAmountInPricingUnits) := by
  obtain ⟨first, rest, rfl⟩ := List.exists_cons_of_ne_nil hne
  rw [mergeGroup, foldlM_mergeItem_ok]
  simp only [Addable, List.map_cons, List.head?_cons, Option.some.injEq, List.tail_cons, List.forall_mem_map]

theorem mergeGroup_eq_ok {group : List GcpRecord} {k : RecordKey} {merged : GcpRecord}
    (hkey : ∀ item ∈ group, item.key = k) (h : mergeGroup group = .ok merged) :
    merged.key = k ∧ merged.cost = (group.map GcpRecord.cost).sum := by
  cases group with
  | nil => exact nomatch h
  | cons first rest =>
    obtain ⟨hfirst, hcost⟩ := foldlM_mergeItem h
    exact ⟨hfirst.trans (hkey first List.mem_cons_self), hcost⟩

/-! ## What is written -/

variable {items merged : List GcpRecord}

/-- **The merged items**: one for each key, with the cost of its items. -/
theorem mergeSameBillingItems_eq_ok (h : mergeSameBillingItems items = .ok merged) :
    merged.map GcpRecord.key = (items.map GcpRecord.key).dedup ∧
      (merged.map GcpRecord.cost).sum = (items.map GcpRecord.cost).sum := by
  have hgroup : ∀ g ∈ groupBy GcpRecord.key items, ∀ e, mergeGroup g.2 = .ok e →
      e.key = g.1 ∧ e.cost = (g.2.map GcpRecord.cost).sum := by
    intro g hg e he
    obtain ⟨-, hg⟩ := mem_groupBy.mp hg
    refine mergeGroup_eq_ok (fun item hitem => ?_) he
    rw [hg] at hitem
    exact of_decide_eq_true (List.mem_filter.mp hitem).2
  constructor
  · rw [map_of_mapM_eq_ok (fun g hg e he => (hgroup g hg e he).1) h, groupBy, List.map_map]
    exact List.map_id _
  · rw [map_of_mapM_eq_ok (fun g hg e he => (hgroup g hg e he).2) h]
    exact sum_groupBy GcpRecord.cost

/-- Items are merged where the amounts of each key can be added up. -/
theorem mergeSameBillingItems_ok : (∃ merged, mergeSameBillingItems items = .ok merged) ↔
    ∀ k, Addable ((items.filter fun item => item.key = k).map GcpRecord.usageAmount) ∧
      Addable ((items.filter fun item => item.key = k).map GcpRecord.usageAmountInPricingUnits) := by
  unfold mergeSameBillingItems
  rw [mapM_ok]
  constructor
  · intro h k
    by_cases hk : ∃ item ∈ items, item.key = k
    · obtain ⟨item, hitem, hkey⟩ := hk
      have hne : items.filter (fun item => item.key = k) ≠ [] :=
        List.ne_nil_of_mem (List.mem_filter.mpr ⟨hitem, decide_eq_true hkey⟩)
      exact (mergeGroup_ok hne).mp (h (k, _) (mem_groupBy.mpr ⟨⟨item, hitem, hkey⟩, rfl⟩))
    · have hnil : items.filter (fun item => item.key = k) = [] :=
        List.filter_eq_nil_iff.mpr fun item hitem hkey => hk ⟨item, hitem, of_decide_eq_true hkey⟩
      rw [hnil]
      exact ⟨fun h => (nomatch h), fun h => (nomatch h)⟩
  · intro h g hg
    obtain ⟨⟨item, hitem, hkey⟩, hgroup⟩ := mem_groupBy.mp hg
    rw [hgroup]
    exact (mergeGroup_ok (List.ne_nil_of_mem (List.mem_filter.mpr ⟨hitem, decide_eq_true hkey⟩))).mpr (h g.1)

/-- The chunks are written like one. -/
theorem foldl_chunks (records : List GcpRecord) (raw : Table fields.unique) :
    (records.toChunks writeChunkSize).foldl (fun raw chunk => updateRawRecords fields chunk raw) raw =
      updateRawRecords fields records raw := by
  rw [foldl_updateRawRecords, Chunks.flatten_toChunks]

variable {I : GcpImport} {rows : List BillingRow} {raw raw' : Table fields.unique}

/-- **A load** writes the merged records of the rows. -/
theorem loadDay_eq_ok : loadDay I rows raw = .ok raw' ↔ ∃ items merged, rows.mapM (rowToDict I) = .ok items ∧
    mergeSameBillingItems items = .ok merged ∧ raw' = updateRawRecords fields merged raw := by
  unfold loadDay
  simp only [bind_eq_ok, pure_eq_ok, foldl_chunks]
  constructor
  · rintro ⟨items, hitems, merged, hmerged, rfl⟩
    exact ⟨items, merged, hitems, hmerged, rfl⟩
  · rintro ⟨items, merged, hitems, hmerged, rfl⟩
    exact ⟨items, hitems, merged, hmerged, rfl⟩

/-- The rows of some keys are those the table has for them. -/
theorem filter_keys_perm {α κ : Type} [DecidableEq κ] {key : α → κ} (t : Table key) {ks : List κ} (hks : ks.Nodup) :
    (t.rows.filter fun a => key a ∈ ks).Perm (ks.filterMap t.get?) := by
  refine (List.perm_ext_iff_of_nodup (t.nodup.of_map.filter _) (hks.filterMap ?_)).mpr fun a => ?_
  · intro k k' a ha ha'
    exact (Table.get?_eq_some.mp ha).2.symm.trans (Table.get?_eq_some.mp ha').2
  · simp only [List.mem_filter, decide_eq_true_eq, List.mem_filterMap, Table.get?_eq_some]
    constructor
    · rintro ⟨ha, hk⟩
      exact ⟨key a, hk, ha, rfl⟩
    · rintro ⟨k, hk, ha, rfl⟩
      exact ⟨ha, hk⟩

variable (raw) in
/-- **The record of a key** costs what was merged for it. -/
theorem get?_updateRawRecords_cost {e : GcpRecord} (hnodup : (merged.map GcpRecord.key).Nodup) (he : e ∈ merged) :
    ((updateRawRecords fields merged raw).get? e.key).map GcpRecord.cost = some e.cost := by
  have hget : (updateRawRecords fields merged raw).get? (fields.unique e) = _ := get?_updateRawRecords_of_nodup hnodup he
  have hkey : fields.unique e = e.key := rfl
  rw [hkey] at hget
  rw [hget]
  cases raw.get? e.key <;> rfl

theorem filterMap_of_map {α β : Type} {f : α → Option β} (g : β → ℚ) (w : α → ℚ) {l : List α}
    (h : ∀ a ∈ l, (f a).map g = some (w a)) : (l.filterMap f).map g = l.map w := by
  induction l with
  | nil => rfl
  | cons a l ih =>
    obtain ⟨b, hb, hw⟩ := Option.map_eq_some_iff.mp (h a List.mem_cons_self)
    rw [List.filterMap_cons, hb, List.map_cons, hw, ih fun a' ha' => h a' (List.mem_cons_of_mem _ ha')]
    rfl

/-- **The records of the merged keys** cost what was merged. -/
theorem sum_updateRawRecords (hnodup : (merged.map GcpRecord.key).Nodup) :
    (((updateRawRecords fields merged raw).rows.filter fun r => r.key ∈ merged.map GcpRecord.key).map
      GcpRecord.cost).sum = (merged.map GcpRecord.cost).sum := by
  have hperm := (filter_keys_perm (updateRawRecords fields merged raw) hnodup).map GcpRecord.cost
  have hcosts : ((merged.map GcpRecord.key).filterMap (updateRawRecords fields merged raw).get?).map
      GcpRecord.cost = merged.map GcpRecord.cost := by
    rw [List.filterMap_map]
    exact filterMap_of_map _ _ fun e he => get?_updateRawRecords_cost raw hnodup he
  exact hperm.sum_eq.trans (congrArg List.sum hcosts)

/-- **Writing the merged records again** changes nothing. -/
theorem updateRawRecords_merged_again (merged : List GcpRecord) (raw : Table fields.unique) :
    updateRawRecords fields merged (updateRawRecords fields merged raw) = updateRawRecords fields merged raw := by
  have hagain := updateRawRecords_again (F := fields) merged raw id id (fun _ => rfl) (fun _ _ _ => rfl)
    (fun _ => rfl) (fun _ _ => rfl)
  rw [List.map_id, List.map_id, List.map_id] at hagain
  exact Table.ext hagain

/-! ## Rows that are conserved -/

/-- **The rows of a day are conserved.** -/
structure Conserved (I : GcpImport) (rows : List BillingRow) (raw raw' : Table fields.unique)
    (items : List GcpRecord) : Prop where
  /-- No step raises. -/
  items_eq : rows.mapM (rowToDict I) = .ok items
  load_eq : loadDay I rows raw = .ok raw'
  /-- The records of the keys of the rows cost what the rows do with their credits. -/
  sum_eq : ((raw'.rows.filter fun r => r.key ∈ items.map GcpRecord.key).map GcpRecord.cost).sum =
    (rows.map BillingRow.billed).sum
  /-- Each key is stored once. -/
  once : ∀ item ∈ items, (raw'.rows.filter fun r => r.key = item.key).length = 1
  /-- The same rows again change nothing. -/
  again : loadDay I rows raw' = .ok raw'

/-- **The day can be loaded**: each zone that tells a region is known, and in no key an amount is added to one
that is missing in the first row. -/
structure Loadable (I : GcpImport) (rows : List BillingRow) : Prop where
  zones : ∀ row ∈ rows, ∀ data, row.location = some data → given data.region = none →
    ∀ zone, given data.zone = some zone → (I.zoneToRegion.lookup zone).isSome
  amounts : ∀ items, rows.mapM (rowToDict I) = .ok items → ∀ k,
    Addable ((items.filter fun item => item.key = k).map GcpRecord.usageAmount) ∧
      Addable ((items.filter fun item => item.key = k).map GcpRecord.usageAmountInPricingUnits)

theorem rowToDict_ok {row : BillingRow} : (∃ item, rowToDict I row = .ok item) ↔
    ∀ data, row.location = some data → given data.region = none →
      ∀ zone, given data.zone = some zone → (I.zoneToRegion.lookup zone).isSome := by
  have hmap : (∃ item, rowToDict I row = .ok item) ↔
      ∃ region, getResourceRegion I row.location = .ok region := by
    unfold rowToDict
    cases getResourceRegion I row.location with
    | error e => exact ⟨fun ⟨_, h⟩ => (nomatch h), fun ⟨_, h⟩ => (nomatch h)⟩
    | ok region => exact ⟨fun _ => ⟨region, rfl⟩, fun _ => ⟨_, rfl⟩⟩
  rw [hmap]
  unfold getResourceRegion
  rcases hlocation : row.location with _ | data
  · simp
  · rcases hregion : given data.region with _ | region
    · rcases hzone : given data.zone with _ | zone
      · simp [hregion, hzone]
      · rcases hknown : I.zoneToRegion.lookup zone with _ | region <;>
          simp [hregion, hzone, hknown, Except.map]
    · simp [hregion]

theorem cost_of_rowToDict {row : BillingRow} {item : GcpRecord} (h : rowToDict I row = .ok item) :
    item.cost = row.billed := by
  unfold rowToDict at h
  cases hregion : getResourceRegion I row.location with
  | error e =>
    rw [hregion] at h
    exact nomatch h
  | ok region =>
    rw [hregion] at h
    obtain rfl := Except.ok.inj h
    rfl

/-- **The rows of a day are conserved exactly where the day can be loaded.** -/
theorem day_conserved_iff (I : GcpImport) (rows : List BillingRow) (raw : Table fields.unique) :
    (∃ raw' items, Conserved I rows raw raw' items) ↔ Loadable I rows := by
  constructor
  · rintro ⟨raw', items, h⟩
    obtain ⟨items', merged, hitems, hmerged, -⟩ := loadDay_eq_ok.mp h.load_eq
    refine ⟨fun row hrow => rowToDict_ok.mp ?_, fun items'' hitems'' => ?_⟩
    · exact mapM_ok.mp ⟨items, h.items_eq⟩ row hrow
    · obtain rfl : items' = items'' := Except.ok.inj (hitems.symm.trans hitems'')
      exact mergeSameBillingItems_ok.mp ⟨merged, hmerged⟩
  · rintro ⟨hzones, hamounts⟩
    obtain ⟨items, hitems⟩ := mapM_ok.mpr fun row hrow => rowToDict_ok.mpr (hzones row hrow)
    obtain ⟨merged, hmerged⟩ := mergeSameBillingItems_ok.mpr (hamounts items hitems)
    obtain ⟨hkeys, hcost⟩ := mergeSameBillingItems_eq_ok hmerged
    have hnodup : (merged.map GcpRecord.key).Nodup := hkeys ▸ List.nodup_dedup _
    have hmem : ∀ k, k ∈ merged.map GcpRecord.key ↔ k ∈ items.map GcpRecord.key := fun k => by
      rw [hkeys, List.mem_dedup]
    refine ⟨updateRawRecords fields merged raw, items, hitems,
      loadDay_eq_ok.mpr ⟨items, merged, hitems, hmerged, rfl⟩, ?_, fun item hitem => ?_,
      loadDay_eq_ok.mpr ⟨items, merged, hitems, hmerged, (updateRawRecords_merged_again merged raw).symm⟩⟩
    · simp only [← hmem]
      rw [sum_updateRawRecords hnodup, hcost]
      exact congrArg List.sum (map_of_mapM_eq_ok (fun _ _ _ h => cost_of_rowToDict h) hitems)
    · obtain ⟨e, he, hkey⟩ := List.mem_map.mp ((hmem item.key).mpr (List.mem_map_of_mem hitem))
      obtain ⟨r, hr, -⟩ := Option.map_eq_some_iff.mp (get?_updateRawRecords_cost raw hnodup he)
      have hone := (filter_keys_perm (updateRawRecords fields merged raw)
        (List.nodup_singleton item.key)).length_eq
      simp only [List.mem_singleton, List.filterMap_cons, List.filterMap_nil, ← hkey, hr,
        List.length_singleton] at hone
      rw [← hkey]
      exact hone

/-- An account, and a hash that tells nothing. -/
def account : GcpImport := { cloudAccId := "a1", zoneToRegion := ∅, sha1 := fun _ => "" }

/-- A row of one expense. -/
def rowOfDay (usageAmount : Option ℚ) : BillingRow :=
  { service := some "Compute Engine", sku := some "N1 core", startDate := 0, endDate := 86400, cost := 1,
    usageAmount := usageAmount, usageAmountInPricingUnits := none }

/-- **An amount that comes after a missing one** ends the load. -/
theorem missing_then_amount : ¬ ∀ (I : GcpImport) (rows : List BillingRow) (raw : Table fields.unique),
    ∃ raw' items, Conserved I rows raw raw' items := by
  intro h
  obtain ⟨raw', items, hconserved⟩ := h account [rowOfDay none, rowOfDay (some 1)] Table.empty
  obtain ⟨items', merged, hitems, hmerged, -⟩ := loadDay_eq_ok.mp hconserved.load_eq
  have hrecords : [rowOfDay none, rowOfDay (some 1)].mapM (rowToDict account) =
      .ok [recordOf account (rowOfDay none) none, recordOf account (rowOfDay (some 1)) none] := rfl
  obtain rfl := Except.ok.inj (hrecords.symm.trans hitems)
  have hkey : (recordOf account (rowOfDay (some 1)) none).key = (recordOf account (rowOfDay none) none).key := rfl
  have haddable := (mergeSameBillingItems_ok.mp ⟨merged, hmerged⟩ (recordOf account (rowOfDay none) none).key).1
  have hamounts : ([recordOf account (rowOfDay none) none, recordOf account (rowOfDay (some 1)) none].filter
      fun item => item.key = (recordOf account (rowOfDay none) none).key).map GcpRecord.usageAmount =
        [none, some 1] := by
    simp only [List.filter_cons, hkey, decide_true, if_true, List.filter_nil]
    rfl
  rw [hamounts] at haddable
  rcases haddable rfl (some 1) (List.mem_singleton_self _) with hnone | hzero
  · exact nomatch hnone
  · exact absurd hzero (by norm_num)

end GcpReportImporter
