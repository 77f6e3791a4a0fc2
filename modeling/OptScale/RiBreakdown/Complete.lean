import OptScale.RiBreakdown.Report

/-!
# RiBreakdown/Complete — when a report is complete

A report is complete when the filter kept the supported accounts, no account was missing in a map, and every day
of the window has one entry of each account with what the ledgers have of it (`Complete`).  It is so exactly when
no two neighbours of the request go, no account is told twice, and what the queries left out adds up to nothing
(`complete_iff`).
-/

open Fallible

namespace RiBreakdownController

open RispProcessorBase (RiSpUsage UncoveredUsage)

/-! ## The groups -/

section Groups

variable {R : Type} (key : R → Uuid × ℤ) (sign : R → ℤ) (rows : List R) (k : Uuid × ℤ)

/-- The signs of some rows add up to more than zero. -/
def Live : Prop := 0 < (rows.map sign).sum

instance : Decidable (Live sign rows) := inferInstanceAs (Decidable (_ < _))

/-- The keys of the groups. -/
def liveKeys : List (Uuid × ℤ) :=
  (rows.map key).dedup.filter fun k => 0 < ((rows.filter fun r => key r = k).map sign).sum

theorem nodup_liveGroups : ((liveGroups key sign rows).map Prod.fst).Nodup := by
  have hkeys : (liveGroups key sign rows).map Prod.fst = liveKeys key sign rows := by
    rw [liveGroups, List.map_map]
    exact List.map_id _
  rw [hkeys]
  exact (List.nodup_dedup _).filter _

theorem mem_liveKeys : k ∈ liveKeys key sign rows ↔ Live sign (rows.filter fun r => key r = k) := by
  unfold liveKeys
  rw [List.mem_filter, decide_eq_true_iff, List.mem_dedup]
  refine and_iff_right_of_imp fun hlive => ?_
  have hne : (rows.filter fun r => key r = k) ≠ [] := fun hnil => by
    rw [hnil] at hlive
    exact absurd hlive (lt_irrefl 0)
  obtain ⟨r, hr⟩ := List.exists_mem_of_ne_nil _ hne
  obtain ⟨hr, hk⟩ := List.mem_filter.mp hr
  exact List.mem_map.mpr ⟨r, hr, of_decide_eq_true hk⟩

/-- **The group of a key**, if it is live. -/
theorem find?_liveGroups : ((liveGroups key sign rows).find? fun g => g.1 = k) =
    if Live sign (rows.filter fun r => key r = k) then some (k, rows.filter fun r => key r = k) else none := by
  have hmap : liveGroups key sign rows =
      (liveKeys key sign rows).map fun k => (k, rows.filter fun r => key r = k) := rfl
  rw [hmap, List.find?_map]
  by_cases hlive : Live sign (rows.filter fun r => key r = k)
  · have hfound : (liveKeys key sign rows).find? (fun x => x = k) = some k := by
      obtain ⟨x, hx⟩ := Option.isSome_iff_exists.mp (List.find?_isSome (p := fun x => decide (x = k)) |>.mpr
        ⟨k, (mem_liveKeys key sign rows k).mpr hlive, decide_eq_true rfl⟩)
      obtain rfl : x = k := by simpa using List.find?_some hx
      exact hx
    rw [if_pos hlive]
    exact congrArg (Option.map _) hfound
  · rw [if_neg hlive]
    refine Option.map_eq_none_iff.mpr (List.find?_eq_none.mpr fun x hx hk => hlive ?_)
    obtain rfl : x = k := of_decide_eq_true hk
    exact (mem_liveKeys key sign rows x).mp hx

end Groups

/-! ## What the queries find -/

section Queries

variable (src : Source) (k : Uuid × ℤ)

/-- The rows of an account on a date that were not covered. -/
def uncoveredOf : List UncoveredUsage := src.uncoveredUsage.filter fun r => uncoveredKey r = k

/-- Those that were. -/
def coveredOf : List RiSpUsage := src.riSpUsage.filter fun r => usageKey r = k

/-- And by reservations. -/
def riOf : List RiSpUsage := src.riSpUsage.filter fun r => usageKey r = k ∧ r.offerType = .ri

abbrev UncoveredLive : Prop := Live UncoveredUsage.sign (uncoveredOf src k)

abbrev CoveredLive : Prop := Live RiSpUsage.sign (coveredOf src k)

abbrev RiLive : Prop := Live RiSpUsage.sign (riOf src k)

/-- The account is told on the date. -/
abbrev Shown : Prop := UncoveredLive src k ∨ CoveredLive src k

variable {src k} {startDate endDate : ℤ} {ids : List Uuid}

theorem filter_asked {R : Type} {key : R → Uuid × ℤ} {rows : List R} (hk : Asked startDate endDate ids k) :
    ((rows.filter fun r => Asked startDate endDate ids (key r)).filter fun r => key r = k) =
      rows.filter fun r => key r = k := by
  rw [List.filter_filter]
  refine List.filter_congr fun r _ => ?_
  by_cases hr : key r = k
  · rw [decide_eq_true hr, Bool.true_and, hr, decide_eq_true hk]
  · rw [decide_eq_false hr, Bool.false_and]

/-- The first loop of `get_total_stats`. -/
abbrev uncoveredTotals (src : Source) (startDate endDate : ℤ) (ids : List Uuid) : Dict Uuid (Dict ℤ TotalStats) :=
  (uncoveredGroups src startDate endDate ids).foldl
    (fun total row => total.setAt row.1.1 row.1.2 (uncoveredTotal row.2)) ∅

variable (src) in
theorem lookupAt_uncoveredTotals (hk : Asked startDate endDate ids k) :
    (uncoveredTotals src startDate endDate ids).lookupAt k.1 k.2 =
      if UncoveredLive src k then some (uncoveredTotal (uncoveredOf src k)) else none := by
  obtain ⟨a, d⟩ := k
  have hgroup : (uncoveredGroups src startDate endDate ids).find? (fun g => g.1 = (a, d)) =
      if UncoveredLive src (a, d) then some ((a, d), uncoveredOf src (a, d)) else none := by
    rw [uncoveredGroups, find?_liveGroups, filter_asked hk]
    rfl
  have hloop := Dict.lookupAt_foldl_change (nodup_liveGroups uncoveredKey UncoveredUsage.sign
    (src.uncoveredUsage.filter fun r => Asked startDate endDate ids (uncoveredKey r)))
    (fun _ row => uncoveredTotal row.2) ∅ a d
  refine hloop.trans ?_
  rw [show liveGroups uncoveredKey UncoveredUsage.sign _ = uncoveredGroups src startDate endDate ids from rfl, hgroup]
  by_cases hlive : UncoveredLive src (a, d)
  · rw [if_pos hlive, if_pos hlive]
    rfl
  · rw [if_neg hlive, if_neg hlive]
    rfl

variable (src) in
/-- **What `get_total_stats` finds.** -/
theorem lookupAt_getTotalStats (hk : Asked startDate endDate ids k) :
    (getTotalStats src startDate endDate ids).lookupAt k.1 k.2 =
      if Shown src k then
        let uncovered := if UncoveredLive src k then uncoveredTotal (uncoveredOf src k) else {}
        some (if CoveredLive src k then addCovered uncovered (coveredOf src k) else uncovered)
      else none := by
  obtain ⟨a, d⟩ := k
  have hgroup : (coveredGroups src startDate endDate ids).find? (fun g => g.1 = (a, d)) =
      if CoveredLive src (a, d) then some ((a, d), coveredOf src (a, d)) else none := by
    rw [coveredGroups, find?_liveGroups, filter_asked hk]
    rfl
  have hloop := Dict.lookupAt_foldl_change (nodup_liveGroups usageKey RiSpUsage.sign
    (src.riSpUsage.filter fun r => Asked startDate endDate ids (usageKey r)))
    (fun old row => addCovered (old.getD {}) row.2) (uncoveredTotals src startDate endDate ids) a d
  refine hloop.trans ?_
  rw [show liveGroups usageKey RiSpUsage.sign _ = coveredGroups src startDate endDate ids from rfl, hgroup,
    lookupAt_uncoveredTotals src hk]
  by_cases huncovered : UncoveredLive src (a, d) <;> by_cases hcovered : CoveredLive src (a, d) <;>
    simp [huncovered, hcovered]

variable (src) in
/-- **What `get_cloud_account_usage_stats` finds.** -/
theorem lookupAt_getCloudAccountUsageStats (hk : Asked startDate endDate ids k) :
    (getCloudAccountUsageStats src startDate endDate ids).lookupAt k.1 k.2 =
      if RiLive src k then some (addUsage {} (riOf src k)) else none := by
  obtain ⟨a, d⟩ := k
  have hrows : ((src.riSpUsage.filter fun r => Asked startDate endDate ids (usageKey r) ∧ r.offerType = .ri).filter
      fun r => usageKey r = (a, d)) = riOf src (a, d) := by
    rw [riOf, List.filter_filter]
    refine List.filter_congr fun r _ => ?_
    by_cases hr : usageKey r = (a, d)
    · simp [hr, hk]
    · simp [hr]
  have hgroup : (riGroups src startDate endDate ids).find? (fun g => g.1 = (a, d)) =
      if RiLive src (a, d) then some ((a, d), riOf src (a, d)) else none := by
    rw [riGroups, find?_liveGroups, hrows]
  have hloop := Dict.lookupAt_foldl_change (nodup_liveGroups usageKey RiSpUsage.sign
    (src.riSpUsage.filter fun r => Asked startDate endDate ids (usageKey r) ∧ r.offerType = .ri))
    (fun old row => addUsage (old.getD {}) row.2) ∅ a d
  refine hloop.trans ?_
  rw [show liveGroups usageKey RiSpUsage.sign _ = riGroups src startDate endDate ids from rfl, hgroup]
  by_cases hlive : RiLive src (a, d)
  · rw [if_pos hlive, if_pos hlive]
    rfl
  · rw [if_neg hlive, if_neg hlive]
    rfl

end Queries

/-! ## The entries of a day -/

section Entries

variable {accounts : Dict Uuid AccountInfo} {rates : Dict Uuid (Dict Text ℚ)} {ids : List Uuid}
  {total : Dict Uuid (Dict ℤ TotalStats)} {usage : Dict Uuid (Dict ℤ UsageStats)} {dates : List ℤ} {d : ℤ}

/-- What is told of an account on a date, if anything. -/
def toldEntry (accounts : Dict Uuid AccountInfo) (rates : Dict Uuid (Dict Text ℚ))
    (total : Dict Uuid (Dict ℤ TotalStats)) (usage : Dict Uuid (Dict ℤ UsageStats)) (d : ℤ) (a : Uuid) : Option Entry :=
  (total.lookupAt a d).map fun t => formatEntry accounts rates a t ((usage.lookupAt a d).getD {})

/-- **What the loop of `get` appends to a date.** -/
theorem lookup_formatTotals : (formatTotals ids accounts rates total usage).lookup d =
    if ids.filterMap (toldEntry accounts rates total usage d) = [] then none
    else some (ids.filterMap (toldEntry accounts rates total usage d)) := by
  let pairs : List (Uuid × Sigma fun _ : ℤ => TotalStats) :=
    ids.flatMap fun a => ((total.lookup a).getD ∅).entries.map fun e => (a, e)
  let value := fun x : Uuid × Sigma fun _ : ℤ => TotalStats =>
    formatEntry accounts rates x.1 x.2.2 ((usage.lookupAt x.1 x.2.1).getD {})
  have hloop : formatTotals ids accounts rates total usage =
      pairs.foldl (fun result x => result.appendTo x.2.1 (value x)) ∅ := by
    rw [List.foldl_flatMap]
    simp only [List.foldl_map]
    rfl
  have hgroup : ((pairs.filter fun x => x.2.1 = d).map value) =
      ids.filterMap (toldEntry accounts rates total usage d) := by
    rw [List.filter_flatMap, List.map_flatMap, List.filterMap_eq_flatMap_toList]
    refine List.flatMap_congr fun a _ => ?_
    rw [List.filter_map, List.map_map]
    have hentry := Dict.filter_entries ((total.lookup a).getD ∅) d
    have hat : ((total.lookup a).getD ∅).lookup d = total.lookupAt a d := by
      unfold Dict.lookupAt
      cases total.lookup a <;> rfl
    rw [hat] at hentry
    refine (congrArg (List.map _) hentry).trans ?_
    unfold toldEntry
    cases total.lookupAt a d <;> rfl
  rw [hloop, Dict.lookup_foldl_appendTo, ← hgroup]
  refine if_congr ?_ rfl rfl
  rw [List.map_eq_nil_iff]

/-- What a loop sets to one value. -/
theorem lookup_foldl_set (l : List ℤ) (v : List Entry) (r : Dict ℤ (List Entry)) :
    (l.foldl (fun r x => r.set x v) r).lookup d = if d ∈ l then some v else r.lookup d := by
  induction l using List.reverseRecOn with
  | nil => rfl
  | append_singleton l x ih =>
    rw [List.foldl_concat, Dict.lookup_set, ih]
    by_cases hd : d = x
    · rw [if_pos hd, if_pos (List.mem_append_right _ (List.mem_singleton.mpr hd))]
    · rw [if_neg hd]
      exact if_congr (by simp [hd]) rfl rfl

/-- **What `fill_empty_dates` makes of a date.** -/
theorem lookup_fillEmptyDates {result : Dict ℤ (List Entry)} (hids : ids ≠ []) (hd : d ∈ dates) :
    (fillEmptyDates ids accounts rates result dates).lookup d =
      some ((result.lookup d).elim (ids.map (emptyStats accounts rates)) fun told =>
        told ++ (cloudAccsToFill ids told).map (emptyStats accounts rates)) := by
  unfold fillEmptyDates
  rw [if_neg hids]
  simp only [lookup_foldl_set, List.mem_filter, decide_eq_true_iff, hd, true_and]
  generalize hfilled : Dict.collect (fun _ dateResult => some (dateResult ++
    (cloudAccsToFill ids dateResult).map (emptyStats accounts rates))) result result = filled
  have hlookup : filled.lookup d = (result.lookup d).map fun told =>
      told ++ (cloudAccsToFill ids told).map (emptyStats accounts rates) := by
    rw [← hfilled, Dict.lookup_collect]
    cases result.lookup d <;> rfl
  cases hr : result.lookup d with
  | none =>
    rw [hr] at hlookup
    rw [if_pos (AList.lookup_eq_none.mp hlookup)]
    rfl
  | some told =>
    rw [hr] at hlookup
    rw [if_neg (not_not.mpr (AList.lookup_isSome.mp (Option.isSome_of_eq_some hlookup))), hlookup]
    rfl

/-- The entries of an account, of a list with one for each. -/
theorem filter_filterMap_told {f : Uuid → Option Entry} (hf : ∀ a e, f a = some e → e.cloudAccountId = a)
    (l : List Uuid) (a : Uuid) : ((l.filterMap f).filter fun e => e.cloudAccountId = a) =
      (f a).elim [] fun e => List.replicate (l.count a) e := by
  induction l with
  | nil => cases f a <;> rfl
  | cons b l ih =>
    by_cases hb : b = a
    · subst hb
      cases hfb : f b with
      | none =>
        rw [List.filterMap_cons_none hfb, ih, hfb]
        rfl
      | some e =>
        rw [List.filterMap_cons_some hfb, List.filter_cons, if_pos (decide_eq_true (hf b e hfb)), ih, hfb,
          List.count_cons_self]
        rfl
    · rw [List.count_cons_of_ne hb]
      cases hfb : f b with
      | none => rw [List.filterMap_cons_none hfb, ih]
      | some e =>
        have hne : e.cloudAccountId ≠ a := fun h => hb ((hf b e hfb).symm.trans h)
        rw [List.filterMap_cons_some hfb, List.filter_cons, if_neg (by simpa using hne), ih]

theorem filter_map_empty (l : List Uuid) (a : Uuid) :
    ((l.map (emptyStats accounts rates)).filter fun e => e.cloudAccountId = a) =
      List.replicate (l.count a) (emptyStats accounts rates a) := by
  have h := filter_filterMap_told (f := fun a => some (emptyStats accounts rates a))
    (fun a e he => by rw [← Option.some.inj he]; rfl) l a
  rwa [List.filterMap_eq_map'] at h

theorem toldEntry_account {a : Uuid} {e : Entry} (h : toldEntry accounts rates total usage d a = some e) :
    e.cloudAccountId = a := by
  obtain ⟨t, -, rfl⟩ := Option.map_eq_some_iff.mp h
  rfl

/-- The entries a report has of an account on a day. -/
def entriesOf (result : Dict ℤ (List Entry)) (a : Uuid) (d : ℤ) : List Entry :=
  ((result.lookup d).getD []).filter fun e => e.cloudAccountId = a

/-- **The entries of an account on a day**: as many as it was asked for, with what is told of it; if there is
nothing, with zeros, but only one of them where another account is told. -/
theorem entriesOf_eq {a : Uuid} (ha : a ∈ ids) (hd : d ∈ dates) :
    entriesOf (fillEmptyDates ids accounts rates (formatTotals ids accounts rates total usage) dates) a d =
      (toldEntry accounts rates total usage d a).elim
        (if ∃ b ∈ ids, (total.lookupAt b d).isSome then [emptyStats accounts rates a]
          else List.replicate (ids.count a) (emptyStats accounts rates a))
        fun e => List.replicate (ids.count a) e := by
  unfold entriesOf
  rw [lookup_fillEmptyDates (List.ne_nil_of_mem ha) hd, Option.getD_some, lookup_formatTotals]
  have hfilter := filter_filterMap_told (f := toldEntry accounts rates total usage d)
    (fun _ _ => toldEntry_account) ids a
  have hnone : ids.filterMap (toldEntry accounts rates total usage d) = [] ↔
      ¬ ∃ b ∈ ids, (total.lookupAt b d).isSome := by
    rw [List.filterMap_eq_nil_iff]
    push Not
    refine forall₂_congr fun b _ => ?_
    simp [toldEntry]
  by_cases htold : ∃ b ∈ ids, (total.lookupAt b d).isSome
  · rw [if_neg (fun h => hnone.mp h htold), if_pos htold, Option.elim_some, List.filter_append, hfilter,
      filter_map_empty]
    have hin : ∀ e, toldEntry accounts rates total usage d a = some e →
        a ∈ (ids.filterMap (toldEntry accounts rates total usage d)).map Entry.cloudAccountId := fun e he =>
      List.mem_map.mpr ⟨e, List.mem_filterMap.mpr ⟨a, ha, he⟩, toldEntry_account he⟩
    cases hentry : toldEntry accounts rates total usage d a with
    | some e =>
      have hcount : (cloudAccsToFill ids (ids.filterMap (toldEntry accounts rates total usage d))).count a = 0 :=
        List.count_eq_zero.mpr fun h => (of_decide_eq_true (List.mem_filter.mp h).2) (hin e hentry)
      rw [hcount]
      exact List.append_nil _
    | none =>
      have hout : a ∉ (ids.filterMap (toldEntry accounts rates total usage d)).map Entry.cloudAccountId := fun h => by
        obtain ⟨e, he, rfl⟩ := List.mem_map.mp h
        obtain ⟨b, -, hb⟩ := List.mem_filterMap.mp he
        rw [toldEntry_account hb, hb] at hentry
        cases hentry
      have hcount : (cloudAccsToFill ids (ids.filterMap (toldEntry accounts rates total usage d))).count a = 1 :=
        List.count_eq_one_of_mem ((List.nodup_dedup ids).filter _)
          (List.mem_filter.mpr ⟨List.mem_dedup.mpr ha, decide_eq_true hout⟩)
      rw [hcount]
      rfl
  · rw [if_pos (hnone.mpr htold), if_neg htold, Option.elim_none, filter_map_empty]
    have hentry : toldEntry accounts rates total usage d a = none := by
      cases ht : total.lookupAt a d with
      | none => rw [toldEntry, ht]; rfl
      | some t => exact absurd ⟨a, ha, by rw [ht]; rfl⟩ htold
    rw [hentry]
    rfl

/-- The entries of a day are those of the accounts. -/
theorem account_mem (hd : d ∈ dates) {e : Entry}
    (he : e ∈ ((fillEmptyDates ids accounts rates (formatTotals ids accounts rates total usage) dates).lookup
      d).getD []) :
    e.cloudAccountId ∈ ids := by
  by_cases hids : ids = []
  · subst hids
    exact absurd he List.not_mem_nil
  · have htold : ∀ e ∈ ids.filterMap (toldEntry accounts rates total usage d),
        e.cloudAccountId ∈ ids := fun e he => by
      obtain ⟨b, hb, hbe⟩ := List.mem_filterMap.mp he
      rw [toldEntry_account hbe]
      exact hb
    have hempty : ∀ l : List Uuid, (∀ b ∈ l, b ∈ ids) → ∀ e ∈ l.map (emptyStats accounts rates),
        e.cloudAccountId ∈ ids := fun l hl e he => by
      obtain ⟨b, hb, rfl⟩ := List.mem_map.mp he
      exact hl b hb
    rw [lookup_fillEmptyDates hids hd, Option.getD_some, lookup_formatTotals] at he
    split at he
    · exact hempty ids (fun _ h => h) e he
    · rcases List.mem_append.mp he with he | he
      · exact htold e he
      · exact hempty _ (fun b hb => List.mem_dedup.mp (List.mem_filter.mp hb).1) e he

end Entries

/-! ## The numbers -/

section Numbers

variable (src : Source) (k : Uuid × ℤ)

/-- What an entry tells: the totals, and those of the reservations. -/
def Entry.numbers (e : Entry) : (ℚ × ℚ × ℚ) × ℚ × ℚ × ℚ :=
  ((e.totalUsageHrs, e.costWithOffer, e.costWithoutOffer), e.riUsageHrs, e.riCostWithoutOffer, e.riCostWithOffer)

/-- What the ledger of uncovered usage has. -/
def uncoveredSums : ℚ × ℚ × ℚ :=
  (signedSum UncoveredUsage.sign UncoveredUsage.usage (uncoveredOf src k),
    signedSum UncoveredUsage.sign UncoveredUsage.cost (uncoveredOf src k),
    signedSum UncoveredUsage.sign UncoveredUsage.cost (uncoveredOf src k))

/-- What the ledger of covered usage has. -/
def coveredSums : ℚ × ℚ × ℚ :=
  (signedSum RiSpUsage.sign RiSpUsage.usage (coveredOf src k),
    signedSum RiSpUsage.sign RiSpUsage.offerCost (coveredOf src k),
    signedSum RiSpUsage.sign RiSpUsage.onDemandCost (coveredOf src k))

/-- And what it has of reservations. -/
def riSums : ℚ × ℚ × ℚ :=
  (signedSum RiSpUsage.sign RiSpUsage.usage (riOf src k),
    signedSum RiSpUsage.sign RiSpUsage.onDemandCost (riOf src k),
    signedSum RiSpUsage.sign RiSpUsage.offerCost (riOf src k))

/-- **What the ledgers have** of an account on a day. -/
def ledgerNumbers : (ℚ × ℚ × ℚ) × ℚ × ℚ × ℚ := (uncoveredSums src k + coveredSums src k, riSums src k)

/-- **What the queries leave out** adds up to nothing: the groups that are not live, and the reservations of an
account that is not shown. -/
structure Told : Prop where
  totals : (if UncoveredLive src k then 0 else uncoveredSums src k) +
    (if CoveredLive src k then 0 else coveredSums src k) = 0
  reservations : ¬ (Shown src k ∧ RiLive src k) → riSums src k = 0

/-- What they find. -/
def foundNumbers : (ℚ × ℚ × ℚ) × ℚ × ℚ × ℚ :=
  ((if UncoveredLive src k then uncoveredSums src k else 0) + (if CoveredLive src k then coveredSums src k else 0),
    if Shown src k ∧ RiLive src k then riSums src k else 0)

variable {src k}

theorem foundNumbers_eq_iff : foundNumbers src k = ledgerNumbers src k ↔ Told src k := by
  have hpart : ∀ (p : Prop) [Decidable p] (x : ℚ × ℚ × ℚ), (if p then x else 0) + (if p then 0 else x) = x := by
    intro p _ x
    split
    · exact add_zero x
    · exact zero_add x
  have hall : uncoveredSums src k + coveredSums src k =
      ((if UncoveredLive src k then uncoveredSums src k else 0) +
          (if CoveredLive src k then coveredSums src k else 0)) +
        ((if UncoveredLive src k then 0 else uncoveredSums src k) +
          (if CoveredLive src k then 0 else coveredSums src k)) := by
    rw [add_add_add_comm, hpart, hpart]
  unfold foundNumbers ledgerNumbers
  rw [Prod.mk.injEq, hall, left_eq_add]
  have hri : (if Shown src k ∧ RiLive src k then riSums src k else 0) = riSums src k ↔
      (¬ (Shown src k ∧ RiLive src k) → riSums src k = 0) := by
    split
    · rename_i hlive
      exact ⟨fun _ h => absurd hlive h, fun _ => rfl⟩
    · rename_i hdead
      exact ⟨fun h _ => h.symm, fun h => (h hdead).symm⟩
  rw [hri]
  exact ⟨fun h => ⟨h.1, h.2⟩, fun h => ⟨h.totals, h.reservations⟩⟩

variable {accounts : Dict Uuid AccountInfo} {rates : Dict Uuid (Dict Text ℚ)} {ids : List Uuid}
  {startDate endDate : ℤ} {filled : Dict Uuid (Dict ℤ UsageStats)} {a : Uuid} {d : ℤ}

variable (accounts rates) in
/-- **What an entry tells** of an account that is shown. -/
theorem toldEntry_spec (hk : Asked startDate endDate ids (a, d))
    (hfilled : (filled.lookupAt a d).map UsageStats.sums =
      ((getCloudAccountUsageStats src startDate endDate ids).lookupAt a d).map UsageStats.sums) :
    (Shown src (a, d) → ∃ e, toldEntry accounts rates (getTotalStats src startDate endDate ids) filled d a = some e ∧
      e.numbers = foundNumbers src (a, d)) ∧
    (¬ Shown src (a, d) → toldEntry accounts rates (getTotalStats src startDate endDate ids) filled d a = none) := by
  have hri : ((filled.lookupAt a d).getD {}).sums = if RiLive src (a, d) then riSums src (a, d) else 0 := by
    rw [lookupAt_getCloudAccountUsageStats src hk] at hfilled
    split at hfilled
    · rename_i hlive
      obtain ⟨data, hdata, hsums⟩ := Option.map_eq_some_iff.mp hfilled
      rw [hdata, Option.getD_some, hsums, if_pos hlive]
      simp only [addUsage, UsageStats.sums, riSums, zero_add]
    · rename_i hdead
      rw [Option.map_eq_none_iff.mp hfilled, if_neg hdead]
      rfl
  have htotal := lookupAt_getTotalStats src hk
  unfold toldEntry
  constructor
  · intro hshown
    rw [if_pos hshown] at htotal
    rw [htotal]
    refine ⟨_, rfl, Prod.ext ?_ (hri.trans (if_congr (and_iff_right hshown).symm rfl rfl))⟩
    unfold foundNumbers
    by_cases huncovered : UncoveredLive src (a, d) <;> by_cases hcovered : CoveredLive src (a, d)
    · simp only [if_pos huncovered, if_pos hcovered]
      rfl
    · simp only [if_pos huncovered, if_neg hcovered, add_zero]
      rfl
    · simp only [if_neg huncovered, if_pos hcovered]
      rfl
    · exact absurd hshown (not_or.mpr ⟨huncovered, hcovered⟩)
  · intro hhidden
    rw [if_neg hhidden] at htotal
    rw [htotal]
    rfl

end Numbers

/-! ## Complete reports -/

section Complete

variable {src : Source} {organizationId : Uuid} {requested : List Uuid} {startDate endDate : ℤ}

theorem mem_breakdownDates {d : ℤ} (hday : d % 86400 = 0) (hstart : startDate ≤ d) (hend : d < endDate) :
    d ∈ breakdownDates startDate endDate := by
  have hfrom : ∀ date, date % 86400 = 0 → date ≤ d → d ∈ breakdownDatesFrom date endDate := by
    intro date
    fun_induction breakdownDatesFrom date endDate with
    | case1 date hlt ih =>
      intro hdate hle
      rcases eq_or_lt_of_le hle with rfl | hlt'
      · exact List.mem_cons_self
      · exact List.mem_cons_of_mem _ (ih (by omega) (by omega))
    | case2 date hge =>
      intro hdate hle
      omega
  exact hfrom _ (by omega) (by omega)

/-- The accounts a request is for: all, or those it names that are supported. -/
def supportedIds (src : Source) (organizationId : Uuid) (requested : List Uuid) : List Uuid :=
  let cloudAccsMap := getAccountsMap src organizationId
  if requested = [] then cloudAccsMap.keys.reverse else requested.filter fun x => x ∈ cloudAccsMap

/-- **A complete report**: the filter keeps exactly the supported accounts, none is missing in a map, and every day
of the window has exactly one entry of each, with what the ledgers have of it. -/
structure Complete (src : Source) (organizationId : Uuid) (requested : List Uuid) (startDate endDate : ℤ) : Prop where
  kept : filterCloudAccounts requested (getAccountsMap src organizationId) = supportedIds src organizationId requested
  noKeyError : get src organizationId startDate endDate requested ≠ .error (.python "KeyError")
  days : ∀ result, get src organizationId startDate endDate requested = .ok result →
    ∀ d, d % 86400 = 0 → startDate ≤ d → d < endDate →
    (∀ e ∈ (result.lookup d).getD [], e.cloudAccountId ∈ supportedIds src organizationId requested) ∧
    ∀ a ∈ supportedIds src organizationId requested, ∃ e, entriesOf result a d = [e] ∧
      e.numbers = ledgerNumbers src (a, d)

/-- **A regular request**: no two neighbours go; and if it passes the checks, no account is told twice on a day of
the window, and the queries leave nothing out of it. -/
structure Regular (src : Source) (organizationId : Uuid) (requested : List Uuid) (startDate endDate : ℤ) : Prop where
  apart : Sweep.Apart (fun x => decide (x ∈ getAccountsMap src organizationId)) requested
  told : checkRequest src organizationId requested = .ok () → ∀ d, d % 86400 = 0 → startDate ≤ d → d < endDate →
    ∀ a ∈ supportedIds src organizationId requested,
    ((supportedIds src organizationId requested).count a = 1 ∨
      ¬ Shown src (a, d) ∧ ∃ b ∈ supportedIds src organizationId requested, Shown src (b, d)) ∧
    Told src (a, d)

theorem kept_iff : filterCloudAccounts requested (getAccountsMap src organizationId) =
      supportedIds src organizationId requested ↔
    Sweep.Apart (fun x => decide (x ∈ getAccountsMap src organizationId)) requested := by
  unfold filterCloudAccounts supportedIds
  by_cases hall : requested = []
  · rw [if_pos hall, hall]
    exact iff_of_true rfl List.isChain_nil
  · simp only [if_neg hall]
    exact Sweep.sweep_eq_filter_iff requested

theorem mem_supportedIds {a : Uuid} (ha : a ∈ supportedIds src organizationId requested) :
    a ∈ getAccountsMap src organizationId := by
  unfold supportedIds at ha
  simp only at ha
  split at ha
  · exact List.mem_reverse.mp ha
  · exact of_decide_eq_true (List.mem_filter.mp ha).2

/-- The checks refuse on purpose. -/
theorem checkRequest_ne_python (name : String) :
    checkRequest src organizationId requested ≠ .error (.python name) := by
  unfold checkRequest
  cases src.organization with
  | none => simp [orFail]
  | some organization =>
    simp only [orFail_some, ok_bind]
    by_cases haccounts : organizationCloudAccs src organizationId ≠ []
    · rw [require_of haccounts, ok_bind]
      by_cases hextra : (requested.filter fun x =>
          x ∉ nilUuid :: (organizationCloudAccs src organizationId).map CloudAccount.id) = []
      · rw [require_of hextra]
        simp
      · rw [require_not hextra]
        simp
    · rw [require_not haccounts]
      simp

variable (src organizationId requested startDate endDate) in
/-- **A request that passes the checks**, none of whose accounts is missing, gets its report. -/
theorem get_ok (hcheck : checkRequest src organizationId requested = .ok ())
    (hkept : filterCloudAccounts requested (getAccountsMap src organizationId) =
      supportedIds src organizationId requested) :
    ∃ rates filled, get src organizationId startDate endDate requested =
        .ok (fillEmptyDates (supportedIds src organizationId requested) (getAccountsMap src organizationId) rates
          (formatTotals (supportedIds src organizationId requested) (getAccountsMap src organizationId) rates
            (getTotalStats src startDate endDate (supportedIds src organizationId requested)) filled)
          (breakdownDates startDate endDate)) ∧
      ∀ a d, (filled.lookupAt a d).map UsageStats.sums =
        ((getCloudAccountUsageStats src startDate endDate (supportedIds src organizationId requested)).lookupAt a
          d).map UsageStats.sums := by
  have hrows : ∀ row ∈ flavorRows src startDate endDate (getAccountsMap src organizationId),
      row.cloudAccId ∈ getAccountsMap src organizationId := fun row hrow => by
    obtain ⟨r, hr, rfl⟩ := List.mem_map.mp (List.mem_dedup.mp hrow)
    exact (of_decide_eq_true (List.mem_filter.mp hr).2).1.1
  obtain ⟨s, hs, hassigned⟩ := getFlavors_spec hrows
  have hids : ∀ i ∈ supportedIds src organizationId requested, i ∈ getAccountsMap src organizationId :=
    fun i hi => mem_supportedIds hi
  obtain ⟨rates, hrates, hlookup⟩ := cloudAccFlavorRate_spec (s := s) hids
  obtain ⟨filled, hfilled, hsums, -⟩ := fillOverprovisioning_spec (rates_ne_zero hassigned hlookup)
    (getCloudAccountUsageStats src startDate endDate (supportedIds src organizationId requested))
    (src.getOverprovisionChExpenses (getCloudAccountUsageStats src startDate endDate
      (supportedIds src organizationId requested)).keys startDate endDate)
  refine ⟨rates, filled, ?_, hsums⟩
  unfold RiBreakdownController.get
  simp only [hcheck, ok_bind, hkept, hs, hrates, hfilled]
  rfl

theorem exists_replicate_eq (n : ℕ) (x : Entry) (P : Entry → Prop) :
    (∃ e, List.replicate n x = [e] ∧ P e) ↔ n = 1 ∧ P x := by
  constructor
  · rintro ⟨e, he, hP⟩
    obtain rfl : n = 1 := by simpa using congrArg List.length he
    obtain rfl : x = e := by simpa using he
    exact ⟨rfl, hP⟩
  · rintro ⟨rfl, hP⟩
    exact ⟨x, rfl, hP⟩

variable {accounts : Dict Uuid AccountInfo} {rates : Dict Uuid (Dict Text ℚ)} {ids : List Uuid}
  {filled : Dict Uuid (Dict ℤ UsageStats)} {a : Uuid} {d : ℤ}

/-- **One account on one day.** -/
theorem entry_iff (hfilled : ∀ a d, (filled.lookupAt a d).map UsageStats.sums =
      ((getCloudAccountUsageStats src startDate endDate ids).lookupAt a d).map UsageStats.sums)
    (ha : a ∈ ids) (hday : d % 86400 = 0) (hstart : startDate ≤ d) (hend : d < endDate) :
    (∃ e, entriesOf (fillEmptyDates ids accounts rates
        (formatTotals ids accounts rates (getTotalStats src startDate endDate ids) filled)
        (breakdownDates startDate endDate)) a d = [e] ∧ e.numbers = ledgerNumbers src (a, d)) ↔
      (ids.count a = 1 ∨ ¬ Shown src (a, d) ∧ ∃ b ∈ ids, Shown src (b, d)) ∧ Told src (a, d) := by
  have hasked : ∀ b ∈ ids, Asked startDate endDate ids (b, d) := fun b hb => ⟨hb, hstart, hend.le⟩
  have hsome : ∀ b ∈ ids, ((getTotalStats src startDate endDate ids).lookupAt b d).isSome ↔ Shown src (b, d) :=
    fun b hb => by
      rw [lookupAt_getTotalStats src (hasked b hb)]
      split
      · rename_i h
        exact iff_of_true rfl h
      · rename_i h
        exact iff_of_false Bool.false_ne_true h
  obtain ⟨hshown, hhidden⟩ := toldEntry_spec accounts rates (hasked a ha) (hfilled a d)
  rw [entriesOf_eq ha (mem_breakdownDates hday hstart hend), ← foundNumbers_eq_iff]
  by_cases hlive : Shown src (a, d)
  · obtain ⟨e, he, hnumbers⟩ := hshown hlive
    rw [he, Option.elim_some, exists_replicate_eq, hnumbers, or_iff_left fun h => h.1 hlive]
  · have hzero : (emptyStats accounts rates a).numbers = foundNumbers src (a, d) := by
      obtain ⟨huncovered, hcovered⟩ := not_or.mp hlive
      unfold foundNumbers
      rw [if_neg huncovered, if_neg hcovered, if_neg fun h => hlive h.1, add_zero]
      rfl
    have hother : (∃ b ∈ ids, ((getTotalStats src startDate endDate ids).lookupAt b d).isSome) ↔
        ∃ b ∈ ids, Shown src (b, d) :=
      exists_congr fun b => and_congr_right fun hb => hsome b hb
    rw [hhidden hlive, Option.elim_none, ← hzero]
    by_cases hbeside : ∃ b ∈ ids, Shown src (b, d)
    · rw [if_pos (hother.mpr hbeside), and_iff_right (Or.inr ⟨hlive, hbeside⟩)]
      exact (exists_replicate_eq 1 _ fun e => e.numbers = ledgerNumbers src (a, d)).trans (and_iff_right rfl)
    · rw [if_neg (mt hother.mp hbeside), exists_replicate_eq, or_iff_left fun h => hbeside h.2]

/-- **A report is complete exactly when its request is regular.** -/
theorem complete_iff (src : Source) (organizationId : Uuid) (requested : List Uuid) (startDate endDate : ℤ) :
    Complete src organizationId requested startDate endDate ↔
      Regular src organizationId requested startDate endDate := by
  constructor
  · intro h
    refine ⟨kept_iff.mp h.kept, fun hcheck d hday hstart hend a ha => ?_⟩
    obtain ⟨rates, filled, hget, hfilled⟩ := get_ok src organizationId requested startDate endDate hcheck h.kept
    exact (entry_iff hfilled ha hday hstart hend).mp ((h.days _ hget d hday hstart hend).2 a ha)
  · intro h
    have hkept := kept_iff.mpr h.apart
    by_cases hcheck : checkRequest src organizationId requested = .ok ()
    · obtain ⟨rates, filled, hget, hfilled⟩ := get_ok src organizationId requested startDate endDate hcheck hkept
      refine ⟨hkept, fun herror => ?_, fun result hresult d hday hstart hend => ⟨fun e he => ?_, fun a ha => ?_⟩⟩
      · rw [hget] at herror
        exact nomatch herror
      · obtain rfl := Except.ok.inj (hget.symm.trans hresult)
        exact account_mem (mem_breakdownDates hday hstart hend) he
      · obtain rfl := Except.ok.inj (hget.symm.trans hresult)
        exact (entry_iff hfilled ha hday hstart hend).mpr (h.told hcheck d hday hstart hend a ha)
    · obtain ⟨e, he⟩ : ∃ e, checkRequest src organizationId requested = .error e := by
        cases hx : checkRequest src organizationId requested with
        | error e => exact ⟨e, rfl⟩
        | ok u => exact absurd hx hcheck
      have hget : get src organizationId startDate endDate requested = .error e := by
        unfold RiBreakdownController.get
        rw [he, error_bind]
      refine ⟨hkept, fun herror => ?_, fun result hresult => ?_⟩
      · obtain rfl := Except.error.inj (hget.symm.trans herror)
        exact checkRequest_ne_python "KeyError" he
      · rw [hget] at hresult
        exact nomatch hresult

/-- An account that is supported, and two beside it that are not. -/
def threeClouds : Source where
  organization := some "acme".toList
  cloudAccounts := ⟨[{ id := 1, name := "aws".toList, type := .AWS_CNR, organizationId := 9 },
    { id := 2, name := "gcp".toList, type := .GCP_CNR, organizationId := 9 },
    { id := 3, name := "kubernetes".toList, type := .KUBERNETES_CNR, organizationId := 9 }], by decide⟩
  riSpUsage := []
  uncoveredUsage := []
  getOverprovisionChExpenses := fun _ _ _ => []

/-- **The second of two unsupported neighbours stays**, and its type is missing. -/
theorem neighbours_fail : filterCloudAccounts [1, 2, 3] (getAccountsMap threeClouds 9) = [1, 3] ∧
    get threeClouds 9 0 86400 [1, 2, 3] = .error (.python "KeyError") ∧
    ¬ Complete threeClouds 9 [1, 2, 3] 0 86400 := by
  have h1 : (1 : Uuid) ∈ getAccountsMap threeClouds 9 := by decide
  have h2 : (2 : Uuid) ∉ getAccountsMap threeClouds 9 := by decide
  have h3 : (3 : Uuid) ∉ getAccountsMap threeClouds 9 := by decide
  have hkept : filterCloudAccounts [1, 2, 3] (getAccountsMap threeClouds 9) = [1, 3] := by
    simp [filterCloudAccounts, Sweep.sweep, Sweep.sweepFrom, h1, h2]
  have hget : get threeClouds 9 0 86400 [1, 2, 3] = .error (.python "KeyError") := by
    have hcheck : checkRequest threeClouds 9 [1, 2, 3] = .ok () := by decide
    unfold RiBreakdownController.get
    simp only [hcheck, ok_bind, hkept]
    rfl
  exact ⟨hkept, hget, fun h => h.noKeyError hget⟩

end Complete

end RiBreakdownController
