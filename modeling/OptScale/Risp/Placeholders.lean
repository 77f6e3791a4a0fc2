import OptScale.Risp.Base

/-!
# Risp/Placeholders — `fill_ri_sp_usage_empty`

When the usage of an offer type has been saved, the days of an offer without usage are to get a row with
the expected cost and nothing else.  The expected costs are kept under dates in UTC, and the dates that
have rows come from ClickHouse, which returns them without a time zone; they are compared as they are.  No
date is ever found (`notMem_getOfferDateMap`), so every run adds a placeholder for every day of every offer,
next to real usage and next to the placeholders of earlier runs (`filledOnce_iff`).
-/

namespace RispProcessorBase

/-! ## The expected costs -/

/-- `offer_exp_cost_per_day`: the expected costs of offers by the days they are expected on, which
begin at midnight in UTC. -/
structure OfferCosts where
  entries : List (Text × List (DateTime × ℚ))
  nodup : (entries.map Prod.fst).Nodup
  nodup_dates : ∀ x ∈ entries, (x.2.map Prod.fst).Nodup
  utc : ∀ x ∈ entries, ∀ y ∈ x.2, ∃ d : ℤ, y.1 = .utc (86400 * d)

namespace OfferCosts

/-- `offer_exp_cost_per_day.get(offer_id, {}).get(date)` -/
def cost (costs : OfferCosts) (offerId : Text) (date : DateTime) : Option ℚ :=
  (costs.entries.lookup offerId).bind fun data => data.lookup date

/-- The offers with their days, one by one. -/
def pairs (costs : OfferCosts) : List (Text × DateTime × ℚ) :=
  costs.entries.flatMap fun x => x.2.map fun y => (x.1, y)

/-- The map expects nothing of any offer. -/
def Vacant (costs : OfferCosts) : Prop := ∀ x ∈ costs.entries, x.2 = []

end OfferCosts

/-! ## The fill -/

section Fill

variable (Q : UsageQuery)

/-- `_get_offer_date_map`: the dates that some offers have rows on, as the database returns them. -/
def getOfferDateMap (table : List RiSpUsage) (offerIds : List Text) (offerId : Text) : List DateTime :=
  ((table.filter fun r => r.cloudAccountId = Q.cloudAccountId ∧ Q.startDate ≤ r.date ∧ r.date ≤ Q.endDate ∧
    r.offerId ∈ offerIds ∧ r.offerId = offerId).map fun r => DateTime.naive r.date).dedup

/-- A row without usage. -/
def placeholder (offerId : Text) (y : DateTime × ℚ) : RiSpUsage :=
  riSpUsageExpense Q.cloudAccountId [] y.1 [] offerId Q.offerType 0 0 0 0 0 y.2 1

/-- `fill_ri_sp_usage_empty`: the rows it inserts. -/
def fillRiSpUsageEmpty (table : List RiSpUsage) (costs : OfferCosts) : List RiSpUsage :=
  costs.entries.flatMap fun x =>
    (x.2.filter fun y => y.1 ∉ getOfferDateMap Q table (costs.entries.map Prod.fst) x.1).map
      (placeholder Q x.1)

/-- The account has a row of the offer on the date. -/
def HasRow (table : List RiSpUsage) (offerId : Text) (date : DateTime) : Prop :=
  ∃ r ∈ table, r.cloudAccountId = Q.cloudAccountId ∧ r.offerId = offerId ∧ r.date = date.seconds

instance (table : List RiSpUsage) (offerId : Text) (date : DateTime) : Decidable (HasRow Q table offerId date) :=
  inferInstanceAs (Decidable (∃ r ∈ table, r.cloudAccountId = Q.cloudAccountId ∧ r.offerId = offerId ∧
    r.date = date.seconds))

/-- The placeholders of the days without a row. -/
def missing (table : List RiSpUsage) (costs : OfferCosts) : List RiSpUsage :=
  (costs.pairs.filter fun p => ¬ HasRow Q table p.1 p.2.1).map fun p => placeholder Q p.1 p.2

end Fill

/-! ## Runs -/

/-- What a run of `_generate_ri_sp_usage` works on: the range, the expected costs, the new expenses and
what the database answers about those it has. -/
structure UsageRun where
  query : UsageQuery
  costs : OfferCosts
  cloudResourceIds : List Text
  newExpensesMap : NewExpenses
  getRiSpUsageExpenses : List Text → List UsageExpense

namespace UsageRun

/-- The rows that `save_risp_expenses_to_ch` inserts. -/
def saved (run : UsageRun) : List RiSpUsage :=
  saveRispExpensesToCh run.query run.getRiSpUsageExpenses run.cloudResourceIds run.newExpensesMap run.costs.cost

/-- The table after the save. -/
def afterSave (run : UsageRun) (table : List RiSpUsage) : List RiSpUsage := table ++ run.saved

/-- The placeholders that the run inserts. -/
def filled (run : UsageRun) (table : List RiSpUsage) : List RiSpUsage :=
  fillRiSpUsageEmpty run.query (run.afterSave table) run.costs

/-- `_generate_ri_sp_usage` -/
def generateRiSpUsage (run : UsageRun) (table : List RiSpUsage) : List RiSpUsage :=
  run.afterSave table ++ run.filled table

/-- **A run fills the days that are empty**, and no others. -/
def FillsEmpty (run : UsageRun) (table : List RiSpUsage) : Prop :=
  run.filled table = missing run.query (run.afterSave table) run.costs

end UsageRun

/-- A run over the range of an earlier one, which expects the same. -/
structure Again (run : UsageRun) where
  next : UsageRun
  query : next.query = run.query
  costs : next.costs = run.costs

/-- **Empty days are filled once**: a run fills the empty days, and another one over the same range none. -/
def FilledOnce (run : UsageRun) (again : Again run) (table : List RiSpUsage) : Prop :=
  run.FillsEmpty table ∧ again.next.filled (run.generateRiSpUsage table) = []

/-! ## No date is found -/

section Found

variable {Q : UsageQuery} {table : List RiSpUsage} {costs : OfferCosts}

/-- **A date in UTC is not among those without a time zone.** -/
theorem notMem_getOfferDateMap {offerIds : List Text} {offerId : Text} (s : ℤ) :
    DateTime.utc s ∉ getOfferDateMap Q table offerIds offerId := by
  intro h
  obtain ⟨r, -, hr⟩ := List.mem_map.mp (List.mem_dedup.mp h)
  exact DateTime.naive_ne_replaceUtc r.date (.utc s) hr

/-- **A run fills every day that is expected.** -/
theorem fillRiSpUsageEmpty_eq :
    fillRiSpUsageEmpty Q table costs = costs.pairs.map fun p => placeholder Q p.1 p.2 := by
  rw [fillRiSpUsageEmpty, OfferCosts.pairs, List.map_flatMap]
  refine List.flatMap_congr fun x hx => ?_
  rw [List.map_map, List.filter_eq_self.mpr fun y hy => ?_]
  · rfl
  · obtain ⟨d, hd⟩ := costs.utc x hx y hy
    rw [hd]
    exact decide_eq_true (notMem_getOfferDateMap _)

theorem pairs_eq_nil : costs.pairs = [] ↔ costs.Vacant := by
  simp only [OfferCosts.pairs, List.flatMap_eq_nil_iff, List.map_eq_nil_iff, OfferCosts.Vacant]

/-- The fill is right if no day that is expected has a row. -/
theorem fillRiSpUsageEmpty_eq_missing :
    fillRiSpUsageEmpty Q table costs = missing Q table costs ↔
      ∀ p ∈ costs.pairs, ¬ HasRow Q table p.1 p.2.1 := by
  rw [fillRiSpUsageEmpty_eq, missing]
  constructor
  · intro h p hp
    have hlength := congrArg List.length h
    rw [List.length_map, List.length_map] at hlength
    exact of_decide_eq_true (List.length_filter_eq_length_iff.mp hlength.symm p hp)
  · intro h
    rw [List.filter_eq_self.mpr fun p hp => decide_eq_true (h p hp)]

end Found

/-- **Empty days are filled once** exactly if no day of any offer is expected. -/
theorem filledOnce_iff (run : UsageRun) (again : Again run) (table : List RiSpUsage) :
    FilledOnce run again table ↔ run.costs.Vacant := by
  obtain ⟨next, hquery, hcosts⟩ := again
  rw [← pairs_eq_nil]
  constructor
  · rintro ⟨-, hagain⟩
    rw [UsageRun.filled, fillRiSpUsageEmpty_eq, List.map_eq_nil_iff, hcosts] at hagain
    exact hagain
  · intro hnone
    constructor
    · refine fillRiSpUsageEmpty_eq_missing.mpr fun p hp => ?_
      exact absurd hp (hnone ▸ List.not_mem_nil)
    · rw [UsageRun.filled, fillRiSpUsageEmpty_eq, hcosts, hnone, List.map_nil]

/-! ## A day with usage -/

/-- An offer that costs 24 on the first day. -/
def oneDay : OfferCosts where
  entries := [(['r'], [(.utc 0, 24)])]
  nodup := List.nodup_singleton _
  nodup_dates := by
    simp
  utc := by
    simp only [List.mem_singleton, forall_eq]
    exact ⟨0, rfl⟩

/-- A run that has nothing new to save. -/
def idleRun : UsageRun where
  query := ⟨1, .ri, 0, 86399⟩
  costs := oneDay
  cloudResourceIds := []
  newExpensesMap := ⟨[], List.nodup_nil, fun _ h => absurd h List.not_mem_nil⟩
  getRiSpUsageExpenses := fun _ => []

/-- **A placeholder is added next to real usage**, and another one by every further run. -/
theorem idleRun_fills_again :
    ¬ idleRun.FillsEmpty [⟨1, ['i'], 0, ['l'], ['r'], .ri, 48, 24, 24, 1, 0, 24, 1⟩] ∧
      idleRun.filled (idleRun.generateRiSpUsage []) ≠ [] := by
  constructor
  · unfold UsageRun.FillsEmpty
    decide
  · decide

end RispProcessorBase
