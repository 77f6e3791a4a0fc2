import OptScale.Foundations.Fallible
import OptScale.Foundations.Table
import OptScale.Risp.Base

/-!
# Risp/Uncovered — runs of `generate_uncovered_usage`

The new expenses are kept under the dates Mongo returns, which have no time zone, and what the table holds is
looked up under dates in UTC.  Nothing is ever found (`not_hit`), so a run cancels nothing and enters all it has
computed: the table only grows.  Two runs over the same dates come out right exactly when the first had nothing
to enter and none had before (`settles_iff`).
-/

open Fallible Ledger Renewal

namespace AwsProcessor

open RispProcessorBase

def SECONDS_IN_HOUR : ℚ := 3600

/-! ## The expenses -/

/-- A value of a raw expense: text from a CSV report, a number from a Parquet one. -/
inductive Value
  | text (s : Text)
  | number (q : ℚ)
  deriving DecidableEq

/-- What `or` goes by. -/
def Value.truthy : Value → Bool
  | text s => s ≠ []
  | number q => q ≠ 0

/-- A raw expense, by what the query filters on and returns. -/
structure RawExpense where
  cloudAccountId : Uuid
  startDate : ℤ
  boxUsage : Bool
  /-- `lineItem/LineItemType` -/
  lineItemType : Option Text
  resourceId : Text
  /-- `pricing/unit` -/
  unit : Option Text
  /-- `lineItem/UsageAmount` -/
  usageAmount : Option Value
  /-- `lineItem/UnblendedCost` -/
  unblendedCost : Option Value
  /-- `pricing/publicOnDemandCost` -/
  publicOnDemandCost : Option Value
  /-- `product/operatingSystem` -/
  operatingSystem : Option Text
  /-- `product/instanceType` -/
  instanceType : Option Text
  /-- `product/usagetype` -/
  usagetype : Option Text
  /-- `product/region` -/
  region : Option Text
  /-- `lineItem/AvailabilityZone` -/
  availabilityZone : Option Text

/-- What a run raises. -/
inductive Raised
  | unsupported (resourceId : Text) (cloudAccountId : Uuid) (startDate : ℤ)
  | keyError (field : String)
  | valueError (value : Text)

/-- `get_uncovered_raw_expenses` -/
def getUncoveredRawExpenses (Q : UncoveredQuery) (raws : List RawExpense) : List RawExpense :=
  raws.filter fun e => e.cloudAccountId = Q.cloudAccountId ∧ Q.startDate ≤ e.startDate ∧
    e.startDate ≤ Q.endDate ∧ e.boxUsage ∧ e.lineItemType = some "Usage".toList

namespace RawExpense

variable (e : RawExpense)

/-- `expense.get('pricing/publicOnDemandCost') or expense.get('lineItem/UnblendedCost')` -/
def cost : Option Value := (e.publicOnDemandCost.filter Value.truthy).or e.unblendedCost

/-- Spot Fargate tasks can't be covered by RI/SP. -/
def spotFargate : Bool := (e.usagetype.getD []).contains "SpotUsage-Fargate"

/-- Instances on dedicated hosts. -/
def metal : Bool := (e.instanceType.getD []).contains "metal"

/-- Where its cost is added up. -/
def place : (Text × DateTime) × Text × Text × Text :=
  ((e.resourceId, .naive e.startDate), e.operatingSystem.getD [], e.instanceType.getD [],
    (e.availabilityZone.filter (· ≠ [])).getD (e.region.getD []))

end RawExpense

section Run

variable (float : Text → Option ℚ)

/-- `float`, which reads text by `float`. -/
def Value.toFloat : Value → Except Raised ℚ
  | .text s => orFail (float s) (.valueError s)
  | .number q => pure q

/-- What the loop of `generate_uncovered_usage` makes of an expense: nothing where it goes on with the next. -/
def readExpense (Q : UncoveredQuery) (e : RawExpense) : Except Raised (Option Uncovered) :=
  if e.spotFargate then pure none
  else match e.cost with
    | none =>
      if e.metal then pure none
      else if e.usageAmount.isNone then pure none
      else throw (.unsupported e.resourceId Q.cloudAccountId e.startDate)
    | some cost => do
      let cost ← cost.toFloat float
      let amount ← orFail e.usageAmount (.keyError "lineItem/UsageAmount")
      let usageHrs ← amount.toFloat float
      let unit ← orFail e.unit (.keyError "pricing/unit")
      pure (some (e.place, cost,
        if Text.contains (unit.map Char.toLower) "second" then usageHrs / SECONDS_IN_HOUR else usageHrs))

/-- The new expenses, once for each place. -/
abbrev NewExpensesMap := Table (Prod.fst : Uncovered → _)

/-- An expense is added up. -/
def addExpense (Q : UncoveredQuery) (newExpensesMap : NewExpensesMap) (e : RawExpense) :
    Except Raised NewExpensesMap := do
  match ← readExpense float Q e with
  | none => pure newExpensesMap
  | some x => pure (newExpensesMap.upsert (x.1, 0 + x.2.1, 0 + x.2.2)
      (fun y => (y.1, y.2.1 + x.2.1, y.2.2 + x.2.2)) fun _ => rfl)

/-- The loop of `generate_uncovered_usage`. -/
def newExpenses (Q : UncoveredQuery) (raws : List RawExpense) : Except Raised NewExpensesMap :=
  (getUncoveredRawExpenses Q raws).foldlM (addExpense float Q) .empty

/-- `generate_uncovered_usage`: the records it inserts. -/
def generateUncoveredUsage (Q : UncoveredQuery) (raws : List RawExpense)
    (getUncoveredUsageExpenses : List Text → List UncoveredExpense) : Except Raised (List UncoveredUsage) := do
  let newExpensesMap ← newExpenses float Q raws
  pure (saveUncoveredExpensesToCh Q getUncoveredUsageExpenses newExpensesMap.rows)

/-! ## What is skipped, and what is charged -/

/-- `float` reads it. -/
def Numeric : Value → Prop
  | .text s => float s ≠ none
  | .number _ => True

/-- The loop goes on with the next expense. -/
def Skipped (e : RawExpense) : Prop :=
  e.spotFargate = true ∨ (e.cost = none ∧ (e.metal = true ∨ e.usageAmount = none))

/-- The expense is added up. -/
def Charged (e : RawExpense) : Prop :=
  e.spotFargate = false ∧ (∃ c ∈ e.cost, Numeric float c) ∧ (∃ a ∈ e.usageAmount, Numeric float a) ∧
    e.unit.isSome = true

variable {float} {Q : UncoveredQuery} {e : RawExpense} {raws : List RawExpense}

theorem numeric_iff {v : Value} : Numeric float v ↔ ∃ q, v.toFloat float = .ok q := by
  cases v with
  | text s => simp [Numeric, Value.toFloat, Option.ne_none_iff_exists']
  | number q => exact iff_of_true trivial ⟨q, rfl⟩

theorem readExpense_eq_none : readExpense float Q e = .ok none ↔ Skipped e := by
  unfold readExpense Skipped
  cases hspot : e.spotFargate with
  | true => simp [pure_eq_ok]
  | false =>
    cases hcost : e.cost with
    | none =>
      cases hmetal : e.metal with
      | true => simp [pure_eq_ok]
      | false => cases hamount : e.usageAmount <;> simp [pure_eq_ok, throw, throwThe, MonadExceptOf.throw]
    | some c =>
      simp only [Bool.false_eq_true, if_false, bind_eq_ok, orFail_eq_ok, pure_eq_ok, reduceCtorEq, and_false,
        false_and, exists_false, or_self]

theorem readExpense_eq_some {x : Uncovered} (h : readExpense float Q e = .ok (some x)) :
    Charged float e ∧ x.1 = e.place := by
  unfold readExpense at h
  cases hspot : e.spotFargate with
  | true => simp [hspot, pure_eq_ok] at h
  | false =>
    cases hcost : e.cost with
    | none =>
      rw [hspot, hcost] at h
      simp only [Bool.false_eq_true, if_false] at h
      split at h
      · cases h
      · split at h <;> cases h
    | some c =>
      simp only [hspot, hcost, Bool.false_eq_true, if_false, bind_eq_ok, orFail_eq_ok, pure_eq_ok] at h
      obtain ⟨q, hq, amount, hamount, u, hu, unit, hunit, hx⟩ := h
      refine ⟨⟨hspot, ⟨c, hcost, numeric_iff.mpr ⟨q, hq⟩⟩, ⟨amount, hamount, numeric_iff.mpr ⟨u, hu⟩⟩, ?_⟩, ?_⟩
      · rw [hunit]
        rfl
      · rw [← Option.some.inj hx]

theorem exists_readExpense (h : Charged float e) : ∃ x, readExpense float Q e = .ok (some x) := by
  obtain ⟨hspot, ⟨c, hcost, hc⟩, ⟨amount, hamount, ha⟩, hunit⟩ := h
  obtain ⟨q, hq⟩ := numeric_iff.mp hc
  obtain ⟨u, hu⟩ := numeric_iff.mp ha
  obtain ⟨unit, hunit⟩ := Option.isSome_iff_exists.mp hunit
  refine ⟨(e.place, q, if Text.contains (unit.map Char.toLower) "second" then u / SECONDS_IN_HOUR else u), ?_⟩
  unfold readExpense
  rw [hspot, Option.mem_def.mp hcost]
  simp only [Bool.false_eq_true, if_false, bind_eq_ok, orFail_eq_ok, pure_eq_ok]
  exact ⟨q, hq, amount, hamount, u, hu, unit, hunit, rfl⟩

/-- **The loop over some expenses**: it raises at the first that is neither skipped nor charged, and adds up
those that are charged. -/
theorem foldlM_addExpense : ∀ {raws : List RawExpense} {map map' : NewExpensesMap},
    raws.foldlM (addExpense float Q) map = .ok map' →
      (∀ e ∈ raws, Skipped e ∨ Charged float e) ∧
        ∀ p, (∃ x ∈ map'.rows, x.1 = p) ↔ (∃ x ∈ map.rows, x.1 = p) ∨ ∃ e ∈ raws, ¬ Skipped e ∧ e.place = p
  | [], map, map', h => by
    obtain rfl := pure_eq_ok.mp (List.foldlM_nil.symm.trans h)
    simp
  | e :: raws, map, map', h => by
    obtain ⟨map₁, hstep, hrest⟩ := bind_eq_ok.mp (List.foldlM_cons.symm.trans h)
    obtain ⟨hall, hplaces⟩ := foldlM_addExpense hrest
    obtain ⟨read, hread, hadd⟩ := bind_eq_ok.mp hstep
    cases read with
    | none =>
      have hskipped := readExpense_eq_none.mp hread
      obtain rfl := pure_eq_ok.mp hadd
      refine ⟨List.forall_mem_cons.mpr ⟨Or.inl hskipped, hall⟩, fun p => ?_⟩
      rw [hplaces p]
      simp [hskipped]
    | some x =>
      obtain ⟨hcharged, hx⟩ := readExpense_eq_some hread
      have hskipped : ¬ Skipped e := fun h => by
        have hnone : readExpense float Q e = .ok none := readExpense_eq_none.mpr h
        rw [hread] at hnone
        cases hnone
      obtain rfl := pure_eq_ok.mp hadd
      refine ⟨List.forall_mem_cons.mpr ⟨Or.inr hcharged, hall⟩, fun p => ?_⟩
      rw [hplaces p, Table.exists_key_upsert, List.exists_mem_cons_iff, hx, or_assoc]
      simp only [hskipped, not_false_eq_true, true_and]

theorem exists_foldlM_addExpense : ∀ {raws : List RawExpense} (map : NewExpensesMap),
    (∀ e ∈ raws, Skipped e ∨ Charged float e) → ∃ map', raws.foldlM (addExpense float Q) map = .ok map'
  | [], map, _ => ⟨map, rfl⟩
  | e :: raws, map, h => by
    obtain ⟨he, hraws⟩ := List.forall_mem_cons.mp h
    have hstep : ∃ map₁, addExpense float Q map e = .ok map₁ := by
      unfold addExpense
      obtain hskipped | hcharged := he
      · rw [readExpense_eq_none.mpr hskipped]
        exact ⟨_, rfl⟩
      · obtain ⟨x, hx⟩ := exists_readExpense (Q := Q) hcharged
        rw [hx]
        exact ⟨_, rfl⟩
    obtain ⟨map₁, hmap₁⟩ := hstep
    obtain ⟨map', hmap'⟩ := exists_foldlM_addExpense map₁ hraws
    exact ⟨map', List.foldlM_cons.trans (bind_eq_ok.mpr ⟨map₁, hmap₁, hmap'⟩)⟩

/-! ## What a run computes, and what it inserts -/

variable (float Q raws) in
/-- The values a run has computed; one that raises has computed none. -/
def computed : List Uncovered :=
  match newExpenses float Q raws with
  | .ok newExpensesMap => newExpensesMap.rows
  | .error _ => []

variable (float Q raws) in
/-- The records a run inserts; one that raises inserts none. -/
def inserted (query : List Text → List UncoveredExpense) : List UncoveredUsage :=
  match generateUncoveredUsage float Q raws query with
  | .ok rows => rows
  | .error _ => []

variable (float Q raws) in
/-- A run computes nothing: it skips all it reads, or raises. -/
def ComputesNothing : Prop :=
  (∀ e ∈ getUncoveredRawExpenses Q raws, Skipped e) ∨
    ∃ e ∈ getUncoveredRawExpenses Q raws, ¬ Skipped e ∧ ¬ Charged float e

theorem nodup_computed : ((computed float Q raws).map Prod.fst).Nodup := by
  unfold computed
  split
  · rename_i newExpensesMap _
    exact newExpensesMap.nodup
  · exact List.nodup_nil

/-- The places are those of expenses that were read. -/
theorem exists_of_mem_computed {x : Uncovered} (hx : x ∈ computed float Q raws) :
    ∃ e ∈ getUncoveredRawExpenses Q raws, e.place = x.1 := by
  unfold computed at hx
  split at hx
  · rename_i newExpensesMap hrun
    obtain ⟨-, hplaces⟩ := foldlM_addExpense hrun
    obtain ⟨y, hy, -⟩ | ⟨e, he, -, hplace⟩ := (hplaces x.1).mp ⟨x, hx, rfl⟩
    · exact absurd hy List.not_mem_nil
    · exact ⟨e, he, hplace⟩
  · exact absurd hx List.not_mem_nil

theorem computed_eq_nil : computed float Q raws = [] ↔ ComputesNothing float Q raws := by
  unfold computed ComputesNothing
  split
  · rename_i newExpensesMap hrun
    obtain ⟨hall, hplaces⟩ := foldlM_addExpense hrun
    have hreads : ¬ ∃ e ∈ getUncoveredRawExpenses Q raws, ¬ Skipped e ∧ ¬ Charged float e := by
      rintro ⟨e, he, hskipped, hcharged⟩
      exact (hall e he).elim hskipped hcharged
    rw [or_iff_left hreads]
    constructor
    · intro hnil e he
      by_contra hskipped
      obtain ⟨x, hx, -⟩ := (hplaces e.place).mpr (Or.inr ⟨e, he, hskipped, rfl⟩)
      exact absurd (hnil ▸ hx) List.not_mem_nil
    · intro hskipped
      refine List.eq_nil_iff_forall_not_mem.mpr fun x hx => ?_
      obtain ⟨y, hy, -⟩ | ⟨e, he, hnot, -⟩ := (hplaces x.1).mp ⟨x, hx, rfl⟩
      · exact List.not_mem_nil hy
      · exact hnot (hskipped e he)
  · rename_i err hrun
    refine iff_of_true rfl (or_iff_not_imp_right.mpr fun hnone => ?_)
    simp only [not_exists, not_and, not_not] at hnone
    obtain ⟨map', hmap'⟩ : ∃ map', newExpenses float Q raws = .ok map' :=
      exists_foldlM_addExpense .empty fun e he => or_iff_not_imp_left.mpr (hnone e he)
    exact absurd (hmap'.symm.trans hrun) (by simp)

/-- **Nothing is ever found**: the dates of the map have no time zone. -/
theorem not_hit (u : UncoveredExpense) : ¬ Hit UncoveredExpense.place (computed float Q raws) u := by
  intro hhit
  obtain ⟨x, hx, hp⟩ := hhit.exists_mem
  obtain ⟨e, -, hplace⟩ := exists_of_mem_computed hx
  exact DateTime.naive_ne_replaceUtc _ _ (congrArg (fun p => p.1.2) (hplace.trans hp))

/-- **A run enters all it has computed**, and cancels nothing. -/
theorem inserted_eq (query : List Text → List UncoveredExpense) :
    inserted float Q raws query = (computed float Q raws).map (enterUncovered Q) := by
  have hnot : ∀ u, ¬ Hit UncoveredExpense.place (computed float Q raws) u := not_hit
  unfold inserted generateUncoveredUsage
  unfold computed at hnot ⊢
  cases hrun : newExpenses float Q raws with
  | error err => rfl
  | ok newExpensesMap =>
    rw [hrun] at hnot
    exact renew_of_not_hit fun e _ => hnot e

variable (Q) in
/-- The key of a place of the map. -/
def keyOf (p : (Text × DateTime) × Text × Text × Text) : UncoveredKey :=
  ⟨Q.cloudAccountId, p.1.2.seconds, p.1.1, p.2.2.1, p.2.1, p.2.2.2⟩

theorem asks_of_mem_computed {x : Uncovered} (hx : x ∈ computed float Q raws) : Q.Asks (keyOf Q x.1) := by
  obtain ⟨e, he, hplace⟩ := exists_of_mem_computed hx
  obtain ⟨-, hread⟩ := List.mem_filter.mp he
  obtain ⟨-, hstart, hend, -⟩ := of_decide_eq_true hread
  rw [← hplace]
  exact ⟨rfl, hstart, hend⟩

theorem place_of_keyOf {x y : Uncovered} (hx : x ∈ computed float Q raws) (hy : y ∈ computed float Q raws)
    (h : keyOf Q x.1 = keyOf Q y.1) : x.1 = y.1 := by
  obtain ⟨e, -, hplace⟩ := exists_of_mem_computed hx
  obtain ⟨e', -, hplace'⟩ := exists_of_mem_computed hy
  rw [← hplace, ← hplace'] at h ⊢
  simp only [keyOf, RawExpense.place, UncoveredKey.mk.injEq, DateTime.seconds, true_and] at h
  obtain ⟨hdate, hresource, htype, hos, hlocation⟩ := h
  simp only [RawExpense.place, hdate, hresource, htype, hos, hlocation]

/-- What a run adds to a key it has computed. -/
theorem uncoveredBalance_inserted {x : Uncovered} (hx : x ∈ computed float Q raws)
    (query : List Text → List UncoveredExpense) :
    uncoveredBalance (inserted float Q raws query) (keyOf Q x.1) = (1, x.2) := by
  have hnodup : (((inserted float Q raws query).map UncoveredUsage.toRow).map Row.key).Nodup := by
    rw [inserted_eq, List.map_map, List.map_map]
    refine (List.Nodup.of_map _ nodup_computed).map_on fun y hy z hz h => ?_
    exact List.inj_on_of_nodup_map nodup_computed hy hz (place_of_keyOf hy hz h)
  have hmem : (enterUncovered Q x).toRow ∈ (inserted float Q raws query).map UncoveredUsage.toRow := by
    rw [inserted_eq]
    exact List.mem_map_of_mem (List.mem_map_of_mem hx)
  have hbalance := balance_of_nodup hnodup hmem
  have hworth : (enterUncovered Q x).toRow.worth = (1, x.2) := by
    simp [Row.worth, UncoveredUsage.toRow, enterUncovered, uncoveredUsageExpense]
  exact hbalance.trans hworth

theorem uncoveredBalance_append (table rows : List UncoveredUsage) (k : UncoveredKey) :
    uncoveredBalance (table ++ rows) k = uncoveredBalance table k + uncoveredBalance rows k := by
  rw [uncoveredBalance, uncoveredLedger, List.map_append, ← Multiset.coe_add, balance_add]
  rfl

/-! ## Runs -/

variable (float) in
/-- `fill_date` of the migration that creates the table. -/
def fillDate (cloudAccountId : Uuid) (startDate : ℤ) (raws : List RawExpense) :
    Except Raised (List UncoveredUsage) :=
  (raws.filter fun e => e.cloudAccountId = cloudAccountId ∧ e.startDate = startDate ∧ e.boxUsage ∧
      e.lineItemType = some "Usage".toList).mapM fun e => do
    let cost ← orFail e.publicOnDemandCost (.keyError "pricing/publicOnDemandCost")
    let cost ← cost.toFloat float
    let amount ← orFail e.usageAmount (.keyError "lineItem/UsageAmount")
    let usageHrs ← amount.toFloat float
    let unit ← orFail e.unit (.keyError "pricing/unit")
    pure (uncoveredUsageExpense e.place.2.2.1 e.place.2.1 e.place.2.2.2 cloudAccountId (.naive e.startDate)
      e.resourceId (if Text.contains (unit.map Char.toLower) "second" then usageHrs / SECONDS_IN_HOUR else usageHrs)
      cost 1)

variable (float) in
/-- The tables that migrations and runs reach. -/
inductive Reachable : List UncoveredUsage → Prop
  | empty : Reachable []
  | fill {table rows : List UncoveredUsage} (cloudAccountId : Uuid) (startDate : ℤ) (raws : List RawExpense) :
    Reachable table → fillDate float cloudAccountId startDate raws = .ok rows → Reachable (table ++ rows)
  | run {table : List UncoveredUsage} (Q : UncoveredQuery) (raws : List RawExpense)
    (query : List Text → List UncoveredExpense) :
    Reachable table → Reachable (table ++ inserted float Q raws query)

theorem sign_inserted (query : List Text → List UncoveredExpense) :
    ∀ r ∈ inserted float Q raws query, r.sign = 1 := by
  intro r hr
  rw [inserted_eq] at hr
  obtain ⟨x, -, rfl⟩ := List.mem_map.mp hr
  rfl

theorem sign_fillDate {cloudAccountId : Uuid} {startDate : ℤ} {rows : List UncoveredUsage}
    (h : fillDate float cloudAccountId startDate raws = .ok rows) : ∀ r ∈ rows, r.sign = 1 := by
  intro r hr
  obtain ⟨e, -, he⟩ := (mem_of_mapM_eq_ok h r).mp hr
  simp only [bind_eq_ok, pure_eq_ok] at he
  obtain ⟨_, -, _, -, _, -, _, -, _, -, rfl⟩ := he
  rfl

/-- **No row is ever cancelled.** -/
theorem Reachable.sign {table : List UncoveredUsage} (h : Reachable float table) : ∀ r ∈ table, r.sign = 1 := by
  induction h with
  | empty => exact fun r hr => absurd hr List.not_mem_nil
  | fill _ _ _ _ hrows ih =>
    exact fun r hr => (List.mem_append.mp hr).elim (ih r) (sign_fillDate hrows r)
  | run Q raws query _ ih =>
    exact fun r hr => (List.mem_append.mp hr).elim (ih r) (sign_inserted query r)

/-- The net sign of a key is the number of its rows. -/
theorem uncoveredBalance_fst {table : List UncoveredUsage} (h : ∀ r ∈ table, r.sign = 1) (k : UncoveredKey) :
    (uncoveredBalance table k).1 = table.countP fun r => r.key = k := by
  have hrows : ∀ r ∈ uncoveredLedger table, r.sign = 1 := by
    intro r hr
    obtain ⟨u, hu, rfl⟩ := List.mem_map.mp (Multiset.mem_coe.mp hr)
    exact h u hu
  rw [uncoveredBalance, balance_fst_of_entered hrows, uncoveredLedger, Multiset.coe_countP, List.countP_map]
  rfl

theorem uncoveredBalance_of_forall_ne {table : List UncoveredUsage} {k : UncoveredKey}
    (h : ∀ r ∈ table, r.key ≠ k) : uncoveredBalance table k = 0 := by
  refine balance_of_forall_ne fun r hr => ?_
  obtain ⟨u, hu, rfl⟩ := List.mem_map.mp (Multiset.mem_coe.mp hr)
  exact h u hu

variable (float Q) in
/-- **Two runs settle the table**: each key of the range has net sign `1` and the values the second run has
computed, or net sign `0` if it has computed none, and nothing is inserted when they are those of the first. -/
structure Settles (table : List UncoveredUsage) (raws raws' : List RawExpense)
    (query query' : List Text → List UncoveredExpense) : Prop where
  entered : ∀ x ∈ computed float Q raws', uncoveredBalance
    (table ++ inserted float Q raws query ++ inserted float Q raws' query') (keyOf Q x.1) = (1, x.2)
  cleared : ∀ k, Q.Asks k → (∀ x ∈ computed float Q raws', keyOf Q x.1 ≠ k) → (uncoveredBalance
    (table ++ inserted float Q raws query ++ inserted float Q raws' query') k).1 = 0
  idle : (∀ x, x ∈ computed float Q raws ↔ x ∈ computed float Q raws') → inserted float Q raws' query' = []

section Settles

variable {table : List UncoveredUsage} {raws' : List RawExpense}
  {query query' : List Text → List UncoveredExpense}

/-- What the second run finds entered it cannot settle. -/
theorem Settles.not_asks (h : Settles float Q table raws raws' query query') (htable : Reachable float table) :
    ∀ r ∈ table ++ inserted float Q raws query, ¬ Q.Asks r.key := by
  intro r hr hasks
  have hbefore := uncoveredBalance_fst (htable.run Q raws query).sign r.key
  have hpos : 0 < (table ++ inserted float Q raws query).countP fun u => u.key = r.key :=
    List.countP_pos_iff.mpr ⟨r, hr, decide_eq_true rfl⟩
  by_cases hcomputed : ∃ x ∈ computed float Q raws', keyOf Q x.1 = r.key
  · obtain ⟨x, hx, hkey⟩ := hcomputed
    have hafter := congrArg Prod.fst (h.entered x hx)
    rw [uncoveredBalance_append, uncoveredBalance_inserted hx, hkey, Prod.fst_add] at hafter
    omega
  · have hafter := h.cleared r.key hasks fun x hx hkey => hcomputed ⟨x, hx, hkey⟩
    have hsign : ∀ u ∈ inserted float Q raws' query', u.sign = 1 := sign_inserted query'
    have hsecond := uncoveredBalance_fst hsign r.key
    rw [uncoveredBalance_append, Prod.fst_add] at hafter
    omega

/-- **Two runs settle the table** exactly when the table has no row in the range and the first computes
nothing. -/
theorem settles_iff (htable : Reachable float table) :
    Settles float Q table raws raws' query query' ↔
      (∀ r ∈ table, ¬ Q.Asks r.key) ∧ ComputesNothing float Q raws := by
  constructor
  · intro h
    have hnone := h.not_asks htable
    refine ⟨fun r hr => hnone r (List.mem_append_left _ hr), computed_eq_nil.mp ?_⟩
    refine List.eq_nil_iff_forall_not_mem.mpr fun x hx => ?_
    have hmem : enterUncovered Q x ∈ inserted float Q raws query := by
      rw [inserted_eq]
      exact List.mem_map_of_mem hx
    exact hnone _ (List.mem_append_right _ hmem) (asks_of_mem_computed hx)
  · rintro ⟨hnone, hnothing⟩
    have hnil := computed_eq_nil.mpr hnothing
    have hfirst : inserted float Q raws query = [] := by rw [inserted_eq, hnil, List.map_nil]
    have hafter : ∀ k, Q.Asks k → uncoveredBalance
        (table ++ inserted float Q raws query ++ inserted float Q raws' query') k =
          uncoveredBalance (inserted float Q raws' query') k := by
      intro k hasks
      have hzero : uncoveredBalance table k = 0 :=
        uncoveredBalance_of_forall_ne fun r hr hkey => hnone r hr (hkey ▸ hasks)
      rw [hfirst, List.append_nil, uncoveredBalance_append, hzero, zero_add]
    refine ⟨fun x hx => ?_, fun k hasks hcomputed => ?_, fun hsame => ?_⟩
    · rw [hafter _ (asks_of_mem_computed hx), uncoveredBalance_inserted hx]
    · rw [hafter k hasks, uncoveredBalance_of_forall_ne]
      · rfl
      · intro r hr
        rw [inserted_eq] at hr
        obtain ⟨x, hx, rfl⟩ := List.mem_map.mp hr
        exact hcomputed x hx
    · have hnil' : computed float Q raws' = [] :=
        List.eq_nil_iff_forall_not_mem.mpr fun x hx => List.not_mem_nil (hnil ▸ (hsame x).mpr hx)
      rw [inserted_eq, hnil', List.map_nil]

end Settles

end Run

/-! ## The same run twice -/

namespace Repeated

/-- Account `1`, on the first day. -/
def query : UncoveredQuery := ⟨1, 0, 86399⟩

/-- A day of instance `i`. -/
def expense : RawExpense where
  cloudAccountId := 1
  startDate := 0
  boxUsage := true
  lineItemType := some "Usage".toList
  resourceId := ['i']
  unit := some "Hrs".toList
  usageAmount := some (.number 24)
  unblendedCost := none
  publicOnDemandCost := some (.number 2)
  operatingSystem := none
  instanceType := none
  usagetype := none
  region := none
  availabilityZone := none

/-- What the first run enters for it. -/
def row : UncoveredUsage := ⟨1, 0, ['i'], [], [], [], 2, 24, 1⟩

/-- What the second run is given of it. -/
def found : UncoveredExpense := ⟨[], [], [], ['i'], .naive 0, 2, 24⟩

theorem inserted_expense : inserted (fun _ => none) query [expense] (fun _ => []) = [row] := by
  decide +kernel

end Repeated

/-- With nothing to enter before, a run settles the table. -/
theorem settles_first : Settles (fun _ => none) Repeated.query [] [] [Repeated.expense] (fun _ => [])
    (fun _ => []) :=
  (settles_iff .empty).mpr ⟨fun _ hr => absurd hr List.not_mem_nil, Or.inl fun _ he => absurd he List.not_mem_nil⟩

/-- The same run over again enters a second row. -/
theorem repeated_not_settles : Reachable (fun _ => none) [] ∧
    ¬ Settles (fun _ => none) Repeated.query [] [Repeated.expense] [Repeated.expense] (fun _ => [])
      (fun _ => [Repeated.found]) := by
  refine ⟨.empty, fun h => h.not_asks .empty Repeated.row ?_ ?_⟩
  · rw [Repeated.inserted_expense]
    exact List.mem_singleton_self _
  · exact ⟨rfl, le_refl (0 : ℤ), by decide⟩

end AwsProcessor
