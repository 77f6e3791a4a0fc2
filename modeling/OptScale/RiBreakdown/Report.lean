import OptScale.Foundations.Sweep
import OptScale.RiBreakdown.Flavors
import OptScale.Risp.Base

/-!
# RiBreakdown/Report — `RiBreakdownController.get`

What reservations covered, by day and account.  Three queries sum up the two tables of signed rows by account
and date, each leaving out the groups whose signs do not add up to more than zero.  The totals of the first two
decide which account is told on which date; what is missing on a date, and the dates that are missing, are
filled up with zeros.

The requested accounts are filtered by a loop that removes from the list it runs over (`Sweep.sweep`).  Of two
neighbours that are not supported the second stays, and has no type to be looked up (`get_complete_iff`).
-/

open Fallible

namespace RiBreakdownController

open RispProcessorBase (RiSpUsage UncoveredUsage)

/-! ## The sources -/

/-- `SUPPORTED_CLOUD_TYPES` -/
def SUPPORTED_CLOUD_TYPES : List CloudType := [.AWS_CNR, .AZURE_CNR]

/-- `get_nil_uuid` -/
def nilUuid : Uuid := 0

/-- What a report reads.  The ledgers date their rows by day. -/
structure Source where
  /-- The name of the organization, if there is one. -/
  organization : Option Text
  cloudAccounts : Table CloudAccount.id
  riSpUsage : List RiSpUsage
  uncoveredUsage : List UncoveredUsage
  /-- The answers of `get_overprovision_ch_expenses`. -/
  getOverprovisionChExpenses : List Uuid → ℤ → ℤ → List OverprovisionExpense

variable (src : Source) (organizationId : Uuid)

/-- The accounts of `get_organization_and_cloud_accs`. -/
def organizationCloudAccs : List CloudAccount :=
  src.cloudAccounts.rows.filter fun a => a.organizationId = organizationId ∧ a.deletedAt = 0

/-- `get_accounts_map` -/
def getAccountsMap : Dict Uuid AccountInfo :=
  Dict.setAll CloudAccount.id (fun a => ⟨a.type, a.name⟩)
    ((organizationCloudAccs src organizationId).filter fun a => a.type ∈ SUPPORTED_CLOUD_TYPES)

/-- `get_organization_and_cloud_accs` and `check_filters` -/
def checkRequest (cloudAccountIds : List Uuid) : Except Failure Unit := do
  let name ← orFail src.organization (.notFound .OE0002 ["Organization", toString organizationId])
  let accounts := organizationCloudAccs src organizationId
  require (accounts ≠ []) (.failedDependency .OE0445 [String.ofList name, toString organizationId])
  let found := nilUuid :: accounts.map CloudAccount.id
  let extraIds := cloudAccountIds.filter fun x => x ∉ found
  require (extraIds = []) (.notFound .OE0470 ["cloud_account_id", toString extraIds])

/-- `filter_cloud_accounts`; no ids are all accounts. -/
def filterCloudAccounts (cloudAccountIds : List Uuid) (cloudAccsMap : Dict Uuid AccountInfo) : List Uuid :=
  if cloudAccountIds = [] then cloudAccsMap.keys.reverse
  else Sweep.sweep (fun x => decide (x ∈ cloudAccsMap)) cloudAccountIds

/-! ## The queries -/

/-- `GROUP BY cloud_account_id, date HAVING sum(sign) > 0` -/
def liveGroups {R : Type} (key : R → Uuid × ℤ) (sign : R → ℤ) (rows : List R) : List ((Uuid × ℤ) × List R) :=
  ((rows.map key).dedup.filter fun k => 0 < ((rows.filter fun r => key r = k).map sign).sum).map
    fun k => (k, rows.filter fun r => key r = k)

def uncoveredKey (r : UncoveredUsage) : Uuid × ℤ := (r.cloudAccountId, r.date)

def usageKey (r : RiSpUsage) : Uuid × ℤ := (r.cloudAccountId, r.date)

variable (startDate endDate : ℤ) (cloudAccountIds : List Uuid)

/-- The `WHERE` of the queries. -/
def Asked (k : Uuid × ℤ) : Prop := k.1 ∈ cloudAccountIds ∧ startDate ≤ k.2 ∧ k.2 ≤ endDate

instance (k : Uuid × ℤ) : Decidable (Asked startDate endDate cloudAccountIds k) :=
  inferInstanceAs (Decidable (_ ∧ _))

/-- The groups of `uncovered_usage`. -/
def uncoveredGroups : List ((Uuid × ℤ) × List UncoveredUsage) :=
  liveGroups uncoveredKey UncoveredUsage.sign
    (src.uncoveredUsage.filter fun r => Asked startDate endDate cloudAccountIds (uncoveredKey r))

/-- The groups of `ri_sp_usage`. -/
def coveredGroups : List ((Uuid × ℤ) × List RiSpUsage) :=
  liveGroups usageKey RiSpUsage.sign
    (src.riSpUsage.filter fun r => Asked startDate endDate cloudAccountIds (usageKey r))

/-- The groups of its reservations, of `get_usage_breakdown`. -/
def riGroups : List ((Uuid × ℤ) × List RiSpUsage) :=
  liveGroups usageKey RiSpUsage.sign
    (src.riSpUsage.filter fun r => Asked startDate endDate cloudAccountIds (usageKey r) ∧ r.offerType = .ri)

/-- `sum(f * sign)` -/
def signedSum {R : Type} (sign : R → ℤ) (f : R → ℚ) (rows : List R) : ℚ :=
  (rows.map fun r => f r * (sign r : ℚ)).sum

/-- What is told of an account on a date. -/
structure TotalStats where
  usage : ℚ := 0
  costWithOffer : ℚ := 0
  costWithoutOffer : ℚ := 0
  deriving DecidableEq

/-- What was not covered. -/
def uncoveredTotal (rows : List UncoveredUsage) : TotalStats where
  usage := signedSum UncoveredUsage.sign UncoveredUsage.usage rows
  costWithOffer := signedSum UncoveredUsage.sign UncoveredUsage.cost rows
  costWithoutOffer := signedSum UncoveredUsage.sign UncoveredUsage.cost rows

/-- And what was. -/
def addCovered (old : TotalStats) (rows : List RiSpUsage) : TotalStats where
  usage := old.usage + signedSum RiSpUsage.sign RiSpUsage.usage rows
  costWithOffer := old.costWithOffer + signedSum RiSpUsage.sign RiSpUsage.offerCost rows
  costWithoutOffer := old.costWithoutOffer + signedSum RiSpUsage.sign RiSpUsage.onDemandCost rows

/-- `get_total_stats` -/
def getTotalStats : Dict Uuid (Dict ℤ TotalStats) :=
  (coveredGroups src startDate endDate cloudAccountIds).foldl
    (fun total row => total.setAt row.1.1 row.1.2 (addCovered ((total.lookupAt row.1.1 row.1.2).getD {}) row.2))
    ((uncoveredGroups src startDate endDate cloudAccountIds).foldl
      (fun total row => total.setAt row.1.1 row.1.2 (uncoveredTotal row.2)) ∅)

/-- A row of `get_usage_breakdown`, added. -/
def addUsage (old : UsageStats) (rows : List RiSpUsage) : UsageStats := { old with
  usage := old.usage + signedSum RiSpUsage.sign RiSpUsage.usage rows
  riNormUsage := old.riNormUsage + signedSum RiSpUsage.sign (fun r => r.usage * r.riNormFactor) rows
  costWithoutOffer := old.costWithoutOffer + signedSum RiSpUsage.sign RiSpUsage.onDemandCost rows
  costWithOffer := old.costWithOffer + signedSum RiSpUsage.sign RiSpUsage.offerCost rows }

/-- `get_cloud_account_usage_stats` -/
def getCloudAccountUsageStats : Dict Uuid (Dict ℤ UsageStats) :=
  (riGroups src startDate endDate cloudAccountIds).foldl
    (fun usage row => usage.setAt row.1.1 row.1.2 (addUsage ((usage.lookupAt row.1.1 row.1.2).getD {}) row.2)) ∅

/-- The query of `get_flavors`. -/
def flavorRows (cloudAccsMap : Dict Uuid AccountInfo) : List FlavorRow :=
  ((src.riSpUsage.filter fun r => Asked startDate endDate cloudAccsMap.keys (usageKey r) ∧ r.offerType = .ri ∧
    r.instanceType ≠ []).map fun r => ⟨r.instanceType, r.riNormFactor, r.cloudAccountId⟩).dedup

/-! ## The result -/

/-- An account on a date. -/
structure Entry where
  cloudAccountId : Uuid
  totalUsageHrs : ℚ
  costWithoutOffer : ℚ
  costWithOffer : ℚ
  riUsageHrs : ℚ
  riOverprovisionHrs : Dict Text ℚ
  riOverprovision : ℚ
  riCostWithoutOffer : ℚ
  riCostWithOffer : ℚ
  cloudAccountType : Option CloudType
  cloudAccountName : Option Text

/-- `round(x, 10)`: to even, in the middle. -/
def round10 (x : ℚ) : ℚ :=
  let whole : ℤ := ⌊x * 10 ^ 10⌋
  let rest : ℚ := x * 10 ^ 10 - whole
  (if 1 / 2 < rest ∨ rest = 1 / 2 ∧ whole % 2 = 1 then whole + 1 else whole) / 10 ^ 10

variable (cloudAccsMap : Dict Uuid AccountInfo) (cloudAccFlavorRate : Dict Uuid (Dict Text ℚ))

/-- `format_result`: what it appends. -/
def formatEntry (cloudAccountId : Uuid) (totalStats : TotalStats) (riSpStats : UsageStats) : Entry where
  cloudAccountId := cloudAccountId
  totalUsageHrs := totalStats.usage
  costWithoutOffer := totalStats.costWithoutOffer
  costWithOffer := totalStats.costWithOffer
  riUsageHrs := riSpStats.usage
  riOverprovisionHrs :=
    let rounded := Dict.collect (fun _ hrs => some (round10 hrs)) riSpStats.overprovisionHrs
      riSpStats.overprovisionHrs
    Dict.collect (fun flavor _ => if flavor ∈ rounded then none else some 0)
      ((cloudAccFlavorRate.lookup cloudAccountId).getD ∅) rounded
  riOverprovision := round10 riSpStats.overprovision
  riCostWithoutOffer := riSpStats.costWithoutOffer
  riCostWithOffer := riSpStats.costWithOffer
  cloudAccountType := (cloudAccsMap.lookup cloudAccountId).map AccountInfo.type
  cloudAccountName := (cloudAccsMap.lookup cloudAccountId).map AccountInfo.name

/-- `_empty_stats` -/
def emptyStats (cloudAccountId : Uuid) : Entry where
  cloudAccountId := cloudAccountId
  totalUsageHrs := 0
  costWithoutOffer := 0
  costWithOffer := 0
  riUsageHrs := 0
  riOverprovisionHrs := Dict.collect (fun _ _ => some 0) ((cloudAccFlavorRate.lookup cloudAccountId).getD ∅) ∅
  riOverprovision := 0
  riCostWithoutOffer := 0
  riCostWithOffer := 0
  cloudAccountType := (cloudAccsMap.lookup cloudAccountId).map AccountInfo.type
  cloudAccountName := (cloudAccsMap.lookup cloudAccountId).map AccountInfo.name

/-- The loop of `get` over the accounts and their dates. -/
def formatTotals (total : Dict Uuid (Dict ℤ TotalStats)) (usage : Dict Uuid (Dict ℤ UsageStats)) :
    Dict ℤ (List Entry) :=
  cloudAccountIds.foldl (fun result cloudAccountId =>
    ((total.lookup cloudAccountId).getD ∅).entries.foldl (fun result e =>
      result.appendTo e.1 (formatEntry cloudAccsMap cloudAccFlavorRate cloudAccountId e.2
        ((usage.lookupAt cloudAccountId e.1).getD {}))) result) ∅

/-- `breakdown_dates`, from a date on. -/
def breakdownDatesFrom (date endDate : ℤ) : List ℤ :=
  if date < endDate then date :: breakdownDatesFrom (date + 86400) endDate else []
termination_by (endDate - date).toNat

/-- `breakdown_dates` -/
def breakdownDates : List ℤ := breakdownDatesFrom (startDate - startDate % 86400) endDate

/-- The accounts a date lacks. -/
def cloudAccsToFill (dateResult : List Entry) : List Uuid :=
  cloudAccountIds.dedup.filter fun x => x ∉ dateResult.map Entry.cloudAccountId

/-- `fill_empty_dates` -/
def fillEmptyDates (result : Dict ℤ (List Entry)) (dates : List ℤ) : Dict ℤ (List Entry) :=
  if cloudAccountIds = [] then result
  else
    let filled := Dict.collect (fun _ dateResult => some (dateResult ++
      (cloudAccsToFill cloudAccountIds dateResult).map (emptyStats cloudAccsMap cloudAccFlavorRate))) result result
    (dates.filter fun x => x ∉ filled).foldl (fun r date =>
      r.set date (cloudAccountIds.map (emptyStats cloudAccsMap cloudAccFlavorRate))) filled

/-- `get` -/
def get (requested : List Uuid) : Except Failure (Dict ℤ (List Entry)) := do
  checkRequest src organizationId requested
  let cloudAccsMap := getAccountsMap src organizationId
  let cloudAccountIds := filterCloudAccounts requested cloudAccsMap
  let flavors ← getFlavors cloudAccsMap (flavorRows src startDate endDate cloudAccsMap)
  let total := getTotalStats src startDate endDate cloudAccountIds
  let usage := getCloudAccountUsageStats src startDate endDate cloudAccountIds
  let rates ← RiBreakdownController.cloudAccFlavorRate cloudAccsMap flavors cloudAccountIds
  let usage ← fillOverprovisioning rates usage (src.getOverprovisionChExpenses usage.keys startDate endDate)
  pure (fillEmptyDates cloudAccountIds cloudAccsMap rates
    (formatTotals cloudAccountIds cloudAccsMap rates total usage) (breakdownDates startDate endDate))

end RiBreakdownController
