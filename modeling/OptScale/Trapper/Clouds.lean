import OptScale.Diworker.RawDocuments
import OptScale.Trapper.Processor

/-!
# Trapper/Clouds — the processors of the clouds

Each cloud has its own way to tell a traffic expense, the regions it is between, and its usage.  AWS, Azure and
Alibaba can always tell the regions, so their processors refuse no expense whose usage is a number
(`aws_reads`, `azure_reads`, `alibaba_reads`); those of GCP and Nebius fail on a name of an unknown form.
-/

open Fallible

namespace Trapper

/-- How a usage that is written out is read: `float`. -/
abbrev ReadFloat := Text → Option ℚ

variable (float : ReadFloat)

/-- `e.get(field)`, where it is a text. -/
def textAt (e : ExpenseDocument) (field : String) : Option Text :=
  match e.lookup field with
  | some (.text s) => some s
  | _ => none

/-- The first that is not empty. -/
def firstOf (texts : List (Option Text)) (default : Text) : Text :=
  ((texts.filterMap id).find? (· ≠ [])).getD default

/-- The field is this text. -/
def hasText (e : ExpenseDocument) (field text : String) : Bool := e.lookup field = some (.text text.toList)

/-- `'cost': {'$ne': 0}` -/
def costNotZero (e : ExpenseDocument) : Bool := e.lookup "cost" ≠ some (.number 0)

/-- `float(e.get(field) or 0)` -/
def usageAt (e : ExpenseDocument) (field : String) : Except Failure ℚ :=
  match e.lookup field with
  | some (.number q) => .ok q
  | some (.text []) => .ok 0
  | some (.text s) => orFail (float s) (.python "ValueError")
  | some _ => .error (.python "TypeError")
  | none => .ok 0

/-- `extract_resource_id` -/
def extractResourceId (e : ExpenseDocument) : Text := (textAt e "resource_id").getD "Unknown".toList

/-! ## AWS -/

/-- `AwsTrafficExpenseProcessor` -/
def aws : BaseTrafficExpenseProcessor ExpenseDocument where
  filters e := hasText e "product/servicecode" "AWSDataTransfer" && hasText e "pricing/term" "OnDemand" &&
    !hasText e "lineItem/LineItemType" "Credit" && costNotZero e
  extractResourceId := extractResourceId
  extractLocationsAndUsage e := do
    let usage ← usageAt float e "lineItem/UsageAmount"
    pure (firstOf [textAt e "product/fromRegionCode", textAt e "product_from_region_code",
        textAt e "product/fromLocation"] "Unknown".toList,
      firstOf [textAt e "product/toRegionCode", textAt e "product_to_region_code",
        textAt e "product/toLocation"] "Unknown".toList, usage)

/-! ## Azure -/

/-- `AzureTrafficExpenseProcessor`; the fields of `meter_details` are kept by their paths. -/
def azure : BaseTrafficExpenseProcessor ExpenseDocument where
  filters e := hasText e "meter_details.meter_category" "Bandwidth" && costNotZero e
  extractResourceId := extractResourceId
  extractLocationsAndUsage e := do
    let usage ← usageAt float e "usage_quantity"
    let destination := firstOf [textAt e "meter_details.meter_location", textAt e "meter_details.meter_sub_category"] []
    pure (firstOf [textAt e "resource_location"] "Unknown".toList,
      if destination = [] ∨ destination = "Zone 1".toList then "External".toList else destination, usage)

/-! ## Alibaba -/

/-- `_zone_to_region` -/
def zoneToRegion (zone : Text) : Text :=
  let parts := zone.splitOn '-'
  if parts.length = 3 ∧ parts.head? = some "cn".toList then ['-'].intercalate (parts.take 2)
  else if 3 ≤ parts.length ∧ parts.head? ≠ some "cn".toList then
    let last := parts.getLastD []
    if Text.isDigit last then zone
    else
      let number := last.filter Char.isDigit
      ['-'].intercalate (parts.dropLast ++ [if number = [] then ['1'] else number])
  else zone

/-- `AlibabaTrafficExpenseProcessor` -/
def alibaba : BaseTrafficExpenseProcessor ExpenseDocument where
  filters e := hasText e "BillingItemCode" "NetworkOut" && costNotZero e
  extractResourceId := extractResourceId
  extractLocationsAndUsage e := do
    let usage ← usageAt float e "Usage"
    let zone := (textAt e "Zone").map fun zone => if firstOf [textAt e "Region"] [] = [] then zoneToRegion zone else zone
    pure (firstOf [textAt e "Region", zone] "Unknown".toList,
      if firstOf [textAt e "InternetIP"] [] = [] then "External".toList else "Unknown".toList, usage)

/-! ## GCP -/

/-- What stands before and after the last `separator` that is followed by what is asked for: where a greedy group
ends. -/
def splitAtLast (separator : Text) (ok : Text → Bool) : Text → Option (Text × Text)
  | [] => if separator = [] ∧ ok [] then some ([], []) else none
  | c :: s => match splitAtLast separator ok s with
    | some (before, after) => some (c :: before, after)
    | none => if separator <+: c :: s ∧ ok ((c :: s).drop separator.length)
        then some ([], (c :: s).drop separator.length) else none

/-- `TRAFFIC_PATTERN_REGEX`: `^Network (.*) Egress(.*)` -/
def matchTraffic (sku : Text) : Option (Text × Text) :=
  (List.dropPrefix? sku "Network ".toList).bind fun rest => splitAtLast " Egress".toList (fun _ => true) rest

/-- `TRAFFIC_LOCATION_REGEX`: `^from (.+) to (.+)$` -/
def matchLocation (location : Text) : Option (Text × Text) :=
  (List.dropPrefix? location "from ".toList).bind fun rest =>
    (splitAtLast " to ".toList (· ≠ []) rest).filter fun groups => groups.1 ≠ []

/-- `GcpTrafficExpenseProcessor`; `hashToId` is `r_hash_to_r_id`. -/
def gcp (hashToId : Text → Option Text) : BaseTrafficExpenseProcessor ExpenseDocument where
  filters e := ((textAt e "sku").bind matchTraffic).isSome && costNotZero e
  extractResourceId e := firstOf [(textAt e "resource_id").or ((textAt e "resource_hash").bind hashToId)]
    "Unknown".toList
  extractLocationsAndUsage e := do
    let groups ← orFail ((textAt e "sku").bind matchTraffic) (.python "AttributeError")
    let region := textAt e "region"
    let locations ←
      if groups.1 ∈ ["Inter Region", "Internet", "Google", "Vpn Inter Region", "Vpn Internet"].map String.toList then do
        let location ← orFail (matchLocation (groups.2.dropWhile Text.isSpaceChar)) (.python "AttributeError")
        pure (firstOf [region] location.1, location.2)
      else if groups.1 ∈ ["Internet Standard Tier", "Internet Premium Tier"].map String.toList then
        pure (region.getD [], "External".toList)
      else if groups.1 ∈ ["Intra Zone", "Inter Zone"].map String.toList then
        pure (region.getD [], region.getD [])
      else pure ("Unknown".toList, "Unknown".toList)
    let usage ← usageAt float e "usage_amount_in_pricing_units"
    pure (firstOf [some locations.1] "Unknown".toList, firstOf [some locations.2] "Unknown".toList, usage)

/-! ## Nebius -/

/-- `NebiusTrafficExpenseProcessor`; `resources` finds the region of a resource, or else its zone, if there is the
resource. -/
def nebius (lower : Text → Text) (resources : Option Text → Option (Option Text)) :
    BaseTrafficExpenseProcessor ExpenseDocument where
  filters e := hasText e "service_name" "VPC" && ((textAt e "sku_name").any fun sku => sku.contains "traffic")
  extractResourceId := extractResourceId
  extractLocationsAndUsage e := do
    let sku := lower ((textAt e "sku_name").getD [])
    let locations ← match resources (textAt e "resource_id") with
      | none => pure ("Unknown".toList, "Unknown".toList)
      | some region =>
        let known := firstOf [region] "Unknown".toList
        if sku.contains "egress" then pure (known, "Unknown".toList)
        else if sku.contains "ingress" then pure ("Unknown".toList, known)
        else .error (.python "UnboundLocalError")
    let usage ← usageAt float e "pricing_quantity"
    pure (locations.1, locations.2, usage)

/-! ## What can be read -/

/-- The usage of a traffic expense is a number, or not there. -/
def HasUsage (field : String) (e : ExpenseDocument) : Prop := ∃ q, usageAt float e field = .ok q

variable {float} {e : ExpenseDocument}

theorem aws_reads (h : HasUsage float "lineItem/UsageAmount" e) :
    ∃ x, (aws float).extractLocationsAndUsage e = .ok x := by
  obtain ⟨q, hq⟩ := h
  exact ⟨_, bind_eq_ok.mpr ⟨q, hq, rfl⟩⟩

theorem azure_reads (h : HasUsage float "usage_quantity" e) :
    ∃ x, (azure float).extractLocationsAndUsage e = .ok x := by
  obtain ⟨q, hq⟩ := h
  exact ⟨_, bind_eq_ok.mpr ⟨q, hq, rfl⟩⟩

theorem alibaba_reads (h : HasUsage float "Usage" e) :
    ∃ x, (alibaba float).extractLocationsAndUsage e = .ok x := by
  obtain ⟨q, hq⟩ := h
  exact ⟨_, bind_eq_ok.mpr ⟨q, hq, rfl⟩⟩

end Trapper
