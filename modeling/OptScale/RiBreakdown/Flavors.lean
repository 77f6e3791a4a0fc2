import OptScale.Foundations.Fallible
import OptScale.Foundations.Grouped
import OptScale.Rest.Database

/-!
# RiBreakdown/Flavors — what an hour of an instance counts for

Reservations are counted in normalized hours, so the hours a reservation leaves unused are told for each
flavor by its factor.  `get_flavors` finds it by the size in the flavor's name, the first of `RI_FACTOR_MAP` that
is in it; a name that has none goes by the factor of its usage, and a database has none.

A factor is never zero (`getFlavors_spec`), so neither it nor a cost per hour that was checked before divides
by zero, and what a flavor is told times its factor are the hours of the account (`flavors_agree`).
-/

open Fallible

namespace RiBreakdownController

/-- `RI_FACTOR_MAP`, in its order. -/
def RI_FACTOR_MAP : List (String × ℚ) :=
  [("nano", 1 / 4), ("micro", 1 / 2), ("small", 1), ("medium", 2), ("large", 4), ("xlarge", 8), ("2xlarge", 16),
    ("4xlarge", 32), ("8xlarge", 64), ("10xlarge", 80), ("16xlarge", 128), ("32xlarge", 256)]

/-- An account of `get_accounts_map`. -/
structure AccountInfo where
  type : CloudType
  name : Text
  deriving DecidableEq

/-! ## The factors -/

/-- A row of the query of `get_flavors`. -/
structure FlavorRow where
  flavorName : Text
  normFactor : ℚ
  cloudAccId : Uuid
  deriving DecidableEq

/-- `flavor_factor_map` and `cloud_type_flavors` -/
structure Flavors where
  factors : Dict Text ℚ := ∅
  typeFlavors : Dict CloudType (List Text) := ∅

/-- The first size in a name. -/
def sizeIn (flavorName : Text) : Option (String × ℚ) := RI_FACTOR_MAP.find? fun e => flavorName.contains e.1

/-- What a row makes of `flavor_factor_map`. -/
def setFactor (flavorFactorMap : Dict Text ℚ) (flavorName : Text) (normFactor : ℚ) : Dict Text ℚ :=
  -- AWS RDS instances don't have normalization factor
  if flavorName.contains "db." then flavorFactorMap.set flavorName 1
  else
    let flavorFactorMap := if normFactor ≠ 0 then flavorFactorMap.set flavorName normFactor else flavorFactorMap
    match sizeIn flavorName with
    | some (_, value) => flavorFactorMap.set flavorName value
    | none => flavorFactorMap

/-- A turn of the loop of `get_flavors`. -/
def addFlavor (cloudAccountsMap : Dict Uuid AccountInfo) (s : Flavors) (flavor : FlavorRow) :
    Except Failure Flavors := do
  let account ← orFail (cloudAccountsMap.lookup flavor.cloudAccId) (.python "KeyError")
  pure {
    factors := setFactor s.factors flavor.flavorName flavor.normFactor
    typeFlavors := s.typeFlavors.set account.type
      (((s.typeFlavors.lookup account.type).getD []).insert flavor.flavorName) }

/-- `get_flavors`, from the rows of its query. -/
def getFlavors (cloudAccountsMap : Dict Uuid AccountInfo) (flavors : List FlavorRow) : Except Failure Flavors :=
  flavors.foldlM (addFlavor cloudAccountsMap) {}

/-- `cloud_acc_flavor_rate` -/
def cloudAccFlavorRate (cloudAccsMap : Dict Uuid AccountInfo) (flavors : Flavors) (cloudAccountIds : List Uuid) :
    Except Failure (Dict Uuid (Dict Text ℚ)) :=
  cloudAccountIds.foldlM (fun rates cloudAccId => do
    let account ← orFail (cloudAccsMap.lookup cloudAccId) (.python "KeyError")
    pure (rates.set cloudAccId (Dict.setAll id (fun x => (flavors.factors.lookup x).getD 1)
      ((flavors.typeFlavors.lookup account.type).getD [])))) ∅

/-! ## The unused hours -/

/-- A row of `get_overprovision_ch_expenses`. -/
structure OverprovisionExpense where
  cloudAccId : Option Uuid
  date : ℤ
  offerCost : ℚ
  expectedCost : Option ℚ
  nUsage : ℚ

/-- A division of Python's. -/
def divide (a b : ℚ) : Except Failure ℚ := if b = 0 then .error (.python "ZeroDivisionError") else .ok (a / b)

/-- `overprov_exp` -/
def overprovExp (data : OverprovisionExpense) : ℚ :=
  match data.expectedCost with
  | some expectedCost =>
    if expectedCost ≠ 0 ∧ expectedCost > data.offerCost then expectedCost - data.offerCost else 0
  | none => 0

/-- `overprov_n_hrs` -/
def overprovNHrs (data : OverprovisionExpense) : Except Failure ℚ :=
  if data.nUsage ≠ 0 ∧ data.offerCost ≠ 0 then do
    let costPerNormHr ← divide data.offerCost data.nUsage
    divide (overprovExp data) costPerNormHr
  else pure 0

/-- `cloud_acc_overprov` and `cloud_acc_overprov_n_hrs` -/
structure Overprovision where
  cost : Dict (Option Uuid) (Dict ℤ ℚ) := ∅
  nHrs : Dict (Option Uuid) (Dict ℤ ℚ) := ∅

/-- A turn of the first loop of `fill_overprovisioning`. -/
def addOverprovision (s : Overprovision) (data : OverprovisionExpense) : Except Failure Overprovision := do
  let nHrs ← overprovNHrs data
  pure { cost := s.cost.addAt data.cloudAccId data.date (overprovExp data)
         nHrs := s.nHrs.addAt data.cloudAccId data.date nHrs }

/-- The usage of an account on a day. -/
structure UsageStats where
  usage : ℚ := 0
  riNormUsage : ℚ := 0
  costWithoutOffer : ℚ := 0
  costWithOffer : ℚ := 0
  overprovision : ℚ := 0
  overprovisionHrs : Dict Text ℚ := ∅

/-- What the ledger has of it. -/
def UsageStats.sums (s : UsageStats) : ℚ × ℚ × ℚ := (s.usage, s.costWithoutOffer, s.costWithOffer)

/-- What the second loop sets of a day. -/
def fillStats (cloudAccFlavorRate : Dict Uuid (Dict Text ℚ)) (s : Overprovision) (cloudAccId : Uuid) (date : ℤ)
    (data : UsageStats) : Except Failure UsageStats := do
  let riOverprovNormHrs := (s.nHrs.lookupAt (some cloudAccId) date).getD 0
  let overprovisionHrs ← Dict.setItemsM (fun _ riNormFactor => divide riOverprovNormHrs riNormFactor)
    ((cloudAccFlavorRate.lookup cloudAccId).getD ∅) data.overprovisionHrs
  pure { data with
    overprovision := (s.cost.lookupAt (some cloudAccId) date).getD 0
    overprovisionHrs := overprovisionHrs }

/-- `fill_overprovisioning`, from the rows of its query. -/
def fillOverprovisioning (cloudAccFlavorRate : Dict Uuid (Dict Text ℚ))
    (cloudAccountUsage : Dict Uuid (Dict ℤ UsageStats)) (expenses : List OverprovisionExpense) :
    Except Failure (Dict Uuid (Dict ℤ UsageStats)) := do
  let s ← expenses.foldlM addOverprovision {}
  cloudAccountUsage.mapItemsM (fillStats cloudAccFlavorRate s)

/-! ## The size in a name -/

section Sizes

variable {α : Type*} {c : α} {part a b : List α}

/-- What is on neither side of a separator is not across it. -/
theorem infix_append_cons_iff (hc : c ∉ part) : part <:+: a ++ c :: b ↔ part <:+: a ∨ part <:+: b := by
  rw [List.infix_append_iff, List.infix_cons_iff]
  constructor
  · rintro (h | (h | h) | ⟨l₁, l₂, rfl, h₁, h₂⟩)
    · exact Or.inl h
    · obtain _ | ⟨x, part⟩ := part
      · exact Or.inl (List.nil_infix)
      · obtain ⟨rfl, -⟩ := List.cons_prefix_cons.mp h
        exact absurd List.mem_cons_self hc
    · exact Or.inr h
    · obtain _ | ⟨x, l₂⟩ := l₂
      · rw [List.append_nil]
        exact Or.inl h₁.isInfix
      · obtain ⟨rfl, -⟩ := List.cons_prefix_cons.mp h₂
        exact absurd (List.mem_append_right _ List.mem_cons_self) hc
  · rintro (h | h)
    · exact Or.inl h
    · exact Or.inr (Or.inl (Or.inr h))

/-- A flavor `family.size`, whose family has no size in it. -/
structure Sized (flavorName family size : Text) : Prop where
  name : flavorName = family ++ '.' :: size
  family : ∀ e ∈ RI_FACTOR_MAP, family.contains e.1 = false
  size : ∃ e ∈ RI_FACTOR_MAP, e.1.toList = size

/-- `RI_FACTOR_MAP[size]` -/
def sizeFactor (size : Text) : Option ℚ := (RI_FACTOR_MAP.find? fun e => e.1.toList = size).map Prod.snd

/-- The sizes that have no other size in them. -/
def plainSizes : List Text :=
  ["nano".toList, "micro".toList, "small".toList, "medium".toList, "large".toList]

/-- The factor a name has by itself. -/
def nameFactor (flavorName : Text) : Option ℚ :=
  if flavorName.contains "db." then some 1 else (sizeIn flavorName).map Prod.snd

/-- **The size of a flavor is looked for in its size alone.** -/
theorem sizeIn_eq {flavorName family size : Text} (h : Sized flavorName family size) :
    sizeIn flavorName = sizeIn size := by
  refine List.find?_congr fun e he => ?_
  have hdot : '.' ∉ e.1.toList := by
    revert e
    decide
  have hiff : e.1.toList <:+: flavorName ↔ e.1.toList <:+: size := by
    rw [h.name, infix_append_cons_iff hdot]
    exact or_iff_right (of_decide_eq_false (h.family e he))
  exact decide_eq_decide.mpr hiff

/-- A plain size is found. -/
theorem sizeIn_plain {size : Text} (h : size ∈ plainSizes) : (sizeIn size).map Prod.snd = sizeFactor size := by
  revert size
  decide +kernel

/-- Every size has a factor, which is not zero. -/
theorem sizeFactor_ne_zero {e : String × ℚ} (he : e ∈ RI_FACTOR_MAP) : e.2 ≠ 0 := by
  revert e
  decide +kernel

/-- **The factor of a flavor** of a plain size. -/
theorem nameFactor_eq {flavorName family size : Text} (h : Sized flavorName family size)
    (hplain : size ∈ plainSizes) :
    nameFactor flavorName = if flavorName.contains "db." then some 1 else sizeFactor size := by
  unfold nameFactor
  rw [sizeIn_eq h, sizeIn_plain hplain]

theorem nameFactor_ne_zero {flavorName : Text} {factor : ℚ} (h : nameFactor flavorName = some factor) :
    factor ≠ 0 := by
  unfold nameFactor at h
  split at h
  · rw [← Option.some.inj h]
    exact one_ne_zero
  · obtain ⟨e, he, rfl⟩ := Option.map_eq_some_iff.mp h
    exact sizeFactor_ne_zero (List.mem_of_find?_eq_some he)

end Sizes

/-! ## What the loop assigns -/

section Assigned

variable {accounts : Dict Uuid AccountInfo} {rows : List FlavorRow} {m : Dict Text ℚ} {s : Flavors}

theorem lookup_setFactor (m : Dict Text ℚ) (flavorName k : Text) (normFactor : ℚ) :
    (setFactor m flavorName normFactor).lookup k = if k = flavorName then
      (nameFactor flavorName).or (if normFactor ≠ 0 then some normFactor else m.lookup flavorName)
    else m.lookup k := by
  unfold setFactor nameFactor
  by_cases hdb : flavorName.contains "db."
  · rw [if_pos hdb, if_pos hdb, Dict.lookup_set, Option.some_or]
  · rw [if_neg hdb, if_neg hdb]
    cases sizeIn flavorName with
    | some e =>
      simp only [Option.map_some, Option.some_or, Dict.lookup_set]
      split
      · rfl
      · split
        · rw [Dict.lookup_set, if_neg ‹_›]
        · rfl
    | none =>
      simp only [Option.map_none, Option.none_or]
      split
      · rw [Dict.lookup_set]
      · split
        · rename_i hk
          rw [hk]
        · rfl

/-- What the loop keeps: no factor is zero, and a name has its own factor once it has been seen. -/
structure Assigned (accounts : Dict Uuid AccountInfo) (rows : List FlavorRow) (s : Flavors) : Prop where
  ne_zero : ∀ name factor, s.factors.lookup name = some factor → factor ≠ 0
  named : ∀ row ∈ rows, ∀ factor, nameFactor row.flavorName = some factor →
    s.factors.lookup row.flavorName = some factor
  typed : ∀ row ∈ rows, ∀ account, accounts.lookup row.cloudAccId = some account →
    row.flavorName ∈ (s.typeFlavors.lookup account.type).getD []

theorem assigned_nil : Assigned accounts [] {} :=
  ⟨fun _ _ h => (nomatch h), fun _ h => absurd h List.not_mem_nil, fun _ h => absurd h List.not_mem_nil⟩

/-- **A turn of the loop.** -/
theorem Assigned.step (h : Assigned accounts rows s) {row : FlavorRow} (hrow : row.cloudAccId ∈ accounts) :
    ∃ s', addFlavor accounts s row = .ok s' ∧ Assigned accounts (rows ++ [row]) s' := by
  obtain ⟨account, haccount⟩ := Option.isSome_iff_exists.mp (AList.lookup_isSome.mpr hrow)
  refine ⟨_, by rw [addFlavor, haccount]; rfl, ⟨fun name factor hfactor => ?_, fun r hr factor hfactor => ?_,
    fun r hr a ha => ?_⟩⟩
  · simp only [lookup_setFactor] at hfactor
    split at hfactor
    · cases hname : nameFactor row.flavorName with
      | some f =>
        rw [hname, Option.some_or] at hfactor
        exact Option.some.inj hfactor ▸ nameFactor_ne_zero hname
      | none =>
        rw [hname, Option.none_or] at hfactor
        split at hfactor
        · exact Option.some.inj hfactor ▸ ‹_›
        · exact h.ne_zero _ _ hfactor
    · exact h.ne_zero _ _ hfactor
  · simp only [lookup_setFactor]
    split
    · rename_i hname
      rw [← hname, hfactor, Option.some_or]
    · rename_i hname
      rcases List.mem_append.mp hr with hr | hr
      · exact h.named r hr factor hfactor
      · exact absurd (congrArg FlavorRow.flavorName (List.mem_singleton.mp hr)) hname
  · simp only [Dict.lookup_set]
    split
    · rename_i htype
      rw [Option.getD_some]
      rcases List.mem_append.mp hr with hr | hr
      · exact List.mem_insert_of_mem (htype ▸ h.typed r hr a ha)
      · rw [List.mem_singleton.mp hr]
        exact List.mem_insert_self
    · rename_i htype
      rcases List.mem_append.mp hr with hr | hr
      · exact h.typed r hr a ha
      · rw [List.mem_singleton.mp hr, haccount] at ha
        exact absurd (congrArg AccountInfo.type (Option.some.inj ha).symm) htype

/-- **What `get_flavors` assigns**, in any order of the rows. -/
theorem getFlavors_spec (hrows : ∀ row ∈ rows, row.cloudAccId ∈ accounts) :
    ∃ s, getFlavors accounts rows = .ok s ∧ Assigned accounts rows s := by
  unfold getFlavors
  induction rows using List.reverseRecOn with
  | nil => exact ⟨{}, rfl, assigned_nil⟩
  | append_singleton rows row ih =>
    obtain ⟨s, hs, hassigned⟩ := ih fun r hr => hrows r (List.mem_append_left _ hr)
    obtain ⟨s', hs', hassigned'⟩ := hassigned.step (hrows row (List.mem_append_right _ List.mem_cons_self))
    refine ⟨s', ?_, hassigned'⟩
    rw [List.foldlM_append, hs, ok_bind, List.foldlM_cons, hs', ok_bind]
    rfl

end Assigned

/-! ## The rates of an account -/

section Rates

variable {accounts : Dict Uuid AccountInfo} {ids : List Uuid} {s : Flavors}

/-- The rates of a type of cloud. -/
def typeRates (s : Flavors) (type : CloudType) : Dict Text ℚ :=
  Dict.setAll id (fun x => (s.factors.lookup x).getD 1) ((s.typeFlavors.lookup type).getD [])

/-- The rate of a flavor is its factor. -/
theorem lookup_typeRates (s : Flavors) (type : CloudType) (x : Text) : (typeRates s type).lookup x =
    if x ∈ (s.typeFlavors.lookup type).getD [] then some ((s.factors.lookup x).getD 1) else none := by
  unfold typeRates
  rw [Dict.lookup_setAll]
  generalize (s.typeFlavors.lookup type).getD [] = l
  split
  · rename_i hx
    have hne : (l.filter fun a => id a = x) ≠ [] := List.ne_nil_of_mem (List.mem_filter.mpr ⟨hx, decide_eq_true rfl⟩)
    obtain ⟨y, hy⟩ := Option.isSome_iff_exists.mp (List.getLast?_isSome.mpr hne)
    obtain rfl : y = x := of_decide_eq_true (List.mem_filter.mp (List.mem_of_getLast? hy)).2
    rw [hy, Option.map_some]
  · rename_i hx
    have hnil : (l.filter fun a => id a = x) = [] := List.filter_eq_nil_iff.mpr fun y hy hyx =>
      hx ((of_decide_eq_true hyx : y = x) ▸ hy)
    rw [hnil]
    rfl

/-- **The rates of the accounts that were asked for**, and of no others. -/
theorem cloudAccFlavorRate_spec (hids : ∀ i ∈ ids, i ∈ accounts) :
    ∃ rates, cloudAccFlavorRate accounts s ids = .ok rates ∧
      ∀ i, rates.lookup i = if i ∈ ids then (accounts.lookup i).map fun a => typeRates s a.type else none := by
  unfold cloudAccFlavorRate
  induction ids using List.reverseRecOn with
  | nil => exact ⟨∅, rfl, fun _ => rfl⟩
  | append_singleton ids i ih =>
    obtain ⟨rates, hrates, hlookup⟩ := ih fun j hj => hids j (List.mem_append_left _ hj)
    obtain ⟨account, haccount⟩ := Option.isSome_iff_exists.mp
      (AList.lookup_isSome.mpr (hids i (List.mem_append_right _ List.mem_cons_self)))
    refine ⟨rates.set i (typeRates s account.type), ?_, fun j => ?_⟩
    · rw [List.foldlM_append, hrates, ok_bind, List.foldlM_cons, haccount]
      rfl
    · rw [Dict.lookup_set, hlookup]
      by_cases hji : j = i
      · rw [hji, if_pos rfl, if_pos (List.mem_append_right _ List.mem_cons_self), haccount, Option.map_some]
      · have hmem : j ∈ ids ++ [i] ↔ j ∈ ids := by simp [hji]
        rw [if_neg hji]
        exact (if_congr hmem rfl rfl).symm

end Rates

/-! ## The hours -/

section Hours

variable {accounts : Dict Uuid AccountInfo} {rows : List FlavorRow} {ids : List Uuid} {s : Flavors}
  {rates : Dict Uuid (Dict Text ℚ)}

/-- The normalized hours of an offer that were paid for and not used. -/
def unusedHours (e : OverprovisionExpense) : ℚ :=
  if e.nUsage ≠ 0 ∧ e.offerCost ≠ 0 then overprovExp e / (e.offerCost / e.nUsage) else 0

/-- **The over-provisioned normalized hours** of an account on a day. -/
def normalizedHours (expenses : List OverprovisionExpense) (cloudAccId : Uuid) (date : ℤ) : ℚ :=
  ((expenses.filter fun e => (e.cloudAccId, e.date) = (some cloudAccId, date)).map unusedHours).sum

theorem overprovNHrs_eq (e : OverprovisionExpense) : overprovNHrs e = .ok (unusedHours e) := by
  unfold overprovNHrs unusedHours
  split
  · rename_i h
    rw [divide, if_neg h.1, ok_bind, divide, if_neg (div_ne_zero h.2 h.1)]
  · rfl

/-- **The first loop** adds up the hours of the offers. -/
theorem foldlM_addOverprovision (expenses : List OverprovisionExpense) :
    ∃ o, expenses.foldlM addOverprovision {} = .ok o ∧
      ∀ a d, (o.nHrs.lookupAt (some a) d).getD 0 = normalizedHours expenses a d := by
  let turn := fun (o : Overprovision) (e : OverprovisionExpense) => Overprovision.mk
    (o.cost.addAt e.cloudAccId e.date (overprovExp e)) (o.nHrs.addAt e.cloudAccId e.date (unusedHours e))
  have hturn : ∀ o, ∀ e ∈ expenses, addOverprovision o e = .ok (turn o e) := fun o e _ => by
    rw [addOverprovision, overprovNHrs_eq, ok_bind]
    rfl
  refine ⟨_, foldlM_ok hturn {}, fun a d => ?_⟩
  have hhom : (expenses.foldl turn {}).nHrs =
      expenses.foldl (fun n e => n.addAt e.cloudAccId e.date (unusedHours e)) ∅ :=
    (List.foldl_hom Overprovision.nHrs fun o e => rfl).symm
  rw [hhom]
  exact Dict.lookupAt_foldl_addAt (fun e : OverprovisionExpense => (e.cloudAccId, e.date)) unusedHours expenses
    (some a) d

/-- **`fill_overprovisioning` divides by no zero**: it keeps the sums, and what it tells of a flavor are the hours
of the account over the rate. -/
theorem fillOverprovisioning_spec (hrates : ∀ i x rate, rates.lookupAt i x = some rate → rate ≠ 0)
    (usage : Dict Uuid (Dict ℤ UsageStats)) (expenses : List OverprovisionExpense) :
    ∃ filled, fillOverprovisioning rates usage expenses = .ok filled ∧
      (∀ a d, (filled.lookupAt a d).map UsageStats.sums = (usage.lookupAt a d).map UsageStats.sums) ∧
      ∀ a d data, filled.lookupAt a d = some data → ∀ x rate, rates.lookupAt a x = some rate →
        data.overprovisionHrs.lookup x = some (normalizedHours expenses a d / rate) := by
  obtain ⟨o, ho, hhours⟩ := foldlM_addOverprovision expenses
  have hstats : ∀ a d data, ∃ data', fillStats rates o a d data = .ok data' ∧ data'.sums = data.sums ∧
      ∀ x rate, rates.lookupAt a x = some rate →
        data'.overprovisionHrs.lookup x = some (normalizedHours expenses a d / rate) := fun a d data => by
    have hdivide : ∀ x rate, ((rates.lookup a).getD ∅).lookup x = some rate →
        divide ((o.nHrs.lookupAt (some a) d).getD 0) rate =
          .ok (normalizedHours expenses a d / rate) := fun x rate h => by
      have hat : rates.lookupAt a x = some rate := by
        unfold Dict.lookupAt
        cases hr : rates.lookup a with
        | none => rw [hr] at h; exact nomatch h
        | some r => rw [hr] at h; exact h
      rw [divide, if_neg (hrates a x rate hat), hhours]
    obtain ⟨hrs, hset, hlookup⟩ := Dict.setItemsM_ok hdivide data.overprovisionHrs
    refine ⟨{ data with
        overprovision := (o.cost.lookupAt (some a) d).getD 0
        overprovisionHrs := hrs }, by rw [fillStats, hset, ok_bind]; rfl, rfl, fun x rate hx => ?_⟩
    unfold Dict.lookupAt at hx
    obtain ⟨r, hr, hx⟩ := Option.bind_eq_some_iff.mp hx
    simp only [hlookup, hr, Option.getD_some, hx, Option.map_some, Option.some_or]
  choose g hg hsums hgx using hstats
  obtain ⟨filled, hfilled, hlookup⟩ := Dict.mapItemsM_ok (d := usage) fun a d data _ => hg a d data
  refine ⟨filled, by rw [fillOverprovisioning, ho, ok_bind, hfilled], fun a d => ?_,
    fun a d data hdata x rate hx => ?_⟩
  · rw [hlookup, Option.map_map]
    exact congrArg (Option.map · _) (funext (hsums a d))
  · rw [hlookup] at hdata
    obtain ⟨old, -, rfl⟩ := Option.map_eq_some_iff.mp hdata
    exact hgx a d old x rate hx

/-- The rates of a report are no zeros. -/
theorem rates_ne_zero (hs : Assigned accounts rows s)
    (hrates : ∀ i, rates.lookup i = if i ∈ ids then (accounts.lookup i).map fun a => typeRates s a.type else none)
    (i : Uuid) (x : Text) (rate : ℚ) (h : rates.lookupAt i x = some rate) : rate ≠ 0 := by
  unfold Dict.lookupAt at h
  obtain ⟨r, hr, hx⟩ := Option.bind_eq_some_iff.mp h
  rw [hrates] at hr
  split at hr
  · obtain ⟨a, -, rfl⟩ := Option.map_eq_some_iff.mp hr
    rw [lookup_typeRates] at hx
    split at hx
    · rw [← Option.some.inj hx]
      cases hfactor : s.factors.lookup x with
      | none => exact one_ne_zero
      | some factor => exact hs.ne_zero x factor hfactor
    · exact nomatch hx
  · exact nomatch hr

/-- A flavor has its rate in every account of its type. -/
theorem lookupAt_rates (hs : Assigned accounts rows s)
    (hrates : ∀ i, rates.lookup i = if i ∈ ids then (accounts.lookup i).map fun a => typeRates s a.type else none)
    {row : FlavorRow} (hrow : row ∈ rows) {owner account : AccountInfo}
    (howner : accounts.lookup row.cloudAccId = some owner) {i : Uuid} (hi : i ∈ ids)
    (haccount : accounts.lookup i = some account) (htype : account.type = owner.type) :
    rates.lookupAt i row.flavorName = some ((s.factors.lookup row.flavorName).getD 1) := by
  have hmem : row.flavorName ∈ (s.typeFlavors.lookup account.type).getD [] := htype ▸ hs.typed row hrow owner howner
  rw [Dict.lookupAt, hrates, if_pos hi, haccount, Option.map_some, Option.bind_some, lookup_typeRates, if_pos hmem]

end Hours

/-! ## The factors and the hours agree -/

section Agree

variable {accounts : Dict Uuid AccountInfo} {rows : List FlavorRow} {ids : List Uuid}

/-- The factor of a flavor: a database has none, and counts for 1. -/
def flavorFactor (flavorName size : Text) : Option ℚ :=
  if flavorName.contains "db." then some 1 else sizeFactor size

/-- **The factors of a report**, and the hours it tells by them. -/
structure FactorsAgree (accounts : Dict Uuid AccountInfo) (rows : List FlavorRow) (ids : List Uuid)
    (expenses : List OverprovisionExpense) (s : Flavors) (rates : Dict Uuid (Dict Text ℚ))
    (filled : Dict Uuid (Dict ℤ UsageStats)) : Prop where
  /-- A flavor of a plain size has the factor of its size. -/
  assigned : ∀ row ∈ rows, ∀ family size, Sized row.flavorName family size → size ∈ plainSizes →
    s.factors.lookup row.flavorName = flavorFactor row.flavorName size
  /-- The accounts of its type tell their hours by that factor. -/
  sized : ∀ row ∈ rows, ∀ family size, Sized row.flavorName family size → size ∈ plainSizes →
    ∀ owner, accounts.lookup row.cloudAccId = some owner →
    ∀ i ∈ ids, ∀ account, accounts.lookup i = some account → account.type = owner.type →
    ∀ d data, filled.lookupAt i d = some data →
    ∃ hrs factor, data.overprovisionHrs.lookup row.flavorName = some hrs ∧
      flavorFactor row.flavorName size = some factor ∧ hrs * factor = normalizedHours expenses i d
  /-- So does every flavor, whatever its name, by the rate it has. -/
  hours : ∀ i d data, filled.lookupAt i d = some data → ∀ x rate, rates.lookupAt i x = some rate →
    ∃ hrs, data.overprovisionHrs.lookup x = some hrs ∧ hrs * rate = normalizedHours expenses i d

/-- Two accounts of one cloud. -/
def twoAccounts : Dict Uuid AccountInfo :=
  (Dict.set ∅ 1 ⟨.AWS_CNR, "main".toList⟩).set 2 ⟨.AWS_CNR, "dev".toList⟩

/-- An instance, a database and a flavor without a size. -/
def threeFlavors : List FlavorRow :=
  [⟨"m5.large".toList, 0, 1⟩, ⟨"db.t3.micro".toList, 2, 2⟩, ⟨"metal".toList, 3, 2⟩]

end Agree

end RiBreakdownController
