import OptScale.Foundations.Chunks
import OptScale.Violations.RedGreen

/-!
# Violations/Batches — `process_violated_resources` against one batch

The active resources of an organization are read by a cursor and evaluated in batches of `BULK_SIZE`.  A
batch knows only its own members of a cluster, and of these only the first one's last expense: the marks
and hits are those of one batch, with every cluster evaluated once on what all its members make it, exactly
when no cluster lies in two batches and the first member's last expense is that of the cluster
(`batches_iff`).
-/

open Fallible

namespace ResourceObserverController

open LimitHitsController

/-! ## The collection -/

/-- A document of the collection, as the observer selects and marks it. -/
structure Document extends Found where
  cloudAccountId : Option Uuid := none
  organizationId : Option Uuid := none
  active : Bool := false
  lastSeen : ℤ := 0
  clusterTypeId : Option Uuid := none
  constraintViolated : Bool := false
  deriving DecidableEq

/-- The documents of the collection; what a document names as its cluster is one. -/
structure Collection where
  documents : Table fun d : Document => d.id
  clusters : ∀ d ∈ documents.rows, ∀ d' ∈ documents.rows, d.clusterId = some d'.id →
    d'.clusterTypeId ≠ none

/-- Set the flag of some documents. -/
def Collection.flag (c : Collection) (p : Document → Bool) (violated : Bool) : Collection where
  documents := c.documents.updateWhere p (fun d => { d with constraintViolated := violated }) fun _ => rfl
  clusters := by
    intro d hd d' hd' hid
    obtain ⟨e, he, rfl⟩ := Table.mem_updateWhere.mp hd
    obtain ⟨e', he', rfl⟩ := Table.mem_updateWhere.mp hd'
    have hcluster := c.clusters e he e' he'
    split_ifs at hid ⊢ <;> exact hcluster hid

/-! ## The run -/

/-- `BULK_SIZE` -/
def BULK_SIZE : ℕ := 2000

/-- `HOUR_IN_SEC` -/
def HOUR_IN_SEC : ℤ := 3600

/-- What a run of the observer finds around it; all its batches read one second of the clock. -/
structure Observer extends LimitHitsController.Surroundings where
  organizationExists : Bool
  cloudAccountIds : List Uuid
  /-- The order in which the cursor returns documents. -/
  order : List Document → List Document
  order_perm : ∀ documents, (order documents).Perm documents

/-- What a run reads and writes. -/
structure State where
  collection : Collection
  hits : List ConstraintLimitHit

variable (E : Observer)

/-- The document is one of the organization. -/
def Owned (d : Document) : Prop :=
  (∃ a ∈ d.cloudAccountId, a ∈ E.cloudAccountIds) ∨ d.organizationId = some E.organizationId

instance (d : Document) : Decidable (Owned E d) := inferInstanceAs (Decidable (_ ∨ _))

/-- The filter of the cursor. -/
def Visible (d : Document) : Prop :=
  Owned E d ∧ d.active = true ∧ E.now - HOUR_IN_SEC ≤ d.lastSeen ∧ d.clusterTypeId = none

instance (d : Document) : Decidable (Visible E d) := inferInstanceAs (Decidable (_ ∧ _))

/-- The resources the cursor returns. -/
def found (c : Collection) : List Found :=
  (E.order (c.documents.rows.filter fun d => Visible E d)).map Document.toFound

/-- The batches, one after the other. -/
def processBatches (S : LimitHitsController.Surroundings) :
    List (List Found) → Session (List ConstraintLimitHit) Failure (List Uuid)
  | [] => pure []
  | bulk :: batches => do
    let res ← processResources S bulk
    let violatedResourceIds ← processBatches S batches
    pure (res ++ violatedResourceIds)

/-- `update_violated_resources` -/
def updateViolatedResources (violatedResourceIds : List Uuid) (c : Collection) : Collection :=
  (c.flag (fun d => Owned E d ∧ d.id ∈ violatedResourceIds ∧ d.constraintViolated = false) true).flag
    (fun d => Owned E d ∧ d.id ∉ violatedResourceIds ∧ d.constraintViolated = true) false

/-- `process_violated_resources`, with the resources in the batches that `cut` makes of them. -/
def process (cut : List Found → List (List Found)) : Session State Failure Unit := do
  Session.read fun _ => require (E.organizationExists = true)
    (.notFound .OE0002 ["Organization", toString E.organizationId])
  if E.cloudAccountIds = [] then pure ()
  else
    let resources ← Session.read fun s => .ok (found E s.collection)
    let violatedResourceIds ← Session.within State.hits (fun hits s => { s with hits })
      (processBatches E.toSurroundings (cut resources))
    Session.change fun s =>
      { s with collection := updateViolatedResources E violatedResourceIds s.collection }

/-- `process_violated_resources` -/
def processViolatedResources : Session State Failure Unit := process E (List.toChunks BULK_SIZE)

/-- `process_violated_resources` with all resources in one batch, whose alerts go through. -/
def processAtOnce : Session State Failure Unit :=
  process { E with sendAlerts := fun _ => .ok () } fun resources => [resources]

/-! ## What is evaluated -/

/-- The batches of a run. -/
def batches (c : Collection) : List (List Found) :=
  if E.organizationExists = true ∧ E.cloudAccountIds ≠ [] then (found E c).toChunks BULK_SIZE else []

/-- What the batches of a run evaluate. -/
def evaluated (c : Collection) : List ResourceData :=
  (batches E c).flatMap fun bulk => (collectProcessingData bulk).rows

/-- Of some resources the members of a cluster. -/
def members (clusterId : Uuid) (resources : List Found) : List Found :=
  resources.filter fun r => r.clusterId = some clusterId

/-- The last expense of a cluster: of the last day there is one on, all its members had that day. -/
structure LastExpense (members : List Found) (date : ℤ) (cost : ℚ) : Prop where
  last : IsGreatest {day | ∃ r ∈ members, dayStart r.lastExpenseDate = day} (dayStart date)
  cost : cost =
    ((members.filter fun r => dayStart r.lastExpenseDate = dayStart date).map Found.lastExpenseCost).sum

/-- A cluster as all its members make it. -/
structure Whole (members : List Found) (d : ResourceData) : Prop where
  totalCost : d.totalCost = (members.map Found.totalCost).sum
  mindate : IsLeast {t | ∃ r ∈ members, r.firstSeen = t} d.mindate
  lastExpense : LastExpense members d.lastExpenseDate d.lastExpenseCost

/-- Every cluster is evaluated once, as all its members make it. -/
def ClustersOnce (c : Collection) : Prop :=
  ∀ clusterId, members clusterId (batches E c).flatten ≠ [] →
    ∃ d, (evaluated E c).filter (fun d => d.resourceId = clusterId) = [d] ∧
      Whole (members clusterId (batches E c).flatten) d

/-- A run that returns has marked and recorded what one batch marks and records. -/
def AsOneBatch (s : State) : Prop :=
  ∀ t, processViolatedResources E s = (.ok (), t) →
    ∃ t', processAtOnce E s = (.ok (), t') ∧ t.collection = t'.collection ∧ t.hits.Perm t'.hits

/-- No cluster has members in two batches. -/
def Unsplit (batches : List (List Found)) : Prop :=
  batches.Pairwise fun bulk bulk' => ∀ r ∈ bulk, ∀ r' ∈ bulk', ∀ clusterId,
    r.clusterId = some clusterId → r'.clusterId ≠ some clusterId

/-- The first member of every cluster has the last expense of the cluster. -/
def FirstLast (resources : List Found) : Prop :=
  ∀ clusterId, ∀ r ∈ (members clusterId resources).head?,
    LastExpense (members clusterId resources) r.lastExpenseDate r.lastExpenseCost

/-! ## Clusters -/

variable {E : Observer} {c : Collection} {S : LimitHitsController.Surroundings}

/-- The id a resource is evaluated under. -/
def subject (r : Found) : Uuid := r.clusterId.getD r.id

/-- No resource bears the id of a cluster. -/
def Apart (resources : List Found) : Prop :=
  ∀ r ∈ resources, ∀ r' ∈ resources, r.clusterId ≠ some r'.id

/-- A cluster of a first member and others. -/
def aggregate (clusterId : Uuid) : List Found → Option ResourceData
  | [] => none
  | r :: rest => some (rest.foldl (fun d r => ResourceData.join r d) (r.data clusterId))

theorem aggregate_concat (clusterId : Uuid) (rs : List Found) (r : Found) :
    aggregate clusterId (rs ++ [r]) =
      some (((aggregate clusterId rs).map (ResourceData.join r)).getD (r.data clusterId)) := by
  cases rs with
  | nil => rfl
  | cons r' rs => simp [aggregate, List.foldl_append]

theorem foldl_join (rs : List Found) : ∀ d : ResourceData,
    rs.foldl (fun d r => ResourceData.join r d) d = { d with
      totalCost := d.totalCost + (rs.map Found.totalCost).sum
      mindate := rs.foldl (fun t r => min t r.firstSeen) d.mindate } := by
  induction rs with
  | nil => simp
  | cons r rs ih =>
    intro d
    rw [List.foldl_cons, ih]
    simp [ResourceData.join, add_assoc]

theorem isLeast_foldl_min (rs : List Found) : ∀ r : Found,
    IsLeast {t | ∃ r' ∈ r :: rs, r'.firstSeen = t}
      (rs.foldl (fun t r => min t r.firstSeen) r.firstSeen) := by
  induction rs using List.reverseRecOn with
  | nil => exact fun r => ⟨⟨r, List.mem_singleton_self r, rfl⟩, by simp [lowerBounds]⟩
  | append_singleton rs a ih =>
    intro r
    obtain ⟨⟨r', hr', hmin⟩, hlower⟩ := ih r
    rw [List.foldl_append, List.foldl_cons, List.foldl_nil]
    constructor
    · rcases min_choice (rs.foldl (fun t r => min t r.firstSeen) r.firstSeen) a.firstSeen with h | h
      · exact ⟨r', by rw [← List.cons_append]; exact List.mem_append_left _ hr', hmin.trans h.symm⟩
      · exact ⟨a, by simp, h.symm⟩
    · rintro _ ⟨x, hx, rfl⟩
      rw [← List.cons_append, List.mem_append, List.mem_singleton] at hx
      obtain hx | rfl := hx
      · exact (min_le_left _ _).trans (hlower ⟨x, hx, rfl⟩)
      · exact min_le_right _ _

/-- **The evaluation of a cluster** is on the total cost and the earliest date; the last expense is that
of the first member. -/
theorem whole_aggregate {clusterId : Uuid} {r : Found} {rs : List Found} {d : ResourceData}
    (h : aggregate clusterId (r :: rs) = some d) :
    Whole (r :: rs) d ↔ LastExpense (r :: rs) r.lastExpenseDate r.lastExpenseCost := by
  obtain rfl := Option.some.inj h
  rw [foldl_join]
  exact ⟨fun h => h.lastExpense, fun h => ⟨by simp [Found.data], isLeast_foldl_min rs r, h⟩⟩

theorem collect_concat (rs : List Found) (r : Found) :
    collectProcessingData (rs ++ [r]) = collect (collectProcessingData rs) r := by
  rw [collectProcessingData, List.foldl_append]
  rfl

/-- **A batch evaluates a cluster** on its own members of it. -/
theorem filter_collect {rs : List Found} {clusterId : Uuid}
    (hapart : ∀ r ∈ rs, r.clusterId = none → r.id ≠ clusterId) :
    (collectProcessingData rs).rows.filter (fun d => d.resourceId = clusterId) =
      (aggregate clusterId (members clusterId rs)).toList := by
  induction rs using List.reverseRecOn with
  | nil => rfl
  | append_singleton rs r ih =>
    have ih := ih fun r' hr' => hapart r' (List.mem_append_left _ hr')
    have hr := hapart r (List.mem_append_right _ List.mem_cons_self)
    rw [collect_concat, members, List.filter_append]
    change _ = (aggregate clusterId (members clusterId rs ++ members clusterId [r])).toList
    cases hc : r.clusterId with
    | none =>
      have hmembers : members clusterId [r] = [] := by simp [members, hc]
      rw [collect, hc, hmembers, List.append_nil, ← ih]
      exact Table.filter_upsert_of_ne (hr hc)
    | some c =>
      by_cases heq : c = clusterId
      · subst heq
        have hmembers : members c [r] = [r] := by simp [members, hc]
        rw [collect, hc, hmembers, aggregate_concat]
        have hself : ((collectProcessingData rs).upsert (r.data c) (ResourceData.join r)
            fun _ => rfl).rows.filter (fun d => d.resourceId = (r.data c).resourceId) =
              if c ∈ (collectProcessingData rs).rows.map ResourceData.resourceId then
                ((collectProcessingData rs).rows.filter fun d => d.resourceId = c).map
                  (ResourceData.join r)
              else [r.data c] := Table.filter_upsert_self
        refine hself.trans ?_
        rw [ih]
        cases hagg : aggregate c (members c rs) with
        | none =>
          rw [hagg] at ih
          have hnew : c ∉ (collectProcessingData rs).rows.map ResourceData.resourceId := by
            intro hmem
            obtain ⟨d, hd, hid⟩ := List.mem_map.mp hmem
            exact List.filter_eq_nil_iff.mp ih d hd (decide_eq_true hid)
          exact if_neg hnew
        | some d =>
          rw [hagg] at ih
          have hold : c ∈ (collectProcessingData rs).rows.map ResourceData.resourceId := by
            have hd : d ∈ (collectProcessingData rs).rows.filter fun d => d.resourceId = c := by
              rw [ih]
              exact List.mem_singleton_self d
            obtain ⟨hd, hid⟩ := List.mem_filter.mp hd
            exact of_decide_eq_true hid ▸ List.mem_map_of_mem hd
          exact if_pos hold
      · have hmembers : members clusterId [r] = [] := by simp [members, hc, heq]
        rw [collect, hc, hmembers, List.append_nil, ← ih]
        exact Table.filter_upsert_of_ne heq

/-! ## Batches -/

/-- Nothing of one batch is evaluated under an id of the other. -/
def Foreign (bulk bulk' : List Found) : Prop := ∀ r ∈ bulk, ∀ r' ∈ bulk', subject r ≠ subject r'

theorem exists_of_mem_collect {rs : List Found} : ∀ {d : ResourceData},
    d ∈ (collectProcessingData rs).rows → ∃ r ∈ rs, subject r = d.resourceId := by
  induction rs using List.reverseRecOn with
  | nil => exact fun hd => absurd hd List.not_mem_nil
  | append_singleton rs r ih =>
    intro d hd
    have hkey : (∃ b ∈ (collectProcessingData rs).rows, b.resourceId = d.resourceId) ∨
        subject r = d.resourceId := by
      rw [collect_concat, collect] at hd
      unfold subject
      split at hd
      · rename_i c hc
        rw [hc]
        exact Table.exists_key_upsert.mp ⟨d, hd, rfl⟩
      · rename_i hc
        rw [hc]
        exact Table.exists_key_upsert.mp ⟨d, hd, rfl⟩
    obtain ⟨b, hb, hbd⟩ | h := hkey
    · obtain ⟨r', hr', hid⟩ := ih hb
      exact ⟨r', List.mem_append_left _ hr', hid.trans hbd⟩
    · exact ⟨r, List.mem_append_right _ List.mem_cons_self, h⟩

/-- **Foreign batches are evaluated apart**: together they are what the one is and what the other is. -/
theorem rows_collect_append {rs rs' : List Found} (h : Foreign rs rs') :
    (collectProcessingData (rs ++ rs')).rows =
      (collectProcessingData rs).rows ++ (collectProcessingData rs').rows := by
  induction rs' using List.reverseRecOn with
  | nil => rw [List.append_nil]; exact (List.append_nil _).symm
  | append_singleton rs' r ih =>
    have ih := ih fun r₁ hr₁ r₂ hr₂ => h r₁ hr₁ r₂ (List.mem_append_left _ hr₂)
    have hr : subject r ∉ (collectProcessingData rs).rows.map ResourceData.resourceId := by
      intro hmem
      obtain ⟨d, hd, hid⟩ := List.mem_map.mp hmem
      obtain ⟨r₁, hr₁, hr₁d⟩ := exists_of_mem_collect hd
      exact h r₁ hr₁ r (List.mem_append_right _ List.mem_cons_self) (hr₁d.trans hid)
    rw [← List.append_assoc, collect_concat, collect_concat, collect, collect]
    unfold subject at hr
    cases hc : r.clusterId with
    | none =>
      rw [hc] at hr
      exact Table.rows_upsert_append ih hr
    | some c =>
      rw [hc] at hr
      exact Table.rows_upsert_append ih hr

theorem rows_collect_flatten {bs : List (List Found)} (h : bs.Pairwise Foreign) :
    (collectProcessingData bs.flatten).rows = bs.flatMap fun bulk => (collectProcessingData bulk).rows := by
  induction bs with
  | nil => rfl
  | cons bulk bs ih =>
    obtain ⟨hbulk, hbs⟩ := List.pairwise_cons.mp h
    rw [List.flatten_cons, List.flatMap_cons, ← ih hbs]
    refine rows_collect_append fun r hr r' hr' => ?_
    obtain ⟨bulk', hmem, hr'⟩ := List.mem_flatten.mp hr'
    exact hbulk bulk' hmem r hr r' hr'

theorem forEach_flatten {bs : List (List Found)} (h : bs.Pairwise Foreign) {β : Type}
    (f : ResourceData → ConstraintType → Option β) :
    forEach (collectProcessingData bs.flatten) f =
      bs.flatMap fun bulk => forEach (collectProcessingData bulk) f := by
  rw [forEach, rows_collect_flatten h, List.flatMap_assoc]
  rfl

/-- **A batch that returns** has recorded its green and its red hits, which pass their validators. -/
theorem processResources_eq_ok {bulk : List Found} {hits hits' : List ConstraintLimitHit}
    {ids : List Uuid} : processResources S bulk hits = (.ok ids, hits') ↔
      ids = forEach (collectProcessingData bulk) (marked S) ∧
      hits' = hits ++ (greenHits S bulk hits ++ redHits S bulk hits) ∧
      (∀ h ∈ greenHits S bulk hits ++ redHits S bulk hits, validateHit h = .ok ()) ∧
      (bulk ≠ [] → S.sendAlerts (redHits S bulk hits) = .ok ()) := by
  by_cases hnil : bulk = []
  · subst hnil
    have hempty : ∀ {β : Type} (f : ResourceData → ConstraintType → Option β),
        forEach (collectProcessingData []) f = [] := fun f => rfl
    simp only [greenHits, redHits, hempty, List.append_nil, List.not_mem_nil]
    constructor
    · intro h
      obtain ⟨hids, rfl⟩ := Prod.mk.inj h
      exact ⟨(Except.ok.inj hids).symm, rfl, fun _ h => h.elim, fun h => absurd rfl h⟩
    · rintro ⟨rfl, rfl, -, -⟩
      rfl
  · rw [processResources, if_neg hnil]
    simp only [Session.bind_eq_ok, Session.read_eq_ok, Session.commit_eq_ok, Session.pure_eq_ok,
      Except.ok.injEq, Prod.mk.injEq]
    constructor
    · rintro ⟨_, _, ⟨rfl, rfl⟩, _, _, ⟨hgreen, rfl⟩, _, _, ⟨-, rfl⟩, _, _, ⟨hred, rfl⟩, _, _, ⟨-, rfl⟩,
        _, _, ⟨halert, rfl⟩, rfl, rfl⟩
      refine ⟨rfl, List.append_assoc .., fun h hh => ?_, fun _ => halert⟩
      obtain hh | hh := List.mem_append.mp hh
      · exact forM_eq_ok.mp hgreen h hh
      · exact forM_eq_ok.mp hred h hh
    · rintro ⟨rfl, rfl, hvalid, halert⟩
      obtain ⟨hgreen, hred⟩ := List.forall_mem_append.mp hvalid
      exact ⟨_, _, ⟨rfl, rfl⟩, (), _, ⟨forM_eq_ok.mpr hgreen, rfl⟩, (), _, ⟨trivial, rfl⟩, (), _,
        ⟨forM_eq_ok.mpr hred, rfl⟩, (), _, ⟨trivial, rfl⟩, (), _, ⟨halert hnil, rfl⟩, rfl,
        List.append_assoc ..⟩

/-- The hits of one batch are none of what the other evaluates. -/
theorem latestHit_of_foreign {bulk bulk' : List Found} (h : Foreign bulk bulk')
    {hits : List ConstraintLimitHit} {d : ResourceData} (hd : d ∈ (collectProcessingData bulk').rows)
    (type : ConstraintType) :
    latestHit (hits ++ (greenHits S bulk hits ++ redHits S bulk hits)) d.resourceId type =
      latestHit hits d.resourceId type := by
  have hnone : ∀ d' ∈ (collectProcessingData bulk).rows, d'.resourceId ≠ d.resourceId := by
    intro d' hd' hid
    obtain ⟨r, hr, hrd⟩ := exists_of_mem_collect hd'
    obtain ⟨r', hr', hrd'⟩ := exists_of_mem_collect hd
    exact h r hr r' hr' (hrd.trans (hid.trans hrd'.symm))
  have hgreen : hitsOf (greenHits S bulk hits) d.resourceId type = [] :=
    hitsOf_forEach_none (fun d type => greenHit_own type d) hnone
  have hred : hitsOf (redHits S bulk hits) d.resourceId type = [] :=
    hitsOf_forEach_none (fun d type => redHit_own type d) hnone
  rw [latestHit, hitsOf_append, hitsOf_append, hgreen, hred, List.append_nil, List.append_nil]
  rfl

theorem forEach_congr {bulk : List Found} {β : Type} {f g : ResourceData → ConstraintType → Option β}
    (h : ∀ d ∈ (collectProcessingData bulk).rows, ∀ type, f d type = g d type) :
    forEach (collectProcessingData bulk) f = forEach (collectProcessingData bulk) g :=
  List.flatMap_congr fun d hd => List.filterMap_congr fun type _ => h d hd type

/-- A batch records the same after a foreign one as before it. -/
theorem hits_of_foreign {bulk bulk' : List Found} (h : Foreign bulk bulk')
    {hits : List ConstraintLimitHit} :
    greenHits S bulk' (hits ++ (greenHits S bulk hits ++ redHits S bulk hits)) =
        greenHits S bulk' hits ∧
      redHits S bulk' (hits ++ (greenHits S bulk hits ++ redHits S bulk hits)) =
        redHits S bulk' hits := by
  constructor
  · refine forEach_congr fun d hd type => ?_
    rw [greenHit, greenHit, latestHit_of_foreign h hd type]
  · refine forEach_congr fun d hd type => ?_
    rw [redHit, redHit, latestHit_of_foreign h hd type]

/-- **Foreign batches, one after the other**, each record what they would record alone. -/
theorem processBatches_eq_ok {bs : List (List Found)} (h : bs.Pairwise Foreign) :
    ∀ {hits hits' : List ConstraintLimitHit} {ids : List Uuid},
      processBatches S bs hits = (.ok ids, hits') →
      ids = bs.flatMap (fun bulk => forEach (collectProcessingData bulk) (marked S)) ∧
      hits' = hits ++ bs.flatMap (fun bulk => greenHits S bulk hits ++ redHits S bulk hits) ∧
      ∀ bulk ∈ bs, ∀ h ∈ greenHits S bulk hits ++ redHits S bulk hits, validateHit h = .ok () := by
  induction bs with
  | nil =>
    intro hits hits' ids hrun
    obtain ⟨hids, rfl⟩ := Prod.mk.inj hrun
    exact ⟨(Except.ok.inj hids).symm, (List.append_nil _).symm, fun _ h => absurd h List.not_mem_nil⟩
  | cons bulk bs ih =>
    intro hits hits' ids hrun
    obtain ⟨hbulk, hbs⟩ := List.pairwise_cons.mp h
    rw [processBatches] at hrun
    simp only [Session.bind_eq_ok, Session.pure_eq_ok] at hrun
    obtain ⟨res, hits₁, hfirst, rest, _, hrest, rfl, rfl⟩ := hrun
    obtain ⟨rfl, rfl, hvalid, -⟩ := processResources_eq_ok.mp hfirst
    obtain ⟨rfl, rfl, hvalids⟩ := ih hbs hrest
    refine ⟨by rw [List.flatMap_cons], ?_, List.forall_mem_cons.mpr ⟨hvalid, ?_⟩⟩
    · rw [List.flatMap_cons, List.append_assoc]
      congr 2
      refine List.flatMap_congr fun bulk' hbulk' => ?_
      rw [(hits_of_foreign (hbulk bulk' hbulk')).1, (hits_of_foreign (hbulk bulk' hbulk')).2]
    · intro bulk' hbulk'
      have hvalid' := hvalids bulk' hbulk'
      rwa [(hits_of_foreign (hbulk bulk' hbulk')).1, (hits_of_foreign (hbulk bulk' hbulk')).2] at hvalid'

/-! ## The run -/

theorem process_eq_ok {cut : List Found → List (List Found)} {s t : State} :
    process E cut s = (.ok (), t) ↔ E.organizationExists = true ∧
      if E.cloudAccountIds = [] then t = s
      else ∃ ids hits',
        processBatches E.toSurroundings (cut (found E s.collection)) s.hits = (.ok ids, hits') ∧
          t = ⟨updateViolatedResources E ids s.collection, hits'⟩ := by
  rw [process]
  simp only [Session.bind_eq_ok, Session.read_eq_ok, require_eq_ok]
  constructor
  · rintro ⟨_, _, ⟨horg, rfl⟩, hrun⟩
    refine ⟨horg, ?_⟩
    split_ifs at hrun ⊢ with hnone
    · exact (Prod.mk.inj hrun).2.symm
    · simp only [Session.bind_eq_ok, Session.read_eq_ok, Except.ok.injEq] at hrun
      obtain ⟨_, _, ⟨rfl, rfl⟩, ids, u, hwithin, hrun⟩ := hrun
      obtain ⟨hids, rfl⟩ := Prod.mk.inj hwithin
      obtain ⟨-, rfl⟩ := Prod.mk.inj hrun
      exact ⟨ids, _, Prod.ext hids rfl, rfl⟩
  · rintro ⟨horg, hrun⟩
    refine ⟨(), _, ⟨horg, rfl⟩, ?_⟩
    split_ifs at hrun ⊢ with hnone
    · rw [hrun]
      rfl
    · obtain ⟨ids, hits', hbatches, rfl⟩ := hrun
      simp only [Session.bind_eq_ok, Session.read_eq_ok, Except.ok.injEq]
      refine ⟨_, _, ⟨rfl, rfl⟩, ids, { s with hits := hits' }, ?_, rfl⟩
      rw [Session.within, hbatches]

theorem mem_found {r : Found} (hr : r ∈ found E c) :
    ∃ d ∈ c.documents.rows, Visible E d ∧ d.toFound = r := by
  obtain ⟨d, hd, rfl⟩ := List.mem_map.mp hr
  obtain ⟨hd, hvisible⟩ := List.mem_filter.mp ((E.order_perm _).mem_iff.mp hd)
  exact ⟨d, hd, of_decide_eq_true hvisible, rfl⟩

theorem found_pairwise : (found E c).Pairwise fun r r' => r.id ≠ r'.id := by
  have hrows : (c.documents.rows.filter fun d => Visible E d).Pairwise fun d d' => d.id ≠ d'.id :=
    (List.pairwise_map.mp c.documents.nodup).sublist List.filter_sublist
  exact List.pairwise_map.mpr ((E.order_perm _).symm.pairwise hrows Ne.symm)

/-- No resource the cursor returns bears the id of a cluster. -/
theorem found_apart {r r' : Found} (hr : r ∈ found E c) (hr' : r' ∈ found E c) :
    r.clusterId ≠ some r'.id := by
  obtain ⟨d, hd, -, rfl⟩ := mem_found hr
  obtain ⟨d', hd', ⟨-, -, -, hplain⟩, rfl⟩ := mem_found hr'
  exact fun hid => c.clusters d hd d' hd' hid hplain

/-- **Unsplit batches are foreign.** -/
theorem foreign_of_unsplit {bs : List (List Found)} (hbs : bs.flatten = found E c) (h : Unsplit bs) :
    bs.Pairwise Foreign := by
  have hids := (List.pairwise_flatten.mp (hbs ▸ found_pairwise)).2
  refine (hids.and h).imp_of_mem fun {bulk bulk'} hbulk hbulk' ⟨hid, hcluster⟩ r hr r' hr' hsubject => ?_
  have hmem : r ∈ found E c := hbs ▸ List.mem_flatten_of_mem hbulk hr
  have hmem' : r' ∈ found E c := hbs ▸ List.mem_flatten_of_mem hbulk' hr'
  unfold subject at hsubject
  cases hc : r.clusterId with
  | none =>
    cases hc' : r'.clusterId with
    | none =>
      rw [hc, hc'] at hsubject
      exact hid r hr r' hr' hsubject
    | some c' =>
      rw [hc, hc'] at hsubject
      exact found_apart hmem' hmem (hc'.trans (congrArg some hsubject.symm))
  | some c₁ =>
    cases hc' : r'.clusterId with
    | none =>
      rw [hc, hc'] at hsubject
      exact found_apart hmem hmem' (hc.trans (congrArg some hsubject))
    | some c₂ =>
      rw [hc, hc'] at hsubject
      exact hcluster r hr r' hr' c₁ hc (hc'.trans (congrArg some hsubject.symm))

/-- All resources in one batch, whose hits pass their validators. -/
theorem processAtOnce_eq_ok {s : State} (horg : E.organizationExists = true)
    (hnone : E.cloudAccountIds ≠ [])
    (hvalid : ∀ h ∈ greenHits E.toSurroundings (found E s.collection) s.hits ++
      redHits E.toSurroundings (found E s.collection) s.hits, validateHit h = .ok ()) :
    processAtOnce E s = (.ok (), ⟨updateViolatedResources E
        (forEach (collectProcessingData (found E s.collection)) (marked E.toSurroundings)) s.collection,
      s.hits ++ (greenHits E.toSurroundings (found E s.collection) s.hits ++
        redHits E.toSurroundings (found E s.collection) s.hits)⟩) := by
  refine process_eq_ok.mpr ⟨horg, ?_⟩
  rw [if_neg hnone]
  refine ⟨_, _, ?_, rfl⟩
  rw [processBatches, processBatches]
  simp only [Session.bind_eq_ok, Session.pure_eq_ok]
  refine ⟨_, _, processResources_eq_ok.mpr ⟨rfl, rfl, hvalid, fun _ => rfl⟩, [], _, ⟨rfl, rfl⟩, ?_, rfl⟩
  exact List.append_nil _

/-- **Batches that split no cluster** are as good as one. -/
theorem asOneBatch_of_unsplit {s : State} (h : Unsplit (batches E s.collection)) : AsOneBatch E s := by
  intro t hrun
  obtain ⟨horg, hrun⟩ := process_eq_ok.mp hrun
  by_cases hnone : E.cloudAccountIds = []
  · rw [if_pos hnone] at hrun
    exact ⟨s, process_eq_ok.mpr ⟨horg, (if_pos hnone).mpr rfl⟩, by rw [hrun], by rw [hrun]⟩
  rw [if_neg hnone] at hrun
  obtain ⟨ids, hits', hbatches, rfl⟩ := hrun
  rw [batches, if_pos ⟨horg, hnone⟩] at h
  have hflat := Chunks.flatten_toChunks BULK_SIZE (found E s.collection)
  have hforeign := foreign_of_unsplit hflat h
  obtain ⟨rfl, rfl, hvalid⟩ := processBatches_eq_ok hforeign hbatches
  -- one batch records the green hits of all batches, and after them the red ones
  have hperm : (((found E s.collection).toChunks BULK_SIZE).flatMap fun bulk =>
      greenHits E.toSurroundings bulk s.hits ++ redHits E.toSurroundings bulk s.hits).Perm
        (greenHits E.toSurroundings (found E s.collection) s.hits ++
          redHits E.toSurroundings (found E s.collection) s.hits) := by
    have hgreen := forEach_flatten hforeign (greenHit E.toSurroundings s.hits)
    have hred := forEach_flatten hforeign (redHit E.toSurroundings s.hits)
    rw [hflat] at hgreen hred
    rw [greenHits, redHits, hgreen, hred]
    exact (List.flatMap_append_perm _ _ _).symm
  have hmarks := forEach_flatten hforeign (marked E.toSurroundings)
  rw [hflat] at hmarks
  refine ⟨_, processAtOnce_eq_ok horg hnone fun h hh => ?_, by rw [hmarks], hperm.append_left s.hits⟩
  obtain ⟨bulk, hbulk, hh⟩ := List.mem_flatMap.mp (hperm.mem_iff.mpr hh)
  exact hvalid bulk hbulk h hh

/-! ## Clusters over the batches -/

theorem batches_flatten_subset {r : Found} (hr : r ∈ (batches E c).flatten) : r ∈ found E c := by
  unfold batches at hr
  split at hr
  · rwa [Chunks.flatten_toChunks] at hr
  · exact absurd hr List.not_mem_nil

theorem foreign_batches (h : Unsplit (batches E c)) : (batches E c).Pairwise Foreign := by
  unfold batches at h ⊢
  split at h
  · rename_i hcond
    rw [if_pos hcond]
    exact foreign_of_unsplit (Chunks.flatten_toChunks ..) h
  · rename_i hcond
    rw [if_neg hcond]
    exact .nil

theorem mem_members {clusterId : Uuid} {rs : List Found} {r : Found} :
    r ∈ members clusterId rs ↔ r ∈ rs ∧ r.clusterId = some clusterId := by
  rw [members, List.mem_filter, decide_eq_true_eq]

/-- No resource of a run bears the id of a cluster that has members in it. -/
theorem id_ne_of_members {clusterId : Uuid} (h : members clusterId (batches E c).flatten ≠ []) {r : Found}
    (hr : r ∈ (batches E c).flatten) : r.id ≠ clusterId := by
  obtain ⟨r', hr'⟩ := List.exists_mem_of_ne_nil _ h
  obtain ⟨hr', hc⟩ := mem_members.mp hr'
  intro hid
  exact found_apart (batches_flatten_subset hr') (batches_flatten_subset hr) (hc.trans (hid ▸ rfl))

/-- **The evaluations of a cluster**: one for every batch that has members of it. -/
theorem evaluated_filter {clusterId : Uuid} (h : members clusterId (batches E c).flatten ≠ []) :
    (evaluated E c).filter (fun d => d.resourceId = clusterId) =
      (batches E c).flatMap fun bulk => (aggregate clusterId (members clusterId bulk)).toList := by
  rw [evaluated, List.filter_flatMap]
  refine List.flatMap_congr fun bulk hbulk => filter_collect fun r hr _ => ?_
  exact id_ne_of_members h (List.mem_flatten_of_mem hbulk hr)

theorem aggregate_isSome {clusterId : Uuid} {rs : List Found} {r : Found} (hr : r ∈ rs)
    (hc : r.clusterId = some clusterId) : ∃ d, aggregate clusterId (members clusterId rs) = some d := by
  obtain ⟨r', rest, h⟩ := List.exists_cons_of_ne_nil (List.ne_nil_of_mem (mem_members.mpr ⟨hr, hc⟩))
  rw [h]
  exact ⟨_, rfl⟩

/-- **Clusters evaluated once at most** lie in one batch each. -/
theorem unsplit_of_length {bs : List (List Found)}
    (h : ∀ clusterId, members clusterId bs.flatten ≠ [] →
      (bs.flatMap fun bulk => (aggregate clusterId (members clusterId bulk)).toList).length ≤ 1) :
    Unsplit bs := by
  induction bs with
  | nil => exact .nil
  | cons bulk bs ih =>
    refine List.pairwise_cons.mpr ⟨fun bulk' hbulk' r hr r' hr' clusterId hc hc' => ?_, ih fun k hk => ?_⟩
    · have hone := h clusterId (List.ne_nil_of_mem (mem_members.mpr
        ⟨List.mem_flatten_of_mem List.mem_cons_self hr, hc⟩))
      obtain ⟨d, hd⟩ := aggregate_isSome hr hc
      obtain ⟨d', hd'⟩ := aggregate_isSome hr' hc'
      have hmem : d' ∈ bs.flatMap fun bulk => (aggregate clusterId (members clusterId bulk)).toList :=
        List.mem_flatMap.mpr ⟨bulk', hbulk', by rw [hd']; exact List.mem_singleton_self d'⟩
      have hpos := List.length_pos_of_mem hmem
      rw [List.flatMap_cons, hd, List.length_append, Option.toList_some, List.length_singleton] at hone
      omega
    · obtain ⟨r, hr⟩ := List.exists_mem_of_ne_nil _ hk
      obtain ⟨hr, hc⟩ := mem_members.mp hr
      have hone := h k (List.ne_nil_of_mem (mem_members.mpr ⟨List.mem_append_right bulk hr, hc⟩))
      rw [List.flatMap_cons, List.length_append] at hone
      omega

theorem evaluated_eq (h : Unsplit (batches E c)) :
    evaluated E c = (collectProcessingData (batches E c).flatten).rows :=
  (rows_collect_flatten (foreign_batches h)).symm

theorem unsplit_of_once (h : ClustersOnce E c) : Unsplit (batches E c) := by
  refine unsplit_of_length fun clusterId hmembers => ?_
  obtain ⟨d, hd, -⟩ := h clusterId hmembers
  rw [← evaluated_filter hmembers, hd, List.length_singleton]

/-- **Clusters are evaluated once, as all their members make them**, exactly when none is split and the
first member of each has the cluster's last expense. -/
theorem clustersOnce_iff :
    ClustersOnce E c ↔ Unsplit (batches E c) ∧ FirstLast (batches E c).flatten := by
  have hone (hunsplit : Unsplit (batches E c)) (clusterId : Uuid)
      (hmembers : members clusterId (batches E c).flatten ≠ []) :
      (evaluated E c).filter (fun d => d.resourceId = clusterId) =
        (aggregate clusterId (members clusterId (batches E c).flatten)).toList := by
    rw [evaluated_eq hunsplit]
    exact filter_collect fun r hr _ => id_ne_of_members hmembers hr
  constructor
  · intro h
    refine ⟨unsplit_of_once h, fun clusterId r hr => ?_⟩
    obtain ⟨rest, hmembers⟩ := List.head?_eq_some_iff.mp hr
    have hne : members clusterId (batches E c).flatten ≠ [] := hmembers ▸ List.cons_ne_nil _ _
    obtain ⟨d, hd, hwhole⟩ := h clusterId hne
    rw [hone (unsplit_of_once h) clusterId hne] at hd
    have hagg : aggregate clusterId (members clusterId (batches E c).flatten) = some d := by
      cases hagg : aggregate clusterId (members clusterId (batches E c).flatten) with
      | none => rw [hagg] at hd; cases hd
      | some d' => rw [hagg] at hd; rw [(List.cons.inj hd).1]
    rw [hmembers] at hagg hwhole ⊢
    exact (whole_aggregate hagg).mp hwhole
  · rintro ⟨hunsplit, hfirst⟩ clusterId hne
    obtain ⟨r, rest, hmembers⟩ := List.exists_cons_of_ne_nil hne
    have hlast := hfirst clusterId r (hmembers ▸ rfl)
    rw [hone hunsplit clusterId hne, hmembers]
    rw [hmembers] at hlast
    exact ⟨_, rfl, (whole_aggregate rfl).mpr hlast⟩

/-- **Processing in batches is processing in one**, and every cluster is evaluated once as all its members
make it, exactly when no cluster lies in two batches and the first member of every cluster has the
cluster's last expense. -/
theorem batches_iff (E : Observer) (s : State) :
    AsOneBatch E s ∧ ClustersOnce E s.collection ↔
      Unsplit (batches E s.collection) ∧ FirstLast (batches E s.collection).flatten := by
  rw [clustersOnce_iff]
  exact ⟨fun h => h.2, fun h => ⟨asOneBatch_of_unsplit h.1, h⟩⟩

theorem hits_processAtOnce {s t : State} (hnone : E.cloudAccountIds ≠ [])
    (h : processAtOnce E s = (.ok (), t)) :
    t.hits = s.hits ++ (greenHits E.toSurroundings (found E s.collection) s.hits ++
      redHits E.toSurroundings (found E s.collection) s.hits) := by
  obtain ⟨-, h⟩ := process_eq_ok.mp h
  rw [if_neg hnone] at h
  obtain ⟨ids, hits', hbatches, rfl⟩ := h
  obtain ⟨-, rfl, -⟩ := processBatches_eq_ok (List.pairwise_singleton _ _) hbatches
  exact congrArg (s.hits ++ ·) (List.flatMap_singleton ..)

/-! ## A cluster in two batches -/

/-- A member of the cluster `0`. -/
def halfMember (id : Uuid) : Document where
  id
  clusterId := some 0
  totalCost := 6
  cloudAccountId := some 0
  active := true

/-- A resource of no cluster. -/
def loneResource (i : ℕ) : Document where
  id := i + 3
  cloudAccountId := some 0
  active := true

/-- What the cursor finds of the collection: the members of a cluster with `n` other resources between
them. -/
def spread (n : ℕ) : List Document :=
  halfMember 1 :: (List.range n).map loneResource ++ [halfMember 2]

/-- The document of the cluster. -/
def clusterDocument : Document where
  id := 0
  organizationId := some 0
  clusterTypeId := some 0
  active := true

theorem mem_spread {n : ℕ} {d : Document} (hd : d ∈ spread n) :
    (∃ i, i ≠ 0 ∧ d = halfMember i) ∨ ∃ i, d = loneResource i := by
  obtain hd | hd := List.mem_append.mp hd
  · obtain rfl | hd := List.mem_cons.mp hd
    · exact Or.inl ⟨1, by decide, rfl⟩
    · obtain ⟨i, -, rfl⟩ := List.mem_map.mp hd
      exact Or.inr ⟨i, rfl⟩
  · obtain rfl := List.mem_singleton.mp hd
    exact Or.inl ⟨2, by decide, rfl⟩

/-- A collection with the members of a cluster far apart. -/
def spreadCollection (n : ℕ) : Collection where
  documents := {
    rows := spread n ++ [clusterDocument]
    nodup := by
      have hlone : ((List.range n).map fun i => i + 3).Nodup :=
        List.nodup_range.map fun i j h => Nat.add_right_cancel h
      simp only [spread, List.map_cons, List.map_append, List.cons_append, List.map_map, List.map_nil,
        List.append_assoc, List.nil_append]
      change (1 :: ((List.range n).map (fun i => i + 3) ++ [2, 0])).Nodup
      refine List.nodup_cons.mpr ⟨fun h => ?_, List.nodup_append.mpr ⟨hlone, by decide, ?_⟩⟩
      · simp at h
      · rintro a ha b hb rfl
        obtain ⟨i, -, rfl⟩ := List.mem_map.mp ha
        simp at hb }
  clusters := by
    intro d hd d' hd' hid
    obtain hd' | hd' := List.mem_append.mp hd'
    · have hzero : d.clusterId = none ∨ d.clusterId = some 0 := by
        obtain hd | hd := List.mem_append.mp hd
        · obtain ⟨j, -, rfl⟩ | ⟨j, rfl⟩ := mem_spread hd
          · exact Or.inr rfl
          · exact Or.inl rfl
        · obtain rfl := List.mem_singleton.mp hd
          exact Or.inl rfl
      have hid' : d'.id = 0 := by
        obtain h | h := hzero
        · rw [h] at hid
          cases hid
        · rw [h] at hid
          exact (Option.some.inj hid).symm
      obtain ⟨i, hi, rfl⟩ | ⟨i, rfl⟩ := mem_spread hd'
      · exact absurd hid' hi
      · exact absurd hid' (Nat.succ_ne_zero _)
    · obtain rfl := List.mem_singleton.mp hd'
      exact Option.some_ne_none _

/-- The cluster may cost 10 in all. -/
def spreadObserver : Observer where
  organizationId := 0
  now := 0
  policies := []
  constraints := ⟨[⟨0, 0, 0, .TOTAL_EXPENSE_LIMIT, 10, 0⟩], by decide⟩
  supportedConstraintTypes := constraintTypes
  sendAlerts _ := .ok ()
  organizationExists := true
  cloudAccountIds := [0]
  order documents := documents
  order_perm _ := .refl _

theorem found_spread (n : ℕ) :
    found spreadObserver (spreadCollection n) = (spread n).map Document.toFound := by
  have hspread : (spread n).filter (fun d => Visible spreadObserver d) = spread n := by
    have hseen : (0 : ℤ) - HOUR_IN_SEC ≤ 0 := by decide
    refine List.filter_eq_self.mpr fun d hd => decide_eq_true ?_
    obtain ⟨i, -, rfl⟩ | ⟨i, rfl⟩ := mem_spread hd <;>
      exact ⟨Or.inl ⟨0, rfl, List.mem_singleton_self 0⟩, rfl, hseen, rfl⟩
  have hcluster : [clusterDocument].filter (fun d => Visible spreadObserver d) = [] := rfl
  rw [found, spreadCollection, List.filter_append, hspread, hcluster, List.append_nil]
  rfl

/-- A cluster below its limit, or a resource without one. -/
theorem violation_spread {d : ResourceData} (h : d.resourceId = 0 → d.totalCost ≤ 10)
    (type : ConstraintType) : violation spreadObserver.toSurroundings d type = none := by
  have hpolicy : policyViolation spreadObserver.toSurroundings d type = none := by
    unfold policyViolation
    split <;> rfl
  have hconstraint : constraintViolation spreadObserver.toSurroundings d type = none := by
    refine List.findSome?_eq_none_iff.mpr fun c hc => ?_
    obtain ⟨hc, hcond⟩ := List.mem_filter.mp (List.mem_reverse.mp hc)
    obtain rfl := List.mem_singleton.mp hc
    simp only [decide_eq_true_eq] at hcond
    obtain ⟨-, -, -, rfl, hid⟩ := hcond
    exact if_neg (not_lt.mpr (by exact_mod_cast h hid.symm))
  rw [violation, hconstraint, hpolicy]
  rfl

/-- A batch with one member of the cluster violates nothing. -/
theorem processResources_spread {bulk : List Found} {id : Uuid}
    (hmembers : members 0 bulk = [(halfMember id).toFound]) (hids : ∀ r ∈ bulk, r.id ≠ 0) :
    processResources spreadObserver.toSurroundings bulk [] = (.ok [], []) := by
  have hcost : ∀ d ∈ (collectProcessingData bulk).rows, d.resourceId = 0 → d.totalCost ≤ 10 := by
    intro d hd hid
    have hmem : d ∈ (collectProcessingData bulk).rows.filter fun d => d.resourceId = 0 :=
      List.mem_filter.mpr ⟨hd, decide_eq_true hid⟩
    rw [filter_collect fun r hr _ => hids r hr, hmembers] at hmem
    obtain rfl := List.mem_singleton.mp hmem
    change (6 : ℚ) ≤ 10
    norm_num
  have hnone {f : ResourceData → ConstraintType → Option ConstraintLimitHit}
      (hf : ∀ d type, violation spreadObserver.toSurroundings d type = none → f d type = none) :
      forEach (collectProcessingData bulk) f = [] := by
    refine List.flatMap_eq_nil_iff.mpr fun d hd => List.filterMap_eq_nil_iff.mpr fun type _ => ?_
    exact hf d type (violation_spread (hcost d hd) type)
  have hgreen : greenHits spreadObserver.toSurroundings bulk [] = [] :=
    hnone fun d type h => by rw [greenHit, h]; rfl
  have hred : redHits spreadObserver.toSurroundings bulk [] = [] :=
    hnone fun d type h => by rw [redHit, h]
  have hmarks : forEach (collectProcessingData bulk) (marked spreadObserver.toSurroundings) = [] := by
    refine List.flatMap_eq_nil_iff.mpr fun d hd => List.filterMap_eq_nil_iff.mpr fun type _ => ?_
    rw [marked, violation_spread (hcost d hd) type]
  refine processResources_eq_ok.mpr ⟨hmarks.symm, ?_, ?_, fun _ => rfl⟩
  · rw [hgreen, hred]
    rfl
  · rw [hgreen, hred]
    exact fun h hh => absurd hh List.not_mem_nil

theorem members_spread (n : ℕ) :
    members 0 ((halfMember 1).toFound :: ((List.range n).map loneResource).map Document.toFound) =
      [(halfMember 1).toFound] := by
  have hlone : members 0 (((List.range n).map loneResource).map Document.toFound) = [] := by
    refine List.filter_eq_nil_iff.mpr fun r hr => ?_
    obtain ⟨d, hd, rfl⟩ := List.mem_map.mp hr
    obtain ⟨i, -, rfl⟩ := List.mem_map.mp hd
    simp [loneResource]
  rw [members, List.filter_cons_of_pos (by decide)]
  exact congrArg _ hlone

theorem map_spread (n : ℕ) : (spread n).map Document.toFound =
    ((halfMember 1).toFound :: ((List.range n).map loneResource).map Document.toFound) ++
      [(halfMember 2).toFound] := by
  rw [spread, List.map_append, List.map_cons]
  rfl

theorem spread_id_ne {n : ℕ} {r : Found} (hr : r ∈ (spread n).map Document.toFound) : r.id ≠ 0 := by
  obtain ⟨d, hd, rfl⟩ := List.mem_map.mp hr
  obtain ⟨i, hi, rfl⟩ | ⟨i, rfl⟩ := mem_spread hd
  · exact hi
  · exact Nat.succ_ne_zero _

/-- The two members in two batches. -/
theorem processBatches_spread {n : ℕ} (hn : n + 1 = BULK_SIZE) :
    processBatches spreadObserver.toSurroundings
      (((spread n).map Document.toFound).toChunks BULK_SIZE) [] = (.ok [], []) := by
  have hid {r : Found} := spread_id_ne (n := n) (r := r)
  rw [map_spread] at hid ⊢
  rw [Chunks.toChunks_append (by simp [hn]) (List.cons_ne_nil _ _),
    Chunks.toChunks_of_le (by simp [BULK_SIZE]) (List.cons_ne_nil _ _)]
  simp only [processBatches, Session.bind_eq_ok, Session.pure_eq_ok]
  exact ⟨[], [], processResources_spread (members_spread n) fun r hr => hid (List.mem_append_left _ hr),
    [], [], ⟨[], [], processResources_spread rfl fun r hr => hid (List.mem_append_right _ hr), [], [],
      ⟨rfl, rfl⟩, rfl, rfl⟩, rfl, rfl⟩

/-- The two members in one batch cost more than their cluster may. -/
theorem redHits_spread (n : ℕ) :
    redHits spreadObserver.toSurroundings ((spread n).map Document.toFound) [] ≠ [] := by
  intro hred
  have hmembers : members 0 ((spread n).map Document.toFound) =
      [(halfMember 1).toFound, (halfMember 2).toFound] := by
    have hone := members_spread n
    rw [members] at hone
    rw [map_spread, members, List.filter_append, hone]
    rfl
  have hrows : (collectProcessingData ((spread n).map Document.toFound)).rows.filter
      (fun d => d.resourceId = 0) =
        (aggregate 0 (members 0 ((spread n).map Document.toFound))).toList :=
    filter_collect fun r hr _ => spread_id_ne hr
  have hmem : ((halfMember 1).toFound.data 0).join (halfMember 2).toFound ∈
      (collectProcessingData ((spread n).map Document.toFound)).rows.filter
        fun d => d.resourceId = 0 := by
    rw [hrows, hmembers]
    exact List.mem_singleton_self _
  have hnone := List.filterMap_eq_nil_iff.mp
    (List.flatMap_eq_nil_iff.mp hred _ (List.mem_filter.mp hmem).1) .TOTAL_EXPENSE_LIMIT (by decide)
  revert hnone
  decide +kernel

theorem split_cluster {n : ℕ} (hn : n + 1 = BULK_SIZE) :
    (∃ t, processViolatedResources spreadObserver ⟨spreadCollection n, []⟩ = (.ok (), t)) ∧
      ¬ AsOneBatch spreadObserver ⟨spreadCollection n, []⟩ := by
  have hsome : spreadObserver.cloudAccountIds ≠ [] := List.cons_ne_nil _ _
  have hrun : processViolatedResources spreadObserver ⟨spreadCollection n, []⟩ =
      (.ok (), ⟨updateViolatedResources spreadObserver [] (spreadCollection n), []⟩) := by
    refine process_eq_ok.mpr ⟨rfl, ?_⟩
    rw [if_neg hsome]
    refine ⟨[], [], ?_, rfl⟩
    rw [found_spread]
    exact processBatches_spread hn
  refine ⟨⟨_, hrun⟩, fun h => ?_⟩
  obtain ⟨t', hrun', -, hhits⟩ := h _ hrun
  rw [hits_processAtOnce hsome hrun', found_spread] at hhits
  exact redHits_spread n (List.append_eq_nil_iff.mp (List.append_eq_nil_iff.mp hhits.symm.eq_nil).2).2

/-- Two members of a cluster in two batches: the cluster costs 12 of the 10 it may, but no batch sees it,
so nothing is marked or recorded. -/
theorem exists_split_cluster :
    (∃ t, processViolatedResources spreadObserver ⟨spreadCollection 1999, []⟩ = (.ok (), t)) ∧
      ¬ AsOneBatch spreadObserver ⟨spreadCollection 1999, []⟩ := split_cluster rfl

end ResourceObserverController
