import OptScale.Rules.Reapply

/-!
# Rules/Reapplied — what `reapply_rules` leaves behind

An assignment is written where it changes the pool or the owner, and then the applied rules only if there
are some.  So a second call finds nothing to write, but the applied rules of a document, and the
assignment of the members of a cluster, can be stale.
-/

open Fallible

namespace RuleApplyController

variable {O : OrganizationContext} {R : RuleContext} {E : Surroundings} {t : Resources} {s s' : Store}
  {poolIds : List Uuid} {r d : Resource} {c c' : Reassigned}

/-! ## One turn -/

/-- The assignment does not depend on what it replaces. -/
theorem handleAssignmentData_unassigned {allowedPools : Uuid → List Uuid} {d' : Resource}
    (hsame : d' = { d with
      poolId := d'.poolId, employeeId := d'.employeeId, appliedRules := d'.appliedRules })
    (tags : List (String × String)) {a : Resource}
    (h : handleAssignmentData R allowedPools { d with tags, poolId := none, employeeId := none } =
      .ok a) :
    ∃ a', handleAssignmentData R allowedPools { d' with tags, poolId := none, employeeId := none } =
      .ok a' ∧ a'.poolId = a.poolId ∧ a'.employeeId = a.employeeId ∧
        a'.appliedRules = a.appliedRules := by
  rw [hsame]
  unfold handleAssignmentData at h ⊢
  simp only [keepsGiven, Bool.false_eq_true, if_false] at h ⊢
  have hinfo (x : Option (List AppliedRule)) : applyRules R { d with
      tags, poolId := none, employeeId := none, appliedRules := x } =
        applyRules R { d with tags, poolId := none, employeeId := none } := rfl
  rw [hinfo]
  split at h
  · obtain rfl := Except.ok.inj h
    exact ⟨_, rfl, rfl, rfl, rfl⟩
  · simp only [bind_eq_ok, orFail_eq_ok, pure_eq_ok] at h
    obtain ⟨root, hroot, rfl⟩ := h
    simp only [hroot, orFail_some, ok_bind]
    exact ⟨_, rfl, rfl, rfl, rfl⟩

theorem reassign_eq_ok (h : reassign O R t r = .ok c) :
    c.resource = r ∧ handleAssignmentData R R.allowedPools { r with
        tags := Tags.decoded O.encoding r.tags, poolId := none, employeeId := none } = .ok c.assigned ∧
      ∀ d ∈ t.rows, d.id ∈ c.ids ↔ d.id = r.id ∨ r.clusterTypeId.isSome ∧ d.clusterId = some r.id := by
  simp only [reassign, bind_eq_ok, pure_eq_ok] at h
  obtain ⟨assigned, hassigned, rfl⟩ := h
  refine ⟨rfl, hassigned, fun d hd => ?_⟩
  rw [List.mem_cons]
  refine or_congr_right ?_
  split
  · rename_i hcluster
    rw [List.mem_map]
    constructor
    · rintro ⟨x, hx, hid⟩
      obtain ⟨hx, hmember⟩ := List.mem_filter.mp hx
      rw [← t.eq_of_key hx hd hid]
      exact ⟨hcluster, of_decide_eq_true hmember⟩
    · exact fun h => ⟨d, List.mem_filter.mpr ⟨hd, decide_eq_true h.2⟩, rfl⟩
  · rename_i hcluster
    exact iff_of_false List.not_mem_nil fun h => hcluster h.1

theorem mem_filterResources : r ∈ filterResources O poolIds t ↔ r ∈ t.rows ∧
    ((∃ a ∈ O.cloudAccounts, r.cloudAccountId = some a) ∨
      r.organizationId = some O.organizationId) ∧
    r.clusterId = none ∧ ∃ p ∈ poolIds, r.poolId = some p := by
  rw [filterResources, List.mem_filter, decide_eq_true_eq]

/-- **A document belongs to one turn**: it is the resource itself, or a member of it. -/
theorem reassign_unique {r' : Resource} (hr : r ∈ filterResources O poolIds t)
    (hr' : r' ∈ filterResources O poolIds t) (hc : reassign O R t r = .ok c)
    (hc' : reassign O R t r' = .ok c') (hd : d ∈ t.rows) (hmem : d.id ∈ c.ids) (hmem' : d.id ∈ c'.ids) :
    r = r' := by
  obtain ⟨hr, -, hfree, -⟩ := mem_filterResources.mp hr
  obtain ⟨hr', -, hfree', -⟩ := mem_filterResources.mp hr'
  obtain hid | ⟨-, hmember⟩ := ((reassign_eq_ok hc).2.2 d hd).mp hmem
  · obtain hid' | ⟨-, hmember'⟩ := ((reassign_eq_ok hc').2.2 d hd).mp hmem'
    · exact t.eq_of_key hr hr' (hid.symm.trans hid')
    · rw [t.eq_of_key hd hr hid, hfree] at hmember'
      cases hmember'
  · obtain hid' | ⟨-, hmember'⟩ := ((reassign_eq_ok hc').2.2 d hd).mp hmem'
    · rw [t.eq_of_key hd hr' hid', hfree'] at hmember
      cases hmember
    · exact t.eq_of_key hr hr' (Option.some.inj (hmember.symm.trans hmember'))

/-! ## The writes -/

/-- A document after the writes: what changes it at all is the assignment of its own turn. -/
def written (changes : List Reassigned) (d : Resource) : Resource :=
  match changes.find? fun c => d.id ∈ c.ids with
  | none => d
  | some c => setAssigned c.assigned d

/-- **The writes do not meet** where each document is of one turn. -/
theorem writeAssigned_rows {changes : List Reassigned}
    (hapart : changes.Pairwise fun c c' => ∀ d ∈ t.rows, d.id ∈ c.ids → d.id ∉ c'.ids) :
    (writeAssigned changes t).rows = t.rows.map (written changes) := by
  induction changes generalizing t with
  | nil => exact (List.map_id _).symm
  | cons c changes ih =>
    obtain ⟨hc, hrest⟩ := List.pairwise_cons.mp hapart
    have hrows := assignIds_rows c.assigned c.ids t
    have hids : ∀ d ∈ (assignIds c.assigned c.ids t).rows, ∃ d₀ ∈ t.rows, d₀.id = d.id := by
      intro d hd
      rw [hrows] at hd
      obtain ⟨d₀, hd₀, rfl⟩ := List.mem_map.mp hd
      refine ⟨d₀, hd₀, ?_⟩
      split <;> rfl
    have happly : writeAssigned (c :: changes) t =
        writeAssigned changes (assignIds c.assigned c.ids t) := rfl
    rw [happly, ih (hrest.imp fun h d hd => by
      obtain ⟨d₀, hd₀, hid⟩ := hids d hd
      rw [← hid]
      exact h d₀ hd₀), hrows, List.map_map]
    refine List.map_congr_left fun d hd => ?_
    simp only [Function.comp_apply]
    by_cases hmem : d.id ∈ c.ids
    · have hnone : changes.find? (fun c' => (setAssigned c.assigned d).id ∈ c'.ids) = none :=
        List.find?_eq_none.mpr fun c' hc' h => hc c' hc' d hd hmem (of_decide_eq_true h)
      rw [if_pos hmem, written, hnone, written, List.find?_cons_of_pos (by simpa using hmem)]
    · rw [if_neg hmem, written, written, List.find?_cons_of_neg (by simpa using hmem)]

/-! ## The call -/

/-- The pools a call is about. -/
def targetPools (E : Surroundings) (poolId : Uuid) (includeChildren : Bool) : List Uuid :=
  if includeChildren then E.hierarchy poolId else [poolId]

/-- **What a call does**: it writes the assignments that change, of all it computes. -/
theorem reapplyRules_eq_ok {poolId : Uuid} {includeChildren : Bool} {resp : Response} :
    reapplyRules O R E poolId includeChildren s = (.ok resp, s') ↔ ∃ results,
      E.employee = .ok () ∧ (E.getPool poolId).isSome ∧ E.publish "rules_processing_started" = .ok () ∧
      (filterResources O (targetPools E poolId includeChildren) s.resources).mapM
        (reassign O R s.resources) = .ok results ∧
      (∀ _i ∈ appliedRules results, E.publish "rule_applied" = .ok ()) ∧
      E.publish "rules_processing_completed" = .ok () ∧
      resp = ⟨results.length, (results.filter fun c => c.Changes).length⟩ ∧
      s' = { s with
        resources := writeAssigned (results.filter fun c => c.Changes) s.resources } := by
  simp only [reapplyRules, Session.bind_eq_ok, Session.read_eq_ok, Session.commit_eq_ok,
    Session.pure_eq_ok, orFail_eq_ok, targetPools]
  constructor
  · rintro ⟨_, _, ⟨hemployee, rfl⟩, pool, _, ⟨hpool, rfl⟩, _, _, ⟨hstarted, rfl⟩, results, _,
      ⟨hresults, rfl⟩, _, _, ⟨happlied, rfl⟩, _, _, hcommit, _, _, ⟨hcompleted, rfl⟩, rfl, rfl⟩
    exact ⟨results, hemployee, Option.isSome_of_eq_some hpool, hstarted, hresults,
      forM_eq_ok.mp happlied, hcompleted, rfl, (Prod.mk.inj (Except.ok.inj hcommit)).2.symm⟩
  · rintro ⟨results, hemployee, hpool, hstarted, hresults, happlied, hcompleted, rfl, rfl⟩
    obtain ⟨pool, hpool⟩ := Option.isSome_iff_exists.mp hpool
    exact ⟨_, _, ⟨hemployee, rfl⟩, pool, _, ⟨hpool, rfl⟩, _, _, ⟨hstarted, rfl⟩, results, _,
      ⟨hresults, rfl⟩, _, _, ⟨forM_eq_ok.mpr happlied, rfl⟩, _, _, rfl, _, _, ⟨hcompleted, rfl⟩, rfl,
      rfl⟩

/-- Only the assignment of a document is written. -/
theorem written_eq (d : Resource) (changes : List Reassigned) : written changes d = { d with
    poolId := (written changes d).poolId
    employeeId := (written changes d).employeeId
    appliedRules := (written changes d).appliedRules } := by
  rw [written]
  split <;> rfl

section Turns

variable {results : List Reassigned}
  (hresults : (filterResources O poolIds t).mapM (reassign O R t) = .ok results)
include hresults

/-- The turns of a call do not meet. -/
theorem results_apart :
    results.Pairwise fun c c' => ∀ d ∈ t.rows, d.id ∈ c.ids → d.id ∉ c'.ids := by
  have hnodup : (filterResources O poolIds t).Pairwise (· ≠ ·) :=
    ((List.Nodup.of_map _ t.nodup).filter _)
  refine pairwise_of_mapM_eq_ok (fun r r' c c' hrr' hc hc' => ?_) (List.Pairwise.and_mem.mp hnodup)
    hresults
  intro d hd hmem hmem'
  exact hrr'.2.2 (reassign_unique hrr'.1 hrr'.2.1 hc hc' hd hmem hmem')

/-- **A document of a turn** gets the assignment of the turn, if that changes anything. -/
theorem written_of_turn (hr : r ∈ filterResources O poolIds t) (hc : reassign O R t r = .ok c)
    (hd : d ∈ t.rows) (hmem : d.id ∈ c.ids) :
    written (results.filter fun c => c.Changes) d = if c.Changes then setAssigned c.assigned d else d := by
  have hown : ∀ c' ∈ results.filter (fun c => c.Changes), d.id ∈ c'.ids → c' = c := by
    intro c' hc' hmem'
    obtain ⟨r', hr', hc''⟩ := (mem_of_mapM_eq_ok hresults c').mp (List.mem_of_mem_filter hc')
    obtain rfl := reassign_unique hr hr' hc hc'' hd hmem hmem'
    exact Except.ok.inj (hc''.symm.trans hc)
  rw [written]
  split
  · rename_i hnone
    have hchanges : ¬ c.Changes := fun hchanges => by
      have hin : c ∈ results.filter fun c => c.Changes :=
        List.mem_filter.mpr ⟨(mem_of_mapM_eq_ok hresults c).mpr ⟨r, hr, hc⟩, decide_eq_true hchanges⟩
      exact List.find?_eq_none.mp hnone c hin (decide_eq_true hmem)
    rw [if_neg hchanges]
  · rename_i c' hfind
    have hin := List.mem_of_find?_eq_some hfind
    obtain rfl := hown c' hin (by simpa using List.find?_some hfind)
    rw [if_pos (of_decide_eq_true (List.mem_filter.mp hin).2)]

end Turns

/-! ## Faithful and idle -/

/-- The document has the assignment; no applied rules are as good as none. -/
def HasAssignment (assigned d : Resource) : Prop :=
  d.poolId = assigned.poolId ∧ d.employeeId = assigned.employeeId ∧
    d.appliedRules.getD [] = assigned.appliedRules.getD []

/-- **Every document of a turn ends with the assignment of the turn.** -/
def Faithful (O : OrganizationContext) (R : RuleContext) (poolIds : List Uuid) (t t' : Resources) :
    Prop :=
  ∀ r ∈ filterResources O poolIds t, ∀ c, reassign O R t r = .ok c →
    ∀ d ∈ t'.rows, d.id ∈ c.ids → HasAssignment c.assigned d

/-- **Assignments that can be written as they are**: one that changes the resource names a rule, or
replaces none, and one that does not is what the resource and its members have. -/
def Writable (O : OrganizationContext) (R : RuleContext) (poolIds : List Uuid) (t : Resources) :
    Prop :=
  ∀ r ∈ filterResources O poolIds t, ∀ c, reassign O R t r = .ok c → ∀ d ∈ t.rows, d.id ∈ c.ids →
    if c.Changes then c.assigned.appliedRules = none → d.appliedRules.getD [] = []
    else HasAssignment c.assigned d

theorem hasAssignment_setAssigned {assigned : Resource} :
    HasAssignment assigned (setAssigned assigned d) ↔
      (assigned.appliedRules = none → d.appliedRules.getD [] = []) := by
  cases h : assigned.appliedRules <;> simp [HasAssignment, setAssigned, h]

/-- The documents of a turn keep their ids. -/
theorem faithful_iff {poolId : Uuid} {includeChildren : Bool} {resp : Response}
    (h : reapplyRules O R E poolId includeChildren s = (.ok resp, s')) :
    Faithful O R (targetPools E poolId includeChildren) s.resources s'.resources ↔
      Writable O R (targetPools E poolId includeChildren) s.resources := by
  obtain ⟨results, -, -, -, hresults, -, -, -, rfl⟩ := reapplyRules_eq_ok.mp h
  have hrows := writeAssigned_rows ((results_apart hresults).filter fun c => c.Changes)
  refine forall₂_congr fun r hr => forall₂_congr fun c hc => ?_
  simp only [hrows, List.forall_mem_map]
  refine forall₂_congr fun d hd => ?_
  have hid : (written (results.filter fun c => c.Changes) d).id = d.id := by
    rw [written_eq d]
  rw [hid]
  refine forall_congr' fun hmem => ?_
  rw [written_of_turn hresults hr hc hd hmem]
  split
  · exact hasAssignment_setAssigned
  · exact Iff.rfl

/-- **The turn after**: a resource is found in the target pools again only if it was before, and is
assigned what it has. -/
theorem reassign_again {results : List Reassigned} {t' : Resources} {r' : Resource}
    (hresults : (filterResources O poolIds t).mapM (reassign O R t) = .ok results)
    (ht' : t' = writeAssigned (results.filter fun c => c.Changes) t)
    (hr' : r' ∈ filterResources O poolIds t') :
    ∃ c' ∈ (reassign O R t' r').toOption, ¬ c'.Changes ∧
      ∃ c ∈ results, c'.assigned.appliedRules = c.assigned.appliedRules := by
  subst ht'
  obtain ⟨hrow, hscope, hfree, hpool⟩ := mem_filterResources.mp hr'
  rw [writeAssigned_rows ((results_apart hresults).filter fun c => c.Changes)] at hrow
  obtain ⟨d, hd, rfl⟩ := List.mem_map.mp hrow
  have hsame := written_eq d (results.filter fun c => c.Changes)
  have hfree' : d.clusterId = none := (congrArg Resource.clusterId hsame).symm.trans hfree
  -- what was written to `d` was the assignment of `d` itself
  have hturn : d ∈ filterResources O poolIds t := by
    cases hfind : (results.filter fun c => c.Changes).find? fun c => d.id ∈ c.ids with
    | none =>
      have hnone : written (results.filter fun c => c.Changes) d = d := by rw [written, hfind]
      rw [hnone] at hscope hpool
      exact mem_filterResources.mpr ⟨hd, hscope, hfree', hpool⟩
    | some c =>
      have hmem : d.id ∈ c.ids := by simpa using List.find?_some hfind
      obtain ⟨r, hr, hc⟩ := (mem_of_mapM_eq_ok hresults c).mp
        (List.mem_of_mem_filter (List.mem_of_find?_eq_some hfind))
      obtain hid | ⟨-, hmember⟩ := ((reassign_eq_ok hc).2.2 d hd).mp hmem
      · exact t.eq_of_key hd (mem_filterResources.mp hr).1 hid ▸ hr
      · rw [hfree'] at hmember
        cases hmember
  obtain ⟨c, hc⟩ := mapM_ok.mp ⟨results, hresults⟩ d hturn
  obtain ⟨hresource, hassigned, hids⟩ := reassign_eq_ok hc
  have hwritten := written_of_turn hresults hturn hc hd ((hids d hd).mpr (Or.inl rfl))
  obtain ⟨a', ha', hpool', howner', hrules'⟩ := handleAssignmentData_unassigned hsame _ hassigned
  have htags : (written (results.filter fun c => c.Changes) d).tags = d.tags := by rw [hsame]
  have hagain := ha'
  rw [← htags] at hagain
  refine ⟨_, toOption_eq_some.mpr (bind_eq_ok.mpr ⟨a', hagain, rfl⟩), ?_,
    c, (mem_of_mapM_eq_ok hresults c).mpr ⟨d, hturn, hc⟩, hrules'⟩
  rw [hwritten]
  split
  · exact fun h => h.elim (fun hne => hne hpool') fun hne => hne howner'
  · rename_i hchanges
    rw [Reassigned.Changes, hresource, ← hpool', ← howner'] at hchanges
    exact hchanges

/-- **A second call finds nothing to do**: it goes through, reports no updated assignment and writes
nothing. -/
theorem reapplyRules_again {poolId : Uuid} {includeChildren : Bool} {resp : Response}
    (h : reapplyRules O R E poolId includeChildren s = (.ok resp, s')) :
    ∃ resp', reapplyRules O R E poolId includeChildren s' = (.ok resp', s') ∧
      resp'.updatedAssignments = 0 := by
  obtain ⟨results, hemployee, hpool, hstarted, hresults, happlied, hcompleted, -, rfl⟩ :=
    reapplyRules_eq_ok.mp h
  set t' := writeAssigned (results.filter fun c => c.Changes) s.resources with ht'
  obtain ⟨results', hresults'⟩ : ∃ results', (filterResources O (targetPools E poolId includeChildren)
      t').mapM (reassign O R t') = .ok results' := by
    refine mapM_ok.mpr fun r' hr' => ?_
    obtain ⟨c', hc', -⟩ := reassign_again hresults ht' hr'
    exact ⟨c', toOption_eq_some.mp hc'⟩
  have hagain : ∀ c' ∈ results', ¬ c'.Changes ∧
      ∃ c ∈ results, c'.assigned.appliedRules = c.assigned.appliedRules := by
    intro c' hc'
    obtain ⟨r', hr', hc'⟩ := (mem_of_mapM_eq_ok hresults' c').mp hc'
    obtain ⟨c'', hc'', hsame⟩ := reassign_again hresults ht' hr'
    obtain rfl := Except.ok.inj (hc'.symm.trans (toOption_eq_some.mp hc''))
    exact hsame
  have hnone : results'.filter (fun c => c.Changes) = [] :=
    List.filter_eq_nil_iff.mpr fun c' hc' hchanges => (hagain c' hc').1 (of_decide_eq_true hchanges)
  refine ⟨⟨results'.length, 0⟩, reapplyRules_eq_ok.mpr ⟨results', hemployee, hpool, hstarted, hresults',
    fun i hi => ?_, hcompleted, by rw [hnone]; rfl, by rw [hnone]; rfl⟩, rfl⟩
  simp only [appliedRules, List.mem_dedup, List.mem_map, List.mem_flatMap] at hi
  obtain ⟨rule, ⟨c', hc', hrule⟩, -⟩ := hi
  obtain ⟨-, c, hc, hsame⟩ := hagain c' hc'
  refine happlied rule.id ?_
  simp only [appliedRules, List.mem_dedup, List.mem_map, List.mem_flatMap]
  exact ⟨rule, ⟨c, hc, hsame ▸ hrule⟩, rfl⟩

/-- **Re-application is faithful, and idle the second time, exactly when its assignments can be written
as they are.** -/
theorem faithful_idle_iff {poolId : Uuid} {includeChildren : Bool} {resp : Response}
    (h : reapplyRules O R E poolId includeChildren s = (.ok resp, s')) :
    (Faithful O R (targetPools E poolId includeChildren) s.resources s'.resources ∧
      ∃ resp', reapplyRules O R E poolId includeChildren s' = (.ok resp', s') ∧
        resp'.updatedAssignments = 0) ↔
      Writable O R (targetPools E poolId includeChildren) s.resources :=
  (and_iff_left (reapplyRules_again h)).trans (faithful_iff h)

/-! ### A rule that is no more -/

/-- An organization without data sources. -/
def plainOrganization : OrganizationContext where
  organizationId := 1
  cloudAccounts := []
  encoding := ⟨fun s => s, fun s => s, fun _ => rfl⟩
  genId := .successor

/-- No rules are left. -/
def noRules : RuleContext where
  rules := []
  ruleMatches _ _ := false
  allowedPools _ := []
  rootPool := some { id := 3, organizationId := 1, defaultOwnerId := some 4 }

/-- A call that nothing stands in the way of. -/
def openCall : Surroundings where
  employee := .ok ()
  getPool _ := noRules.rootPool
  hierarchy poolId := [poolId]
  publish _ := .ok ()

/-- A resource of the root pool and its owner. -/
def assignedTo (appliedRules : Option (List AppliedRule)) : Resource where
  id := 6
  organizationId := some 1
  poolId := some 3
  employeeId := some 4
  appliedRules

/-- A collection with one resource. -/
def oneResource (r : Resource) : Store where
  resources := ⟨[r], List.nodup_singleton _⟩
  clusterTypes := .empty
  bookings := .empty
  requests := .empty
  constraints := .empty

/-- **A deleted rule stays applied**: the root pool and its owner are what the resource has already, so
nothing is written. -/
theorem exists_stale_applied_rules :
    ¬ ∀ (O : OrganizationContext) (R : RuleContext) (E : Surroundings) (poolId : Uuid)
      (includeChildren : Bool) (s s' : Store) (resp : Response),
      reapplyRules O R E poolId includeChildren s = (.ok resp, s') →
        Faithful O R (targetPools E poolId includeChildren) s.resources s'.resources := by
  intro hclaim
  have hfaithful := hclaim plainOrganization noRules openCall 3 false
    (oneResource (assignedTo (some [⟨5, "rule".toList, 3⟩]))) _ _ rfl
  have h := hfaithful (assignedTo (some [⟨5, "rule".toList, 3⟩])) (by decide) _ rfl
    (assignedTo (some [⟨5, "rule".toList, 3⟩])) List.mem_cons_self (by decide)
  exact absurd h.2.2 (by decide)

/-- Where no rule was applied, nothing is stale. -/
theorem faithful_idle_unassigned :
    Faithful plainOrganization noRules (targetPools openCall 3 false)
        (oneResource (assignedTo none)).resources (oneResource (assignedTo none)).resources ∧
      ∃ resp', reapplyRules plainOrganization noRules openCall 3 false (oneResource (assignedTo none)) =
        (.ok resp', oneResource (assignedTo none)) ∧ resp'.updatedAssignments = 0 := by
  have hrun : reapplyRules plainOrganization noRules openCall 3 false (oneResource (assignedTo none)) =
      (.ok ⟨1, 0⟩, oneResource (assignedTo none)) := rfl
  refine (faithful_idle_iff hrun).mpr fun r hr c hc d hd _ => ?_
  obtain rfl := List.mem_singleton.mp (List.mem_of_mem_filter hr)
  obtain rfl := List.mem_singleton.mp hd
  obtain rfl := Except.ok.inj hc
  rw [if_neg (by decide)]
  exact ⟨rfl, rfl, rfl⟩

end RuleApplyController
