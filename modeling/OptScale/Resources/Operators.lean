import OptScale.Resources.Upsert

/-!
# Resources/Operators — no field is under two operators

What changes and what does not have no field in common (`splitChanges_apart`), so neither have `$set`,
`$setOnInsert`, `$min` and `$max`.  For a resource that is not stored yet each field of the payload is under exactly
one of them (`updateOf_wellFormed`): with its own value, but for the assignment and the encoding of the tags.
-/

open Fallible

namespace ResourceUpsert

/-! ## The operators -/

/-- Two documents have no field in common. -/
def Apart (a b : Document) : Prop := ∀ f, a.lookup f = none ∨ b.lookup f = none

/-- The operators, each with its fields. -/
def OpDetails.dicts (ops : OpDetails) : List Document := [ops.set, ops.setOnInsert, ops.min, ops.max]

/-- What is written to a field. -/
def OpDetails.writes (ops : OpDetails) (field : String) : List FieldValue :=
  ops.dicts.filterMap fun d => d.lookup field

/-- The dates, and their days. -/
def dateFields : List String := ["first_seen", "last_seen", "_first_seen_date", "_last_seen_date"]

section Operators

variable {update insertion : Document} {f : String}

theorem lookup_takeFields (a b : String) : (takeFields [a, b] update).lookup f =
    if f = a ∨ f = b then (update.lookup f).filter (· ≠ .null) else none := by
  have hstep : ∀ (d : Document) (field : String), (takeField update d field).lookup f =
      if f = field then ((update.lookup field).filter (· ≠ .null)).or (d.lookup f) else d.lookup f := by
    intro d field
    unfold takeField
    cases (update.lookup field).filter (· ≠ .null) <;> simp
  unfold takeFields
  rw [List.foldl_cons, List.foldl_cons, List.foldl_nil, hstep, hstep, Dict.lookup_empty]
  by_cases ha : f = a
  · by_cases hb : f = b
    · rw [if_pos hb, if_pos ha, if_pos (Or.inl ha), ← ha, ← hb]
      cases (update.lookup f).filter (· ≠ .null) <;> rfl
    · rw [if_neg hb, if_pos ha, if_pos (Or.inl ha), ← ha, Option.or_none]
  · by_cases hb : f = b
    · rw [if_pos hb, if_neg ha, if_pos (Or.inr hb), ← hb, Option.or_none]
    · rw [if_neg hb, if_neg ha, if_neg (by rintro (h | h); exacts [ha h, hb h])]

variable (update insertion f) in
theorem lookup_set_opDetails : (opDetails update insertion).set.lookup f =
    if f ∈ dateFields then none else update.lookup f := by
  unfold opDetails dateFields
  simp only [Dict.lookup_popped, List.mem_cons, List.not_mem_nil, or_false]
  split_ifs <;> simp_all

/-- **Operators over fields that are apart are apart.** -/
theorem opDetails_apart (h : Apart update insertion) : (opDetails update insertion).dicts.Pairwise Apart := by
  have hset : ∀ f, update.lookup f = none → (opDetails update insertion).set.lookup f = none := fun f hf => by
    rw [lookup_set_opDetails, hf, ite_self]
  have hmin : ∀ f, update.lookup f = none → (opDetails update insertion).min.lookup f = none := fun f hf => by
    rw [opDetails, lookup_takeFields, hf, Option.filter_none, ite_self]
  have hmax : ∀ f, update.lookup f = none → (opDetails update insertion).max.lookup f = none := fun f hf => by
    rw [opDetails, lookup_takeFields, hf, Option.filter_none, ite_self]
  have hsetMin : Apart (opDetails update insertion).set (opDetails update insertion).min := fun f => by
    rw [lookup_set_opDetails, opDetails, lookup_takeFields]
    unfold dateFields
    by_cases hf : f = "first_seen" ∨ f = "_first_seen_date"
    · exact Or.inl (if_pos (by rcases hf with rfl | rfl <;> decide))
    · exact Or.inr (if_neg hf)
  have hsetMax : Apart (opDetails update insertion).set (opDetails update insertion).max := fun f => by
    rw [lookup_set_opDetails, opDetails, lookup_takeFields]
    unfold dateFields
    by_cases hf : f = "last_seen" ∨ f = "_last_seen_date"
    · exact Or.inl (if_pos (by rcases hf with rfl | rfl <;> decide))
    · exact Or.inr (if_neg hf)
  have hminMax : Apart (opDetails update insertion).min (opDetails update insertion).max := fun f => by
    rw [opDetails, lookup_takeFields, lookup_takeFields]
    by_cases hf : f = "last_seen" ∨ f = "_last_seen_date"
    · exact Or.inl (if_neg (by rcases hf with rfl | rfl <;> decide))
    · exact Or.inr (if_neg hf)
  unfold OpDetails.dicts
  simp only [List.pairwise_cons, List.mem_cons, List.not_mem_nil, or_false, forall_eq_or_imp, forall_eq,
    IsEmpty.forall_iff, implies_true, and_true, List.Pairwise.nil]
  exact ⟨⟨fun f => (h f).imp (hset f) id, hsetMin, hsetMax⟩, ⟨fun f => (h f).symm.imp id (hmin f),
    fun f => (h f).symm.imp id (hmax f)⟩, hminMax⟩

end Operators

/-! ## The split -/

/-- The fields taken before the rest is split. -/
def takenFields : List String := ["service_name", "first_seen", "last_seen", "tags", "meta"]

/-- The fields that can have changed before the rest is split. -/
def changedFields : List String :=
  ["service_name", "first_seen", "last_seen", "_first_seen_date", "_last_seen_date", "meta"]

section Split

variable {C : Context} {behavior : Behavior} {isReportImport : Bool} {resource db changed rest d : Document}
  {f field : String} {default : FieldValue} {s : Document × Document}

@[simp] theorem lookup_takeService_fst : (takeService db field default s).1.lookup f =
    if f = field ∧ ((s.2.lookup field).getD default).truthy ∧ (s.2.lookup field).getD default ≠ get db field then
      some ((s.2.lookup field).getD default)
    else s.1.lookup f := by
  unfold takeService
  dsimp only
  by_cases h : ((s.2.lookup field).getD default).truthy ∧ (s.2.lookup field).getD default ≠ get db field
  · rw [if_pos h, Dict.lookup_set]
    by_cases hf : f = field
    · rw [if_pos hf, if_pos ⟨hf, h⟩]
    · rw [if_neg hf, if_neg fun hand => hf hand.1]
  · rw [if_neg h, if_neg fun hand => h hand.2]

@[simp] theorem lookup_takeService_snd :
    (takeService db field default s).2.lookup f = if f = field then none else s.2.lookup f :=
  Dict.lookup_popped ..

theorem lookup_setDay (h : setDay field changed = .ok d) (hf : f ≠ "_" ++ field ++ "_date") :
    d.lookup f = changed.lookup f := by
  unfold setDay at h
  split at h
  · exact congrArg _ (Except.ok.inj h).symm
  · obtain ⟨day, -, h⟩ := bind_eq_ok.mp h
    obtain rfl := pure_eq_ok.mp h
    rw [Dict.lookup_set, if_neg hf]

/-- **What `split_changes` makes of a resource**: what has changed for sure is divided with the rest. -/
theorem splitChanges_eq_ok {split : Document × Document}
    (h : splitChanges C resource db behavior isReportImport = .ok split) :
    ∃ changed rest tags, (∀ f, changed.lookup f ≠ none → f ∈ changedFields) ∧
      (∀ f ∈ ["service_name", "first_seen", "last_seen"], ∀ v, resource.lookup f = some v → v.truthy →
        v ≠ get db f → changed.lookup f = some v) ∧
      (∀ f, rest.lookup f = if f ∈ takenFields then none else resource.lookup f) ∧
      tags = Tags.updateEncodedTags C.encoding (get (db.popped "meta") "tags").asTags (get resource "tags").asTags
        isReportImport ∧
      split = if db.popped "meta" = ∅ then ((divide behavior (db.popped "meta") changed rest).1,
          (divide behavior (db.popped "meta") changed rest).2.set "tags" (.tags tags))
        else ((divide behavior (db.popped "meta") changed rest).1.set "tags" (.tags tags),
          (divide behavior (db.popped "meta") changed rest).2) := by
  obtain ⟨first, hfirst, h⟩ := bind_eq_ok.mp h
  obtain ⟨dated, hdated, h⟩ := bind_eq_ok.mp h
  obtain rfl := pure_eq_ok.mp h
  have hlookup : ∀ f, f ≠ "_first_seen_date" → f ≠ "_last_seen_date" → dated.lookup f = _ := fun f hf hl =>
    (lookup_setDay hdated hl).trans (lookup_setDay hfirst hf)
  refine ⟨_, _, _, fun f hf => ?_, fun f hf v hv htruthy hne => ?_, fun f => ?_, ?_, rfl⟩
  · by_contra hmem
    simp only [changedFields, List.mem_cons, List.not_mem_nil, or_false, not_or] at hmem
    obtain ⟨hservice, hseen, hlast, hseenDate, hlastDate, hmeta⟩ := hmem
    refine hf ?_
    split
    · rw [hlookup f hseenDate hlastDate]
      simp [hservice, hseen, hlast]
    · rw [Dict.lookup_set, if_neg hmeta, hlookup f hseenDate hlastDate]
      simp [hservice, hseen, hlast]
  · simp only [List.mem_cons, List.not_mem_nil, or_false] at hf
    have hvalue : dated.lookup f = some v := by
      obtain rfl | rfl | rfl := hf <;> rw [hlookup _ (by decide) (by decide)] <;> simp [hv, htruthy, hne]
    have hmeta : f ≠ "meta" := by obtain rfl | rfl | rfl := hf <;> decide
    split
    · exact hvalue
    · rwa [Dict.lookup_set, if_neg hmeta]
  · simp only [Dict.lookup_popped, lookup_takeService_snd, takenFields, List.mem_cons, List.not_mem_nil, or_false]
    split_ifs <;> simp_all
  · simp [get]

theorem lookup_setTruthy {value : FieldValue} : (setTruthy d field value).lookup f =
    if f = field ∧ value.truthy then some value else d.lookup f := by
  unfold setTruthy
  by_cases hv : value.truthy <;> by_cases hf : f = field <;> simp [hv, hf]

variable (db rest s) in
/-- The ids aside, `splitIds` leaves the fields as they are. -/
theorem lookup_splitIds (hid : f ≠ "cloud_resource_id") (hhash : f ≠ "cloud_resource_hash") :
    (splitIds rest db s).1.lookup f = s.1.lookup f ∧ (splitIds rest db s).2.lookup f = s.2.lookup f := by
  unfold splitIds
  dsimp only
  split_ifs <;> simp [lookup_setTruthy, hid, hhash]

/-- Of the ids each is on one side at most. -/
theorem splitIds_apart (hid : s.1.lookup "cloud_resource_id" = none ∧ s.2.lookup "cloud_resource_id" = none)
    (hhash : s.1.lookup "cloud_resource_hash" = none ∧ s.2.lookup "cloud_resource_hash" = none)
    (hf : f = "cloud_resource_id" ∨ f = "cloud_resource_hash") :
    (splitIds rest db s).1.lookup f = none ∨ (splitIds rest db s).2.lookup f = none := by
  unfold splitIds
  dsimp only
  obtain rfl | rfl := hf <;> split_ifs <;> simp [lookup_setTruthy, hid, hhash]

theorem changedField_or_unchangedField (value : FieldValue) :
    changedField db f value = none ∨ unchangedField db f value = none := by
  unfold changedField unchangedField
  split_ifs <;> simp

variable (behavior db) in
theorem lookup_divide_of_none (hchanged : changed.lookup f = none) (hrest : rest.lookup f = none)
    (hid : f ≠ "cloud_resource_id") (hhash : f ≠ "cloud_resource_hash") :
    (divide behavior db changed rest).1.lookup f = none ∧ (divide behavior db changed rest).2.lookup f = none := by
  unfold divide
  cases behavior with
  | update_existing =>
    obtain ⟨hfst, hsnd⟩ := lookup_splitIds db rest (Dict.collect (changedField db) rest changed,
      Dict.collect (unchangedField db) rest ∅) hid hhash
    simp only [hfst, hsnd, Dict.lookup_collect, hchanged, hrest, Option.bind_none, Option.or_none, Dict.lookup_empty,
      and_self]
  | error_existing => simp only [hchanged, Dict.lookup_update, hrest, Option.or_none, and_self]
  | skip_existing => exact ⟨hchanged, hrest⟩

variable (db) in
/-- **What is divided is apart.** -/
theorem divide_apart (hbehavior : behavior ≠ .error_existing)
    (hchanged : ∀ f, changed.lookup f ≠ none → f ∈ changedFields) (hrest : ∀ f ∈ changedFields, rest.lookup f = none) :
    Apart (divide behavior db changed rest).1 (divide behavior db changed rest).2 := by
  have hnone : ∀ f, f ∉ changedFields → changed.lookup f = none := fun f hf => by
    by_contra h
    exact hf (hchanged f h)
  intro f
  unfold divide
  cases behavior with
  | error_existing => exact absurd rfl hbehavior
  | skip_existing =>
    by_cases hf : f ∈ changedFields
    · exact Or.inr (hrest f hf)
    · exact Or.inl (hnone f hf)
  | update_existing =>
    by_cases hid : f = "cloud_resource_id" ∨ f = "cloud_resource_hash"
    · have hids : ∀ g, g = "cloud_resource_id" ∨ g = "cloud_resource_hash" →
          (Dict.collect (changedField db) rest changed).lookup g = none ∧
            (Dict.collect (unchangedField db) rest ∅).lookup g = none := by
        intro g hg
        have hg' : changed.lookup g = none := hnone g (by obtain rfl | rfl := hg <;> decide)
        rw [Dict.lookup_collect, Dict.lookup_collect, Dict.lookup_empty, hg', Option.or_none]
        cases rest.lookup g <;> simp [changedField, unchangedField, hg]
      exact splitIds_apart (hids _ (Or.inl rfl)) (hids _ (Or.inr rfl)) hid
    · obtain ⟨hid, hhash⟩ := not_or.mp hid
      obtain ⟨hfst, hsnd⟩ := lookup_splitIds db rest
        (Dict.collect (changedField db) rest changed, Dict.collect (unchangedField db) rest ∅) hid hhash
      dsimp only
      rw [hfst, hsnd, Dict.lookup_collect, Dict.lookup_collect, Dict.lookup_empty, Option.or_none]
      by_cases hf : f ∈ changedFields
      · exact Or.inr (by rw [hrest f hf, Option.bind_none])
      · rw [hnone f hf, Option.or_none]
        cases rest.lookup f with
        | none => exact Or.inl rfl
        | some v => exact changedField_or_unchangedField v

/-- **What changes and what does not have no field in common.** -/
theorem splitChanges_apart {split : Document × Document} (hbehavior : behavior ≠ .error_existing)
    (hseen : resource.lookup "_first_seen_date" = none) (hlast : resource.lookup "_last_seen_date" = none)
    (h : splitChanges C resource db behavior isReportImport = .ok split) : Apart split.1 split.2 := by
  obtain ⟨changed, rest, tags, hchanged, -, hrest, -, rfl⟩ := splitChanges_eq_ok h
  have hnone : ∀ f ∈ changedFields, rest.lookup f = none := by
    intro f hf
    rw [hrest]
    simp only [changedFields, List.mem_cons, List.not_mem_nil, or_false] at hf
    obtain rfl | rfl | rfl | rfl | rfl | rfl := hf <;> simp [takenFields, hseen, hlast]
  have hapart := divide_apart (db.popped "meta") hbehavior hchanged hnone
  have htags := lookup_divide_of_none behavior (db.popped "meta")
    (by_contra fun hne => absurd (hchanged "tags" hne) (by decide)) ((hrest "tags").trans (if_pos (by decide)))
    (by decide) (by decide)
  intro f
  by_cases hf : f = "tags"
  · split
    · exact Or.inl (hf ▸ htags.1)
    · exact Or.inr (hf ▸ htags.2)
  · split
    · rw [Dict.lookup_set, if_neg hf]
      exact hapart f
    · rw [Dict.lookup_set, if_neg hf]
      exact hapart f

end Split

/-! ## From the payload to the resource -/

/-- The fields that are set with the assignment. -/
def assignedFields : List String :=
  ["_id", "created_at", "deleted_at", "cluster_id", "pool_id", "employee_id", "owner_id", "applied_rules"]

section Assigned

variable {C : Context} {cluster : Option Document} {d p q : Document} {f : String} {v : FieldValue}

theorem checkRestrictions_eq_ok (h : checkRestrictions C d = .ok ()) (hf : d.lookup f ≠ none) :
    f ∈ requiredFields ++ optionalParams := by
  obtain ⟨_, -, h⟩ := bind_eq_ok.mp h
  obtain ⟨_, -, h⟩ := bind_eq_ok.mp h
  obtain ⟨_, himmutable, h⟩ := bind_eq_ok.mp h
  obtain ⟨_, hknown, -⟩ := bind_eq_ok.mp h
  have hmem : f ∈ d.keys := AList.mem_keys.mpr (AList.lookup_isSome.mp (Option.isSome_iff_ne_none.mpr hf))
  have hall := require_eq_ok.mp hknown f hmem
  simp only [List.mem_append] at hall ⊢
  obtain (hreq | himm) | hopt := hall
  · exact Or.inl hreq
  · exact absurd (require_eq_ok.mp himmutable f himm) hf
  · exact Or.inr hopt

theorem lookup_withAccount (hf : f ≠ "cloud_account_id") : (withAccount C p).lookup f = p.lookup f := by
  unfold withAccount
  split
  · rfl
  · rw [Dict.lookup_set, if_neg hf]

theorem lookup_account : (withAccount C p).lookup "cloud_account_id" =
    some (if (get p "cloud_account_id").truthy then get p "cloud_account_id" else .str C.cloudAccountId) := by
  unfold withAccount
  split
  · rename_i h
    unfold get at h ⊢
    cases hp : p.lookup "cloud_account_id" with
    | none => rw [hp] at h; exact absurd h (by decide)
    | some v => rfl
  · exact (Dict.lookup_set ..).trans (if_pos rfl)

theorem lookup_extendPayload (hf : f ∉ assignedFields) : (extendPayload C d).lookup f = d.lookup f := by
  simp only [assignedFields, List.mem_cons, List.not_mem_nil, or_false, not_or] at hf
  simp [extendPayload, hf]

/-- The assignment leaves the other fields alone, and sets owner and pool. -/
theorem handleAssignmentData_eq_ok (h : handleAssignmentData C d = .ok q) :
    (∀ f ∉ assignedFields, q.lookup f = d.lookup f) ∧ (q.lookup "pool_id").isSome ∧
      (q.lookup "employee_id").isSome ∧
      (permitted C ((d.lookup "employee_id").getD (get d "owner_id")) (get d "pool_id") →
        q.lookup "pool_id" = some (get d "pool_id") ∧
          q.lookup "employee_id" = some ((d.lookup "employee_id").getD (get d "owner_id"))) := by
  unfold handleAssignmentData at h
  dsimp only at h
  split at h
  · obtain rfl := Except.ok.inj h
    refine ⟨fun f hf => ?_, by simp, by simp, fun _ => by simp⟩
    simp only [assignedFields, List.mem_cons, List.not_mem_nil, or_false, not_or] at hf
    simp [hf]
  · rename_i hrefused
    obtain ⟨decision, -, h⟩ := bind_eq_ok.mp h
    have hset : ∀ bare e o, q = (bare : Document) →
        (∀ f ∉ assignedFields, bare.lookup f = d.lookup f) → bare.lookup "pool_id" = some e →
        bare.lookup "employee_id" = some o → (∀ f ∉ assignedFields, q.lookup f = d.lookup f) ∧
          (q.lookup "pool_id").isSome ∧ (q.lookup "employee_id").isSome ∧
          (permitted C ((d.lookup "employee_id").getD (get d "owner_id")) (get d "pool_id") →
            q.lookup "pool_id" = some (get d "pool_id") ∧
              q.lookup "employee_id" = some ((d.lookup "employee_id").getD (get d "owner_id"))) := by
      rintro bare e o rfl hbare hpool howner
      exact ⟨hbare, by rw [hpool]; rfl, by rw [howner]; rfl, fun h => absurd h hrefused⟩
    cases decision with
    | some decision =>
      obtain rfl := pure_eq_ok.mp h
      refine hset _ decision.2.1 decision.1 rfl (fun f hf => ?_) (by simp) (by simp)
      simp only [assignedFields, List.mem_cons, List.not_mem_nil, or_false, not_or] at hf
      simp [hf]
    | none =>
      obtain ⟨rootPool, -, h⟩ := bind_eq_ok.mp h
      obtain rfl := pure_eq_ok.mp h
      refine hset _ rootPool.2 rootPool.1 rfl (fun f hf => ?_) (by simp) (by simp)
      simp only [assignedFields, List.mem_cons, List.not_mem_nil, or_false, not_or] at hf
      simp [hf]

/-- The resource with its assignment, and the payload it is made of. -/
structure AssignedFrom (C : Context) (cluster : Option Document) (p q : Document) : Prop where
  known : ∀ f, (withAccount C p).lookup f ≠ none → f ∈ requiredFields ++ optionalParams
  same : ∀ f ∉ assignedFields, q.lookup f = (withAccount C p).lookup f
  poolId : (q.lookup "pool_id").isSome
  employeeId : (q.lookup "employee_id").isSome
  ownerId : cluster.isSome → q.lookup "owner_id" = p.lookup "owner_id"
  permitted : cluster = none → permitted C ((p.lookup "employee_id").getD (get p "owner_id")) (get p "pool_id") →
    q.lookup "pool_id" = some (get p "pool_id") ∧
      q.lookup "employee_id" = some ((p.lookup "employee_id").getD (get p "owner_id"))

theorem assignedResource_eq_ok (h : assignedResource C cluster p = .ok q) : AssignedFrom C cluster p q := by
  obtain ⟨_, -, h⟩ := bind_eq_ok.mp h
  obtain ⟨_, -, h⟩ := bind_eq_ok.mp h
  obtain ⟨_, hcheck, h⟩ := bind_eq_ok.mp h
  have hextend : ∀ f ∈ ["employee_id", "owner_id", "pool_id"],
      (extendPayload C (withAccount C p)).lookup f = p.lookup f := by
    intro f hf
    have hne : f ≠ "cloud_account_id" := by rintro rfl; exact absurd hf (by decide)
    rw [← lookup_withAccount (C := C) (p := p) hne]
    simp only [List.mem_cons, List.not_mem_nil, or_false] at hf
    obtain rfl | rfl | rfl := hf <;> simp [extendPayload]
  cases cluster with
  | some cluster =>
    obtain rfl := pure_eq_ok.mp h
    refine ⟨fun f hf => checkRestrictions_eq_ok hcheck hf, fun f hf => ?_, by simp [joinCluster],
      by simp [joinCluster], fun _ => ?_, fun hnone => absurd hnone (by simp)⟩
    · refine Eq.trans ?_ (lookup_extendPayload (C := C) hf)
      simp only [assignedFields, List.mem_cons, List.not_mem_nil, or_false, not_or] at hf
      simp [joinCluster, hf]
    · rw [← hextend "owner_id" (by decide)]
      simp [joinCluster]
  | none =>
    obtain ⟨hsame, hpool, howner, hpermitted⟩ := handleAssignmentData_eq_ok h
    refine ⟨fun f hf => checkRestrictions_eq_ok hcheck hf, fun f hf => (hsame f hf).trans (lookup_extendPayload hf),
      hpool, howner, fun hsome => absurd hsome (by simp), fun _ => ?_⟩
    unfold get at hpermitted ⊢
    rw [hextend _ (by decide), hextend _ (by decide), hextend _ (by decide)] at hpermitted
    exact hpermitted

end Assigned

/-! ## The update document -/

section Update

variable {C : Context} {behavior : Behavior} {isReportImport : Bool} {cluster : Option Document}
  {db p q resource update insertion changed rest : Document} {ops : OpDetails} {f : String} {v : FieldValue}

theorem writes_of_unchanged (hupdate : update.lookup f = none) (hinsertion : insertion.lookup f = some v) :
    (opDetails update insertion).writes f = [v] := by
  have hset : (opDetails update insertion).set.lookup f = none := by rw [lookup_set_opDetails, hupdate, ite_self]
  have hmin : (opDetails update insertion).min.lookup f = none := by
    rw [opDetails, lookup_takeFields, hupdate, Option.filter_none, ite_self]
  have hmax : (opDetails update insertion).max.lookup f = none := by
    rw [opDetails, lookup_takeFields, hupdate, Option.filter_none, ite_self]
  have honInsert : (opDetails update insertion).setOnInsert.lookup f = some v := hinsertion
  simp [OpDetails.writes, OpDetails.dicts, hset, hmin, hmax, honInsert]

theorem writes_of_changed (hupdate : update.lookup f = some v) (hinsertion : insertion.lookup f = none)
    (hv : v ≠ .null) : (opDetails update insertion).writes f = [v] := by
  have hset := lookup_set_opDetails update insertion f
  have hmin : (opDetails update insertion).min.lookup f = _ := lookup_takeFields "first_seen" "_first_seen_date"
  have hmax : (opDetails update insertion).max.lookup f = _ := lookup_takeFields "last_seen" "_last_seen_date"
  have honInsert : (opDetails update insertion).setOnInsert.lookup f = none := hinsertion
  rw [hupdate] at hset hmin hmax
  rw [Option.filter_some, if_pos (decide_eq_true hv)] at hmin hmax
  simp only [OpDetails.writes, OpDetails.dicts, List.filterMap_cons, List.filterMap_nil, hset, hmin, hmax, honInsert]
  by_cases hf : f ∈ dateFields
  · simp only [dateFields, List.mem_cons, List.not_mem_nil, or_false] at hf
    obtain rfl | rfl | rfl | rfl := hf <;> simp [dateFields]
  · rw [if_neg hf]
    simp only [dateFields, List.mem_cons, List.not_mem_nil, or_false, not_or] at hf
    simp [hf]

/-- **A field of a new resource is on one side.** -/
theorem divide_of_new (hbehavior : behavior ≠ .error_existing) (hchanged : changed.lookup f = none)
    (hrest : rest.lookup f = some v) (hmeta : f ≠ "meta")
    (hids : behavior = .update_existing → f ∈ ["cloud_resource_id", "cloud_resource_hash"] → v.truthy) :
    ((divide behavior ∅ changed rest).1.lookup f = none ∧ (divide behavior ∅ changed rest).2.lookup f = some v) ∨
      ((divide behavior ∅ changed rest).1.lookup f = some v ∧ (divide behavior ∅ changed rest).2.lookup f = none ∧
        v ≠ .null) := by
  unfold divide
  cases behavior with
  | error_existing => exact absurd rfl hbehavior
  | skip_existing => exact Or.inl ⟨hchanged, hrest⟩
  | update_existing =>
    dsimp only
    by_cases hid : f = "cloud_resource_id" ∨ f = "cloud_resource_hash"
    · have hv : v.truthy := hids rfl (by simpa using hid)
      have hget : get rest f = v := by rw [get, hrest]; rfl
      have hnull : ∀ g, get (∅ : Document) g = .null := fun _ => rfl
      refine Or.inl ?_
      have hchanged' : (Dict.collect (changedField ∅) rest changed).lookup f = none := by
        rw [Dict.lookup_collect, hchanged, hrest]
        simp [changedField, hid]
      unfold splitIds
      dsimp only
      rw [if_pos (Or.inl ⟨by rw [hnull]; rfl, by rw [hnull]; rfl⟩)]
      refine ⟨hchanged', ?_⟩
      obtain rfl | rfl := hid <;> simp [lookup_setTruthy, hget, hv]
    · obtain ⟨hid', hhash⟩ := not_or.mp hid
      obtain ⟨hfst, hsnd⟩ := lookup_splitIds ∅ rest
        (Dict.collect (changedField ∅) rest changed, Dict.collect (unchangedField ∅) rest ∅) hid' hhash
      rw [hfst, hsnd]
      dsimp only
      rw [Dict.lookup_collect, Dict.lookup_collect, hrest, hchanged, Option.bind_some, Option.bind_some,
        Dict.lookup_empty, Option.or_none, Option.or_none]
      have hnull : get (∅ : Document) f = .null := rfl
      unfold changedField unchangedField
      rw [if_neg hid, if_neg hid, hnull]
      by_cases hsplit : f ∈ splitFields ∧ f ≠ "meta" ∨ v = .null
      · rw [if_pos hsplit, if_pos hsplit, if_pos rfl]
        exact Or.inl ⟨rfl, rfl⟩
      · rw [if_neg hsplit, if_neg hsplit, if_pos hmeta]
        exact Or.inr ⟨rfl, rfl, fun hv => hsplit (Or.inr hv)⟩

variable (db) in
/-- What is taken has changed, and is not divided. -/
theorem divide_of_taken (hchanged : changed.lookup f = some v) (hrest : rest.lookup f = none)
    (hbehavior : behavior ≠ .error_existing) (hid : f ≠ "cloud_resource_id") (hhash : f ≠ "cloud_resource_hash") :
    (divide behavior db changed rest).1.lookup f = some v ∧ (divide behavior db changed rest).2.lookup f = none := by
  unfold divide
  cases behavior with
  | error_existing => exact absurd rfl hbehavior
  | skip_existing => exact ⟨hchanged, hrest⟩
  | update_existing =>
    obtain ⟨hfst, hsnd⟩ := lookup_splitIds db rest
      (Dict.collect (changedField db) rest changed, Dict.collect (unchangedField db) rest ∅) hid hhash
    dsimp only
    rw [hfst, hsnd]
    dsimp only
    rw [Dict.lookup_collect, Dict.lookup_collect, hrest, hchanged]
    exact ⟨rfl, rfl⟩

theorem lookup_setStatus {resource' : Document} (h : setStatus C resource db = .ok resource') (hf : f ≠ "meta") :
    resource'.lookup f = resource.lookup f := by
  unfold setStatus at h
  dsimp only at h
  split at h
  · obtain rfl := Except.ok.inj h
    rw [Dict.lookup_set, if_neg hf]
  · obtain ⟨_, -, h⟩ := bind_eq_ok.mp h
    obtain rfl := pure_eq_ok.mp h
    rw [Dict.lookup_set, if_neg hf]
  · obtain rfl := Except.ok.inj h
    rw [Dict.lookup_set, if_neg hf]
  · obtain rfl := Except.ok.inj h
    rfl

/-- What is split: the resource with its assignment and its tags encoded. -/
theorem updateOf_eq_ok (h : updateOf C behavior isReportImport cluster db p = .ok ops) :
    ∃ q resource split, assignedResource C cluster p = .ok q ∧
      (∀ f, f ≠ "tags" → f ≠ "meta" → resource.lookup f = q.lookup f) ∧
      ((get resource "tags").asTags = if Tags.encoded C.encoding (get q "tags").asTags = [] then (get q "tags").asTags
        else Tags.encoded C.encoding (get q "tags").asTags) ∧
      splitChanges C resource db behavior isReportImport = .ok split ∧ ops = opDetails split.1 split.2 := by
  obtain ⟨q, hq, h⟩ := bind_eq_ok.mp h
  obtain ⟨resource, hstatus, h⟩ := bind_eq_ok.mp h
  obtain ⟨split, hsplit, h⟩ := bind_eq_ok.mp h
  obtain rfl := pure_eq_ok.mp h
  refine ⟨q, resource, split, hq, fun f htags hmeta => ?_, ?_, hsplit, rfl⟩
  · rw [lookup_setStatus hstatus hmeta]
    split
    · rfl
    · rw [Dict.lookup_set, if_neg htags]
  · rw [get, lookup_setStatus hstatus (by decide)]
    split
    · rfl
    · rw [Dict.lookup_set, if_pos rfl]
      rfl

/-- The field comes to the update document as the payload has it: it is no service field that is empty, no null id of
an update, and no part of an assignment that is decided otherwise. -/
structure Kept (C : Context) (behavior : Behavior) (cluster : Option Document) (p : Document) (f : String)
    (v : FieldValue) : Prop where
  known : f ≠ "meta" ∧ f ≠ "tags"
  service : f ∈ ["service_name", "first_seen", "last_seen"] → v.truthy
  account : f = "cloud_account_id" → v.truthy
  ids : behavior = .update_existing → f ∈ ["cloud_resource_id", "cloud_resource_hash"] → v.truthy
  owner : f = "owner_id" → cluster.isSome
  assignment : f ∈ ["pool_id", "employee_id"] → cluster = none ∧
    permitted C ((p.lookup "employee_id").getD (get p "owner_id")) (get p "pool_id")

/-- **The update document is well-formed**: no field is under two operators, and of a resource that is not stored
yet each field is under one. -/
structure WellFormed (C : Context) (behavior : Behavior) (cluster : Option Document) (db p : Document)
    (ops : OpDetails) : Prop where
  apart : ops.dicts.Pairwise Apart
  writes : db = ∅ → ∀ f v, p.lookup f = some v → Kept C behavior cluster p f v → ops.writes f = [v]
  assignment : db = ∅ → ∀ f ∈ ["pool_id", "employee_id"], ∃ q v, assignedResource C cluster p = .ok q ∧
    q.lookup f = some v ∧ ops.writes f = [v]
  account : db = ∅ → (get p "cloud_account_id").truthy = false →
    ops.writes "cloud_account_id" = [.str C.cloudAccountId]
  tags : db = ∅ → ∀ t, p.lookup "tags" = some (.tags t) → (t.map Prod.fst).Nodup →
    ops.writes "tags" = [.tags (Tags.encoded C.encoding t)]

/-- A field of the resource with its assignment is written once. -/
theorem writes_of_assigned (hbehavior : behavior ≠ .error_existing)
    (h : updateOf C behavior isReportImport cluster ∅ p = .ok ops) (hq : assignedResource C cluster p = .ok q)
    (hf : q.lookup f = some v) (hknown : f ≠ "meta" ∧ f ≠ "tags")
    (hservice : f ∈ ["service_name", "first_seen", "last_seen"] → v.truthy)
    (hids : behavior = .update_existing → f ∈ ["cloud_resource_id", "cloud_resource_hash"] → v.truthy) :
    ops.writes f = [v] := by
  obtain ⟨q', resource, split, hq', hsame, -, hsplit, rfl⟩ := updateOf_eq_ok h
  rw [hq] at hq'
  obtain rfl := Except.ok.inj hq'
  obtain ⟨changed, rest, tags, hchanged, htaken, hrest, -, rfl⟩ := splitChanges_eq_ok hsplit
  have hresource : resource.lookup f = some v := (hsame f hknown.2 hknown.1).trans hf
  have hempty : Dict.popped (∅ : Document) "meta" = ∅ := rfl
  rw [hempty, if_pos rfl]
  have hput : ∀ d : Document, (d.set "tags" (.tags tags)).lookup f = d.lookup f := fun d => by
    rw [Dict.lookup_set, if_neg hknown.2]
  by_cases hmem : f ∈ ["service_name", "first_seen", "last_seen"]
  · have hv : v ≠ .null := by
      rintro rfl
      exact absurd (hservice hmem) (by decide)
    have hrest' : rest.lookup f = none := by
      rw [hrest, if_pos]
      simp only [List.mem_cons, List.not_mem_nil, or_false] at hmem
      obtain rfl | rfl | rfl := hmem <;> decide
    obtain ⟨hu, hi⟩ := divide_of_taken ∅ (htaken f hmem v hresource (hservice hmem) hv) hrest' hbehavior
      (by rintro rfl; exact absurd hmem (by decide)) (by rintro rfl; exact absurd hmem (by decide))
    exact writes_of_changed hu ((hput _).trans hi) hv
  · have hassigned := assignedResource_eq_ok hq
    have hne : ∀ g, g ∉ requiredFields ++ optionalParams → g ∉ assignedFields → f ≠ g := by
      rintro g hg hfree rfl
      refine hg (hassigned.known f ?_)
      rw [← hassigned.same f hfree, hf]
      exact Option.some_ne_none v
    have hdate : f ≠ "_first_seen_date" ∧ f ≠ "_last_seen_date" :=
      ⟨hne _ (by decide) (by decide), hne _ (by decide) (by decide)⟩
    have hchanged' : changed.lookup f = none := by
      by_contra hin
      replace hin := hchanged f hin
      simp only [changedFields, List.mem_cons, List.not_mem_nil, or_false, not_or] at hin hmem
      simp [hmem, hdate, hknown.1] at hin
    have hrest' : rest.lookup f = some v := by
      rw [hrest, if_neg, hresource]
      simp only [takenFields, List.mem_cons, List.not_mem_nil, or_false, not_or] at hmem ⊢
      exact ⟨hmem.1, hmem.2.1, hmem.2.2, hknown.2, hknown.1⟩
    obtain ⟨hu, hi⟩ | ⟨hu, hi, hv⟩ := divide_of_new hbehavior hchanged' hrest' hknown.1 hids
    · exact writes_of_unchanged hu ((hput _).trans hi)
    · exact writes_of_changed hu ((hput _).trans hi) hv

/-- What is kept comes through the assignment. -/
theorem AssignedFrom.lookup (h : AssignedFrom C cluster p q) (hf : p.lookup f = some v)
    (hkept : Kept C behavior cluster p f v) : q.lookup f = some v := by
  have hget : get p f = v := by rw [get, hf]; rfl
  by_cases haccount : f = "cloud_account_id"
  · rw [h.same f (by rw [haccount]; decide), haccount, lookup_account, ← haccount, hget,
      if_pos (hkept.account haccount)]
  · have hwith : (withAccount C p).lookup f = some v := (lookup_withAccount haccount).trans hf
    by_cases hassigned : f ∈ assignedFields
    · have hknown := h.known f (by rw [hwith]; exact Option.some_ne_none v)
      have hthree : f = "pool_id" ∨ f = "employee_id" ∨ f = "owner_id" := by
        revert hknown
        simp only [assignedFields, List.mem_cons, List.not_mem_nil, or_false] at hassigned
        obtain rfl | rfl | rfl | rfl | rfl | rfl | rfl | rfl := hassigned <;> decide
      obtain rfl | rfl | rfl := hthree
      · obtain ⟨hnone, hpermitted⟩ := hkept.assignment (by decide)
        rw [(h.permitted hnone hpermitted).1, hget]
      · obtain ⟨hnone, hpermitted⟩ := hkept.assignment (by decide)
        rw [(h.permitted hnone hpermitted).2, hf, Option.getD_some]
      · rw [h.ownerId (hkept.owner rfl), hf]
    · rw [h.same f hassigned, hwith]

theorem encoded_nil_imp {E : Encoding} {t : Tags} (h : (t.map Prod.fst).Nodup) (hnil : Tags.encoded E t = []) :
    t = [] := by
  rw [← Tags.decoded_encoded E h, hnil]
  rfl

/-- **Every update document is well-formed.** -/
theorem updateOf_wellFormed (hbehavior : behavior ≠ .error_existing)
    (h : updateOf C behavior isReportImport cluster db p = .ok ops) : WellFormed C behavior cluster db p ops := by
  obtain ⟨q, resource, split, hq, hsame, htags, hsplit, hops⟩ := updateOf_eq_ok h
  have hassigned := assignedResource_eq_ok hq
  have hdate : ∀ f, f ∉ requiredFields ++ optionalParams → f ∉ assignedFields → q.lookup f = none := by
    intro f hf hfree
    rw [hassigned.same f hfree]
    by_contra hne
    exact hf (hassigned.known f hne)
  refine ⟨?_, ?_, ?_, ?_, ?_⟩
  · rw [hops]
    refine opDetails_apart (splitChanges_apart hbehavior ?_ ?_ hsplit)
    · rw [hsame _ (by decide) (by decide), hdate _ (by decide) (by decide)]
    · rw [hsame _ (by decide) (by decide), hdate _ (by decide) (by decide)]
  · rintro rfl f v hf hkept
    exact writes_of_assigned hbehavior h hq (hassigned.lookup hf hkept) hkept.known hkept.service hkept.ids
  · rintro rfl f hf
    have hsome : (q.lookup f).isSome := by
      simp only [List.mem_cons, List.not_mem_nil, or_false] at hf
      obtain rfl | rfl := hf
      · exact hassigned.poolId
      · exact hassigned.employeeId
    obtain ⟨v, hv⟩ := Option.isSome_iff_exists.mp hsome
    refine ⟨q, v, hq, hv, writes_of_assigned hbehavior h hq hv ?_ ?_ ?_⟩
    all_goals
      simp only [List.mem_cons, List.not_mem_nil, or_false] at hf
      obtain rfl | rfl := hf <;> simp
  · rintro rfl haccount
    refine writes_of_assigned hbehavior h hq ?_ (by decide) (fun hmem => absurd hmem (by decide))
      fun _ hmem => absurd hmem (by decide)
    rw [hassigned.same _ (by decide), lookup_account, haccount]
    rfl
  · rintro rfl t ht hnodup
    have hqtags : (get q "tags").asTags = t := by
      rw [get, hassigned.same _ (by decide), lookup_withAccount (by decide), ht]
      rfl
    rw [hqtags] at htags
    have htags' : (get resource "tags").asTags = Tags.encoded C.encoding t := by
      rw [htags]
      split
      · rename_i hnil
        rw [hnil, encoded_nil_imp hnodup hnil]
      · rfl
    obtain ⟨changed, rest, tags, hchanged, -, hrest, hresult, hsplit'⟩ := splitChanges_eq_ok hsplit
    have hempty : Dict.popped (∅ : Document) "meta" = ∅ := rfl
    rw [hempty, if_pos rfl] at hsplit'
    have hstored : tags = Tags.encoded C.encoding t := by
      rw [hresult, htags', Tags.updateEncodedTags, Tags.decoded_encoded C.encoding hnodup]
      rfl
    rw [hops, hsplit', hstored]
    refine writes_of_unchanged ?_ ((Dict.lookup_set ..).trans (if_pos rfl))
    exact (lookup_divide_of_none _ _ (by_contra fun hne => absurd (hchanged "tags" hne) (by decide))
      ((hrest "tags").trans (if_pos (by decide))) (by decide) (by decide)).1

end Update

/-! ### A payload that names a pool -/

/-- An organization without rules: everything goes to the root pool. -/
def rootContext : Context where
  encoding := ⟨fun s => s, fun s => s, fun _ => rfl⟩
  cloudAccountId := "account"
  newId := "new"
  now := 6
  metaFields _ := []
  allowedPools _ := []
  applyRules _ := .ok none
  rootPool := some (.str "owner", .str "root")

/-- A new resource for a pool of its own choice. -/
def poolPayload : Document :=
  ((Dict.set ∅ "resource_type" (.str "Bucket")).set "cloud_resource_id" (.str "b1")).set "pool_id" (.str "pool")

theorem exists_updateOf {P : OpDetails → Bool}
    (h : (updateOf rootContext .skip_existing true none ∅ poolPayload).toOption.any P) :
    ∃ ops, updateOf rootContext .skip_existing true none ∅ poolPayload = .ok ops ∧ P ops = true := by
  obtain ⟨ops, hops, hP⟩ := (Option.any_eq_true _ _).mp h
  refine ⟨ops, ?_, hP⟩
  cases hrun : updateOf rootContext .skip_existing true none ∅ poolPayload with
  | error e => rw [hrun] at hops; cases hops
  | ok b => rw [hrun] at hops; exact congrArg Except.ok (Option.some.inj hops)

/-- Its update document is well-formed. -/
theorem poolPayload_wellFormed : ∃ ops, updateOf rootContext .skip_existing true none ∅ poolPayload = .ok ops ∧
    WellFormed rootContext .skip_existing none ∅ poolPayload ops := by
  obtain ⟨ops, hops, -⟩ := exists_updateOf (P := fun _ => true) (by decide +kernel)
  exact ⟨ops, hops, updateOf_wellFormed (by decide) hops⟩

/-- **The pool of a payload is not kept**: the resource goes to the root pool. -/
theorem poolPayload_pool : ¬ ∀ (C : Context) (behavior : Behavior) (isReportImport : Bool)
    (cluster : Option Document) (db p : Document) (ops : OpDetails), behavior ≠ .error_existing →
      updateOf C behavior isReportImport cluster db p = .ok ops → ops.dicts.Pairwise Apart ∧
        (db = ∅ → ∀ f v, p.lookup f = some v → f ≠ "meta" →
          (f ∈ ["service_name", "first_seen", "last_seen"] → v.truthy) → ops.writes f = [v]) := by
  intro hclaim
  obtain ⟨ops, hops, hroot⟩ := exists_updateOf (P := fun ops => ops.writes "pool_id" = [.str "root"])
    (by decide +kernel)
  have hpool := (hclaim _ _ _ _ _ _ _ (by decide) hops).2 rfl "pool_id" (.str "pool") (by decide) (by decide)
    (fun h => absurd h (by decide))
  rw [hpool] at hroot
  revert hroot
  decide

end ResourceUpsert
