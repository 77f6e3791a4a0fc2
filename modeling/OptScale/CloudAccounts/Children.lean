import OptScale.Foundations.Dict
import OptScale.Rest.Database

/-!
# CloudAccounts/Children — `CloudAccountController.create_children_accounts`

A root account connects every subscription it finds as a child.  A child whose name is in use elsewhere
in the organization goes by a longer one.  A child that fails is kept in `skipped_subscriptions`, by the
name it goes by, and announced the first time.

A success takes the name it was found under out of the map, and looks for the name it goes by before it
does; nothing is taken out for a subscription that is no longer found.  So the names that a run notes
(`Noted`) and those that it clears (`Cleared`) are told apart from those that fail, and the map reflects the
run exactly if the noted names that are cleared are those that did not fail
(`createChildrenAccounts_reflects_iff`).
-/

namespace CloudAccountController

/-- How the creation of a child ends. -/
inductive ChildOutcome
  | created (id : Uuid)
  /-- Created, but the root account was removed in the meantime. -/
  | orphaned
  /-- `ConflictException`: it is connected already. -/
  | conflict
  /-- Any other exception. -/
  | failed (error : String)
  deriving DecidableEq, Repr

/-- A configuration of `get_children_configs`, and what becomes of it. -/
structure ChildConfig where
  name : Text
  type : CloudType
  outcome : ChildOutcome
  deriving DecidableEq, Repr

namespace ChildConfig

/-- The child is connected, now or before. -/
def connected (c : ChildConfig) : Bool :=
  match c.outcome with
  | .created _ | .conflict => true
  | _ => false

/-- The creation failed. -/
def fails (c : ChildConfig) : Bool :=
  match c.outcome with
  | .failed _ => true
  | _ => false

end ChildConfig

/-- The state of the loop. -/
structure ChildrenRun where
  accounts : List CloudAccount
  skippedSubscriptions : Dict Text String
  /-- The names that `cloud_account_warning` was published for, with its reason. -/
  announced : List (Text × String) := []

/-- The names that were announced. -/
def ChildrenRun.announcedNames (run : ChildrenRun) : List Text := run.announced.map Prod.fst

/-! ## The loop -/

section Loop

variable (C : Collation) (root : CloudAccount)

/-- `ca_exists`: the organization has an account of the name that is not one of the children. -/
def caExists (accounts : List CloudAccount) (baseName : Text) : Bool :=
  accounts.any fun c => C.equal c.name baseName && c.deletedAt = 0 &&
    c.parentId ≠ some root.id && c.organizationId = root.organizationId

/-- `c_name` -/
def childName (accounts : List CloudAccount) (baseName : Text) : Text :=
  if caExists C root accounts baseName then
    baseName ++ " (".toList ++ root.accountId.getD "None".toList ++ ")".toList
  else baseName

/-- The child that is stored. -/
def childAccount (c : ChildConfig) (id : Uuid) (name : Text) : CloudAccount where
  id := id
  name := name
  type := c.type
  organizationId := root.organizationId
  parentId := some root.id

/-- What a success does to the map. -/
def forget (skipped : Dict Text String) (name baseName : Text) : Dict Text String :=
  if name ∈ skipped then skipped.popped baseName else skipped

/-- `error_message` -/
def errorMessage (name : Text) (error : String) : String :=
  "Unable to create child account " ++ String.ofList name ++ ": " ++ error

/-- The body of the loop; `none` if the call ends there. -/
def createChild (run : ChildrenRun) (c : ChildConfig) : Option ChildrenRun :=
  let name := childName C root run.accounts c.name
  match c.outcome with
  | .created id => some { run with
      accounts := run.accounts ++ [childAccount root c id name]
      skippedSubscriptions := forget run.skippedSubscriptions name c.name }
  | .orphaned => none
  | .conflict => some { run with
      skippedSubscriptions := forget run.skippedSubscriptions name c.name }
  | .failed error =>
    if name ∈ run.skippedSubscriptions then some run
    else some { run with
      announced := run.announced ++ [(name, errorMessage name error)]
      skippedSubscriptions := run.skippedSubscriptions.set name error }

/-- `create_children_accounts`: the accounts, the map of the root account and what was announced after a
call that completes. -/
def createChildrenAccounts (accounts : List CloudAccount) (rootSkipped : Dict Text String)
    (children : List ChildConfig) : Option ChildrenRun :=
  if children = [] then some ⟨accounts, rootSkipped, []⟩
  else (children.foldlM (createChild C root) ⟨accounts, rootSkipped, []⟩).map fun run =>
    -- the map is saved only if its keys are others than before
    if run.skippedSubscriptions.keys.toFinset = rootSkipped.keys.toFinset then
      { run with skippedSubscriptions := rootSkipped }
    else run

end Loop

/-! ## What the map should be -/

section Names

variable (goesBy : Text → Text) (rootSkipped : Dict Text String) (children : List ChildConfig)

/-- A child that goes by the name failed. -/
def FailedAs (name : Text) : Prop := ∃ c ∈ children, c.fails ∧ goesBy c.name = name

/-- **The map reflects the run**: it has the names that failed, and those that it did not have before are
announced once. -/
structure Reflects (run : ChildrenRun) : Prop where
  keys : ∀ name, name ∈ run.skippedSubscriptions ↔ FailedAs goesBy children name
  once : run.announcedNames.Nodup
  announced : ∀ name, name ∈ run.announcedNames ↔ FailedAs goesBy children name ∧ name ∉ rootSkipped

/-- The name was in the map, or a child that goes by it failed. -/
def Noted (name : Text) : Prop := name ∈ rootSkipped ∨ FailedAs goesBy children name

/-- A success found under the name came when it was noted, and so was the name the success goes by, which
had not been cleared itself.  The last child comes first. -/
def ClearedBy : List ChildConfig → Text → Prop
  | [], _ => False
  | c :: earlier, name => ClearedBy earlier name ∨
      c.connected ∧ c.name = name ∧ Noted goesBy rootSkipped earlier name ∧
        Noted goesBy rootSkipped earlier (goesBy c.name) ∧ ¬ ClearedBy earlier (goesBy c.name)

/-- The name is cleared in the course of the run. -/
def Cleared (name : Text) : Prop := ClearedBy goesBy rootSkipped children.reverse name

end Names

/-! ## What a child does -/

section Child

variable {C : Collation} {root : CloudAccount} {accounts : List CloudAccount} {run run' : ChildrenRun}
  {c : ChildConfig}

/-- A child is no other account of the organization: its name is not in use because of it. -/
theorem caExists_append_child (c : ChildConfig) (id : Uuid) (name baseName : Text) :
    caExists C root (accounts ++ [childAccount root c id name]) baseName = caExists C root accounts baseName := by
  simp [caExists, childAccount]

theorem createChild_caExists (h : createChild C root run c = some run') (baseName : Text) :
    caExists C root run'.accounts baseName = caExists C root run.accounts baseName := by
  unfold createChild at h
  cases houtcome : c.outcome with
  | created id =>
    rw [houtcome] at h
    rw [← Option.some.inj h]
    exact caExists_append_child c id _ baseName
  | orphaned =>
    rw [houtcome] at h
    exact nomatch h
  | conflict =>
    rw [houtcome] at h
    rw [← Option.some.inj h]
  | failed error =>
    rw [houtcome] at h
    simp only at h
    split at h
    · rw [← Option.some.inj h]
    · rw [← Option.some.inj h]

/-- **What a child does** to the map: a success forgets a name, and a failure is announced and kept unless
its name is in the map. -/
theorem createChild_cases (h : createChild C root run c = some run') {name : Text}
    (hname : childName C root run.accounts c.name = name) :
    (c.connected ∧ ¬ c.fails ∧ run'.announcedNames = run.announcedNames ∧
      run'.skippedSubscriptions = forget run.skippedSubscriptions name c.name) ∨
    (c.fails ∧ ¬ c.connected ∧ name ∈ run.skippedSubscriptions ∧ run' = run) ∨
    (c.fails ∧ ¬ c.connected ∧ name ∉ run.skippedSubscriptions ∧
      run'.announcedNames = run.announcedNames ++ [name] ∧
      ∃ error, run'.skippedSubscriptions = run.skippedSubscriptions.set name error) := by
  unfold createChild at h
  rw [hname] at h
  cases houtcome : c.outcome with
  | created id =>
    rw [houtcome] at h
    rw [← Option.some.inj h]
    exact Or.inl ⟨by simp [ChildConfig.connected, houtcome], by simp [ChildConfig.fails, houtcome], rfl, rfl⟩
  | orphaned =>
    rw [houtcome] at h
    exact nomatch h
  | conflict =>
    rw [houtcome] at h
    rw [← Option.some.inj h]
    exact Or.inl ⟨by simp [ChildConfig.connected, houtcome], by simp [ChildConfig.fails, houtcome], rfl, rfl⟩
  | failed error =>
    rw [houtcome] at h
    simp only at h
    have hfails : c.fails := by simp [ChildConfig.fails, houtcome]
    have hnot : ¬ c.connected := by simp [ChildConfig.connected, houtcome]
    split at h
    · rename_i hin
      exact Or.inr (Or.inl ⟨hfails, hnot, hin, (Option.some.inj h).symm⟩)
    · rename_i hout
      rw [← Option.some.inj h]
      refine Or.inr (Or.inr ⟨hfails, hnot, hout, ?_, error, rfl⟩)
      rw [ChildrenRun.announcedNames, List.map_append]
      rfl

theorem mem_forget {skipped : Dict Text String} {name baseName n : Text} :
    n ∈ forget skipped name baseName ↔ n ∈ skipped ∧ ¬ (n = baseName ∧ name ∈ skipped) := by
  unfold forget
  split
  · rename_i hin
    rw [Dict.popped, AList.mem_erase]
    simp only [hin, and_true]
    exact and_comm
  · rename_i hout
    simp only [hout, and_false, not_false_eq_true, and_true]

end Child

/-! ## What is noted, and what is cleared -/

section Noted

variable {goesBy : Text → Text} {rootSkipped : Dict Text String} {past : List ChildConfig} {c : ChildConfig}
  {n : Text}

theorem failedAs_cons : FailedAs goesBy (c :: past) n ↔ c.fails ∧ goesBy c.name = n ∨ FailedAs goesBy past n := by
  simp only [FailedAs, List.exists_mem_cons_iff]

theorem failedAs_reverse : FailedAs goesBy past.reverse n ↔ FailedAs goesBy past n := by
  simp only [FailedAs, List.mem_reverse]

theorem noted_reverse : Noted goesBy rootSkipped past.reverse n ↔ Noted goesBy rootSkipped past n := by
  simp only [Noted, failedAs_reverse]

/-- Only what was noted is cleared. -/
theorem noted_of_clearedBy (h : ClearedBy goesBy rootSkipped past n) : Noted goesBy rootSkipped past n := by
  have hmore : ∀ {c : ChildConfig} {past}, Noted goesBy rootSkipped past n → Noted goesBy rootSkipped (c :: past) n :=
    fun h => h.imp_right fun hf => failedAs_cons.mpr (Or.inr hf)
  induction past with
  | nil => exact absurd h id
  | cons c past ih =>
    rcases h with h | ⟨-, -, h, -⟩
    · exact hmore (ih h)
    · exact hmore h

variable (goesBy rootSkipped past) in
/-- No name that failed is cleared. -/
def Consistent : Prop := ∀ n, ClearedBy goesBy rootSkipped past n → ¬ FailedAs goesBy past n

theorem Consistent.earlier (h : Consistent goesBy rootSkipped (c :: past)) : Consistent goesBy rootSkipped past :=
  fun n hcleared hfailed => h n (Or.inl hcleared) (failedAs_cons.mpr (Or.inr hfailed))

end Noted

/-! ## The loop's invariant -/

section Invariant

variable {C : Collation} {root : CloudAccount} {goesBy : Text → Text} {rootSkipped : Dict Text String}
  {past : List ChildConfig} {c : ChildConfig} {run run' : ChildrenRun}

variable (goesBy rootSkipped past run) in
/-- While no name that failed is cleared, the map has what is noted and not cleared. -/
structure Tracks : Prop where
  keys : ∀ n, n ∈ run.skippedSubscriptions ↔ Noted goesBy rootSkipped past n ∧ ¬ ClearedBy goesBy rootSkipped past n
  once : run.announcedNames.Nodup
  announced : ∀ n, n ∈ run.announcedNames ↔ FailedAs goesBy past n ∧ n ∉ rootSkipped

variable (goesBy rootSkipped past run) in
/-- What cannot be made good any more. -/
inductive Broken : Prop
  /-- A name that failed was taken out; it is missing, or will be announced again. -/
  | missing (n : Text) (hfailed : FailedAs goesBy past n) (hout : n ∉ run.skippedSubscriptions)
      (hseen : n ∈ rootSkipped ∨ n ∈ run.announcedNames)
  /-- A name of the map was announced. -/
  | again (n : Text) (hin : n ∈ rootSkipped) (hannounced : n ∈ run.announcedNames)
  /-- A name was announced twice. -/
  | twice (h : ¬ run.announcedNames.Nodup)

theorem Tracks.step (h : createChild C root run c = some run')
    (hname : childName C root run.accounts c.name = goesBy c.name) (htracks : Tracks goesBy rootSkipped past run)
    (hconsistent : Consistent goesBy rootSkipped (c :: past)) : Tracks goesBy rootSkipped (c :: past) run' := by
  rcases createChild_cases h hname with
    ⟨hconnected, hfails, hsame, hmap⟩ | ⟨hfails, hconnected, hin, rfl⟩ | ⟨hfails, hconnected, hout, hmore, error, hmap⟩
  · -- a success: a name may be cleared
    have hfailed : ∀ n, FailedAs goesBy (c :: past) n ↔ FailedAs goesBy past n := fun n => by
      simp only [failedAs_cons, hfails, false_and, false_or, Bool.false_eq_true]
    refine ⟨fun n => ?_, hsame ▸ htracks.once, fun n => ?_⟩
    · rw [hmap, mem_forget, htracks.keys, htracks.keys]
      simp only [Noted, hfailed, ClearedBy, hconnected, true_and]
      constructor
      · rintro ⟨⟨hnoted, hcleared⟩, hnot⟩
        refine ⟨hnoted, ?_⟩
        rintro (h | ⟨hbase, -, hlonger⟩)
        · exact hcleared h
        · exact hnot ⟨hbase.symm, hlonger⟩
      · rintro ⟨hnoted, hcleared⟩
        exact ⟨⟨hnoted, fun h => hcleared (Or.inl h)⟩,
          fun ⟨hbase, hlonger⟩ => hcleared (Or.inr ⟨hbase.symm, hnoted, hlonger⟩)⟩
    · rw [hsame, htracks.announced, hfailed]
  · -- a failure that is known
    have hcleared : ∀ n, ClearedBy goesBy rootSkipped (c :: past) n ↔ ClearedBy goesBy rootSkipped past n := fun n => by
      simp only [ClearedBy, hconnected, false_and, or_false, Bool.false_eq_true]
    have hnoted := ((htracks.keys _).mp hin).1
    refine ⟨fun n => ?_, htracks.once, fun n => ?_⟩
    · rw [htracks.keys, hcleared, Noted, Noted, failedAs_cons]
      constructor
      · exact And.imp_left (Or.imp_right Or.inr)
      · rintro ⟨hin | ⟨-, rfl⟩ | hfailed, hnot⟩
        · exact ⟨Or.inl hin, hnot⟩
        · exact ⟨hnoted, hnot⟩
        · exact ⟨Or.inr hfailed, hnot⟩
    · rw [htracks.announced, failedAs_cons]
      constructor
      · exact And.imp_left Or.inr
      · rintro ⟨⟨-, rfl⟩ | hfailed, hnew⟩
        · exact ⟨hnoted.resolve_left hnew, hnew⟩
        · exact ⟨hfailed, hnew⟩
  · -- a failure that is announced: the name was not cleared, so it is new
    have hcleared : ∀ n, ClearedBy goesBy rootSkipped (c :: past) n ↔ ClearedBy goesBy rootSkipped past n := fun n => by
      simp only [ClearedBy, hconnected, false_and, or_false, Bool.false_eq_true]
    have hfailed : FailedAs goesBy (c :: past) (goesBy c.name) := failedAs_cons.mpr (Or.inl ⟨hfails, rfl⟩)
    have hkept : ¬ ClearedBy goesBy rootSkipped past (goesBy c.name) := fun h =>
      hconsistent _ ((hcleared _).mpr h) hfailed
    have hnew : ¬ Noted goesBy rootSkipped past (goesBy c.name) := fun h => hout ((htracks.keys _).mpr ⟨h, hkept⟩)
    refine ⟨fun n => ?_, ?_, fun n => ?_⟩
    · rw [hmap, Dict.set, AList.mem_insert, htracks.keys, hcleared, Noted, Noted, failedAs_cons]
      constructor
      · rintro (rfl | ⟨hnoted, hnot⟩)
        · exact ⟨Or.inr (Or.inl ⟨hfails, rfl⟩), hkept⟩
        · exact ⟨hnoted.imp_right Or.inr, hnot⟩
      · rintro ⟨hin | ⟨-, rfl⟩ | hfailed, hnot⟩
        · exact Or.inr ⟨Or.inl hin, hnot⟩
        · exact Or.inl rfl
        · exact Or.inr ⟨Or.inr hfailed, hnot⟩
    · rw [hmore]
      refine List.nodup_append.mpr ⟨htracks.once, List.nodup_singleton _, ?_⟩
      rintro n hn m hm rfl
      rw [List.mem_singleton.mp hm] at hn
      exact hnew (Or.inr ((htracks.announced _).mp hn).1)
    · rw [hmore, List.mem_append, List.mem_singleton, htracks.announced, failedAs_cons]
      constructor
      · rintro (⟨hfailed, hout⟩ | rfl)
        · exact ⟨Or.inr hfailed, hout⟩
        · exact ⟨Or.inl ⟨hfails, rfl⟩, fun h => hnew (Or.inl h)⟩
      · rintro ⟨⟨-, rfl⟩ | hfailed, hout⟩
        · exact Or.inr rfl
        · exact Or.inl ⟨hfailed, hout⟩

/-- What is broken stays so. -/
theorem Broken.step (h : createChild C root run c = some run')
    (hname : childName C root run.accounts c.name = goesBy c.name) (hbroken : Broken goesBy rootSkipped past run) :
    Broken goesBy rootSkipped (c :: past) run' := by
  have hmono : ∀ n ∈ run.announcedNames, n ∈ run'.announcedNames := fun n hn => by
    rcases createChild_cases h hname with ⟨-, -, hsame, -⟩ | ⟨-, -, -, rfl⟩ | ⟨-, -, -, hmore, -⟩
    · exact hsame ▸ hn
    · exact hn
    · exact hmore ▸ List.mem_append_left _ hn
  cases hbroken with
  | missing n hfailed hout hseen =>
    by_cases hback : n ∈ run'.skippedSubscriptions
    · -- it fails once more, and is announced
      rcases createChild_cases h hname with ⟨-, -, -, hmap⟩ | ⟨-, -, -, rfl⟩ | ⟨-, -, -, hmore, error, hmap⟩
      · rw [hmap, mem_forget] at hback
        exact absurd hback.1 hout
      · exact absurd hback hout
      · rw [hmap, Dict.set, AList.mem_insert] at hback
        have hn := hback.resolve_right hout
        rcases hseen with hin | hannounced
        · refine .again n hin ?_
          rw [hmore, hn]
          exact List.mem_append_right _ List.mem_cons_self
        · refine .twice ?_
          rw [hmore, List.nodup_append]
          exact fun hnodup => hnodup.2.2 n hannounced _ List.mem_cons_self hn
    · exact .missing n (failedAs_cons.mpr (Or.inr hfailed)) hback (hseen.imp_right (hmono n))
  | again n hin hannounced => exact .again n hin (hmono n hannounced)
  | twice hnodup =>
    refine .twice fun hnodup' => hnodup ?_
    rcases createChild_cases h hname with ⟨-, -, hsame, -⟩ | ⟨-, -, -, rfl⟩ | ⟨-, -, -, hmore, -⟩
    · exact hsame ▸ hnodup'
    · exact hnodup'
    · rw [hmore] at hnodup'
      exact (List.nodup_append.mp hnodup').1

/-- **The first name that failed and is cleared breaks the run.** -/
theorem Tracks.broken (h : createChild C root run c = some run')
    (hname : childName C root run.accounts c.name = goesBy c.name) (htracks : Tracks goesBy rootSkipped past run)
    (hconsistent : Consistent goesBy rootSkipped past) (hnot : ¬ Consistent goesBy rootSkipped (c :: past)) :
    Broken goesBy rootSkipped (c :: past) run' := by
  simp only [Consistent, not_forall, not_not] at hnot
  obtain ⟨n, hcleared, hfailed⟩ := hnot
  rcases createChild_cases h hname with
    ⟨hconnected, hfails, hsame, hmap⟩ | ⟨hfails, hconnected, hin, rfl⟩ | ⟨hfails, hconnected, hout, hmore, error, hmap⟩
  · -- a success takes out a name that failed
    have hfailed' : FailedAs goesBy past n := (failedAs_cons.mp hfailed).resolve_left fun h => hfails h.1
    rcases hcleared with hcleared | ⟨-, hbase, hnoted, hlonger⟩
    · exact absurd hfailed' (hconsistent n hcleared)
    · refine .missing n hfailed ?_ ?_
      · rw [hmap, mem_forget]
        exact fun hin => hin.2 ⟨hbase.symm, (htracks.keys _).mpr hlonger⟩
      · by_cases hroot : n ∈ rootSkipped
        · exact Or.inl hroot
        · exact Or.inr (hsame ▸ (htracks.announced n).mpr ⟨hfailed', hroot⟩)
  all_goals
    -- a name that was cleared fails
    have hcleared' : ClearedBy goesBy rootSkipped past n := hcleared.resolve_right fun h => hconnected h.1
    have hn : goesBy c.name = n := by
      rcases failedAs_cons.mp hfailed with ⟨-, hn⟩ | hfailed'
      · exact hn
      · exact absurd hfailed' (hconsistent n hcleared')
    have hroot : n ∈ rootSkipped := (noted_of_clearedBy hcleared').resolve_right (hconsistent n hcleared')
  · exact absurd hcleared' ((htracks.keys n).mp (hn ▸ hin)).2
  · refine .again n hroot ?_
    rw [hmore, hn]
    exact List.mem_append_right _ List.mem_cons_self

end Invariant

/-! ## The whole run -/

section Result

variable {C : Collation} {root : CloudAccount} {accounts : List CloudAccount} {rootSkipped : Dict Text String}
  {children past : List ChildConfig} {run : ChildrenRun}

/-- **The loop** tracks what is noted and cleared, or is broken; and the names in use elsewhere are those in
use before. -/
theorem loop_spec {goesBy : Text → Text} (hgoesBy : goesBy = childName C root accounts)
    (h : past.reverse.foldlM (createChild C root) ⟨accounts, rootSkipped, []⟩ = some run) :
    (∀ name, caExists C root run.accounts name = caExists C root accounts name) ∧
      (Consistent goesBy rootSkipped past ∧ Tracks goesBy rootSkipped past run ∨
        ¬ Consistent goesBy rootSkipped past ∧ Broken goesBy rootSkipped past run) := by
  induction past generalizing run with
  | nil =>
    obtain rfl := Option.some.inj h
    refine ⟨fun _ => rfl, Or.inl ⟨fun _ hcleared => absurd hcleared id, ⟨fun n => ?_, List.nodup_nil, fun n => ?_⟩⟩⟩
    · simp [Noted, FailedAs, ClearedBy]
    · simp [ChildrenRun.announcedNames, FailedAs]
  | cons c past ih =>
    rw [List.reverse_cons, List.foldlM_append] at h
    obtain ⟨before, hbefore, hlast⟩ := Option.bind_eq_some_iff.mp h
    rw [List.foldlM_cons] at hlast
    obtain ⟨after, hstep, hafter⟩ := Option.bind_eq_some_iff.mp hlast
    obtain rfl := Option.some.inj hafter
    obtain ⟨haccounts, hloop⟩ := ih hbefore
    have hname : childName C root before.accounts c.name = goesBy c.name := by
      rw [hgoesBy, childName, childName, haccounts]
    refine ⟨fun name => (createChild_caExists hstep name).trans (haccounts name), ?_⟩
    rcases hloop with ⟨hconsistent, htracks⟩ | ⟨hnot, hbroken⟩
    · by_cases hnext : Consistent goesBy rootSkipped (c :: past)
      · exact Or.inl ⟨hnext, htracks.step hstep hname hnext⟩
      · exact Or.inr ⟨hnext, htracks.broken hstep hname hconsistent hnext⟩
    · exact Or.inr ⟨fun hnext => hnot hnext.earlier, hbroken.step hstep hname⟩

/-- A call that completes leaves the names and the announcements of the loop. -/
theorem createChildrenAccounts_eq_some
    (h : createChildrenAccounts C root accounts rootSkipped children = some run) :
    ∃ last, children.foldlM (createChild C root) ⟨accounts, rootSkipped, []⟩ = some last ∧
      run.announcedNames = last.announcedNames ∧
        ∀ n, n ∈ run.skippedSubscriptions ↔ n ∈ last.skippedSubscriptions := by
  unfold createChildrenAccounts at h
  split at h
  · rename_i hnil
    subst hnil
    exact ⟨run, h, rfl, fun _ => Iff.rfl⟩
  · obtain ⟨last, hlast, hrun⟩ := Option.map_eq_some_iff.mp h
    refine ⟨last, hlast, ?_⟩
    rw [← hrun]
    split
    · rename_i hkeys
      refine ⟨rfl, fun n => ?_⟩
      have hkey := Finset.ext_iff.mp hkeys n
      rw [List.mem_toFinset, List.mem_toFinset, ← AList.mem_keys, ← AList.mem_keys] at hkey
      exact hkey.symm
    · exact ⟨rfl, fun _ => Iff.rfl⟩

variable (C root accounts rootSkipped children) in
/-- The names that the map had or that failed are cleared when they did not fail, and not otherwise. -/
def ClearsItsSuccesses : Prop :=
  ∀ name, Noted (childName C root accounts) rootSkipped children name →
    (Cleared (childName C root accounts) rootSkipped children name ↔
      ¬ FailedAs (childName C root accounts) children name)

theorem reflects_of_clears (h : createChildrenAccounts C root accounts rootSkipped children = some run)
    (hclears : ClearsItsSuccesses C root accounts rootSkipped children) :
    Reflects (childName C root accounts) rootSkipped children run := by
  obtain ⟨last, hlast, hannounced, hkeys⟩ := createChildrenAccounts_eq_some h
  obtain ⟨past, rfl⟩ : ∃ past : List ChildConfig, children = past.reverse := ⟨_, (List.reverse_reverse _).symm⟩
  obtain ⟨-, hloop⟩ := loop_spec rfl hlast
  simp only [ClearsItsSuccesses, Cleared, List.reverse_reverse, noted_reverse, failedAs_reverse] at hclears
  have hconsistent : Consistent (childName C root accounts) rootSkipped past := fun n hcleared =>
    (hclears n (noted_of_clearedBy hcleared)).mp hcleared
  obtain ⟨-, htracks⟩ := hloop.resolve_right fun hbroken => hbroken.1 hconsistent
  refine ⟨fun n => ?_, hannounced ▸ htracks.once, fun n => ?_⟩
  · rw [hkeys, htracks.keys, failedAs_reverse]
    constructor
    · rintro ⟨hnoted, hnot⟩
      exact not_not.mp fun hfailed => hnot ((hclears n hnoted).mpr hfailed)
    · intro hfailed
      exact ⟨Or.inr hfailed, fun hcleared => hconsistent n hcleared hfailed⟩
  · rw [hannounced, htracks.announced, failedAs_reverse]

theorem clears_of_reflects (h : createChildrenAccounts C root accounts rootSkipped children = some run)
    (hreflects : Reflects (childName C root accounts) rootSkipped children run) :
    ClearsItsSuccesses C root accounts rootSkipped children := by
  obtain ⟨last, hlast, hannounced, hkeys⟩ := createChildrenAccounts_eq_some h
  obtain ⟨past, rfl⟩ : ∃ past : List ChildConfig, children = past.reverse := ⟨_, (List.reverse_reverse _).symm⟩
  obtain ⟨-, hloop⟩ := loop_spec rfl hlast
  simp only [ClearsItsSuccesses, Cleared, List.reverse_reverse, noted_reverse, failedAs_reverse]
  intro name hnoted
  rcases hloop with ⟨-, htracks⟩ | ⟨-, hbroken⟩
  · have hin := htracks.keys name
    rw [← hkeys, hreflects.keys, failedAs_reverse] at hin
    rw [hin, not_and_not_right]
    exact ⟨fun hcleared _ => hcleared, fun hcleared => hcleared hnoted⟩
  · exfalso
    cases hbroken with
    | missing n hfailed hout hseen => exact hout ((hkeys n).mp ((hreflects.keys n).mpr (failedAs_reverse.mpr hfailed)))
    | again n hin hagain => exact ((hreflects.announced n).mp (hannounced ▸ hagain)).2 hin
    | twice htwice => exact htwice (hannounced ▸ hreflects.once)

/-- **The map reflects the run** exactly if the run clears the names of the children that did not fail, and
no others. -/
theorem createChildrenAccounts_reflects_iff
    (h : createChildrenAccounts C root accounts rootSkipped children = some run) :
    Reflects (childName C root accounts) rootSkipped children run ↔
      ClearsItsSuccesses C root accounts rootSkipped children :=
  ⟨clears_of_reflects h, reflects_of_clears h⟩

end Result

/-! ## Names that are told apart -/

section Free

variable {C : Collation} {root : CloudAccount} {accounts : List CloudAccount} {goesBy : Text → Text}
  {rootSkipped : Dict Text String} {children past : List ChildConfig} {run : ChildrenRun}

/-- Children that go by the names they are found under, each its own, clear what the map had of them. -/
theorem clearedBy_iff_of_free (hfree : ∀ c ∈ past, goesBy c.name = c.name)
    (hnodup : (past.map ChildConfig.name).Nodup) {n : Text} :
    ClearedBy goesBy rootSkipped past n ↔ n ∈ rootSkipped ∧ ∃ c ∈ past, c.connected ∧ c.name = n := by
  induction past generalizing n with
  | nil => simp [ClearedBy]
  | cons c past ih =>
    obtain ⟨hc, hfree⟩ := List.forall_mem_cons.mp hfree
    rw [List.map_cons, List.nodup_cons] at hnodup
    have hnew : ∀ d ∈ past, d.name ≠ c.name := fun d hd h => hnodup.1 (List.mem_map.mpr ⟨d, hd, h⟩)
    have hnoted : Noted goesBy rootSkipped past c.name ↔ c.name ∈ rootSkipped := by
      refine or_iff_left ?_
      rintro ⟨d, hd, -, hname⟩
      exact hnew d hd ((hfree d hd).symm.trans hname)
    have hcleared : ¬ ClearedBy goesBy rootSkipped past c.name := fun h => by
      obtain ⟨-, d, hd, -, hname⟩ := (ih hfree hnodup.2).mp h
      exact hnew d hd hname
    rw [ClearedBy, hc, ih hfree hnodup.2, List.exists_mem_cons_iff]
    constructor
    · rintro (⟨hin, h⟩ | ⟨hconnected, rfl, hin, -⟩)
      · exact ⟨hin, Or.inr h⟩
      · exact ⟨hnoted.mp hin, Or.inl ⟨hconnected, rfl⟩⟩
    · rintro ⟨hin, ⟨hconnected, rfl⟩ | h⟩
      · exact Or.inr ⟨hconnected, rfl, hnoted.mpr hin, hnoted.mpr hin, hcleared⟩
      · exact Or.inl ⟨hin, h⟩

/-- **Where every child goes by a name of its own that it was found under**, the map reflects the run if
every name it had is the name of a child. -/
theorem createChildrenAccounts_reflects_of_free (hfree : ∀ c ∈ children, caExists C root accounts c.name = false)
    (hnodup : (children.map ChildConfig.name).Nodup)
    (hfound : ∀ n ∈ rootSkipped, ∃ c ∈ children, c.name = n) (hends : ∀ c ∈ children, c.connected ∨ c.fails)
    (h : createChildrenAccounts C root accounts rootSkipped children = some run) :
    Reflects (childName C root accounts) rootSkipped children run := by
  have hname : ∀ c ∈ children, childName C root accounts c.name = c.name := fun c hc => by
    rw [childName, hfree c hc, if_neg Bool.false_ne_true]
  refine reflects_of_clears h fun n hnoted => ?_
  rw [Cleared, clearedBy_iff_of_free (fun c hc => hname c (List.mem_reverse.mp hc))
    (by rw [List.map_reverse]; exact List.nodup_reverse.mpr hnodup)]
  simp only [List.mem_reverse]
  have hsame : ∀ c ∈ children, ∀ d ∈ children, c.name = d.name → c = d := fun c hc d hd =>
    List.inj_on_of_nodup_map hnodup hc hd
  constructor
  · rintro ⟨-, c, hc, hconnected, rfl⟩ ⟨d, hd, hfails, hd'⟩
    obtain rfl := hsame c hc d hd (hd'.symm.trans (hname d hd))
    cases hout : c.outcome <;> simp [ChildConfig.connected, ChildConfig.fails, hout] at hconnected hfails
  · intro hfailed
    have hin := hnoted.resolve_right hfailed
    obtain ⟨c, hc, rfl⟩ := hfound n hin
    refine ⟨hin, c, hc, (hends c hc).resolve_right fun hfails => hfailed ⟨c, hc, hfails, hname c hc⟩, rfl⟩

end Free

/-! ## A subscription with a longer name -/

/-- The root account of an organization that has another account called `prod`. -/
def tenant : CloudAccount where
  id := 1
  name := "tenant".toList
  type := .AZURE_TENANT
  organizationId := 1
  accountId := some "42".toList

/-- Names are equal if their characters are. -/
def byCharacter : Collation := ⟨fun a b => decide (a = b), fun a b => decide (a = b)⟩

/-- The accounts of the organization. -/
def inUse : List CloudAccount := [tenant, { tenant with id := 2, name := "prod".toList }]

/-- What earlier runs kept of the subscription `prod`. -/
def kept : Dict Text String := Dict.set ∅ "prod (42)".toList "error"

/-- The subscription `prod`, connected now. -/
def prod : ChildConfig := ⟨"prod".toList, .AZURE_CNR, .created 3⟩

/-- **A name that failed once stays**: the subscription is connected, and still kept as skipped. -/
theorem connected_stays_skipped : ∃ run,
    createChildrenAccounts byCharacter tenant inUse kept [prod] = some run ∧
      ¬ Reflects (childName byCharacter tenant inUse) kept [prod] run := by
  refine ⟨_, rfl, fun h => ?_⟩
  obtain ⟨c, hc, hfails, -⟩ := (h.keys "prod (42)".toList).mp (by decide)
  rw [List.mem_singleton.mp hc] at hfails
  exact absurd hfails (by decide)

/-- The same subscription without a map, and without another account of its name. -/
theorem connected_reflects : ∃ run,
    createChildrenAccounts byCharacter tenant [tenant] ∅ [prod] = some run ∧
      (Reflects (childName byCharacter tenant [tenant]) ∅ [prod] run ↔
        ClearsItsSuccesses byCharacter tenant [tenant] ∅ [prod]) :=
  ⟨_, rfl, createChildrenAccounts_reflects_iff rfl⟩

end CloudAccountController
