import OptScale.Foundations.Run
import OptScale.Resources.Operators

/-!
# Resources/SeenDates — the dates of a stored resource, and their days

A resource has the dates it was seen at first and last, and the day of each, for the queries by day.  A bulk
writes the four with `$min` and `$max`, each by itself and from a counterpart that may have been read before
other writes; an edit sets them.  **The days stay those of the dates** in every run, up to one thing: an edit
of the first date leaves its day alone.
-/

open Fallible

namespace ResourceUpsert

/-! ## The writes -/

/-- The order of the database, of nulls, numbers and dates: there are no others under `$min` and `$max`. -/
def before : FieldValue → FieldValue → Bool
  | .int a, .int b => a < b
  | .day a, .day b => a < b
  | .null, .int _ => true
  | .null, .day _ => true
  | .int _, .day _ => true
  | _, _ => false

/-- The fields of an operator, each where there is none yet or where it goes before the one there is. -/
def merged (goes : FieldValue → FieldValue → Bool) (changes d : Document) : Document :=
  Dict.collect (fun f v => if (d.lookup f).all (goes v) then some v else none) changes d

/-- `$min` -/
def lowered (changes d : Document) : Document := merged before changes d

/-- `$max` -/
def raised (changes d : Document) : Document := merged (fun v w => before w v) changes d

/-- `UpdateOne(..., upsert=True)`, of the document it finds, if any. -/
def OpDetails.upsert (ops : OpDetails) (stored : Option Document) : Document :=
  raised ops.max (lowered ops.min (Dict.update (stored.getD ops.setOnInsert) ops.set))

/-- `check_restrictions`, of an edit. -/
def checkEdit (kwargs : Document) : Except Failure Unit := do
  optionalParams.forM fun field =>
    if get kwargs field = .null then pure () else checkOptional field (get kwargs field)
  require (∀ field ∈ requiredFields ++ immutableParams, kwargs.lookup field = none)
    (.wrongArguments .OE0211
      [((requiredFields ++ immutableParams).find? fun field => kwargs.lookup field ≠ none).getD ""])
  require (∀ field ∈ kwargs.keys, field ∈ requiredFields ++ immutableParams ++ optionalParams)
    (.wrongArguments .OE0212
      (kwargs.keys.filter fun field => field ∉ requiredFields ++ immutableParams ++ optionalParams))

/-- `CloudResourceController.edit`, of the fields that it sets as they are given; `checks` are those of the owner
and the pool, of the resource being there, and of what may be shared. -/
def edit (checks : Except Failure Unit) (stored kwargs : Document) : Except Failure Document := do
  checkEdit kwargs
  let kwargs ← setDay "last_seen" kwargs
  checks
  pure (Dict.update stored kwargs)

/-! ## Runs -/

/-- What happens to a resource: a bulk writes it, with the counterpart it has read of it, or it is edited, or
deleted for good. -/
inductive SeenEvent
  | write (C : Context) (behavior : Behavior) (isReportImport : Bool) (cluster : Option Document)
    (db p : Document)
  | edit (checks : Except Failure Unit) (kwargs : Document)
  | delete

/-- The resource after that, if it is stored.  What raises changes nothing; with `error_existing` there are
no upserts. -/
def seenStep (stored : Option Document) : SeenEvent → Option (Option Document)
  | .write C behavior isReportImport cluster db p =>
    if behavior = .error_existing then none
    else match updateOf C behavior isReportImport cluster db p with
      | .error _ => some stored
      | .ok ops => some (some (ops.upsert stored))
  | .edit checks kwargs => some (stored.map fun d => (edit checks d kwargs).toOption.getD d)
  | .delete => some none

/-! ## Dates and days -/

/-- **The day is that of the date**, if there is one. -/
def Dated (d : Document) (date day : String) : Prop :=
  d.lookup date = none ∧ d.lookup day = none ∨
    ∃ n, d.lookup date = some (.int n) ∧ d.lookup day = some (.day (n - n % 86400))

/-- Both days are those of the dates. -/
def SeenDated (d : Document) : Prop :=
  Dated d "first_seen" "_first_seen_date" ∧ Dated d "last_seen" "_last_seen_date"

variable {C : Context} {behavior : Behavior} {isReportImport : Bool} {cluster : Option Document}
  {d d' changes resource db p kwargs : Document} {date day field : String} {ops : OpDetails}

theorem Dated.of_lookup (h : Dated d date day) (hdate : d'.lookup date = d.lookup date)
    (hday : d'.lookup day = d.lookup day) : Dated d' date day := by
  rw [Dated, hdate, hday]
  exact h

/-- **`$set` of a date and of its day** is a date and its day. -/
theorem Dated.update (h : Dated d date day) (hchanges : Dated changes date day) :
    Dated (Dict.update d changes) date day := by
  rcases hchanges with ⟨hdate, hday⟩ | ⟨n, hdate, hday⟩
  · refine h.of_lookup ?_ ?_
    · rw [Dict.lookup_update, hdate, Option.none_or]
    · rw [Dict.lookup_update, hday, Option.none_or]
  · refine Or.inr ⟨n, ?_, ?_⟩
    · rw [Dict.lookup_update, hdate, Option.some_or]
    · rw [Dict.lookup_update, hday, Option.some_or]

section Merged

variable {goes : FieldValue → FieldValue → Bool}

/-- A field that the operator does not have. -/
theorem lookup_merged_of_none (h : changes.lookup field = none) :
    (merged goes changes d).lookup field = d.lookup field := by
  rw [merged, Dict.lookup_collect, h]
  rfl

theorem lookup_merged_of_some {v : FieldValue} (h : changes.lookup field = some v) :
    (merged goes changes d).lookup field = if (d.lookup field).all (goes v) then some v else d.lookup field := by
  rw [merged, Dict.lookup_collect, h, Option.bind_some]
  split
  · rfl
  · rfl

/-- **An operator that orders the days as the dates** makes a date and its day of a date and its day. -/
theorem Dated.merged (h : Dated d date day) (hchanges : Dated changes date day)
    (hgoes : ∀ n m : ℤ, goes (.int n) (.int m) = true →
      goes (.day (n - n % 86400)) (.day (m - m % 86400)) = true ∨ n - n % 86400 = m - m % 86400)
    (hstays : ∀ n m : ℤ, goes (.int n) (.int m) = false →
      goes (.day (n - n % 86400)) (.day (m - m % 86400)) = false) :
    Dated (merged goes changes d) date day := by
  rcases hchanges with ⟨hdate, hday⟩ | ⟨n, hdate, hday⟩
  · exact h.of_lookup (lookup_merged_of_none hdate) (lookup_merged_of_none hday)
  · rw [Dated, lookup_merged_of_some hdate, lookup_merged_of_some hday]
    rcases h with ⟨hdate', hday'⟩ | ⟨m, hdate', hday'⟩
    · rw [hdate', hday']
      exact Or.inr ⟨n, rfl, rfl⟩
    · rw [hdate', hday', Option.all_some, Option.all_some]
      refine Or.inr ?_
      cases hnm : goes (.int n) (.int m) with
      | true =>
        refine ⟨n, rfl, ?_⟩
        rcases hgoes n m hnm with hgo | hsame
        · rw [if_pos hgo]
        · rw [hsame, ite_self]
      | false =>
        refine ⟨m, rfl, ?_⟩
        rw [hstays n m hnm]
        rfl

end Merged

/-- `$min` of a date and of its day. -/
theorem Dated.lowered (h : Dated d date day) (hchanges : Dated changes date day) :
    Dated (lowered changes d) date day := by
  refine h.merged hchanges (fun n m hlt => ?_) fun n m hle => ?_
  · simp only [before, decide_eq_true_eq] at hlt ⊢
    omega
  · simp only [before, decide_eq_false_iff_not] at hle ⊢
    omega

/-- `$max` of a date and of its day. -/
theorem Dated.raised (h : Dated d date day) (hchanges : Dated changes date day) :
    Dated (raised changes d) date day := by
  refine h.merged hchanges (fun n m hlt => ?_) fun n m hle => ?_
  · simp only [before, decide_eq_true_eq] at hlt ⊢
    omega
  · simp only [before, decide_eq_false_iff_not] at hle ⊢
    omega

/-! ## What a bulk writes -/

/-- The day of a date that has changed is set beside it. -/
theorem dated_setDay (h : setDay field d = .ok d') (hday : d.lookup ("_" ++ field ++ "_date") = none)
    (hne : field ≠ "_" ++ field ++ "_date") : Dated d' field ("_" ++ field ++ "_date") := by
  unfold setDay at h
  cases hfield : d.lookup field with
  | none =>
    rw [hfield] at h
    obtain rfl := Except.ok.inj h
    exact Or.inl ⟨hfield, hday⟩
  | some v =>
    rw [hfield] at h
    obtain ⟨day, hv, h⟩ := bind_eq_ok.mp h
    obtain rfl := pure_eq_ok.mp h
    cases v with
    | int n =>
      obtain rfl := Except.ok.inj hv
      refine Or.inr ⟨n, ?_, ?_⟩
      · rw [Dict.lookup_set, if_neg hne, hfield]
      · rw [Dict.lookup_set, if_pos rfl]
    | _ => cases hv

/-- Of the dates, what changes goes into the update, and nothing into the insertion. -/
theorem lookup_divide_of_date (hbehavior : behavior ≠ .error_existing) {changed rest : Document}
    (hfield : field ∈ dateFields) (hrest : rest.lookup field = none) :
    (divide behavior db changed rest).1.lookup field = changed.lookup field ∧
      (divide behavior db changed rest).2.lookup field = none := by
  have hid : field ≠ "cloud_resource_id" := fun h => by rw [h] at hfield; revert hfield; decide
  have hhash : field ≠ "cloud_resource_hash" := fun h => by rw [h] at hfield; revert hfield; decide
  cases hchanged : changed.lookup field with
  | none => exact lookup_divide_of_none behavior db hchanged hrest hid hhash
  | some v => exact divide_of_taken db hchanged hrest hbehavior hid hhash

/-- **The dates that `split_changes` finds changed have their days with them.** -/
theorem splitChanges_seenDated (hbehavior : behavior ≠ .error_existing)
    (hfirst : resource.lookup "_first_seen_date" = none) (hlast : resource.lookup "_last_seen_date" = none)
    {split : Document × Document} (h : splitChanges C resource db behavior isReportImport = .ok split) :
    SeenDated split.1 ∧ ∀ f ∈ dateFields, split.2.lookup f = none := by
  obtain ⟨first, hset, h⟩ := bind_eq_ok.mp h
  obtain ⟨dated, hset', h⟩ := bind_eq_ok.mp h
  have hfirstDay : Dated first "first_seen" "_first_seen_date" :=
    dated_setDay hset (by simp) (by decide)
  have hlastDay : Dated dated "last_seen" "_last_seen_date" :=
    dated_setDay hset' ((lookup_setDay hset (by decide)).trans (by simp)) (by decide)
  have hagree : SeenDated dated :=
    ⟨hfirstDay.of_lookup (lookup_setDay hset' (by decide)) (lookup_setDay hset' (by decide)), hlastDay⟩
  suffices hall : ∀ f ∈ dateFields, split.1.lookup f = dated.lookup f ∧ split.2.lookup f = none from
    ⟨⟨hagree.1.of_lookup (hall _ (by decide)).1 (hall _ (by decide)).1,
      hagree.2.of_lookup (hall _ (by decide)).1 (hall _ (by decide)).1⟩, fun f hf => (hall f hf).2⟩
  intro f hf
  have htags : f ≠ "tags" := fun h => by rw [h] at hf; revert hf; decide
  have hmeta : f ≠ "meta" := fun h => by rw [h] at hf; revert hf; decide
  have hfour : f = "first_seen" ∨ f = "last_seen" ∨ f = "_first_seen_date" ∨ f = "_last_seen_date" := by
    simpa [dateFields] using hf
  obtain rfl := pure_eq_ok.mp h
  split
  · rw [Dict.lookup_set, if_neg htags]
    refine ⟨(lookup_divide_of_date hbehavior hf ?_).1.trans ?_, (lookup_divide_of_date hbehavior hf ?_).2⟩
    · rcases hfour with rfl | rfl | rfl | rfl <;> simp [hfirst, hlast]
    · split
      · rfl
      · rw [Dict.lookup_set, if_neg hmeta]
    · rcases hfour with rfl | rfl | rfl | rfl <;> simp [hfirst, hlast]
  · rw [Dict.lookup_set, if_neg htags]
    refine ⟨(lookup_divide_of_date hbehavior hf ?_).1.trans ?_, (lookup_divide_of_date hbehavior hf ?_).2⟩
    · rcases hfour with rfl | rfl | rfl | rfl <;> simp [hfirst, hlast]
    · split
      · rfl
      · rw [Dict.lookup_set, if_neg hmeta]
    · rcases hfour with rfl | rfl | rfl | rfl <;> simp [hfirst, hlast]

/-- **What a bulk writes of the dates.** -/
structure WritesDates (ops : OpDetails) : Prop where
  first : Dated ops.min "first_seen" "_first_seen_date"
  last : Dated ops.max "last_seen" "_last_seen_date"
  min : ops.min.lookup "last_seen" = none ∧ ops.min.lookup "_last_seen_date" = none
  max : ops.max.lookup "first_seen" = none ∧ ops.max.lookup "_first_seen_date" = none
  others : ∀ f ∈ dateFields, ops.set.lookup f = none ∧ ops.setOnInsert.lookup f = none

theorem updateOf_writesDates (hbehavior : behavior ≠ .error_existing)
    (h : updateOf C behavior isReportImport cluster db p = .ok ops) : WritesDates ops := by
  obtain ⟨q, resource, split, hq, hsame, -, hsplit, rfl⟩ := updateOf_eq_ok h
  have hassigned := assignedResource_eq_ok hq
  have hunknown : ∀ f, f ∉ requiredFields ++ optionalParams → f ∉ assignedFields → q.lookup f = none := by
    intro f hf hfree
    rw [hassigned.same f hfree]
    by_contra hne
    exact hf (hassigned.known f hne)
  obtain ⟨⟨hfirst, hlast⟩, hnone⟩ := splitChanges_seenDated hbehavior
    ((hsame _ (by decide) (by decide)).trans (hunknown _ (by decide) (by decide)))
    ((hsame _ (by decide) (by decide)).trans (hunknown _ (by decide) (by decide))) hsplit
  have htake : ∀ {date day : String}, Dated split.1 date day →
      Dated (takeFields [date, day] split.1) date day := fun {date day} hdated => by
    rw [Dated, lookup_takeFields, lookup_takeFields, if_pos (Or.inl rfl), if_pos (Or.inr rfl)]
    rcases hdated with ⟨hdate, hday⟩ | ⟨n, hdate, hday⟩
    · rw [hdate, hday]
      exact Or.inl ⟨rfl, rfl⟩
    · rw [hdate, hday]
      exact Or.inr ⟨n, rfl, rfl⟩
  refine ⟨htake hfirst, htake hlast, ⟨?_, ?_⟩, ⟨?_, ?_⟩, fun f hf => ⟨?_, hnone f hf⟩⟩
  · exact (lookup_takeFields ..).trans (if_neg (by decide))
  · exact (lookup_takeFields ..).trans (if_neg (by decide))
  · exact (lookup_takeFields ..).trans (if_neg (by decide))
  · exact (lookup_takeFields ..).trans (if_neg (by decide))
  · rw [lookup_set_opDetails, if_pos hf]

/-- **A write keeps the days those of the dates**, whatever counterpart it was made with. -/
theorem WritesDates.upsert (h : WritesDates ops) {stored : Option Document}
    (hstored : ∀ d ∈ stored, SeenDated d) : SeenDated (ops.upsert stored) := by
  have hbase : SeenDated (Dict.update (stored.getD ops.setOnInsert) ops.set) := by
    have hlookup : ∀ f ∈ dateFields, (Dict.update (stored.getD ops.setOnInsert) ops.set).lookup f =
        (stored.getD ops.setOnInsert).lookup f := fun f hf => by
      rw [Dict.lookup_update, (h.others f hf).1, Option.none_or]
    have hfound : SeenDated (stored.getD ops.setOnInsert) := by
      cases stored with
      | some d => exact hstored d rfl
      | none => exact ⟨Or.inl ⟨(h.others _ (by decide)).2, (h.others _ (by decide)).2⟩,
          Or.inl ⟨(h.others _ (by decide)).2, (h.others _ (by decide)).2⟩⟩
    exact ⟨hfound.1.of_lookup (hlookup _ (by decide)) (hlookup _ (by decide)),
      hfound.2.of_lookup (hlookup _ (by decide)) (hlookup _ (by decide))⟩
  refine ⟨(hbase.1.lowered h.first).of_lookup ?_ ?_, Dated.raised (hbase.2.of_lookup ?_ ?_) h.last⟩
  · exact lookup_merged_of_none h.max.1
  · exact lookup_merged_of_none h.max.2
  · exact lookup_merged_of_none h.min.1
  · exact lookup_merged_of_none h.min.2

/-! ## What an edit sets -/

/-- A field that no edit may have. -/
theorem lookup_of_checkEdit (h : checkEdit kwargs = .ok ())
    (hfield : field ∉ requiredFields ++ immutableParams ++ optionalParams) : kwargs.lookup field = none := by
  obtain ⟨_, -, h⟩ := bind_eq_ok.mp h
  obtain ⟨_, -, hknown⟩ := bind_eq_ok.mp h
  by_contra hne
  have hmem : field ∈ kwargs.keys :=
    AList.mem_keys.mpr (AList.lookup_isSome.mp (Option.isSome_iff_ne_none.mpr hne))
  exact hfield (require_eq_ok.mp hknown field hmem)

/-- **An edit keeps the days those of the dates exactly when it leaves the first date in its day.** -/
theorem seenDated_edit_iff {checks : Except Failure Unit} (h : SeenDated d)
    (hedit : edit checks d kwargs = .ok d') :
    SeenDated d' ↔ ∀ v ∈ kwargs.lookup "first_seen",
      ∃ n, v = .int n ∧ d.lookup "_first_seen_date" = some (.day (n - n % 86400)) := by
  obtain ⟨_, hcheck, hedit⟩ := bind_eq_ok.mp hedit
  obtain ⟨kwargs', hset, hedit⟩ := bind_eq_ok.mp hedit
  obtain ⟨_, -, hedit⟩ := bind_eq_ok.mp hedit
  obtain rfl := pure_eq_ok.mp hedit
  have hgivenLast : Dated kwargs' "last_seen" "_last_seen_date" :=
    dated_setDay hset (lookup_of_checkEdit hcheck (by decide)) (by decide)
  have hlast : Dated (Dict.update d kwargs') "last_seen" "_last_seen_date" := h.2.update hgivenLast
  have hday : (Dict.update d kwargs').lookup "_first_seen_date" = d.lookup "_first_seen_date" := by
    rw [Dict.lookup_update, lookup_setDay hset (by decide), lookup_of_checkEdit hcheck (by decide),
      Option.none_or]
  have hdate : (Dict.update d kwargs').lookup "first_seen" =
      (kwargs.lookup "first_seen").or (d.lookup "first_seen") := by
    rw [Dict.lookup_update, lookup_setDay hset (by decide)]
  refine ⟨fun hdated v hv => ?_, fun hfirst => ⟨?_, hlast⟩⟩
  · rw [Option.mem_def.mp hv, Option.some_or] at hdate
    rcases hdated.1 with ⟨hnone, -⟩ | ⟨n, hn, hnday⟩
    · rw [hdate] at hnone
      cases hnone
    · exact ⟨n, Option.some.inj (hdate.symm.trans hn), hday ▸ hnday⟩
  · cases hgiven : kwargs.lookup "first_seen" with
    | none =>
      rw [hgiven, Option.none_or] at hdate
      exact h.1.of_lookup hdate hday
    | some v =>
      obtain ⟨n, rfl, hn⟩ := hfirst v hgiven
      rw [hgiven, Option.some_or] at hdate
      exact Or.inr ⟨n, hdate, hday.trans hn⟩

/-! ## The days along a run -/

/-- **The first date stays in its day**, if it is edited. -/
def SeenEvent.KeepsDay (stored : Option Document) : SeenEvent → Prop
  | .edit checks kwargs => ∀ d ∈ stored, (ResourceUpsert.edit checks d kwargs).isOk →
      ∀ v ∈ kwargs.lookup "first_seen", ∃ n, v = .int n ∧ d.lookup "_first_seen_date" = some (.day (n - n % 86400))
  | _ => True

/-- **What a step does to the days.** -/
theorem seenDated_step_iff {stored stored' : Option Document} {e : SeenEvent}
    (h : ∀ d ∈ stored, SeenDated d) (hstep : seenStep stored e = some stored') :
    (∀ d ∈ stored', SeenDated d) ↔ e.KeepsDay stored := by
  cases e with
  | write C behavior isReportImport cluster db p =>
    refine iff_of_true ?_ trivial
    obtain ⟨hbehavior, hstep⟩ := Option.ite_none_left_eq_some.mp hstep
    cases hops : updateOf C behavior isReportImport cluster db p with
    | error e =>
      rw [hops] at hstep
      exact Option.some.inj hstep ▸ h
    | ok ops =>
      rw [hops] at hstep
      obtain rfl := Option.some.inj hstep
      intro d hd
      exact Option.some.inj hd ▸ (updateOf_writesDates hbehavior hops).upsert h
  | edit checks kwargs =>
    obtain rfl := Option.some.inj hstep
    cases stored with
    | none => exact iff_of_true (fun _ hd => by cases hd) (fun _ hd => by cases hd)
    | some d =>
      cases hedit : edit checks d kwargs with
      | error e =>
        have hsame : (edit checks d kwargs).toOption.getD d = d := by
          rw [hedit]
          rfl
        refine iff_of_true (fun d' hd' => ?_) (fun d' hd' hok => ?_)
        · obtain rfl := Option.some.inj hd'
          show SeenDated ((edit checks d kwargs).toOption.getD d)
          rw [hsame]
          exact h d rfl
        · obtain rfl := Option.some.inj hd'
          rw [hedit] at hok
          cases hok
      | ok d' =>
        have hsame : (edit checks d kwargs).toOption.getD d = d' := by
          rw [hedit]
          rfl
        have hiff := seenDated_edit_iff (h d rfl) hedit
        refine ⟨fun hall d₀ hd₀ _ => ?_, fun hkeeps d₁ hd₁ => ?_⟩
        · obtain rfl := Option.some.inj hd₀
          exact hiff.mp (hsame ▸ hall _ rfl)
        · obtain rfl := Option.some.inj hd₁
          show SeenDated ((edit checks d kwargs).toOption.getD d)
          rw [hsame]
          exact hiff.mpr (hkeeps d rfl (by rw [hedit]; rfl))
  | delete =>
    obtain rfl := Option.some.inj hstep
    exact iff_of_true (fun _ hd => by cases hd) trivial

/-- **The days of a resource are those of its dates in every run exactly when no edit takes the first date to
another day**: whatever the bulks report, in whatever order, and however old the counterparts are they are
made with. -/
theorem seen_days_follow (es : List SeenEvent) :
    Run.Always seenStep (fun stored => ∀ d ∈ stored, SeenDated d) none es ↔
      Run.Along seenStep (fun stored e _ => e.KeepsDay stored) none es :=
  Run.always_iff_along (P := fun stored : Option Document => ∀ d ∈ stored, SeenDated d)
    (G := fun stored e _ => SeenEvent.KeepsDay stored e) (fun _ _ _ h hstep => seenDated_step_iff h hstep)
    fun _ hd => absurd hd (Option.not_mem_none _)

end ResourceUpsert
