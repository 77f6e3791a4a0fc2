import OptScale.Foundations.Dict
import OptScale.Foundations.Upserts
import OptScale.Rest.Text

/-!
# Diworker/RawDocuments — raw expenses of reports, as documents

A raw expense is a document with the fields its report has.  `update_raw_records` looks for a record with the
same unique fields, of another report or of the number of the row, and sets the update fields of the row in it; where
there is none, the row becomes a record itself.  So the rows of a report that differ in their unique fields or their
numbers are kept, one record each (`ReportFields.kept_of_writes`), and others are not (`ReportFields.kept_iff`).

An import remembers the dates it wrote, by account.
-/

open Upserts

/-- A value of a field. -/
inductive RawField
  | text (s : Text)
  | number (q : ℚ)
  | id (u : Uuid)
  | date (t : ℤ)
  deriving DecidableEq

/-- A raw expense, by the names of its fields. -/
abbrev ExpenseDocument := Dict String RawField

namespace ExpenseDocument

/-- The cloud account of a document. -/
def accountOf : Option RawField → Uuid
  | some (.id u) => u
  | _ => 0

/-- The date of a document. -/
def dateOf : Option RawField → ℤ
  | some (.date t) => t
  | _ => 0

/-- An amount, or nothing. -/
def amountOf : Option RawField → ℚ
  | some (.number q) => q
  | _ => 0

/-- `$set`: the update fields that the row has. -/
def setFields (update : List String) (r d : ExpenseDocument) : ExpenseDocument :=
  update.foldl (fun d f => (r.lookup f).elim d fun v => Dict.set d f v) d

variable {update unique : List String} {r d : ExpenseDocument} {f : String}

/-- **The fields of an updated record.** -/
theorem lookup_setFields : (setFields update r d).lookup f =
    if f ∈ update then (r.lookup f).or (d.lookup f) else d.lookup f := by
  unfold setFields
  induction update generalizing d with
  | nil => rfl
  | cons g update ih =>
    rw [List.foldl_cons, ih]
    have hset : ((r.lookup g).elim d fun v => Dict.set d g v).lookup f =
        if f = g then (r.lookup g).or (d.lookup g) else d.lookup f := by
      cases hg : r.lookup g with
      | none =>
        rw [Option.elim_none, Option.none_or]
        split
        · rename_i hfg
          rw [hfg]
        · rfl
      | some v => rw [Option.elim_some, Dict.lookup_set, Option.some_or]
    rw [hset]
    by_cases hfg : f = g
    · subst hfg
      rw [if_pos rfl, if_pos List.mem_cons_self]
      split
      · rw [← Option.or_assoc, Option.or_self]
      · rfl
    · simp only [List.mem_cons, hfg, false_or, if_false]

theorem lookup_setFields_of_notMem (h : f ∉ update) : (setFields update r d).lookup f = d.lookup f :=
  lookup_setFields.trans (if_neg h)

theorem lookup_setFields_of_mem {v : RawField} (h : f ∈ update) (hr : r.lookup f = some v) :
    (setFields update r d).lookup f = some v := by
  rw [lookup_setFields, if_pos h, hr, Option.some_or]

end ExpenseDocument

open ExpenseDocument

/-- The fields of an importer of reports: the account and the date are unique fields, and the identity of the report
and the number of the row are update fields. -/
structure ReportFields where
  unique : List String
  update : List String
  disjoint : unique.Disjoint update
  account : "cloud_account_id" ∈ unique
  date : "start_date" ∈ unique
  identity : "report_identity" ∈ update
  number : "_rec_n" ∈ update

namespace ReportFields

variable (F : ReportFields)

/-- **`update_raw_records`** of a report: the record has the unique fields of the row, and it is of another report or
has the number of the row.  Its key is the account and the date. -/
def upsert : Upsert ExpenseDocument ExpenseDocument (Uuid × ℤ) where
  rowKey r := (accountOf (r.lookup "cloud_account_id"), dateOf (r.lookup "start_date"))
  key d := (accountOf (d.lookup "cloud_account_id"), dateOf (d.lookup "start_date"))
  Matches r d := (∀ f ∈ F.unique, d.lookup f = r.lookup f) ∧
    (d.lookup "report_identity" ≠ r.lookup "report_identity" ∨ d.lookup "_rec_n" = r.lookup "_rec_n")
  set := setFields F.update
  fresh r := r
  key_of_matches hmatch := by rw [hmatch.1 _ F.account, hmatch.1 _ F.date]
  key_set _ _ := by rw [lookup_setFields_of_notMem (F.disjoint F.account), lookup_setFields_of_notMem (F.disjoint F.date)]
  key_fresh _ := rfl

instance (r d : ExpenseDocument) : Decidable (F.upsert.Matches r d) := inferInstanceAs (Decidable (_ ∧ (_ ∨ _)))

/-- What sets a row apart from those of the same report: its unique fields and its number. -/
def place (d : ExpenseDocument) : List (Option RawField) × Option RawField :=
  (F.unique.map d.lookup, d.lookup "_rec_n")

/-- **A record carries a row**: it has the unique fields of the row, and the update fields that the row has. -/
def Carries (r d : ExpenseDocument) : Prop :=
  (∀ f ∈ F.unique, d.lookup f = r.lookup f) ∧ ∀ f ∈ F.update, ∀ v, r.lookup f = some v → d.lookup f = some v

/-- The record is of this report. -/
def Current (identity : RawField) (d : ExpenseDocument) : Prop := d.lookup "report_identity" = some identity

instance (identity : RawField) : DecidablePred (Current identity) := fun d =>
  inferInstanceAs (Decidable (d.lookup "report_identity" = some identity))

/-- A row as it is written: with the identity of the report, and a number. -/
structure Written (identity : RawField) (r : ExpenseDocument) : Prop where
  current : Current identity r
  numbered : (r.lookup "_rec_n").isSome

/-- **Nothing is lost**: the records of the report carry its rows, one each. -/
def Kept (identity : RawField) (rows : List ExpenseDocument) (docs : Multiset ExpenseDocument) : Prop :=
  ∃ ds : List ExpenseDocument, docs.filter (Current identity) = ds ∧ List.Forall₂ F.Carries rows ds

/-! ## Rows in places of their own -/

variable {F} {identity : RawField} {r d : ExpenseDocument} {rows : List ExpenseDocument}
  {docs docs' : Multiset ExpenseDocument}

theorem carries_self (r : ExpenseDocument) : F.Carries r r := ⟨fun _ _ => rfl, fun _ _ _ h => h⟩

theorem carries_set (h : F.upsert.Matches r d) : F.Carries r (F.upsert.set r d) :=
  ⟨fun f hf => (lookup_setFields_of_notMem (F.disjoint hf)).trans (h.1 f hf), fun _ hf _ hv =>
    lookup_setFields_of_mem hf hv⟩

theorem Carries.current (h : F.Carries r d) (hr : Written identity r) : Current identity d :=
  h.2 _ F.identity _ hr.current

theorem Carries.place (h : F.Carries r d) (hr : Written identity r) : F.place d = F.place r := by
  obtain ⟨n, hn⟩ := Option.isSome_iff_exists.mp hr.numbered
  refine Prod.ext (List.map_congr_left h.1) ?_
  exact (h.2 _ F.number n hn).trans hn.symm

/-- A record of the report that a row finds is in the place of the row. -/
theorem place_of_matches (h : F.upsert.Matches r d) (hr : Current identity r) (hd : Current identity d) :
    F.place d = F.place r := by
  refine Prod.ext (List.map_congr_left h.1) ?_
  rcases h.2 with hne | hnumber
  · exact absurd (hd.trans hr.symm) hne
  · exact hnumber

/-- **A row whose place is free** becomes a record of the report. -/
theorem exists_of_updateOne (hone : UpdateOne F.upsert r docs docs') (hr : Written identity r)
    (hfree : ∀ d ∈ docs, Current identity d → F.place d ≠ F.place r) :
    ∃ d, docs'.filter (Current identity) = d ::ₘ docs.filter (Current identity) ∧ F.Carries r d := by
  rcases hone with ⟨hmatch⟩ | hnone
  · rename_i d rest
    have hcarry := carries_set hmatch
    have hold : ¬ Current identity d := fun hd =>
      hfree d (Multiset.mem_cons_self d rest) hd (place_of_matches hmatch hr.current hd)
    refine ⟨F.upsert.set r d, ?_, hcarry⟩
    rw [Multiset.filter_cons_of_pos _ (hcarry.current hr), Multiset.filter_cons_of_neg _ hold]
  · exact ⟨r, Multiset.filter_cons_of_pos _ hr.current, carries_self r⟩

theorem exists_carried {done ds : List ExpenseDocument} (h : List.Forall₂ F.Carries done ds) (hd : d ∈ ds) :
    ∃ x ∈ done, F.Carries x d := by
  induction h with
  | nil => exact absurd hd List.not_mem_nil
  | cons hcarry _ ih =>
    rcases List.mem_cons.mp hd with rfl | hd
    · exact ⟨_, List.mem_cons_self, hcarry⟩
    · obtain ⟨x, hx, hxd⟩ := ih hd
      exact ⟨x, List.mem_cons_of_mem _ hx, hxd⟩

/-- **Rows in places of their own are kept**, whatever was there of other reports.  The induction carries the rows
that are written already. -/
theorem kept_of_writes (hwrites : Writes F.upsert rows docs docs') : ∀ {done ds : List ExpenseDocument},
    docs.filter (Current identity) = ds → List.Forall₂ F.Carries done ds →
      (∀ r ∈ done ++ rows, Written identity r) → ((done ++ rows).map F.place).Nodup →
        F.Kept identity (done ++ rows) docs' := by
  induction hwrites with
  | nil =>
    intro done ds hds hcarries _ _
    rw [List.append_nil]
    exact ⟨ds, hds, hcarries⟩
  | cons hone _ ih =>
    rename_i r rows docs docs₁ docs' _
    intro done ds hds hcarries hwritten hnodup
    have happend : done ++ r :: rows = (done ++ [r]) ++ rows := by simp
    have hr : Written identity r := hwritten r (List.mem_append_right _ List.mem_cons_self)
    rw [happend] at hwritten hnodup ⊢
    have hfree : ∀ d ∈ docs, Current identity d → F.place d ≠ F.place r := by
      intro d hd hcur hplace
      have hmem : d ∈ ds := by
        rw [← Multiset.mem_coe, ← hds]
        exact Multiset.mem_filter.mpr ⟨hd, hcur⟩
      obtain ⟨x, hx, hxd⟩ := exists_carried hcarries hmem
      have hxr := (hxd.place (hwritten x (List.mem_append_left _ (List.mem_append_left _ hx)))).symm.trans hplace
      rw [List.map_append, List.map_append, List.nodup_append, List.nodup_append] at hnodup
      exact hnodup.1.2.2 _ (List.mem_map_of_mem hx) _ (List.mem_singleton.mpr rfl) hxr
    obtain ⟨d, hd, hcarry⟩ := exists_of_updateOne hone hr hfree
    have hmore : docs₁.filter (Current identity) = (ds ++ [d] : List ExpenseDocument) := by
      rw [hd, hds, ← Multiset.coe_add, add_comm]
      rfl
    exact ih hmore (List.rel_append hcarries (List.Forall₂.cons hcarry .nil)) hwritten hnodup

/-! ## Rows that share a place -/

/-- The places taken by records of one report. -/
def places (F : ReportFields) (docs : Multiset ExpenseDocument) :
    Multiset (List (Option RawField) × Option RawField) := docs.map F.place

/-- **A row of a report** takes its place, unless it is taken. -/
theorem places_updateOne (hone : UpdateOne F.upsert r docs docs') (hr : Written identity r)
    (hdocs : ∀ d ∈ docs, Current identity d) : (∀ d ∈ docs', Current identity d) ∧
      (F.place r ∈ F.places docs ∧ F.places docs' = F.places docs ∨
        F.place r ∉ F.places docs ∧ F.places docs' = F.place r ::ₘ F.places docs) := by
  rcases hone with ⟨hmatch⟩ | hnone
  · rename_i d rest
    have hcarry := carries_set hmatch
    obtain ⟨hd, hrest⟩ := Multiset.forall_mem_cons.mp hdocs
    have hplace := place_of_matches hmatch hr.current hd
    refine ⟨Multiset.forall_mem_cons.mpr ⟨hcarry.current hr, hrest⟩, Or.inl ⟨?_, ?_⟩⟩
    · exact Multiset.mem_map.mpr ⟨d, Multiset.mem_cons_self d rest, hplace⟩
    · rw [places, places, Multiset.map_cons, Multiset.map_cons, hcarry.place hr, hplace]
  · refine ⟨Multiset.forall_mem_cons.mpr ⟨hr.current, hdocs⟩, Or.inr ⟨fun hin => ?_, Multiset.map_cons ..⟩⟩
    obtain ⟨d, hd, hplace⟩ := Multiset.mem_map.mp hin
    refine hnone d hd ⟨fun f hf => ?_, Or.inr (congrArg Prod.snd hplace)⟩
    exact List.map_inj_left.mp (congrArg Prod.fst hplace) f hf

/-- **What is written to records of the same report alone**: as many records as there are places. -/
theorem places_writes (hwrites : Writes F.upsert rows docs docs') (hrows : ∀ r ∈ rows, Written identity r)
    (hdocs : ∀ d ∈ docs, Current identity d) (hnodup : (F.places docs).Nodup) :
    (∀ d ∈ docs', Current identity d) ∧ (F.places docs').Nodup ∧
      ∀ p, p ∈ F.places docs' ↔ p ∈ F.places docs ∨ p ∈ rows.map F.place := by
  induction hwrites with
  | nil => exact ⟨hdocs, hnodup, fun p => by simp⟩
  | cons hone _ ih =>
    obtain ⟨hr, hrows⟩ := List.forall_mem_cons.mp hrows
    obtain ⟨hdocs₁, hplaces⟩ := places_updateOne hone hr hdocs
    rcases hplaces with ⟨hin, hsame⟩ | ⟨hnew, hmore⟩
    · obtain ⟨hcurrent, hnodup', hmem⟩ := ih hrows hdocs₁ (hsame ▸ hnodup)
      refine ⟨hcurrent, hnodup', fun p => ?_⟩
      rw [hmem, hsame, List.map_cons, List.mem_cons]
      constructor
      · rintro (hp | hp)
        · exact Or.inl hp
        · exact Or.inr (Or.inr hp)
      · rintro (hp | rfl | hp)
        · exact Or.inl hp
        · exact Or.inl hin
        · exact Or.inr hp
    · obtain ⟨hcurrent, hnodup', hmem⟩ := ih hrows hdocs₁ (hmore ▸ Multiset.nodup_cons.mpr ⟨hnew, hnodup⟩)
      refine ⟨hcurrent, hnodup', fun p => ?_⟩
      rw [hmem, hmore, List.map_cons, List.mem_cons, Multiset.mem_cons]
      tauto

/-- **Of rows that come to an empty collection** none is lost exactly when they are in places of their own. -/
theorem kept_iff (hwrites : Writes F.upsert rows 0 docs') (hrows : ∀ r ∈ rows, Written identity r) :
    F.Kept identity rows docs' ↔ (rows.map F.place).Nodup := by
  constructor
  · rintro ⟨ds, hds, hcarries⟩
    obtain ⟨hcurrent, hnodup, hmem⟩ := places_writes hwrites hrows (fun d hd => absurd hd (Multiset.notMem_zero d))
      Multiset.nodup_zero
    have hall : docs' = ds := by rw [← hds, Multiset.filter_eq_self.mpr hcurrent]
    have hplaces : F.places docs' = (rows.map F.place).toFinset.val := by
      refine (Multiset.Nodup.ext hnodup (rows.map F.place).toFinset.nodup).mpr fun p => ?_
      rw [hmem, Finset.mem_val, List.mem_toFinset]
      exact or_iff_right (Multiset.notMem_zero p)
    have hcard : (rows.map F.place).toFinset.card = (rows.map F.place).length := by
      rw [Finset.card, ← hplaces, places, Multiset.card_map, hall, Multiset.coe_card, List.length_map,
        hcarries.length_eq]
    exact Multiset.coe_nodup.mp (Multiset.toFinset_card_eq_card_iff_nodup.mp hcard)
  · intro hnodup
    have hnone : (0 : Multiset ExpenseDocument).filter (Current identity) = ([] : List ExpenseDocument) := rfl
    exact kept_of_writes hwrites hnone .nil hrows hnodup

end ReportFields

/-! ## The dates of an import -/

namespace BaseReportImporter

/-- The interval with a date. -/
def widened (dates : Option (ℤ × ℤ)) (startDate : ℤ) : ℤ × ℤ :=
  dates.elim (startDate, startDate) fun d =>
    (if d.1 > startDate then startDate else d.1, if d.2 < startDate then startDate else d.2)

/-- `_update_imported_raw_interval`, for the account and the date of a row. -/
def updateImportedRawInterval (dates : Uuid → Option (ℤ × ℤ)) (row : Uuid × ℤ) : Uuid → Option (ℤ × ℤ) :=
  Function.update dates row.1 (some (widened (dates row.1) row.2))

/-- The interval of an import only grows. -/
theorem le_widened (d : ℤ × ℤ) (s : ℤ) : (widened (some d) s).1 ≤ d.1 ∧ d.2 ≤ (widened (some d) s).2 := by
  simp only [widened, Option.elim_some]
  constructor
  · split <;> omega
  · split <;> omega

theorem widened_spec (dates : Option (ℤ × ℤ)) (s : ℤ) : (widened dates s).1 ≤ s ∧ s ≤ (widened dates s).2 := by
  cases dates with
  | none => exact ⟨le_refl s, le_refl s⟩
  | some d =>
    simp only [widened, Option.elim_some]
    constructor
    · split <;> omega
    · split <;> omega

/-- What rows do to the interval of an account: it is not lost, and it has their dates. -/
theorem exists_interval (rows : List (Uuid × ℤ)) : ∀ dates : Uuid → Option (ℤ × ℤ),
    (∀ a d, dates a = some d → ∃ d', rows.foldl updateImportedRawInterval dates a = some d' ∧
      d'.1 ≤ d.1 ∧ d.2 ≤ d'.2) ∧
    ∀ r ∈ rows, ∃ d', rows.foldl updateImportedRawInterval dates r.1 = some d' ∧ d'.1 ≤ r.2 ∧ r.2 ≤ d'.2 := by
  induction rows with
  | nil => exact fun dates => ⟨fun a d h => ⟨d, h, le_refl _, le_refl _⟩, fun r hr => absurd hr List.not_mem_nil⟩
  | cons s rows ih =>
    intro dates
    obtain ⟨hkept, hnew⟩ := ih (updateImportedRawInterval dates s)
    have hs : updateImportedRawInterval dates s s.1 = some (widened (dates s.1) s.2) := Function.update_self ..
    refine ⟨fun a d h => ?_, fun r hr => ?_⟩
    · by_cases ha : a = s.1
      · subst ha
        obtain ⟨d', hd', hlow, hhigh⟩ := hkept _ _ hs
        rw [h] at hlow hhigh
        obtain ⟨hl, hh⟩ := le_widened d s.2
        exact ⟨d', hd', hlow.trans hl, hh.trans hhigh⟩
      · exact hkept a d ((Function.update_of_ne ha _ _).trans h)
    · rcases List.mem_cons.mp hr with rfl | hr
      · obtain ⟨d', hd', hlow, hhigh⟩ := hkept _ _ hs
        obtain ⟨hl, hh⟩ := widened_spec (dates r.1) r.2
        exact ⟨d', hd', hlow.trans hl, hh.trans hhigh⟩
      · exact hnew r hr

end BaseReportImporter
