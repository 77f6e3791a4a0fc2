import Mathlib

/-!
# Foundations/Upserts — upserts that may match any document

An upsert changes one of the documents its filter matches, whichever the database finds first, or
inserts one when there is none.  A collection is a multiset of documents, and a list of upserts takes
it to any of several collections.  Upserts of one key do nothing to the documents of another, so what
can happen to a collection is what can happen to its documents key by key (`Writes.restrict`,
`Writes.lift`).
-/

namespace Upserts

/-- Upserts of rows into documents: what a row's filter matches, what a document becomes, and what is
inserted; each row has a key, which is that of the documents it can match. -/
structure Upsert (ρ δ κ : Type*) where
  rowKey : ρ → κ
  key : δ → κ
  Matches : ρ → δ → Prop
  set : ρ → δ → δ
  fresh : ρ → δ
  key_of_matches : ∀ {r d}, Matches r d → key d = rowKey r
  key_set : ∀ r d, key (set r d) = key d
  key_fresh : ∀ r, key (fresh r) = rowKey r

variable {ρ δ κ : Type*} (U : Upsert ρ δ κ)

/-- One upsert. -/
inductive UpdateOne (r : ρ) : Multiset δ → Multiset δ → Prop
  | update {d : δ} {rest : Multiset δ} (h : U.Matches r d) :
    UpdateOne r (d ::ₘ rest) (U.set r d ::ₘ rest)
  | insert {docs : Multiset δ} (h : ∀ d ∈ docs, ¬ U.Matches r d) :
    UpdateOne r docs (U.fresh r ::ₘ docs)

/-- Upserts one after the other. -/
inductive Writes : List ρ → Multiset δ → Multiset δ → Prop
  | nil {docs : Multiset δ} : Writes [] docs docs
  | cons {r : ρ} {rows : List ρ} {docs docs₁ docs' : Multiset δ} (h : UpdateOne U r docs docs₁)
    (hrest : Writes rows docs₁ docs') : Writes (r :: rows) docs docs'

variable {U} {r : ρ} {rows rows' : List ρ} {docs docs₁ docs' : Multiset δ} {k : κ}

/-- **An upsert always does something.** -/
theorem exists_updateOne (U : Upsert ρ δ κ) (r : ρ) (docs : Multiset δ) :
    ∃ docs', UpdateOne U r docs docs' := by
  by_cases h : ∃ d ∈ docs, U.Matches r d
  · obtain ⟨d, hd, hmatch⟩ := h
    obtain ⟨rest, rfl⟩ := Multiset.exists_cons_of_mem hd
    exact ⟨_, .update hmatch⟩
  · exact ⟨_, .insert fun d hd hmatch => h ⟨d, hd, hmatch⟩⟩

theorem exists_writes (U : Upsert ρ δ κ) (rows : List ρ) : ∀ docs : Multiset δ,
    ∃ docs', Writes U rows docs docs' := by
  induction rows with
  | nil => exact fun docs => ⟨docs, .nil⟩
  | cons r rows ih =>
    intro docs
    obtain ⟨docs₁, h⟩ := exists_updateOne U r docs
    obtain ⟨docs', hrest⟩ := ih docs₁
    exact ⟨docs', .cons h hrest⟩

theorem Writes.append (h : Writes U rows docs docs₁) (h' : Writes U rows' docs₁ docs') :
    Writes U (rows ++ rows') docs docs' := by
  induction h with
  | nil => exact h'
  | cons hone _ ih => exact .cons hone (ih h')

theorem writes_append : Writes U (rows ++ rows') docs docs' ↔
    ∃ docs₁, Writes U rows docs docs₁ ∧ Writes U rows' docs₁ docs' := by
  constructor
  · intro h
    induction rows generalizing docs with
    | nil => exact ⟨docs, .nil, h⟩
    | cons r rows ih =>
      obtain _ | ⟨hone, hrest⟩ := h
      obtain ⟨docs₂, h₁, h₂⟩ := ih hrest
      exact ⟨docs₂, .cons hone h₁, h₂⟩
  · rintro ⟨docs₁, h, h'⟩
    exact h.append h'

/-! ## Key by key -/

section Keys

variable [DecidableEq κ]

/-- The documents of a key. -/
def ofKey (U : Upsert ρ δ κ) (k : κ) (docs : Multiset δ) : Multiset δ :=
  docs.filter fun d => U.key d = k

/-- The rows of a key. -/
def rowsOf (U : Upsert ρ δ κ) (k : κ) (rows : List ρ) : List ρ :=
  rows.filter fun r => U.rowKey r = k

theorem ofKey_cons {d : δ} (rest : Multiset δ) (hd : U.key d = k) :
    ofKey U k (d ::ₘ rest) = d ::ₘ ofKey U k rest :=
  Multiset.filter_cons_of_pos (p := fun d => U.key d = k) rest hd

theorem ofKey_cons_of_ne {d : δ} (rest : Multiset δ) (hd : U.key d ≠ k) :
    ofKey U k (d ::ₘ rest) = ofKey U k rest :=
  Multiset.filter_cons_of_neg (p := fun d => U.key d = k) rest hd

theorem rowsOf_cons (rows : List ρ) (hr : U.rowKey r = k) :
    rowsOf U k (r :: rows) = r :: rowsOf U k rows :=
  List.filter_cons_of_pos (decide_eq_true hr)

theorem rowsOf_cons_of_ne (rows : List ρ) (hr : U.rowKey r ≠ k) :
    rowsOf U k (r :: rows) = rowsOf U k rows :=
  List.filter_cons_of_neg (by simpa using hr)

theorem mem_ofKey {d : δ} : d ∈ ofKey U k docs ↔ d ∈ docs ∧ U.key d = k := Multiset.mem_filter

theorem UpdateOne.restrict (h : UpdateOne U r docs docs') (hr : U.rowKey r = k) :
    UpdateOne U r (ofKey U k docs) (ofKey U k docs') := by
  rcases h with ⟨hmatch⟩ | hnone
  · rename_i d rest
    have hd : U.key d = k := (U.key_of_matches hmatch).trans hr
    rw [ofKey_cons rest hd, ofKey_cons rest ((U.key_set r d).trans hd)]
    exact .update hmatch
  · rw [ofKey_cons docs ((U.key_fresh r).trans hr)]
    exact .insert fun d hd => hnone d (mem_ofKey.mp hd).1

/-- An upsert of another key does nothing. -/
theorem UpdateOne.ofKey_eq (h : UpdateOne U r docs docs') (hr : U.rowKey r ≠ k) :
    ofKey U k docs' = ofKey U k docs := by
  rcases h with ⟨hmatch⟩ | hnone
  · rename_i d rest
    have hd : U.key d ≠ k := fun hd => hr ((U.key_of_matches hmatch).symm.trans hd)
    rw [ofKey_cons_of_ne rest hd, ofKey_cons_of_ne rest fun h => hd ((U.key_set r d).symm.trans h)]
  · exact ofKey_cons_of_ne docs fun h => hr ((U.key_fresh r).symm.trans h)

/-- **The documents of a key** are written by the rows of the key. -/
theorem Writes.restrict (h : Writes U rows docs docs') (k : κ) :
    Writes U (rowsOf U k rows) (ofKey U k docs) (ofKey U k docs') := by
  induction h with
  | nil => exact .nil
  | cons hone _ ih =>
    rename_i r rows _ _ _ _
    by_cases hr : U.rowKey r = k
    · rw [rowsOf_cons rows hr]
      exact .cons (hone.restrict hr) ih
    · rw [rowsOf_cons_of_ne rows hr, ← hone.ofKey_eq hr]
      exact ih

theorem UpdateOne.lift (hr : U.rowKey r = k) (h : UpdateOne U r (ofKey U k docs) docs₁) :
    ∃ docs', UpdateOne U r docs docs' ∧ ofKey U k docs' = docs₁ := by
  have hsplit : ofKey U k docs + docs.filter (fun d => ¬ U.key d = k) = docs :=
    Multiset.filter_add_not _ docs
  have hself : ofKey U k (ofKey U k docs) = ofKey U k docs :=
    Multiset.filter_eq_self.mpr fun _ hd => (mem_ofKey.mp hd).2
  generalize hof : ofKey U k docs = dₖ at h hsplit hself
  rcases h with ⟨hmatch⟩ | hnone
  · rename_i d rest
    have hd : U.key d = k := (U.key_of_matches hmatch).trans hr
    rw [ofKey_cons rest hd, Multiset.cons_inj_right] at hself
    refine ⟨U.set r d ::ₘ (rest + docs.filter fun d => ¬ U.key d = k), ?_, ?_⟩
    · nth_rewrite 1 [← hsplit]
      rw [Multiset.cons_add]
      exact .update hmatch
    · have hother : ofKey U k (docs.filter fun d => ¬ U.key d = k) = 0 :=
        Multiset.filter_eq_nil.mpr fun d hd => (Multiset.mem_filter.mp hd).2
      rw [ofKey_cons _ ((U.key_set r d).trans hd)]
      refine congrArg _ ((Multiset.filter_add _ _ _).trans ?_)
      exact (congrArg₂ _ hself hother).trans (add_zero _)
  · refine ⟨U.fresh r ::ₘ docs, .insert fun d hd hmatch => ?_, ?_⟩
    · exact hnone d (hof ▸ mem_ofKey.mpr ⟨hd, (U.key_of_matches hmatch).trans hr⟩) hmatch
    · rw [ofKey_cons docs ((U.key_fresh r).trans hr), hof]

/-- **What can happen to the documents of a key** can happen in the collection. -/
theorem Writes.lift {docsₖ : Multiset δ} : ∀ {docs : Multiset δ},
    Writes U (rowsOf U k rows) (ofKey U k docs) docsₖ →
    ∃ docs', Writes U rows docs docs' ∧ ofKey U k docs' = docsₖ := by
  induction rows with
  | nil =>
    intro docs h
    obtain _ | _ := h
    exact ⟨docs, .nil, rfl⟩
  | cons r rows ih =>
    intro docs h
    by_cases hr : U.rowKey r = k
    · rw [rowsOf_cons rows hr] at h
      obtain _ | ⟨hone, hrest⟩ := h
      obtain ⟨docs₁, hone', rfl⟩ := hone.lift hr
      obtain ⟨docs', hrest', heq⟩ := ih hrest
      exact ⟨docs', .cons hone' hrest', heq⟩
    · rw [rowsOf_cons_of_ne rows hr] at h
      obtain ⟨docs₁, hone⟩ := exists_updateOne U r docs
      rw [← hone.ofKey_eq hr] at h
      obtain ⟨docs', hrest', heq⟩ := ih h
      exact ⟨docs', .cons hone hrest', heq⟩

end Keys

/-! ## By what the database finds -/

section Choice

variable [DecidableEq δ]

/-- One upsert, where it is given which document is found. -/
def updateOne (U : Upsert ρ δ κ) [∀ r d, Decidable (U.Matches r d)] (docs : Multiset δ) (r : ρ) :
    Option δ → Option (Multiset δ)
  | none => if ∀ d ∈ docs, ¬ U.Matches r d then some (U.fresh r ::ₘ docs) else none
  | some d => if d ∈ docs ∧ U.Matches r d then some (U.set r d ::ₘ docs.erase d) else none

/-- Upserts one after the other, each with what is found. -/
def bulkWrite (U : Upsert ρ δ κ) [∀ r d, Decidable (U.Matches r d)] (docs : Multiset δ) :
    List (ρ × Option δ) → Option (Multiset δ)
  | [] => some docs
  | write :: writes => (updateOne U docs write.1 write.2).bind fun docs' => bulkWrite U docs' writes

variable [∀ r d, Decidable (U.Matches r d)]

theorem updateOne_sound {found : Option δ} (h : updateOne U docs r found = some docs') : UpdateOne U r docs docs' := by
  cases found with
  | none =>
    obtain ⟨hnone, h⟩ := Option.ite_none_right_eq_some.mp h
    exact Option.some.inj h ▸ .insert hnone
  | some d =>
    obtain ⟨⟨hd, hmatch⟩, h⟩ := Option.ite_none_right_eq_some.mp h
    obtain rfl := Option.some.inj h
    have hone : UpdateOne U r (d ::ₘ docs.erase d) (U.set r d ::ₘ docs.erase d) := .update hmatch
    rwa [Multiset.cons_erase hd] at hone

/-- **Whatever is found**, it is what upserts may do. -/
theorem bulkWrite_sound {writes : List (ρ × Option δ)} : ∀ {docs : Multiset δ},
    bulkWrite U docs writes = some docs' → Writes U (writes.map Prod.fst) docs docs' := by
  induction writes with
  | nil =>
    intro docs h
    exact Option.some.inj h ▸ .nil
  | cons write writes ih =>
    intro docs h
    obtain ⟨docs₁, hone, hrest⟩ := Option.bind_eq_some_iff.mp h
    exact .cons (updateOne_sound hone) (ih hrest)

end Choice

/-! ## What is left alone -/

theorem UpdateOne.filter_eq {p : δ → Prop} [DecidablePred p] (h : UpdateOne U r docs docs')
    (hp : ∀ d, U.key d = U.rowKey r → ¬ p d) : docs'.filter p = docs.filter p := by
  rcases h with ⟨hmatch⟩ | hnone
  · rename_i d rest
    have hd := U.key_of_matches hmatch
    rw [Multiset.filter_cons_of_neg _ (hp d hd), Multiset.filter_cons_of_neg _ (hp _ ((U.key_set r d).trans hd))]
  · exact Multiset.filter_cons_of_neg _ (hp _ (U.key_fresh r))

/-- **Documents of other keys than those written** stay as they are. -/
theorem Writes.filter_eq {p : δ → Prop} [DecidablePred p] (h : Writes U rows docs docs')
    (hp : ∀ r ∈ rows, ∀ d, U.key d = U.rowKey r → ¬ p d) : docs'.filter p = docs.filter p := by
  induction h with
  | nil => rfl
  | cons hone _ ih =>
    obtain ⟨hr, hrest⟩ := List.forall_mem_cons.mp hp
    exact (ih hrest).trans (hone.filter_eq hr)

theorem UpdateOne.key_mem (h : UpdateOne U r docs docs') {d : δ} (hd : d ∈ docs') :
    (∃ e ∈ docs, U.key e = U.key d) ∨ U.rowKey r = U.key d := by
  rcases h with ⟨hmatch⟩ | hnone
  · rename_i f rest
    rcases Multiset.mem_cons.mp hd with rfl | hd
    · exact Or.inl ⟨f, Multiset.mem_cons_self f rest, (U.key_set r f).symm⟩
    · exact Or.inl ⟨d, Multiset.mem_cons_of_mem hd, rfl⟩
  · rcases Multiset.mem_cons.mp hd with rfl | hd
    · exact Or.inr (U.key_fresh r).symm
    · exact Or.inl ⟨d, hd, rfl⟩

/-- **The keys afterwards** are those there were and those written. -/
theorem Writes.key_mem (h : Writes U rows docs docs') {d : δ} (hd : d ∈ docs') :
    (∃ e ∈ docs, U.key e = U.key d) ∨ ∃ r ∈ rows, U.rowKey r = U.key d := by
  induction h with
  | nil => exact Or.inl ⟨d, hd, rfl⟩
  | cons hone _ ih =>
    rcases ih hd with ⟨e, he, hkey⟩ | ⟨s, hs, hkey⟩
    · rcases hone.key_mem he with ⟨f, hf, hkey'⟩ | hkey'
      · exact Or.inl ⟨f, hf, hkey'.trans hkey⟩
      · exact Or.inr ⟨_, List.mem_cons_self, hkey'.trans hkey⟩
    · exact Or.inr ⟨s, List.mem_cons_of_mem _ hs, hkey⟩

end Upserts
