import OptScale.Foundations.Table

/-!
# Diworker/RawRecords — `update_raw_records`

Raw records are written by upserts.  An importer names the fields that find a record and the fields
that a record found is updated in; the other fields are those of the write that inserted it.
-/

/-- The fields of an importer: `get_unique_field_list`, and `get_update_fields` as what a record
becomes when it is found. -/
structure RawFields (ρ κ : Type) where
  unique : ρ → κ
  update : ρ → ρ → ρ
  unique_update : ∀ new old, unique (update new old) = unique old

/-- A record as a document: the values of its fields. -/
abbrev RawDocument (V : Type) := String → Option V

/-- The fields of an importer, by their names: an update sets those of the update fields that the record has. -/
def RawFields.ofNames (V : Type) (unique update : List String) (h : unique.Disjoint update) :
    RawFields (RawDocument V) (List (Option V)) where
  unique e := unique.map e
  update new old := fun f => if f ∈ update ∧ (new f).isSome then new f else old f
  unique_update _ _ := List.map_congr_left fun _ hf => if_neg fun hu => h hf hu.1

theorem RawFields.update_ofNames {V : Type} {unique update : List String} (h : unique.Disjoint update)
    (new old : RawDocument V) (f : String) : (RawFields.ofNames V unique update h).update new old f =
      if f ∈ update ∧ (new f).isSome then new f else old f := rfl

namespace BaseReportImporter

variable {ρ κ : Type} [DecidableEq κ]

/-- `update_raw_records`: a record that is found is updated, another one is inserted. -/
def updateRawRecords (F : RawFields ρ κ) (chunk : List ρ) (raw : Table F.unique) :
    Table F.unique :=
  chunk.foldl (fun raw e => raw.upsert e (F.update e) (F.unique_update e)) raw

/-! ## Records by their keys -/

section Keys

variable {F : RawFields ρ κ} {chunk : List ρ} {raw : Table F.unique} {k : κ} {e : ρ}

/-- **The record of a key** is what the writes to the key make of it. -/
theorem get?_updateRawRecords (chunk : List ρ) (raw : Table F.unique) (k : κ) :
    (updateRawRecords F chunk raw).get? k = (chunk.filter fun e => F.unique e = k).foldl
      (fun d e => some ((d.map (F.update e)).getD e)) (raw.get? k) := by
  induction chunk generalizing raw with
  | nil => rfl
  | cons e chunk ih =>
    have hcons : updateRawRecords F (e :: chunk) raw =
        updateRawRecords F chunk (raw.upsert e (F.update e) (F.unique_update e)) := rfl
    rw [hcons, ih, Table.get?_upsert]
    by_cases hk : F.unique e = k
    · simp only [if_pos hk, List.filter_cons, decide_eq_true hk, if_true, List.foldl_cons]
    · simp only [if_neg hk, List.filter_cons, decide_eq_false hk, Bool.false_eq_true, if_false]

/-- The record of another key stays. -/
theorem get?_updateRawRecords_of_ne (h : ∀ e ∈ chunk, F.unique e ≠ k) :
    (updateRawRecords F chunk raw).get? k = raw.get? k := by
  have hnone : (chunk.filter fun e => F.unique e = k) = [] :=
    List.filter_eq_nil_iff.mpr fun e he => by simpa using h e he
  rw [get?_updateRawRecords, hnone, List.foldl_nil]

/-- **The record of a key that is written once.** -/
theorem get?_updateRawRecords_of_nodup (hnodup : (chunk.map F.unique).Nodup) (he : e ∈ chunk) :
    (updateRawRecords F chunk raw).get? (F.unique e) =
      some (((raw.get? (F.unique e)).map (F.update e)).getD e) := by
  have hone : (chunk.filter fun e' => F.unique e' = F.unique e) = [e] := by
    induction chunk with
    | nil => exact nomatch he
    | cons a chunk ih =>
      obtain ⟨ha, hnodup⟩ := List.nodup_cons.mp hnodup
      rcases List.mem_cons.mp he with rfl | he
      · rw [List.filter_cons_of_pos (by simp)]
        refine congrArg _ (List.filter_eq_nil_iff.mpr fun b hb hkey => ?_)
        exact ha (of_decide_eq_true hkey ▸ List.mem_map_of_mem hb)
      · rw [List.filter_cons_of_neg, ih hnodup he]
        exact fun hkey => ha (of_decide_eq_true hkey ▸ List.mem_map_of_mem he)
  rw [get?_updateRawRecords, hone]
  rfl

/-- **What an update keeps** is that of the record that was there, or else of the first write. -/
theorem map_get?_of_kept {σ : Type} {p : ρ → σ} (hp : ∀ e d, p (F.update e d) = p d) (chunk : List ρ)
    (raw : Table F.unique) (k : κ) : ((updateRawRecords F chunk raw).get? k).map p =
      ((raw.get? k).map p).or ((chunk.filter fun e => F.unique e = k).head?.map p) := by
  rw [get?_updateRawRecords]
  generalize raw.get? k = d, (chunk.filter fun e => F.unique e = k) = writes
  induction writes generalizing d with
  | nil => exact Option.or_none.symm
  | cons e writes ih =>
    rw [List.foldl_cons, ih]
    cases d with
    | none => rfl
    | some d => exact congrArg some (hp e d)

/-- **What an update overwrites** is that of the last write, or else of the record that was there. -/
theorem map_get?_of_written {σ : Type} {p : ρ → σ} (hp : ∀ e d, p (F.update e d) = p e) (chunk : List ρ)
    (raw : Table F.unique) (k : κ) : ((updateRawRecords F chunk raw).get? k).map p =
      ((chunk.filter fun e => F.unique e = k).getLast?.map p).or ((raw.get? k).map p) := by
  rw [get?_updateRawRecords]
  generalize raw.get? k = d, (chunk.filter fun e => F.unique e = k) = writes
  induction writes using List.reverseRecOn with
  | nil => rfl
  | append_singleton writes e =>
    rw [List.foldl_concat, List.getLast?_concat]
    generalize writes.foldl _ d = d'
    cases d' with
    | none => rfl
    | some d' => exact congrArg some (hp e d')

/-- **Writes to keys in use** change the records where they are. -/
theorem rows_updateRawRecords_of_old (hkeys : ∀ e ∈ chunk, F.unique e ∈ raw.rows.map F.unique) :
    (updateRawRecords F chunk raw).rows = raw.rows.map fun d =>
      (chunk.filter fun e => F.unique e = F.unique d).foldl (fun d e => F.update e d) d := by
  induction chunk generalizing raw with
  | nil => exact (List.map_id' _).symm
  | cons a chunk ih =>
    obtain ⟨ha, hkeys⟩ := List.forall_mem_cons.mp hkeys
    have hcons : updateRawRecords F (a :: chunk) raw =
        updateRawRecords F chunk (raw.upsert a (F.update a) (F.unique_update a)) := rfl
    have hrows : (raw.upsert a (F.update a) (F.unique_update a)).rows = _ := Table.rows_upsert_of_old ha
    have hkey : ∀ d, F.unique (if F.unique d = F.unique a then F.update a d else d) = F.unique d := by
      intro d
      split
      · exact F.unique_update a d
      · rfl
    rw [hcons, ih, hrows, List.map_map]
    · refine List.map_congr_left fun d _ => ?_
      simp only [Function.comp_apply, hkey, List.filter_cons, decide_eq_true_eq]
      by_cases hd : F.unique d = F.unique a
      · rw [if_pos hd, if_pos hd.symm, List.foldl_cons]
      · rw [if_neg hd, if_neg (Ne.symm hd)]
    · intro e he
      have hsame : raw.rows.map (F.unique ∘ fun d => if F.unique d = F.unique a then F.update a d else d) =
          raw.rows.map F.unique := List.map_congr_left fun d _ => hkey d
      rw [hrows, List.map_map, hsame]
      exact hkeys e he

/-- What some records of a table are made into, each in its place. -/
theorem filter_filterMap_rows {f : ρ → Option ρ} (hf : ∀ d e, f d = some e → F.unique e = F.unique d) {d : ρ}
    (hd : d ∈ raw.rows) : (raw.rows.filterMap f).filter (fun e => F.unique e = F.unique d) = (f d).toList := by
  obtain ⟨rows, hnodup⟩ := raw
  have hnone : ∀ rows : List ρ, F.unique d ∉ rows.map F.unique →
      (rows.filterMap f).filter (fun e => F.unique e = F.unique d) = [] := by
    intro rows hrows
    refine List.filter_eq_nil_iff.mpr fun e he hkey => hrows ?_
    obtain ⟨d', hd', he⟩ := List.mem_filterMap.mp he
    rw [← of_decide_eq_true hkey, hf d' e he]
    exact List.mem_map_of_mem hd'
  obtain ⟨before, after, rfl⟩ := List.append_of_mem hd
  rw [List.map_append, List.map_cons, List.nodup_append, List.nodup_cons] at hnodup
  have hbefore := hnone before fun h => hnodup.2.2 _ h _ List.mem_cons_self rfl
  have hafter := hnone after hnodup.2.1.1
  cases hfd : f d with
  | none => simp only [List.filterMap_append, List.filter_append, hbefore, List.filterMap_cons, hfd, hafter,
      List.nil_append, Option.toList_none]
  | some e => simp only [List.filterMap_append, List.filter_append, hbefore, List.filterMap_cons, hfd,
      List.filter_cons, hf d e hfd, decide_true, if_true, hafter, List.nil_append, Option.toList_some]

/-- **Records that are read, changed and written again** are changed where they are. -/
theorem rows_updateRawRecords_filterMap {f : ρ → Option ρ}
    (hf : ∀ d e, f d = some e → F.unique e = F.unique d) :
    (updateRawRecords F (raw.rows.filterMap f) raw).rows =
      raw.rows.map fun d => (f d).elim d fun e => F.update e d := by
  rw [rows_updateRawRecords_of_old fun e he => ?_]
  · refine List.map_congr_left fun d hd => ?_
    rw [filter_filterMap_rows hf hd]
    cases f d <;> rfl
  · obtain ⟨d, hd, he⟩ := List.mem_filterMap.mp he
    rw [hf d e he]
    exact List.mem_map_of_mem hd

/-- Chunks are written like one. -/
theorem foldl_updateRawRecords (F : RawFields ρ κ) (chunks : List (List ρ)) (raw : Table F.unique) :
    chunks.foldl (fun raw chunk => updateRawRecords F chunk raw) raw = updateRawRecords F chunks.flatten raw := by
  rw [updateRawRecords, List.foldl_flatten]
  rfl

end Keys

/-! ## Writing the same records again

A record that is found is as the last write to its key has left it, if an update overwrites an
earlier one; so the same writes find nothing to change. -/

section Again

variable {F : RawFields ρ κ} {chunk : List ρ} {raw : Table F.unique}

variable (F chunk) in
/-- The last record of a chunk under a key. -/
def lastOf (k : κ) : Option ρ := (chunk.filter fun e => F.unique e = k).getLast?

theorem updateRawRecords_concat (last : ρ) : updateRawRecords F (chunk ++ [last]) raw =
    (updateRawRecords F chunk raw).upsert last (F.update last) (F.unique_update last) :=
  List.foldl_concat ..

theorem lastOf_concat_self (last : ρ) : lastOf F (chunk ++ [last]) (F.unique last) = some last := by
  simp [lastOf]

theorem lastOf_concat_of_ne {last : ρ} {k : κ} (h : k ≠ F.unique last) :
    lastOf F (chunk ++ [last]) k = lastOf F chunk k := by
  rw [lastOf, List.filter_append, List.filter_cons_of_neg (by simpa using h.symm), List.filter_nil,
    List.append_nil]
  rfl

theorem unique_of_lastOf {k : κ} {e : ρ} (h : lastOf F chunk k = some e) :
    e ∈ chunk ∧ F.unique e = k := by
  obtain ⟨he, hk⟩ := List.mem_filter.mp (List.mem_of_getLast? h)
  exact ⟨he, of_decide_eq_true hk⟩

/-- The keys of the records are in use after they are written. -/
theorem mem_keys_updateRawRecords {e : ρ} (he : e ∈ chunk) :
    F.unique e ∈ (updateRawRecords F chunk raw).rows.map F.unique := by
  induction chunk using List.reverseRecOn with
  | nil => exact absurd he List.not_mem_nil
  | append_singleton chunk last ih =>
    rw [updateRawRecords_concat]
    have hkey : ∃ d ∈ ((updateRawRecords F chunk raw).upsert last (F.update last)
        (F.unique_update last)).rows, F.unique d = F.unique e := by
      refine Table.exists_key_upsert.mpr ?_
      obtain he | he := List.mem_append.mp he
      · obtain ⟨d, hd, hkey⟩ := List.mem_map.mp (ih he)
        exact Or.inl ⟨d, hd, hkey⟩
      · exact Or.inr (congrArg F.unique (List.mem_singleton.mp he).symm)
    obtain ⟨d, hd, hkey⟩ := hkey
    exact hkey ▸ List.mem_map_of_mem hd

/-- **A record is as the last write left it.** -/
theorem update_of_lastOf (hself : ∀ e, F.update e e = e)
    (hover : ∀ a b d, F.update a (F.update b d) = F.update a d) {d e : ρ}
    (hd : d ∈ (updateRawRecords F chunk raw).rows) (he : lastOf F chunk (F.unique d) = some e) :
    F.update e d = d := by
  induction chunk using List.reverseRecOn generalizing d with
  | nil => exact nomatch he
  | append_singleton chunk last ih =>
    rw [updateRawRecords_concat, Table.mem_upsert] at hd
    obtain ⟨hd, hkey⟩ | ⟨c, -, hkey, rfl⟩ | ⟨-, rfl⟩ := hd
    · rw [lastOf_concat_of_ne hkey] at he
      exact ih hd he
    · rw [F.unique_update, hkey, lastOf_concat_self] at he
      obtain rfl := Option.some.inj he
      exact hover _ _ c
    · rw [lastOf_concat_self] at he
      obtain rfl := Option.some.inj he
      exact hself _

/-- Writes to keys in use leave each record to the last of them. -/
theorem rows_updateRawRecords (hover : ∀ a b d, F.update a (F.update b d) = F.update a d)
    (hkeys : ∀ e ∈ chunk, F.unique e ∈ raw.rows.map F.unique) :
    (updateRawRecords F chunk raw).rows = raw.rows.map fun d =>
      (lastOf F chunk (F.unique d)).elim d fun e => F.update e d := by
  have hlast : ∀ (l : List ρ) (d : ρ), l.foldl (fun d e => F.update e d) d =
      l.getLast?.elim d fun e => F.update e d := by
    intro l d
    induction l using List.reverseRecOn with
    | nil => rfl
    | append_singleton l e ih =>
      rw [List.foldl_concat, ih, List.getLast?_concat, Option.elim_some]
      cases l.getLast? with
      | none => rfl
      | some e' => exact hover e e' d
  rw [rows_updateRawRecords_of_old hkeys]
  exact List.map_congr_left fun d _ => hlast _ d

variable (chunk raw) in
/-- **The same records again** change nothing that is read of the records, if they differ in nothing
that is read of an update. -/
theorem updateRawRecords_again {σ : Type} (again : ρ → ρ) (read : ρ → σ)
    (hself : ∀ e, F.update e e = e) (hover : ∀ a b d, F.update a (F.update b d) = F.update a d)
    (hunique : ∀ e, F.unique (again e) = F.unique e)
    (hread : ∀ e d, read (F.update (again e) d) = read (F.update e d)) :
    (updateRawRecords F (chunk.map again) (updateRawRecords F chunk raw)).rows.map read =
      (updateRawRecords F chunk raw).rows.map read := by
  have hlast : ∀ k, lastOf F (chunk.map again) k = (lastOf F chunk k).map again := by
    intro k
    rw [lastOf, List.filter_map, List.getLast?_map]
    simp only [Function.comp_def, hunique]
    rfl
  rw [rows_updateRawRecords hover, List.map_map]
  · refine List.map_congr_left fun d hd => ?_
    rw [Function.comp_apply, hlast]
    cases he : lastOf F chunk (F.unique d) with
    | none => rfl
    | some e =>
      rw [Option.map_some, Option.elim_some, hread]
      exact congrArg read (update_of_lastOf hself hover hd he)
  · rintro e' he'
    obtain ⟨e, he, rfl⟩ := List.mem_map.mp he'
    rw [hunique]
    exact mem_keys_updateRawRecords he

end Again

end BaseReportImporter
