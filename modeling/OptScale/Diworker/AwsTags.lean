import OptScale.Foundations.Dict
import OptScale.Rest.Text

/-!
# Diworker/AwsTags — the tags of a raw AWS expense

A tag is a column of the report.  Before the row is stored, `update_raw_records` takes a column
apart at its dots, as MongoDB would, and sets the part before the first one; `collect_tags` puts the
parts together again.  The columns are set one by one, so of the tags with one part before the first
dot, the last one alone is stored; and what is set under the name of the resource is no tag.  The
tags that are stored otherwise are read back (`survive_iff`).
-/

/-- A value of a raw expense. -/
inductive RawValue
  | text (s : Text)
  | array (items : List RawValue)
  | object (fields : List (Text × RawValue))

/-- A raw expense, its items in their order. -/
abbrev RawExpenseRow := Dict Text RawValue

namespace AwsReportImporter

/-! ## Writing -/

/-- `key.split('.', 1)[0]` -/
def firstPart (key : Text) : Text := key.takeWhile (· ≠ '.')

/-- `key.split('.', 1)[1]`, if there is a dot. -/
def otherParts (key : Text) : Text := (key.dropWhile (· ≠ '.')).tail

theorem length_otherParts {key : Text} (h : '.' ∈ key) : (otherParts key).length < key.length := by
  have hne : key.dropWhile (· ≠ '.') ≠ [] := by
    intro hnil
    simpa using List.dropWhile_eq_nil_iff.mp hnil '.' h
  have hle : (key.dropWhile (· ≠ '.')).length ≤ key.length := (List.dropWhile_suffix _).length_le
  have hpos := List.length_pos_iff.mpr hne
  rw [otherParts, List.length_tail]
  omega

/-- `split_dot_keys`: the one item of its result. -/
def splitDotKeys (key : Text) (value : RawValue) : Text × RawValue :=
  if '.' ∈ key then (firstPart key, .object [splitDotKeys (otherParts key) value])
  else (key, value)
termination_by key.length
decreasing_by exact length_otherParts (by assumption)

/-- `update_raw_records`, one row. -/
def updateRawRecord (reportIdentity : Text) (row : RawExpenseRow) : RawExpenseRow :=
  (row.foldl (fun acc k v =>
    if "resourceTags".toList <+: k then
      (acc.popped k).set (splitDotKeys k v).1 (splitDotKeys k v).2
    else acc) row).set "report_identity".toList (.text reportIdentity)

/-- Set a field of an object by its path, as MongoDB does. -/
def setPath : List Text → RawValue → List (Text × RawValue) → List (Text × RawValue)
  | [], _, fields => fields
  | [k], value, fields => fields ++ [(k, value)]
  | k :: path, value, fields =>
    match fields.lookup k with
    | some (.object inner) =>
      fields.map fun field => if field.1 = k then (k, .object (setPath path value inner)) else field
    | _ => fields ++ [(k, .object (setPath path value []))]

/-- Set a field of a document by its key, which MongoDB takes for a path. -/
def setField (doc : RawExpenseRow) (key : Text) (value : RawValue) : RawExpenseRow :=
  match key.splitOn '.' with
  | [] => doc
  | [k] => doc.set k value
  | k :: path => doc.set k <| .object <| setPath path value <|
      match doc.lookup k with
      | some (.object inner) => inner
      | _ => []

/-- One key is a path to another one, which MongoDB refuses. -/
def Conflicting (row : RawExpenseRow) : Prop :=
  ∃ k ∈ row.keys, ∃ l ∈ row.keys, k ≠ l ∧ k.splitOn '.' <+: l.splitOn '.'

instance (row : RawExpenseRow) : Decidable (Conflicting row) :=
  inferInstanceAs (Decidable (∃ k ∈ row.keys, ∃ l ∈ row.keys, k ≠ l ∧
    k.splitOn '.' <+: l.splitOn '.'))

/-- What an upsert of a new row stores. -/
def stored (row : RawExpenseRow) : Option RawExpenseRow :=
  if Conflicting row then none else some (row.foldl setField ∅)

/-! ## Reading -/

mutual

/-- `extract_tag` -/
def extractTag (tagName : Text) : RawValue → Dict Text Text → Dict Text Text
  | .text s, tags => tags.set tagName s
  | .array items, tags => extractItems tagName 0 items tags
  | .object fields, tags => extractFields tagName fields tags

/-- The loop of `extract_tag` over a list. -/
def extractItems (tagName : Text) (index : ℕ) : List RawValue → Dict Text Text → Dict Text Text
  | [], tags => tags
  | v :: items, tags =>
    extractItems tagName (index + 1) items (extractTag (tagName ++ '.' :: Text.ofNat index) v tags)

/-- The loop of `extract_tag` over a dictionary. -/
def extractFields (tagName : Text) : List (Text × RawValue) → Dict Text Text → Dict Text Text
  | [], tags => tags
  | (key, v) :: fields, tags =>
    extractFields tagName fields (extractTag (tagName ++ '.' :: key) v tags)

end

/-- `extract_tags` -/
def extractTags (rawTags : RawExpenseRow) : Dict Text Text :=
  rawTags.foldl (fun tags k v => extractTag k v tags) ∅

/-- `_extract_tag_name` -/
def extractTagName (tagKey : Text) (prefixSymbol : Char) : Text :=
  if prefixSymbol ∈ tagKey then (tagKey.dropWhile (· ≠ prefixSymbol)).tail else tagKey

/-- The name of a tag's column. -/
def tagName (k : Text) : Text :=
  if "resourceTags/aws".toList <+: k then extractTagName k '/' else extractTagName k ':'

/-- The column that holds the name of the resource. -/
def nameColumn : Text := "resourceTags/user:Name".toList

/-- A column that `collect_tags` reads. -/
def IsTagColumn (k : Text) : Prop :=
  ("resourceTags".toList <+: k ∨ "resource_tags".toList <+: k) ∧ k ≠ nameColumn

instance : DecidablePred IsTagColumn := fun k =>
  inferInstanceAs (Decidable (("resourceTags".toList <+: k ∨ "resource_tags".toList <+: k) ∧
    k ≠ nameColumn))

/-- `raw_tags` -/
def rawTags (expense : RawExpenseRow) : RawExpenseRow :=
  expense.foldl (fun raw k v => if IsTagColumn k then raw.set (tagName k) v else raw) ∅

/-- `collect_tags` -/
def collectTags (expense : RawExpenseRow) : Dict Text Text := extractTags (rawTags expense)

/-! ## Tags -/

/-- The column of a tag: keys that begin with `aws:` are Amazon's own. -/
def column (key : Text) : Text :=
  (if "aws:".toList <+: key then "resourceTags/".toList else "resourceTags/user:".toList) ++ key

/-- The columns of some tags. -/
def rowOf (tags : Dict Text Text) : RawExpenseRow :=
  tags.foldl (fun row key value => row.set (column key) (.text value)) ∅

/-- A tag as it is read back: `Name` is the name of the resource, the others are collected. -/
def readBack (expense : RawExpenseRow) (key : Text) : Option RawValue :=
  if key = "Name".toList then expense.lookup nameColumn
  else ((collectTags expense).lookup key).map .text

/-- **The tags survive the raw store.** -/
def Survive (reportIdentity : Text) (tags : Dict Text Text) : Prop :=
  ∃ doc, stored (updateRawRecord reportIdentity (rowOf tags)) = some doc ∧
    ∀ key, readBack doc key = (tags.lookup key).map .text

/-- No two keys have one part before the first dot, and only `Name` has its own. -/
def Separate (tags : Dict Text Text) : Prop :=
  ∀ key ∈ tags, (∀ other ∈ tags, firstPart other = firstPart key → other = key) ∧
    (firstPart key = "Name".toList → key = "Name".toList)

/-! ## Parts -/

section Parts

variable {key : Text}

theorem dot_notMem_firstPart (key : Text) : '.' ∉ firstPart key := fun h => by
  simpa using List.mem_takeWhile_imp h

theorem firstPart_of_notMem (h : '.' ∉ key) : firstPart key = key := by
  refine List.takeWhile_eq_self_iff.mpr fun c hc => ?_
  simpa using ne_of_mem_of_not_mem hc h

/-- **A key is its parts.** -/
theorem firstPart_append_otherParts (h : '.' ∈ key) :
    firstPart key ++ '.' :: otherParts key = key := by
  have hdrop : key.dropWhile (· ≠ '.') = '.' :: otherParts key := by
    cases hkey : key.dropWhile (· ≠ '.') with
    | nil => simpa using List.dropWhile_eq_nil_iff.mp hkey '.' h
    | cons c rest =>
      have hc := List.head_dropWhile_not (fun c : Char => decide (c ≠ '.')) (by rw [hkey]; simp)
      simp only [hkey, List.head_cons, decide_eq_false_iff_not, not_not] at hc
      rw [hc, otherParts, hkey]
      rfl
  rw [firstPart, ← hdrop]
  exact List.takeWhile_append_dropWhile

/-- A prefix without a dot belongs to the first part. -/
theorem firstPart_append {pre : Text} (hpre : '.' ∉ pre) : firstPart (pre ++ key) = pre ++ firstPart key := by
  refine List.takeWhile_append_of_pos fun c hc => ?_
  simpa using ne_of_mem_of_not_mem hc hpre

theorem otherParts_append {pre : Text} (hpre : '.' ∉ pre) : otherParts (pre ++ key) = otherParts key := by
  rw [otherParts, List.dropWhile_append_of_pos fun c hc => ?_]
  · rfl
  · simpa using ne_of_mem_of_not_mem hc hpre

@[simp] theorem splitDotKeys_fst (key : Text) (value : RawValue) :
    (splitDotKeys key value).1 = firstPart key := by
  rw [splitDotKeys]
  split
  · rfl
  · rename_i h
    exact (firstPart_of_notMem h).symm

/-- A prefix without a dot does not change what the first part holds. -/
theorem splitDotKeys_append_snd {pre : Text} (hpre : '.' ∉ pre) (key : Text) (value : RawValue) :
    (splitDotKeys (pre ++ key) value).2 = (splitDotKeys key value).2 := by
  rw [splitDotKeys, splitDotKeys.eq_def key]
  by_cases h : '.' ∈ key
  · rw [if_pos h, if_pos (List.mem_append_right _ h), otherParts_append hpre, firstPart_append hpre]
  · rw [if_neg h, if_neg fun hin => (List.mem_append.mp hin).elim hpre h]

/-- **What was taken apart is put together again.** -/
theorem extractTag_splitDotKeys (pre key value : Text) (tags : Dict Text Text) :
    extractTag (pre ++ firstPart key) (splitDotKeys key (.text value)).2 tags =
      tags.set (pre ++ key) value := by
  induction key using splitDotKeys.induct generalizing pre with
  | case1 key h ih =>
    rw [splitDotKeys, if_pos h, extractTag, extractFields, extractFields, splitDotKeys_fst]
    have hname : pre ++ firstPart key ++ '.' :: firstPart (otherParts key) =
        (pre ++ firstPart key ++ ['.']) ++ firstPart (otherParts key) := by simp
    have hkey : pre ++ firstPart key ++ ['.'] ++ otherParts key = pre ++ key := by
      rw [List.append_assoc, List.append_assoc, List.singleton_append, firstPart_append_otherParts h]
    rw [hname, ih, hkey]
  | case2 key h => rw [splitDotKeys, if_neg h, extractTag, firstPart_of_notMem h]

/-- What a first part holds says which tag it is. -/
theorem splitDotKeys_inj {other value value' : Text} (hpart : firstPart key = firstPart other)
    (h : (splitDotKeys key (.text value)).2 = (splitDotKeys other (.text value')).2) :
    key = other ∧ value = value' := by
  have hself := extractTag_splitDotKeys [] key value ∅
  have hother := extractTag_splitDotKeys [] other value' ∅
  rw [hpart, h, hother] at hself
  have hentries : [(⟨other, value'⟩ : Sigma fun _ : Text => Text)] = [⟨key, value⟩] :=
    congrArg AList.entries hself
  simp only [List.cons.injEq, Sigma.mk.injEq, heq_eq_eq, and_true] at hentries
  exact ⟨hentries.1.symm, hentries.2.symm⟩

end Parts

/-! ## Columns -/

section Columns

variable {key : Text}

/-- A column is named after its tag. -/
theorem tagName_column (key : Text) : tagName (column key) = key := by
  unfold column tagName extractTagName
  split
  · rename_i h
    obtain ⟨rest, rfl⟩ := h
    simp
  · simp

theorem column_injective : Function.Injective column :=
  Function.LeftInverse.injective tagName_column

theorem firstPart_column (key : Text) : firstPart (column key) = column (firstPart key) := by
  have haws : "aws:".toList <+: firstPart key ↔ "aws:".toList <+: key := by
    constructor
    · exact fun h => h.trans (List.takeWhile_prefix _)
    · rintro ⟨rest, rfl⟩
      rw [firstPart_append (by decide)]
      exact List.prefix_append _ _
  unfold column
  simp only [haws]
  split
  · exact firstPart_append (by decide)
  · exact firstPart_append (by decide)

theorem splitDotKeys_column_snd (key : Text) (value : RawValue) :
    (splitDotKeys (column key) value).2 = (splitDotKeys key value).2 := by
  unfold column
  split
  · exact splitDotKeys_append_snd (by decide) key value
  · exact splitDotKeys_append_snd (by decide) key value

theorem resourceTags_prefix_column (key : Text) : "resourceTags".toList <+: column key := by
  unfold column
  split
  · simp
  · simp

theorem column_name : column "Name".toList = nameColumn := rfl

theorem isTagColumn_column : IsTagColumn (column key) ↔ key ≠ "Name".toList := by
  rw [IsTagColumn, ← column_name, column_injective.ne_iff]
  exact and_iff_right (Or.inl (resourceTags_prefix_column key))

/-- What the columns of some tags hold. -/
theorem lookup_rowOf (tags : Dict Text Text) (k : Text) (v : RawValue) :
    (rowOf tags).lookup k = some v ↔
      ∃ key value, tags.lookup key = some value ∧ column key = k ∧ .text value = v := by
  have hstep : ∀ key value, tags.lookup key = some value → ∀ row : RawExpenseRow,
      row.set (column key) (.text value) =
        ((tags.lookup key).map fun value => (column key, RawValue.text value)).elim row
          fun item => row.set item.1 item.2 := fun key value h row => by
    rw [h]
    rfl
  have hout : ∀ key ∈ tags, ∀ other ∈ tags,
      ∀ i ∈ (tags.lookup key).map fun value => (column key, RawValue.text value),
      ∀ j ∈ (tags.lookup other).map fun value => (column other, RawValue.text value),
      i.1 = j.1 → key = other := by
    intro key _ other _ i hi j hj hij
    obtain ⟨_, -, rfl⟩ := Option.map_eq_some_iff.mp hi
    obtain ⟨_, -, rfl⟩ := Option.map_eq_some_iff.mp hj
    exact column_injective hij
  refine (Dict.lookup_foldl tags hstep hout k v).trans ⟨?_, ?_⟩
  · rintro ⟨key, -, hitem⟩
    obtain ⟨value, hvalue, hitem⟩ := Option.map_eq_some_iff.mp hitem
    obtain ⟨hk, hv⟩ := Prod.ext_iff.mp hitem
    exact ⟨key, value, hvalue, hk, hv⟩
  · rintro ⟨key, value, hvalue, rfl, rfl⟩
    exact ⟨key, AList.lookup_isSome.mp (Option.isSome_of_eq_some hvalue), by rw [hvalue]; rfl⟩

theorem mem_rowOf {tags : Dict Text Text} {k : Text} (h : k ∈ rowOf tags) :
    ∃ key, column key = k := by
  obtain ⟨v, hv⟩ := Option.isSome_iff_exists.mp (AList.lookup_isSome.mpr h)
  obtain ⟨key, -, -, hk, -⟩ := (lookup_rowOf tags k v).mp hv
  exact ⟨key, hk⟩

end Columns

/-! ## The row that is stored -/

section Stored

variable {reportIdentity : Text} {tags : Dict Text Text}

/-- The loop of `update_raw_records`. -/
def updateLoop (entries : List (Sigma fun _ : Text => RawValue)) (row : RawExpenseRow) :
    RawExpenseRow :=
  entries.foldl (fun acc entry => if "resourceTags".toList <+: entry.1 then
    (acc.popped entry.1).set (splitDotKeys entry.1 entry.2).1 (splitDotKeys entry.1 entry.2).2
    else acc) row

theorem updateLoop_concat (entries : List (Sigma fun _ : Text => RawValue))
    (entry : Sigma fun _ : Text => RawValue) (row : RawExpenseRow)
    (h : "resourceTags".toList <+: entry.1) :
    updateLoop (entries ++ [entry]) row = ((updateLoop entries row).popped entry.1).set
      (firstPart entry.1) (splitDotKeys entry.1 entry.2).2 := by
  rw [updateLoop, List.foldl_concat, if_pos h, splitDotKeys_fst]
  rfl

/-- **What the loop leaves** under a key without dots: what the last of the columns with this first
part holds, or what was there. -/
theorem lookup_updateLoop {entries : List (Sigma fun _ : Text => RawValue)}
    (hall : ∀ entry ∈ entries, "resourceTags".toList <+: entry.1) (row : RawExpenseRow) {p : Text}
    (hp : '.' ∉ p) : (updateLoop entries row).lookup p =
      ((entries.filter fun entry => firstPart entry.1 = p).getLast?.map fun entry =>
        (splitDotKeys entry.1 entry.2).2).or (row.lookup p) := by
  induction entries using List.reverseRecOn with
  | nil => rfl
  | append_singleton entries last ih =>
    have hlast := hall last (List.mem_append_right _ (List.mem_singleton_self _))
    rw [updateLoop_concat _ _ _ hlast, Dict.lookup_set, List.filter_append]
    by_cases hpart : p = firstPart last.1
    · rw [if_pos hpart, List.filter_cons_of_pos (by simpa using hpart.symm)]
      simp
    · have hkey : p ≠ last.1 := by
        rintro rfl
        exact hpart (firstPart_of_notMem hp).symm
      rw [if_neg hpart, Dict.lookup_popped, if_neg hkey,
        ih fun entry hentry => hall entry (List.mem_append_left _ hentry),
        List.filter_cons_of_neg (by simpa using Ne.symm hpart), List.filter_nil, List.append_nil]

/-- The columns with dots are gone. -/
theorem lookup_updateLoop_of_dot {entries : List (Sigma fun _ : Text => RawValue)}
    (hall : ∀ entry ∈ entries, "resourceTags".toList <+: entry.1) {row : RawExpenseRow} {k : Text}
    (hk : '.' ∈ k) (hrow : k ∉ entries.keys → row.lookup k = none) :
    (updateLoop entries row).lookup k = none := by
  induction entries using List.reverseRecOn with
  | nil => exact hrow List.not_mem_nil
  | append_singleton entries last ih =>
    have hlast := hall last (List.mem_append_right _ (List.mem_singleton_self _))
    have hpart : k ≠ firstPart last.1 := fun h => dot_notMem_firstPart last.1 (h ▸ hk)
    rw [updateLoop_concat _ _ _ hlast, Dict.lookup_set, if_neg hpart, Dict.lookup_popped]
    split_ifs with hkey
    · rfl
    · refine ih (fun entry hentry => hall entry (List.mem_append_left _ hentry)) fun hnew => hrow ?_
      simpa [List.keys] using ⟨by simpa [List.keys] using hnew, hkey⟩

theorem resourceTags_of_mem_rowOf {entry : Sigma fun _ : Text => RawValue}
    (h : entry ∈ (rowOf tags).entries) : "resourceTags".toList <+: entry.1 := by
  obtain ⟨key, hkey⟩ := mem_rowOf (List.mem_keys_of_mem h)
  exact hkey ▸ resourceTags_prefix_column key

/-- A column of the row is one of a tag. -/
theorem exists_of_mem_entries {entry : Sigma fun _ : Text => RawValue}
    (h : entry ∈ (rowOf tags).entries) :
    ∃ key value, tags.lookup key = some value ∧ column key = entry.1 ∧ .text value = entry.2 :=
  (lookup_rowOf tags entry.1 entry.2).mp (List.mem_dlookup (rowOf tags).nodupKeys h)

/-- **What is stored** is the identity of the report, and under the first part of a column the
rest of one that has it. -/
theorem lookup_updateRawRecord {k : Text} {v : RawValue}
    (h : (updateRawRecord reportIdentity (rowOf tags)).lookup k = some v) :
    k = "report_identity".toList ∨ ∃ key value, tags.lookup key = some value ∧
      k = column (firstPart key) ∧ v = (splitDotKeys key (.text value)).2 := by
  rw [updateRawRecord, Dict.lookup_set] at h
  by_cases hreport : k = "report_identity".toList
  · exact Or.inl hreport
  rw [if_neg hreport] at h
  right
  change (updateLoop (rowOf tags).entries (rowOf tags)).lookup k = some v at h
  have hall : ∀ entry ∈ (rowOf tags).entries, "resourceTags".toList <+: entry.1 :=
    fun _ => resourceTags_of_mem_rowOf
  by_cases hk : '.' ∈ k
  · rw [lookup_updateLoop_of_dot hall hk fun hnew => AList.lookup_eq_none.mpr hnew] at h
    exact nomatch h
  · rw [lookup_updateLoop hall _ hk] at h
    have hin : ∃ entry ∈ (rowOf tags).entries, firstPart entry.1 = k ∧
        (splitDotKeys entry.1 entry.2).2 = v := by
      cases hlast : ((rowOf tags).entries.filter fun entry => firstPart entry.1 = k).getLast? with
      | none =>
        rw [hlast, Option.map_none, Option.none_or] at h
        have hentry : ⟨k, v⟩ ∈ (rowOf tags).entries := List.of_mem_dlookup h
        have hnone := List.filter_eq_nil_iff.mp (List.getLast?_eq_none_iff.mp hlast) _ hentry
        exact absurd (decide_eq_true (firstPart_of_notMem hk)) hnone
      | some entry =>
        rw [hlast] at h
        obtain ⟨hentry, hpart⟩ := List.mem_filter.mp (List.mem_of_getLast? hlast)
        exact ⟨entry, hentry, of_decide_eq_true hpart, Option.some.inj h⟩
    obtain ⟨entry, hentry, rfl, rfl⟩ := hin
    obtain ⟨key, value, hvalue, hkey, hval⟩ := exists_of_mem_entries hentry
    refine ⟨key, value, hvalue, ?_, ?_⟩
    · rw [← hkey, firstPart_column]
    · rw [← hkey, ← hval, splitDotKeys_column_snd]

theorem column_ne_report (key : Text) : column key ≠ "report_identity".toList := by
  intro h
  have hprefix := resourceTags_prefix_column key
  rw [h] at hprefix
  exact absurd hprefix (by decide)

variable (reportIdentity) in
/-- The first part of every tag is stored. -/
theorem exists_lookup_updateRawRecord {key : Text} (h : key ∈ tags) :
    ∃ v, (updateRawRecord reportIdentity (rowOf tags)).lookup (column (firstPart key)) = some v := by
  obtain ⟨value, hvalue⟩ := Option.isSome_iff_exists.mp (AList.lookup_isSome.mpr h)
  have hentry : ⟨column key, .text value⟩ ∈ (rowOf tags).entries :=
    List.of_mem_dlookup ((lookup_rowOf tags _ _).mpr ⟨key, value, hvalue, rfl, rfl⟩)
  have hdot : '.' ∉ column (firstPart key) := by
    rw [← firstPart_column]
    exact dot_notMem_firstPart _
  have hne : ((rowOf tags).entries.filter fun entry =>
      firstPart entry.1 = column (firstPart key)) ≠ [] :=
    List.ne_nil_of_mem (List.mem_filter.mpr ⟨hentry, decide_eq_true (firstPart_column key)⟩)
  rw [updateRawRecord, Dict.lookup_set, if_neg (column_ne_report _)]
  change ∃ v, (updateLoop (rowOf tags).entries (rowOf tags)).lookup (column (firstPart key)) = some v
  rw [lookup_updateLoop (fun _ => resourceTags_of_mem_rowOf) _ hdot, List.getLast?_eq_some_getLast hne]
  exact ⟨_, rfl⟩

/-- A row without dots is stored as it is. -/
theorem stored_of_no_dots {row : RawExpenseRow} (hrow : ∀ k ∈ row, '.' ∉ k) :
    ∃ doc, stored row = some doc ∧ ∀ k, doc.lookup k = row.lookup k := by
  have hsplit : ∀ k ∈ row, k.splitOn '.' = [k] := fun k hk =>
    List.splitOnP_eq_singleton fun c hc => by simpa using ne_of_mem_of_not_mem hc (hrow k hk)
  have hconflict : ¬ Conflicting row := by
    rintro ⟨k, hk, l, hl, hne, hprefix⟩
    rw [hsplit k hk, hsplit l hl, List.cons_prefix_cons] at hprefix
    exact hne hprefix.1
  refine ⟨_, if_neg hconflict, fun k => ?_⟩
  have hstep : ∀ k v, row.lookup k = some v → ∀ doc : RawExpenseRow, setField doc k v =
      ((row.lookup k).map fun v => (k, v)).elim doc fun item => doc.set item.1 item.2 := by
    intro k v hv doc
    rw [hv, setField, hsplit k (AList.lookup_isSome.mp (Option.isSome_of_eq_some hv))]
    rfl
  have hout : ∀ k ∈ row, ∀ l ∈ row, ∀ i ∈ (row.lookup k).map fun v => (k, v),
      ∀ j ∈ (row.lookup l).map fun v => (l, v), i.1 = j.1 → k = l := by
    intro k _ l _ i hi j hj hij
    obtain ⟨_, -, rfl⟩ := Option.map_eq_some_iff.mp hi
    obtain ⟨_, -, rfl⟩ := Option.map_eq_some_iff.mp hj
    exact hij
  refine Option.ext fun v => (Dict.lookup_foldl row hstep hout k v).trans ⟨?_, fun hv => ?_⟩
  · rintro ⟨l, -, hitem⟩
    obtain ⟨w, hw, hitem⟩ := Option.map_eq_some_iff.mp hitem
    obtain ⟨rfl, rfl⟩ := Prod.ext_iff.mp hitem
    exact hw
  · exact ⟨k, AList.lookup_isSome.mp (Option.isSome_of_eq_some hv), by rw [hv]; rfl⟩

/-- A row as it is stored: the identity of the report, and a column for the first part of each
tag. -/
structure Filed (tags : Dict Text Text) (doc : RawExpenseRow) : Prop where
  only : ∀ k v, doc.lookup k = some v → k = "report_identity".toList ∨
    ∃ key value, tags.lookup key = some value ∧ k = column (firstPart key) ∧
      v = (splitDotKeys key (.text value)).2
  every : ∀ key ∈ tags, ∃ v, doc.lookup (column (firstPart key)) = some v

/-- **The row is stored.** -/
theorem exists_stored (reportIdentity : Text) (tags : Dict Text Text) :
    ∃ doc, stored (updateRawRecord reportIdentity (rowOf tags)) = some doc ∧ Filed tags doc := by
  have hdots : ∀ k ∈ updateRawRecord reportIdentity (rowOf tags), '.' ∉ k := by
    intro k hk
    obtain ⟨v, hv⟩ := Option.isSome_iff_exists.mp (AList.lookup_isSome.mpr hk)
    obtain rfl | ⟨key, -, -, rfl, -⟩ := lookup_updateRawRecord hv
    · decide
    · rw [← firstPart_column]
      exact dot_notMem_firstPart _
  obtain ⟨doc, hstored, hdoc⟩ := stored_of_no_dots hdots
  refine ⟨doc, hstored, ⟨fun k v hv => lookup_updateRawRecord (hdoc k ▸ hv), fun key hkey => ?_⟩⟩
  obtain ⟨v, hv⟩ := exists_lookup_updateRawRecord reportIdentity hkey
  exact ⟨v, (hdoc _).trans hv⟩

end Stored

/-! ## What is read back -/

section Read

variable {tags : Dict Text Text} {doc : RawExpenseRow}

theorem Filed.exists_tag (h : Filed tags doc) {p : Text} {v : RawValue}
    (hv : doc.lookup (column p) = some v) : ∃ key value, tags.lookup key = some value ∧
      p = firstPart key ∧ v = (splitDotKeys key (.text value)).2 := by
  obtain hreport | ⟨key, value, hvalue, hcolumn, hval⟩ := h.only _ v hv
  · exact absurd hreport (column_ne_report p)
  · exact ⟨key, value, hvalue, column_injective hcolumn, hval⟩

/-- What a first part holds is a tag. -/
theorem Filed.lookup_tag (h : Filed tags doc) {key value : Text}
    (hv : doc.lookup (column (firstPart key)) = some (splitDotKeys key (.text value)).2) :
    tags.lookup key = some value := by
  obtain ⟨other, value', hvalue, hpart, hrest⟩ := h.exists_tag hv
  obtain ⟨rfl, rfl⟩ := splitDotKeys_inj hpart hrest
  exact hvalue

/-- The raw tags are the columns but for that of the name. -/
theorem lookup_rawTags (h : Filed tags doc) (p : Text) (v : RawValue) :
    (rawTags doc).lookup p = some v ↔ p ≠ "Name".toList ∧ doc.lookup (column p) = some v := by
  have hcolumn : ∀ k ∈ doc, IsTagColumn k → ∃ q, k = column q := by
    intro k hk htag
    obtain ⟨w, hw⟩ := Option.isSome_iff_exists.mp (AList.lookup_isSome.mpr hk)
    obtain rfl | ⟨key, -, -, hkey, -⟩ := h.only k w hw
    · exact absurd htag (by decide)
    · exact ⟨_, hkey⟩
  have hstep : ∀ k w, doc.lookup k = some w → ∀ raw : RawExpenseRow,
      (if IsTagColumn k then raw.set (tagName k) w else raw) =
        (if IsTagColumn k then (doc.lookup k).map fun w => (tagName k, w) else none).elim raw
          fun item => raw.set item.1 item.2 := by
    intro k w hw raw
    rw [hw]
    split_ifs <;> rfl
  have hout : ∀ k ∈ doc, ∀ l ∈ doc,
      ∀ i ∈ if IsTagColumn k then (doc.lookup k).map fun w => (tagName k, w) else none,
      ∀ j ∈ if IsTagColumn l then (doc.lookup l).map fun w => (tagName l, w) else none,
      i.1 = j.1 → k = l := by
    intro k hk l hl i hi j hj hij
    simp only [Option.mem_def, Option.ite_none_right_eq_some, Option.map_eq_some_iff] at hi hj
    obtain ⟨htag, _, -, rfl⟩ := hi
    obtain ⟨htag', _, -, rfl⟩ := hj
    obtain ⟨q, rfl⟩ := hcolumn k hk htag
    obtain ⟨q', rfl⟩ := hcolumn l hl htag'
    exact congrArg column ((tagName_column q).symm.trans (hij.trans (tagName_column q')))
  refine (Dict.lookup_foldl doc hstep hout p v).trans ⟨?_, ?_⟩
  · rintro ⟨k, hk, hitem⟩
    simp only [Option.ite_none_right_eq_some, Option.map_eq_some_iff, Prod.mk.injEq] at hitem
    obtain ⟨htag, w, hw, rfl, rfl⟩ := hitem
    obtain ⟨q, rfl⟩ := hcolumn k hk htag
    rw [tagName_column]
    exact ⟨isTagColumn_column.mp htag, hw⟩
  · rintro ⟨hname, hv⟩
    refine ⟨column p, AList.lookup_isSome.mp (Option.isSome_of_eq_some hv), ?_⟩
    rw [if_pos (isTagColumn_column.mpr hname), hv, tagName_column]
    rfl

/-- **The tags that are collected** are those that are stored, and whose first part is not the name
of the resource. -/
theorem lookup_collectTags (h : Filed tags doc) (key value : Text) :
    (collectTags doc).lookup key = some value ↔ firstPart key ≠ "Name".toList ∧
      doc.lookup (column (firstPart key)) = some (splitDotKeys key (.text value)).2 := by
  have hheld : ∀ p v, (rawTags doc).lookup p = some v →
      ∃ key value, p = firstPart key ∧ v = (splitDotKeys key (.text value)).2 := fun p v hv => by
    obtain ⟨key, value, -, hheld⟩ := h.exists_tag ((lookup_rawTags h p v).mp hv).2
    exact ⟨key, value, hheld⟩
  have hitem : ∀ key value : Text,
      (extractTag (firstPart key) (splitDotKeys key (.text value)).2 ∅).entries.head?.map
        (fun entry => (entry.1, entry.2)) = some (key, value) := by
    intro key value
    rw [← List.nil_append (firstPart key), extractTag_splitDotKeys]
    rfl
  have hstep : ∀ p v, (rawTags doc).lookup p = some v → ∀ tags : Dict Text Text,
      extractTag p v tags = (((rawTags doc).lookup p).bind fun v =>
        (extractTag p v ∅).entries.head?.map fun entry => (entry.1, entry.2)).elim tags
          fun item => tags.set item.1 item.2 := by
    intro p v hv tags
    obtain ⟨key, value, rfl, rfl⟩ := hheld p v hv
    rw [hv, Option.bind_some, hitem, ← List.nil_append (firstPart key), extractTag_splitDotKeys]
    rfl
  have hout : ∀ p ∈ rawTags doc, ∀ q ∈ rawTags doc,
      ∀ i ∈ ((rawTags doc).lookup p).bind fun v =>
        (extractTag p v ∅).entries.head?.map fun entry => (entry.1, entry.2),
      ∀ j ∈ ((rawTags doc).lookup q).bind fun v =>
        (extractTag q v ∅).entries.head?.map fun entry => (entry.1, entry.2),
      i.1 = j.1 → p = q := by
    intro p _ q _ i hi j hj hij
    obtain ⟨v, hv, hi⟩ := Option.bind_eq_some_iff.mp hi
    obtain ⟨w, hw, hj⟩ := Option.bind_eq_some_iff.mp hj
    obtain ⟨key, value, rfl, rfl⟩ := hheld p v hv
    obtain ⟨key', value', rfl, rfl⟩ := hheld q w hw
    obtain rfl := Option.some.inj ((hitem key value).symm.trans hi)
    obtain rfl := Option.some.inj ((hitem key' value').symm.trans hj)
    exact congrArg firstPart hij
  refine (Dict.lookup_foldl (rawTags doc) hstep hout key value).trans ⟨?_, ?_⟩
  · rintro ⟨p, -, hfound⟩
    obtain ⟨v, hv, hfound⟩ := Option.bind_eq_some_iff.mp hfound
    obtain ⟨key', value', rfl, rfl⟩ := hheld p v hv
    obtain ⟨rfl, rfl⟩ := Prod.ext_iff.mp (Option.some.inj ((hitem key' value').symm.trans hfound))
    exact (lookup_rawTags h _ _).mp hv
  · intro hdoc
    have hraw := (lookup_rawTags h _ _).mpr hdoc
    refine ⟨firstPart key, AList.lookup_isSome.mp (Option.isSome_of_eq_some hraw), ?_⟩
    rw [hraw, Option.bind_some, hitem]

end Read

/-! ## The round trip -/

section RoundTrip

variable {tags : Dict Text Text} {doc : RawExpenseRow}

/-- What is stored under the first part of a tag is this tag, if it is the only one. -/
theorem Filed.lookup_of_separate (hdoc : Filed tags doc) (h : Separate tags) {key value : Text}
    (hvalue : tags.lookup key = some value) :
    doc.lookup (column (firstPart key)) = some (splitDotKeys key (.text value)).2 := by
  have hin : key ∈ tags := AList.lookup_isSome.mp (Option.isSome_of_eq_some hvalue)
  obtain ⟨v, hv⟩ := hdoc.every key hin
  obtain ⟨other, value', hvalue', hpart, rfl⟩ := hdoc.exists_tag hv
  have hother : other ∈ tags := AList.lookup_isSome.mp (Option.isSome_of_eq_some hvalue')
  obtain rfl := (h key hin).1 other hother hpart.symm
  obtain rfl := Option.some.inj (hvalue'.symm.trans hvalue)
  exact hv

/-- The name is read back if no other tag is stored for it. -/
theorem Filed.readBack_name (hdoc : Filed tags doc) (h : Separate tags) :
    readBack doc "Name".toList = (tags.lookup "Name".toList).map .text := by
  have hpart : firstPart "Name".toList = "Name".toList := firstPart_of_notMem (by decide)
  rw [readBack, if_pos rfl, ← column_name]
  cases hvalue : tags.lookup "Name".toList with
  | some value =>
    have hheld := hdoc.lookup_of_separate h hvalue
    rw [hpart, splitDotKeys, if_neg (by decide)] at hheld
    exact hheld
  | none =>
    refine Option.eq_none_iff_forall_ne_some.mpr fun v hv => ?_
    obtain ⟨other, value, hother, hname, -⟩ := hdoc.exists_tag hv
    have hin : other ∈ tags := AList.lookup_isSome.mp (Option.isSome_of_eq_some hother)
    rw [(h other hin).2 hname.symm, hvalue] at hother
    exact nomatch hother

/-- The tags survive if each is the only one with its first part. -/
theorem survive_of_separate (reportIdentity : Text) (h : Separate tags) :
    Survive reportIdentity tags := by
  obtain ⟨doc, hstored, hdoc⟩ := exists_stored reportIdentity tags
  refine ⟨doc, hstored, fun key => ?_⟩
  by_cases hname : key = "Name".toList
  · rw [hname]
    exact hdoc.readBack_name h
  · rw [readBack, if_neg hname]
    refine congrArg (Option.map _) (Option.ext fun value => (lookup_collectTags hdoc key value).trans
      ⟨fun hheld => hdoc.lookup_tag hheld.2, fun hvalue => ⟨?_, hdoc.lookup_of_separate h hvalue⟩⟩)
    have hin : key ∈ tags := AList.lookup_isSome.mp (Option.isSome_of_eq_some hvalue)
    exact fun hpart => hname ((h key hin).2 hpart)

/-- A tag that is read back is what its first part holds. -/
theorem Filed.lookup_of_readBack (hdoc : Filed tags doc) {key value : Text}
    (hname : key ≠ "Name".toList) (h : readBack doc key = some (.text value)) :
    firstPart key ≠ "Name".toList ∧
      doc.lookup (column (firstPart key)) = some (splitDotKeys key (.text value)).2 := by
  rw [readBack, if_neg hname] at h
  obtain ⟨value', hvalue, heq⟩ := Option.map_eq_some_iff.mp h
  obtain rfl := RawValue.text.inj heq
  exact (lookup_collectTags hdoc key value').mp hvalue

/-- Tags that survive are the only ones with their first parts. -/
theorem separate_of_survive {reportIdentity : Text} (h : Survive reportIdentity tags) :
    Separate tags := by
  obtain ⟨doc, hstored, hdoc⟩ := exists_stored reportIdentity tags
  obtain ⟨_, hstored', hread⟩ := h
  obtain rfl := Option.some.inj (hstored.symm.trans hstored')
  have hback : ∀ key ∈ tags, ∃ value, readBack doc key = some (.text value) := fun key hkey => by
    obtain ⟨value, hvalue⟩ := Option.isSome_iff_exists.mp (AList.lookup_isSome.mpr hkey)
    exact ⟨value, by rw [hread key, hvalue]; rfl⟩
  have hname : ∀ key ∈ tags, firstPart key = "Name".toList → key = "Name".toList := by
    intro key hkey hpart
    by_contra hne
    obtain ⟨value, hvalue⟩ := hback key hkey
    exact (hdoc.lookup_of_readBack hne hvalue).1 hpart
  refine fun key hkey => ⟨fun other hother hpart => ?_, hname key hkey⟩
  by_cases hkeyName : firstPart key = "Name".toList
  · rw [hname key hkey hkeyName, hname other hother (hpart.trans hkeyName)]
  · have hne : ∀ k : Text, firstPart k = firstPart key → k ≠ "Name".toList := by
      rintro _ hk rfl
      exact hkeyName (hk.symm.trans (firstPart_of_notMem (by decide)))
    obtain ⟨value, hvalue⟩ := hback key hkey
    obtain ⟨value', hvalue'⟩ := hback other hother
    have hheld := (hdoc.lookup_of_readBack (hne key rfl) hvalue).2
    have hheld' := (hdoc.lookup_of_readBack (hne other hpart) hvalue').2
    rw [hpart] at hheld'
    exact (splitDotKeys_inj hpart (Option.some.inj (hheld'.symm.trans hheld))).1

end RoundTrip

/-- **Tags survive the raw store** exactly if no two of them have one part before the first dot, and
none but `Name` has `Name` there. -/
theorem survive_iff (reportIdentity : Text) (tags : Dict Text Text) :
    Survive reportIdentity tags ↔ Separate tags :=
  ⟨separate_of_survive, survive_of_separate reportIdentity⟩

/-- Two tags of one application. -/
def dottedTags : Dict Text Text :=
  Dict.set (Dict.set ∅ "app.owner".toList "ann".toList) "app.stage".toList "live".toList

/-- **One of two tags with a dotted prefix is lost.** -/
theorem dottedTags_not_survive : ¬ Survive "report".toList dottedTags := fun h => by
  have hone := (separate_of_survive h "app.owner".toList (by decide)).1 "app.stage".toList
    (by decide) (by decide)
  exact absurd hone (by decide)

end AwsReportImporter
