import OptScale.Resources.Resource

/-!
# Resources/Tags — the tags of resources

A map of tags is the list of its items, in their order.  Incoming tags have plain keys, stored tags
encoded ones.
-/

/-- A map of tags. -/
abbrev Tags := List (String × String)

/-- `encode_string` and its inverse. -/
structure Encoding where
  encode : String → String
  decode : String → String
  decode_encode : ∀ s, decode (encode s) = s

namespace Tags

/-- `tags[key] = value` -/
def set (tags : Tags) (key value : String) : Tags :=
  if tags.any (·.1 = key) then tags.map fun t => if t.1 = key then (key, value) else t
  else tags ++ [(key, value)]

/-- `tags.pop(key, None)` -/
def pop (tags : Tags) (key : String) : Tags := tags.filter (·.1 ≠ key)

/-- `tags.update(more)` -/
def update (tags more : Tags) : Tags := more.foldl (fun tags t => tags.set t.1 t.2) tags

/-- `encoded_tags` -/
def encoded (E : Encoding) (tags : Tags) : Tags :=
  tags.foldl (fun tags t => tags.set (E.encode t.1) t.2) []

/-- `encoded_tags`, decoding. -/
def decoded (E : Encoding) (tags : Tags) : Tags :=
  tags.foldl (fun tags t => tags.set (E.decode t.1) t.2) []

/-- The stored tags that `update_tags` puts to the incoming ones: those of AWS, and on a
report import all of them, unless the key comes in. -/
def dbUpdate (dbTags tags : Tags) (isReportImport : Bool) : Tags :=
  dbTags.filter fun t => tags.all (·.1 ≠ t.1) && (t.1.startsWith "aws:" || isReportImport)

/-- `update_tags` without decoding; it changes the incoming tags themselves. -/
def updateTags (dbTags tags : Tags) (isReportImport : Bool) : Tags :=
  tags.update (dbUpdate dbTags tags isReportImport)

/-- `update_tags`, on encoded tags. -/
def updateEncodedTags (E : Encoding) (dbTags tags : Tags) (isReportImport : Bool) : Tags :=
  encoded E (updateTags (decoded E dbTags) (decoded E tags) isReportImport)

/-! ## Lookups -/

section Lookup

variable (tags : Tags) (key value k : String)

theorem lookup_map_set : (tags.map fun t => if t.1 = key then (key, value) else t).lookup k =
    if k = key then (tags.lookup key).map fun _ => value else tags.lookup k := by
  induction tags with
  | nil => simp
  | cons t tags ih =>
    rw [List.map_cons]
    by_cases ht : t.1 = key <;> by_cases hk : k = key <;> grind

theorem lookup_isSome : (tags.lookup key).isSome = tags.any (·.1 = key) := by
  induction tags with
  | nil => rfl
  | cons t tags ih => by_cases ht : t.1 = key <;> grind

theorem lookup_set : (tags.set key value).lookup k = if k = key then some value else tags.lookup k := by
  unfold set
  rw [← lookup_isSome]
  split
  · rename_i h
    obtain ⟨old, hold⟩ := Option.isSome_iff_exists.mp h
    rw [lookup_map_set, hold, Option.map_some]
  · rename_i h
    rw [List.lookup_append]
    by_cases hk : k = key
    · rw [hk, Option.not_isSome_iff_eq_none.mp h]
      simp
    · simp [hk, List.lookup_cons, beq_false_of_ne hk]

theorem lookup_pop : (tags.pop key).lookup k = if k = key then none else tags.lookup k := by
  induction tags with
  | nil => simp [pop]
  | cons t tags ih =>
    unfold pop at ih ⊢
    rw [List.filter_cons]
    by_cases ht : t.1 = key <;> grind

end Lookup

/-! ## Keys -/

section Keys

variable {tags : Tags} {key value : String}

theorem keys_set : (tags.set key value).map Prod.fst =
    if key ∈ tags.map Prod.fst then tags.map Prod.fst else tags.map Prod.fst ++ [key] := by
  have hany : tags.any (·.1 = key) = true ↔ key ∈ tags.map Prod.fst := by simp [List.mem_map]
  unfold set
  by_cases hkey : key ∈ tags.map Prod.fst
  · rw [if_pos (hany.mpr hkey), if_pos hkey, List.map_map]
    refine List.map_congr_left fun t _ => ?_
    simp only [Function.comp]
    split
    · rename_i h
      exact h.symm
    · rfl
  · rw [if_neg fun h => hkey (hany.mp h), if_neg hkey, List.map_append]
    rfl

theorem nodup_set (h : (tags.map Prod.fst).Nodup) : ((tags.set key value).map Prod.fst).Nodup := by
  rw [keys_set]
  split
  · exact h
  · rename_i hkey
    rw [← List.concat_eq_append]
    exact List.Nodup.concat hkey h

theorem nodup_update (h : (tags.map Prod.fst).Nodup) (more : Tags) : ((tags.update more).map Prod.fst).Nodup := by
  unfold update
  induction more generalizing tags with
  | nil => exact h
  | cons t more ih => exact ih (nodup_set h)

theorem set_of_new (h : key ∉ tags.map Prod.fst) : tags.set key value = tags ++ [(key, value)] := by
  refine if_neg fun hany => h ?_
  simpa [List.mem_map] using hany

theorem foldl_set (f : String → String) (more : Tags) (h : (tags.map Prod.fst ++ more.map fun t => f t.1).Nodup) :
    more.foldl (fun tags t => tags.set (f t.1) t.2) tags = tags ++ more.map fun t => (f t.1, t.2) := by
  induction more generalizing tags with
  | nil => simp
  | cons t more ih =>
    have hnew : f t.1 ∉ tags.map Prod.fst := fun hmem =>
      (List.nodup_append.mp h).2.2 _ hmem (f t.1) List.mem_cons_self rfl
    rw [List.map_cons, List.append_cons] at h
    rw [List.foldl_cons, set_of_new hnew, ih (by rwa [List.map_append]), List.map_cons, List.append_assoc]
    rfl

variable (E : Encoding)

theorem encode_injective : Function.Injective E.encode := fun a b h => by
  rw [← E.decode_encode a, h, E.decode_encode]

/-- **Encoded tags are read as they were.** -/
theorem decoded_encoded (h : (tags.map Prod.fst).Nodup) : decoded E (encoded E tags) = tags := by
  have hencoded : encoded E tags = tags.map fun t => (E.encode t.1, t.2) := by
    refine (foldl_set E.encode tags ?_).trans (List.nil_append _)
    have hmap := h.map (encode_injective E)
    rwa [List.map_map] at hmap
  have hdecoded : (tags.map fun t => (E.encode t.1, t.2)).map (fun t => (E.decode t.1, t.2)) = tags := by
    rw [List.map_map]
    refine (List.map_congr_left fun t _ => ?_).trans (List.map_id _)
    exact Prod.ext (E.decode_encode t.1) rfl
  rw [hencoded]
  refine (foldl_set E.decode _ ?_).trans (by rw [List.nil_append, hdecoded])
  rw [List.map_nil, List.nil_append, List.map_map]
  have hkeys : (fun t : String × String => E.decode t.1) ∘ (fun t => (E.encode t.1, t.2)) = Prod.fst :=
    funext fun t => E.decode_encode t.1
  rwa [hkeys]

theorem mem_keys_update {more : Tags} {k : String} :
    k ∈ (tags.update more).map Prod.fst ↔ k ∈ tags.map Prod.fst ∨ k ∈ more.map Prod.fst := by
  unfold update
  induction more generalizing tags with
  | nil => simp
  | cons t more ih =>
    rw [List.foldl_cons, ih, keys_set, List.map_cons, List.mem_cons]
    split
    · rename_i hkey
      constructor
      · exact fun h => h.imp_right Or.inr
      · rintro (h | rfl | h)
        · exact Or.inl h
        · exact Or.inl hkey
        · exact Or.inr h
    · rw [List.mem_append, List.mem_singleton, or_assoc]

/-- **What is merged once is merged.** -/
theorem updateTags_updateTags (dbTags tags : Tags) (isReportImport : Bool) :
    updateTags dbTags (updateTags dbTags tags isReportImport) isReportImport = updateTags dbTags tags isReportImport := by
  have hnil : dbUpdate dbTags (updateTags dbTags tags isReportImport) isReportImport = [] := by
    refine List.filter_eq_nil_iff.mpr fun t ht hkept => ?_
    rw [Bool.and_eq_true, List.all_eq_true] at hkept
    obtain ⟨hnew, hkind⟩ := hkept
    have hkey : t.1 ∉ (updateTags dbTags tags isReportImport).map Prod.fst := fun hmem => by
      obtain ⟨u, hu, heq⟩ := List.mem_map.mp hmem
      exact of_decide_eq_true (hnew u hu) heq
    rw [updateTags, mem_keys_update, not_or] at hkey
    refine hkey.2 (List.mem_map_of_mem (List.mem_filter.mpr ⟨ht, ?_⟩))
    rw [Bool.and_eq_true, List.all_eq_true]
    exact ⟨fun u hu => decide_eq_true fun heq => hkey.1 (heq ▸ List.mem_map_of_mem hu), hkind⟩
  rw [updateTags, hnil]
  rfl

theorem nodup_updateTags (dbTags : Tags) (isReportImport : Bool) (h : (tags.map Prod.fst).Nodup) :
    ((updateTags dbTags tags isReportImport).map Prod.fst).Nodup := nodup_update h _

/-- **What is stored is the same before and after the stored tags are put to the incoming ones.** -/
theorem updateEncodedTags_updateTags (dbTags : Tags) (isReportImport : Bool) (h : (tags.map Prod.fst).Nodup) :
    updateEncodedTags E dbTags (encoded E (updateTags (decoded E dbTags) tags isReportImport)) isReportImport =
      updateEncodedTags E dbTags (encoded E tags) isReportImport := by
  rw [updateEncodedTags, updateEncodedTags, decoded_encoded E h, decoded_encoded E (nodup_updateTags _ _ h),
    updateTags_updateTags]

end Keys

end Tags
