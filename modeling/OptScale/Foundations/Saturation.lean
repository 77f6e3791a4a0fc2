import Mathlib

/-!
# Foundations/Saturation — passes over rows until nothing enters

A pass goes through the rows and lets the key of each row enter that the keys so far let in, those of the same
pass included.  A pass that changes anything adds a key, so no more passes than rows come to a closed set
(`closed_saturate`), and what enters is only what has to (`saturate_induction`).
-/

namespace Saturation

variable {α κ : Type*} [DecidableEq κ] {key : α → κ} {enters : Finset κ → α → Prop}
  [∀ s a, Decidable (enters s a)] {rows : List α} {s : Finset κ}

variable (key enters) in
/-- A row in a pass: the keys, and whether they have been modified. -/
def visit (r : Finset κ × Bool) (a : α) : Finset κ × Bool :=
  if key a ∈ r.1 then r
  else if enters r.1 a then (insert (key a) r.1, true)
  else r

variable (key enters rows) in
/-- A pass over the rows. -/
def pass (s : Finset κ) : Finset κ × Bool := rows.foldl (visit key enters) (s, false)

variable (key enters rows) in
/-- Passes until one modifies nothing, and no more than so many. -/
def saturate : ℕ → Finset κ → Finset κ
  | 0, s => s
  | n + 1, s =>
    let r := pass key enters rows s
    if r.2 then saturate n r.1 else r.1

variable (key enters rows) in
/-- **Nothing more enters.** -/
def Closed (s : Finset κ) : Prop := ∀ a ∈ rows, enters s a → key a ∈ s

/-! ## A pass -/

theorem subset_visit (r : Finset κ × Bool) (a : α) : r.1 ⊆ (visit key enters r a).1 := by
  unfold visit
  split
  · exact Finset.Subset.refl _
  · split
    · exact Finset.subset_insert _ _
    · exact Finset.Subset.refl _

theorem subset_foldl : ∀ (rows : List α) (r : Finset κ × Bool), r.1 ⊆ (rows.foldl (visit key enters) r).1
  | [], _ => Finset.Subset.refl _
  | a :: rows, r => (subset_visit r a).trans (subset_foldl rows _)

/-- Modified is what has grown. -/
theorem foldl_modified : ∀ (rows : List α) (r : Finset κ × Bool),
    ((rows.foldl (visit key enters) r).2 = true ∧ r.1.card < (rows.foldl (visit key enters) r).1.card) ∨
      rows.foldl (visit key enters) r = r
  | [], r => Or.inr rfl
  | a :: rows, r => by
    rw [List.foldl_cons]
    by_cases hadd : key a ∉ r.1 ∧ enters r.1 a
    · have hvisit : visit key enters r a = (insert (key a) r.1, true) := by
        rw [visit, if_neg hadd.1, if_pos hadd.2]
      have hcard : r.1.card < (visit key enters r a).1.card := by
        rw [hvisit, Finset.card_insert_of_notMem hadd.1]
        exact Nat.lt_succ_self _
      obtain ⟨hmodified, hlt⟩ | hsame := foldl_modified rows (visit key enters r a)
      · exact Or.inl ⟨hmodified, hcard.trans hlt⟩
      · rw [hsame]
        exact Or.inl ⟨by rw [hvisit], hcard⟩
    · have hvisit : visit key enters r a = r := by
        unfold visit
        split
        · rfl
        · rename_i hkey
          rw [if_neg fun h => hadd ⟨hkey, h⟩]
      rw [hvisit]
      exact foldl_modified rows r

/-- **A pass grows, or leaves all as it was.** -/
theorem pass_modified : ((pass key enters rows s).2 = true ∧ s.card < (pass key enters rows s).1.card) ∨
    pass key enters rows s = (s, false) :=
  foldl_modified rows (s, false)

/-- **A pass over a closed set leaves it as it is.** -/
theorem pass_of_closed (h : Closed key enters rows s) : pass key enters rows s = (s, false) := by
  unfold pass
  induction rows with
  | nil => rfl
  | cons a rows ih =>
    have hvisit : visit key enters (s, false) a = (s, false) := by
      unfold visit
      split
      · rfl
      · rename_i hkey
        rw [if_neg fun henters => hkey (h a List.mem_cons_self henters)]
    rw [List.foldl_cons, hvisit]
    exact ih fun b hb => h b (List.mem_cons_of_mem a hb)

theorem closed_of_pass (h : pass key enters rows s = (s, false)) : Closed key enters rows s := by
  intro a ha henters
  by_contra hkey
  obtain ⟨before, after, rfl⟩ := List.append_of_mem ha
  rw [pass, List.foldl_append, List.foldl_cons] at h
  have hbefore : before.foldl (visit key enters) (s, false) = (s, false) := by
    obtain ⟨-, hlt⟩ | hsame : _ ∨ before.foldl (visit key enters) (s, false) = (s, false) :=
      foldl_modified before (s, false)
    · have hsub : (before.foldl (visit key enters) (s, false)).1 ⊆
          (after.foldl (visit key enters) (visit key enters (before.foldl (visit key enters) (s, false)) a)).1 :=
        (subset_visit _ a).trans (subset_foldl after _)
      rw [h] at hsub
      exact absurd (Finset.card_le_card hsub) (not_le.mpr hlt)
    · exact hsame
  have hvisit : visit key enters (s, false) a = (insert (key a) s, true) := by
    rw [visit, if_neg hkey, if_pos henters]
  rw [hbefore, hvisit] at h
  have hsub : insert (key a) s ⊆ (after.foldl (visit key enters) (insert (key a) s, true)).1 :=
    subset_foldl after (insert (key a) s, true)
  rw [h] at hsub
  exact hkey (hsub (Finset.mem_insert_self _ _))

/-- What enters in a pass are keys of rows that are let in. -/
theorem pass_induction {motive : κ → Prop} (hs : ∀ k ∈ s, motive k)
    (henters : ∀ t : Finset κ, (∀ k ∈ t, motive k) → ∀ a ∈ rows, enters t a → motive (key a)) :
    ∀ k ∈ (pass key enters rows s).1, motive k := by
  refine List.foldlRecOn rows _ (motive := fun r : Finset κ × Bool => ∀ k ∈ r.1, motive k) hs fun r hr a ha => ?_
  unfold visit
  split
  · exact hr
  · split
    · rename_i h
      intro k hk
      obtain rfl | hk := Finset.mem_insert.mp hk
      · exact henters r.1 hr a ha h
      · exact hr k hk
    · exact hr

/-- A pass that grows leaves fewer keys out. -/
theorem card_sdiff_pass (h : s.card < (pass key enters rows s).1.card) :
    ((rows.map key).toFinset \ (pass key enters rows s).1).card < ((rows.map key).toFinset \ s).card := by
  have hsub : s ⊆ (pass key enters rows s).1 := subset_foldl rows (s, false)
  obtain ⟨k, hk, hks⟩ := Finset.exists_of_ssubset (hsub.ssubset_of_ne fun heq => h.ne (congrArg Finset.card heq))
  have hkey : k ∈ s ∨ k ∈ (rows.map key).toFinset :=
    pass_induction (motive := fun k => k ∈ s ∨ k ∈ (rows.map key).toFinset) (fun _ => Or.inl)
      (fun _ _ a ha _ => Or.inr (List.mem_toFinset.mpr (List.mem_map_of_mem ha))) k hk
  refine Finset.card_lt_card ⟨Finset.sdiff_subset_sdiff (Finset.Subset.refl _) hsub, fun hback => ?_⟩
  have hmem := hback (Finset.mem_sdiff.mpr ⟨hkey.resolve_left hks, hks⟩)
  exact (Finset.mem_sdiff.mp hmem).2 hk

/-! ## All passes -/

/-- **What enters is only what has to.** -/
theorem saturate_induction {motive : κ → Prop}
    (henters : ∀ t : Finset κ, (∀ k ∈ t, motive k) → ∀ a ∈ rows, enters t a → motive (key a)) :
    ∀ {n : ℕ} {s : Finset κ}, (∀ k ∈ s, motive k) → ∀ k ∈ saturate key enters rows n s, motive k
  | 0, _, hs => hs
  | n + 1, s, hs => by
    have hpass := pass_induction hs henters
    unfold saturate
    simp only
    split
    · exact saturate_induction henters hpass
    · exact hpass

/-- **As many passes as rows are enough.** -/
theorem closed_saturate {n : ℕ} {s : Finset κ} (hn : ((rows.map key).toFinset \ s).card ≤ n) :
    Closed key enters rows (saturate key enters rows n s) := by
  induction n generalizing s with
  | zero =>
    intro a ha _
    have hempty := Finset.card_eq_zero.mp (Nat.le_zero.mp hn)
    exact Finset.sdiff_eq_empty_iff_subset.mp hempty (List.mem_toFinset.mpr (List.mem_map_of_mem ha))
  | succ n ih =>
    unfold saturate
    simp only
    obtain ⟨hmodified, hlt⟩ | hsame : _ ∨ pass key enters rows s = (s, false) := pass_modified
    · rw [if_pos hmodified]
      have hfewer := card_sdiff_pass hlt
      exact ih (by omega)
    · rw [hsame]
      exact closed_of_pass hsame

end Saturation
