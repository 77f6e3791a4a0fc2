import Mathlib

/-!
# Foundations/Moves — an item of an order, moved by single assignments

An order is a list without duplicates, and its items are numbered by their places.  To move one of them, it is
first numbered past the end; then all are numbered anew, from the front if it goes back and from the back if it
comes forward.  Never do two items have one number, and at the end the numbers are the places of the new
order (`move_spec`).
-/

namespace Moves

variable {κ : Type*}

/-! ## Orders -/

/-- The order with an item at another place. -/
def moveTo [DecidableEq κ] (i : ℕ) (x : κ) (l : List κ) : List κ := (l.erase x).take i ++ x :: (l.erase x).drop i

/-- **The numbers are the places**, from `s` on. -/
def Numbers (s : ℕ) (l : List κ) (g : κ → ℕ) : Prop := ∀ j r, l[j]? = some r → g r = s + j

variable {l : List κ} {g : κ → ℕ} {s : ℕ} {x : κ}

theorem Numbers.injOn (h : Numbers s l g) : Set.InjOn g {r | r ∈ l} := by
  intro r hr r' hr' heq
  obtain ⟨j, hj⟩ := List.mem_iff_getElem?.mp hr
  obtain ⟨j', hj'⟩ := List.mem_iff_getElem?.mp hr'
  rw [h j r hj, h j' r' hj'] at heq
  obtain rfl : j = j' := by omega
  exact Option.some.inj (hj.symm.trans hj')

theorem Numbers.nil : Numbers s [] g := fun j r hr => by
  rw [List.getElem?_nil] at hr
  cases hr

theorem Numbers.of_cons {h : κ} (htail : Numbers (s + 1) l g) (hhead : g h = s) : Numbers s (h :: l) g := by
  intro j r hr
  cases j with
  | zero =>
    obtain rfl := Option.some.inj hr
    exact hhead
  | succ j =>
    rw [htail j r hr]
    omega

section Decidable

variable [DecidableEq κ]

/-- The items of an order can be numbered by their places. -/
theorem exists_numbers (hl : l.Nodup) : ∃ g : κ → ℕ, Numbers 1 l g := by
  refine ⟨fun r => 1 + l.idxOf r, fun j r hr => ?_⟩
  obtain ⟨hlt, rfl⟩ := List.getElem?_eq_some_iff.mp hr
  exact congrArg (1 + ·) (hl.idxOf_getElem j hlt)

theorem length_moveTo (i : ℕ) (hx : x ∈ l) : (moveTo i x l).length = l.length := by
  have hlength := List.length_erase_add_one hx
  rw [moveTo, List.length_append, List.length_cons, List.length_take, List.length_drop]
  omega

/-- **The others stay in their order.** -/
theorem erase_moveTo (i : ℕ) (hl : l.Nodup) : (moveTo i x l).erase x = l.erase x := by
  have hnot : x ∉ (l.erase x).take i := fun h => hl.not_mem_erase (List.mem_of_mem_take h)
  rw [moveTo, List.erase_append_right _ hnot, List.erase_cons_head, List.take_append_drop]

theorem moveTo_perm (i : ℕ) (hx : x ∈ l) : (moveTo i x l).Perm l := by
  rw [moveTo]
  refine List.perm_middle.trans ?_
  rw [List.take_append_drop]
  exact (List.perm_cons_erase hx).symm

/-- The last place is behind all others. -/
theorem moveTo_last (hx : x ∈ l) : moveTo (l.length - 1) x l = l.erase x ++ [x] := by
  have hlength : (l.erase x).length = l.length - 1 := List.length_erase_of_mem hx
  rw [moveTo, ← hlength, List.take_length, List.drop_length]

/-- The item is in its place. -/
theorem getElem?_moveTo_self {i : ℕ} (hi : i ≤ (l.erase x).length) : (moveTo i x l)[i]? = some x := by
  have htake : ((l.erase x).take i).length = i := by rw [List.length_take, min_eq_left hi]
  rw [moveTo, List.getElem?_append_right htake.le, htake, Nat.sub_self, List.getElem?_cons_zero]

/-- The item is where it is. -/
theorem moveTo_self {before after : List κ} (hx : x ∉ before) :
    moveTo before.length x (before ++ x :: after) = before ++ x :: after := by
  rw [moveTo, List.erase_append_right _ hx, List.erase_cons_head, List.take_left, List.drop_left]

/-! ## Assignments -/

/-- One assignment. -/
def assign (g : κ → ℕ) (u : κ × ℕ) : κ → ℕ := Function.update g u.1 u.2

/-- Assignments, one after the other. -/
def assignAll (g : κ → ℕ) (us : List (κ × ℕ)) : κ → ℕ := us.foldl assign g

theorem assign_of_ne {u : κ × ℕ} {r : κ} (h : r ≠ u.1) : assign g u r = g r := Function.update_of_ne h _ _

@[simp] theorem assign_self (u : κ × ℕ) : assign g u u.1 = u.2 := Function.update_self _ _ _

theorem assign_injOn {S : Set κ} {u : κ × ℕ} (hg : Set.InjOn g S) (hu : ∀ r ∈ S, r ≠ u.1 → g r ≠ u.2) :
    Set.InjOn (assign g u) S := by
  intro r hr r' hr' heq
  by_cases h : r = u.1 <;> by_cases h' : r' = u.1
  · rw [h, h']
  · rw [h, assign_self, assign_of_ne h'] at heq
    exact absurd heq.symm (hu r' hr' h')
  · rw [h', assign_self, assign_of_ne h] at heq
    exact absurd heq (hu r hr h)
  · rw [assign_of_ne h, assign_of_ne h'] at heq
    exact hg hr hr' heq

/-- **From the front**: what is numbered already is below, and what is not is at its new place or above. -/
theorem forward {done : List κ} (hnodup : (done ++ l).Nodup) (hg : Set.InjOn g {r | r ∈ done ++ l})
    (hdone : ∀ r ∈ done, g r < s) (hrest : ∀ j r, l[j]? = some r → s + j ≤ g r) :
    (∀ k, Set.InjOn (assignAll g ((l.zipIdx s).take k)) {r | r ∈ done ++ l}) ∧
      (∀ r ∈ done, assignAll g (l.zipIdx s) r = g r) ∧ Numbers s l (assignAll g (l.zipIdx s)) := by
  induction l generalizing done s g with
  | nil => exact ⟨fun k => by rw [List.zipIdx_nil, List.take_nil]; exact hg, fun _ _ => rfl, Numbers.nil⟩
  | cons h l ih =>
    have hsplit : done ++ h :: l = (done ++ [h]) ++ l := by simp
    have hh : h ∉ done ∧ h ∉ l := by
      rw [List.nodup_append] at hnodup
      exact ⟨fun hd => hnodup.2.2 h hd h List.mem_cons_self rfl, (List.nodup_cons.mp hnodup.2.1).1⟩
    have hkept : ∀ r ∈ done, assign g (h, s) r = g r := fun r hr =>
      assign_of_ne fun hrh : r = h => hh.1 (hrh ▸ hr)
    have hinj : Set.InjOn (assign g (h, s)) {r | r ∈ done ++ h :: l} := by
      refine assign_injOn hg fun r hr hne hrs => ?_
      rcases List.mem_append.mp hr with hr | hr
      · exact absurd (hdone r hr) (by omega)
      · obtain ⟨j, hj⟩ := List.mem_iff_getElem?.mp ((List.mem_cons.mp hr).resolve_left hne)
        have hle := hrest (j + 1) r hj
        omega
    rw [hsplit] at hnodup hinj
    have hdone' : ∀ r ∈ done ++ [h], assign g (h, s) r < s + 1 := by
      intro r hr
      rcases List.mem_append.mp hr with hr | hr
      · rw [hkept r hr]
        exact (hdone r hr).trans (Nat.lt_succ_self s)
      · obtain rfl := List.mem_singleton.mp hr
        rw [assign_self]
        exact Nat.lt_succ_self s
    have hrest' : ∀ j r, l[j]? = some r → s + 1 + j ≤ assign g (h, s) r := by
      intro j r hr
      rw [assign_of_ne fun hrh : r = h => hh.2 (hrh ▸ List.mem_of_getElem? hr)]
      have hle := hrest (j + 1) r hr
      omega
    obtain ⟨htake, hstay, hnumbers⟩ := ih hnodup hinj hdone' hrest'
    refine ⟨fun k => ?_, fun r hr => ?_, hnumbers.of_cons ?_⟩
    · cases k with
      | zero => exact hg
      | succ k =>
        rw [hsplit, List.zipIdx_cons, List.take_succ_cons]
        exact htake k
    · rw [List.zipIdx_cons]
      exact (hstay r (List.mem_append_left _ hr)).trans (hkept r hr)
    · exact (hstay h (List.mem_append_right _ (List.mem_singleton_self h))).trans (assign_self (h, s))

/-- All are numbered from the front. -/
theorem forward_all (hnodup : l.Nodup) (hg : Set.InjOn g {r | r ∈ l})
    (hrest : ∀ j r, l[j]? = some r → s + j ≤ g r) :
    (∀ k, Set.InjOn (assignAll g ((l.zipIdx s).take k)) {r | r ∈ l}) ∧ Numbers s l (assignAll g (l.zipIdx s)) := by
  obtain ⟨htake, -, hnumbers⟩ := forward (l := l) (show ([] ++ l).Nodup from hnodup) hg
    (fun r hr => absurd hr List.not_mem_nil) hrest
  exact ⟨htake, hnumbers⟩

/-- **From the back**: what is numbered already is above, and what is not is at its new place or below, or past the
end. -/
theorem backward {done : List κ} {top : ℕ} (hnodup : (l ++ done).Nodup) (hg : Set.InjOn g {r | r ∈ l ++ done})
    (hdone : ∀ r ∈ done, s + l.length ≤ g r) (hrest : ∀ j r, l[j]? = some r → g r ≤ s + j ∨ top < g r)
    (htop : s + l.length ≤ top + 1) :
    (∀ k, Set.InjOn (assignAll g ((l.zipIdx s).reverse.take k)) {r | r ∈ l ++ done}) ∧
      (∀ r ∈ done, assignAll g (l.zipIdx s).reverse r = g r) ∧ Numbers s l (assignAll g (l.zipIdx s).reverse) := by
  induction l using List.reverseRecOn generalizing done g with
  | nil =>
    exact ⟨fun k => by rw [List.zipIdx_nil, List.reverse_nil, List.take_nil]; exact hg, fun _ _ => rfl,
      Numbers.nil⟩
  | append_singleton l h ih =>
    have hlength : (l ++ [h]).length = l.length + 1 := List.length_append
    have hsplit : l ++ [h] ++ done = l ++ h :: done := by simp
    have hupdates : ((l ++ [h]).zipIdx s).reverse = (h, s + l.length) :: (l.zipIdx s).reverse := by
      rw [List.zipIdx_append, List.reverse_append]
      rfl
    rw [hsplit] at hnodup hg
    rw [hsplit, hupdates]
    have hh : h ∉ l ∧ h ∉ done := by
      rw [List.nodup_append] at hnodup
      exact ⟨fun hl => hnodup.2.2 h hl h List.mem_cons_self rfl, (List.nodup_cons.mp hnodup.2.1).1⟩
    have hinj : Set.InjOn (assign g (h, s + l.length)) {r | r ∈ l ++ h :: done} := by
      refine assign_injOn hg fun r hr hne hrs => ?_
      have hrs : g r = s + l.length := hrs
      rcases List.mem_append.mp hr with hr | hr
      · obtain ⟨j, hj⟩ := List.mem_iff_getElem?.mp hr
        have hlt := (List.getElem?_eq_some_iff.mp hj).1
        have hle := hrest j r (by rw [List.getElem?_append_left hlt, hj])
        omega
      · have hle := hdone r ((List.mem_cons.mp hr).resolve_left hne)
        omega
    have hdone' : ∀ r ∈ h :: done, s + l.length ≤ assign g (h, s + l.length) r := by
      intro r hr
      by_cases hrh : r = h
      · rw [hrh]
        exact (assign_self (h, s + l.length)).ge
      · rw [assign_of_ne hrh]
        have hle := hdone r ((List.mem_cons.mp hr).resolve_left hrh)
        omega
    have hrest' : ∀ j r, l[j]? = some r → assign g (h, s + l.length) r ≤ s + j ∨
        top < assign g (h, s + l.length) r := by
      intro j r hr
      have hlt := (List.getElem?_eq_some_iff.mp hr).1
      rw [assign_of_ne fun hrh : r = h => hh.1 (hrh ▸ List.mem_of_getElem? hr)]
      exact hrest j r (by rw [List.getElem?_append_left hlt, hr])
    obtain ⟨htake, hstay, hnumbers⟩ := ih hnodup hinj hdone' hrest' (by omega)
    refine ⟨fun k => ?_, fun r hr => ?_, fun j r hr => ?_⟩
    · cases k with
      | zero => exact hg
      | succ k => exact htake k
    · exact (hstay r (List.mem_cons_of_mem _ hr)).trans
        (assign_of_ne fun hrh : r = h => hh.2 (hrh ▸ hr))
    · rcases Nat.lt_or_ge j l.length with hj | hj
      · rw [List.getElem?_append_left hj] at hr
        exact hnumbers j r hr
      · have hlt := (List.getElem?_eq_some_iff.mp hr).1
        obtain rfl : j = l.length := by omega
        rw [List.getElem?_concat_length] at hr
        obtain rfl := Option.some.inj hr
        exact (hstay h List.mem_cons_self).trans (assign_self (h, s + l.length))

/-- All are numbered from the back. -/
theorem backward_all {top : ℕ} (hnodup : l.Nodup) (hg : Set.InjOn g {r | r ∈ l})
    (hrest : ∀ j r, l[j]? = some r → g r ≤ s + j ∨ top < g r) (htop : s + l.length ≤ top + 1) :
    (∀ k, Set.InjOn (assignAll g ((l.zipIdx s).reverse.take k)) {r | r ∈ l}) ∧
      Numbers s l (assignAll g (l.zipIdx s).reverse) := by
  have hnil : l ++ [] = l := List.append_nil l
  obtain ⟨htake, -, hnumbers⟩ := backward (l := l) (show (l ++ []).Nodup by rwa [hnil]) (by rwa [hnil])
    (fun r hr => absurd hr List.not_mem_nil) hrest htop
  rw [hnil] at htake
  exact ⟨htake, hnumbers⟩

/-! ## A move -/

/-- The assignments of a move from the number `p` to the number `q`. -/
def updates (l : List κ) (x : κ) (p q : ℕ) : List (κ × ℕ) :=
  (x, l.length + 1) ::
    if q < p then ((moveTo (q - 1) x l).zipIdx 1).reverse else (moveTo (q - 1) x l).zipIdx 1

/-- An item in the old order and in the new one. -/
theorem getElem?_moveTo {before after : List κ} (hx : x ∉ before) {i j : ℕ} {r : κ}
    (hi : i ≤ (before ++ after).length) (hr : (moveTo i x (before ++ x :: after))[j]? = some r) :
    j = i ∧ r = x ∨ ∃ j', (before ++ x :: after)[j']? = some r ∧ j' ≠ before.length ∧
      (j' = j ∧ (j < before.length ∧ j < i ∨ before.length < j ∧ i < j) ∨
        j' = j + 1 ∧ before.length ≤ j ∧ j < i ∨ j' + 1 = j ∧ j' < before.length ∧ i < j) := by
  have herase : (before ++ x :: after).erase x = before ++ after := by
    rw [List.erase_append_right _ hx, List.erase_cons_head]
  have hold : ∀ m, (before ++ after)[m]? = some r → ∃ j', (before ++ x :: after)[j']? = some r ∧
      (j' = m ∧ m < before.length ∨ j' = m + 1 ∧ before.length ≤ m) := by
    intro m hm
    rcases Nat.lt_or_ge m before.length with hlt | hge
    · rw [List.getElem?_append_left hlt] at hm
      exact ⟨m, by rw [List.getElem?_append_left hlt, hm], Or.inl ⟨rfl, hlt⟩⟩
    · rw [List.getElem?_append_right hge] at hm
      refine ⟨m + 1, ?_, Or.inr ⟨rfl, hge⟩⟩
      rw [List.getElem?_append_right (by omega), Nat.sub_add_comm hge, List.getElem?_cons_succ, hm]
  have htake : ((before ++ after).take i).length = i := by rw [List.length_take, min_eq_left hi]
  rw [moveTo, herase] at hr
  rcases lt_trichotomy j i with hj | rfl | hj
  · rw [List.getElem?_append_left (by omega), List.getElem?_take_of_lt hj] at hr
    obtain ⟨j', hj', hcase⟩ := hold j hr
    exact Or.inr ⟨j', hj', by omega, by omega⟩
  · rw [List.getElem?_append_right (by omega), htake, Nat.sub_self, List.getElem?_cons_zero] at hr
    exact Or.inl ⟨rfl, (Option.some.inj hr).symm⟩
  · rw [List.getElem?_append_right (by omega), htake, show j - i = j - i - 1 + 1 by omega, List.getElem?_cons_succ,
      List.getElem?_drop, show i + (j - i - 1) = j - 1 by omega] at hr
    obtain ⟨j', hj', hcase⟩ := hold (j - 1) hr
    exact Or.inr ⟨j', hj', by omega, by omega⟩

/-- **A move never gives two items one number**, and numbers them by the new order. -/
theorem move_spec (hl : l.Nodup) (hg : Numbers 1 l g) (hx : x ∈ l) {q : ℕ} (hq : 1 ≤ q) (hle : q ≤ l.length)
    (hne : g x ≠ q) :
    (∀ k, Set.InjOn (assignAll g ((updates l x (g x) q).take k)) {r | r ∈ l}) ∧
      Numbers 1 (moveTo (q - 1) x l) (assignAll g (updates l x (g x) q)) := by
  obtain ⟨before, after, rfl⟩ := List.append_of_mem hx
  have hnot : x ∉ before := fun h => (List.nodup_append.mp hl).2.2 x h x List.mem_cons_self rfl
  have hgx : g x = 1 + before.length := hg _ _ (by rw [List.getElem?_append_right le_rfl, Nat.sub_self]; rfl)
  have hlength : (before ++ x :: after).length = (before ++ after).length + 1 := by simp; omega
  have hmem : ∀ r, r ∈ before ++ x :: after ↔ r ∈ moveTo (q - 1) x (before ++ x :: after) := fun r =>
    (moveTo_perm (q - 1) hx).mem_iff.symm
  have hnodup : (moveTo (q - 1) x (before ++ x :: after)).Nodup := (moveTo_perm (q - 1) hx).nodup_iff.mpr hl
  set n := (before ++ x :: after).length with hn
  set g₁ := assign g (x, n + 1) with hg₁
  -- the numbers after the item is past the end
  have hold : ∀ {j' : ℕ} {r : κ}, (before ++ x :: after)[j']? = some r → j' ≠ before.length → g₁ r = 1 + j' := by
    intro j' r hr hj'
    have hrx : r ≠ x := by
      rintro rfl
      refine hj' ?_
      have hhere : (before ++ r :: after)[before.length]? = some r := by
        rw [List.getElem?_append_right le_rfl, Nat.sub_self]
        rfl
      exact (List.getElem?_inj (List.getElem?_eq_some_iff.mp hr).1 hl).mp (hr.trans hhere.symm)
    rw [hg₁, assign_of_ne hrx, hg j' r hr]
  have hself : g₁ x = n + 1 := assign_self (x, n + 1)
  have hinj₁ : Set.InjOn g₁ {r | r ∈ before ++ x :: after} := by
    refine assign_injOn hg.injOn fun r hr _ hrn => ?_
    obtain ⟨j, hj⟩ := List.mem_iff_getElem?.mp hr
    have hlt := (List.getElem?_eq_some_iff.mp hj).1
    have heq := hg j r hj
    have hrn : g r = n + 1 := hrn
    omega
  have hset : {r | r ∈ moveTo (q - 1) x (before ++ x :: after)} = {r | r ∈ before ++ x :: after} :=
    Set.ext fun r => (hmem r).symm
  have hinj' : Set.InjOn g₁ {r | r ∈ moveTo (q - 1) x (before ++ x :: after)} := hset ▸ hinj₁
  have hfinish : ∀ us : List (κ × ℕ), (∀ k, Set.InjOn (assignAll g₁ (us.take k)) {r | r ∈ before ++ x :: after}) →
      ∀ k, Set.InjOn (assignAll g (((x, n + 1) :: us).take k)) {r | r ∈ before ++ x :: after} := by
    intro us hus k
    cases k with
    | zero => exact hg.injOn
    | succ k => exact hus k
  rw [updates]
  split
  · rename_i hlt
    have hrest : ∀ j r, (moveTo (q - 1) x (before ++ x :: after))[j]? = some r → g₁ r ≤ 1 + j ∨ n < g₁ r := by
      intro j r hr
      rcases getElem?_moveTo hnot (by omega) hr with ⟨rfl, rfl⟩ | ⟨j', hj', hne', hcase⟩
      · exact Or.inr (by omega)
      · have heq := hold hj' hne'
        exact Or.inl (by omega)
    obtain ⟨htake, hnumbers⟩ := backward_all hnodup hinj' hrest (by rw [length_moveTo _ hx]; omega)
    exact ⟨hfinish _ fun k => by rw [← hset]; exact htake k, hnumbers⟩
  · rename_i hge
    have hrest : ∀ j r, (moveTo (q - 1) x (before ++ x :: after))[j]? = some r → 1 + j ≤ g₁ r := by
      intro j r hr
      rcases getElem?_moveTo hnot (by omega) hr with ⟨rfl, rfl⟩ | ⟨j', hj', hne', hcase⟩
      · omega
      · have heq := hold hj' hne'
        omega
    obtain ⟨htake, hnumbers⟩ := forward_all hnodup hinj' hrest
    exact ⟨hfinish _ fun k => by rw [← hset]; exact htake k, hnumbers⟩

end Decidable

end Moves
