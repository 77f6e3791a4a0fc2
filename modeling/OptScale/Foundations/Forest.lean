import Mathlib

/-!
# Foundations/Forest — amounts on a forest of rows

Rows name their parents by key, and no chain of parents comes back (`IsForest`).  An amount on the
rows **covers** the children when no row has less than its children together.  Where one row gets a
new amount, a climb along its ancestors that raises each to the sum of its children makes the rest
cover again (`Climb.covers`), and how far it raises them is read off before it starts: the amount and
what lies `Beside` the row and its ancestors (`Climb.le_iff`).
-/

namespace Forest

variable {α κ : Type*}

/-- **A forest**: keys are given once, parents are there, and a rank falls along them. -/
structure IsForest (key : α → κ) (parent : α → Option κ) (rows : List α) : Prop where
  nodup : (rows.map key).Nodup
  closed : ∀ r ∈ rows, ∀ a, parent r = some a → ∃ q ∈ rows, key q = a
  ranked : ∃ rank : κ → ℕ, ∀ r ∈ rows, ∀ a, parent r = some a → rank a < rank (key r)

variable {key : α → κ} {parent : α → Option κ} {rows : List α} {f g f₀ : α → ℤ}

theorem IsForest.eq_of_key (h : IsForest key parent rows) {r q : α} (hr : r ∈ rows) (hq : q ∈ rows)
    (hkey : key r = key q) : r = q :=
  List.inj_on_of_nodup_map h.nodup hr hq hkey

/-- **Induction from the root**: what holds above a row's parent holds above the row. -/
theorem IsForest.up_induction (h : IsForest key parent rows) {motive : Option κ → Prop}
    (hroot : motive none) (hup : ∀ p ∈ rows, motive (parent p) → motive (some (key p)))
    {a : Option κ} (ha : ∀ k ∈ a, ∃ p ∈ rows, key p = k) : motive a := by
  obtain ⟨rank, hrank⟩ := h.ranked
  have hlevel : ∀ n, ∀ p ∈ rows, rank (key p) < n → motive (some (key p)) := by
    intro n
    induction n with
    | zero => exact fun p _ h => absurd h (Nat.not_lt_zero _)
    | succ n ih =>
      intro p hp hn
      refine hup p hp ?_
      cases hpar : parent p with
      | none => exact hroot
      | some b =>
        obtain ⟨q, hq, rfl⟩ := h.closed p hp b hpar
        have hlt := hrank p hp _ hpar
        exact ih q hq (by omega)
  cases a with
  | none => exact hroot
  | some k =>
    obtain ⟨p, hp, rfl⟩ := ha k rfl
    exact hlevel _ p hp (Nat.lt_succ_self _)

variable [DecidableEq κ]

/-- A row is found by its key. -/
theorem IsForest.find?_key (h : IsForest key parent rows) {objects : List α}
    (hsub : ∀ q ∈ objects, q ∈ rows) {r : α} (hr : r ∈ objects) :
    (objects.find? fun q => key q = key r) = some r := by
  cases hfind : objects.find? fun q => decide (key q = key r) with
  | none => exact absurd (decide_eq_true rfl) (List.find?_eq_none.mp hfind r hr)
  | some q =>
    have hkey : key q = key r := by simpa using List.find?_some hfind
    rw [h.eq_of_key (hsub q (List.mem_of_find?_eq_some hfind)) (hsub r hr) hkey]

/-! ## Sums over children -/

variable (parent rows) in
/-- The amounts of the children of `a`. -/
def childSum (f : α → ℤ) (a : κ) : ℤ := ((rows.filter fun r => parent r = some a).map f).sum

variable (key parent rows) in
/-- The amounts of the children of `a` but for `c`. -/
def siblingSum (f : α → ℤ) (a c : κ) : ℤ :=
  ((rows.filter fun r => parent r = some a ∧ key r ≠ c).map f).sum

variable (key parent rows) in
/-- **No row has less than its children together.** -/
def Covers (f : α → ℤ) : Prop := ∀ r ∈ rows, childSum parent rows f (key r) ≤ f r

theorem childSum_congr {a : κ} (h : ∀ r ∈ rows, parent r = some a → f r = g r) :
    childSum parent rows f a = childSum parent rows g a := by
  unfold childSum
  congr 1
  refine List.map_congr_left fun r hr => ?_
  obtain ⟨hmem, hpar⟩ := List.mem_filter.mp hr
  exact h r hmem (of_decide_eq_true hpar)

theorem childSum_mono {a : κ} (h : ∀ r ∈ rows, parent r = some a → f r ≤ g r) :
    childSum parent rows f a ≤ childSum parent rows g a := by
  refine List.sum_le_sum fun r hr => ?_
  obtain ⟨hmem, hpar⟩ := List.mem_filter.mp hr
  exact h r hmem (of_decide_eq_true hpar)

theorem siblingSum_congr {a c : κ} (h : ∀ r ∈ rows, parent r = some a → key r ≠ c → f r = g r) :
    siblingSum key parent rows f a c = siblingSum key parent rows g a c := by
  unfold siblingSum
  congr 1
  refine List.map_congr_left fun r hr => ?_
  obtain ⟨hmem, hpar⟩ := List.mem_filter.mp hr
  obtain ⟨hpar, hne⟩ := of_decide_eq_true hpar
  exact h r hmem hpar hne

theorem siblingSum_mono {a c : κ} (h : ∀ r ∈ rows, parent r = some a → key r ≠ c → f r ≤ g r) :
    siblingSum key parent rows f a c ≤ siblingSum key parent rows g a c := by
  refine List.sum_le_sum fun r hr => ?_
  obtain ⟨hmem, hpar⟩ := List.mem_filter.mp hr
  obtain ⟨hpar, hne⟩ := of_decide_eq_true hpar
  exact h r hmem hpar hne

/-- **A child and its siblings** are the children. -/
theorem siblingSum_add (hnodup : (rows.map key).Nodup) {r : α} (hr : r ∈ rows) {a : κ}
    (hpar : parent r = some a) :
    siblingSum key parent rows f a (key r) + f r = childSum parent rows f a := by
  induction rows with
  | nil => exact absurd hr List.not_mem_nil
  | cons q rows ih =>
    obtain ⟨hq, hrows⟩ := List.nodup_cons.mp hnodup
    obtain rfl | hr := List.mem_cons.mp hr
    · have hrest : (rows.filter fun x => parent x = some a ∧ key x ≠ key r) =
          rows.filter fun x => parent x = some a := by
        refine List.filter_congr fun x hx => ?_
        have hne : key x ≠ key r := fun h => hq (h ▸ List.mem_map_of_mem hx)
        simp [hne]
      rw [siblingSum, childSum, List.filter_cons_of_neg (by simp),
        List.filter_cons_of_pos (by simpa using hpar), hrest, List.map_cons, List.sum_cons, add_comm]
    · have hne : key q ≠ key r := fun h => hq (h ▸ List.mem_map_of_mem hr)
      have ih := ih hrows hr
      unfold siblingSum childSum at ih ⊢
      by_cases hqa : parent q = some a
      · rw [List.filter_cons_of_pos (by simp [hqa, hne]), List.filter_cons_of_pos (by simp [hqa])]
        simp only [List.map_cons, List.sum_cons]
        omega
      · rw [List.filter_cons_of_neg (by simp [hqa]), List.filter_cons_of_neg (by simp [hqa])]
        exact ih

/-- Who is no child of `a` is one of the siblings of nobody there. -/
theorem siblingSum_of_not_child {a c : κ} (h : ∀ r ∈ rows, key r = c → parent r ≠ some a) :
    siblingSum key parent rows f a c = childSum parent rows f a := by
  unfold siblingSum childSum
  congr 2
  refine List.filter_congr fun r hr => ?_
  by_cases hpar : parent r = some a
  · have hne : key r ≠ c := fun hkey => h r hr hkey hpar
    simp [hpar, hne]
  · simp [hpar]

/-! ## Rows that keep their keys and parents -/

section Map

variable {φ : α → α}

theorem childSum_map (φ : α → α) (hparent : ∀ r ∈ rows, parent (φ r) = parent r) {a : κ} :
    childSum parent (rows.map φ) f a = childSum parent rows (fun r => f (φ r)) a := by
  unfold childSum
  rw [List.filter_map, List.map_map]
  congr 2
  refine List.filter_congr fun r hr => ?_
  simp [hparent r hr]

omit [DecidableEq κ] in
/-- **Changed rows are a forest still**, if keys and parents are kept. -/
theorem IsForest.map (h : IsForest key parent rows) (hkey : ∀ r ∈ rows, key (φ r) = key r)
    (hparent : ∀ r ∈ rows, parent (φ r) = parent r) : IsForest key parent (rows.map φ) where
  nodup := by
    rw [List.map_map]
    exact (List.map_congr_left hkey) ▸ h.nodup
  closed := by
    intro x hx a hpar
    obtain ⟨r, hr, rfl⟩ := List.mem_map.mp hx
    obtain ⟨q, hq, hqa⟩ := h.closed r hr a (hparent r hr ▸ hpar)
    exact ⟨φ q, List.mem_map_of_mem hq, (hkey q hq).trans hqa⟩
  ranked := by
    obtain ⟨rank, hrank⟩ := h.ranked
    refine ⟨rank, fun x hx a hpar => ?_⟩
    obtain ⟨r, hr, rfl⟩ := List.mem_map.mp hx
    rw [hkey r hr]
    exact hrank r hr a (hparent r hr ▸ hpar)

/-- **A new leaf** makes a forest of a forest. -/
theorem IsForest.concat (h : IsForest key parent rows) {r : α} (hr : key r ∉ rows.map key)
    (hclosed : ∀ a, parent r = some a → ∃ q ∈ rows, key q = a) :
    IsForest key parent (rows ++ [r]) where
  nodup := by
    rw [List.map_append, List.nodup_append]
    refine ⟨h.nodup, List.nodup_singleton _, fun x hx y hy hxy => ?_⟩
    obtain rfl : y = key r := by simpa using hy
    exact hr (hxy ▸ hx)
  closed := by
    intro q hq a hpar
    obtain hq | hq := List.mem_append.mp hq
    · obtain ⟨p, hp, hpa⟩ := h.closed q hq a hpar
      exact ⟨p, List.mem_append_left _ hp, hpa⟩
    · obtain rfl := List.mem_singleton.mp hq
      obtain ⟨p, hp, hpa⟩ := hclosed a hpar
      exact ⟨p, List.mem_append_left _ hp, hpa⟩
  ranked := by
    obtain ⟨rank, hrank⟩ := h.ranked
    have hne : ∀ q ∈ rows, key q ≠ key r := fun q hq hkey => hr (hkey ▸ List.mem_map_of_mem hq)
    refine ⟨fun k => if k = key r then (parent r).elim 0 (fun a => rank a + 1) else rank k,
      fun q hq a hpar => ?_⟩
    have ha : a ≠ key r := by
      rintro rfl
      obtain hq | hq := List.mem_append.mp hq
      · obtain ⟨p, hp, hpa⟩ := h.closed q hq _ hpar
        exact hne p hp hpa
      · obtain rfl := List.mem_singleton.mp hq
        obtain ⟨p, hp, hpa⟩ := hclosed _ hpar
        exact hne p hp hpa
    simp only [if_neg ha]
    obtain hq | hq := List.mem_append.mp hq
    · rw [if_neg (hne q hq)]
      exact hrank q hq a hpar
    · obtain rfl := List.mem_singleton.mp hq
      rw [if_pos rfl, hpar]
      exact Nat.lt_succ_self _

theorem childSum_concat {r : α} {a : κ} : childSum parent (rows ++ [r]) f a =
    childSum parent rows f a + if parent r = some a then f r else 0 := by
  unfold childSum
  rw [List.filter_append, List.map_append, List.sum_append]
  by_cases hpar : parent r = some a
  · simp [hpar]
  · simp [hpar]

theorem siblingSum_concat {r : α} {a c : κ} : siblingSum key parent (rows ++ [r]) f a c =
    siblingSum key parent rows f a c + if parent r = some a ∧ key r ≠ c then f r else 0 := by
  unfold siblingSum
  rw [List.filter_append, List.map_append, List.sum_append]
  by_cases hpar : parent r = some a ∧ key r ≠ c
  · simp [hpar]
  · simp [hpar]

end Map

/-! ## What lies beside a row and its ancestors -/

variable (key parent rows f) in
/-- **The amounts beside** `c`, whose parent is `a`: those of its siblings, of its parent's siblings,
and so on to the root. -/
inductive Beside : Option κ → κ → ℤ → Prop
  | root (c : κ) : Beside none c 0
  | level {p : α} {a c : κ} {s : ℤ} (hp : p ∈ rows) (ha : key p = a) (h : Beside (parent p) a s) :
      Beside (some a) c (siblingSum key parent rows f a c + s)

/-- **In a forest there is an end to what lies beside.** -/
theorem IsForest.exists_beside (h : IsForest key parent rows) {a : Option κ}
    (ha : ∀ k ∈ a, ∃ p ∈ rows, key p = k) (c : κ) : ∃ s, Beside key parent rows f a c s := by
  refine h.up_induction (motive := fun a => ∀ c, ∃ s, Beside key parent rows f a c s)
    (fun c => ⟨0, .root c⟩) (fun p hp ih c => ?_) ha c
  obtain ⟨s, hs⟩ := ih (key p)
  exact ⟨_, .level hp rfl hs⟩

/-- What lies beside a row is one amount. -/
theorem Beside.unique (hforest : IsForest key parent rows) {a : Option κ} {c : κ} {s : ℤ}
    (h : Beside key parent rows f a c s) : ∀ {s' : ℤ}, Beside key parent rows f a c s' → s = s' := by
  induction h with
  | root c =>
    intro s' h'
    cases h'
    rfl
  | level hp ha h ih =>
    rename_i p a c s
    intro s' h'
    obtain - | ⟨hq, hqa, h'⟩ := h'
    obtain rfl := hforest.eq_of_key hq hp (hqa.trans ha.symm)
    rw [ih h']

theorem Beside.nonneg (hf : ∀ r ∈ rows, 0 ≤ f r) {a : Option κ} {c : κ} {s : ℤ}
    (h : Beside key parent rows f a c s) : 0 ≤ s := by
  induction h with
  | root c => exact le_rfl
  | level hp ha h ih =>
    refine add_nonneg (List.sum_nonneg fun x hx => ?_) ih
    obtain ⟨r, hr, rfl⟩ := List.mem_map.mp hx
    exact hf r (List.mem_of_mem_filter hr)

/-- A new leaf without an amount lies beside nothing. -/
theorem Beside.concat {r : α} (hfg : ∀ q ∈ rows, f q = g q) (hr : g r = 0) {a : Option κ} {c : κ}
    {s : ℤ} (h : Beside key parent rows f a c s) : Beside key parent (rows ++ [r]) g a c s := by
  induction h with
  | root c => exact .root c
  | level hp ha h ih =>
    rename_i p a c s
    have hsib : siblingSum key parent rows f a c = siblingSum key parent (rows ++ [r]) g a c := by
      rw [siblingSum_concat, hr, ite_self, add_zero]
      exact siblingSum_congr fun q hq _ _ => hfg q hq
    rw [hsib]
    exact .level (List.mem_append_left _ hp) ha ih

/-- **Where amounts cover**, a row and what lies beside it stay below any bound on the amounts. -/
theorem Beside.le_of_covers (hforest : IsForest key parent rows) (hf : Covers key parent rows f)
    {M : ℤ} (hM : ∀ r ∈ rows, f r ≤ M) {a : Option κ} {c : κ} {s : ℤ}
    (h : Beside key parent rows f a c s) :
    ∀ r ∈ rows, key r = c → parent r = a → f r + s ≤ M := by
  induction h with
  | root c =>
    intro r hr _ _
    rw [add_zero]
    exact hM r hr
  | level hp ha h ih =>
    rename_i p a c s
    intro r hr hc hpar
    subst ha hc
    have hsum := siblingSum_add (f := f) hforest.nodup hr hpar
    have hcover := hf p hp
    have hle := ih p hp rfl rfl
    omega

/-! ## Climbing -/

variable (key parent rows) in
/-- One row gets the sum of its children, if that is more. -/
def raise (f : α → ℤ) (a : κ) : α → ℤ :=
  fun r => if key r = a then max (f r) (childSum parent rows f a) else f r

variable (key parent rows) in
/-- **A climb** from `a` to the root raises what it meets. -/
inductive Climb : Option κ → (α → ℤ) → (α → ℤ) → Prop
  | done (f : α → ℤ) : Climb none f f
  | level {p : α} {a : κ} {f f' g : α → ℤ} (hp : p ∈ rows) (ha : key p = a)
      (hf : ∀ r ∈ rows, f' r = raise key parent rows f a r) (h : Climb (parent p) f' g) :
    Climb (some a) f g

variable (key parent rows) in
/-- The rows a climb from `a` meets. -/
inductive Above : Option κ → α → Prop
  | here {p : α} (hp : p ∈ rows) : Above (some (key p)) p
  | up {p r : α} (hp : p ∈ rows) (h : Above (parent p) r) : Above (some (key p)) r

theorem le_raise {a : κ} (r : α) : f r ≤ raise key parent rows f a r := by
  unfold raise
  split
  · exact le_max_left _ _
  · exact le_rfl

theorem raise_of_ne {a : κ} {r : α} (h : key r ≠ a) : raise key parent rows f a r = f r := if_neg h

/-- **From every row there is a climb.** -/
theorem IsForest.exists_climb (h : IsForest key parent rows) {a : Option κ}
    (ha : ∀ k ∈ a, ∃ p ∈ rows, key p = k) (f : α → ℤ) : ∃ g, Climb key parent rows a f g := by
  refine h.up_induction (motive := fun a => ∀ f, ∃ g, Climb key parent rows a f g)
    (fun f => ⟨f, .done f⟩) (fun p hp ih f => ?_) ha f
  obtain ⟨g, hg⟩ := ih (raise key parent rows f (key p))
  exact ⟨g, .level hp rfl (fun _ _ => rfl) hg⟩

namespace Climb

variable {a : Option κ}

/-- A climb lowers nothing. -/
theorem le (h : Climb key parent rows a f g) {r : α} (hr : r ∈ rows) : f r ≤ g r := by
  induction h with
  | done => exact le_rfl
  | level hp ha hf h ih => exact (le_raise r).trans ((hf r hr).symm.le.trans ih)

/-- **A climb finds one amount** for each row. -/
theorem unique (hforest : IsForest key parent rows) (h : Climb key parent rows a f g) :
    ∀ {f' g' : α → ℤ}, (∀ r ∈ rows, f r = f' r) → Climb key parent rows a f' g' →
      ∀ r ∈ rows, g r = g' r := by
  induction h with
  | done =>
    intro f' g' hff h'
    cases h'
    exact hff
  | level hp ha hf h ih =>
    rename_i p a f f₁ g
    intro f' g' hff h'
    obtain - | ⟨hq, hqa, hf', h'⟩ := h'
    obtain rfl := hforest.eq_of_key hq hp (hqa.trans ha.symm)
    refine ih (fun r hr => ?_) h'
    rw [hf r hr, hf' r hr, raise, raise, hff r hr, childSum_congr fun q hq _ => hff q hq]

/-- The row a climb starts from covers its children at once. -/
theorem first_le {p : α} (hp : p ∈ rows) (h : Climb key parent rows (some (key p)) f g) :
    childSum parent rows f (key p) ≤ g p := by
  obtain - | ⟨hq, hqp, hf, h⟩ := h
  have hle := h.le hp
  rw [hf p hp, raise, if_pos rfl] at hle
  exact (le_max_right _ _).trans hle

/-- **What a climb leaves**: it makes cover what it meets, and what covered covers still.  Only the row
the climb is about may be left. -/
theorem covers (hforest : IsForest key parent rows) (h : Climb key parent rows a f g) {k : κ}
    (hf : ∀ r ∈ rows, key r ≠ k → some (key r) ≠ a → childSum parent rows f (key r) ≤ f r) :
    ∀ r ∈ rows, key r ≠ k → childSum parent rows g (key r) ≤ g r := by
  induction h with
  | done => exact fun r hr hk => hf r hr hk (by simp)
  | level hp ha hraise h ih =>
    rename_i p a f f' g
    subst ha
    refine ih fun r hr hk hne => ?_
    have hsame : childSum parent rows f' (key r) = childSum parent rows f (key r) := by
      refine childSum_congr fun q hq hpar => ?_
      rw [hraise q hq, raise_of_ne fun hkey => ?_]
      obtain rfl := hforest.eq_of_key hq hp hkey
      exact hne hpar.symm
    rw [hsame, hraise r hr]
    by_cases hkey : key r = key p
    · rw [raise, if_pos hkey, hkey]
      exact le_max_right _ _
    · rw [raise_of_ne hkey]
      exact hf r hr hk fun h => hkey (Option.some.inj h)

section Ranked

variable {rank : κ → ℕ} (hrank : ∀ r ∈ rows, ∀ b, parent r = some b → rank b < rank (key r))
include hrank

/-- A climb meets nothing of a higher rank than it starts from. -/
theorem eq_of_rank (h : Climb key parent rows a f g) {r : α} (hr : r ∈ rows)
    (hlt : ∀ b ∈ a, rank b < rank (key r)) : g r = f r := by
  induction h with
  | done => rfl
  | level hp ha hf h ih =>
    rename_i p a f f' g
    subst ha
    have hlt : rank (key p) < rank (key r) := hlt _ rfl
    rw [ih fun b hb => (hrank p hp b hb).trans hlt, hf r hr, raise_of_ne fun h => ?_]
    rw [h] at hlt
    omega

/-- **What a climb changes** it raises, on its way, to the sum of the children as they are in the end. -/
theorem raised (hforest : IsForest key parent rows) (h : Climb key parent rows a f g) :
    ∀ r ∈ rows, g r ≠ f r →
      Above key parent rows a r ∧ f r < g r ∧ g r = childSum parent rows g (key r) := by
  induction h with
  | done => exact fun r _ hne => absurd rfl hne
  | level hp ha hf h ih =>
    rename_i p a f f' g
    subst ha
    intro r hr hne
    by_cases hkey : key r = key p
    · obtain rfl := hforest.eq_of_key hr hp hkey
      have hself : g r = max (f r) (childSum parent rows f (key r)) := by
        rw [h.eq_of_rank hrank hr fun b hb => hrank r hr b hb, hf r hr, raise, if_pos rfl]
      have hchildren : childSum parent rows g (key r) = childSum parent rows f (key r) := by
        refine childSum_congr fun q hq hpar => ?_
        have hlt := hrank q hq _ hpar
        rw [h.eq_of_rank hrank hq fun b hb => (hrank r hr b hb).trans hlt, hf q hq,
          raise_of_ne fun hkey => ?_]
        rw [hkey] at hlt
        omega
      rw [hchildren]
      exact ⟨.here hr, by omega, by omega⟩
    · have hsame : f' r = f r := by rw [hf r hr, raise_of_ne hkey]
      obtain ⟨habove, hlt, hsum⟩ := ih r hr (hsame ▸ hne)
      exact ⟨.up hp habove, hsame ▸ hlt, hsum⟩

/-- **What a climb reaches, from above**: `f` is `f₀` but for the rows the climb came by. -/
theorem le_of_beside (hforest : IsForest key parent rows) (hf₀ : Covers key parent rows f₀) {M : ℤ}
    (hM : ∀ r ∈ rows, f₀ r ≤ M) (hpos : ∀ r ∈ rows, 0 ≤ f₀ r) (h : Climb key parent rows a f g) :
    ∀ {r : α} {s : ℤ}, r ∈ rows → parent r = a → Beside key parent rows f₀ a (key r) s →
      f r + s ≤ M → (∀ q ∈ rows, f q ≤ M) →
      (∀ q ∈ rows, f q ≠ f₀ q → q = r ∨ ∃ b, parent q = some b ∧ ∀ k ∈ a, rank k < rank b) →
      ∀ q ∈ rows, g q ≤ M := by
  induction h with
  | done => exact fun _ _ _ _ hle _ => hle
  | level hp ha hraise h ih =>
    rename_i p a f f' g
    subst ha
    intro r s hr hpar hbeside hs hle hother
    obtain - | ⟨hp', hkey, hbeside⟩ := hbeside
    rename_i p' s'
    obtain rfl := hforest.eq_of_key hp' hp hkey
    have hrp := hrank r hr _ hpar
    have hsib : siblingSum key parent rows f₀ (key p') (key r) =
        siblingSum key parent rows f (key p') (key r) := by
      refine siblingSum_congr fun q hq hqpar hqne => ?_
      by_contra hdiff
      obtain rfl | ⟨b, hb, hlt⟩ := hother q hq (Ne.symm hdiff)
      · exact hqne rfl
      · obtain rfl := Option.some.inj (hqpar.symm.trans hb)
        exact lt_irrefl _ (hlt _ rfl)
    have hchild := siblingSum_add (f := f) hforest.nodup hr hpar
    have hp₀ : f p' = f₀ p' := by
      by_contra hdiff
      obtain rfl | ⟨b, hb, hlt⟩ := hother p' hp hdiff
      · exact lt_irrefl _ hrp
      · exact lt_asymm (hlt _ rfl) (hrank p' hp b hb)
    have hold := hbeside.le_of_covers hforest hf₀ hM p' hp rfl rfl
    have hraised : f' p' + s' ≤ M := by
      rw [hraise p' hp, raise, if_pos rfl]
      omega
    refine ih hp rfl hbeside hraised (fun q hq => ?_) fun q hq hdiff => ?_
    · by_cases hq' : key q = key p'
      · obtain rfl := hforest.eq_of_key hq hp hq'
        have hnonneg := hbeside.nonneg hpos
        omega
      · rw [hraise q hq, raise_of_ne hq']
        exact hle q hq
    · by_cases hq' : key q = key p'
      · exact Or.inl (hforest.eq_of_key hq hp hq')
      · rw [hraise q hq, raise_of_ne hq'] at hdiff
        right
        obtain rfl | ⟨b, hb, hlt⟩ := hother q hq hdiff
        · exact ⟨_, hpar, fun k hk => hrank p' hp k hk⟩
        · exact ⟨b, hb, fun k hk => (hrank p' hp k hk).trans (hlt _ rfl)⟩

end Ranked

/-- **What a climb reaches, from below**: what lies beside the row it is about is below its root. -/
theorem beside_le (hforest : IsForest key parent rows) {rank : κ → ℕ}
    (hrank : ∀ r ∈ rows, ∀ b, parent r = some b → rank b < rank (key r)) {p : α} (hp : p ∈ rows)
    (hg : ∀ r ∈ rows, r ≠ p → f₀ r ≤ g r)
    (hcovers : ∀ r ∈ rows, r ≠ p → childSum parent rows g (key r) ≤ g r) {M : ℤ}
    (hM : ∀ r ∈ rows, g r ≤ M) {c : κ} {s : ℤ} (h : Beside key parent rows f₀ a c s) :
    ∀ r ∈ rows, key r = c → parent r = a →
      (r = p ∨ ∃ b, parent p = some b ∧ rank c ≤ rank b) → g r + s ≤ M := by
  induction h with
  | root c =>
    intro r hr _ _ _
    rw [add_zero]
    exact hM r hr
  | level hq ha h ih =>
    rename_i q a c s
    subst ha
    intro r hr hc hpar hpath
    subst hc
    have hrq := hrank r hr _ hpar
    obtain ⟨b, hb, hqb⟩ : ∃ b, parent p = some b ∧ rank (key q) ≤ rank b := by
      obtain rfl | ⟨b, hb, hle⟩ := hpath
      · exact ⟨_, hpar, le_rfl⟩
      · exact ⟨b, hb, hrq.le.trans hle⟩
    have hbp := hrank p hp b hb
    have hqp : q ≠ p := fun h => by subst h; omega
    have hsib : siblingSum key parent rows f₀ (key q) (key r) ≤
        siblingSum key parent rows g (key q) (key r) := by
      refine siblingSum_mono fun x hx hxpar hxne => hg x hx fun hxp => ?_
      subst hxp
      obtain rfl | ⟨b', hb', hle⟩ := hpath
      · exact hxne rfl
      · obtain rfl := Option.some.inj (hxpar.symm.trans hb')
        omega
    have hchild := siblingSum_add (f := g) hforest.nodup hr hpar
    have hq' := hcovers q hq hqp
    have hle := ih q hq rfl rfl (Or.inr ⟨b, hb, hqb⟩)
    omega

/-- **How far a climb raises**: where amounts covered, and one row `p` got another amount, a climb from
its parent stays below a bound exactly when that amount and what lay beside it do. -/
theorem le_iff (hforest : IsForest key parent rows) (hf₀ : Covers key parent rows f₀) {M : ℤ}
    (hM : ∀ r ∈ rows, f₀ r ≤ M) (hpos : ∀ r ∈ rows, 0 ≤ f₀ r) {p : α} (hp : p ∈ rows)
    (hf : ∀ r ∈ rows, r ≠ p → f r = f₀ r) (h : Climb key parent rows (parent p) f g) {s : ℤ}
    (hs : Beside key parent rows f₀ (parent p) (key p) s) :
    (∀ r ∈ rows, g r ≤ M) ↔ f p + s ≤ M := by
  obtain ⟨rank, hrank⟩ := hforest.ranked
  have hgp : g p = f p := h.eq_of_rank hrank hp (fun b hb => hrank p hp b hb)
  constructor
  · intro hg
    have hcovers : ∀ r ∈ rows, r ≠ p → childSum parent rows g (key r) ≤ g r := by
      intro r hr hne
      refine h.covers hforest (k := key p) (fun q hq hqp hqa => ?_) r hr
        fun hkey => hne (hforest.eq_of_key hr hp hkey)
      have hsame : childSum parent rows f (key q) = childSum parent rows f₀ (key q) := by
        refine childSum_congr fun x hx hpar => hf x hx fun hxp => hqa ?_
        rw [← hxp, hpar]
      rw [hsame, hf q hq fun h => hqp (h ▸ rfl)]
      exact hf₀ q hq
    rw [← hgp]
    exact beside_le hforest hrank hp (fun r hr hne => (hf r hr hne).symm.le.trans (h.le hr)) hcovers
      hg hs p hp rfl rfl (Or.inl rfl)
  · intro hle
    refine h.le_of_beside hrank hforest hf₀ hM hpos hp rfl hs hle (fun q hq => ?_)
      fun q hq hdiff => Or.inl ?_
    · by_cases hqp : q = p
      · have hnonneg := hs.nonneg hpos
        subst hqp
        omega
      · rw [hf q hq hqp]
        exact hM q hq
    · by_contra hqp
      exact hdiff (hf q hq hqp)

end Climb

/-! ## Descending -/

/-- The keys below given ones and these themselves, for as many levels. -/
def descend (children : κ → List κ) : ℕ → List κ → List κ
  | 0, _ => []
  | n + 1, keys => keys.flatMap fun a => descend children n (children a) ++ [a]

omit [DecidableEq κ] in
/-- **All that is below is found**, where there are as many levels as keys of a higher rank. -/
theorem mem_descend {children : κ → List κ} (rank : κ → ℕ)
    (hrank : ∀ a, ∀ b ∈ children a, rank a < rank b) (all : List κ) (hall : ∀ a, ∀ b ∈ children a, b ∈ all) :
    ∀ {n : ℕ} {keys : List κ}, (∀ a ∈ keys, (all.filter fun b => rank a < rank b).length < n) → ∀ {x : κ},
      x ∈ descend children n keys ↔
        ∃ a ∈ keys, Relation.ReflTransGen (fun a b => b ∈ children a) a x := by
  intro n
  induction n with
  | zero =>
    intro keys hlevels x
    refine iff_of_false List.not_mem_nil ?_
    rintro ⟨a, ha, -⟩
    exact absurd (hlevels a ha) (Nat.not_lt_zero _)
  | succ n ih =>
    intro keys hlevels x
    have hbelow : ∀ a ∈ keys, ∀ b ∈ children a, (all.filter fun c => rank b < rank c).length < n := by
      intro a ha b hb
      have hlt := hrank a b hb
      have hsub : (all.filter fun c => rank b < rank c).length <
          (all.filter fun c => rank a < rank c).length := by
        have hmono : ∀ c, decide (rank b < rank c) = true → decide (rank a < rank c) = true :=
          fun c hc => decide_eq_true (hlt.trans (of_decide_eq_true hc))
        rw [← List.countP_eq_length_filter, ← List.countP_eq_length_filter]
        obtain ⟨l, l', rfl⟩ := List.append_of_mem (hall a b hb)
        have hl := List.countP_mono_left (l := l) fun c _ => hmono c
        have hl' := List.countP_mono_left (l := l') fun c _ => hmono c
        simp only [List.countP_append, List.countP_cons, decide_eq_true hlt, lt_irrefl, decide_false,
          if_true, Bool.false_eq_true, if_false]
        omega
      exact lt_of_lt_of_le hsub (Nat.le_of_lt_succ (hlevels a ha))
    rw [descend, List.mem_flatMap]
    refine exists_congr fun a => and_congr_right fun ha => ?_
    rw [List.mem_append, List.mem_singleton, ih (hbelow a ha), Relation.ReflTransGen.cases_head_iff]
    constructor
    · rintro (⟨b, hb, hpath⟩ | rfl)
      · exact Or.inr ⟨b, hb, hpath⟩
      · exact Or.inl rfl
    · rintro (rfl | ⟨b, hb, hpath⟩)
      · exact Or.inr rfl
      · exact Or.inl ⟨b, hb, hpath⟩

end Forest
