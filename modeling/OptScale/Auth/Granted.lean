import OptScale.Auth.ActionResources

/-!
# Auth/Granted — the listed scopes against the assignments

`Granted` is what the assignments say: an action on the scope it was assigned on, and on the live
pools of an organization it was assigned on.  The order the scopes are unfolded in does not matter,
nor which are skipped as covered: what is listed is what some scope of the rows renders
(`listed_iff_rendered`).
-/

open Fallible

namespace Auth

/-! ## What the assignments grant -/

section Granted

variable (db : Db) (scopes : Scopes) (u : Uuid)

/-- The user has an active assignment on the scope with the action. -/
def Holds (A : String) (t : ScopeType) (i : Uuid) : Prop :=
  ∃ a ∈ db.assignments.rows, a.userId = u ∧ ¬ a.Deleted ∧ db.UserActive a ∧ db.RoleActive a ∧
    a.type = t ∧ a.resourceId = some i ∧
    ∃ act ∈ db.roleActionsOf a.roleId, ¬ act.Deleted ∧ act.name = A

/-- **What the assignments grant**: the action on the scope itself, or on the organization of a
live pool. -/
def Granted (A : String) (t : ScopeType) (i : Uuid) : Prop :=
  Holds db u A t i ∨
    t = .pool ∧ ∃ o, scopes.LivePoolOf o i ∧ Holds db u A .organization o

/-- The scope is live, and so is the organization it is in. -/
def LiveScope : ScopeType → Uuid → Prop
  | .root, _ => False
  | .organization, i => scopes.LiveOrganization i
  | .pool, i => ∃ o, scopes.LivePoolOf o i ∧ scopes.LiveOrganization o

/-- The live pools a scope unfolds into. -/
def PoolUnder : ScopeType → Uuid → Uuid → Prop
  | .root, _, _ => False
  | .organization, i, p => scopes.LivePoolOf i p
  | .pool, i, p => p = i ∧ scopes.LivePool p

/-- The scope has a row, deleted or not. -/
def KnownScope : ScopeType → Uuid → Prop
  | .root, _ => False
  | .organization, i => ∃ o ∈ scopes.organizations.rows, o.id = i
  | .pool, i => ∃ p ∈ scopes.pools.rows, p.id = i

/-- The user's assignments are on organizations and pools of the rest service. -/
def OnScopes : Prop :=
  ∀ a ∈ db.assignments.rows, a.userId = u → ¬ a.Deleted →
    ∃ i, a.resourceId = some i ∧ KnownScope scopes a.type i

/-- **When the answer is what the assignments grant**: every scope the actions asked for are held
on is live, and none of them is held on one scope and missing on a pool of another. -/
def Even (actionList : List String) : Prop :=
  (∀ A ∈ actionList, ∀ t i, Holds db u A t i → LiveScope scopes t i) ∧
    ∀ A ∈ actionList, ∀ B ∈ actionList, ∀ t i t' i', Holds db u A t i → Holds db u B t' i' →
      ∀ p, PoolUnder scopes t' i' p → Granted db scopes u A .pool p

end Granted

/-! ## The rows -/

namespace TokenStore

variable {db : Db}

theorem mem_query {userIds : List Uuid} {actionList : List String} {u : Uuid}
    {row : ActionResource} :
    (u, row) ∈ query db userIds actionList ↔ u ∈ userIds ∧
      (actionList = [] ∨ row.action ∈ actionList) ∧
      ∃ a ∈ db.assignments.rows, a.userId = u ∧ ¬ a.Deleted ∧ db.UserActive a ∧
        db.RoleActive a ∧ a.type = row.type ∧ a.resourceId = row.resourceId ∧
        ∃ act ∈ db.roleActionsOf a.roleId, ¬ act.Deleted ∧ act.name = row.action := by
  simp only [query, List.mem_map, List.mem_filter, decide_eq_true_eq, Prod.exists,
    Db.mem_joined, Prod.mk.injEq]
  constructor
  · rintro ⟨a, act, ⟨⟨ha, hu, hr, hact⟩, hin, hdel, hdel', hname⟩, rfl, rfl⟩
    exact ⟨hin, hname, a, ha, rfl, hdel', hu, hr, rfl, rfl, act, hact, hdel, rfl⟩
  · rintro ⟨hin, hname, a, ha, rfl, hdel', hu, hr, htype, hres, act, hact, hdel, hact'⟩
    obtain ⟨r, t, A⟩ := row
    obtain rfl : a.type = t := htype
    obtain rfl : a.resourceId = r := hres
    obtain rfl : act.name = A := hact'
    exact ⟨a, act, ⟨⟨ha, hu, hr, hact⟩, hin, hdel, hdel', hname⟩, rfl, rfl⟩

theorem mem_actionResources {u : Uuid} {actionList : List String} {row : ActionResource} :
    row ∈ actionResources db u actionList ↔ (u, row) ∈ query db [u] actionList := by
  simp only [actionResources, List.mem_map, Prod.exists, exists_eq_right]
  constructor
  · rintro ⟨v, h⟩
    obtain rfl : v = u := List.mem_singleton.mp (mem_query.mp h).1
    exact h
  · exact fun h => ⟨u, h⟩

/-- **An action asked for has a row for each scope it is held on.** -/
theorem mem_actionResources_iff_holds {u : Uuid} {actionList : List String} {A : String}
    (hA : A ∈ actionList) {t : ScopeType} {i : Uuid} :
    ⟨some i, t, A⟩ ∈ actionResources db u actionList ↔ Holds db u A t i := by
  rw [mem_actionResources, mem_query]
  exact ⟨fun h => h.2.2, fun h => ⟨List.mem_singleton_self u, Or.inr hA, h⟩⟩

/-- Each row is about an organization or a pool, and about an action asked for. -/
theorem row_on_scope {scopes : Scopes} {u : Uuid} (hon : OnScopes db scopes u)
    {actionList : List String} (hne : actionList ≠ []) {row : ActionResource}
    (h : row ∈ actionResources db u actionList) :
    row.action ∈ actionList ∧ ∃ i, row.resourceId = some i ∧ Holds db u row.action row.type i ∧
      KnownScope scopes row.type i := by
  obtain ⟨-, hA, a, ha, hu, hdel, huser, hrole, htype, hres, hact⟩ :=
    mem_query.mp (mem_actionResources.mp h)
  obtain ⟨i, hi, hscope⟩ := hon a ha hu hdel
  exact ⟨hA.resolve_left hne, i, hres ▸ hi,
    ⟨a, ha, hu, hdel, huser, hrole, htype, hi, hact⟩, htype ▸ hscope⟩

/-- **The bulk query has the rows of each user the single one has.** -/
theorem mem_bulkActionResources {userIds : List Uuid} {actionList : List String} {u : Uuid}
    {rows : List ActionResource} :
    (u, rows) ∈ bulkActionResources db userIds actionList ↔
      u ∈ userIds ∧ rows = actionResources db u actionList ∧ rows ≠ [] := by
  have hrows : u ∈ userIds → ((query db userIds actionList).filter (·.1 = u)).map Prod.snd =
      actionResources db u actionList := by
    intro hu
    unfold actionResources query
    rw [List.filter_map, List.filter_filter]
    congr 2
    refine List.filter_congr fun r _ => ?_
    by_cases h : r.1.userId = u
    · simp [h, hu]
    · simp [h]
  unfold bulkActionResources
  simp only [List.mem_map, List.mem_dedup, Prod.mk.injEq]
  constructor
  · rintro ⟨_, ⟨⟨v, row⟩, hv, rfl⟩, rfl, rfl⟩
    have hmem := (mem_query.mp hv).1
    refine ⟨hmem, hrows hmem, fun h => ?_⟩
    exact List.not_mem_nil (h ▸ List.mem_map.mpr ⟨(v, row), List.mem_filter.mpr ⟨hv, by simp⟩, rfl⟩)
  · rintro ⟨hu, rfl, hne⟩
    obtain ⟨row, hrow⟩ := List.exists_mem_of_ne_nil _ hne
    refine ⟨u, ⟨(u, row), ?_, rfl⟩, rfl, hrows hu⟩
    obtain ⟨-, h⟩ := mem_query.mp (mem_actionResources.mp hrow)
    exact mem_query.mpr ⟨hu, h⟩

end TokenStore

/-! ## The hierarchies -/

namespace BaseController

variable {scopes : Scopes}

open AuthHierarchyController

theorem mem_poolsOrNull {o p : Uuid} :
    some p ∈ poolsOrNull scopes o ↔ scopes.LivePoolOf o p := by
  unfold poolsOrNull
  simp only [Scopes.LivePoolOf]
  split_ifs with h
  · simp only [List.map_eq_nil_iff, List.filter_eq_nil_iff, decide_eq_true_eq] at h
    simp only [List.mem_singleton, reduceCtorEq, false_iff]
    rintro ⟨q, hq, -, hdel, horg⟩
    exact h q hq ⟨horg, hdel⟩
  · simp only [List.mem_map, List.mem_filter, decide_eq_true_eq, Option.some.injEq, exists_eq_right]
    constructor
    · rintro ⟨q, ⟨hq, horg, hdel⟩, rfl⟩
      exact ⟨q, hq, rfl, hdel, horg⟩
    · rintro ⟨q, hq, rfl, hdel, horg⟩
      exact ⟨q, ⟨hq, horg, hdel⟩, rfl⟩

theorem poolsOrNull_ne_nil {o : Uuid} : poolsOrNull scopes o ≠ [] := by
  unfold poolsOrNull
  dsimp only
  split_ifs with h
  · exact List.cons_ne_nil _ _
  · simpa using h

/-- The rows below an organization are the organization's own. -/
theorem mem_queryset_organization {o : Uuid} {row : Uuid × Option Uuid} :
    row ∈ queryset scopes .organization o ↔
      row.1 = o ∧ scopes.LiveOrganization o ∧ row.2 ∈ poolsOrNull scopes o := by
  obtain ⟨r, p⟩ := row
  simp only [queryset, List.mem_filter, List.mem_flatMap, List.mem_map, decide_eq_true_eq,
    Prod.mk.injEq]
  constructor
  · rintro ⟨⟨org, ⟨horg, hdel⟩, _, hp, rfl, rfl⟩, rfl⟩
    exact ⟨rfl, ⟨org, horg, rfl, hdel⟩, hp⟩
  · rintro ⟨rfl, ⟨org, horg, rfl, hdel⟩, hp⟩
    exact ⟨⟨org, ⟨horg, hdel⟩, p, hp, rfl, rfl⟩, rfl⟩

/-- The rows of a pool name it under its organization. -/
theorem mem_queryset_pool {p : Uuid} {row : Uuid × Option Uuid} :
    row ∈ queryset scopes .pool p ↔
      row.2 = some p ∧ scopes.LivePoolOf row.1 p ∧ scopes.LiveOrganization row.1 := by
  obtain ⟨o, q⟩ := row
  simp only [queryset, List.mem_filter, List.mem_flatMap, List.mem_map, decide_eq_true_eq,
    Prod.mk.injEq]
  constructor
  · rintro ⟨⟨org, ⟨horg, hdel⟩, _, hp, rfl, rfl⟩, rfl⟩
    exact ⟨rfl, mem_poolsOrNull.mp hp, org, horg, rfl, hdel⟩
  · rintro ⟨rfl, hp, org, horg, rfl, hdel⟩
    exact ⟨⟨org, ⟨horg, hdel⟩, some p, mem_poolsOrNull.mpr hp, rfl, rfl⟩, rfl⟩

theorem mem_poolsIn {rows : List (Uuid × Option Uuid)} {o p : Uuid} :
    p ∈ poolsIn rows o ↔ (o, some p) ∈ rows := by
  simp only [poolsIn, List.mem_filterMap]
  constructor
  · rintro ⟨⟨o', q⟩, hrow, h⟩
    split_ifs at h with ho
    obtain rfl : o' = o := ho
    obtain rfl : q = some p := h
    exact hrow
  · exact fun h => ⟨_, h, if_pos rfl⟩

/-! ## Rendering -/

/-- **An entry of a list takes the action wherever it is held.** -/
theorem mem_renderItem_listed {target : Option Uuid} {action : String} {collect : Bool}
    {t : ScopeType} {ids : List Uuid} {x : Item} :
    x ∈ renderItem target action collect (.listed t ids .nil) ↔ ∃ p ∈ ids, x = ⟨p, t, action⟩ := by
  simp only [renderItem, List.append_nil, List.mem_map, eq_comm]

/-- An organization takes the action where it is held, its pools take it anyway. -/
theorem mem_renderItem_organizations {target : Option Uuid} {action : String}
    {rows : List (Uuid × Option Uuid)} {x : Item} :
    x ∈ renderItem target action false (organizationsIn rows) ↔
      ∃ o ∈ rows.map Prod.fst, x = ⟨o, .organization, action⟩ ∧ some o = target ∨
        ∃ p ∈ poolsIn rows o, x = ⟨p, .pool, action⟩ := by
  have hfold : ∀ os : List Uuid,
      x ∈ renderItem target action false (os.foldr
          (fun o rest => .keyed .organization o (.listed .pool (poolsIn rows o) .nil) rest) .nil) ↔
        ∃ o ∈ os, x = ⟨o, .organization, action⟩ ∧ some o = target ∨
          ∃ p ∈ poolsIn rows o, x = ⟨p, .pool, action⟩ := by
    intro os
    induction os with
    | nil => simp [renderItem]
    | cons o os ih =>
      simp only [List.foldr_cons, List.mem_cons, exists_eq_or_imp, ← ih]
      rw [renderItem]
      simp only [List.mem_append, mem_renderItem_listed, Bool.false_or]
      refine or_congr (or_congr_left ?_) Iff.rfl
      by_cases h : some o = target
      · simp [h]
      · simp [h]
  simpa only [organizationsIn, List.mem_dedup] using hfold (rows.map Prod.fst).dedup

theorem mem_foldl_orderedAdd {items : List Item} {x : Item} : ∀ {aset : List Item},
    x ∈ items.foldl orderedAdd aset ↔ x ∈ aset ∨ x ∈ items := by
  induction items with
  | nil => simp
  | cons y items ih =>
    intro aset
    rw [List.foldl_cons, ih, List.mem_cons, ← or_assoc]
    refine or_congr_left ?_
    unfold orderedAdd
    split_ifs with h
    · exact ⟨Or.inl, fun h' => h'.elim id fun hxy => hxy ▸ h⟩
    · simp

/-- **`render` adds what each row renders.** -/
theorem mem_render {rows : List ActionResource} {h : Hierarchy} {x : Item} :
    ∀ {aset : List Item}, x ∈ render rows aset h ↔
      x ∈ aset ∨ ∃ row ∈ rows, x ∈ renderItem row.resourceId row.action false h := by
  induction rows with
  | nil => simp [render]
  | cons row rows ih =>
    intro aset
    have hstep : render (row :: rows) aset h = render rows
      ((renderItem row.resourceId row.action false h).foldl orderedAdd aset) h := rfl
    rw [hstep, ih, mem_foldl_orderedAdd, or_assoc, List.exists_mem_cons_iff]

/-! ## One scope -/

/-- What a scope renders over the rows. -/
def Rendered (scopes : Scopes) (rows : List ActionResource) (t : ScopeType) (i : Uuid)
    (x : Item) : Prop :=
  ∃ h, getDownwardHierarchy scopes t (some i) = .ok h ∧
    ∃ row ∈ rows, x ∈ renderItem row.resourceId row.action false h

theorem getDownwardHierarchy_organization {o : Uuid} :
    getDownwardHierarchy scopes .organization (some o) =
      if scopes.LiveOrganization o then .ok (organizationsIn (queryset scopes .organization o))
      else .error 404 := by
  split_ifs with h
  · simp only [getDownwardHierarchy, authHierarchy, checkResource, orFail_some, ok_bind,
      require_of h]
    rfl
  · simp only [getDownwardHierarchy, authHierarchy, checkResource, orFail_some, ok_bind,
      require_not h]
    rfl

/-- **A live pool of a live organization unfolds into itself.** -/
theorem getDownwardHierarchy_pool {o p : Uuid} (hp : scopes.LivePoolOf o p)
    (ho : scopes.LiveOrganization o) :
    ∃ ids : List Uuid, getDownwardHierarchy scopes .pool (some p) = .ok (.listed .pool ids .nil) ∧
      ∀ q, q ∈ ids ↔ q = p := by
  have hlive : scopes.LivePool p := by
    obtain ⟨r, hr, hid, hdel, -⟩ := hp
    exact ⟨r, hr, hid, hdel⟩
  have hrow : (o, some p) ∈ queryset scopes .pool p := mem_queryset_pool.mpr ⟨rfl, hp, ho⟩
  obtain ⟨row, rows, hq⟩ := List.exists_cons_of_ne_nil (List.ne_nil_of_mem hrow)
  refine ⟨poolsIn (queryset scopes .pool p) row.1, ?_, fun q => ?_⟩
  · simp only [getDownwardHierarchy, authHierarchy, checkResource, orFail_some, ok_bind,
      require_of hlive, hq]
    rfl
  · rw [mem_poolsIn, mem_queryset_pool]
    constructor
    · exact fun h => Option.some.inj h.1
    · rintro rfl
      have hfirst : row ∈ queryset scopes .pool q := hq ▸ List.mem_cons_self
      exact ⟨rfl, (mem_queryset_pool.mp hfirst).2⟩

/-- Any other pool does not unfold. -/
theorem getDownwardHierarchy_pool_error {p : Uuid}
    (h : ¬ ∃ o, scopes.LivePoolOf o p ∧ scopes.LiveOrganization o) :
    ∃ status, getDownwardHierarchy scopes .pool (some p) = .error status := by
  by_cases hlive : scopes.LivePool p
  · have hq : queryset scopes .pool p = [] :=
      List.eq_nil_iff_forall_not_mem.mpr fun row hrow =>
        h ⟨row.1, (mem_queryset_pool.mp hrow).2⟩
    refine ⟨500, ?_⟩
    simp only [getDownwardHierarchy, authHierarchy, checkResource, orFail_some, ok_bind,
      require_of hlive, hq]
    rfl
  · refine ⟨404, ?_⟩
    simp only [getDownwardHierarchy, authHierarchy, checkResource, orFail_some, ok_bind,
      require_not hlive]
    rfl

/-- A scope unfolds exactly when it is live. -/
theorem unfolds_iff_live {t : ScopeType} {i : Uuid} :
    (∃ h, getDownwardHierarchy scopes t (some i) = .ok h) ↔ LiveScope scopes t i := by
  cases t with
  | root => exact ⟨fun ⟨_, h⟩ => (nomatch h), False.elim⟩
  | organization =>
    rw [getDownwardHierarchy_organization]
    split_ifs with h
    · exact ⟨fun _ => h, fun _ => ⟨_, rfl⟩⟩
    · exact ⟨fun ⟨_, h'⟩ => (nomatch h'), fun h' => absurd h' h⟩
  | pool =>
    constructor
    · rintro ⟨h, hh⟩
      by_contra hdead
      obtain ⟨status, herr⟩ := getDownwardHierarchy_pool_error hdead
      rw [hh] at herr
      exact nomatch herr
    · rintro ⟨o, hp, ho⟩
      obtain ⟨ids, h, -⟩ := getDownwardHierarchy_pool hp ho
      exact ⟨_, h⟩

/-- A live organization renders itself and its live pools. -/
theorem mem_renderItem_organization {target : Option Uuid} {action : String} {o : Uuid}
    (ho : scopes.LiveOrganization o) {x : Item} :
    x ∈ renderItem target action false (organizationsIn (queryset scopes .organization o)) ↔
      x = ⟨o, .organization, action⟩ ∧ some o = target ∨
        ∃ p, scopes.LivePoolOf o p ∧ x = ⟨p, .pool, action⟩ := by
  have hfst : ∀ o', o' ∈ (queryset scopes .organization o).map Prod.fst ↔ o' = o := by
    intro o'
    simp only [List.mem_map, mem_queryset_organization]
    constructor
    · rintro ⟨_, ⟨h, -⟩, rfl⟩
      exact h
    · rintro rfl
      have hne : poolsOrNull scopes o' ≠ [] := poolsOrNull_ne_nil
      obtain ⟨p, hp⟩ := List.exists_mem_of_ne_nil _ hne
      exact ⟨(o', p), ⟨rfl, ho, hp⟩, rfl⟩
  simp only [mem_renderItem_organizations, hfst, exists_eq_left, mem_poolsIn,
    mem_queryset_organization, mem_poolsOrNull, ho, true_and]

/-- **What a scope renders**: the organization itself where the action is held on it, the pools
below it where the action is held at all. -/
theorem rendered_iff {rows : List ActionResource} {t : ScopeType} {i : Uuid} {x : Item} :
    Rendered scopes rows t i x ↔ LiveScope scopes t i ∧
      (x.type = .organization ∧ t = .organization ∧ x.id = i ∧
          (∃ row ∈ rows, row.resourceId = some i ∧ row.action = x.action) ∨
        x.type = .pool ∧ PoolUnder scopes t i x.id ∧ ∃ row ∈ rows, row.action = x.action) := by
  unfold Rendered
  by_cases hlive : LiveScope scopes t i
  · refine Iff.trans ?_ (iff_and_self.mpr fun _ => hlive)
    cases t with
    | root => exact hlive.elim
    | organization =>
      have ho : scopes.LiveOrganization i := hlive
      rw [getDownwardHierarchy_organization, if_pos ho]
      simp only [Except.ok.injEq, exists_eq_left', mem_renderItem_organization ho]
      constructor
      · rintro ⟨row, hrow, ⟨rfl, htarget⟩ | ⟨p, hp, rfl⟩⟩
        · exact Or.inl ⟨rfl, trivial, rfl, row, hrow, htarget.symm, rfl⟩
        · exact Or.inr ⟨rfl, hp, row, hrow, rfl⟩
      · obtain ⟨xi, xt, xa⟩ := x
        rintro (⟨rfl, -, rfl, row, hrow, htarget, rfl⟩ | ⟨rfl, hp, row, hrow, rfl⟩)
        · exact ⟨row, hrow, Or.inl ⟨rfl, htarget.symm⟩⟩
        · exact ⟨row, hrow, Or.inr ⟨xi, hp, rfl⟩⟩
    | pool =>
      obtain ⟨o, hp, ho⟩ := hlive
      obtain ⟨ids, h, hids⟩ := getDownwardHierarchy_pool hp ho
      have hpool : scopes.LivePool i := by
        obtain ⟨r, hr, hid, hdel, -⟩ := hp
        exact ⟨r, hr, hid, hdel⟩
      rw [h]
      simp only [Except.ok.injEq, exists_eq_left', mem_renderItem_listed, hids, exists_eq_left]
      constructor
      · rintro ⟨row, hrow, rfl⟩
        exact Or.inr ⟨rfl, ⟨rfl, hpool⟩, row, hrow, rfl⟩
      · obtain ⟨xi, xt, xa⟩ := x
        rintro (⟨-, h', -⟩ | ⟨rfl, ⟨rfl, -⟩, row, hrow, rfl⟩)
        · exact nomatch h'
        · exact ⟨row, hrow, rfl⟩
  · refine iff_of_false (fun ⟨h, hh, _⟩ => hlive (unfolds_iff_live.mp ⟨h, hh⟩)) fun h => hlive h.1

/-! ## All scopes, one after the other -/

/-- What the scopes done so far render. -/
def Covers (scopes : Scopes) (rows : List ActionResource)
    (done : List (Option Uuid × ScopeType)) (aset : List Item) : Prop :=
  ∀ x, x ∈ aset ↔ ∃ t i, (some i, t) ∈ done ∧ Rendered scopes rows t i x

theorem known_of_poolUnder {t : ScopeType} {i p : Uuid} (h : PoolUnder scopes t i p) :
    KnownScope scopes .pool p := by
  cases t with
  | root => exact h.elim
  | organization =>
    obtain ⟨q, hq, hid, -⟩ := h
    exact ⟨q, hq, hid⟩
  | pool =>
    obtain ⟨rfl, q, hq, hid, -⟩ := h
    exact ⟨q, hq, hid⟩

/-- No id is an organization and a pool. -/
theorem not_known_both {i : Uuid} (ho : KnownScope scopes .organization i)
    (hp : KnownScope scopes .pool i) : False := by
  obtain ⟨o, ho, rfl⟩ := ho
  obtain ⟨p, hp, hid⟩ := hp
  exact scopes.ids_disjoint o ho p hp hid.symm

/-- **A scope that is skipped would have added nothing.** -/
theorem rendered_of_covered {rows : List ActionResource} {t t' : ScopeType} {i i' : Uuid}
    {x y : Item} (hknown : KnownScope scopes t i) (hx : Rendered scopes rows t i x)
    (hy : Rendered scopes rows t' i' y) (hid : y.id = i) : Rendered scopes rows t' i' x := by
  obtain ⟨hlive', hy⟩ := rendered_iff.mp hy
  rw [hid] at hy
  -- an organization is only covered by itself, a pool by itself and by its organization
  cases t with
  | root => exact hknown.elim
  | organization =>
    rcases hy with ⟨-, rfl, rfl, -⟩ | ⟨-, hunder, -⟩
    · exact hx
    · exact (not_known_both hknown (known_of_poolUnder hunder)).elim
  | pool =>
    rcases hy with ⟨-, rfl, rfl, -⟩ | ⟨-, hunder, -⟩
    · obtain ⟨o, ho, hid', -⟩ := hlive'
      exact (not_known_both ⟨o, ho, hid'⟩ hknown).elim
    · obtain ⟨-, ⟨-, h, -⟩ | ⟨htype, ⟨hxi, -⟩, hrow⟩⟩ := rendered_iff.mp hx
      · exact nomatch h
      · exact rendered_iff.mpr ⟨hlive', Or.inr ⟨htype, hxi ▸ hunder, hrow⟩⟩

/-- One turn of the loop. -/
theorem Covers.formatScope {rows : List ActionResource} {done : List (Option Uuid × ScopeType)}
    {aset aset' : List Item} {t : ScopeType} {i : Uuid} (h : Covers scopes rows done aset)
    (hknown : KnownScope scopes t i)
    (hok : BaseController.formatScope scopes rows aset (some i, t) = .ok aset') :
    Covers scopes rows (done ++ [(some i, t)]) aset' := by
  -- the new elements are those the scope renders
  suffices hnew : ∀ x, x ∈ aset' ↔ x ∈ aset ∨ Rendered scopes rows t i x by
    intro x
    rw [hnew, h x]
    constructor
    · rintro (⟨t', i', hdone, hx⟩ | hx)
      · exact ⟨t', i', List.mem_append_left _ hdone, hx⟩
      · exact ⟨t, i, List.mem_append_right _ (List.mem_singleton_self _), hx⟩
    · rintro ⟨t', i', hdone, hx⟩
      rcases List.mem_append.mp hdone with hdone | hlast
      · exact Or.inl ⟨t', i', hdone, hx⟩
      · obtain ⟨hi, rfl⟩ := Prod.mk.inj (List.mem_singleton.mp hlast)
        obtain rfl := Option.some.inj hi
        exact Or.inr hx
  intro x
  unfold BaseController.formatScope at hok
  split_ifs at hok with hskip
  · obtain rfl := Except.ok.inj hok
    obtain ⟨y, hy, hyi⟩ := List.mem_map.mp hskip
    obtain ⟨t', i', hdone, hy⟩ := (h y).mp hy
    refine ⟨Or.inl, fun hx => hx.elim id fun hx => (h x).mpr ⟨t', i', hdone, ?_⟩⟩
    exact rendered_of_covered hknown hx hy (Option.some.inj hyi)
  · unfold Rendered
    cases hdown : getDownwardHierarchy scopes t (some i) with
    | ok response =>
      simp only [hdown, Except.ok.injEq] at hok
      simp only [← hok, mem_render, Except.ok.injEq, exists_eq_left']
    | error status =>
      simp only [hdown] at hok
      split_ifs at hok
      obtain rfl := Except.ok.inj hok
      simp

/-- The whole loop. -/
theorem Covers.foldlM {rows : List ActionResource} {todo : List (Option Uuid × ScopeType)} :
    ∀ {done : List (Option Uuid × ScopeType)} {aset aset' : List Item},
      Covers scopes rows done aset →
      (∀ s ∈ todo, ∃ i, s.1 = some i ∧ KnownScope scopes s.2 i) →
      todo.foldlM (BaseController.formatScope scopes rows) aset = .ok aset' →
      Covers scopes rows (done ++ todo) aset' := by
  induction todo with
  | nil =>
    intro done aset aset' h _ hok
    obtain rfl : aset = aset' := pure_eq_ok.mp hok
    rwa [List.append_nil]
  | cons s todo ih =>
    intro done aset aset' h hknown hok
    obtain ⟨aset₁, hstep, hrest⟩ := bind_eq_ok.mp ((List.foldlM_cons).symm.trans hok)
    obtain ⟨i, hi, hs⟩ := hknown s List.mem_cons_self
    obtain ⟨_, t⟩ := s
    obtain rfl : _ = some i := hi
    have hdone := ih (h.formatScope hs hstep)
      (fun s' hs' => hknown s' (List.mem_cons_of_mem _ hs')) hrest
    rwa [List.append_assoc] at hdone

/-- Nothing is raised where every scope unfolds. -/
theorem foldlM_ok {rows : List ActionResource} {todo : List (Option Uuid × ScopeType)} :
    ∀ {aset : List Item}, (∀ s ∈ todo, ∃ i, s.1 = some i ∧ LiveScope scopes s.2 i) →
      ∃ aset', todo.foldlM (BaseController.formatScope scopes rows) aset = .ok aset' := by
  induction todo with
  | nil => exact fun _ => ⟨_, rfl⟩
  | cons s todo ih =>
    intro aset hlive
    have hstep : ∃ aset₁, BaseController.formatScope scopes rows aset s = .ok aset₁ := by
      obtain ⟨i, hi, hs⟩ := hlive s List.mem_cons_self
      obtain ⟨h, hdown⟩ := unfolds_iff_live.mpr hs
      unfold BaseController.formatScope
      split_ifs
      · exact ⟨_, rfl⟩
      · rw [hi, hdown]
        exact ⟨_, rfl⟩
    obtain ⟨aset₁, hstep⟩ := hstep
    obtain ⟨aset', hrest⟩ := ih fun s' hs' => hlive s' (List.mem_cons_of_mem _ hs')
    exact ⟨aset', List.foldlM_cons.trans (bind_eq_ok.mpr ⟨aset₁, hstep, hrest⟩)⟩

/-! ## The answer of a call -/

/-- The answer lists the scope under the action. -/
def ListedIn (result : List (String × List (ScopeType × Uuid))) (A : String) (t : ScopeType)
    (i : Uuid) : Prop :=
  ∃ xs, (A, xs) ∈ result ∧ (t, i) ∈ xs

/-- The call answers, and lists the scope under the action. -/
def Lists (call : Except Failure (List (String × List (ScopeType × Uuid)))) (A : String)
    (t : ScopeType) (i : Uuid) : Prop :=
  ∃ result, call = .ok result ∧ ListedIn result A t i

variable {order : SetOrder (Option Uuid × ScopeType)}

theorem mem_orderedScopes {rows : List ActionResource} {s : Option Uuid × ScopeType} :
    s ∈ orderedScopes order rows ↔ ∃ row ∈ rows, (row.resourceId, row.type) = s := by
  rw [orderedScopes, List.mem_mergeSort, order.mem, List.mem_map]

/-- **An answer lists what the scopes of the rows render**, in whatever order they came. -/
theorem listed_iff_rendered {rows : List ActionResource} {actionList : List String}
    {result : List (String × List (ScopeType × Uuid))}
    (hknown : ∀ row ∈ rows, ∃ i, row.resourceId = some i ∧ KnownScope scopes row.type i)
    (hok : formatUserActionResources scopes order rows actionList = .ok result) {A : String}
    (hA : A ∈ actionList) {t : ScopeType} {i : Uuid} :
    ListedIn result A t i ↔ ∃ row ∈ rows, ∃ j, row.resourceId = some j ∧
      Rendered scopes rows row.type j ⟨i, t, A⟩ := by
  simp only [formatUserActionResources, bind_eq_ok, require_eq_ok, pure_eq_ok] at hok
  obtain ⟨aset, hloop, _, -, rfl⟩ := hok
  have hstart : Covers scopes rows [] [] := fun x => by simp
  have hcovers := hstart.foldlM (fun s hs => by
    obtain ⟨row, hrow, rfl⟩ := mem_orderedScopes.mp hs
    exact hknown row hrow) hloop
  have hmem : ListedIn (actionList.dedup.map fun k =>
      (k, (aset.filter (·.action = k)).map fun x => (x.type, x.id))) A t i ↔
      (⟨i, t, A⟩ : Item) ∈ aset := by
    simp only [ListedIn, List.mem_map, List.mem_dedup, Prod.mk.injEq]
    constructor
    · rintro ⟨_, ⟨k, -, hk, rfl⟩, hx⟩
      obtain ⟨⟨xi, xt, xa⟩, hfilter, h⟩ := List.mem_map.mp hx
      obtain ⟨haset, hxa⟩ := List.mem_filter.mp hfilter
      obtain rfl : xa = k := of_decide_eq_true hxa
      obtain ⟨rfl, rfl⟩ := Prod.mk.inj h
      exact hk ▸ haset
    · exact fun hx => ⟨_, ⟨A, hA, rfl, rfl⟩,
        List.mem_map.mpr ⟨_, List.mem_filter.mpr ⟨hx, decide_eq_true rfl⟩, rfl⟩⟩
  rw [hmem, hcovers, List.nil_append]
  simp only [mem_orderedScopes, Prod.mk.injEq]
  constructor
  · rintro ⟨t', j, ⟨row, hrow, hj, rfl⟩, hx⟩
    exact ⟨row, hrow, j, hj, hx⟩
  · rintro ⟨row, hrow, j, hj, hx⟩
    exact ⟨row.type, j, ⟨row, hrow, hj, rfl⟩, hx⟩

/-- Where every scope is live and every action asked for, the call answers. -/
theorem formatUserActionResources_ok {rows : List ActionResource} {actionList : List String}
    (hlive : ∀ row ∈ rows, ∃ i, row.resourceId = some i ∧ LiveScope scopes row.type i)
    (hknown : ∀ row ∈ rows, ∃ i, row.resourceId = some i ∧ KnownScope scopes row.type i)
    (hactions : ∀ row ∈ rows, row.action ∈ actionList) :
    ∃ result, formatUserActionResources scopes order rows actionList = .ok result := by
  have hscopes : ∀ s ∈ orderedScopes order rows, ∃ i, s.1 = some i ∧ LiveScope scopes s.2 i := by
    intro s hs
    obtain ⟨row, hrow, rfl⟩ := mem_orderedScopes.mp hs
    exact hlive row hrow
  obtain ⟨aset, hloop⟩ : ∃ aset, (orderedScopes order rows).foldlM (formatScope scopes rows) [] =
      .ok aset := foldlM_ok hscopes
  have hstart : Covers scopes rows [] [] := fun x => by simp
  have hcovers := hstart.foldlM (fun s hs => by
    obtain ⟨row, hrow, rfl⟩ := mem_orderedScopes.mp hs
    exact hknown row hrow) hloop
  have haset : ∀ x ∈ aset, x.action ∈ actionList := by
    intro x hx
    obtain ⟨t, i, -, hx⟩ := (hcovers x).mp hx
    rcases (rendered_iff.mp hx).2 with ⟨-, -, -, row, hrow, -, h⟩ | ⟨-, -, row, hrow, h⟩
    · exact h ▸ hactions row hrow
    · exact h ▸ hactions row hrow
  exact ⟨_, bind_eq_ok.mpr ⟨aset, hloop, bind_eq_ok.mpr ⟨(), require_of haset, rfl⟩⟩⟩

variable {db : Db} {u : Uuid}

/-- A pool of a live scope is live, and in a live organization. -/
theorem live_of_poolUnder {t : ScopeType} {i p : Uuid} (hlive : LiveScope scopes t i)
    (hunder : PoolUnder scopes t i p) : LiveScope scopes .pool p := by
  cases t with
  | root => exact hlive.elim
  | organization => exact ⟨i, hunder, hlive⟩
  | pool => exact hunder.1 ▸ hlive

theorem known_of_live {t : ScopeType} {i : Uuid} (hlive : LiveScope scopes t i) :
    KnownScope scopes t i := by
  cases t with
  | root => exact hlive.elim
  | organization =>
    obtain ⟨o, ho, hid, -⟩ := hlive
    exact ⟨o, ho, hid⟩
  | pool =>
    obtain ⟨_, ⟨p, hp, hid, -⟩, -⟩ := hlive
    exact ⟨p, hp, hid⟩

theorem knownScope_unique {t t' : ScopeType} {i : Uuid} (h : KnownScope scopes t i)
    (h' : KnownScope scopes t' i) : t = t' := by
  cases t <;> cases t' <;> first
    | rfl
    | exact h.elim
    | exact h'.elim
    | exact (not_known_both h h').elim
    | exact (not_known_both h' h).elim

/-- **The formatted rows are what the assignments grant exactly when these are even.** -/
theorem lists_iff_granted_iff (hon : OnScopes db scopes u) (actionList : List String) :
    (∀ A ∈ actionList, ∀ t i,
        Lists (formatUserActionResources scopes order (TokenStore.actionResources db u actionList)
          actionList) A t i ↔ Granted db scopes u A t i) ↔ Even db scopes u actionList := by
  have hrow : actionList ≠ [] → ∀ row ∈ TokenStore.actionResources db u actionList,
      row.action ∈ actionList ∧ ∃ i, row.resourceId = some i ∧
        Holds db u row.action row.type i ∧ KnownScope scopes row.type i :=
    fun hne row h => TokenStore.row_on_scope hon hne h
  have hknown : actionList ≠ [] → ∀ row ∈ TokenStore.actionResources db u actionList,
      ∃ i, row.resourceId = some i ∧ KnownScope scopes row.type i := by
    intro hne row h
    obtain ⟨-, i, hi, -, hk⟩ := hrow hne row h
    exact ⟨i, hi, hk⟩
  constructor
  · intro hprop
    have hlive : ∀ A ∈ actionList, ∀ t i, Holds db u A t i → LiveScope scopes t i := by
      intro A hA t i h
      obtain ⟨result, hok, hlisted⟩ := (hprop A hA t i).mpr (Or.inl h)
      obtain ⟨row, -, j, -, hx⟩ :=
        (listed_iff_rendered (hknown (List.ne_nil_of_mem hA)) hok hA).mp hlisted
      obtain ⟨hlive, ⟨ht, hrt, hi, -⟩ | ⟨ht, hunder, -⟩⟩ := rendered_iff.mp hx
      · obtain rfl : t = .organization := ht
        obtain rfl : i = j := hi
        exact hrt ▸ hlive
      · obtain rfl : t = .pool := ht
        exact live_of_poolUnder hlive hunder
    refine ⟨hlive, fun A hA B hB t i t' i' hAi hBi p hunder => ?_⟩
    obtain ⟨result, hok, -⟩ := (hprop A hA t i).mpr (Or.inl hAi)
    refine (hprop A hA .pool p).mp ⟨result, hok, ?_⟩
    refine (listed_iff_rendered (hknown (List.ne_nil_of_mem hA)) hok hA).mpr
      ⟨_, (TokenStore.mem_actionResources_iff_holds hB).mpr hBi, i', rfl, ?_⟩
    exact rendered_iff.mpr ⟨hlive B hB t' i' hBi, Or.inr ⟨rfl, hunder, _,
      (TokenStore.mem_actionResources_iff_holds hA).mpr hAi, rfl⟩⟩
  · rintro ⟨hlive, heven⟩ A hA t i
    have hne := List.ne_nil_of_mem hA
    have hrows : ∀ row ∈ TokenStore.actionResources db u actionList,
        ∃ i, row.resourceId = some i ∧ LiveScope scopes row.type i := by
      intro row h
      obtain ⟨hact, j, hj, hholds, -⟩ := hrow hne row h
      exact ⟨j, hj, hlive _ hact _ _ hholds⟩
    obtain ⟨result, hok⟩ : ∃ result, formatUserActionResources scopes order
        (TokenStore.actionResources db u actionList) actionList = .ok result :=
      formatUserActionResources_ok hrows (hknown hne) fun row h => (hrow hne row h).1
    have hlists : ∀ A t i, Lists (formatUserActionResources scopes order
        (TokenStore.actionResources db u actionList) actionList) A t i ↔ ListedIn result A t i :=
      fun A t i => ⟨fun ⟨r, hr, h⟩ => Except.ok.inj (hok.symm.trans hr) ▸ h, fun h => ⟨_, hok, h⟩⟩
    rw [hlists, listed_iff_rendered (hknown hne) hok hA]
    constructor
    · rintro ⟨row, hr, j, hj, hx⟩
      obtain ⟨hact, j', hj', hholds, -⟩ := hrow hne row hr
      obtain rfl : j = j' := Option.some.inj (hj.symm.trans hj')
      obtain ⟨hlivej, ⟨ht, hrt, hi, row', hr', hid, hA'⟩ | ⟨ht, hunder, row', hr', hA'⟩⟩ :=
        rendered_iff.mp hx
      · -- the row that names the organization is on an organization, ids being given out once
        obtain rfl : t = .organization := ht
        obtain rfl : i = j := hi
        obtain rfl : row'.action = A := hA'
        obtain ⟨-, k, hk, hholds', hknown'⟩ := hrow hne row' hr'
        obtain rfl : i = k := Option.some.inj (hid.symm.trans hk)
        rw [knownScope_unique hknown' (known_of_live (hrt ▸ hlivej))] at hholds'
        exact Or.inl hholds'
      · obtain rfl : t = .pool := ht
        obtain rfl : row'.action = A := hA'
        obtain ⟨-, k, -, hholds', -⟩ := hrow hne row' hr'
        exact heven _ hA _ hact _ _ _ _ hholds' hholds i hunder
    · have hrendered : ∀ t' i', Holds db u A t' i' → ∀ x : Item,
          (x.type = .organization ∧ t' = .organization ∧ x.id = i' ∨
            x.type = .pool ∧ PoolUnder scopes t' i' x.id) → x.action = A →
          ∃ row ∈ TokenStore.actionResources db u actionList, ∃ j, row.resourceId = some j ∧
            Rendered scopes (TokenStore.actionResources db u actionList) row.type j x := by
        rintro t' i' hholds x hx rfl
        have hr := (TokenStore.mem_actionResources_iff_holds hA).mpr hholds
        refine ⟨_, hr, i', rfl, rendered_iff.mpr ⟨hlive _ hA _ _ hholds, ?_⟩⟩
        rcases hx with ⟨ht, ht', hi⟩ | ⟨ht, hunder⟩
        · exact Or.inl ⟨ht, ht', hi, _, hr, rfl, rfl⟩
        · exact Or.inr ⟨ht, hunder, _, hr, rfl⟩
      rintro (hholds | ⟨rfl, o, hpool, hholds⟩)
      · refine hrendered t i hholds ⟨i, t, A⟩ ?_ rfl
        cases t with
        | root => exact (hlive A hA _ _ hholds).elim
        | organization => exact Or.inl ⟨rfl, rfl, rfl⟩
        | pool =>
          obtain ⟨_, ⟨q, hq, hid, hdel, -⟩, -⟩ := hlive A hA _ _ hholds
          exact Or.inr ⟨rfl, rfl, q, hq, hid, hdel⟩
      · exact hrendered .organization o hholds ⟨i, .pool, A⟩ (Or.inr ⟨rfl, hpool⟩) rfl

/-! ## The two calls -/

/-- The bulk call answers, and lists the scope under the action for the user. -/
def ListsFor (call : Except Failure (List (Uuid × List (String × List (ScopeType × Uuid)))))
    (u : Uuid) (A : String) (t : ScopeType) (i : Uuid) : Prop :=
  ∃ results, call = .ok results ∧ ∃ result, (u, result) ∈ results ∧ ListedIn result A t i

/-- Without rows nothing is listed. -/
theorem not_lists_of_no_rows {actionList : List String} {A : String} (hA : A ∈ actionList)
    {t : ScopeType} {i : Uuid} :
    ¬ Lists (formatUserActionResources scopes order [] actionList) A t i := by
  rintro ⟨result, hok, h⟩
  obtain ⟨row, hrow, -⟩ := (listed_iff_rendered (fun _ h => absurd h List.not_mem_nil) hok hA).mp h
  exact List.not_mem_nil hrow

/-- A user who holds nothing asked for has no rows. -/
theorem holds_of_row (hon : OnScopes db scopes u) {actionList : List String}
    (hne : actionList ≠ []) (hrows : TokenStore.actionResources db u actionList ≠ []) :
    ∃ A ∈ actionList, ∃ t i, Holds db u A t i := by
  obtain ⟨row, hrow⟩ := List.exists_mem_of_ne_nil _ hrows
  obtain ⟨hact, i, -, hholds, -⟩ := TokenStore.row_on_scope hon hne hrow
  exact ⟨_, hact, _, i, hholds⟩

/-- Where the bulk call answers, it answers each user as the single call does. -/
theorem listsFor_iff_lists {userIds : List Uuid} {actionList : List String}
    {results : List (Uuid × List (String × List (ScopeType × Uuid)))}
    (hok : getBulkActionResources db scopes order userIds actionList = .ok results)
    (hu : u ∈ userIds) {A : String} (hA : A ∈ actionList) {t : ScopeType} {i : Uuid} :
    ListsFor (getBulkActionResources db scopes order userIds actionList) u A t i ↔
      Lists (formatUserActionResources scopes order (TokenStore.actionResources db u actionList)
        actionList) A t i := by
  have hmem : ∀ result, (u, result) ∈ results ↔
      TokenStore.actionResources db u actionList ≠ [] ∧
        formatUserActionResources scopes order (TokenStore.actionResources db u actionList)
          actionList = .ok result := by
    intro result
    obtain ⟨_, -, hmap⟩ := bind_eq_ok.mp hok
    rw [mem_of_mapM_eq_ok hmap]
    constructor
    · rintro ⟨⟨v, rows⟩, hv, h⟩
      obtain ⟨r, hr, h⟩ := bind_eq_ok.mp h
      obtain ⟨rfl, rfl⟩ := Prod.mk.inj (pure_eq_ok.mp h)
      obtain ⟨-, rfl, hne⟩ := TokenStore.mem_bulkActionResources.mp hv
      exact ⟨hne, hr⟩
    · rintro ⟨hne, hr⟩
      exact ⟨_, TokenStore.mem_bulkActionResources.mpr ⟨hu, rfl, hne⟩,
        bind_eq_ok.mpr ⟨_, hr, rfl⟩⟩
  constructor
  · rintro ⟨rs, hrs, result, hresult, h⟩
    obtain rfl := Except.ok.inj (hok.symm.trans hrs)
    exact ⟨result, ((hmem result).mp hresult).2, h⟩
  · rintro ⟨result, hresult, h⟩
    refine ⟨results, hok, result, (hmem result).mpr ⟨fun hnil => ?_, hresult⟩, h⟩
    rw [hnil] at hresult
    exact not_lists_of_no_rows hA ⟨result, hresult, h⟩

theorem getUsersByIds_ok {userIds : List Uuid}
    (h : ∀ u ∈ userIds, ∃ user ∈ db.users.rows, user.id = u ∧ ¬ user.Deleted) :
    getUsersByIds db userIds = .ok () := by
  unfold getUsersByIds
  have hnone : userIds.find? (fun u => ¬ ∃ user ∈ db.users.rows, user.id = u ∧ ¬ user.Deleted)
      = none := by
    rw [List.find?_eq_none]
    exact fun u hu hmissing => of_decide_eq_true hmissing (h u hu)
  rw [hnone]

/-- The bulk call answers when each of its users is answered or has no rows. -/
theorem getBulkActionResources_ok {userIds : List Uuid} {actionList : List String}
    (husers : ∀ u ∈ userIds, ∃ user ∈ db.users.rows, user.id = u ∧ ¬ user.Deleted)
    (h : ∀ u ∈ userIds, TokenStore.actionResources db u actionList ≠ [] →
      ∃ result, formatUserActionResources scopes order
        (TokenStore.actionResources db u actionList) actionList = .ok result) :
    ∃ results, getBulkActionResources db scopes order userIds actionList = .ok results := by
  simp only [getBulkActionResources, getUsersByIds_ok husers, ok_bind, mapM_ok, bind_eq_ok,
    pure_eq_ok]
  rintro ⟨u, rows⟩ hentry
  obtain ⟨hu, rfl, hne⟩ := TokenStore.mem_bulkActionResources.mp hentry
  obtain ⟨result, hresult⟩ := h u hu hne
  exact ⟨_, result, hresult, rfl⟩

/-- `get_action_resources` lists exactly what the assignments grant. -/
def ListsGranted (db : Db) (scopes : Scopes) (order : SetOrder (Option Uuid × ScopeType))
    (who : Who) (actionList : List String) : Prop :=
  ∀ A ∈ actionList, ∀ t i,
    Lists (getActionResources db scopes order who actionList) A t i ↔
      Granted db scopes who.userId A t i

/-- `get_bulk_action_resources` lists exactly what the assignments grant, for each of its users. -/
def BulkListsGranted (db : Db) (scopes : Scopes) (order : SetOrder (Option Uuid × ScopeType))
    (userIds : List Uuid) (actionList : List String) : Prop :=
  ∀ u ∈ userIds, ∀ A ∈ actionList, ∀ t i,
    ListsFor (getBulkActionResources db scopes order userIds actionList) u A t i ↔
      Granted db scopes u A t i

theorem getUser_eq_ok {who : Who} {v : Uuid} (h : getUser db who = .ok v) : v = who.userId := by
  cases who with
  | token w => exact (Except.ok.inj h).symm
  | user w =>
    simp only [getUser, getUserById, bind_eq_ok, pure_eq_ok] at h
    obtain ⟨_, -, rfl⟩ := h
    rfl

/-- A user who is not answered holds nothing. -/
theorem not_holds_of_getUser_error {who : Who} {e : Failure} (h : getUser db who = .error e)
    (A : String) (t : ScopeType) (i : Uuid) : ¬ Holds db who.userId A t i := by
  rintro ⟨a, -, hau, -, ⟨user, hmem, hid, hdel, -⟩, -⟩
  cases who with
  | token v => exact nomatch h
  | user v =>
    have hfound : ∃ user ∈ db.users.rows, user.id = v ∧ ¬ user.Deleted :=
      ⟨user, hmem, hid.trans hau, hdel⟩
    rw [getUser, getUserById, require_of hfound] at h
    exact nomatch h

/-- **The single call**: its answer is what the assignments grant exactly when these are even. -/
theorem listsGranted_iff {who : Who} (hon : OnScopes db scopes who.userId)
    (actionList : List String) :
    ListsGranted db scopes order who actionList ↔ Even db scopes who.userId actionList := by
  have hsame : ∀ A ∈ actionList, ∀ t i,
      Lists (getActionResources db scopes order who actionList) A t i ↔
        Lists (formatUserActionResources scopes order
          (TokenStore.actionResources db who.userId actionList) actionList) A t i := by
    intro A hA t i
    cases huser : getUser db who with
    | ok v => simp only [getActionResources, huser, ok_bind, getUser_eq_ok huser]
    | error e =>
      have hrows : TokenStore.actionResources db who.userId actionList = [] := by
        by_contra hne
        obtain ⟨B, -, t', i', hholds⟩ := holds_of_row hon (List.ne_nil_of_mem hA) hne
        exact not_holds_of_getUser_error huser B t' i' hholds
      rw [hrows]
      refine iff_of_false ?_ (not_lists_of_no_rows hA)
      rintro ⟨_, hok, -⟩
      rw [getActionResources, huser] at hok
      exact nomatch hok
  refine Iff.trans ?_ (@lists_iff_granted_iff scopes order db who.userId hon actionList)
  exact forall₂_congr fun A hA => forall₂_congr fun t i => by rw [hsame A hA t i]

/-- **The bulk call**: its answers are what the assignments grant exactly when these are even for
each user. -/
theorem bulkListsGranted_iff {userIds : List Uuid} {actionList : List String}
    (hon : ∀ u ∈ userIds, OnScopes db scopes u)
    (husers : ∀ u ∈ userIds, ∃ user ∈ db.users.rows, user.id = u ∧ ¬ user.Deleted) :
    BulkListsGranted db scopes order userIds actionList ↔
      ∀ u ∈ userIds, Even db scopes u actionList := by
  -- a user with rows is granted something, so it is answered wherever the answer is right
  have hanswers : (∀ u ∈ userIds, ∀ A ∈ actionList, ∀ t i, Holds db u A t i →
        ∃ result, formatUserActionResources scopes order
          (TokenStore.actionResources db u actionList) actionList = .ok result) →
      actionList ≠ [] →
      ∃ results, getBulkActionResources db scopes order userIds actionList = .ok results := by
    intro h hne
    refine getBulkActionResources_ok husers fun u hu hrows => ?_
    obtain ⟨A, hA, t, i, hholds⟩ := holds_of_row (hon u hu) hne hrows
    exact h u hu A hA t i hholds
  have hsingle : (∀ u ∈ userIds, Even db scopes u actionList) ↔
      ∀ u ∈ userIds, ∀ A ∈ actionList, ∀ t i, Lists (formatUserActionResources scopes order
        (TokenStore.actionResources db u actionList) actionList) A t i ↔
          Granted db scopes u A t i :=
    forall₂_congr fun u hu => (lists_iff_granted_iff (hon u hu) actionList).symm
  rw [hsingle]
  constructor
  · intro hprop u hu A hA t i
    by_cases hbulk : ∃ results,
        getBulkActionResources db scopes order userIds actionList = .ok results
    · obtain ⟨results, hok⟩ := hbulk
      rw [← listsFor_iff_lists hok hu hA]
      exact hprop u hu A hA t i
    · refine absurd (hanswers (fun v hv B hB t' i' hholds => ?_) (List.ne_nil_of_mem hA)) hbulk
      obtain ⟨results, hok, -⟩ := (hprop v hv B hB t' i').mpr (Or.inl hholds)
      exact absurd ⟨results, hok⟩ hbulk
  · intro hprop u hu A hA t i
    obtain ⟨results, hok⟩ := hanswers (fun v hv B hB t' i' hholds => by
      obtain ⟨result, hok, -⟩ := (hprop v hv B hB t' i').mpr (Or.inl hholds)
      exact ⟨result, hok⟩) (List.ne_nil_of_mem hA)
    rw [listsFor_iff_lists hok hu hA]
    exact hprop u hu A hA t i

/-- **The answers are what the assignments grant exactly when these are even**, asked for one user
or in bulk. -/
theorem listed_iff_granted_iff (db : Db) (scopes : Scopes)
    (order : SetOrder (Option Uuid × ScopeType)) (actionList : List String)
    (hon : ∀ u, OnScopes db scopes u) :
    (∀ who : Who, ListsGranted db scopes order who actionList ↔
      Even db scopes who.userId actionList) ∧
    ∀ userIds : List Uuid,
      (∀ u ∈ userIds, ∃ user ∈ db.users.rows, user.id = u ∧ ¬ user.Deleted) →
      (BulkListsGranted db scopes order userIds actionList ↔
        ∀ u ∈ userIds, Even db scopes u actionList) :=
  ⟨fun who => listsGranted_iff (hon who.userId) actionList,
    fun _ husers => bulkListsGranted_iff (fun u _ => hon u) husers⟩

/-! ### Two organizations

User `1` manages organization `10` and may read organization `20`, each with one pool.
-/

/-- A role for each of the two actions, assigned on an organization of its own. -/
def twoRoles : Db where
  users := ⟨[{ id := 1 }], by decide⟩
  roles := ⟨[{ id := 1 }, { id := 2 }], by decide⟩
  actions := ⟨[⟨1, "MANAGE_POOLS", 0⟩, ⟨2, "INFO_ORGANIZATION", 0⟩], by decide⟩
  roleActions := [⟨1, 1⟩, ⟨2, 2⟩]
  assignments := ⟨[⟨1, .organization, 1, 1, some 10, 0⟩, ⟨2, .organization, 2, 1, some 20, 0⟩],
    by decide⟩
  actionNames := by decide

/-- The organizations and their pools. -/
def twoOrganizations : Scopes where
  organizations := ⟨[{ id := 10 }, { id := 20 }], by decide⟩
  pools := ⟨[{ id := 11, organizationId := 10 }, { id := 21, organizationId := 20 }], by decide⟩
  ids_disjoint := by decide

/-- Sets in the order their elements first came. -/
def firstCome : SetOrder (Option Uuid × ScopeType) where
  toList := List.dedup
  nodup := List.nodup_dedup
  mem _ _ := List.mem_dedup

theorem twoRoles_assignments {a : Assignment} (ha : a ∈ twoRoles.assignments.rows) :
    a = ⟨1, .organization, 1, 1, some 10, 0⟩ ∨ a = ⟨2, .organization, 2, 1, some 20, 0⟩ := by
  simpa [twoRoles] using ha

theorem twoRoles_onScopes (u : Uuid) : OnScopes twoRoles twoOrganizations u := by
  intro a ha _ _
  rcases twoRoles_assignments ha with rfl | rfl
  · exact ⟨10, rfl, { id := 10 }, by decide, rfl⟩
  · exact ⟨20, rfl, { id := 20 }, by decide, rfl⟩

/-- What the user holds: the one action on `10`, the other on `20`. -/
theorem twoRoles_holds {A : String} {t : ScopeType} {i : Uuid} :
    Holds twoRoles 1 A t i ↔ t = .organization ∧
      (i = 10 ∧ A = "MANAGE_POOLS" ∨ i = 20 ∧ A = "INFO_ORGANIZATION") := by
  constructor
  · rintro ⟨a, ha, -, -, -, -, rfl, hres, act, hact, -, rfl⟩
    rcases twoRoles_assignments ha with rfl | rfl
    · obtain rfl := List.mem_singleton.mp (show act ∈ [⟨1, "MANAGE_POOLS", 0⟩] from hact)
      exact ⟨rfl, Or.inl ⟨(Option.some.inj hres).symm, rfl⟩⟩
    · obtain rfl := List.mem_singleton.mp (show act ∈ [⟨2, "INFO_ORGANIZATION", 0⟩] from hact)
      exact ⟨rfl, Or.inr ⟨(Option.some.inj hres).symm, rfl⟩⟩
  · rintro ⟨rfl, ⟨rfl, rfl⟩ | ⟨rfl, rfl⟩⟩
    · exact ⟨⟨1, .organization, 1, 1, some 10, 0⟩, by decide, rfl, by decide, by decide, by decide,
        rfl, rfl, ⟨1, "MANAGE_POOLS", 0⟩, by decide, by decide, rfl⟩
    · exact ⟨⟨2, .organization, 2, 1, some 20, 0⟩, by decide, rfl, by decide, by decide, by decide,
        rfl, rfl, ⟨2, "INFO_ORGANIZATION", 0⟩, by decide, by decide, rfl⟩

theorem twoOrganizations_pools {o p : Uuid} :
    twoOrganizations.LivePoolOf o p ↔ o = 10 ∧ p = 11 ∨ o = 20 ∧ p = 21 := by
  simp only [Scopes.LivePoolOf, twoOrganizations, List.exists_mem_cons_iff]
  simp [eq_comm, and_comm]

/-- **An action leaks to the pools of another organization.** -/
theorem action_leaks_to_other_pools :
    ¬ ∀ (db : Db) (scopes : Scopes) (order : SetOrder (Option Uuid × ScopeType)) (who : Who)
        (actionList : List String), OnScopes db scopes who.userId →
        ListsGranted db scopes order who actionList := by
  intro h
  have heven := (listsGranted_iff (twoRoles_onScopes 1) _).mp
    (h twoRoles twoOrganizations firstCome (.token 1) ["MANAGE_POOLS", "INFO_ORGANIZATION"]
      (twoRoles_onScopes 1))
  have hleak := heven.2 "MANAGE_POOLS" (by simp) "INFO_ORGANIZATION" (by simp) .organization 10
    .organization 20 (twoRoles_holds.mpr (by simp)) (twoRoles_holds.mpr (by simp)) 21
    (twoOrganizations_pools.mpr (by simp))
  rcases hleak with hholds | ⟨-, o, hpool, hholds⟩
  · exact nomatch (twoRoles_holds.mp hholds).1
  · rcases twoOrganizations_pools.mp hpool with ⟨-, h⟩ | ⟨rfl, -⟩
    · exact absurd h (by decide)
    · exact absurd (twoRoles_holds.mp hholds).2 (by decide)

/-- Asked for one action alone, both calls answer what is granted. -/
theorem listed_iff_granted_iff_one_action :
    ListsGranted twoRoles twoOrganizations firstCome (.user 1) ["MANAGE_POOLS"] ∧
      BulkListsGranted twoRoles twoOrganizations firstCome [1] ["MANAGE_POOLS"] := by
  have heven : Even twoRoles twoOrganizations 1 ["MANAGE_POOLS"] := by
    refine ⟨fun A _ t i hholds => ?_, fun A hA B hB t i t' i' hAi hBi p hunder => ?_⟩
    · obtain ⟨rfl, hi⟩ := twoRoles_holds.mp hholds
      rcases hi with ⟨rfl, -⟩ | ⟨rfl, -⟩
      · exact ⟨{ id := 10 }, by decide, rfl, by decide⟩
      · exact ⟨{ id := 20 }, by decide, rfl, by decide⟩
    · obtain rfl := List.mem_singleton.mp hA
      obtain rfl := List.mem_singleton.mp hB
      obtain ⟨rfl, -⟩ := twoRoles_holds.mp hBi
      exact Or.inr ⟨rfl, i', hunder, hBi⟩
  have hiff := listed_iff_granted_iff twoRoles twoOrganizations firstCome ["MANAGE_POOLS"]
    twoRoles_onScopes
  exact ⟨(hiff.1 (.user 1)).mpr heven,
    (hiff.2 [1] (by decide)).mpr fun u hu => List.mem_singleton.mp hu ▸ heven⟩

end BaseController

end Auth
