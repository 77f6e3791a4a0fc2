import OptScale.Pools.Costs

/-!
# Pools/Totals — the costs of a pool are those of its family

`calculate_costs` goes down a subtree and sets each pool on the way back (`calculateCosts_spec`): a pool costs what
is spent in it and in all pools below it.  The report goes down the same way and lists each pool of the subtree
once, under the names of the pools above it (`poolReport_totals`).
-/

open Fallible Forest

namespace PoolTree

/-- A live pool, and the pools below it; no chain of live pools comes back. -/
structure Subtree where
  pools : Table Pool.id
  root : Pool
  mem : root ∈ live pools
  ranked : ∃ rank : Uuid → ℕ, ∀ p ∈ live pools, ∀ a, p.parentId = some a → rank a < rank p.id

/-- The pools of a family, and what they come to. -/
noncomputable abbrev familyOf (t : Table Pool.id) (p : Pool) : List Pool := family Pool.id Pool.parentId (live t) p

noncomputable abbrev totalOf (t : Table Pool.id) (f : Pool → ℚ) (p : Pool) : ℚ :=
  total Pool.id Pool.parentId (live t) f p

/-! ## The hierarchy -/

section Hierarchy

variable {t : Table Pool.id} {rank : Uuid → ℕ} {root p q : Pool}

theorem nodup_live : ((live t).map Pool.id).Nodup := t.nodup.sublist (List.filter_sublist.map _)

theorem below_of_descends (hroot : root ∈ live t) : ∀ {n : ℕ} {p : Pool}, p ∈ live t →
    descends (live t) root.id n p = true → Below Pool.id Pool.parentId (live t) root p
  | 0, p, hp, h => by
    obtain rfl := List.inj_on_of_nodup_map nodup_live hp hroot (of_decide_eq_true h)
    exact .refl
  | n + 1, p, hp, h => by
    rw [descends, Bool.or_eq_true, List.any_eq_true] at h
    obtain hid | ⟨q, hq, hqp⟩ := h
    · obtain rfl := List.inj_on_of_nodup_map nodup_live hp hroot (of_decide_eq_true hid)
      exact .refl
    · rw [Bool.and_eq_true, decide_eq_true_eq] at hqp
      exact .tail (below_of_descends hroot hq hqp.2) ⟨hq, hp, hqp.1⟩

theorem descends_of_below (hrank : ∀ p ∈ live t, ∀ a, p.parentId = some a → rank a < rank p.id)
    (h : Below Pool.id Pool.parentId (live t) root p) : ∀ {n : ℕ},
      ((live t).filter fun q => rank q.id < rank p.id).length ≤ n → descends (live t) root.id n p = true := by
  induction h with
  | refl =>
    intro n _
    cases n <;> simp [descends]
  | @tail b p hb hchild ih =>
    intro n hn
    have hlt := depth_lt hrank hchild
    obtain ⟨n, rfl⟩ : ∃ m, n = m + 1 := ⟨n - 1, by omega⟩
    simp only [descends, Bool.or_eq_true, List.any_eq_true, Bool.and_eq_true, decide_eq_true_eq]
    exact Or.inr ⟨b, hchild.1, hchild.2.2, ih (by omega)⟩

/-- **The hierarchy of a pool is its family.** -/
theorem getItemHierarchy_eq (hrank : ∀ p ∈ live t, ∀ a, p.parentId = some a → rank a < rank p.id)
    (hroot : root ∈ live t) : getItemHierarchy t root.id = familyOf t root := by
  classical
  refine List.filter_congr fun p hp => ?_
  rw [Bool.eq_iff_iff, decide_eq_true_iff]
  exact ⟨below_of_descends hroot hp, fun h => descends_of_below hrank h (List.length_filter_le _ _)⟩

/-- A pool of the family has its children there. -/
theorem children_family (hp : p ∈ familyOf t root) :
    ((familyOf t root).filter fun b => b.parentId = some p.id) = children Pool.id Pool.parentId (live t) p := by
  classical
  obtain ⟨hlive, hbelow⟩ := mem_family.mp hp
  unfold familyOf family children
  rw [List.filter_filter]
  refine List.filter_congr fun q hq => ?_
  rw [Bool.eq_iff_iff, Bool.and_eq_true, decide_eq_true_iff, decide_eq_true_iff]
  exact and_iff_left_of_imp fun hpar => .tail hbelow ⟨hlive, hq, hpar⟩

theorem mem_family_of_child (hp : p ∈ familyOf t root) (hq : q ∈ children Pool.id Pool.parentId (live t) p) :
    q ∈ familyOf t root := by
  obtain ⟨hlive, hbelow⟩ := mem_family.mp hp
  have hchild := (mem_children hlive).mp hq
  exact mem_family.mpr ⟨hchild.2.1, .tail hbelow hchild⟩

end Hierarchy

/-! ## `calculate_costs` -/

section Costs

variable {t : Table Pool.id} {rank : Uuid → ℕ} {root : Pool} {monthExpenses : Table MonthExpense.poolId}

/-- What is spent in a pool directly. -/
def selfCost (monthExpenses : Table MonthExpense.poolId) (p : Pool) : ℚ :=
  ((monthExpenses.get? p.id).map MonthExpense.cost).getD 0

/-- The forecast of a pool alone. -/
def selfForecast (monthExpenses : Table MonthExpense.poolId) (p : Pool) : ℚ :=
  ((monthExpenses.get? p.id).bind MonthExpense.forecast).getD 0

/-- The ids of the children of a pool. -/
def childIds (t : Table Pool.id) (p : Pool) : List Uuid := (children Pool.id Pool.parentId (live t) p).map Pool.id

/-- The entry of a pool with all its costs. -/
noncomputable def finishedEntry (t : Table Pool.id) (monthExpenses : Table MonthExpense.poolId) (p : Pool) :
    PoolEntry :=
  ⟨p, childIds t p, selfCost monthExpenses p, totalOf t (selfCost monthExpenses) p,
    totalOf t (selfForecast monthExpenses) p⟩

/-- **The entries are those of a family, and some are finished.** -/
structure Filled (t : Table Pool.id) (monthExpenses : Table MonthExpense.poolId) (root : Pool) (done : Pool → Prop)
    (m : PoolMap) : Prop where
  pools : m.rows.map PoolEntry.pool = familyOf t root
  children : ∀ e ∈ m.rows, e.children = childIds t e.pool
  finished : ∀ e ∈ m.rows, done e.pool → e = finishedEntry t monthExpenses e.pool

variable {done done' : Pool → Prop} {m : PoolMap} {p : Pool}

theorem Filled.mono (h : Filled t monthExpenses root done m) (hdone : ∀ p, done' p → done p) :
    Filled t monthExpenses root done' m where
  pools := h.pools
  children := h.children
  finished e he hd := h.finished e he (hdone e.pool hd)

theorem Filled.mem (h : Filled t monthExpenses root done m) {e : PoolEntry} (he : e ∈ m.rows) :
    e.pool ∈ familyOf t root := h.pools ▸ List.mem_map_of_mem he

/-- The entry of a pool of the family. -/
theorem Filled.get? (h : Filled t monthExpenses root done m) (hp : p ∈ familyOf t root) :
    ∃ e ∈ m.rows, m.get? p.id = some e ∧ e.pool = p := by
  obtain ⟨e, he, rfl⟩ := List.mem_map.mp (h.pools ▸ hp)
  exact ⟨e, he, Table.get?_eq_some.mpr ⟨he, rfl⟩, rfl⟩

theorem filled_startMap (hrank : ∀ p ∈ live t, ∀ a, p.parentId = some a → rank a < rank p.id)
    (hroot : root ∈ live t) : Filled t monthExpenses root (fun _ => False) (startMap t root.id) where
  pools := by
    simp only [startMap, getItemHierarchy_eq hrank hroot, List.map_map]
    exact List.map_id _
  children := by
    simp only [startMap, getItemHierarchy_eq hrank hroot]
    refine List.forall_mem_map.mpr fun p hp => ?_
    exact congrArg (List.map Pool.id) (children_family hp)
  finished _ _ h := h.elim

/-- **Children, one after the other.** -/
theorem forChildren_spec {call : Uuid → Session PoolMap Failure (ℚ × ℚ)} {value : Pool → ℚ × ℚ} :
    ∀ {cs : List Pool}, (∀ c ∈ cs, ∀ (done : Pool → Prop) (m : PoolMap), Filled t monthExpenses root done m →
      ∃ m', call c.id m = (.ok (value c), m') ∧
        Filled t monthExpenses root (fun q => done q ∨ Below Pool.id Pool.parentId (live t) c q) m') →
    ∀ (done : Pool → Prop) (m : PoolMap), Filled t monthExpenses root done m →
      ∃ m', forChildren call (cs.map Pool.id) m = (.ok (cs.map value), m') ∧
        Filled t monthExpenses root (fun q => done q ∨ ∃ c ∈ cs, Below Pool.id Pool.parentId (live t) c q) m'
  | [], _, done, m, hm => ⟨m, rfl, hm.mono fun p h => h.resolve_right (by simp)⟩
  | c :: cs, hcall, done, m, hm => by
    obtain ⟨m₁, hrun, hm₁⟩ := hcall c List.mem_cons_self done m hm
    obtain ⟨m₂, hrest, hm₂⟩ := forChildren_spec (fun c' hc' => hcall c' (List.mem_cons_of_mem c hc')) _ m₁ hm₁
    refine ⟨m₂, ?_, hm₂.mono fun p hp => ?_⟩
    · rw [List.map_cons, forChildren, Session.bind_of_ok hrun, Session.bind_of_ok hrest]
      rfl
    · simpa only [List.mem_cons, exists_eq_or_imp, or_assoc] using hp

/-- The costs of a pool are set. -/
noncomputable def finishIn (t : Table Pool.id) (monthExpenses : Table MonthExpense.poolId) (p : Pool) (m : PoolMap) :
    PoolMap :=
  m.updateWhere (fun e => e.pool.id = p.id) (fun e => { e with
    directCost := selfCost monthExpenses p
    cost := totalOf t (selfCost monthExpenses) p
    forecast := totalOf t (selfForecast monthExpenses) p }) fun _ => rfl

/-- With its children's families and its own entry a pool's family is finished. -/
theorem Filled.finishIn (hp : p ∈ familyOf t root) (h : Filled t monthExpenses root (fun q =>
      done q ∨ ∃ c ∈ Forest.children Pool.id Pool.parentId (live t) p, Below Pool.id Pool.parentId (live t) c q) m) :
    Filled t monthExpenses root (fun q => done q ∨ Below Pool.id Pool.parentId (live t) p q)
      (finishIn t monthExpenses p m) := by
  obtain ⟨hlive, -⟩ := mem_family.mp hp
  -- the entries after it, by those before it
  have hentry : ∀ e ∈ (PoolTree.finishIn t monthExpenses p m).rows, ∃ e₀ ∈ m.rows, e.pool = e₀.pool ∧
      e.children = e₀.children ∧ (e₀.pool = p → e = finishedEntry t monthExpenses p) ∧ (e₀.pool ≠ p → e = e₀) := by
    intro e he
    obtain ⟨e₀, he₀, rfl⟩ := Table.mem_updateWhere.mp he
    obtain ⟨hlive₀, -⟩ := mem_family.mp (h.mem he₀)
    by_cases hp₀ : e₀.pool = p
    · have hchildren := h.children e₀ he₀
      have hid : decide (e₀.pool.id = p.id) = true := decide_eq_true (congrArg Pool.id hp₀)
      rw [if_pos hid]
      refine ⟨e₀, he₀, rfl, rfl, fun _ => ?_, fun hne => absurd hp₀ hne⟩
      rw [finishedEntry, hchildren, hp₀]
    · have hid : ¬ decide (e₀.pool.id = p.id) = true := fun hid =>
        hp₀ (List.inj_on_of_nodup_map nodup_live hlive₀ hlive (of_decide_eq_true hid))
      rw [if_neg hid]
      exact ⟨e₀, he₀, rfl, rfl, fun heq => absurd heq hp₀, fun _ => rfl⟩
  refine ⟨?_, fun e he => ?_, fun e he hd => ?_⟩
  · rw [← h.pools]
    simp only [PoolTree.finishIn, Table.updateWhere, List.map_map]
    refine List.map_congr_left fun e _ => ?_
    simp only [Function.comp_apply]
    split <;> rfl
  · obtain ⟨e₀, he₀, hpool, hchildren, -, -⟩ := hentry e he
    rw [hchildren, hpool, h.children e₀ he₀]
  · obtain ⟨e₀, he₀, hpool, -, hsame, hother⟩ := hentry e he
    by_cases hp₀ : e₀.pool = p
    · rw [hpool, hp₀]
      exact hsame hp₀
    · rw [hpool, hother hp₀]
      refine h.finished e₀ he₀ ?_
      rw [hpool] at hd
      obtain hd | hbelow := hd
      · exact Or.inl hd
      obtain heq | ⟨c, hc, hbelow⟩ := Relation.ReflTransGen.cases_head_iff.mp hbelow
      · exact absurd heq.symm hp₀
      · exact Or.inr ⟨c, (mem_children hlive).mpr hc, hbelow⟩

/-- **The costs of a subtree**: all pools of it are finished. -/
theorem calculateCosts_spec (hrank : ∀ p ∈ live t, ∀ a, p.parentId = some a → rank a < rank p.id) :
    ∀ {n : ℕ} {p : Pool}, p ∈ familyOf t root → ((live t).filter fun q => rank p.id < rank q.id).length < n →
    ∀ (done : Pool → Prop) (m : PoolMap), Filled t monthExpenses root done m →
      ∃ m', calculateCosts monthExpenses n p.id m =
          (.ok (totalOf t (selfCost monthExpenses) p, totalOf t (selfForecast monthExpenses) p), m') ∧
        Filled t monthExpenses root (fun q => done q ∨ Below Pool.id Pool.parentId (live t) p q) m'
  | 0, p, _, hn, _, _, _ => absurd hn (Nat.not_lt_zero _)
  | n + 1, p, hp, hn, done, m, hm => by
    obtain ⟨hlive, -⟩ := mem_family.mp hp
    obtain ⟨e, he, hget, hpool⟩ := hm.get? hp
    have hcall : ∀ c ∈ children Pool.id Pool.parentId (live t) p, ∀ (done : Pool → Prop) (m : PoolMap),
        Filled t monthExpenses root done m → ∃ m', calculateCosts monthExpenses n c.id m =
            (.ok (totalOf t (selfCost monthExpenses) c, totalOf t (selfForecast monthExpenses) c), m') ∧
          Filled t monthExpenses root (fun q => done q ∨ Below Pool.id Pool.parentId (live t) c q) m' := by
      intro c hc
      have hlt := levels_lt hrank ((mem_children hlive).mp hc)
      exact calculateCosts_spec hrank (mem_family_of_child hp hc) (by omega)
    obtain ⟨m₁, hrun, hm₁⟩ := forChildren_spec hcall done m hm
    refine ⟨finishIn t monthExpenses p m₁, ?_, hm₁.finishIn hp⟩
    have hcost : selfCost monthExpenses p + (((children Pool.id Pool.parentId (live t) p).map fun c =>
        (totalOf t (selfCost monthExpenses) c, totalOf t (selfForecast monthExpenses) c)).map Prod.fst).sum =
          totalOf t (selfCost monthExpenses) p := by
      rw [List.map_map]
      exact (total_eq nodup_live hrank (selfCost monthExpenses) hlive).symm
    have hforecast : selfForecast monthExpenses p + (((children Pool.id Pool.parentId (live t) p).map fun c =>
        (totalOf t (selfCost monthExpenses) c, totalOf t (selfForecast monthExpenses) c)).map Prod.snd).sum =
          totalOf t (selfForecast monthExpenses) p := by
      rw [List.map_map]
      exact (total_eq nodup_live hrank (selfForecast monthExpenses) hlive).symm
    have hread : orFail ((m.get? p.id).map PoolEntry.children) (Failure.python "KeyError") = .ok (childIds t p) := by
      rw [hget, Option.map_some, hm.children e he, hpool]
      rfl
    have hfirst : (Session.read fun m : PoolMap => orFail ((m.get? p.id).map PoolEntry.children)
        (Failure.python "KeyError")) m = (.ok (childIds t p), m) := Session.read_eq_ok.mpr ⟨hread, rfl⟩
    have hchildren : forChildren (calculateCosts monthExpenses n) (childIds t p) m =
        (.ok ((children Pool.id Pool.parentId (live t) p).map fun c =>
          (totalOf t (selfCost monthExpenses) c, totalOf t (selfForecast monthExpenses) c)), m₁) := hrun
    rw [calculateCosts, Session.bind_of_ok hfirst, Session.bind_of_ok hchildren, finishIn, ← hcost, ← hforecast]
    rfl

/-! ## The report -/

/-- **The names of the ancestors of a pool, and its own**, from a pool above it. -/
inductive AncestorChain (t : Table Pool.id) (p : Pool) : Pool → List Text → Prop
  | self : AncestorChain t p p [p.name]
  | child {q c : Pool} {names : List Text} : AncestorChain t p q names → Child Pool.id Pool.parentId (live t) q c →
      AncestorChain t p c (names ++ [c.name])

theorem AncestorChain.cons {c q : Pool} {names : List Text} (hc : Child Pool.id Pool.parentId (live t) p c)
    (h : AncestorChain t c q names) : AncestorChain t p q (p.name :: names) := by
  induction h with
  | self => exact .child .self hc
  | child _ hchild ih => exact .child ih hchild

theorem mapM_of_ok {α β : Type} {f : α → Except Failure β} {g : α → β} : ∀ {l : List α},
    (∀ a ∈ l, f a = .ok (g a)) → l.mapM f = .ok (l.map g)
  | [], _ => rfl
  | a :: l, h => by
    rw [List.mapM_cons, h a List.mem_cons_self, ok_bind, mapM_of_ok fun b hb => h b (List.mem_cons_of_mem a hb)]
    rfl

/-- **The report of a subtree**: each pool of it once, under the names above it. -/
theorem dfs_spec (hrank : ∀ p ∈ live t, ∀ a, p.parentId = some a → rank a < rank p.id)
    (hm : Filled t monthExpenses root done m) (hdone : ∀ q ∈ familyOf t root, done q) :
    ∀ {n : ℕ} {p : Pool}, p ∈ familyOf t root → ((live t).filter fun q => rank p.id < rank q.id).length < n →
    ∀ ancestors : List Text, ∃ rows, dfs m n p.id ancestors = .ok rows ∧
      (rows.map fun r => r.entry.pool).Perm (familyOf t p) ∧
      ∀ r ∈ rows, r.entry = finishedEntry t monthExpenses r.entry.pool ∧
        ∃ names, AncestorChain t p r.entry.pool names ∧ r.path = ancestors ++ names
  | 0, p, _, hn, _ => absurd hn (Nat.not_lt_zero _)
  | n + 1, p, hp, hn, ancestors => by
    obtain ⟨hlive, -⟩ := mem_family.mp hp
    obtain ⟨e, he, hget, rfl⟩ := hm.get? hp
    have hcall : ∀ c ∈ children Pool.id Pool.parentId (live t) e.pool, ∃ rows,
        dfs m n c.id (ancestors ++ [e.pool.name]) = .ok rows ∧
          (rows.map fun r => r.entry.pool).Perm (familyOf t c) ∧
          ∀ r ∈ rows, r.entry = finishedEntry t monthExpenses r.entry.pool ∧
            ∃ names, AncestorChain t c r.entry.pool names ∧ r.path = ancestors ++ [e.pool.name] ++ names := by
      intro c hc
      have hlt := levels_lt hrank ((mem_children hlive).mp hc)
      exact dfs_spec hrank hm hdone (mem_family_of_child hp hc) (by omega) _
    -- the rows of a child, by its id
    obtain ⟨rowsOf, hrowsOf⟩ : ∃ rowsOf : Uuid → List Visit, ∀ c ∈ children Pool.id Pool.parentId (live t) e.pool,
        dfs m n c.id (ancestors ++ [e.pool.name]) = .ok (rowsOf c.id) := by
      refine ⟨fun id => (dfs m n id (ancestors ++ [e.pool.name])).toOption.getD [], fun c hc => ?_⟩
      obtain ⟨rows, hrows, -⟩ := hcall c hc
      simp only [hrows]
      rfl
    have hcall' : ∀ c ∈ children Pool.id Pool.parentId (live t) e.pool,
        ((rowsOf c.id).map fun r => r.entry.pool).Perm (familyOf t c) ∧
          ∀ r ∈ rowsOf c.id, r.entry = finishedEntry t monthExpenses r.entry.pool ∧
            ∃ names, AncestorChain t c r.entry.pool names ∧ r.path = ancestors ++ [e.pool.name] ++ names := by
      intro c hc
      obtain ⟨rows, hrows, h⟩ := hcall c hc
      rw [hrowsOf c hc] at hrows
      obtain rfl := Except.ok.inj hrows
      exact h
    have hsorted : (sortedChildren m e).Perm ((children Pool.id Pool.parentId (live t) e.pool).map Pool.id) := by
      refine (List.mergeSort_perm e.children _).trans ?_
      rw [hm.children e he]
      exact List.Perm.refl _
    have hmapM : (sortedChildren m e).mapM (fun childId => dfs m n childId (ancestors ++ [e.pool.name])) =
        .ok ((sortedChildren m e).map rowsOf) := by
      refine mapM_of_ok fun id hid => ?_
      obtain ⟨c, hc, rfl⟩ := List.mem_map.mp (hsorted.subset hid)
      exact hrowsOf c hc
    refine ⟨⟨e, ancestors ++ [e.pool.name]⟩ :: ((sortedChildren m e).map rowsOf).flatten, ?_, ?_, ?_⟩
    · rw [dfs, hget, orFail_some, ok_bind]
      simp only [hmapM, ok_bind]
      rfl
    · rw [List.map_cons]
      refine List.Perm.trans (List.Perm.cons _ ?_) (family_perm nodup_live hrank hlive).symm
      calc (((sortedChildren m e).map rowsOf).flatten.map fun r => r.entry.pool)
          = (sortedChildren m e).flatMap fun id => (rowsOf id).map fun r => r.entry.pool := by
            rw [List.map_flatten, List.map_map, List.flatMap_def]
            rfl
        List.Perm _ (((children Pool.id Pool.parentId (live t) e.pool).map Pool.id).flatMap fun id =>
            (rowsOf id).map fun r => r.entry.pool) := hsorted.flatMap_right _
        _ = (children Pool.id Pool.parentId (live t) e.pool).flatMap fun c =>
            (rowsOf c.id).map fun r => r.entry.pool := List.flatMap_map ..
        List.Perm _ ((children Pool.id Pool.parentId (live t) e.pool).flatMap (familyOf t)) :=
          List.Perm.flatMap_left _ fun c hc => (hcall' c hc).1
    · refine List.forall_mem_cons.mpr ⟨⟨hm.finished e he (hdone _ hp), _, .self, rfl⟩, fun r hr => ?_⟩
      obtain ⟨rows, hrows, hr⟩ := List.mem_flatten.mp hr
      obtain ⟨id, hid, rfl⟩ := List.mem_map.mp hrows
      obtain ⟨c, hc, rfl⟩ := List.mem_map.mp (hsorted.subset hid)
      obtain ⟨hentry, names, hchain, hpath⟩ := (hcall' c hc).2 r hr
      refine ⟨hentry, _, hchain.cons ((mem_children hlive).mp hc), ?_⟩
      rw [hpath, List.append_assoc]
      rfl

end Costs

/-! ## The totals -/

section Direct

variable {B : Books} {periodDay endDate : ℤ}

/-- What is spent in a pool in a period. -/
def spent (expenses : List PoolExpense) (periodDay endDate : ℤ) (p : Pool) : ℚ :=
  ((expenses.filter fun e => e.poolId = p.id ∧ periodDay ≤ e.date ∧ e.date ≤ endDate).map PoolExpense.cost).sum

theorem spent_cons (e : PoolExpense) (expenses : List PoolExpense) (p : Pool) :
    spent (e :: expenses) periodDay endDate p =
      (if e.poolId = p.id then if periodDay ≤ e.date ∧ e.date ≤ endDate then e.cost else 0 else 0) +
        spent expenses periodDay endDate p := by
  unfold spent
  rw [List.filter_cons]
  by_cases hpool : e.poolId = p.id <;> by_cases hdate : periodDay ≤ e.date ∧ e.date ≤ endDate <;>
    simp [hpool, hdate]

variable (B periodDay endDate) in
theorem selfCost_foldl (p : Pool) : ∀ (expenses : List PoolExpense) (result : Table MonthExpense.poolId),
    selfCost (expenses.foldl (addExpense B periodDay endDate) result) p =
      selfCost result p + spent expenses periodDay endDate p
  | [], result => by simp [spent]
  | e :: expenses, result => by
    have hstep : selfCost (addExpense B periodDay endDate result e) p = selfCost result p +
        if e.poolId = p.id then if periodDay ≤ e.date ∧ e.date ≤ endDate then e.cost else 0 else 0 := by
      have hget : (addExpense B periodDay endDate result e).get? p.id =
          if e.poolId = p.id then some (((result.get? p.id).map (gain B periodDay endDate e)).getD
            (gain B periodDay endDate e { poolId := e.poolId, firstExpense := e.date }))
          else result.get? p.id := Table.get?_upsert
      unfold selfCost
      rw [hget]
      by_cases hpool : e.poolId = p.id
      · rw [if_pos hpool, if_pos hpool]
        cases result.get? p.id <;> simp [gain]
      · rw [if_neg hpool, if_neg hpool, add_zero]
    rw [List.foldl_cons, selfCost_foldl p expenses, hstep, spent_cons, add_assoc]

/-- **What is gathered for a pool is what is spent in it.** -/
theorem selfCost_getPoolExpenses (poolIds : List Uuid) (periodDay endDate : Option ℤ) (forecast : Bool) (p : Pool) :
    selfCost (getPoolExpenses B poolIds periodDay endDate forecast) p =
      spent (fetchedExpenses B poolIds (periodDay.getD B.monthStart) (endDate.getD B.today) forecast)
        (periodDay.getD B.monthStart) (endDate.getD B.today) p := by
  have hfold := selfCost_foldl B (periodDay.getD B.monthStart) (endDate.getD B.today) p
    (fetchedExpenses B poolIds (periodDay.getD B.monthStart) (endDate.getD B.today) forecast) .empty
  have hempty : selfCost (.empty : Table MonthExpense.poolId) p = 0 := rfl
  rw [hempty, zero_add] at hfold
  rw [← hfold, getPoolExpenses]
  split
  · unfold selfCost
    rw [Table.get?_updateWhere, Option.map_map]
    rfl
  · rfl

end Direct

namespace Subtree

variable (B : Books) (S : Subtree) (forecast : Bool) (startDate endDate : Option ℤ)

/-- The ids of the pools of the subtree. -/
noncomputable def ids : List Uuid := (familyOf S.pools S.root).map Pool.id

/-- What is spent directly in a pool of the subtree, of the expenses that are found. -/
noncomputable def direct (p : Pool) : ℚ :=
  spent (fetchedExpenses B S.ids (startDate.getD B.monthStart) (endDate.getD B.today) forecast)
    (startDate.getD B.monthStart) (endDate.getD B.today) p

/-- What is forecast for a pool of the subtree alone. -/
noncomputable def forecasts (p : Pool) : ℚ :=
  selfForecast (getPoolExpenses B S.ids startDate endDate forecast) p

theorem selfCost_eq : selfCost (getPoolExpenses B S.ids startDate endDate forecast) =
    S.direct B forecast startDate endDate :=
  funext fun p => selfCost_getPoolExpenses S.ids startDate endDate forecast p

theorem mem_self : S.root ∈ familyOf S.pools S.root := mem_family.mpr ⟨S.mem, .refl⟩

theorem levels_root (rank : Uuid → ℕ) :
    ((live S.pools).filter fun q => rank S.root.id < rank q.id).length < (live S.pools).length := by
  have hlt : ((live S.pools).filter fun q => rank S.root.id < rank q.id).length <
      ((live S.pools).filter fun _ => true).length := length_filter_lt (fun _ _ => rfl) S.mem rfl (by simp)
  rwa [List.filter_true] at hlt

theorem exists_costs : ∃ m, getPoolHierarchyCosts B S.pools S.root.id forecast startDate endDate = .ok m ∧
    Filled S.pools (getPoolExpenses B S.ids startDate endDate forecast) S.root
      (fun q => q ∈ familyOf S.pools S.root) m := by
  obtain ⟨rank, hrank⟩ := S.ranked
  have hstart : Filled S.pools (getPoolExpenses B S.ids startDate endDate forecast) S.root (fun _ => False)
      (startMap S.pools S.root.id) := filled_startMap hrank S.mem
  have hids : (startMap S.pools S.root.id).rows.map (fun e => e.pool.id) = S.ids := by
    rw [ids, ← hstart.pools, List.map_map]
    rfl
  obtain ⟨m, hrun, hm⟩ := calculateCosts_spec hrank S.mem_self (S.levels_root rank) _ _ hstart
  refine ⟨m, ?_, hm.mono fun p hp => Or.inr (mem_family.mp hp).2⟩
  rw [getPoolHierarchyCosts, hids, hrun]
  rfl

end Subtree

end PoolTree
