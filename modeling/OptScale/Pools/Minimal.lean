import OptScale.Pools.Limits

/-!
# Pools/Minimal — what `extend_parent_pools` changes, limit by limit

The limits are found first and written to the pools of the session after, so nothing is written when a
permission is missing.  A pending limit of 0 is taken for none, and the stored one counted instead: the
parent of a pool that is lowered to 0 is then raised to a sum nobody has.  That apart, an extension changes
the pool and the pools above that do not cover their children, each to exactly their sum
(`extendPools_iff`).
-/

open Fallible Forest

namespace PoolTree

/-- The pools of the session: those of the database, and one that is not stored yet. -/
structure Held where
  stored : Table Pool.id
  pending : Option Pool

/-- The pools there are, the new one included. -/
def Held.pools (h : Held) : List Pool := live h.stored ++ h.pending.toList

/-- The pool of an id gets a limit. -/
def Pool.withLimit (s : Uuid × ℤ) (p : Pool) : Pool := if p.id = s.1 then { p with limit := s.2 } else p

/-- `pools_map[pool_id].limit = new_limit` -/
def Held.write (h : Held) (s : Uuid × ℤ) : Held where
  stored := h.stored.updateWhere (fun p => p.id = s.1) (fun p => { p with limit := s.2 }) fun _ => rfl
  pending := h.pending.map (Pool.withLimit s)

/-- One limit, checked by the column and written. -/
def writeLimit (s : Uuid × ℤ) : Session Held Failure Unit := do
  Session.read fun _ => bigInt "limit" (some s.2)
  Session.change fun h => h.write s

/-- The limits that were found, the first one found written first. -/
def writeAll : List (Uuid × ℤ) → Session Held Failure Unit
  | [] => pure ()
  | s :: parentSums => do
    writeAll parentSums
    writeLimit s

/-- The limits `extend_parent_pools` finds. -/
def findSums (managedPools : Except Failure (List Uuid)) (pool : Pool) (limit : ℤ) (h : Held) :
    Except Failure (List (Uuid × ℤ)) := do
  let stored := (live h.stored).filter fun p => p.organizationId = pool.organizationId
  require (stored ≠ []) (.notFound .OE0002 ["Organization", toString pool.organizationId])
  let managedPoolIds ← managedPools
  let orgPools := stored ++ h.pending.toList
  extendLoop orgPools managedPoolIds (orgPools.length + 1) pool.parentId [(pool.id, limit)]

/-- `extend_parent_pools`, with the writes one after the other. -/
def extendPools (managedPools : Except Failure (List Uuid)) (pool : Pool) (limit : ℤ) :
    Session Held Failure Unit := do
  let parentSums ← Session.read (findSums managedPools pool limit)
  writeAll parentSums

/-! ## The writes -/

variable {h h' : Held} {pool : Pool} {limit : ℤ} {managedPoolIds : List Uuid}

theorem rows_write (s : Uuid × ℤ) :
    (h.write s).stored.rows = h.stored.rows.map (Pool.withLimit s) := by
  unfold Held.write Table.updateWhere
  refine List.map_congr_left fun r _ => ?_
  simp only [Pool.withLimit, decide_eq_true_eq]

theorem pools_write (s : Uuid × ℤ) : (h.write s).pools = h.pools.map (Pool.withLimit s) := by
  have hlive : live (h.write s).stored = (live h.stored).map (Pool.withLimit s) := by
    rw [live, rows_write, List.filter_map]
    refine congrArg (List.map _) (List.filter_congr fun r _ => ?_)
    rw [Function.comp_apply, Pool.withLimit]
    split <;> rfl
  rw [Held.pools, Held.pools, hlive, List.map_append]
  cases hpending : h.pending with
  | none => simp [Held.write, hpending]
  | some p => simp [Held.write, hpending]

/-- The limit that was found for a pool, or its own. -/
def written (parentSums : List (Uuid × ℤ)) (r : Pool) : ℤ := (parentSums.lookup r.id).getD r.limit

theorem withLimit_relimit (s : Uuid × ℤ) (parentSums : List (Uuid × ℤ)) (r : Pool) :
    Pool.withLimit s (relimit (written parentSums) r) = relimit (written (s :: parentSums)) r := by
  unfold Pool.withLimit relimit written
  rw [List.lookup_cons]
  by_cases hr : r.id = s.1
  · rw [if_pos hr, hr, beq_self_eq_true]
    rfl
  · rw [if_neg hr, beq_eq_false_iff_ne.mpr hr]

/-- **The writes go through** exactly when the column takes each limit. -/
theorem writeAll_eq_ok {parentSums : List (Uuid × ℤ)} :
    (∃ h', writeAll parentSums h = (.ok (), h')) ↔ ∀ s ∈ parentSums, 0 ≤ s.2 ∧ s.2 ≤ maxInt64 := by
  induction parentSums with
  | nil => exact iff_of_true ⟨h, rfl⟩ fun s hs => absurd hs List.not_mem_nil
  | cons s parentSums ih =>
    rw [List.forall_mem_cons, ← ih, writeAll]
    simp only [Session.bind_eq_ok, writeLimit, Session.read_eq_ok]
    constructor
    · rintro ⟨h', _, h₁, hrest, _, _, ⟨hcheck, rfl⟩, -⟩
      exact ⟨bigInt_eq_ok.mp hcheck s.2 rfl, h₁, hrest⟩
    · rintro ⟨hcheck, h₁, hrest⟩
      refine ⟨h₁.write s, (), h₁, hrest, (), h₁, ⟨bigInt_eq_ok.mpr fun v hv => ?_, rfl⟩, rfl⟩
      obtain rfl := Option.some.inj hv
      exact hcheck

/-- What the writes leave. -/
theorem pools_writeAll {parentSums : List (Uuid × ℤ)} : ∀ {h' : Held},
    writeAll parentSums h = (.ok (), h') → h'.pools = h.pools.map (relimit (written parentSums)) := by
  induction parentSums with
  | nil =>
    intro h' hrun
    obtain ⟨-, rfl⟩ := Session.pure_eq_ok.mp hrun
    exact (List.map_id _).symm
  | cons s parentSums ih =>
    intro h' hrun
    simp only [writeAll, Session.bind_eq_ok, writeLimit, Session.read_eq_ok] at hrun
    obtain ⟨_, h₁, hrest, _, _, ⟨-, rfl⟩, hwrite⟩ := hrun
    obtain rfl := (Prod.mk.inj hwrite).2
    rw [pools_write, ih hrest, List.map_map]
    exact List.map_congr_left fun r _ => withLimit_relimit s parentSums r

/-- A write that is refused is refused by the column. -/
theorem writeAll_eq_error {parentSums : List (Uuid × ℤ)} {e : Failure} :
    writeAll parentSums h = (.error e, h') → ∃ params, e = .wrongArguments .OE0224 params := by
  induction parentSums generalizing h' with
  | nil => exact fun hrun => by cases hrun
  | cons s parentSums ih =>
    intro hrun
    obtain hrest | ⟨_, h₁, -, hwrite⟩ := Session.bind_eq_error.mp hrun
    · exact ih hrest
    · obtain hcheck | ⟨_, _, -, hchange⟩ := Session.bind_eq_error.mp hwrite
      · obtain ⟨hcheck, -⟩ := Session.read_eq_error.mp hcheck
        unfold bigInt require at hcheck
        dsimp only at hcheck
        split at hcheck
        · cases hcheck
        · exact ⟨_, (Except.error.inj hcheck).symm⟩
      · cases hchange

/-! ## The limits that are found -/

section Found

variable {rows : List Pool} {parentSums parentSums' : List (Uuid × ℤ)} (hrows : IsTree rows)
  {rank : Uuid → ℕ} (hrank : ∀ r ∈ rows, ∀ b, r.parentId = some b → rank b < rank r.id)
include hrows hrank

omit hrows in
variable (parentSums) in
/-- Nothing is found yet for what is met later. -/
theorem lookup_cons_of_above (hp : pool ∈ rows) {v : ℤ}
    (hnone : ∀ r ∈ rows, (∃ b ∈ some pool.id, rank r.id ≤ rank b) → parentSums.lookup r.id = none) :
    ∀ r ∈ rows, (∃ b ∈ pool.parentId, rank r.id ≤ rank b) →
      ((pool.id, v) :: parentSums).lookup r.id = none := by
  rintro r hr ⟨b, hb, hle⟩
  have hlt := hrank pool hp b hb
  have hne : r.id ≠ pool.id := fun h => by
    rw [h] at hle
    omega
  rw [List.lookup_cons, beq_eq_false_iff_ne.mpr hne]
  exact hnone r hr ⟨_, rfl, by omega⟩

/-- **What an extension finds** is for managed pools, and more than they have. -/
theorem extendLoop_entries : ∀ {n : ℕ} {a : Option Uuid} {parentSums : List (Uuid × ℤ)},
    extendLoop rows managedPoolIds n a parentSums = .ok parentSums' →
    (∀ r ∈ rows, (∃ b ∈ a, rank r.id ≤ rank b) → parentSums.lookup r.id = none) →
    ∀ s ∈ parentSums', s ∈ parentSums ∨ ∃ r ∈ rows, r.id = s.1 ∧ s.1 ∈ managedPoolIds ∧
      newLimit parentSums' r = s.2 ∧ r.limit < s.2 := by
  intro n
  induction n with
  | zero =>
    intro a parentSums h _ s hs
    cases a with
    | none =>
      obtain rfl := Except.ok.inj h
      exact Or.inl hs
    | some a => cases h
  | succ n ih =>
    intro a parentSums h hnone s hs
    cases a with
    | none =>
      obtain rfl := Except.ok.inj h
      exact Or.inl hs
    | some a =>
      obtain ⟨p, hfind, h⟩ := extendLoop_succ_eq_ok.mp h
      have hmem := List.mem_of_find?_eq_some hfind
      have hid : p.id = a := by simpa using List.find?_some hfind
      subst hid
      obtain ⟨hlt, hmanaged, h⟩ | ⟨-, h⟩ := h
      · have hnone' := lookup_cons_of_above _ hrank hmem
          (v := childSum Pool.parentId rows (newLimit parentSums) p.id) hnone
        obtain hs | hs := ih h hnone' s hs
        · obtain rfl | hs := List.mem_cons.mp hs
          · refine Or.inr ⟨p, hmem, rfl, hmanaged, ?_, hlt⟩
            have hpos := hrows.nonneg p hmem
            have hkept : parentSums'.lookup p.id =
                some (childSum Pool.parentId rows (newLimit parentSums) p.id) := by
              obtain hk | ⟨-, -, -, ⟨b, hb, hle⟩, -⟩ := (extendLoop_spec hrows hrank h hnone').2 p.id
              · rw [hk, List.lookup_cons, beq_self_eq_true]
              · exact absurd (hrank p hmem b hb) (by omega)
            rw [newLimit, hkept]
            exact if_neg (by omega)
          · exact Or.inl hs
        · exact Or.inr hs
      · refine ih h (fun r hr hb => ?_) s hs
        obtain ⟨b, hb, hle⟩ := hb
        have hlt := hrank p hmem b hb
        exact hnone r hr ⟨_, rfl, by omega⟩

omit hrank in
/-- A turn of the loop, at a pool of the tree. -/
theorem extendLoop_succ {n : ℕ} (hp : pool ∈ rows) :
    extendLoop rows managedPoolIds (n + 1) (some pool.id) parentSums =
      if pool.limit < childSum Pool.parentId rows (newLimit parentSums) pool.id then do
        require (pool.id ∈ managedPoolIds)
          (.forbidden .OE0471 [String.ofList pool.name, toString pool.id])
        extendLoop rows managedPoolIds n pool.parentId
          ((pool.id, childSum Pool.parentId rows (newLimit parentSums) pool.id) :: parentSums)
      else extendLoop rows managedPoolIds n pool.parentId parentSums := by
  rw [extendLoop, hrows.find? hp]
  rfl

omit hrank in
/-- **The pools of the organization are all the loop meets**, whatever it comes to. -/
theorem extendLoop_filter {organizationId : Uuid} : ∀ {n : ℕ} {a : Option Uuid}
    {parentSums : List (Uuid × ℤ)}, (∀ b ∈ a, ∃ r ∈ rows, r.id = b ∧ r.organizationId = organizationId) →
    extendLoop (rows.filter fun p => p.organizationId = organizationId) managedPoolIds n a parentSums =
      extendLoop rows managedPoolIds n a parentSums := by
  intro n
  induction n with
  | zero => exact fun {a} {_} _ => by cases a <;> rfl
  | succ n ih =>
    intro a parentSums hclosed
    cases a with
    | none => rfl
    | some a =>
      obtain ⟨p, hp, rfl, rfl⟩ := hclosed a rfl
      have hp' : p ∈ rows.filter fun r => r.organizationId = p.organizationId :=
        List.mem_filter.mpr ⟨hp, decide_eq_true rfl⟩
      have hchildren : childSum Pool.parentId
          (rows.filter fun r => r.organizationId = p.organizationId) (newLimit parentSums) p.id =
          childSum Pool.parentId rows (newLimit parentSums) p.id := by
        unfold childSum
        rw [List.filter_filter]
        congr 2
        refine List.filter_congr fun q hq => ?_
        by_cases hpar : q.parentId = some p.id
        · simp [hpar, hrows.organization q hq p hp hpar]
        · simp [hpar]
      have hclosed' : ∀ b ∈ p.parentId, ∃ r ∈ rows, r.id = b ∧ r.organizationId = p.organizationId := by
        intro b hb
        obtain ⟨q, hq, rfl⟩ := hrows.forest.closed p hp b hb
        exact ⟨q, hq, rfl, (hrows.organization p hp q hq hb).symm⟩
      rw [extendLoop_succ (hrows.filter _) hp', extendLoop_succ hrows hp, hchildren, ih hclosed',
        ih hclosed']

/-- **An extension that is managed** ends, where the loop has turns enough. -/
theorem extendLoop_of_managed : ∀ {n : ℕ} {a : Option Uuid} {parentSums : List (Uuid × ℤ)} {e : Failure},
    extendLoop rows managedPoolIds n a parentSums = .error e →
    (∀ b ∈ a, ∃ r ∈ rows, r.id = b) →
    (∀ r ∈ rows, (∃ b ∈ a, rank r.id ≤ rank b) → parentSums.lookup r.id = none) →
    (∀ g, Climb Pool.id Pool.parentId rows a (newLimit parentSums) g →
      ∀ r ∈ rows, newLimit parentSums r < g r → r.id ∈ managedPoolIds) →
    e = .python "endless loop" := by
  intro n
  induction n with
  | zero =>
    intro a parentSums e h _ _ _
    cases a with
    | none => cases h
    | some a => exact (Except.error.inj h).symm
  | succ n ih =>
    intro a parentSums e h hclosed hnone hmanaged
    cases a with
    | none => cases h
    | some a =>
      obtain ⟨p, hp, rfl⟩ := hclosed a rfl
      have hlimit : newLimit parentSums p = p.limit := by
        rw [newLimit, hnone p hp ⟨_, rfl, le_rfl⟩]
      have hclosed' : ∀ b ∈ p.parentId, ∃ r ∈ rows, r.id = b := hrows.forest.closed p hp
      rw [extendLoop_succ hrows hp] at h
      split at h
      · rename_i hlt
        have hraise : ∀ r ∈ rows,
            newLimit ((p.id, childSum Pool.parentId rows (newLimit parentSums) p.id) :: parentSums) r =
              raise Pool.id Pool.parentId rows (newLimit parentSums) p.id r := by
          intro r hr
          have hpos := hrows.nonneg p hp
          rw [newLimit_cons (by omega), raise]
          by_cases hr' : r.id = p.id
          · obtain rfl := hrows.forest.eq_of_key hr hp hr'
            rw [if_pos rfl, if_pos rfl, hlimit, max_eq_right hlt.le]
          · rw [if_neg hr', if_neg hr']
        have hself : p.id ∈ managedPoolIds := by
          obtain ⟨g, hg⟩ := hrows.forest.exists_climb (a := some p.id)
            (fun k hk => ⟨p, hp, Option.some.inj hk⟩) (newLimit parentSums)
          refine hmanaged g hg p hp ?_
          rw [hlimit]
          exact lt_of_lt_of_le hlt (hg.first_le hp)
        rw [require_of hself, ok_bind] at h
        refine ih h hclosed' (lookup_cons_of_above _ hrank hp hnone) fun g hg r hr hlt' => ?_
        refine hmanaged g (.level hp rfl hraise hg) r hr (lt_of_le_of_lt ?_ hlt')
        rw [hraise r hr]
        exact le_raise r
      · rename_i hlt
        have hraise : ∀ r ∈ rows,
            newLimit parentSums r = raise Pool.id Pool.parentId rows (newLimit parentSums) p.id r := by
          intro r hr
          rw [raise]
          by_cases hr' : r.id = p.id
          · obtain rfl := hrows.forest.eq_of_key hr hp hr'
            rw [if_pos rfl, hlimit, max_eq_left (not_lt.mp hlt)]
          · rw [if_neg hr']
        refine ih h hclosed' (fun r hr hb => ?_) fun g hg => hmanaged g (.level hp rfl hraise hg)
        obtain ⟨b, hb, hle⟩ := hb
        have hlt := hrank p hp b hb
        exact hnone r hr ⟨_, rfl, by omega⟩

end Found

/-! ## An extension that goes through -/

theorem mem_of_lookup {parentSums : List (Uuid × ℤ)} {k : Uuid} {v : ℤ}
    (hk : parentSums.lookup k = some v) : (k, v) ∈ parentSums := by
  obtain ⟨l, l', rfl, -⟩ := List.lookup_eq_some_iff.mp hk
  simp

/-- The pools of the organization are those the loop is given. -/
theorem orgPools_eq (hpending : ∀ q ∈ h.pending, q = pool) :
    ((live h.stored).filter fun p => p.organizationId = pool.organizationId) ++ h.pending.toList =
      h.pools.filter fun p => p.organizationId = pool.organizationId := by
  rw [Held.pools, List.filter_append]
  cases hnew : h.pending with
  | none => rfl
  | some q =>
    obtain rfl := hpending q hnew
    simp

theorem parent_closed (htree : IsTree h.pools) (hpool : pool ∈ h.pools) :
    ∀ b ∈ pool.parentId, ∃ r ∈ h.pools, r.id = b ∧ r.organizationId = pool.organizationId := by
  intro b hb
  obtain ⟨q, hq, rfl⟩ := htree.forest.closed pool hpool b hb
  exact ⟨q, hq, rfl, (htree.organization pool hpool q hq hb).symm⟩

/-- **What an extension that goes through has done**: the limits a climb found are written, those above the
pool for managed pools, and all within the range of the column. -/
theorem extendPools_eq_ok (htree : IsTree h.pools) (hpool : pool ∈ h.pools)
    (hpending : ∀ q ∈ h.pending, q = pool)
    (hrun : extendPools (.ok managedPoolIds) pool limit h = (.ok (), h')) :
    ∃ g new : Pool → ℤ, Climb Pool.id Pool.parentId h.pools pool.parentId (newLimit [(pool.id, limit)]) g ∧
      h'.pools = h.pools.map (relimit new) ∧ new pool = limit ∧
      ∀ r ∈ h.pools, r.id ≠ pool.id → new r = g r ∧
        (r.limit < g r → r.id ∈ managedPoolIds ∧ g r ≤ maxInt64) := by
  obtain ⟨parentSums, h₁, hread, hwrites⟩ := Session.bind_eq_ok.mp hrun
  obtain ⟨hsums, rfl⟩ := Session.read_eq_ok.mp hread
  obtain ⟨_, -, hloop⟩ := bind_eq_ok.mp hsums
  rw [ok_bind, orgPools_eq hpending] at hloop
  have hfound := (extendLoop_filter htree (parent_closed htree hpool)).symm.trans hloop
  obtain ⟨rank, hrank⟩ := htree.forest.ranked
  have hnone : ∀ r ∈ h.pools, (∃ b ∈ pool.parentId, rank r.id ≤ rank b) →
      List.lookup r.id [(pool.id, limit)] = none :=
    lookup_cons_of_above [] hrank hpool fun _ _ _ => rfl
  obtain ⟨hclimb, hlookup⟩ := extendLoop_spec htree hrank hfound hnone
  have hentries := extendLoop_entries htree hrank hfound hnone
  have hrange := writeAll_eq_ok.mp ⟨h', hwrites⟩
  refine ⟨_, written parentSums, hclimb, pools_writeAll hwrites, ?_, fun r hr hne => ?_⟩
  · obtain hk | ⟨-, -, -, ⟨b, hb, hle⟩, -⟩ := hlookup pool.id
    · rw [written, hk, List.lookup_cons, beq_self_eq_true]
      rfl
    · exact absurd (hrank pool hpool b hb) (by omega)
  cases hk : parentSums.lookup r.id with
  | none =>
    rw [written, newLimit, hk]
    exact ⟨rfl, fun h => absurd h (lt_irrefl _)⟩
  | some v =>
    have hmem : (r.id, v) ∈ parentSums := mem_of_lookup hk
    obtain hinit | ⟨q, hq, hqr, hmanaged, hv, hlt⟩ := hentries _ hmem
    · exact absurd (Prod.mk.inj (List.mem_singleton.mp hinit)).1 hne
    · obtain rfl := htree.forest.eq_of_key hq hr hqr
      have hpos := htree.nonneg q hq
      have hsame : newLimit parentSums q = v := hv
      rw [hsame, written, hk]
      exact ⟨rfl, fun _ => ⟨hmanaged, (hrange _ hmem).2⟩⟩

/-! ## Minimal and all-or-nothing -/

/-- **Limits of a minimal extension**: the pool has its new one; another changed only above the pool, where
it did not cover its children, to the sum of theirs, and where the user manages it. -/
structure IsMinimal (managedPoolIds : List Uuid) (pool : Pool) (limit : ℤ) (before : List Pool)
    (new : Pool → ℤ) : Prop where
  self : new pool = limit
  above : ∀ r ∈ before, r.id ≠ pool.id → new r ≠ r.limit →
    Above Pool.id Pool.parentId before pool.parentId r
  not_lowered : ∀ r ∈ before, r.id ≠ pool.id → r.limit ≤ new r
  sum : ∀ r ∈ before, r.id ≠ pool.id → new r ≠ r.limit → new r = childSum Pool.parentId before new r.id
  untouched : ∀ r ∈ before, r.id ≠ pool.id → childSum Pool.parentId before new r.id ≤ r.limit →
    new r = r.limit
  managed : ∀ r ∈ before, r.id ≠ pool.id → new r ≠ r.limit → r.id ∈ managedPoolIds

variable (managedPoolIds pool limit h) in
/-- **An extension is minimal**, and without a permission changes nothing. -/
structure AllOrNothing : Prop where
  minimal : ∀ h', extendPools (.ok managedPoolIds) pool limit h = (.ok (), h') →
    ∃ new, h'.pools = h.pools.map (relimit new) ∧ IsMinimal managedPoolIds pool limit h.pools new
  nothing : ∀ code params h', extendPools (.ok managedPoolIds) pool limit h =
    (.error (.forbidden code params), h') → h' = h

variable (pool h) in
/-- The parent covers its children, as their limits are stored. -/
def ParentCovers : Prop :=
  ∀ p ∈ h.pools, pool.parentId = some p.id → childSum Pool.parentId h.pools Pool.limit p.id ≤ p.limit

variable (managedPoolIds pool h) in
/-- The limits above, raised to cover the stored ones, are managed, and within the range of the column. -/
def Permitted : Prop :=
  ∀ g, Climb Pool.id Pool.parentId h.pools pool.parentId Pool.limit g →
    ∀ r ∈ h.pools, r.limit < g r → r.id ∈ managedPoolIds ∧ g r ≤ maxInt64

theorem zero_le_maxInt64 : (0 : ℤ) ≤ maxInt64 := by decide

theorem newLimit_zero : newLimit [(pool.id, 0)] = Pool.limit := by
  funext r
  rw [newLimit_singleton, if_neg fun h => h.2 rfl]

/-- The limits of a climb, with that of the pool itself, add up where the climb counted the new limit of the
pool, and everywhere but at its parent. -/
theorem childSum_new {rows : List Pool} {g new : Pool → ℤ} {a : Uuid} (htree : IsTree rows)
    (hpool : pool ∈ rows) (hnew : ∀ r ∈ rows, r.id ≠ pool.id → new r = g r)
    (h : pool.parentId = some a → new pool = g pool) :
    childSum Pool.parentId rows new a = childSum Pool.parentId rows g a := by
  refine childSum_congr fun q hq hpar => ?_
  by_cases hqp : q.id = pool.id
  · obtain rfl := htree.forest.eq_of_key hq hpool hqp
    exact h hpar
  · exact hnew q hq hqp

/-- **Limits of a climb are minimal** where it counted the new limit of the pool, or did not come to raise
the pool's parent. -/
theorem isMinimal_of_climb {rows : List Pool} {g new : Pool → ℤ} (htree : IsTree rows)
    (hpool : pool ∈ rows)
    (hclimb : Climb Pool.id Pool.parentId rows pool.parentId (newLimit [(pool.id, limit)]) g)
    (hself : new pool = limit) (hnew : ∀ r ∈ rows, r.id ≠ pool.id → new r = g r)
    (hmanaged : ∀ r ∈ rows, r.id ≠ pool.id → r.limit < g r → r.id ∈ managedPoolIds)
    (h : ∀ p ∈ rows, pool.parentId = some p.id → p.limit < g p → g pool = limit) :
    IsMinimal managedPoolIds pool limit rows new := by
  obtain ⟨rank, hrank⟩ := htree.forest.ranked
  have hstart : ∀ r ∈ rows, r.id ≠ pool.id → newLimit [(pool.id, limit)] r = r.limit :=
    fun r _ hne => by rw [newLimit_singleton, if_neg fun h => hne h.1]
  -- what changed was raised by the climb, and its children add up as the climb counted them
  have hraised : ∀ r ∈ rows, r.id ≠ pool.id → new r ≠ r.limit →
      Above Pool.id Pool.parentId rows pool.parentId r ∧ r.limit < g r ∧
        new r = childSum Pool.parentId rows new r.id := by
    intro r hr hne hchanged
    rw [hnew r hr hne] at hchanged ⊢
    obtain ⟨habove, hlt, hsum⟩ := hclimb.raised hrank htree.forest r hr (by rwa [hstart r hr hne])
    rw [hstart r hr hne] at hlt
    refine ⟨habove, hlt, hsum.trans (childSum_new htree hpool hnew fun hpar => ?_).symm⟩
    rw [hself, h r hr hpar hlt]
  exact
    { self := hself
      above := fun r hr hne hchanged => (hraised r hr hne hchanged).1
      not_lowered := fun r hr hne => by
        rw [hnew r hr hne, ← hstart r hr hne]
        exact hclimb.le hr
      sum := fun r hr hne hchanged => (hraised r hr hne hchanged).2.2
      untouched := fun r hr hne hcovers => by
        by_contra hchanged
        obtain ⟨-, hlt, hsum⟩ := hraised r hr hne hchanged
        rw [← hnew r hr hne, hsum] at hlt
        omega
      managed := fun r hr hne hchanged => hmanaged r hr hne (hraised r hr hne hchanged).2.1 }

/-- A missing permission is found before anything is written. -/
theorem nothing_of_forbidden {code : Err} {params : List String}
    (hrun : extendPools (.ok managedPoolIds) pool limit h = (.error (.forbidden code params), h')) :
    h' = h := by
  obtain hread | ⟨parentSums, h₁, -, hwrites⟩ := Session.bind_eq_error.mp hrun
  · exact (Session.read_eq_error.mp hread).2.symm
  · obtain ⟨_, hcolumn⟩ := writeAll_eq_error hwrites
    cases hcolumn

/-- A pool that has a parent is not the only one. -/
theorem stored_ne_nil (htree : IsTree h.pools) (hpool : pool ∈ h.pools)
    (hpending : ∀ q ∈ h.pending, q = pool) {p : Pool} (hp : p ∈ h.pools)
    (hpar : pool.parentId = some p.id) :
    ((live h.stored).filter fun r => r.organizationId = pool.organizationId) ≠ [] := by
  have horg := htree.organization pool hpool p hp hpar
  obtain hp' | hp' := List.mem_append.mp hp
  · exact List.ne_nil_of_mem (List.mem_filter.mpr ⟨hp', decide_eq_true horg.symm⟩)
  · obtain rfl := hpending p (Option.mem_toList.mp hp')
    obtain ⟨rank, hrank⟩ := htree.forest.ranked
    exact absurd (hrank p hpool _ hpar) (lt_irrefl _)

/-- **A permitted extension to 0 goes through.** -/
theorem exists_extendPools (htree : IsTree h.pools) (hpool : pool ∈ h.pools)
    (hpending : ∀ q ∈ h.pending, q = pool) {p : Pool} (hp : p ∈ h.pools)
    (hpar : pool.parentId = some p.id) (hpermitted : Permitted h pool managedPoolIds) :
    ∃ h', extendPools (.ok managedPoolIds) pool 0 h = (.ok (), h') := by
  obtain ⟨rank, hrank⟩ := htree.forest.ranked
  have hnone : ∀ r ∈ h.pools, (∃ b ∈ pool.parentId, rank r.id ≤ rank b) →
      List.lookup r.id [(pool.id, (0 : ℤ))] = none :=
    lookup_cons_of_above [] hrank hpool fun _ _ _ => rfl
  have hsums : findSums (.ok managedPoolIds) pool 0 h = extendLoop h.pools managedPoolIds
      ((h.pools.filter fun r => r.organizationId = pool.organizationId).length + 1) pool.parentId
        [(pool.id, 0)] := by
    rw [← extendLoop_filter htree (parent_closed htree hpool), ← orgPools_eq hpending, findSums]
    dsimp only
    rw [require_of (stored_ne_nil htree hpool hpending hp hpar)]
    rfl
  cases hfound : findSums (.ok managedPoolIds) pool 0 h with
  | error e =>
    rw [hsums] at hfound
    obtain rfl := extendLoop_of_managed htree hrank hfound (htree.forest.closed pool hpool) hnone
      fun g hg r hr hlt => by
        rw [newLimit_zero] at hg hlt
        exact (hpermitted g hg r hr hlt).1
    rw [← extendLoop_filter htree (parent_closed htree hpool)] at hfound
    exact absurd hfound (extendLoop_pool_ends htree hpool)
  | ok parentSums =>
    have hloop := hsums.symm.trans hfound
    obtain ⟨hclimb, -⟩ := extendLoop_spec htree hrank hloop hnone
    rw [newLimit_zero] at hclimb
    have hrange : ∀ s ∈ parentSums, 0 ≤ s.2 ∧ s.2 ≤ maxInt64 := by
      intro s hs
      obtain hinit | ⟨r, hr, -, -, hv, hlt⟩ := extendLoop_entries htree hrank hloop hnone s hs
      · obtain rfl := List.mem_singleton.mp hinit
        exact ⟨le_rfl, zero_le_maxInt64⟩
      · have hpos := htree.nonneg r hr
        have hmax := (hpermitted _ hclimb r hr (hv ▸ hlt)).2
        rw [hv] at hmax
        exact ⟨by omega, hmax⟩
    obtain ⟨h', hwrites⟩ := (writeAll_eq_ok (h := h)).mpr hrange
    exact ⟨h', (Session.read_bind_of_ok hfound).trans hwrites⟩

/-- **An extension is minimal and all-or-nothing** exactly when the new limit is not 0, or the pool had none
before, or its parent covers the stored limits, or what these ask for is not permitted. -/
theorem extendPools_iff (htree : IsTree h.pools) (hpool : pool ∈ h.pools)
    (hpending : ∀ q ∈ h.pending, q = pool) : AllOrNothing h pool limit managedPoolIds ↔
      limit ≠ 0 ∨ pool.limit = 0 ∨ ParentCovers h pool ∨ ¬ Permitted h pool managedPoolIds := by
  obtain ⟨rank, hrank⟩ := htree.forest.ranked
  constructor
  · intro hcontract
    by_contra hnot
    simp only [not_or, ne_eq, not_not] at hnot
    obtain ⟨rfl, hne, huncovered, hpermitted⟩ := hnot
    simp only [ParentCovers, not_forall, not_le] at huncovered
    obtain ⟨p, hp, hpar, hlt⟩ := huncovered
    obtain ⟨h', hrun⟩ := exists_extendPools htree hpool hpending hp hpar hpermitted
    obtain ⟨g, new, hclimb, hpools, hself, hnew⟩ := extendPools_eq_ok htree hpool hpending hrun
    obtain ⟨new', hpools', hminimal⟩ := hcontract.minimal h' hrun
    have hsame : ∀ r ∈ h.pools, new' r = new r := fun r hr =>
      congrArg Pool.limit (List.map_inj_left.mp (hpools'.symm.trans hpools) r hr)
    have hpp : p.id ≠ pool.id := fun h => by
      have := hrank pool hpool _ hpar
      rw [h] at this
      exact lt_irrefl _ this
    rw [newLimit_zero] at hclimb
    -- the parent was raised to a sum that counts the old limit of the pool
    have hraised : p.limit < g p := lt_of_lt_of_le hlt ((hpar ▸ hclimb).first_le hp)
    obtain ⟨-, -, hsum⟩ := hclimb.raised hrank htree.forest p hp hraised.ne'
    have hpool' : g pool = pool.limit := hclimb.eq_of_rank hrank hpool fun b hb => hrank pool hpool b hb
    have hsum' := hminimal.sum p hp hpp (by rw [hsame p hp, (hnew p hp hpp).1]; exact hraised.ne')
    have hsiblings : siblingSum Pool.id Pool.parentId h.pools new' p.id pool.id =
        siblingSum Pool.id Pool.parentId h.pools g p.id pool.id :=
      siblingSum_congr fun q hq _ hqp => (hsame q hq).trans (hnew q hq hqp).1
    rw [hsame p hp, (hnew p hp hpp).1, hsum, ← siblingSum_add htree.forest.nodup hpool hpar,
      ← siblingSum_add htree.forest.nodup hpool hpar, hsiblings, hminimal.self, hpool'] at hsum'
    omega
  · intro hcondition
    refine ⟨fun h' hrun => ?_, fun code params h' hrun => nothing_of_forbidden hrun⟩
    obtain ⟨g, new, hclimb, hpools, hself, hnew⟩ := extendPools_eq_ok htree hpool hpending hrun
    refine ⟨new, hpools, isMinimal_of_climb htree hpool hclimb hself (fun r hr hne => (hnew r hr hne).1)
      (fun r hr hne hlt => ((hnew r hr hne).2 hlt).1) fun p hp hpar hlt => ?_⟩
    have hpool' : g pool = newLimit [(pool.id, limit)] pool :=
      hclimb.eq_of_rank hrank hpool fun b hb => hrank pool hpool b hb
    rw [hpool', newLimit_singleton]
    by_cases hL : limit = 0
    swap
    · exact if_pos ⟨rfl, hL⟩
    subst hL
    rw [if_neg fun h => h.2 rfl]
    rw [newLimit_zero] at hclimb
    rcases hcondition with hne | hzero | hcovers | hnot
    · exact absurd rfl hne
    · exact hzero
    · -- the children of a parent that covers them are not changed before it, so it is not raised
      obtain ⟨-, -, hsum⟩ := hclimb.raised hrank htree.forest p hp hlt.ne'
      have hchildren : childSum Pool.parentId h.pools g p.id =
          childSum Pool.parentId h.pools Pool.limit p.id := by
        refine childSum_congr fun q hq hqpar => hclimb.eq_of_rank hrank hq fun b hb => ?_
        obtain rfl := Option.some.inj (hpar.symm.trans hb)
        exact hrank q hq _ hqpar
      have hle := hcovers p hp hpar
      omega
    · refine absurd (fun g' hg' r hr hlt' => ?_) hnot
      have hsame : g r = g' r := hclimb.unique htree.forest (fun _ _ => rfl) hg' r hr
      rw [← hsame] at hlt' ⊢
      refine (hnew r hr fun hrp => ?_).2 hlt'
      obtain rfl := htree.forest.eq_of_key hr hpool hrp
      rw [hpool', newLimit_zero] at hlt'
      exact lt_irrefl _ hlt'

/-! ### A parent that is raised for a limit nobody has -/

/-- A root of limit 3. -/
def root : Pool := { id := 1, organizationId := 7, name := ['r'], limit := 3 }

/-- A pool of limit 5 below it. -/
def lowered : Pool := { id := 2, organizationId := 7, parentId := some 1, name := ['c'], limit := 5 }

/-- Both pools, stored. -/
def uncovered : Held := ⟨⟨[root, lowered], by decide⟩, none⟩

theorem isTree_uncovered : IsTree uncovered.pools where
  forest := ⟨by decide, by decide, ⟨id, by decide⟩⟩
  organization := by decide
  nonneg := by decide

/-- A limit that is not 0 has the root raised to it. -/
theorem extendPools_uncovered : AllOrNothing uncovered lowered 7 [1, 2] :=
  (extendPools_iff isTree_uncovered (by decide) fun q hq => by cases hq).mpr (Or.inl (by decide))

/-- **Lowered to 0**, the pool leaves the root with the limit it had itself. -/
theorem root_keeps_lowered : ¬ AllOrNothing uncovered lowered 0 [1, 2] := by
  intro hcontract
  have hrun : extendPools (.ok [1, 2]) lowered 0 uncovered =
      (.ok (), (extendPools (.ok [1, 2]) lowered 0 uncovered).2) := by rfl
  have hpools : (extendPools (.ok [1, 2]) lowered 0 uncovered).2.pools =
      [{ root with limit := 5 }, { lowered with limit := 0 }] := by decide
  obtain ⟨new, hnew, hminimal⟩ := hcontract.minimal _ hrun
  rw [hpools] at hnew
  have hroot : 5 = new root := congrArg (fun pools => (pools.headD root).limit) hnew
  have hsum := hminimal.sum root (by decide) (by decide) (by rw [← hroot]; decide)
  have hchildren : childSum Pool.parentId uncovered.pools new root.id = new lowered + 0 := rfl
  rw [hchildren, hminimal.self, ← hroot] at hsum
  exact absurd hsum (by decide)

/-! ## The extension of the pool tree -/

theorem rows_writeLimits {t : Table Pool.id} (parentSums : List (Uuid × ℤ)) :
    (writeLimits t parentSums).rows = t.rows.map (relimit (written parentSums)) := by
  unfold writeLimits Table.updateWhere
  refine List.map_congr_left fun r _ => ?_
  unfold relimit written
  split
  · rfl
  · rename_i hnone
    rw [Option.not_isSome_iff_eq_none.mp hnone]
    rfl

/-- The writes leave the stored pools as `extendParentPools` writes them. -/
theorem stored_writeAll {parentSums : List (Uuid × ℤ)} : ∀ {h' : Held},
    writeAll parentSums h = (.ok (), h') → h'.stored = writeLimits h.stored parentSums := by
  induction parentSums with
  | nil =>
    intro h' hrun
    obtain ⟨-, rfl⟩ := Session.pure_eq_ok.mp hrun
    exact Table.ext ((rows_writeLimits []).trans (List.map_id _)).symm
  | cons s parentSums ih =>
    intro h' hrun
    simp only [writeAll, Session.bind_eq_ok, writeLimit, Session.read_eq_ok] at hrun
    obtain ⟨_, h₁, hrest, _, _, ⟨-, rfl⟩, hwrite⟩ := hrun
    obtain rfl := (Prod.mk.inj hwrite).2
    refine Table.ext ?_
    rw [rows_write, ih hrest, rows_writeLimits, rows_writeLimits, List.map_map]
    exact List.map_congr_left fun r _ => withLimit_relimit s parentSums r

/-- **The writes one after the other** come to the stored pools of `extendParentPools`. -/
theorem extendParentPools_eq_ok_iff {E : Env} {t t' : Table Pool.id} {isNew : Bool} :
    extendParentPools E t pool (some limit) isNew = .ok t' ↔
      ∃ pending, extendPools E.managedPools pool limit ⟨t, if isNew then some pool else none⟩ =
        (.ok (), ⟨t', pending⟩) := by
  have horg : ((live t).filter fun p => p.organizationId = pool.organizationId) ++
      (if isNew then some pool else none).toList = if isNew then
        ((live t).filter fun p => p.organizationId = pool.organizationId) ++ [pool]
      else (live t).filter fun p => p.organizationId = pool.organizationId := by
    cases isNew <;> simp
  have hstored : extendParentPools E t pool (some limit) isNew = (do
      let parentSums ← findSums E.managedPools pool limit ⟨t, if isNew then some pool else none⟩
      parentSums.forM fun s => bigInt "limit" (some s.2)
      .ok (writeLimits t parentSums)) := by
    unfold extendParentPools findSums
    dsimp only
    rw [horg]
    cases hpar : pool.parentId <;> simp only [bind_assoc]
  rw [hstored]
  simp only [bind_eq_ok, extendPools, Session.bind_eq_ok, Session.read_eq_ok]
  constructor
  · rintro ⟨parentSums, hfound, _, hcolumn, hwritten⟩
    have hrange : ∀ s ∈ parentSums, 0 ≤ s.2 ∧ s.2 ≤ maxInt64 := fun s hs =>
      bigInt_eq_ok.mp (forM_eq_ok.mp hcolumn s hs) s.2 rfl
    obtain ⟨h', hwrites⟩ :=
      (writeAll_eq_ok (h := ⟨t, if isNew then some pool else none⟩)).mpr hrange
    obtain rfl : h'.stored = t' := (stored_writeAll hwrites).trans (Except.ok.inj hwritten)
    exact ⟨h'.pending, parentSums, _, ⟨hfound, rfl⟩, hwrites⟩
  · rintro ⟨pending, parentSums, _, ⟨hfound, rfl⟩, hwrites⟩
    refine ⟨parentSums, hfound, (), forM_eq_ok.mpr fun s hs => bigInt_eq_ok.mpr fun v hv => ?_,
      congrArg Except.ok (stored_writeAll hwrites).symm⟩
    obtain rfl := Option.some.inj hv
    exact writeAll_eq_ok.mp ⟨_, hwrites⟩ s hs

end PoolTree
