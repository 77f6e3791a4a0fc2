import OptScale.Metroculus.PodMetrics

/-!
# Metroculus/Containers — whether the rows cover all the containers of a pod

The series of a pod's containers have one place for a date, and the last one stays.  So a row has the sum of the
limits and requests of the containers, and is the same in every order of the series, exactly where a pod has one
series for each of these metrics, or only zeroes, and where the series of each other metric agree (`containers_covered_iff`).
-/

open Dict

namespace MetricsProcessor

variable {cloudAccountId : String} {resourceIdsMap : List ResourceItem} {answers answers' : Answers}
  {m : K8sMetric} {p : Path}

/-! ## The values at a path -/

theorem type_of_mem_valuesAt {v : ℚ} (h : v ∈ valuesAt answers m p) : p.type = m.type := by
  obtain ⟨s, -, hv⟩ := List.mem_flatMap.mp h
  obtain ⟨x, hx, -⟩ := List.mem_map.mp hv
  rw [← of_decide_eq_true (List.mem_filter.mp hx).2]
  rfl

theorem valuesAt_of_type_ne (h : p.type ≠ m.type) : valuesAt answers m p = [] :=
  List.eq_nil_iff_forall_not_mem.mpr fun _ hv => h (type_of_mem_valuesAt hv)

theorem valuesAt_perm (h : ∀ m, (answers' m).Perm (answers m)) (m : K8sMetric) (p : Path) :
    (valuesAt answers' m p).Perm (valuesAt answers m p) := (h m).flatMap_right _

/-- A series has one value at a path. -/
theorem Series.valuesAt_of_mem {s : Series} {v : ℚ} (h : v ∈ s.valuesAt m p) : s.valuesAt m p = [v] := by
  have hpath : ∀ x ∈ s.values.filter (fun v => path m s v.1 = p), x.1 = p.date := by
    intro x hx
    rw [← of_decide_eq_true (List.mem_filter.mp hx).2]
    rfl
  have hnodup : ((s.values.filter fun v => path m s v.1 = p).map Prod.fst).Nodup :=
    s.nodup_dates.sublist (List.filter_sublist.map _)
  unfold Series.valuesAt at h ⊢
  rcases hl : s.values.filter (fun v => path m s v.1 = p) with _ | ⟨x, _ | ⟨y, l⟩⟩
  · rw [hl] at h
    exact absurd h List.not_mem_nil
  · rw [hl] at h
    rw [hl, List.mem_singleton.mp h]
    rfl
  · rw [hl] at hpath hnodup
    have heq : x.1 = y.1 := (hpath x List.mem_cons_self).trans
      (hpath y (List.mem_cons_of_mem _ List.mem_cons_self)).symm
    exact absurd (heq ▸ List.mem_cons_self) (List.nodup_cons.mp hnodup).1

/-- The path of a series at a date is the only one it has values at. -/
theorem Series.valuesAt_eq_nil {s : Series} {q : Path} {v : ℚ} (h : v ∈ s.valuesAt m p) (hdate : q.date = p.date)
    (hne : q ≠ p) : s.valuesAt m q = [] := by
  obtain ⟨x, hx, -⟩ := List.mem_map.mp h
  have hp := of_decide_eq_true (List.mem_filter.mp hx).2
  refine List.map_eq_nil_iff.mpr (List.filter_eq_nil_iff.mpr fun y _ hy => hne ?_)
  have hq := of_decide_eq_true hy
  have hdates : y.1 = x.1 := by
    have hqd : y.1 = q.date := congrArg Path.date hq
    have hpd : x.1 = p.date := congrArg Path.date hp
    rw [hqd, hpd, hdate]
  rw [← hq, ← hp, path, path, hdates]

/-! ## The rows -/

/-- The path of a metric in the row of a pod. -/
def scope (p : Path) (m : K8sMetric) : Path := if m.type = .podLimits then p else p.quotas

/-- What stays at a path. -/
def lastAt (answers : Answers) (m : K8sMetric) (p : Path) : ℚ := (valuesAt answers m p).getLast?.getD 0

theorem mem_keys_written {ws : List Write} {map : MetricMap} :
    p ∈ (written ws map).keys ↔ p ∈ map.keys ∨ ∃ w ∈ ws, w.path = p := by
  induction ws using List.reverseRecOn with
  | nil => exact ⟨Or.inl, fun h => h.elim id fun ⟨_, hw, _⟩ => absurd hw List.not_mem_nil⟩
  | append_singleton ws w ih =>
    have hconcat : written (ws ++ [w]) map = setAt (written ws map) w.path w.metric w.value :=
      List.foldl_concat ..
    rw [hconcat, setAt, Dict.set, ← AList.mem_keys, AList.mem_insert, AList.mem_keys, ih]
    simp only [List.mem_append, List.mem_singleton]
    constructor
    · rintro (rfl | h | ⟨w', hw', rfl⟩)
      · exact Or.inr ⟨w, Or.inr rfl, rfl⟩
      · exact Or.inl h
      · exact Or.inr ⟨w', Or.inl hw', rfl⟩
    · rintro (h | ⟨w', hw' | rfl, rfl⟩)
      · exact Or.inr (Or.inl h)
      · exact Or.inr (Or.inr ⟨w', hw', rfl⟩)
      · exact Or.inl rfl

/-- The paths of the map are those with values. -/
theorem mem_keys_writes : p ∈ (written (writes answers) ∅).keys ↔ ∃ m, valuesAt answers m p ≠ [] := by
  rw [mem_keys_written]
  constructor
  · rintro (h | ⟨w, hw, rfl⟩)
    · exact absurd h List.not_mem_nil
    · obtain ⟨m, -, hw⟩ := List.mem_flatMap.mp hw
      obtain ⟨s, hs, hw⟩ := List.mem_flatMap.mp hw
      obtain ⟨v, hv, rfl⟩ := List.mem_map.mp hw
      have hmem : metricValue m v.2 ∈ valuesAt answers m (path m s v.1) :=
        List.mem_flatMap.mpr ⟨s, hs, List.mem_map.mpr ⟨v, List.mem_filter.mpr ⟨hv, by simp⟩, rfl⟩⟩
      exact ⟨m, List.ne_nil_of_mem hmem⟩
  · rintro ⟨m, hne⟩
    obtain ⟨v, hv⟩ := List.exists_mem_of_ne_nil _ hne
    obtain ⟨s, hs, hv⟩ := List.mem_flatMap.mp hv
    obtain ⟨x, hx, -⟩ := List.mem_map.mp hv
    obtain ⟨hx, hpath⟩ := List.mem_filter.mp hx
    refine Or.inr ⟨⟨path m s x.1, m, metricValue m x.2⟩, ?_, of_decide_eq_true hpath⟩
    exact List.mem_flatMap.mpr ⟨m, mem_k8sMetrics m,
      List.mem_flatMap.mpr ⟨s, hs, List.mem_map.mpr ⟨x, hx, rfl⟩⟩⟩

theorem type_of_resourceOf {resourceId : String} (h : resourceOf resourceIdsMap p = some resourceId) :
    p.type = .podLimits := by
  unfold resourceOf at h
  split at h
  · assumption
  · exact nomatch h

/-- **A row has what stays** at the pod's path, or at the path of the quotas. -/
theorem rowOf_values (hp : p.type = .podLimits) (resourceId : String) (m : K8sMetric) :
    (rowOf cloudAccountId (written (writes answers) ∅) p resourceId).values m =
      lastAt answers m (scope p m) := by
  have hlookup : ∀ q : Path, (((written (writes answers) ∅).lookup q).getD ∅).lookup m =
      (valuesAt answers m q).getLast? := by
    intro q
    rw [← lookupAt_written, lookupAt]
    cases (written (writes answers) ∅).lookup q <;> rfl
  simp only [rowOf, lookup_update, hlookup, lastAt, scope]
  split
  next hm =>
    have hnone : valuesAt answers m p.quotas = [] :=
      valuesAt_of_type_ne fun h => MetricType.noConfusion (h.trans hm)
    rw [hnone]
    rfl
  next hm =>
    rw [valuesAt_of_type_ne fun h => hm (h.symm.trans hp), List.getLast?_nil, Option.or_none]

/-- The rows of readable answers. -/
theorem getK8sMetrics_of_readable (h : Readable answers) : getK8sMetrics cloudAccountId resourceIdsMap answers =
    .ok ((podRows cloudAccountId resourceIdsMap (written (writes answers) ∅)).map Prod.snd) := by
  rw [getK8sMetrics, metricMap_of_readable h]
  rfl

theorem mem_podRows {x : Path × Row} :
    x ∈ podRows cloudAccountId resourceIdsMap (written (writes answers) ∅) ↔
      ∃ resourceId, resourceOf resourceIdsMap x.1 = some resourceId ∧ (∃ m, valuesAt answers m x.1 ≠ []) ∧
        x.2 = rowOf cloudAccountId (written (writes answers) ∅) x.1 resourceId := by
  obtain ⟨q, row⟩ := x
  simp only [podRows, List.mem_filterMap, mem_keys_writes, Option.map_eq_some_iff, Prod.mk.injEq]
  constructor
  · rintro ⟨p, hp, resourceId, hr, rfl, rfl⟩
    exact ⟨resourceId, hr, hp, rfl⟩
  · rintro ⟨resourceId, hr, hp, rfl⟩
    exact ⟨q, hp, resourceId, hr, rfl, rfl⟩

/-! ## Rows that cover all containers -/

/-- The metrics of limits and requests. -/
def limitAndRequestMetrics : List K8sMetric :=
  [.podCpuProvision, .podCpuRequests, .podMemoryProvision, .podMemoryRequests]

/-- **The rows cover all containers**: limits and requests are the sums over the series, in every order of these
the rows are the same. -/
structure CoversContainers (cloudAccountId : String) (resourceIdsMap : List ResourceItem) (answers : Answers) :
    Prop where
  sums : ∀ map, metricMap answers = .ok map → ∀ x ∈ podRows cloudAccountId resourceIdsMap map,
    ∀ m ∈ limitAndRequestMetrics, x.2.values m = (valuesAt answers m x.1).sum
  order : ∀ answers', (∀ m, (answers' m).Perm (answers m)) →
    (getK8sMetrics cloudAccountId resourceIdsMap answers').map (Multiset.ofList ·) =
      (getK8sMetrics cloudAccountId resourceIdsMap answers).map (Multiset.ofList ·)

/-- A path that has a row. -/
def HasRow (resourceIdsMap : List ResourceItem) (answers : Answers) (p : Path) : Prop :=
  (resourceOf resourceIdsMap p).isSome ∧ ∃ m, valuesAt answers m p ≠ []

/-- **The series of a pod agree** at a date: there is one for a limit or request, or there are zeroes only, and
those of each metric of the row have the same value. -/
structure Agree (answers : Answers) (p : Path) : Prop where
  single : ∀ m ∈ limitAndRequestMetrics,
    (valuesAt answers m p).length ≤ 1 ∨ ∀ v ∈ valuesAt answers m p, v = 0
  same : ∀ m, ∀ v ∈ valuesAt answers m (scope p m), ∀ v' ∈ valuesAt answers m (scope p m), v = v'

theorem scope_of_mem (hm : m ∈ limitAndRequestMetrics) : scope p m = p := by
  have htype : ∀ m ∈ limitAndRequestMetrics, m.type = .podLimits := by decide
  exact if_pos (htype m hm)

/-- **The sum of equal values** is their value where there is at most one or they are zeroes. -/
theorem sum_eq_lastAt_iff (hsame : ∀ v ∈ valuesAt answers m p, ∀ v' ∈ valuesAt answers m p, v = v') :
    lastAt answers m p = (valuesAt answers m p).sum ↔
      (valuesAt answers m p).length ≤ 1 ∨ ∀ v ∈ valuesAt answers m p, v = 0 := by
  unfold lastAt
  generalize valuesAt answers m p = l at hsame ⊢
  rcases List.eq_nil_or_concat l with rfl | ⟨l, v, rfl⟩
  · simp
  · rw [List.concat_eq_append] at hsame ⊢
    have hall : l = List.replicate l.length v := List.eq_replicate_iff.mpr ⟨rfl, fun v' hv' =>
      hsame v' (List.mem_append_left _ hv') v (List.mem_append_right _ (List.mem_singleton_self v))⟩
    have hsum : l.sum = l.length * v := by
      rw [hall, List.sum_replicate, List.length_replicate, nsmul_eq_mul]
    have hzero : (∀ v' ∈ l ++ [v], v' = 0) ↔ v = 0 := by
      refine ⟨fun h => h v (List.mem_append_right _ (List.mem_singleton_self v)), fun h v' hv' => ?_⟩
      rw [← h]
      exact hsame v' hv' v (List.mem_append_right _ (List.mem_singleton_self v))
    rw [hzero]
    simp only [List.getLast?_concat, Option.getD_some, List.sum_append, List.sum_singleton,
      List.length_append, List.length_singleton, hsum]
    have hlength : l.length + 1 ≤ 1 ↔ ((l.length : ℕ) : ℚ) = 0 := by
      rw [Nat.cast_eq_zero]
      omega
    rw [hlength, ← mul_eq_zero]
    constructor
    · intro h
      linarith
    · intro h
      linarith

/-- A sum that stays where some terms change alike: they do not change. -/
theorem change_eq_zero {α : Type} {l : List α} {P : α → Prop} [DecidablePred P] {a b : α → ℚ} {c : ℚ}
    (hchange : ∀ x ∈ l, b x = a x + if P x then c else 0) (hsum : (l.map b).sum = (l.map a).sum) {x : α}
    (hx : x ∈ l) (hP : P x) : c = 0 := by
  have hcount : ∀ l : List α, (l.map fun x => if P x then c else 0).sum = l.countP P * c := by
    intro l
    induction l with
    | nil => simp
    | cons x l ih =>
      rw [List.map_cons, List.sum_cons, ih, List.countP_cons]
      by_cases hx : P x
      · simp only [if_pos hx, decide_eq_true hx, if_true, Nat.cast_add, Nat.cast_one]
        ring
      · simp only [if_neg hx, decide_eq_false hx, Bool.false_eq_true, if_false, Nat.cast_add, Nat.cast_zero]
        ring
  have hsplit : (l.map b).sum = (l.map a).sum + l.countP P * c := by
    rw [← hcount, ← List.sum_map_add]
    exact congrArg List.sum (List.map_congr_left hchange)
  have hpos : 0 < l.countP P := List.countP_pos_iff.mpr ⟨x, hx, decide_eq_true hP⟩
  have hprod : ((l.countP P : ℕ) : ℚ) * c = 0 := by linarith
  rcases mul_eq_zero.mp hprod with h | h
  · rw [Nat.cast_eq_zero] at h
    omega
  · exact h

/-! ## The order of the series -/

theorem Readable.perm (h : Readable answers) (hperm : ∀ m, (answers' m).Perm (answers m)) : Readable answers' :=
  fun m hm s hs => h m hm s ((hperm m).mem_iff.mp hs)

theorem keys_perm (hperm : ∀ m, (answers' m).Perm (answers m)) :
    (written (writes answers') ∅).keys.Perm (written (writes answers) ∅).keys := by
  refine (List.perm_ext_iff_of_nodup (AList.keys_nodup _) (AList.keys_nodup _)).mpr fun p => ?_
  rw [mem_keys_writes, mem_keys_writes]
  refine exists_congr fun m => not_congr ?_
  rw [← List.length_eq_zero_iff, ← List.length_eq_zero_iff, (valuesAt_perm hperm m p).length_eq]

theorem lastAt_mem (h : valuesAt answers m p ≠ []) : lastAt answers m p ∈ valuesAt answers m p := by
  rw [lastAt, List.getLast?_eq_getLast_of_ne_nil h]
  exact List.getLast_mem h

/-- Where the values agree, what stays does not depend on their order. -/
theorem lastAt_perm (hperm : ∀ m, (answers' m).Perm (answers m))
    (hsame : ∀ v ∈ valuesAt answers m p, ∀ v' ∈ valuesAt answers m p, v = v') :
    lastAt answers' m p = lastAt answers m p := by
  have hvalues := valuesAt_perm hperm m p
  by_cases hnil : valuesAt answers m p = []
  · rw [hnil] at hvalues
    rw [lastAt, lastAt, hnil, hvalues.eq_nil]
  · have hnil' : valuesAt answers' m p ≠ [] := fun h => hnil (List.nil_perm.mp (h ▸ hvalues))
    exact hsame _ (hvalues.mem_iff.mp (lastAt_mem hnil')) _ (lastAt_mem hnil)

/-- **Where the series agree**, their order does not matter. -/
theorem rows_perm (hperm : ∀ m, (answers' m).Perm (answers m))
    (h : ∀ p, HasRow resourceIdsMap answers p → Agree answers p) :
    ((podRows cloudAccountId resourceIdsMap (written (writes answers') ∅)).map Prod.snd).Perm
      ((podRows cloudAccountId resourceIdsMap (written (writes answers) ∅)).map Prod.snd) := by
  refine List.Perm.map _ ?_
  have hrow : ∀ p ∈ (written (writes answers') ∅).keys,
      ((resourceOf resourceIdsMap p).map fun resourceId =>
        (p, rowOf cloudAccountId (written (writes answers') ∅) p resourceId)) =
      (resourceOf resourceIdsMap p).map fun resourceId =>
        (p, rowOf cloudAccountId (written (writes answers) ∅) p resourceId) := by
    intro p hp
    have hkey := mem_keys_writes.mp ((keys_perm hperm).mem_iff.mp hp)
    cases hr : resourceOf resourceIdsMap p with
    | none => rfl
    | some resourceId =>
      have htype := type_of_resourceOf hr
      have hagree := h p ⟨by rw [hr]; rfl, hkey⟩
      have hvalues : (rowOf cloudAccountId (written (writes answers') ∅) p resourceId).values =
          (rowOf cloudAccountId (written (writes answers) ∅) p resourceId).values := funext fun m => by
        rw [rowOf_values htype, rowOf_values htype, lastAt_perm hperm (hagree.same m)]
      have hrows : rowOf cloudAccountId (written (writes answers') ∅) p resourceId =
          rowOf cloudAccountId (written (writes answers) ∅) p resourceId := by
        unfold rowOf at hvalues ⊢
        simp only [Row.mk.injEq, true_and]
        exact hvalues
      simp only [Option.map_some, hrows]
  rw [podRows, List.filterMap_congr hrow]
  exact (keys_perm hperm).filterMap _

/-- The values of a metric at a date, added up over the rows. -/
theorem sum_rows (answers : Answers) (m : K8sMetric) (date : ℚ) :
    (((podRows cloudAccountId resourceIdsMap (written (writes answers) ∅)).map Prod.snd).map
        fun row => if row.date = date then row.values m else 0).sum =
      ((written (writes answers) ∅).keys.map fun q => ((resourceOf resourceIdsMap q).map fun _ =>
        if q.date = date then lastAt answers m (scope q m) else 0).getD 0).sum := by
  rw [podRows, List.map_map, Grouped.sum_filterMap]
  refine congrArg List.sum (List.map_congr_left fun q _ => ?_)
  cases hr : resourceOf resourceIdsMap q with
  | none => rfl
  | some resourceId =>
    simp only [Option.map_some, Option.getD_some, Function.comp_apply,
      rowOf_values (type_of_resourceOf hr)]
    rfl

theorem scope_date (q : Path) (m : K8sMetric) : (scope q m).date = q.date := by
  unfold scope
  split <;> rfl

/-- **A series that comes last stays**; so in every order the rows are the same only where it has stayed. -/
theorem lastAt_of_order (hread : Readable answers) (hrow : HasRow resourceIdsMap answers p)
    (horder : ∀ answers', (∀ m, (answers' m).Perm (answers m)) →
      (getK8sMetrics cloudAccountId resourceIdsMap answers').map (Multiset.ofList ·) =
        (getK8sMetrics cloudAccountId resourceIdsMap answers).map (Multiset.ofList ·))
    {v : ℚ} (hv : v ∈ valuesAt answers m (scope p m)) : lastAt answers m (scope p m) = v := by
  obtain ⟨s, hs, hv⟩ := List.mem_flatMap.mp hv
  obtain ⟨before, after, hsplit⟩ := List.append_of_mem hs
  -- the answers with this series at the end
  let answers' : Answers := Function.update answers m (before ++ after ++ [s])
  have hperm : ∀ m', (answers' m').Perm (answers m') := by
    intro m'
    by_cases hm : m' = m
    · subst hm
      rw [hsplit]
      simp only [answers', Function.update_self]
      exact (List.perm_append_singleton s _).trans List.perm_middle.symm
    · simp only [answers', Function.update_of_ne hm]
      exact List.Perm.refl _
  have hat : ∀ q, valuesAt answers' m q =
      (before.flatMap (Series.valuesAt m q) ++ after.flatMap (Series.valuesAt m q)) ++ s.valuesAt m q := by
    intro q
    simp only [valuesAt, answers', Function.update_self, List.flatMap_append, List.flatMap_singleton]
  have hlast : lastAt answers' m (scope p m) = v := by
    rw [lastAt, hat, Series.valuesAt_of_mem hv, List.getLast?_concat, Option.getD_some]
  have hother : ∀ q, q.date = p.date → q ≠ scope p m → lastAt answers' m q = lastAt answers m q := by
    intro q hdate hne
    have hnil := Series.valuesAt_eq_nil hv (hdate.trans (scope_date p m).symm) hne
    rw [lastAt, lastAt, hat, valuesAt, hsplit, List.flatMap_append, List.flatMap_cons, hnil, List.append_nil,
      List.nil_append]
  have hrows := horder answers' hperm
  rw [getK8sMetrics_of_readable hread, getK8sMetrics_of_readable (hread.perm hperm)] at hrows
  have hsums := ((Multiset.coe_eq_coe.mp (Except.ok.inj hrows)).map
    fun row : Row => if row.date = p.date then row.values m else 0).sum_eq
  rw [sum_rows, sum_rows, ((keys_perm hperm).map _).sum_eq] at hsums
  have hzero := change_eq_zero (P := fun q => (resourceOf resourceIdsMap q).isSome ∧ q.date = p.date ∧
    scope q m = scope p m) (c := v - lastAt answers m (scope p m)) (fun q _ => ?_) hsums
    (mem_keys_writes.mpr hrow.2) ⟨hrow.1, rfl, rfl⟩
  · linarith
  · cases hr : resourceOf resourceIdsMap q with
    | none => simp
    | some resourceId =>
      simp only [Option.map_some, Option.getD_some, Option.isSome_some, true_and]
      by_cases hdate : q.date = p.date
      · simp only [hdate, if_true, true_and]
        by_cases hscope : scope q m = scope p m
        · rw [if_pos hscope, hscope, hlast]
          ring
        · rw [if_neg hscope, hother _ ((scope_date q m).trans hdate) hscope, add_zero]
      · simp [hdate]

/-- **The rows cover all containers exactly where the series of each pod agree.** -/
theorem containers_covered_iff (cloudAccountId : String) (resourceIdsMap : List ResourceItem) (answers : Answers) :
    CoversContainers cloudAccountId resourceIdsMap answers ↔
      (Readable answers → ∀ p, HasRow resourceIdsMap answers p → Agree answers p) := by
  constructor
  · intro h hread p hrow
    have hsame : ∀ m, ∀ v ∈ valuesAt answers m (scope p m), ∀ v' ∈ valuesAt answers m (scope p m), v = v' :=
      fun m v hv v' hv' => (lastAt_of_order hread hrow h.order hv).symm.trans
        (lastAt_of_order hread hrow h.order hv')
    refine ⟨fun m hm => ?_, hsame⟩
    obtain ⟨resourceId, hr⟩ := Option.isSome_iff_exists.mp hrow.1
    have hsum := h.sums _ (metricMap_of_readable hread)
      (p, rowOf cloudAccountId (written (writes answers) ∅) p resourceId)
      (mem_podRows.mpr ⟨resourceId, hr, hrow.2, rfl⟩) m hm
    rw [rowOf_values (type_of_resourceOf hr), scope_of_mem hm] at hsum
    have hsame' := hsame m
    rw [scope_of_mem hm] at hsame'
    exact (sum_eq_lastAt_iff hsame').mp hsum
  · intro h
    by_cases hread : Readable answers
    · refine ⟨fun map hmap x hx m hm => ?_, fun answers' hperm => ?_⟩
      · obtain rfl := Except.ok.inj ((metricMap_of_readable hread).symm.trans hmap)
        obtain ⟨resourceId, hr, hkey, hrow⟩ := mem_podRows.mp hx
        have hagree := h hread x.1 ⟨by rw [hr]; rfl, hkey⟩
        have hsame := hagree.same m
        rw [scope_of_mem hm] at hsame
        rw [hrow, rowOf_values (type_of_resourceOf hr), scope_of_mem hm]
        exact (sum_eq_lastAt_iff hsame).mpr (hagree.single m hm)
      · rw [getK8sMetrics_of_readable hread, getK8sMetrics_of_readable (hread.perm hperm)]
        exact congrArg Except.ok (Multiset.coe_eq_coe.mpr (rows_perm hperm (h hread)))
    · have herror : ∀ answers', (∀ m, (answers' m).Perm (answers m)) →
          metricMap answers' = .error (.python "KeyError") := fun answers' hperm =>
        metricMap_of_not_readable fun hread' => hread (hread'.perm fun m => (hperm m).symm)
      refine ⟨fun map hmap => ?_, fun answers' hperm => ?_⟩
      · exact nomatch hmap.symm.trans (herror answers fun _ => List.Perm.refl _)
      · rw [getK8sMetrics, getK8sMetrics, herror answers' hperm, herror answers fun _ => List.Perm.refl _]

/-- The CPU limit of a container of the pod `web`. -/
def limitOf (container : String) (value : ℚ) : Series :=
  { namespaceName := some "default"
    pod := some "web"
    labels := [("container", container)]
    values := [(900, value)]
    nodup_dates := List.nodup_singleton _ }

/-- Two containers with a limit of one CPU each. -/
def twoContainers : Answers
  | .podCpuProvision => [limitOf "app" 1, limitOf "sidecar" 1]
  | _ => []

/-- **The pod's limit is that of one container.** -/
theorem covers_one_container : ¬ ∀ (cloudAccountId : String) (resourceIdsMap : List ResourceItem)
    (answers : Answers), CoversContainers cloudAccountId resourceIdsMap answers := by
  intro h
  let resources : List ResourceItem := [⟨"uid", "r1", some "web", some "default"⟩]
  let place : Path := ⟨some "default", .podLimits, some "web", 900⟩
  have hread : Readable twoContainers := by
    intro m hm s hs
    cases m <;> first | exact absurd hs List.not_mem_nil | exact absurd hm (by decide)
  have hvalues : valuesAt twoContainers .podCpuProvision place = [1, 1] := by decide +kernel
  have hr : resourceOf resources place = some "r1" := by decide
  have hsum := (h "a1" resources twoContainers).sums _ (metricMap_of_readable hread)
    (place, rowOf "a1" (written (writes twoContainers) ∅) place "r1")
    (mem_podRows.mpr ⟨"r1", hr, ⟨.podCpuProvision, by rw [hvalues]; exact List.cons_ne_nil _ _⟩, rfl⟩)
    .podCpuProvision (by decide)
  have hscope : scope place .podCpuProvision = place := scope_of_mem (by decide)
  rw [rowOf_values rfl, hscope, lastAt, hvalues] at hsum
  exact absurd hsum (by norm_num)

end MetricsProcessor
