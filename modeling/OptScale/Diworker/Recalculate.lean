import OptScale.Diworker.Kubernetes

/-!
# Diworker/Recalculate — a recalculation against an import

A raw expense keeps the value and the cost of the last import of its day, and everything else of
the import that inserted it.  `history` keeps both imports whole, and the raw expenses are what it
says under any cost model (`imported_iff`).  So a recalculation prices the last value by the hours and
the total of the first import, and where it skips a record it leaves the old price;
`recalculation_agrees_iff` says when that comes to what an import would have written.
-/

open Fallible BaseReportImporter Chunks

namespace KubernetesReportImporter

variable {A : Account} {M M₁ M₂ : KubernetesCostModel}

/-! ## The history -/

/-- The unique fields of a sample's raw expense. -/
def sampleKey (s : Sample) : KubernetesKey :=
  ⟨s.startDate.stored, s.resourceId, s.cloudAccountId, s.metric, s.pod⟩

/-- The sample that inserted a raw expense, and the last one that was written to it. -/
structure Trace where
  inserted : Sample
  last : Sample
  same : sampleKey last = sampleKey inserted

namespace Trace

/-- The unique fields. -/
def key (tr : Trace) : KubernetesKey := sampleKey tr.inserted

/-- The raw expense. -/
def expense (M : KubernetesCostModel) (tr : Trace) : KubernetesExpense :=
  fields.update (Sample.expense M tr.last) (Sample.expense M tr.inserted)

/-- Another sample is written to the raw expense. -/
def rewrite (s : Sample) (tr : Trace) : Trace :=
  if h : sampleKey s = sampleKey tr.inserted then ⟨tr.inserted, s, h⟩ else tr

theorem unique_expense (tr : Trace) : fields.unique (tr.expense M) = tr.key := rfl

theorem key_rewrite (s : Sample) (tr : Trace) : (tr.rewrite s).key = tr.key := by
  unfold rewrite
  split <;> rfl

end Trace

/-- The raw expenses with what they come from. -/
abbrev History := Table Trace.key

/-- The samples of an import are written. -/
def recordSamples (samples : List Sample) (hist : History) : History :=
  samples.foldl (fun hist s =>
    hist.upsert ⟨s, s, rfl⟩ (Trace.rewrite s) (Trace.key_rewrite s)) hist

/-- The raw expense is deleted. -/
def removed (A : Account) (periodStart : Micros) (tr : Trace) : Bool :=
  periodStart.stored ≤ tr.inserted.startDate.stored ∧ tr.inserted.cloudAccountId = A.cloudAccountId

/-- What is done to the raw expenses, done to the history. -/
def Event.record (A : Account) (hist : History) : Event → Except Failure History
  | .remove periodStart => .ok (hist.deleteWhere (removed A periodStart))
  | .load i => do
    let samples ← samples A i
    pure (recordSamples samples hist)

/-- The history of an account's imports. -/
def history (A : Account) (events : List Event) : Except Failure History :=
  events.foldlM (Event.record A) .empty

/-- The raw expenses of a history, under a cost model. -/
def History.expenses (M : KubernetesCostModel) (hist : History) : Raw :=
  hist.map (Trace.expense M) Trace.unique_expense

/-! ## The raw expenses are those of the history -/

theorem expenses_recordSamples (samples : List Sample) : ∀ hist : History,
    updateRawRecords fields (samples.map (Sample.expense M)) (hist.expenses M) =
      (recordSamples samples hist).expenses M := by
  induction samples with
  | nil => exact fun _ => rfl
  | cons s samples ih =>
    intro hist
    have hstep : (hist.expenses M).upsert (Sample.expense M s) (fields.update (Sample.expense M s))
        (fields.unique_update _) =
        History.expenses M (hist.upsert ⟨s, s, rfl⟩ (Trace.rewrite s) (Trace.key_rewrite s)) := by
      refine Table.map_upsert (a := (⟨s, s, rfl⟩ : Trace)) fun tr htr => ?_
      rw [Trace.rewrite, dif_pos (show sampleKey s = sampleKey tr.inserted from htr.symm)]
      rfl
    exact (congrArg _ hstep).trans (ih _)

theorem foldl_updateRawRecords (chunks : List (List KubernetesExpense)) : ∀ raw : Raw,
    chunks.foldl (fun raw chunk => updateRawRecords fields chunk raw) raw =
      updateRawRecords fields chunks.flatten raw := by
  induction chunks with
  | nil => exact fun _ => rfl
  | cons chunk chunks ih =>
    intro raw
    rw [List.foldl_cons, ih, List.flatten_cons]
    exact List.foldl_append.symm

/-- **One event**, on the raw expenses and on the history. -/
theorem apply_iff {hist : History} {event : Event} {raw : Raw} :
    event.apply A M (hist.expenses M) = .ok raw ↔
      ∃ hist', event.record A hist = .ok hist' ∧ raw = hist'.expenses M := by
  cases event with
  | remove periodStart =>
    have hdelete : removeRawExpenses A periodStart (hist.expenses M) =
        History.expenses M (hist.deleteWhere (removed A periodStart)) :=
      Table.map_deleteWhere fun _ => rfl
    simp only [Event.apply, Event.record, Except.ok.injEq, hdelete, exists_eq_left']
    exact eq_comm
  | load i =>
    simp only [Event.apply, Event.record, loadRawData, bind_eq_ok, pure_eq_ok,
      foldl_updateRawRecords, flatten_toChunks, expenses_recordSamples]
    constructor
    · rintro ⟨samples, hsamples, rfl⟩
      exact ⟨_, ⟨samples, hsamples, rfl⟩, rfl⟩
    · rintro ⟨_, ⟨samples, hsamples, rfl⟩, rfl⟩
      exact ⟨samples, hsamples, rfl⟩

theorem foldlM_iff (events : List Event) : ∀ {hist : History} {raw : Raw},
    events.foldlM (Event.apply A M) (hist.expenses M) = .ok raw ↔
      ∃ hist', events.foldlM (Event.record A) hist = .ok hist' ∧ raw = hist'.expenses M := by
  induction events with
  | nil =>
    intro hist raw
    simp only [List.foldlM_nil, pure_eq_ok, exists_eq_left']
    exact eq_comm
  | cons event events ih =>
    intro hist raw
    simp only [List.foldlM_cons, bind_eq_ok]
    constructor
    · rintro ⟨raw₁, hraw₁, hraw⟩
      obtain ⟨hist₁, hhist₁, rfl⟩ := apply_iff.mp hraw₁
      obtain ⟨hist', hhist', rfl⟩ := ih.mp hraw
      exact ⟨hist', ⟨hist₁, hhist₁, hhist'⟩, rfl⟩
    · rintro ⟨hist', ⟨hist₁, hhist₁, hhist'⟩, rfl⟩
      exact ⟨_, apply_iff.mpr ⟨hist₁, hhist₁, rfl⟩, ih.mpr ⟨hist', hhist', rfl⟩⟩

/-- **The raw expenses are those of the history**, under any cost model. -/
theorem imported_iff {events : List Event} {raw : Raw} : imported A M events = .ok raw ↔
    ∃ hist, history A events = .ok hist ∧ raw = hist.expenses M := by
  have h := @foldlM_iff A M events .empty raw
  exact h

/-! ## What an import measures -/

/-- A sample of the account, whose value is part of the total. -/
structure Measured (A : Account) (s : Sample) : Prop where
  account : s.cloudAccountId = A.cloudAccountId
  value : 0 ≤ s.value
  total : s.value ≤ s.totalPodsValue

theorem handled_nonneg {metrics : List Series} {r : Series} {v : ℤ × ℚ}
    (hr : r ∈ handleNegativeMetrics metrics) (hv : v ∈ r.values) : 0 ≤ v.2 := by
  obtain ⟨r', -, rfl⟩ := List.mem_map.mp hr
  obtain ⟨v', -, rfl⟩ := List.mem_map.mp hv
  dsimp only
  split
  · rename_i hpos
    exact hpos.le
  · exact le_rfl

/-- **A value is part of its total.** -/
theorem le_total {metrics : List Series} {r : Series} {v : ℤ × ℚ}
    (hmetrics : ∀ r ∈ metrics, ∀ v ∈ r.values, 0 ≤ v.2) (hr : r ∈ metrics) (hv : v ∈ r.values) :
    v.2 ≤ calculateTotalPodsMetrics metrics v.1 r.instance' := by
  refine List.single_le_sum (fun x hx => ?_) _ ?_
  · obtain ⟨r', hr', hx⟩ := List.mem_flatMap.mp hx
    obtain ⟨v', hv', rfl⟩ := List.mem_map.mp hx
    exact hmetrics r' (List.mem_of_mem_filter hr') v' (List.mem_of_mem_filter hv')
  · exact List.mem_flatMap.mpr ⟨r, List.mem_filter.mpr ⟨hr, decide_eq_true rfl⟩,
      List.mem_map_of_mem (List.mem_filter.mpr ⟨hv, decide_eq_true rfl⟩)⟩

theorem metricSamples_measured {i : KubernetesReport} {nodes : List (String × Node)}
    {metric : Metric} {ss : List Sample} (h : metricSamples A i nodes metric = .ok ss) :
    ∀ s ∈ ss, Measured A s := by
  obtain ⟨sss, hsss, h⟩ := bind_eq_ok.mp h
  obtain rfl := pure_eq_ok.mp h
  intro s hs
  obtain ⟨ss, hss, hs⟩ := List.mem_flatten.mp hs
  obtain ⟨r, hr, hseries⟩ := (mem_of_mapM_eq_ok hsss ss).mp hss
  unfold seriesSamples at hseries
  split at hseries
  · obtain rfl := Except.ok.inj hseries
    exact absurd hs List.not_mem_nil
  · obtain ⟨v, hv, hsample⟩ := (mem_of_mapM_eq_ok hseries s).mp hs
    obtain ⟨info, -, hsample⟩ := bind_eq_ok.mp hsample
    obtain rfl := pure_eq_ok.mp hsample
    exact ⟨rfl, handled_nonneg hr hv, le_total (fun _ hr _ hv => handled_nonneg hr hv) hr hv⟩

/-- **What an import builds is measured.** -/
theorem samples_measured {i : KubernetesReport} {ss : List Sample} (h : samples A i = .ok ss) :
    ∀ s ∈ ss, Measured A s := by
  obtain ⟨nodes, -, h⟩ := bind_eq_ok.mp h
  obtain ⟨memory, hmemory, h⟩ := bind_eq_ok.mp h
  obtain ⟨cpu, hcpu, h⟩ := bind_eq_ok.mp h
  obtain rfl := pure_eq_ok.mp h
  intro s hs
  rcases List.mem_append.mp hs with hs | hs
  · exact metricSamples_measured hmemory s hs
  · exact metricSamples_measured hcpu s hs

/-- Both samples are measured. -/
def MeasuredTrace (A : Account) (tr : Trace) : Prop := Measured A tr.inserted ∧ Measured A tr.last

theorem recordSamples_measured (samples : List Sample) : ∀ {hist : History},
    (∀ s ∈ samples, Measured A s) → (∀ tr ∈ hist.rows, MeasuredTrace A tr) →
    ∀ tr ∈ (recordSamples samples hist).rows, MeasuredTrace A tr := by
  induction samples with
  | nil => exact fun _ h => h
  | cons s samples ih =>
    intro hist hsamples hhist
    obtain ⟨hs, hsamples⟩ := List.forall_mem_cons.mp hsamples
    refine ih hsamples fun tr htr => ?_
    rcases Table.mem_upsert.mp htr with ⟨htr, -⟩ | ⟨old, hold, -, rfl⟩ | ⟨-, rfl⟩
    · exact hhist tr htr
    · unfold Trace.rewrite
      split
      · exact ⟨(hhist old hold).1, hs⟩
      · exact hhist old hold
    · exact ⟨hs, hs⟩

/-- **Every raw expense comes from measured samples.** -/
theorem foldlM_measured (events : List Event) : ∀ {hist hist' : History},
    (∀ tr ∈ hist.rows, MeasuredTrace A tr) →
    events.foldlM (Event.record A) hist = .ok hist' → ∀ tr ∈ hist'.rows, MeasuredTrace A tr := by
  induction events with
  | nil =>
    intro hist hist' hhist h
    obtain rfl := pure_eq_ok.mp h
    exact hhist
  | cons event events ih =>
    intro hist hist' hhist h
    rw [List.foldlM_cons] at h
    obtain ⟨hist₁, h₁, h⟩ := bind_eq_ok.mp h
    refine ih (fun tr htr => ?_) h
    cases event with
    | remove periodStart =>
      obtain rfl := Except.ok.inj h₁
      exact hhist tr (Table.mem_deleteWhere.mp htr).1
    | load i =>
      obtain ⟨ss, hss, h₁⟩ := bind_eq_ok.mp h₁
      obtain rfl := pure_eq_ok.mp h₁
      exact recordSamples_measured ss (samples_measured hss) hhist tr htr

/-! ## What a recalculation does -/

/-- The hourly price a metric is charged by. -/
def KubernetesCostModel.hourlyCost (M : KubernetesCostModel) : Metric → ℚ
  | .containerMemoryUsageBytes => M.memoryHourlyCost
  | .containerCpuUsageSecondsTotal => M.cpuHourlyCost

/-- **The cost**: the price, for the pod's share of the hours. -/
theorem costFunc_eq (metric : Metric) (M : KubernetesCostModel) (value total hrs : ℚ) :
    costFunc metric M value total hrs =
      KubernetesCostModel.hourlyCost M metric * (value * (hrs / total)) := by
  cases metric with
  | containerMemoryUsageBytes =>
    simp only [costFunc, getCostByAvgMemoryUsage, bytesToGb, KubernetesCostModel.hourlyCost]
    split
    · rename_i hzero
      simp [hzero]
    · field_simp
  | containerCpuUsageSecondsTotal =>
    simp only [costFunc, getCostByCpuUsageDelta, KubernetesCostModel.hourlyCost]
    split
    · rename_i hzero
      simp [hzero]
    · field_simp

/-- The raw expense after a recalculation. -/
def recalculated (A : Account) (M : KubernetesCostModel) (e : KubernetesExpense) :
    KubernetesExpense :=
  if selected A e ∧ e.cost ≠ 0 then { e with cost := recalculatedCost M e } else e

theorem unique_recalculated (e : KubernetesExpense) :
    fields.unique (recalculated A M e) = fields.unique e := by
  unfold recalculated
  split <;> rfl

/-- The updates of a raw expense. -/
def changed (changes : List Change) (e : KubernetesExpense) : KubernetesExpense :=
  changes.foldl (fun e c => if fields.unique e = c.1 then { e with cost := c.2 } else e) e

theorem bulkWrite_rows (changes : List Change) : ∀ raw : Raw,
    (bulkWrite changes raw).rows = raw.rows.map (changed changes) := by
  induction changes with
  | nil => exact fun raw => (List.map_id _).symm
  | cons c changes ih =>
    intro raw
    refine (ih _).trans ?_
    simp only [Table.updateWhere, List.map_map, decide_eq_true_eq]
    rfl

/-- **Updates that agree** leave their cost, if there are any. -/
theorem changed_eq {changes : List Change} {cost : ℚ} : ∀ {e : KubernetesExpense},
    (∀ c ∈ changes, c.1 = fields.unique e → c.2 = cost) →
    changed changes e =
      if ∃ c ∈ changes, c.1 = fields.unique e then { e with cost := cost } else e := by
  induction changes with
  | nil => exact fun _ => by simp [changed]
  | cons c changes ih =>
    intro e h
    obtain ⟨hc, hchanges⟩ := List.forall_mem_cons.mp h
    by_cases hkey : fields.unique e = c.1
    · have hstep : changed (c :: changes) e = changed changes { e with cost := cost } := by
        simp only [changed, List.foldl_cons, if_pos hkey, hc hkey.symm]
      have hsome : ∃ c' ∈ c :: changes, c'.1 = fields.unique e :=
        ⟨c, List.mem_cons_self, hkey.symm⟩
      rw [hstep, ih (e := { e with cost := cost }) hchanges, if_pos hsome]
      exact ite_self _
    · have hstep : changed (c :: changes) e = changed changes e := by
        simp only [changed, List.foldl_cons, if_neg hkey]
      have hiff : (∃ c' ∈ c :: changes, c'.1 = fields.unique e) ↔
          ∃ c' ∈ changes, c'.1 = fields.unique e := by
        rw [List.exists_mem_cons_iff, or_iff_right (Ne.symm hkey)]
      rw [hstep, ih hchanges]
      exact if_congr hiff.symm rfl rfl

/-- The updates of a chunk, for one raw expense. -/
theorem mem_chunkChanges {ids : List String} {raw : Raw} {e : KubernetesExpense} (he : e ∈ raw.rows)
    {c : Change} (hkey : c.1 = fields.unique e) : c ∈ chunkChanges A M ids raw ↔
      (selected A e ∧ e.resourceId ∈ ids ∧ e.cost ≠ 0) ∧ c.2 = recalculatedCost M e := by
  simp only [chunkChanges, List.mem_map, List.mem_filter, decide_eq_true_eq]
  constructor
  · rintro ⟨e', ⟨he', hselected⟩, rfl⟩
    obtain rfl := raw.eq_of_key he' he hkey
    exact ⟨hselected, rfl⟩
  · rintro ⟨hselected, hcost⟩
    exact ⟨e, ⟨he, hselected⟩, Prod.ext hkey.symm hcost.symm⟩

/-- The updates say what the raw expenses already have. -/
def Written (changes : List Change) (ids : List String) (raw : Raw) : Prop :=
  ∀ c ∈ changes, ∀ e ∈ raw.rows, c.1 = fields.unique e → c.2 = e.cost ∧ e.resourceId ∉ ids

/-- **A chunk of resources** is recalculated; the updates of the chunks before change nothing. -/
theorem changed_chunk {ids : List String} {changes : List Change} {raw : Raw}
    (hchanges : Written changes ids raw) {e : KubernetesExpense} (he : e ∈ raw.rows) :
    changed (changes ++ chunkChanges A M ids raw) e =
      if e.resourceId ∈ ids then recalculated A M e else e := by
  by_cases hselected : selected A e ∧ e.resourceId ∈ ids ∧ e.cost ≠ 0
  · obtain ⟨hsel, hid, hcost⟩ := hselected
    have hnew : (fields.unique e, recalculatedCost M e) ∈ chunkChanges A M ids raw :=
      (mem_chunkChanges he rfl).mpr ⟨⟨hsel, hid, hcost⟩, rfl⟩
    have hagree : ∀ c ∈ changes ++ chunkChanges A M ids raw, c.1 = fields.unique e →
        c.2 = recalculatedCost M e := by
      intro c hc hkey
      rcases List.mem_append.mp hc with hc | hc
      · exact absurd hid (hchanges c hc e he hkey).2
      · exact ((mem_chunkChanges he hkey).mp hc).2
    rw [changed_eq hagree, if_pos ⟨_, List.mem_append_right _ hnew, rfl⟩, if_pos hid, recalculated,
      if_pos ⟨hsel, hcost⟩]
  · have hsame : ∀ c ∈ changes ++ chunkChanges A M ids raw, c.1 = fields.unique e →
        c.2 = e.cost := by
      intro c hc hkey
      rcases List.mem_append.mp hc with hc | hc
      · exact (hchanges c hc e he hkey).1
      · exact absurd ((mem_chunkChanges he hkey).mp hc).1 hselected
    rw [changed_eq hsame, ite_self]
    split
    · rename_i hid
      exact (if_neg fun h => hselected ⟨h.1, hid, h.2⟩).symm
    · rfl

/-- **The loop over the resources** recalculates each of them. -/
theorem recalculateChunks_rows (chunks : List (List String)) : ∀ {changes : List Change} {raw : Raw},
    chunks.flatten.Nodup → Written changes chunks.flatten raw →
    (recalculateChunks A M chunks changes raw).rows = raw.rows.map fun e =>
      if e.resourceId ∈ chunks.flatten then recalculated A M e else e := by
  induction chunks with
  | nil =>
    intro changes raw _ _
    simp [recalculateChunks]
  | cons ids chunks ih =>
    intro changes raw hnodup hchanges
    obtain ⟨-, hnodup', hdisjoint⟩ := List.nodup_append.mp hnodup
    have hids : Written changes ids raw := fun c hc e he hkey =>
      ⟨(hchanges c hc e he hkey).1, fun hid =>
        (hchanges c hc e he hkey).2 (List.mem_append_left _ hid)⟩
    have hrows : (bulkWrite (changes ++ chunkChanges A M ids raw) raw).rows = raw.rows.map fun e =>
        if e.resourceId ∈ ids then recalculated A M e else e := by
      rw [bulkWrite_rows]
      exact List.map_congr_left fun e he => changed_chunk hids he
    refine (ih hnodup' ?_).trans ?_
    · intro c hc e' he' hkey
      rw [hrows] at he'
      obtain ⟨e, he, rfl⟩ := List.mem_map.mp he'
      have hkey' : c.1 = fields.unique e := by
        rw [hkey]
        split
        · exact unique_recalculated e
        · rfl
      rcases List.mem_append.mp hc with hc | hc
      · obtain ⟨hcost, hnot⟩ := hchanges c hc e he hkey'
        rw [List.flatten_cons, List.mem_append, not_or] at hnot
        rw [if_neg hnot.1]
        exact ⟨hcost, hnot.2⟩
      · obtain ⟨⟨hsel, hid, hne⟩, hcost⟩ := (mem_chunkChanges he hkey').mp hc
        rw [if_pos hid, recalculated, if_pos ⟨hsel, hne⟩]
        exact ⟨hcost, fun h => hdisjoint _ hid _ h rfl⟩
    · rw [hrows, List.map_map]
      refine List.map_congr_left fun e he => ?_
      simp only [Function.comp_apply, List.flatten_cons, List.mem_append]
      by_cases hid : e.resourceId ∈ ids
      · have hnot : e.resourceId ∉ chunks.flatten := fun h => hdisjoint _ hid _ h rfl
        have hkept : (recalculated A M e).resourceId = e.resourceId :=
          congrArg KubernetesKey.resourceId (unique_recalculated e)
        simp only [hid, if_true, true_or, hkept, hnot, if_false]
      · simp only [hid, if_false, false_or]

/-- **A recalculation** recalculates every raw expense. -/
theorem recalculateRawExpenses_rows (raw : Raw) :
    (recalculateRawExpenses A M raw).rows = raw.rows.map (recalculated A M) := by
  unfold recalculateRawExpenses
  rw [recalculateChunks_rows _ (by rw [flatten_toChunks]; exact List.nodup_dedup _)
    fun c hc => absurd hc List.not_mem_nil]
  refine List.map_congr_left fun e he => ?_
  rw [flatten_toChunks]
  split
  · rfl
  · rename_i hnot
    refine (if_neg fun hselected => hnot ?_).symm
    exact List.mem_dedup.mpr (List.mem_map_of_mem
      (List.mem_filter.mpr ⟨he, decide_eq_true hselected.1⟩))

/-! ## Against an import -/

/-- The hours a recalculation reads from a raw expense. -/
def keptHrs (s : Sample) : ℚ :=
  Micros.hours (s.endDate.stored - s.startDate.stored + Micros.second)

/-- **What an import under the new cost model would have written**: the raw expenses of nodes that
the account's cost model prices have the cost of their last import. -/
def AgreesWithImport (A : Account) (M : KubernetesCostModel) (hist : History) (raw : Raw) : Prop :=
  ∀ e ∈ (recalculateRawExpenses A M raw).rows, ∀ tr ∈ hist.rows, tr.key = fields.unique e →
    tr.last.node.costModel = .default → e.cost = (Sample.expense M tr.last).cost

/-- What a recalculation leaves: the value is nothing; or the record is recalculated, and nothing is
charged or the hours and the total are still in the ratio of the first import; or it is skipped, and
there were no hours or the price has not changed. -/
def ComesOut (M₁ M₂ : KubernetesCostModel) (tr : Trace) : Prop :=
  tr.last.value = 0 ∨
  if tr.inserted.nodeKubernetesIoInstanceType = none ∧
      KubernetesCostModel.hourlyCost M₁ tr.last.metric ≠ 0 ∧ tr.last.workedHrs ≠ 0 then
    KubernetesCostModel.hourlyCost M₂ tr.last.metric = 0 ∨
      keptHrs tr.inserted / tr.inserted.totalPodsValue =
        tr.last.workedHrs / tr.last.totalPodsValue
  else tr.last.workedHrs = 0 ∨
    KubernetesCostModel.hourlyCost M₁ tr.last.metric =
      KubernetesCostModel.hourlyCost M₂ tr.last.metric

/-- **One raw expense** agrees exactly when it comes out. -/
theorem recalculated_cost_iff {tr : Trace} (hmeasured : MeasuredTrace A tr)
    (hdefault : tr.last.node.costModel = .default) :
    (recalculated A M₂ (tr.expense M₁)).cost = (Sample.expense M₂ tr.last).cost ↔
      ComesOut M₁ M₂ tr := by
  obtain ⟨hinserted, hlast⟩ := hmeasured
  have hmetric : tr.inserted.metric = tr.last.metric :=
    (congrArg KubernetesKey.metric tr.same).symm
  have hcost : ∀ M, (Sample.expense M tr.last).cost = KubernetesCostModel.hourlyCost M tr.last.metric *
      (tr.last.value * (tr.last.workedHrs / tr.last.totalPodsValue)) := by
    intro M
    simp only [Sample.expense, hdefault, NodeCostModel.resolve, costFunc_eq]
  have hnew : recalculatedCost M₂ (tr.expense M₁) =
      KubernetesCostModel.hourlyCost M₂ tr.last.metric *
        (tr.last.value * (keptHrs tr.inserted / tr.inserted.totalPodsValue)) := by
    rw [recalculatedCost, costFunc_eq, ← hmetric]
    rfl
  have hselected : selected A (tr.expense M₁) ↔
      tr.inserted.nodeKubernetesIoInstanceType = none :=
    ⟨fun h => h.2.2.2, fun h => ⟨hinserted.account, rfl, rfl, h⟩⟩
  have hold : (tr.expense M₁).cost = (Sample.expense M₁ tr.last).cost := rfl
  by_cases hvalue : tr.last.value = 0
  · have hnothing : ¬ (selected A (tr.expense M₁) ∧ (tr.expense M₁).cost ≠ 0) := fun h =>
      h.2 (by rw [hold, hcost, hvalue, zero_mul, mul_zero])
    rw [recalculated, if_neg hnothing, hold, hcost, hcost, hvalue]
    simp [ComesOut, hvalue]
  have htotal : tr.last.totalPodsValue ≠ 0 :=
    ((lt_of_le_of_ne hlast.value (Ne.symm hvalue)).trans_le hlast.total).ne'
  have hcharged : (tr.expense M₁).cost ≠ 0 ↔
      KubernetesCostModel.hourlyCost M₁ tr.last.metric ≠ 0 ∧ tr.last.workedHrs ≠ 0 := by
    rw [hold, hcost, mul_ne_zero_iff, mul_ne_zero_iff, div_ne_zero_iff]
    exact ⟨fun h => ⟨h.1, h.2.2.1⟩, fun h => ⟨h.1, hvalue, h.2, htotal⟩⟩
  have hcharge := and_congr hselected hcharged
  rw [ComesOut, or_iff_right hvalue, recalculated]
  by_cases hrecalculated : selected A (tr.expense M₁) ∧ (tr.expense M₁).cost ≠ 0
  · rw [if_pos hrecalculated, if_pos (hcharge.mp hrecalculated)]
    change recalculatedCost M₂ (tr.expense M₁) = _ ↔ _
    rw [hnew, hcost, mul_eq_mul_left_iff, mul_eq_mul_left_iff, or_iff_left hvalue, or_comm]
  · rw [if_neg hrecalculated, if_neg (hcharge.not.mp hrecalculated), hold, hcost, hcost,
      mul_eq_mul_right_iff, mul_eq_zero, or_iff_right hvalue, div_eq_zero_iff, or_iff_left htotal,
      or_comm]

/-- The raw expenses of a history agree exactly when each comes out. -/
theorem agreesWithImport_iff {hist : History} (hmeasured : ∀ tr ∈ hist.rows, MeasuredTrace A tr) :
    AgreesWithImport A M₂ hist (hist.expenses M₁) ↔
      ∀ tr ∈ hist.rows, tr.last.node.costModel = .default → ComesOut M₁ M₂ tr := by
  have hrows : (recalculateRawExpenses A M₂ (hist.expenses M₁)).rows =
      hist.rows.map fun tr => recalculated A M₂ (tr.expense M₁) := by
    rw [recalculateRawExpenses_rows]
    exact List.map_map
  constructor
  · intro h tr htr hdefault
    refine (recalculated_cost_iff (hmeasured tr htr) hdefault).mp (h _ ?_ tr htr ?_ hdefault)
    · rw [hrows]
      exact List.mem_map_of_mem htr
    · exact (unique_recalculated (tr.expense M₁)).symm
  · intro h e he tr htr hkey hdefault
    rw [hrows] at he
    obtain ⟨tr', htr', rfl⟩ := List.mem_map.mp he
    obtain rfl := hist.eq_of_key htr htr' (hkey.trans (unique_recalculated _))
    exact (recalculated_cost_iff (hmeasured tr htr) hdefault).mpr (h tr htr hdefault)

theorem history_measured {events : List Event} {hist : History} (h : history A events = .ok hist) :
    ∀ tr ∈ hist.rows, MeasuredTrace A tr :=
  foldlM_measured events (fun _ htr => absurd htr List.not_mem_nil) h

/-- **A recalculation agrees with an import exactly when every raw expense of a node priced by the
account's cost model comes out.** -/
theorem recalculation_agrees_iff {events : List Event} {raw : Raw} {hist : History}
    (hraw : imported A M₁ events = .ok raw) (hhist : history A events = .ok hist) :
    AgreesWithImport A M₂ hist raw ↔
      ∀ tr ∈ hist.rows, tr.last.node.costModel = .default → ComesOut M₁ M₂ tr := by
  obtain ⟨hist', hhist', rfl⟩ := imported_iff.mp hraw
  obtain rfl := Except.ok.inj (hhist.symm.trans hhist')
  exact agreesWithImport_iff (history_measured hhist)

/-! ## A day imported twice -/

/-- One account, whose container ids are pods' uuids. -/
def oneAccount : Account := ⟨1, id⟩

/-- One price for everything. -/
def onePrice : KubernetesCostModel := ⟨1, 1⟩

/-- One pod on a local node, ten bytes the whole of the second day, asked for at an instant. -/
def onePod (now : Micros) : KubernetesReport where
  now := now
  customPrice := none
  nodeMetrics := ⟨[("node", ⟨none, none, none, none⟩)], List.nodup_singleton _⟩
  prices := fun _ => []
  nodeInfo := fun _ _ => some ⟨4, 16⟩
  getMetric := fun metric => match metric with
    | .containerMemoryUsageBytes => [⟨"pod", "node", "id", none, [(172800, 10)]⟩]
    | .containerCpuUsageSecondsTotal => []

/-- Its sample. -/
def onePodSample (now : Micros) : Sample :=
  sample oneAccount now .containerMemoryUsageBytes ⟨"pod", "node", "id", none, []⟩
    ⟨none, none, none, none, none, .default⟩ ⟨4, 16⟩ 10 (172800, 10)

theorem samples_onePod (now : Micros) :
    samples oneAccount (onePod now) = .ok [onePodSample now] := by
  have htotal : calculateTotalPodsMetrics
      (handleNegativeMetrics ((onePod now).getMetric .containerMemoryUsageBytes)) 172800 "node" = 10 := by
    simp [onePod, handleNegativeMetrics, calculateTotalPodsMetrics]
  have hvalue : (if (0 : ℚ) < 10 then 10 else 0 : ℚ) = 10 := if_pos (by norm_num)
  have hsample : samples oneAccount (onePod now) = .ok [sample oneAccount now
      .containerMemoryUsageBytes ⟨"pod", "node", "id", none, []⟩
      ⟨none, none, none, none, none, .default⟩ ⟨4, 16⟩ (calculateTotalPodsMetrics
      (handleNegativeMetrics ((onePod now).getMetric .containerMemoryUsageBytes)) 172800 "node")
      (172800, if (0 : ℚ) < 10 then 10 else 0)] := rfl
  rw [hsample, htotal, hvalue]
  rfl

/-- The trace of two imports. -/
def onePodTrace (now₁ now₂ : Micros) : Trace := ⟨onePodSample now₁, onePodSample now₂, rfl⟩

theorem history_onePod (now₁ now₂ : Micros) :
    history oneAccount [.load (onePod now₁), .load (onePod now₂)] =
      .ok ⟨[onePodTrace now₁ now₂], List.nodup_singleton _⟩ := by
  simp only [history, List.foldlM_cons, List.foldlM_nil, Event.record, samples_onePod, ok_bind]
  refine congrArg Except.ok (Table.ext ?_)
  rfl

/-- The day is imported at noon and when it is over, and the prices stay: the cost is halved. -/
theorem half_a_day_recalculated : ∃ raw hist,
    imported oneAccount onePrice
      [.load (onePod 129600000000), .load (onePod 259200000000)] = .ok raw ∧
    history oneAccount [.load (onePod 129600000000), .load (onePod 259200000000)] = .ok hist ∧
    ¬ AgreesWithImport oneAccount onePrice hist raw := by
  have hhist := history_onePod 129600000000 259200000000
  refine ⟨_, _, imported_iff.mpr ⟨_, hhist, rfl⟩, hhist, fun h => ?_⟩
  have htrace := (agreesWithImport_iff (history_measured hhist)).mp h _ List.mem_cons_self rfl
  revert htrace
  norm_num [ComesOut, onePodTrace, onePodSample, sample, keptHrs, Micros.hours, Micros.stored,
    Micros.hour, Micros.day, Micros.second, onePrice, KubernetesCostModel.hourlyCost]

/-- The day is imported once: new prices come out. -/
theorem whole_day_recalculated : ∃ raw hist,
    imported oneAccount onePrice
      [.load (onePod 259200000000), .load (onePod 259200000000)] = .ok raw ∧
    history oneAccount [.load (onePod 259200000000), .load (onePod 259200000000)] = .ok hist ∧
    AgreesWithImport oneAccount ⟨2, 3⟩ hist raw := by
  have hhist := history_onePod 259200000000 259200000000
  have hraw := imported_iff (M := onePrice).mpr ⟨_, hhist, rfl⟩
  refine ⟨_, _, hraw, hhist, (recalculation_agrees_iff hraw hhist).mpr fun tr htr _ => ?_⟩
  obtain rfl := List.mem_singleton.mp htr
  norm_num [ComesOut, onePodTrace, onePodSample, sample, keptHrs, Micros.hours, Micros.stored,
    Micros.hour, Micros.day, Micros.second, onePrice, KubernetesCostModel.hourlyCost]

end KubernetesReportImporter
