import OptScale.Diworker.AwsRecords
import OptScale.Foundations.Run
import OptScale.Foundations.Upserts
import OptScale.Trapper.Clouds

/-!
# Trapper/Worker — imports, tasks and the worker, in any order

An import writes raw expenses and remembers for each account the dates it wrote; when it is through, it asks for a
task on these dates, unless there is one.  The worker lists the tasks of an account, reads the raw expenses in
their windows, inserts what is to be replaced, and deletes the tasks it listed.  Either may stop anywhere.

Whatever the order, a sum that is not in line with the raw expenses is covered by an import that is not through or
by a task (`inLine_or_covered`), as long as no import is refused a task because of one whose expenses the
worker has read already.  Such a refusal loses the change for good (`refused_change_is_lost`).
-/

open Fallible Ledger Upserts BaseReportImporter Run

namespace Trapper

/-- What imports and the worker go by: the upserts of raw expenses, of the account and the date that rows and
records have, the clouds of the accounts, and their regions. -/
structure Setting (ρ δ : Type) where
  upsert : Upsert ρ δ (Uuid × ℤ)
  decides : ∀ r d, Decidable (upsert.Matches r d)
  cost : δ → ℚ
  processor : Uuid → BaseTrafficExpenseProcessor δ
  region : Uuid → Text → Text

variable {ρ δ : Type}

instance (E : Setting ρ δ) (r : ρ) (d : δ) : Decidable (E.upsert.Matches r d) := E.decides r d

/-- The fields that are read for every cloud. -/
def Setting.common (E : Setting ρ δ) : CommonFields δ :=
  ⟨fun d => (E.upsert.key d).1, fun d => (E.upsert.key d).2, E.cost⟩

/-- A batch for the table. -/
abbrev Insertion := List (Replacement (Uuid × TrafficKey) Traffic)

/-- How far the worker is. -/
inductive Phase
  | idle
  | listed (cloudAccountId : Uuid) (tasks : List TrafficProcessingTask)
  | inserting (cloudAccountId : Uuid) (tasks : List TrafficProcessingTask) (chunks : List Insertion)
  | deleting (tasks : List TrafficProcessingTask)
  deriving DecidableEq

/-- The databases, the imports under way, and the worker. -/
structure World (E : Setting ρ δ) where
  raw : Multiset δ
  /-- `imported_raw_dates_map` of each import. -/
  imported : ℕ → Uuid → Option (ℤ × ℤ)
  /-- The cloud account is not deleted. -/
  accounts : Uuid → Bool
  tasks : List TrafficProcessingTask
  table : TrafficExpenses
  phase : Phase

/-- What may happen. -/
inductive Event (ρ δ : Type)
  /-- A chunk, each row with the record that is found for it. -/
  | updateRawRecords (importer : ℕ) (chunk : List (ρ × Option δ))
  | clearRudiments (importer : ℕ) (cloudAccountId : Uuid) (current : δ → Bool)
  | removeRawExpenses (cloudAccountId : Uuid) (periodStart : ℤ)
  | createTask (importer : ℕ) (cloudAccountId id : Uuid)
  | deleteAccount (cloudAccountId : Uuid)
  | list (cloudAccountId : Uuid)
  /-- The raw expenses in the order in which they come. -/
  | read (cursor : List δ)
  | insert
  | insertPart (stored : TrafficKey → Bool)
  | processed
  | deleteTask
  | finish
  | fail
  | merge (k : Uuid × TrafficKey) (v : Traffic)

variable {E : Setting ρ δ}

/-! ## The imports -/

/-- `check_existence`: a task of the same dates. -/
def SameDates (t : TrafficProcessingTask) (cloudAccountId : Uuid) (dates : ℤ × ℤ) : Prop :=
  t.cloudAccountId = cloudAccountId ∧ t.startDate = dates.1 ∧ t.endDate = dates.2

instance (t : TrafficProcessingTask) (cloudAccountId : Uuid) (dates : ℤ × ℤ) :
    Decidable (SameDates t cloudAccountId dates) := inferInstanceAs (Decidable (_ ∧ _ ∧ _))

namespace World

/-- `update_raw_records`, of rows that are dated by their days. -/
def updateRaw [DecidableEq δ] (w : World E) (importer : ℕ) (chunk : List (ρ × Option δ)) : Option (World E) :=
  if ∀ write ∈ chunk, startOfDay (E.upsert.rowKey write.1).2 = (E.upsert.rowKey write.1).2 then
    (bulkWrite E.upsert w.raw chunk).map fun raw => { w with
      raw := raw
      imported := Function.update w.imported importer
        ((chunk.map fun write => E.upsert.rowKey write.1).foldl updateImportedRawInterval (w.imported importer)) }
  else none

/-- `clear_rudiments`, for an account. -/
def clearRudiments (w : World E) (importer : ℕ) (cloudAccountId : Uuid) (current : δ → Bool) : Option (World E) :=
  (w.imported importer cloudAccountId).map fun dates =>
    { w with raw := w.raw.filter fun d => ¬ (E.common.cloudAccountId d = cloudAccountId ∧
        dates.1 ≤ E.common.startDate d ∧ E.common.startDate d ≤ dates.2 ∧ current d = false) }

/-- `remove_raw_expenses_from_period_start` -/
def removeRawExpenses (w : World E) (cloudAccountId : Uuid) (periodStart : ℤ) : World E :=
  { w with raw := w.raw.filter fun d => ¬ (E.common.cloudAccountId d = cloudAccountId ∧
      periodStart ≤ E.common.startDate d) }

/-- `_create_traffic_processing_tasks`, for an account: there is a task on the dates afterwards.  A task is refused to
an account that is deleted, and on dates in the wrong order. -/
def createTask (w : World E) (importer : ℕ) (cloudAccountId id : Uuid) : Option (World E) :=
  (w.imported importer cloudAccountId).bind fun dates =>
    if w.accounts cloudAccountId = true ∧ dates.1 ≤ dates.2 ∧ ∀ t ∈ w.tasks, t.id ≠ id then
      some { w with
        imported := Function.update w.imported importer
          (Function.update (w.imported importer) cloudAccountId none)
        tasks := if ∃ t ∈ w.tasks, SameDates t cloudAccountId dates then w.tasks
          else w.tasks ++ [⟨id, cloudAccountId, dates.1, dates.2⟩] }
    else none

/-! ## The worker -/

/-- `traffic_processing_task_list` -/
def list (w : World E) (cloudAccountId : Uuid) : Option (World E) :=
  if w.phase = .idle ∧ w.accounts cloudAccountId = true then
    let tasks := w.tasks.filter fun t => t.cloudAccountId = cloudAccountId
    some { w with phase := if tasks = [] then .idle else .listed cloudAccountId tasks }
  else none

/-- `process`, as far as it reads: an account that is gone by now is left alone. -/
def read [DecidableEq δ] (w : World E) (cursor : List δ) : Option (World E) :=
  match w.phase with
  | .listed cloudAccountId tasks =>
    if w.accounts cloudAccountId = true then
      if (cursor : Multiset δ) = w.raw then
        match process E.common (E.processor cloudAccountId) (E.region cloudAccountId) cloudAccountId tasks
          cursor w.table with
        | .ok chunks => some { w with phase := .inserting cloudAccountId tasks chunks }
        | .error _ => some { w with phase := .idle }
      else none
    else some { w with phase := .deleting tasks }
  | _ => none

/-- A chunk is inserted. -/
def insert (w : World E) : Option (World E) :=
  match w.phase with
  | .inserting cloudAccountId tasks (chunk :: chunks) =>
    some { w with
      table := w.table + (Replacement.batch chunk : TrafficExpenses)
      phase := .inserting cloudAccountId tasks chunks }
  | _ => none

/-- An insertion fails; the rows of some keys may be stored. -/
def insertPart (w : World E) (stored : TrafficKey → Bool) : Option (World E) :=
  match w.phase with
  | .inserting _ _ (chunk :: _) =>
    some { w with
      table := w.table + (Replacement.batch (chunk.filter fun c => stored c.key.2) : TrafficExpenses)
      phase := .idle }
  | _ => none

/-- All chunks are inserted. -/
def processed (w : World E) : Option (World E) :=
  match w.phase with
  | .inserting _ tasks [] => some { w with phase := .deleting tasks }
  | _ => none

/-- `traffic_processing_task_delete` -/
def deleteTask (w : World E) : Option (World E) :=
  match w.phase with
  | .deleting (t :: tasks) =>
    some { w with tasks := w.tasks.filter fun u => u.id ≠ t.id, phase := .deleting tasks }
  | _ => none

/-- All tasks that were listed are deleted. -/
def finish (w : World E) : Option (World E) :=
  match w.phase with
  | .deleting [] => some { w with phase := .idle }
  | _ => none

/-- Two rows that take each other back are dropped. -/
def merge (w : World E) (k : Uuid × TrafficKey) (v : Traffic) : Option (World E) :=
  if ⟨k, v, 1⟩ ∈ w.table ∧ ⟨k, v, -1⟩ ∈ w.table then
    some { w with table := (w.table.erase ⟨k, v, 1⟩).erase ⟨k, v, -1⟩ }
  else none

/-- What happens. -/
def step [DecidableEq δ] (w : World E) : Event ρ δ → Option (World E)
  | .updateRawRecords importer chunk => w.updateRaw importer chunk
  | .clearRudiments importer cloudAccountId current => w.clearRudiments importer cloudAccountId current
  | .removeRawExpenses cloudAccountId periodStart => some (w.removeRawExpenses cloudAccountId periodStart)
  | .createTask importer cloudAccountId id => w.createTask importer cloudAccountId id
  | .deleteAccount cloudAccountId => some { w with accounts := Function.update w.accounts cloudAccountId false }
  | .list cloudAccountId => w.list cloudAccountId
  | .read cursor => w.read cursor
  | .insert => w.insert
  | .insertPart stored => w.insertPart stored
  | .processed => w.processed
  | .deleteTask => w.deleteTask
  | .finish => w.finish
  | .fail => some { w with phase := .idle }
  | .merge k v => w.merge k v

/-- Nothing is imported yet. -/
def initial (E : Setting ρ δ) (accounts : Uuid → Bool) : World E :=
  ⟨0, fun _ _ => none, accounts, [], 0, .idle⟩

/-- The tasks whose expenses the worker has read. -/
def inHand (w : World E) : List TrafficProcessingTask :=
  match w.phase with
  | .inserting _ tasks _ => tasks
  | .deleting tasks => tasks
  | _ => []

end World

/-- No import is refused a task because of one in hand. -/
def Careful (w : World E) : Event ρ δ → Prop
  | .createTask importer cloudAccountId _ => ∀ dates ∈ w.imported importer cloudAccountId,
      ∀ t ∈ w.inHand, ¬ SameDates t cloudAccountId dates
  | _ => True

instance (w : World E) (e : Event ρ δ) : Decidable (Careful w e) :=
  match e with
  | .createTask importer cloudAccountId _ => inferInstanceAs (Decidable (∀ dates ∈ w.imported importer cloudAccountId,
      ∀ t ∈ w.inHand, ¬ SameDates t cloudAccountId dates))
  | .updateRawRecords .. | .clearRudiments .. | .removeRawExpenses .. | .deleteAccount _ | .list _ | .read _ | .insert
  | .insertPart _ | .processed | .deleteTask | .finish | .fail | .merge .. => isTrue trivial

/-- A step that is careful. -/
def World.carefulStep [DecidableEq δ] (w : World E) (e : Event ρ δ) : Option (World E) :=
  if Careful w e then w.step e else none

/-! ## What is promised -/

namespace World

/-- The raw expenses of a key. -/
def rawOf (w : World E) (a : Uuid) (k : TrafficKey) : Multiset δ :=
  w.raw.filter fun d => E.common.cloudAccountId d = a ∧ (E.processor a).filters d ∧
    keyOf E.common (E.processor a) (E.region a) d = some k

/-- Their cost and usage. -/
def total (w : World E) (a : Uuid) (k : TrafficKey) : Traffic :=
  ((w.rawOf a k).map (trafficOf E.common (E.processor a) (E.region a))).sum

/-- The key has raw expenses, of an account that is not deleted. -/
def Due (w : World E) (a : Uuid) (k : TrafficKey) : Prop := w.accounts a = true ∧ w.rawOf a k ≠ 0

/-- **The table has what the raw expenses come to.** -/
def InLine (w : World E) (a : Uuid) (k : TrafficKey) : Prop := balance w.table (a, k) = (1, w.total a k)

instance [DecidableEq δ] (w : World E) (a : Uuid) (k : TrafficKey) : Decidable (w.Due a k) :=
  inferInstanceAs (Decidable (_ ∧ _))

instance (w : World E) (a : Uuid) (k : TrafficKey) : Decidable (w.InLine a k) := inferInstanceAs (Decidable (_ = _))

/-- **An import that is not through** has written about the day. -/
def Open (w : World E) (a : Uuid) (k : TrafficKey) : Prop :=
  ∃ i, ∃ dates, w.imported i a = some dates ∧ dates.1 ≤ k.date ∧ k.date ≤ dates.2

/-- The task covers the day of the key. -/
def Covers (t : TrafficProcessingTask) (a : Uuid) (k : TrafficKey) : Prop :=
  t.cloudAccountId = a ∧ t.startDate ≤ k.date ∧ k.date ≤ t.endDate

/-- A task that is not among those given covers the day. -/
def Pending (w : World E) (but : List TrafficProcessingTask) (a : Uuid) (k : TrafficKey) : Prop :=
  ∃ t ∈ w.tasks, t ∉ but ∧ Covers t a k

/-- **The key will be seen to**, without the tasks that are given. -/
def Covered (w : World E) (but : List TrafficProcessingTask) (a : Uuid) (k : TrafficKey) : Prop :=
  w.Open a k ∨ w.Pending but a k

/-- What the worker's phase promises. -/
def Promised (w : World E) : Phase → Prop
  | .idle => True
  | .listed a tasks => tasks.Sublist w.tasks ∧ ∀ t ∈ tasks, t.cloudAccountId = a
  | .inserting a tasks chunks => tasks.Sublist w.tasks ∧
      (chunks.flatten.map Replacement.key).Nodup ∧
      (∀ c ∈ chunks.flatten, Found w.table c.key c.old ∧ c.key.1 = a ∧ inWindows tasks c.key.2.date = true) ∧
      (∀ t ∈ tasks, t.cloudAccountId = a) ∧
      ∀ b k, w.Due b k → (∃ c ∈ chunks.flatten, c.key = (b, k) ∧ c.new = w.total b k) ∨
        (w.InLine b k ∧ ∀ c ∈ chunks.flatten, c.key ≠ (b, k)) ∨ w.Covered tasks b k
  | .deleting tasks => tasks.Sublist w.tasks ∧ ∀ b k, w.Due b k → w.InLine b k ∨ w.Covered tasks b k

/-- **The invariant.** -/
structure Inv (w : World E) : Prop where
  single : Single w.table
  ids : (w.tasks.map TrafficProcessingTask.id).Nodup
  dated : ∀ d ∈ w.raw, startOfDay (E.common.startDate d) = E.common.startDate d
  settled : ∀ a k, w.Due a k → w.InLine a k ∨ w.Covered [] a k
  promised : w.Promised w.phase

theorem inv_initial (accounts : Uuid → Bool) : (initial E accounts).Inv where
  single := single_zero
  ids := List.nodup_nil
  dated := fun d hd => absurd hd (Multiset.notMem_zero d)
  settled := fun _ _ hdue => absurd rfl hdue.2
  promised := trivial

variable {w : World E} {a : Uuid} {k : TrafficKey} {but but' : List TrafficProcessingTask}

theorem Covered.mono (h : w.Covered but' a k) (hsub : but ⊆ but') : w.Covered but a k :=
  h.imp_right fun ⟨t, ht, hnot, hcovers⟩ => ⟨t, ht, fun hin => hnot (hsub hin), hcovers⟩

theorem Covered.nil (h : w.Covered but a k) : w.Covered [] a k := h.mono (List.nil_subset _)

/-! ### Where the raw expenses change -/

/-- **A change of the raw expenses** that is remembered by an import, or leaves nothing of the key. -/
theorem Inv.of_raw (h : w.Inv) {raw : Multiset δ} {imported : ℕ → Uuid → Option (ℤ × ℤ)}
    (hdated : ∀ d ∈ raw, startOfDay (E.common.startDate d) = E.common.startDate d)
    (hopen : ∀ a k, w.Open a k → ({ w with raw := raw, imported := imported } : World E).Open a k)
    (hraw : ∀ a k, ({ w with raw := raw, imported := imported } : World E).rawOf a k ≠ 0 →
      ({ w with raw := raw, imported := imported } : World E).Open a k ∨
        ({ w with raw := raw, imported := imported } : World E).rawOf a k = w.rawOf a k) :
    ({ w with raw := raw, imported := imported } : World E).Inv := by
  set w' : World E := { w with raw := raw, imported := imported } with hw'
  have hcovered : ∀ but a k, w.Covered but a k → w'.Covered but a k := fun but a k hcov =>
    hcov.imp (hopen a k) id
  have hsame : ∀ a k, w'.Due a k → w'.Open a k ∨ (w.Due a k ∧ w'.total a k = w.total a k) := by
    intro a k hdue
    rcases hraw a k hdue.2 with hopen | hsame
    · exact Or.inl hopen
    · refine Or.inr ⟨⟨hdue.1, hsame ▸ hdue.2⟩, ?_⟩
      exact congrArg (fun m => (m.map (trafficOf E.common (E.processor a) (E.region a))).sum) hsame
  have hline : ∀ a k, w'.total a k = w.total a k → w.InLine a k → w'.InLine a k := fun a k htotal hline => by
    rw [InLine, htotal]
    exact hline
  refine ⟨h.single, h.ids, hdated, fun a k hdue => ?_, ?_⟩
  · rcases hsame a k hdue with hopen | ⟨hold, htotal⟩
    · exact Or.inr (Or.inl hopen)
    · exact (h.settled a k hold).imp (hline a k htotal) (hcovered [] a k)
  · have hphase := h.promised
    change w'.Promised w.phase
    cases hp : w.phase with
    | idle => trivial
    | listed a tasks =>
      rw [hp] at hphase
      exact hphase
    | inserting a tasks chunks =>
      rw [hp] at hphase
      obtain ⟨hsub, hnodup, hplan, htasks, hpromised⟩ := hphase
      refine ⟨hsub, hnodup, hplan, htasks, fun b k hdue => ?_⟩
      rcases hsame b k hdue with hopen | ⟨hold, htotal⟩
      · exact Or.inr (Or.inr (Or.inl hopen))
      · rcases hpromised b k hold with hin | ⟨hin, hnot⟩ | hcov
        · exact Or.inl (htotal ▸ hin)
        · exact Or.inr (Or.inl ⟨hline b k htotal hin, hnot⟩)
        · exact Or.inr (Or.inr (hcovered tasks b k hcov))
    | deleting tasks =>
      rw [hp] at hphase
      refine ⟨hphase.1, fun b k hdue => ?_⟩
      rcases hsame b k hdue with hopen | ⟨hold, htotal⟩
      · exact Or.inr (Or.inl hopen)
      · exact (hphase.2 b k hold).imp (hline b k htotal) (hcovered tasks b k)

theorem mem_rawOf {d : δ} : d ∈ w.rawOf a k ↔ d ∈ w.raw ∧ E.common.cloudAccountId d = a ∧
    (E.processor a).filters d = true ∧ keyOf E.common (E.processor a) (E.region a) d = some k := Multiset.mem_filter

theorem startDate_of_mem_rawOf (hdated : ∀ d ∈ w.raw, startOfDay (E.common.startDate d) = E.common.startDate d)
    {d : δ} (hd : d ∈ w.rawOf a k) : E.common.cloudAccountId d = a ∧ E.common.startDate d = k.date := by
  obtain ⟨hin, hid, -, hkey⟩ := mem_rawOf.mp hd
  exact ⟨hid, ((date_of_keyOf hkey).trans (hdated d hin)).symm⟩

/-- **Writing raw expenses.** -/
theorem Inv.updateRaw [DecidableEq δ] {w' : World E} (h : w.Inv) {i : ℕ} {chunk : List (ρ × Option δ)}
    (hstep : w.updateRaw i chunk = some w') : w'.Inv := by
  unfold World.updateRaw at hstep
  obtain ⟨hchunk, hstep⟩ := Option.ite_none_right_eq_some.mp hstep
  obtain ⟨raw, hraw, rfl⟩ := Option.map_eq_some_iff.mp hstep
  have hwrites := bulkWrite_sound hraw
  have hrow : ∀ r ∈ chunk.map Prod.fst, startOfDay (E.upsert.rowKey r).2 = (E.upsert.rowKey r).2 := by
    intro r hr
    obtain ⟨write, hwrite, rfl⟩ := List.mem_map.mp hr
    exact hchunk write hwrite
  refine h.of_raw (fun d hd => ?_) (fun a k hopen => ?_) fun a k _ => ?_
  · rcases hwrites.key_mem hd with ⟨e, he, hkey⟩ | ⟨r, hr, hkey⟩
    · have hdate : E.common.startDate e = E.common.startDate d := congrArg Prod.snd hkey
      exact hdate ▸ h.dated e he
    · have hdate : (E.upsert.rowKey r).2 = E.common.startDate d := congrArg Prod.snd hkey
      exact hdate ▸ hrow r hr
  · obtain ⟨j, d, hd, hlow, hhigh⟩ := hopen
    by_cases hj : j = i
    · subst hj
      obtain ⟨d', hd', hl, hh⟩ := (exists_interval _ (w.imported j)).1 a d hd
      exact ⟨j, d', (congrFun (Function.update_self ..) a).trans hd', hl.trans hlow, hhigh.trans hh⟩
    · exact ⟨j, d, (congrFun (Function.update_of_ne hj _ _) a).trans hd, hlow, hhigh⟩
  · by_cases hwritten : ∃ r ∈ chunk.map Prod.fst, E.upsert.rowKey r = (a, k.date)
    · obtain ⟨r, hr, hkey⟩ := hwritten
      obtain ⟨write, hwrite, rfl⟩ := List.mem_map.mp hr
      obtain ⟨d', hd', hl, hh⟩ := (exists_interval _ (w.imported i)).2 _
        (List.mem_map_of_mem (f := fun write => E.upsert.rowKey write.1) hwrite)
      rw [hkey] at hd' hl hh
      exact Or.inl ⟨i, d', (congrFun (Function.update_self ..) _).trans hd', hl, hh⟩
    · refine Or.inr (hwrites.filter_eq fun r hr d hkey => ?_)
      rintro ⟨hid, -, hkeyd⟩
      have hdate : E.common.startDate d = (E.upsert.rowKey r).2 := congrArg Prod.snd hkey
      refine hwritten ⟨r, hr, Prod.ext ?_ ?_⟩
      · exact (congrArg Prod.fst hkey).symm.trans hid
      · rw [date_of_keyOf hkeyd, hdate]
        exact (hrow r hr).symm

/-- Raw expenses of a key that are not deleted. -/
theorem rawOf_filter {p : δ → Prop} [DecidablePred p] (hp : ∀ d ∈ w.rawOf a k, p d) :
    ({ w with raw := w.raw.filter p } : World E).rawOf a k = w.rawOf a k := by
  refine (Multiset.filter_filter _ _ _).trans (Multiset.filter_congr fun d hd => ?_)
  exact ⟨And.left, fun hkey => ⟨hkey, hp d (mem_rawOf.mpr ⟨hd, hkey⟩)⟩⟩

/-- **Deleting what an import has not found again.** -/
theorem Inv.clearRudiments {w' : World E} (h : w.Inv) {i : ℕ} {a : Uuid} {current : δ → Bool}
    (hstep : w.clearRudiments i a current = some w') : w'.Inv := by
  obtain ⟨dates, hdates, rfl⟩ := Option.map_eq_some_iff.mp hstep
  refine Inv.of_raw h (fun d hd => h.dated d (Multiset.mem_filter.mp hd).1) (fun b k hopen => hopen) fun b k _ => ?_
  by_cases hin : b = a ∧ dates.1 ≤ k.date ∧ k.date ≤ dates.2
  · obtain ⟨rfl, hlow, hhigh⟩ := hin
    exact Or.inl ⟨i, dates, hdates, hlow, hhigh⟩
  · refine Or.inr (rawOf_filter fun d hd => ?_)
    obtain ⟨hid, hdate⟩ := startDate_of_mem_rawOf h.dated hd
    rw [hid, hdate]
    rintro ⟨rfl, hlow, hhigh, -⟩
    exact hin ⟨rfl, hlow, hhigh⟩

/-- **Deleting what is to be imported again.** -/
theorem Inv.removeRawExpenses (h : w.Inv) (a : Uuid) (periodStart : ℤ) : (w.removeRawExpenses a periodStart).Inv := by
  refine Inv.of_raw h (fun d hd => h.dated d (Multiset.mem_filter.mp hd).1) (fun b k hopen => hopen)
    fun b k hsome => Or.inr (rawOf_filter fun d hd => ?_)
  obtain ⟨hid, hdate⟩ := startDate_of_mem_rawOf h.dated hd
  obtain ⟨s, hs⟩ := Multiset.exists_mem_of_ne_zero hsome
  obtain ⟨hin, hkey⟩ := mem_rawOf.mp hs
  obtain ⟨hraw, hkept⟩ := Multiset.mem_filter.mp hin
  obtain ⟨hids, hdates⟩ := startDate_of_mem_rawOf (w := w) h.dated (mem_rawOf.mpr ⟨hraw, hkey⟩)
  rw [hids, hdates] at hkept
  rwa [hid, hdate]

/-! ### Where tasks are created -/

theorem mem_inHand_of_promised (h : w.Promised w.phase) : w.inHand ⊆ w.tasks := by
  unfold inHand
  cases hp : w.phase with
  | idle => exact List.nil_subset _
  | listed a tasks => exact List.nil_subset _
  | inserting a tasks chunks =>
    rw [hp] at h
    exact h.1.subset
  | deleting tasks =>
    rw [hp] at h
    exact h.1.subset

/-- **More tasks, and fewer imports**, where what was covered still is. -/
theorem Inv.of_tasks (h : w.Inv) {imported : ℕ → Uuid → Option (ℤ × ℤ)} {tasks : List TrafficProcessingTask}
    (hsub : w.tasks.Sublist tasks) (hids : (tasks.map TrafficProcessingTask.id).Nodup)
    (hcovered : ∀ but, but = [] ∨ but = w.inHand → ∀ a k, w.Covered but a k →
      ({ w with imported := imported, tasks := tasks } : World E).Covered but a k) :
    ({ w with imported := imported, tasks := tasks } : World E).Inv := by
  refine ⟨h.single, hids, h.dated, fun a k hdue => (h.settled a k hdue).imp id (hcovered [] (Or.inl rfl) a k), ?_⟩
  have hphase := h.promised
  change Promised _ w.phase
  unfold inHand at hcovered
  cases hp : w.phase with
  | idle => trivial
  | listed a listed =>
    rw [hp] at hphase
    exact ⟨hphase.1.trans hsub, hphase.2⟩
  | inserting a listed chunks =>
    rw [hp] at hphase hcovered
    obtain ⟨hin, hnodup, hplan, htasks, hpromised⟩ := hphase
    exact ⟨hin.trans hsub, hnodup, hplan, htasks, fun b k hdue =>
      (hpromised b k hdue).imp id (Or.imp id (hcovered listed (Or.inr rfl) b k))⟩
  | deleting listed =>
    rw [hp] at hphase hcovered
    exact ⟨hphase.1.trans hsub, fun b k hdue =>
      (hphase.2 b k hdue).imp id (hcovered listed (Or.inr rfl) b k)⟩

/-- **Asking for a task**, where none in hand has the dates. -/
theorem Inv.createTask {w' : World E} (h : w.Inv) {i : ℕ} {a id : Uuid} (hcareful : Careful w (.createTask i a id))
    (hstep : w.createTask i a id = some w') : w'.Inv := by
  obtain ⟨dates, hdates, hstep⟩ := Option.bind_eq_some_iff.mp hstep
  split at hstep
  case isFalse => cases hstep
  rename_i hok
  obtain ⟨-, -, hnew⟩ := hok
  obtain rfl := Option.some.inj hstep
  set tasks := if ∃ t ∈ w.tasks, SameDates t a dates then w.tasks else w.tasks ++ [⟨id, a, dates.1, dates.2⟩]
    with htasks
  have hsub : w.tasks.Sublist tasks := by
    rw [htasks]
    split
    · exact List.Sublist.refl _
    · exact List.sublist_append_left _ _
  have hids : (tasks.map TrafficProcessingTask.id).Nodup := by
    rw [htasks]
    split
    · exact h.ids
    · rw [List.map_append, List.map_singleton, List.nodup_append]
      refine ⟨h.ids, List.nodup_singleton _, fun x hx y hy => ?_⟩
      obtain ⟨t, ht, rfl⟩ := List.mem_map.mp hx
      rw [List.mem_singleton.mp hy]
      exact hnew t ht
  have hcreated : ∀ but, but = [] ∨ but = w.inHand → ∃ t ∈ tasks, t ∉ but ∧ SameDates t a dates := by
    intro but hbut
    have hnot : ∀ t ∈ w.tasks, SameDates t a dates → t ∉ but := by
      intro t _ hsame hin
      rcases hbut with rfl | rfl
      · exact List.not_mem_nil hin
      · exact hcareful dates hdates t hin hsame
    rw [htasks]
    split
    · rename_i hsome
      obtain ⟨t, ht, hsame⟩ := hsome
      exact ⟨t, ht, hnot t ht hsame, hsame⟩
    · refine ⟨⟨id, a, dates.1, dates.2⟩, List.mem_append_right _ (List.mem_singleton_self _), fun hin => ?_,
        rfl, rfl, rfl⟩
      rcases hbut with rfl | rfl
      · exact List.not_mem_nil hin
      · exact hnew _ (mem_inHand_of_promised h.promised hin) rfl
  refine h.of_tasks hsub hids fun but hbut b k hcov => ?_
  rcases hcov with ⟨j, d, hd, hlow, hhigh⟩ | ⟨t, ht, hnot, hcovers⟩
  · by_cases hja : j = i ∧ b = a
    · obtain ⟨rfl, rfl⟩ := hja
      obtain rfl := Option.some.inj (hdates.symm.trans hd)
      obtain ⟨t, ht, hnot, hid, hstart, hend⟩ := hcreated but hbut
      exact Or.inr ⟨t, ht, hnot, hid, hstart.trans_le hlow, hhigh.trans_eq hend.symm⟩
    · refine Or.inl ⟨j, d, ?_, hlow, hhigh⟩
      by_cases hj : j = i
      · subst hj
        have hb : b ≠ a := fun hb => hja ⟨rfl, hb⟩
        exact ((congrFun (Function.update_self ..) b).trans (Function.update_of_ne hb _ _)).trans hd
      · exact (congrFun (Function.update_of_ne hj _ _) b).trans hd
  · exact Or.inr ⟨t, hsub.subset ht, hnot, hcovers⟩

/-- **Deleting an account.** -/
theorem Inv.deleteAccount (h : w.Inv) (a : Uuid) :
    ({ w with accounts := Function.update w.accounts a false } : World E).Inv := by
  have hdue : ∀ b k, ({ w with accounts := Function.update w.accounts a false } : World E).Due b k → w.Due b k := by
    rintro b k ⟨hlive, hraw⟩
    refine ⟨?_, hraw⟩
    by_cases hb : b = a
    · subst hb
      have hgone : Function.update w.accounts b false b = true := hlive
      rw [Function.update_self] at hgone
      cases hgone
    · exact (Function.update_of_ne hb _ _).symm.trans hlive
  refine ⟨h.single, h.ids, h.dated, fun b k hd => h.settled b k (hdue b k hd), ?_⟩
  have hphase := h.promised
  change Promised _ w.phase
  cases hp : w.phase with
  | idle => trivial
  | listed a tasks =>
    rw [hp] at hphase
    exact hphase
  | inserting a tasks chunks =>
    rw [hp] at hphase
    obtain ⟨hin, hnodup, hplan, htasks, hpromised⟩ := hphase
    exact ⟨hin, hnodup, hplan, htasks, fun b k hd => hpromised b k (hdue b k hd)⟩
  | deleting tasks =>
    rw [hp] at hphase
    exact ⟨hphase.1, fun b k hd => hphase.2 b k (hdue b k hd)⟩

/-! ### Where the worker goes on -/

/-- Tasks of other days or accounts cover a key without those given. -/
theorem Covered.of_tasks {tasks : List TrafficProcessingTask} (hcov : w.Covered [] a k)
    (hnot : ∀ t ∈ tasks, ¬ Covers t a k) : w.Covered tasks a k :=
  hcov.imp_right fun ⟨t, ht, _, hcovers⟩ => ⟨t, ht, fun hin => hnot t hin hcovers, hcovers⟩

theorem Inv.of_phase (h : w.Inv) {phase : Phase} (hphase : w.Promised phase) :
    ({ w with phase := phase } : World E).Inv :=
  ⟨h.single, h.ids, h.dated, h.settled, by cases phase <;> exact hphase⟩

theorem Inv.list {w' : World E} (h : w.Inv) (hstep : w.list a = some w') : w'.Inv := by
  unfold World.list at hstep
  split at hstep
  case isFalse => cases hstep
  obtain rfl := Option.some.inj hstep
  refine h.of_phase ?_
  split
  · trivial
  · exact ⟨List.filter_sublist, fun t ht => of_decide_eq_true (List.mem_filter.mp ht).2⟩

/-- **Reading.** -/
theorem Inv.read [DecidableEq δ] {w' : World E} (h : w.Inv) {cursor : List δ} (hstep : w.read cursor = some w') :
    w'.Inv := by
  unfold World.read at hstep
  have hphase := h.promised
  split at hstep
  case h_2 => cases hstep
  rename_i a tasks hlisted
  rw [hlisted] at hphase
  obtain ⟨hsub, htasks⟩ := hphase
  have hother : ∀ b k, b ≠ a → ∀ t ∈ tasks, ¬ Covers t b k := fun b k hb t ht hcovers =>
    hb (hcovers.1.symm.trans (htasks t ht))
  split at hstep
  · obtain ⟨hcursor, hstep⟩ := Option.ite_none_right_eq_some.mp hstep
    have hraw : ∀ b k, w.rawOf b k =
        (Trapper.rawOf E.common (E.processor b) (E.region b) b cursor k : Multiset δ) := by
      intro b k
      rw [World.rawOf, ← hcursor]
      exact Multiset.filter_coe _ _
    have htotal : ∀ b k, w.total b k = Trapper.total E.common (E.processor b) (E.region b) b cursor k := by
      intro b k
      rw [World.total, hraw]
      rfl
    have hdated : Dated E.common cursor := fun d hd => h.dated d (hcursor ▸ Multiset.mem_coe.mpr hd)
    split at hstep
    · rename_i chunks hchunks
      obtain rfl := Option.some.inj hstep
      have hplan := planned_of_process h.single hdated hchunks
      refine h.of_phase ⟨hsub, hplan.nodup, fun c hc => ⟨hplan.found c hc, hplan.inWindows c hc⟩, htasks,
        fun b k hdue => ?_⟩
      by_cases hin : ∃ c ∈ chunks.flatten, c.key = (b, k)
      · obtain ⟨c, hc, hkey⟩ := hin
        refine Or.inl ⟨c, hc, hkey, ?_⟩
        have hb : b = a := (congrArg Prod.fst hkey).symm.trans (hplan.inWindows c hc).1
        have hk : c.key.2 = k := congrArg Prod.snd hkey
        subst hb hk
        exact (hplan.new c hc).trans (htotal _ _).symm
      · have hnot : ∀ c ∈ chunks.flatten, c.key ≠ (b, k) := fun c hc hkey => hin ⟨c, hc, hkey⟩
        refine Or.inr ?_
        by_cases hb : b = a
        · subst hb
          by_cases hwin : inWindows tasks k.date = true
          · have hsome : Trapper.rawOf E.common (E.processor b) (E.region b) b cursor k ≠ [] := fun hnone =>
              hdue.2 ((hraw b k).trans (congrArg _ hnone))
            rcases hplan.settles k hwin hsome with hline | hplanned
            · refine Or.inl ⟨?_, hnot⟩
              rw [← htotal] at hline
              exact hline
            · exact absurd hplanned hin
          · refine (h.settled b k hdue).imp (fun hline => ⟨hline, hnot⟩) fun hcov => hcov.of_tasks fun t ht hcovers => ?_
            exact hwin (List.any_eq_true.mpr ⟨t, ht, decide_eq_true hcovers.2⟩)
        · exact (h.settled b k hdue).imp (fun hline => ⟨hline, hnot⟩) fun hcov => hcov.of_tasks (hother b k hb)
    · obtain rfl := Option.some.inj hstep
      exact h.of_phase trivial
  · rename_i hgone
    obtain rfl := Option.some.inj hstep
    refine h.of_phase ⟨hsub, fun b k hdue => ?_⟩
    have hb : b ≠ a := fun hb => hgone (hb ▸ hdue.1)
    exact (h.settled b k hdue).imp id fun hcov => hcov.of_tasks (hother b k hb)

/-- **Inserting** what is planned for some keys, while the rest is planned still. -/
theorem Inv.of_insertion (h : w.Inv) {a : Uuid} {tasks : List TrafficProcessingTask} {chunks : List Insertion}
    (hp : w.phase = .inserting a tasks chunks) {stored : Insertion} (hstored : stored.Sublist chunks.flatten)
    {phase : Phase}
    (hphase : ({ w with table := w.table + (Replacement.batch stored : TrafficExpenses) } : World E).Promised phase) :
    ({ w with table := w.table + (Replacement.batch stored : TrafficExpenses), phase := phase } : World E).Inv := by
  have hpromised := h.promised
  rw [hp] at hpromised
  obtain ⟨hsub, hnodup, hplan, htasks, hpromised⟩ := hpromised
  have hkeys : (stored.map Replacement.key).Nodup := hnodup.sublist (hstored.map _)
  have hfound : ∀ c ∈ stored, Found w.table c.key c.old := fun c hc => (hplan c (hstored.subset hc)).1
  refine ⟨h.single.batch hkeys hfound, h.ids, h.dated, fun b k hdue => ?_, by cases phase <;> exact hphase⟩
  by_cases hin : ∃ c ∈ stored, c.key = (b, k)
  · obtain ⟨c, hc, hkey⟩ := hin
    rcases hpromised b k hdue with ⟨c', hc', hkey', hnew⟩ | ⟨-, hnot⟩ | hcov
    · obtain rfl : c = c' := List.inj_on_of_nodup_map hnodup (hstored.subset hc) hc' (hkey.trans hkey'.symm)
      refine Or.inl ?_
      change balance _ (b, k) = (1, w.total b k)
      rw [← hkey, ← hnew]
      exact balance_replaced hkeys hfound hc
    · exact absurd hkey (hnot c (hstored.subset hc))
    · exact Or.inr hcov.nil
  · refine (h.settled b k hdue).imp (fun hline => ?_) id
    exact (balance_of_not_replaced fun c hc hkey => hin ⟨c, hc, hkey⟩).trans hline

theorem Inv.insert {w' : World E} (h : w.Inv) (hstep : w.insert = some w') : w'.Inv := by
  unfold World.insert at hstep
  split at hstep
  case h_2 => cases hstep
  rename_i a tasks chunk chunks hp
  obtain rfl := Option.some.inj hstep
  have hpromised := h.promised
  rw [hp] at hpromised
  obtain ⟨hsub, hnodup, hplan, htasks, hpromised⟩ := hpromised
  rw [List.flatten_cons] at hnodup hplan hpromised
  have hchunk : chunk.Sublist (chunk :: chunks).flatten := List.sublist_append_left _ _
  have hkeys : (chunk.map Replacement.key).Nodup := hnodup.sublist ((List.sublist_append_left _ _).map _)
  have hfound : ∀ c ∈ chunk, Found w.table c.key c.old := fun c hc => (hplan c (List.mem_append_left _ hc)).1
  have happart : ∀ c ∈ chunks.flatten, ∀ d ∈ chunk, d.key ≠ c.key := by
    intro c hc d hd
    rw [List.map_append, List.nodup_append] at hnodup
    exact hnodup.2.2 _ (List.mem_map_of_mem hd) _ (List.mem_map_of_mem hc)
  refine h.of_insertion hp hchunk ⟨hsub, hnodup.sublist ((List.sublist_append_right _ _).map _), fun c hc => ?_, htasks,
    fun b k hdue => ?_⟩
  · obtain ⟨hf, hwin⟩ := hplan c (List.mem_append_right _ hc)
    exact ⟨hf.of_not_replaced (happart c hc), hwin⟩
  · rcases hpromised b k hdue with ⟨c, hc, hkey, hnew⟩ | ⟨hline, hnot⟩ | hcov
    · rcases List.mem_append.mp hc with hc | hc
      · refine Or.inr (Or.inl ⟨?_, fun d hd hkeyd => happart d hd c hc (hkey.trans hkeyd.symm)⟩)
        change balance _ (b, k) = (1, w.total b k)
        rw [← hkey, ← hnew]
        exact balance_replaced hkeys hfound hc
      · exact Or.inl ⟨c, hc, hkey, hnew⟩
    · refine Or.inr (Or.inl ⟨?_, fun d hd => hnot d (List.mem_append_right _ hd)⟩)
      exact (balance_of_not_replaced fun c hc => hnot c (List.mem_append_left _ hc)).trans hline
    · exact Or.inr (Or.inr hcov)

theorem Inv.insertPart {w' : World E} (h : w.Inv) {stored : TrafficKey → Bool}
    (hstep : w.insertPart stored = some w') : w'.Inv := by
  unfold World.insertPart at hstep
  split at hstep
  case h_2 => cases hstep
  rename_i a tasks chunk chunks hp
  obtain rfl := Option.some.inj hstep
  exact h.of_insertion hp (List.filter_sublist.trans (List.sublist_append_left _ _)) trivial

theorem Inv.processed {w' : World E} (h : w.Inv) (hstep : w.processed = some w') : w'.Inv := by
  unfold World.processed at hstep
  split at hstep
  case h_2 => cases hstep
  rename_i a tasks hp
  obtain rfl := Option.some.inj hstep
  have hpromised := h.promised
  rw [hp] at hpromised
  obtain ⟨hsub, -, -, -, hpromised⟩ := hpromised
  refine h.of_phase ⟨hsub, fun b k hdue => ?_⟩
  rcases hpromised b k hdue with ⟨c, hc, -⟩ | ⟨hline, -⟩ | hcov
  · exact absurd hc List.not_mem_nil
  · exact Or.inl hline
  · exact Or.inr hcov

/-- **Deleting a task** that was seen to. -/
theorem Inv.deleteTask {w' : World E} (h : w.Inv) (hstep : w.deleteTask = some w') : w'.Inv := by
  unfold World.deleteTask at hstep
  split at hstep
  case h_2 => cases hstep
  rename_i t tasks hp
  obtain rfl := Option.some.inj hstep
  have hpromised := h.promised
  rw [hp] at hpromised
  obtain ⟨hsub, hpromised⟩ := hpromised
  have hids : ((t :: tasks).map TrafficProcessingTask.id).Nodup := h.ids.sublist (hsub.map _)
  have hcovered : ∀ b k, w.Covered (t :: tasks) b k →
      ({ w with tasks := w.tasks.filter fun u => u.id ≠ t.id, phase := .deleting tasks } : World E).Covered tasks b k := by
    refine fun b k hcov => hcov.imp id fun ⟨u, hu, hnot, hcovers⟩ => ?_
    refine ⟨u, List.mem_filter.mpr ⟨hu, decide_eq_true fun hid => hnot ?_⟩, fun hin => hnot (List.mem_cons_of_mem _ hin),
      hcovers⟩
    rw [List.inj_on_of_nodup_map h.ids hu (hsub.subset List.mem_cons_self) hid]
    exact List.mem_cons_self
  have hrest : tasks.filter (fun u => u.id ≠ t.id) = tasks := by
    refine List.filter_eq_self.mpr fun u hu => decide_eq_true fun hid => ?_
    exact (List.nodup_cons.mp hids).1 (hid ▸ List.mem_map_of_mem hu)
  refine ⟨h.single, h.ids.sublist (List.filter_sublist.map _), h.dated, fun b k hdue => ?_, ?_, fun b k hdue => ?_⟩
  · exact (hpromised b k hdue).imp id fun hcov => (hcovered b k hcov).nil
  · have hsublist := (List.sublist_of_cons_sublist hsub).filter fun u => u.id ≠ t.id
    rwa [hrest] at hsublist
  · exact (hpromised b k hdue).imp id (hcovered b k)

theorem Inv.finish {w' : World E} (h : w.Inv) (hstep : w.finish = some w') : w'.Inv := by
  unfold World.finish at hstep
  split at hstep
  case h_2 => cases hstep
  obtain rfl := Option.some.inj hstep
  exact h.of_phase trivial

/-- **Merging rows.** -/
theorem Inv.merge {w' : World E} (h : w.Inv) {k : Uuid × TrafficKey} {v : Traffic} (hstep : w.merge k v = some w') :
    w'.Inv := by
  unfold World.merge at hstep
  split at hstep
  case isFalse => cases hstep
  rename_i hin
  obtain ⟨hplus, hminus⟩ := hin
  obtain rfl := Option.some.inj hstep
  have hne : (⟨k, v, -1⟩ : Row (Uuid × TrafficKey) Traffic) ≠ ⟨k, v, 1⟩ := by
    intro heq
    have hsign : (-1 : ℤ) = 1 := congrArg Row.sign heq
    omega
  have hcollapse : Collapse w.table ((w.table.erase ⟨k, v, 1⟩).erase ⟨k, v, -1⟩) := by
    have hpair := Collapse.pair ((w.table.erase ⟨k, v, 1⟩).erase ⟨k, v, -1⟩) k v
    rwa [Multiset.cons_erase ((Multiset.mem_erase_of_ne hne).mpr hminus), Multiset.cons_erase hplus] at hpair
  have hline : ∀ b l, w.InLine b l →
      ({ w with table := (w.table.erase ⟨k, v, 1⟩).erase ⟨k, v, -1⟩ } : World E).InLine b l :=
    fun b l hline => (balance_collapse hcollapse).trans hline
  refine ⟨h.single.collapse hcollapse, h.ids, h.dated, fun b l hdue => (h.settled b l hdue).imp (hline b l) id, ?_⟩
  have hphase := h.promised
  change Promised _ w.phase
  cases hp : w.phase with
  | idle => trivial
  | listed a tasks =>
    rw [hp] at hphase
    exact hphase
  | inserting a tasks chunks =>
    rw [hp] at hphase
    obtain ⟨hsub, hnodup, hplan, htasks, hpromised⟩ := hphase
    exact ⟨hsub, hnodup, fun c hc => (hplan c hc).imp (fun hf => hf.collapse hcollapse) id, htasks, fun b l hdue =>
      (hpromised b l hdue).imp id (Or.imp (And.imp (hline b l) id) id)⟩
  | deleting tasks =>
    rw [hp] at hphase
    exact ⟨hphase.1, fun b l hdue => (hphase.2 b l hdue).imp (hline b l) id⟩

/-- **Every careful step keeps the invariant.** -/
theorem Inv.step [DecidableEq δ] {w w' : World E} {e : Event ρ δ} (h : w.Inv) (hstep : w.step e = some w')
    (hcareful : Careful w e) : w'.Inv := by
  cases e with
  | updateRawRecords i chunk => exact h.updateRaw hstep
  | clearRudiments i a current => exact h.clearRudiments hstep
  | removeRawExpenses a periodStart => exact Option.some.inj hstep ▸ h.removeRawExpenses a periodStart
  | createTask i a id => exact h.createTask hcareful hstep
  | deleteAccount a => exact Option.some.inj hstep ▸ h.deleteAccount a
  | list a => exact h.list hstep
  | read cursor => exact h.read hstep
  | insert => exact h.insert hstep
  | insertPart stored => exact h.insertPart hstep
  | processed => exact h.processed hstep
  | deleteTask => exact h.deleteTask hstep
  | finish => exact h.finish hstep
  | fail =>
    obtain rfl := Option.some.inj hstep
    exact h.of_phase trivial
  | merge k v => exact h.merge hstep

/-- **Every world of a careful run has the invariant.** -/
theorem inv_of_run [DecidableEq δ] {es : List (Event ρ δ)} {w w' : World E} (h : w.Inv)
    (hrun : run World.carefulStep w es = some w') : w'.Inv := by
  refine run_keeps (fun e _ v v' hstep hv => ?_) h hrun
  obtain ⟨hcareful, hstep⟩ := Option.ite_none_right_eq_some.mp hstep
  exact hv.step hstep hcareful

end World

/-- Accounts of AWS, whose usages are read as digits. -/
def awsSetting : Setting ExpenseDocument ExpenseDocument where
  upsert := AwsReportImporter.reportFields.upsert
  decides := inferInstance
  cost d := ExpenseDocument.amountOf (d.lookup "cost")
  processor _ := aws fun s => if Text.isDigit s then some (Text.toNat s) else none
  region _ := id

/-- A traffic expense of a day, with a cost. -/
def trafficExpense (cost : ℚ) : ExpenseDocument :=
  [("cloud_account_id", .id 7), ("start_date", .date 86400), ("resource_id", .text "i-1".toList),
    ("product/servicecode", .text "AWSDataTransfer".toList), ("pricing/term", .text "OnDemand".toList),
    ("lineItem/UsageAmount", .number 2), ("report_identity", .number cost), ("_rec_n", .number 1),
    ("cost", .number cost)].foldl (fun d field => Dict.set d field.1 field.2) ∅

/-- Its key. -/
def trafficKey : TrafficKey := ⟨"i-1".toList, 86400, "Unknown".toList, "Unknown".toList⟩

/-- A day is imported, and imported again with another cost while the worker is at it. -/
def importedAgain : List (Event ExpenseDocument ExpenseDocument) :=
  [.updateRawRecords 0 [(trafficExpense 5, none)], .createTask 0 7 1, .list 7, .read [trafficExpense 5],
    .updateRawRecords 1 [(trafficExpense 6, some (trafficExpense 5))]]

/-- The worker goes on. -/
def callEnds : List (Event ExpenseDocument ExpenseDocument) := [.insert, .processed, .deleteTask, .finish]

/-- **A change whose task is refused because of one in hand is lost**: the worker has read the expenses by then, and
deletes the task. -/
theorem refused_change_is_lost : ∃ w : World awsSetting,
    run World.step (World.initial awsSetting fun _ => true) (importedAgain ++ [.createTask 1 7 2] ++ callEnds) = some w ∧
      w.phase = .idle ∧ w.tasks = [] ∧ w.imported 0 7 = none ∧ w.imported 1 7 = none ∧ w.Due 7 trafficKey ∧
      ¬ w.InLine 7 trafficKey := by
  have hrun : (run World.step (World.initial awsSetting fun _ => true)
      (importedAgain ++ [.createTask 1 7 2] ++ callEnds)).any fun w => w.phase = .idle ∧ w.tasks = [] ∧
        w.imported 0 7 = none ∧ w.imported 1 7 = none ∧ w.Due 7 trafficKey ∧ ¬ w.InLine 7 trafficKey := by
    decide +kernel
  obtain ⟨w, hw, hlost⟩ := (Option.any_eq_true _ _).mp hrun
  exact ⟨w, hw, of_decide_eq_true hlost⟩

/-! ## A call that is not disturbed -/

namespace World

variable [DecidableEq δ] {w : World E} {a : Uuid}

theorem carefulStep_of (w : World E) (e : Event ρ δ) (h : Careful w e) : carefulStep w e = w.step e := if_pos h

/-- Runs one after the other. -/
theorem exists_run_trans {v w : World E} {p : World E → Prop} {es : List (Event ρ δ)}
    (h : run carefulStep v es = some w) (h' : ∃ es', ∃ u, run carefulStep w es' = some u ∧ p u) :
    ∃ es', ∃ u, run carefulStep v es' = some u ∧ p u := by
  obtain ⟨es', u, hrun, hu⟩ := h'
  exact ⟨es ++ es', u, by rw [run_append, h, Option.bind_some, hrun], hu⟩

theorem run_one {w w' : World E} {e : Event ρ δ} (h : carefulStep w e = some w') : run carefulStep w [e] = some w' := by
  rw [run_cons, h, Option.bind_some, run_nil]

theorem run_inserts {tasks : List TrafficProcessingTask} : ∀ (chunks : List Insertion) (w : World E),
    w.phase = .inserting a tasks chunks → ∃ table, run carefulStep w (List.replicate chunks.length .insert) =
      some { w with table := table, phase := .inserting a tasks [] }
  | [], w, hp => ⟨w.table, by rw [← hp]; rfl⟩
  | chunk :: chunks, w, hp => by
    have hstep : carefulStep w .insert = some { w with
        table := w.table + (Replacement.batch chunk : TrafficExpenses)
        phase := .inserting a tasks chunks } := by
      rw [carefulStep_of w .insert trivial, step, World.insert, hp]
    obtain ⟨table, hrun⟩ := run_inserts chunks { w with
      table := w.table + (Replacement.batch chunk : TrafficExpenses)
      phase := .inserting a tasks chunks } rfl
    refine ⟨table, ?_⟩
    rw [List.length_cons, List.replicate_succ, run_cons, hstep, Option.bind_some]
    exact hrun

theorem run_deletes : ∀ (tasks : List TrafficProcessingTask) (w : World E), w.phase = .deleting tasks →
    run carefulStep w (List.replicate tasks.length .deleteTask) = some { w with
      tasks := w.tasks.filter fun u => ∀ t ∈ tasks, u.id ≠ t.id
      phase := .deleting [] }
  | [], w, hp => by
    have hall : w.tasks.filter (fun u => ∀ t ∈ ([] : List TrafficProcessingTask), u.id ≠ t.id) = w.tasks :=
      List.filter_eq_self.mpr fun u _ => by simp
    rw [hall, ← hp]
    rfl
  | t :: tasks, w, hp => by
    have hstep : carefulStep w .deleteTask = some { w with
        tasks := w.tasks.filter fun u => u.id ≠ t.id
        phase := .deleting tasks } := by
      rw [carefulStep_of w .deleteTask trivial, step, World.deleteTask, hp]
    have hfilter : (w.tasks.filter fun u => u.id ≠ t.id).filter (fun u => ∀ s ∈ tasks, u.id ≠ s.id) =
        w.tasks.filter fun u => ∀ s ∈ t :: tasks, u.id ≠ s.id := by
      rw [List.filter_filter]
      refine List.filter_congr fun u _ => ?_
      rw [Bool.eq_iff_iff]
      simp [and_comm]
    rw [List.length_cons, List.replicate_succ, run_cons, hstep, Option.bind_some, run_deletes tasks _ rfl, hfilter]

/-- **A call goes through**: nothing but the table changes, and the tasks of the account are gone. -/
theorem exists_call (hids : (w.tasks.map TrafficProcessingTask.id).Nodup) (hidle : w.phase = .idle)
    (hlive : w.accounts a = true) {cursor : List δ} (hcursor : (cursor : Multiset δ) = w.raw) {chunks : List Insertion}
    (hprocess : process E.common (E.processor a) (E.region a) a (w.tasks.filter fun t => t.cloudAccountId = a) cursor
      w.table = .ok chunks) :
    ∃ es, ∃ w', run carefulStep w es = some w' ∧ ∃ table, w' = { w with
      table := table
      tasks := w.tasks.filter fun t => t.cloudAccountId ≠ a } := by
  set tasks := w.tasks.filter fun t => t.cloudAccountId = a with htasks
  by_cases hnone : tasks = []
  · refine ⟨[], w, rfl, w.table, ?_⟩
    have hall : w.tasks.filter (fun t => t.cloudAccountId ≠ a) = w.tasks := by
      refine List.filter_eq_self.mpr fun t ht => decide_eq_true fun hta => ?_
      exact List.ne_nil_of_mem (List.mem_filter.mpr ⟨ht, decide_eq_true hta⟩) hnone
    rw [hall]
  · have hlist : carefulStep w (.list a) = some { w with phase := .listed a tasks } := by
      rw [carefulStep_of w (.list a) trivial, step, World.list, if_pos ⟨hidle, hlive⟩]
      simp only [← htasks, if_neg hnone]
    have hread : carefulStep ({ w with phase := .listed a tasks } : World E) (.read cursor) =
        some { w with phase := .inserting a tasks chunks } := by
      rw [carefulStep_of _ (.read cursor) trivial, step]
      simp only [World.read, if_pos hlive, if_pos hcursor, hprocess]
    obtain ⟨table, hinserts⟩ := run_inserts chunks ({ w with phase := .inserting a tasks chunks } : World E) rfl
    have hprocessed : carefulStep ({ w with table := table, phase := .inserting a tasks [] } : World E) .processed =
        some { w with table := table, phase := .deleting tasks } := rfl
    have hdeletes := run_deletes tasks ({ w with table := table, phase := .deleting tasks } : World E) rfl
    have hrest : w.tasks.filter (fun u => ∀ t ∈ tasks, u.id ≠ t.id) =
        w.tasks.filter fun t => t.cloudAccountId ≠ a := by
      refine List.filter_congr fun u hu => ?_
      rw [Bool.eq_iff_iff, decide_eq_true_eq, decide_eq_true_eq]
      constructor
      · exact fun h hua => h u (List.mem_filter.mpr ⟨hu, decide_eq_true hua⟩) rfl
      · intro hua t ht hid
        obtain ⟨ht, hta⟩ := List.mem_filter.mp ht
        exact hua (List.inj_on_of_nodup_map hids hu ht hid ▸ of_decide_eq_true hta)
    refine exists_run_trans (run_one hlist) (exists_run_trans (run_one hread) (exists_run_trans hinserts
      (exists_run_trans (run_one hprocessed) (exists_run_trans hdeletes ⟨[.finish], _, run_one rfl, table, ?_⟩))))
    rw [← hrest, ← hidle]

end World

end Trapper
