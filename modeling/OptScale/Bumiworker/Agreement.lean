import OptScale.Bumiworker.Results

/-!
# Bumiworker/Agreement — a task and its children agree on the number of results

A task that has put its children on the queue waits until the bucket holds as many objects of the folder
as it has children.  In a run where no child ends without a result, and where the children are counted
as often as they are put on the queue, the two numbers agree as soon as all children have ended.
-/

namespace Bumiworker

open Session

variable {M : Modules} {env : Env} {objects : Bucket} {b : Body} {step : Step} {w : World}
  {folder : Folder} {c : Schedule}

/-! ## Waiting and counting -/

/-- The folder a task in this state waits for. -/
def TaskState.awaits (s : TaskState) : Option Folder :=
  (tasksTransitions s).bind fun step => step.waits.map Prod.fst

/-- The folder a task waits for; a child waits for none. -/
def Body.awaits (b : Body) : Option Folder :=
  if b.moduleName = none then b.state.bind TaskState.awaits else none

/-- A child of the folder for the module was put on the queue. -/
def Store.Born (s : Store) (folder : Folder) (name : String) : Prop :=
  ∃ child ∈ s.born, child.moduleType = some folder ∧ child.moduleName = some name

/-- The step puts children of the folder on the queue, or counts them. -/
def Initializes (M : Modules) (env : Env) (b : Body) (folder : Folder) : Prop :=
  ∃ step s, transition b = some step ∧ step.initializes = some (folder, s) ∧ ¬ b.TimedOut env ∧
    env.service = .done ∧ (enabled M env folder = [] → step ≠ .initializeChecklist) ∧
    (enabled M env folder ≠ [] → env.child 0 ≠ .refused)

/-- **The children are counted as they are put on the queue**: they fit in one page of the bucket, no
other child of the folder was ever put there, and no other count of them is waited for. -/
def CountsAll (M : Modules) (env : Env) (s : Queue) (b : Body) : Prop :=
  ∀ folder, Initializes M env b folder →
    (enabled M env folder).length ≤ maxKeys ∧
    (∀ name, s.store.Born folder name → name ∈ enabled M env folder) ∧
    ∀ p ∈ s.queue, p.awaits = some folder → p.childrenCount = some (enabled M env folder).length

/-- What the step of a message has to meet. -/
def Agrees (M : Modules) (s : Queue) (d : ℕ × Env) (_ : Queue) : Prop :=
  ∀ b, s.queue[d.1]? = some b → LeavesResult d.2 s.store.objects b ∧ CountsAll M d.2 s b

/-- All children of the folder that were put on the queue have ended. -/
def AllEnded (s : Store) (folder : Folder) : Prop :=
  ∀ name, s.Born folder name → ∃ b ∈ s.log, b.moduleType = some folder ∧ b.moduleName = some name ∧ b.Ended

/-- The wait of a task is over: it goes on to the next state, unless it was too late or a call fails. -/
def WaitEnds (M : Modules) (objects : Bucket) (p : Body) (next : TaskState) : Prop :=
  ∀ env, (∀ t d, p.lastUpdate = some t → p.waitTimeout = some d → env.checkNow - t ≤ d) →
    env.service = .done → env.publish = .done → env.ack = .done →
    ∃ m, (processTask M env objects p).published = [m] ∧ m.body.state = some next

/-- **A task and its children agree**: each child that has ended has exactly one result object, and when
all children of a folder have, the bucket holds as many objects as the task waits for, and its wait is
over. -/
structure Agreement (M : Modules) (c : Schedule) (s : Queue) : Prop where
  results : ∀ b ∈ s.store.log, b.moduleName ≠ none → b.Ended →
    ∃! o, o ∈ s.store.objects.rows ∧ b.KeyIs o.key
  counts : ∀ p ∈ s.queue, ∀ folder, p.awaits = some folder → AllEnded s.store folder →
    p.childrenCount =
      some (listObjects s.store.objects (ofFolder c.organizationId c.now folder)).length
  waits : ∀ p ∈ s.queue, ∀ step folder next, transition p = some step →
    step.waits = some (folder, next) → AllEnded s.store folder →
      WaitEnds M s.store.objects p next

/-! ## What a message does to the count -/

theorem awaits_of_moves {s : TaskState} (hs : step.Moves M env s) : s.awaits = none := by
  cases step <;> simp only [Step.Moves] at hs
  · exact hs ▸ rfl
  · exact hs.1 ▸ rfl
  · rcases hs with rfl | rfl <;> rfl
  · rcases hs with rfl | rfl <;> rfl
  · exact hs ▸ rfl

theorem awaits_of_waits {s : TaskState} (hs : step.waits = some (folder, s)) : s.awaits = none := by
  cases step <;> cases hs <;> rfl

theorem awaits_of_initializes {s : TaskState} (hs : step.initializes = some (folder, s)) :
    s.awaits = some folder := by
  cases step <;> cases hs <;> rfl

/-- What a body may wait for while a message of `b` is processed: what `b` did, or children that were
all put on the queue and counted. -/
def Settled (M : Modules) (env : Env) (b : Body) (step : Step) (children : List Body) (x : Body) :
    Prop :=
  ∀ folder, x.awaits = some folder →
    (b.awaits = some folder ∧ x.childrenCount = b.childrenCount) ∨
    (∃ s, step.initializes = some (folder, s)) ∧ env.service = .done ∧
      (enabled M env folder = [] → step ≠ .initializeChecklist) ∧
      x.childrenCount = some (enabled M env folder).length ∧
      ∀ name ∈ enabled M env folder, ∃ child ∈ children,
        child.moduleType = some folder ∧ child.moduleName = some name

/-- **What a message does to the count** of its children. -/
structure Counting (M : Modules) (env : Env) (b : Body) (step : Step) (w : World) : Prop where
  ident : w.body.ident = b.ident
  children : ∀ child ∈ w.children, child.organizationId = b.organizationId ∧
    child.createdAt = b.createdAt ∧ child.state = some .created ∧
    ∃ folder s name, step.initializes = some (folder, s) ∧ env.service = .done ∧
      env.child 0 ≠ .refused ∧ name ∈ enabled M env folder ∧
      child.moduleType = some folder ∧ child.moduleName = some name
  body : Settled M env b step w.children w.body
  published : ∀ m ∈ w.published, Settled M env b step w.children m.body

/-- A body that waits for nothing is settled. -/
theorem Settled.of_none {children : List Body} {x : Body}
    (h : x.state.bind TaskState.awaits = none) : Settled M env b step children x := by
  intro folder hfolder
  unfold Body.awaits at hfolder
  split at hfolder
  · rw [h] at hfolder
    cases hfolder
  · cases hfolder

theorem Settled.append {children : List Body} {x : Body} (h : Settled M env b step children x)
    (more : List Body) : Settled M env b step (children ++ more) x := by
  intro folder hfolder
  rcases h folder hfolder with h | ⟨hinit, hservice, hsome, hcount, hall⟩
  · exact Or.inl h
  · refine Or.inr ⟨hinit, hservice, hsome, hcount, fun name hname => ?_⟩
    obtain ⟨child, hchild, hkey⟩ := hall name hname
    exact ⟨child, List.mem_append_left _ hchild, hkey⟩

theorem counting_unbroken : Unbroken M env step (Counting M env b step) := by
  rintro w w' hchange ⟨hident, hchildren, hbody, hpublished⟩
  cases hchange with
  | missed _ _ => exact ⟨hident, hchildren, hbody, hpublished⟩
  | moved hs =>
    refine ⟨hident, hchildren, .of_none ?_, hpublished⟩
    exact awaits_of_moves hs
  | put hstep hname hservice hfirst =>
    refine ⟨hident, fun child hchild => ?_, hbody.append _, fun m hm => (hpublished m hm).append _⟩
    rcases List.mem_append.mp hchild with hchild | hchild
    · exact hchildren child hchild
    · obtain rfl := List.mem_singleton.mp hchild
      have horg : w.body.ident.organizationId = b.ident.organizationId := by rw [hident]
      have hcreated : w.body.ident.createdAt = b.ident.createdAt := by rw [hident]
      exact ⟨horg, hcreated, rfl, _, _, _, hstep, hservice, hfirst, hname, rfl, rfl⟩
  | counted hstep hservice hsome hall =>
    refine ⟨hident, hchildren, fun folder hfolder => Or.inr ?_, hpublished⟩
    have hawaits := awaits_of_initializes hstep
    unfold Body.awaits at hfolder
    split at hfolder
    · obtain rfl := Option.some.inj (hawaits.symm.trans hfolder)
      exact ⟨⟨_, hstep⟩, hservice, hsome, rfl, fun name hname => ⟨_, hall name hname, rfl, rfl⟩⟩
    · cases hfolder
  | waited hstep =>
    refine ⟨hident, hchildren, .of_none ?_, hpublished⟩
    exact awaits_of_waits hstep
  | uploaded _ _ => exact ⟨hident, hchildren, hbody, hpublished⟩
  | processed _ _ => exact ⟨hident, hchildren, .of_none rfl, hpublished⟩
  | cleaned _ _ => exact ⟨hident, hchildren, hbody, hpublished⟩

theorem counting_closed : Closed step (Counting M env b step) := by
  rintro w w' hclosing ⟨hident, hchildren, hbody, hpublished⟩
  cases hclosing with
  | missed _ _ => exact ⟨hident, hchildren, hbody, hpublished⟩
  | stamped _ => exact ⟨hident, hchildren, hbody, hpublished⟩
  | retried _ _ _ => exact ⟨hident, hchildren, hbody, hpublished⟩
  | failed _ _ => exact ⟨hident, hchildren, .of_none rfl, hpublished⟩
  | continued =>
    refine ⟨hident, hchildren, hbody, fun m hm => ?_⟩
    rcases List.mem_append.mp hm with hm | hm
    · exact hpublished m hm
    · obtain rfl := List.mem_singleton.mp hm
      exact hbody
  | acked => exact ⟨hident, hchildren, hbody, hpublished⟩

variable (M env objects) in
theorem processTask_counting (h : transition b = some step) :
    Counting M env b step (processTask M env objects b) := by
  refine processTask_keeps h counting_unbroken counting_closed ⟨rfl, ?_, ?_, ?_⟩
  · exact fun _ hchild => absurd hchild List.not_mem_nil
  · exact fun folder hfolder => Or.inl ⟨hfolder, rfl⟩
  · exact fun _ hm => absurd hm List.not_mem_nil

variable (M objects) in
/-- **A step that is too late** puts no children on the queue, and its task waits for nothing. -/
theorem processTask_of_timedOut (hb : b.Ready) (h : transition b = some step)
    (hinit : step.initializes ≠ none) (htime : b.TimedOut env) :
    (processTask M env objects b).children = [] ∧
      ∀ m ∈ (processTask M env objects b).published, m.body.awaits = none := by
  have hbase : step.base = .checkTimeoutThreshold ∧ step ≠ .process := by
    revert hinit
    cases step <;> simp [Step.initializes, Step.base]
  have hcheck : step.checkTimeout env = CheckTimeoutThreshold.checkTimeout env := by
    rw [Step.checkTimeout, hbase.1]
    exact if_neg hbase.2
  have hattempt : step.attempt M env (World.fresh objects b) =
      (.error .taskTimeout, World.fresh objects b) := by
    rw [Step.attempt, hcheck]
    exact bind_of_error ((checkTaskTimeout_of_ready (w := World.fresh objects b) hb).2 htime)
  have hhandler : step.handleException env .taskTimeout (World.fresh objects b) =
      onContinue env.republish step.isDelayed { World.fresh objects b with
        body := { b with reason := some .taskTimeout, state := some .error } } := by
    have hhandle : step.handleException env .taskTimeout =
        Base.handleException step env .taskTimeout := by rw [Step.handleException, hbase.1]
    have hcontinue : canContinue .taskTimeout (World.fresh objects b) =
        (.ok false, World.fresh objects b) := rfl
    rw [hhandle]
    exact (bind_of_ok hcontinue).trans (bind_of_ok (a := ()) rfl)
  rw [processTask_of_transition h, execute_of_error hattempt, ack_children, ack_published, hhandler]
  have hnone : ({ b with reason := some .taskTimeout, state := some .error } : Body).awaits = none := by
    unfold Body.awaits
    split <;> rfl
  cases env.republish
  · exact ⟨rfl, fun m hm => List.mem_singleton.mp hm ▸ hnone⟩
  · exact ⟨rfl, fun m hm => absurd hm List.not_mem_nil⟩
  · exact ⟨rfl, fun m hm => List.mem_singleton.mp hm ▸ hnone⟩

/-! ## The invariant of a run -/

/-- **What holds of a run** whose steps meet their conditions. -/
structure Inv (c : Schedule) (s : Queue) : Prop where
  inFlight : ∀ b ∈ s.queue, InFlight b
  queued : ∀ b ∈ s.queue, b ∈ s.store.log
  ofRun : ∀ b ∈ s.store.log,
    b.organizationId = some c.organizationId ∧ b.createdAt = some c.now
  named : ∀ b ∈ s.store.log, b.moduleName ≠ none →
    ∃ folder name, b.moduleType = some folder ∧ b.moduleName = some name ∧ s.store.Born folder name
  owned : ∀ o ∈ s.store.objects.rows, o.key.organizationId = c.organizationId →
    o.key.createdAt = c.now → s.store.Born o.key.folder o.key.moduleName
  results : ∀ b ∈ s.store.log, b.moduleName ≠ none → b.Ended → b.HasResult s.store.objects
  counted : ∀ p ∈ s.queue, ∀ folder, p.awaits = some folder → ∃ names : List String,
    names.Nodup ∧ names.length ≤ maxKeys ∧ p.childrenCount = some names.length ∧
      ∀ name, s.store.Born folder name ↔ name ∈ names

theorem Inv.start {objects : Bucket} (c : Schedule)
    (hfresh : ∀ o ∈ objects.rows, o.key.organizationId = c.organizationId → o.key.createdAt ≠ c.now) :
    Inv c (start objects c) where
  inFlight b hb := by
    obtain rfl := List.mem_singleton.mp hb
    exact ⟨c.ready, fun h => absurd rfl h⟩
  queued _ hb := hb
  ofRun b hb := by
    obtain rfl := List.mem_singleton.mp hb
    exact ⟨rfl, rfl⟩
  named b hb h := by
    obtain rfl := List.mem_singleton.mp hb
    exact absurd rfl h
  owned o ho horg hcreated := absurd hcreated (hfresh o ho horg)
  results b hb h := by
    obtain rfl := List.mem_singleton.mp hb
    exact absurd rfl h
  counted p hp folder h := by
    obtain rfl := List.mem_singleton.mp hp
    cases h

/-- What a delivery leaves: the world of the message, and the rest of the queue. -/
theorem deliver_spec {s s' : Queue} {d : ℕ × Env} (h : deliver M s d = some s') :
    ∃ b w, s.queue[d.1]? = some b ∧ b ∈ s.queue ∧ w = processTask M d.2 s.store.objects b ∧
      s'.store.objects = w.objects ∧ s'.store.born = s.store.born ++ w.children ∧
      s'.store.log = s.store.log ++ (w.published.map Message.body ++ w.children) ∧
      ∀ b' ∈ s'.queue, b' ∈ s.queue ∨ b' ∈ w.published.map Message.body ∨ b' ∈ w.children := by
  obtain ⟨b, l, r, hb, hqueue, hstore, hq⟩ := Mailbox.deliver_cases h
  have hmem : b ∈ s.queue := List.mem_of_getElem? hb
  refine ⟨b, _, hb, hmem, rfl, by rw [hstore]; rfl, by rw [hstore]; rfl, by rw [hstore]; rfl, ?_⟩
  intro b' hb'
  rw [hq] at hb'
  simp only [handle, List.mem_append] at hb'
  rcases hb' with (hl | hr) | hself | hnew
  · exact Or.inl (hqueue ▸ List.mem_append_left _ hl)
  · exact Or.inl (hqueue ▸ List.mem_append_right _ (List.mem_cons_of_mem _ hr))
  · split at hself
    · exact absurd hself List.not_mem_nil
    · exact Or.inl (List.mem_singleton.mp hself ▸ hmem)
  · exact Or.inr hnew

/-- A child that was put on the queue stays put. -/
theorem Store.Born.append {s s' : Store} {more : List Body} (hborn : s'.born = s.born ++ more)
    {name : String} (h : s.Born folder name) : s'.Born folder name := by
  obtain ⟨child, hchild, hkey⟩ := h
  exact ⟨child, hborn ▸ List.mem_append_left _ hchild, hkey⟩

theorem Store.born_append {s s' : Store} {more : List Body} (hborn : s'.born = s.born ++ more)
    {name : String} : s'.Born folder name ↔ s.Born folder name ∨
      ∃ child ∈ more, child.moduleType = some folder ∧ child.moduleName = some name := by
  simp only [Store.Born, hborn, List.mem_append]
  constructor
  · rintro ⟨child, hchild | hchild, hkey⟩
    · exact Or.inl ⟨child, hchild, hkey⟩
    · exact Or.inr ⟨child, hchild, hkey⟩
  · rintro (⟨child, hchild, hkey⟩ | ⟨child, hchild, hkey⟩)
    · exact ⟨child, Or.inl hchild, hkey⟩
    · exact ⟨child, Or.inr hchild, hkey⟩

/-- Two lists without repetition, one in the other and of one length, have the same members. -/
theorem mem_of_subset_of_length {l l' : List String} (hl : l.Nodup) (hsub : ∀ a ∈ l, a ∈ l')
    (hlen : l.length = l'.length) {a : String} (ha : a ∈ l') : a ∈ l :=
  ((hl.subperm hsub).perm_of_length_le hlen.ge).mem_iff.mpr ha

section Step

variable {s s' : Queue} {d : ℕ × Env}

/-- **The children put on the queue** are those of a step that initializes, and it is asked to count them
all. -/
theorem children_counted (hinv : Inv c s) (hb : b ∈ s.queue) (hcounts : CountsAll M env s b)
    {name : String} (hborn : ∃ child ∈ (processTask M env s.store.objects b).children,
      child.moduleType = some folder ∧ child.moduleName = some name) :
    name ∈ enabled M env folder ∧ (enabled M env folder).length ≤ maxKeys ∧
      (∀ name, s.store.Born folder name → name ∈ enabled M env folder) ∧
      (∀ p ∈ s.queue, p.awaits = some folder →
        p.childrenCount = some (enabled M env folder).length) := by
  obtain ⟨child, hchild, htype, hname⟩ := hborn
  have hready := (hinv.inFlight b hb).1
  obtain ⟨step, htrans⟩ := hready.exists_transition
  obtain ⟨-, -, -, folder', s', name', hinit, hservice, hfirst, hmem, htype', hname'⟩ :=
    (processTask_counting M env s.store.objects htrans).children child
      hchild
  obtain rfl := Option.some.inj (htype.symm.trans htype')
  obtain rfl := Option.some.inj (hname.symm.trans hname')
  have htime : ¬ b.TimedOut env := fun htime => by
    have hnone := (processTask_of_timedOut M s.store.objects hready htrans
      (by simp [hinit]) htime).1
    rw [hnone] at hchild
    exact absurd hchild List.not_mem_nil
  refine ⟨hmem, hcounts folder ⟨step, s', htrans, hinit, htime, hservice, fun hnone => ?_,
    fun _ => hfirst⟩⟩
  rw [hnone] at hmem
  exact absurd hmem List.not_mem_nil

/-- **Counting, one step**: who waits for a folder afterwards waits for all the children of it that were
put on the queue. -/
theorem counted_deliver (hinv : Inv c s) (h : deliver M s d = some s') (hagrees : Agrees M s d s') :
    ∀ p ∈ s'.queue, ∀ folder, p.awaits = some folder → ∃ names : List String, names.Nodup ∧
      names.length ≤ maxKeys ∧ p.childrenCount = some names.length ∧
      ∀ name, s'.store.Born folder name ↔ name ∈ names := by
  obtain ⟨b, w, hb, hmem, rfl, -, hborn, -, hqueue⟩ := deliver_spec h
  obtain ⟨-, hcounts⟩ := hagrees b hb
  have hready := (hinv.inFlight b hmem).1
  obtain ⟨step, htrans⟩ := hready.exists_transition
  have hcounting := processTask_counting M d.2 s.store.objects htrans
  have hnodup : ∀ folder, (enabled M d.2 folder).Nodup := fun folder =>
    (M.nodup folder).sublist List.filter_sublist
  -- a task that waited before waits for the same children
  have hold : ∀ p ∈ s.queue, ∀ q : Body, ∀ folder, p.awaits = some folder →
      q.childrenCount = p.childrenCount → ∃ names : List String, names.Nodup ∧
        names.length ≤ maxKeys ∧ q.childrenCount = some names.length ∧
        ∀ name, s'.store.Born folder name ↔ name ∈ names := by
    intro p hp q folder hawaits hcount
    obtain ⟨names, hnames, hpage, hlength, hiff⟩ := hinv.counted p hp folder hawaits
    refine ⟨names, hnames, hpage, hcount.trans hlength, fun name => ?_⟩
    rw [Store.born_append hborn, hiff]
    refine ⟨fun hname => hname.elim id fun hnew => ?_, Or.inl⟩
    obtain ⟨hin, -, hall, hothers⟩ := children_counted hinv hmem hcounts hnew
    have hsame : names.length = (enabled M d.2 folder).length :=
      Option.some.inj (hlength.symm.trans (hothers p hp hawaits))
    exact mem_of_subset_of_length hnames (fun name hname => hall name ((hiff name).mpr hname)) hsame hin
  intro p hp folder hawaits
  rcases hqueue p hp with hp | hp | hp
  · exact hold p hp p folder hawaits rfl
  · obtain ⟨m, hm, rfl⟩ := List.mem_map.mp hp
    rcases hcounting.published m hm folder hawaits with
      ⟨hbefore, hcount⟩ | ⟨⟨t, hinit⟩, hservice, hsome, hcount, hall⟩
    · exact hold b hmem m.body folder hbefore hcount
    · have htime : ¬ b.TimedOut d.2 := fun htime => by
        have hnone := (processTask_of_timedOut M s.store.objects hready htrans
          (by simp [hinit]) htime).2 m hm
        rw [hnone] at hawaits
        cases hawaits
      have hfirst : enabled M d.2 folder ≠ [] → d.2.child 0 ≠ .refused := by
        intro hne
        obtain ⟨name, hname⟩ := List.exists_mem_of_ne_nil _ hne
        obtain ⟨child, hchild, -⟩ := hall name hname
        obtain ⟨-, -, -, -, -, -, -, -, hfirst, -⟩ := hcounting.children child hchild
        exact hfirst
      obtain ⟨hpage, hborns, -⟩ :=
        hcounts folder ⟨step, t, htrans, hinit, htime, hservice, hsome, hfirst⟩
      refine ⟨enabled M d.2 folder, hnodup folder, hpage, hcount, fun name => ?_⟩
      rw [Store.born_append hborn]
      constructor
      · rintro (hname | hnew)
        · exact hborns name hname
        · exact (children_counted hinv hmem hcounts hnew).1
      · exact fun hname => Or.inr (hall name hname)
  · obtain ⟨-, -, -, _, _, _, -, -, -, -, -, hname⟩ := hcounting.children p hp
    rw [Body.awaits, if_neg (by simp [hname])] at hawaits
    cases hawaits

/-- **The invariant, one step.** -/
theorem Inv.deliver (hinv : Inv c s) (h : Bumiworker.deliver M s d = some s')
    (hagrees : Agrees M s d s') : Inv c s' := by
  obtain ⟨b, w, hb, hmem, hw, hobjects, hborn, hlog, hqueue⟩ := deliver_spec h
  obtain ⟨hleaves, -⟩ := hagrees b hb
  have hready := (hinv.inFlight b hmem).1
  have hblog := hinv.queued b hmem
  obtain ⟨step, htrans⟩ := hready.exists_transition
  have hcounting := processTask_counting M d.2 s.store.objects htrans
  have huploads := processTask_uploads M d.2 s.store.objects htrans
  have hsound := processTask_sound M d.2 s.store.objects hready
  rw [← hw] at hcounting huploads hsound
  -- what is new in the log is a continuation of the task or a child
  have hnew : ∀ b' ∈ s'.store.log, b' ∈ s.store.log ∨
      (∃ m ∈ w.published, m.body = b') ∨ b' ∈ w.children := by
    intro b' hb'
    rw [hlog, List.mem_append, List.mem_append, List.mem_map] at hb'
    exact hb'
  refine ⟨inFlight_deliver hinv.inFlight h, fun b' hb' => ?_, fun b' hb' => ?_,
    fun b' hb' hname => ?_, fun o ho horg hcreated => ?_, fun b' hb' hname hended => ?_,
    counted_deliver hinv h hagrees⟩
  · rw [hlog, List.mem_append, List.mem_append]
    exact (hqueue b' hb').imp (hinv.queued b') id
  · rcases hnew b' hb' with hb' | ⟨m, hm, rfl⟩ | hb'
    · exact hinv.ofRun b' hb'
    · have hident := (hsound.published m hm).2
      have horg : m.body.ident.organizationId = b.ident.organizationId := by rw [hident]
      have hcreated : m.body.ident.createdAt = b.ident.createdAt := by rw [hident]
      exact ⟨horg.trans (hinv.ofRun b hblog).1, hcreated.trans (hinv.ofRun b hblog).2⟩
    · obtain ⟨horg, hcreated, -⟩ := hcounting.children b' hb'
      exact ⟨horg.trans (hinv.ofRun b hblog).1, hcreated.trans (hinv.ofRun b hblog).2⟩
  · rcases hnew b' hb' with hb' | ⟨m, hm, rfl⟩ | hb'
    · obtain ⟨folder, name, htype, hname, hborn'⟩ := hinv.named b' hb' hname
      exact ⟨folder, name, htype, hname, hborn'.append hborn⟩
    · have hident := (hsound.published m hm).2
      have hkind := Body.moduleName_of_ident hident
      have htype : m.body.ident.moduleType = b.ident.moduleType := by rw [hident]
      obtain ⟨folder, name, htype', hname', hborn'⟩ := hinv.named b hblog (hkind ▸ hname)
      exact ⟨folder, name, htype.trans htype', hkind.trans hname', hborn'.append hborn⟩
    · obtain ⟨-, -, -, folder, -, name, -, -, -, -, htype, hname'⟩ := hcounting.children b' hb'
      exact ⟨folder, name, htype, hname',
        (Store.born_append hborn).mpr (Or.inr ⟨b', hb', htype, hname'⟩)⟩
  · rw [hobjects] at ho
    rcases huploads.onlyOwn o ho with ⟨o₀, ho₀, hkey⟩ | ⟨rfl, hkey⟩
    · rw [← hkey] at horg hcreated ⊢
      exact (hinv.owned o₀ ho₀ horg hcreated).append hborn
    · obtain ⟨-, -, htype, hname⟩ := hkey
      obtain ⟨folder, name, htype', hname', hborn'⟩ := hinv.named b hblog (by simp [hname])
      obtain rfl := Option.some.inj (htype.symm.trans htype')
      obtain rfl := Option.some.inj (hname.symm.trans hname')
      exact hborn'.append hborn
  · rw [hobjects]
    rcases hnew b' hb' with hb' | ⟨m, hm, rfl⟩ | hb'
    · refine (hinv.results b' hb' hname hended).stays ?_
      rw [(hinv.ofRun b' hb').2, ← (hinv.ofRun b hblog).2]
      exact huploads.stays
    · have hkind := Body.moduleName_of_ident (hsound.published m hm).2
      subst hw
      exact processTask_result hready (hkind ▸ hname) (hinv.results b hblog (hkind ▸ hname)) hleaves m
        hm hended
    · obtain ⟨-, -, hstate, -⟩ := hcounting.children b' hb'
      rcases hended with h | h <;> rw [hstate] at h <;> cases h

end Step

/-! ## Agreement -/

theorem Body.KeyIs.unique {k k' : ResultKey} (h : b.KeyIs k) (h' : b.KeyIs k') : k = k' := by
  obtain ⟨org, created, folder, name⟩ := k
  obtain ⟨org', created', folder', name'⟩ := k'
  obtain ⟨h₁, h₂, h₃, h₄⟩ := h
  obtain ⟨h₁', h₂', h₃', h₄'⟩ := h'
  obtain rfl := Option.some.inj (h₁.symm.trans h₁')
  obtain rfl := Option.some.inj (h₂.symm.trans h₂')
  obtain rfl := Option.some.inj (h₃.symm.trans h₃')
  obtain rfl := Option.some.inj (h₄.symm.trans h₄')
  rfl

/-- **The objects of a folder are counted by their modules.** -/
theorem length_listObjects (objects : Bucket) (org : String) (created : ℤ) {names : List String}
    (hnames : names.Nodup) (hpage : names.length ≤ maxKeys)
    (hiff : ∀ name, (∃ o ∈ objects.rows, o.key = ⟨org, created, folder, name⟩) ↔ name ∈ names) :
    (listObjects objects (ofFolder org created folder)).length = names.length := by
  have hkeys : ∀ o : Result, ofFolder org created folder o.key = true →
      o.key = ⟨org, created, folder, o.key.moduleName⟩ := by
    rintro ⟨⟨org', created', folder', name⟩, _, _, _⟩ h
    obtain ⟨rfl, rfl, rfl⟩ := of_decide_eq_true h
    rfl
  have hnodup : ((objects.rows.filter fun o => ofFolder org created folder o.key).map
      fun o => o.key.moduleName).Nodup := by
    refine List.Nodup.map_on (fun o ho o' ho' hname => ?_) (objects.nodup.of_map.filter _)
    obtain ⟨ho, hof⟩ := List.mem_filter.mp ho
    obtain ⟨ho', hof'⟩ := List.mem_filter.mp ho'
    refine objects.eq_of_key ho ho' ?_
    rw [hkeys o hof, hkeys o' hof', hname]
  have hperm : ((objects.rows.filter fun o => ofFolder org created folder o.key).map
      fun o => o.key.moduleName).Perm names := by
    refine (List.perm_ext_iff_of_nodup hnodup hnames).mpr fun name => ?_
    rw [← hiff, List.mem_map]
    constructor
    · rintro ⟨o, ho, rfl⟩
      obtain ⟨ho, hof⟩ := List.mem_filter.mp ho
      exact ⟨o, ho, hkeys o hof⟩
    · rintro ⟨o, ho, hkey⟩
      refine ⟨o, List.mem_filter.mpr ⟨ho, ?_⟩, by rw [hkey]⟩
      rw [hkey]
      exact decide_eq_true ⟨rfl, rfl, rfl⟩
  have hlength := hperm.length_eq
  rw [List.length_map] at hlength
  rw [listObjects, List.length_take, List.length_insertionSort, hlength, min_eq_right hpage]

/-- A step that waits is that of a task, and its state says what for. -/
theorem awaits_of_transition {next : TaskState} (h : transition b = some step)
    (hwaits : step.waits = some (folder, next)) : b.awaits = some folder := by
  obtain ⟨s, hs, htask, hgroup⟩ := transition_kind h
  by_cases hname : b.moduleName = none
  · rw [Body.awaits, if_pos hname, hs, Option.bind_some, TaskState.awaits, htask hname,
      Option.bind_some, hwaits]
    rfl
  · rcases group_cases (hgroup hname) with rfl | rfl | rfl | rfl <;> cases hwaits

/-- **The wait is over** when the numbers agree. -/
theorem waitEnds_of_count {next : TaskState} {org : String} {created : ℤ} {n : ℕ} (hb : b.Ready)
    (h : transition b = some step) (hwaits : step.waits = some (folder, next))
    (horg : b.organizationId = some org) (hcreated : b.createdAt = some created)
    (hcount : b.childrenCount = some n)
    (hlength : (listObjects objects (ofFolder org created folder)).length = n) :
    WaitEnds M objects b next := by
  intro env htime hservice hpublish hack
  have hname : b.moduleName = none := by
    obtain ⟨s, -, -, hgroup⟩ := transition_kind h
    by_contra hname
    rcases group_cases (hgroup hname) with rfl | rfl | rfl | rfl <;> cases hwaits
  obtain ⟨t, ht⟩ := Option.ne_none_iff_exists'.mp hb.lastUpdate
  obtain ⟨d, hd⟩ := Option.ne_none_iff_exists'.mp (hb.ofTask hname).1
  have hbase : step.base = .checkWaitThreshold := by
    cases step <;> cases hwaits <;> rfl
  have hcheck : step.checkTimeout env (World.fresh objects b) = (.ok (), World.fresh objects b) := by
    have hthreshold : step.checkTimeout env = CheckWaitThreshold.checkTimeout env := by
      rw [Step.checkTimeout, hbase]
    have hle : ¬ env.checkNow - t > d := by
      have := htime t d ht hd
      omega
    rw [hthreshold]
    refine (bind_of_ok (key_of_some (w := World.fresh objects b) ht)).trans
      ((bind_of_ok (key_of_some (w := World.fresh objects b) hd)).trans ?_)
    rw [if_neg hle]
    rfl
  have hcall : callOut env.service (World.fresh objects b) = (.ok (), World.fresh objects b) := by
    rw [hservice]
    rfl
  have hperform : step.perform M env (World.fresh objects b) = (.ok (), { World.fresh objects b with
      body := { b with lastUpdate := some env.updateNow, state := some next } }) := by
    have hstep : step.perform M env = WaitTasksResult.perform env folder next := by
      cases step <;> cases hwaits <;> rfl
    rw [hstep]
    refine (bind_of_ok (key_of_some (w := World.fresh objects b) horg)).trans
      ((bind_of_ok (key_of_some (w := World.fresh objects b) hcreated)).trans
        ((bind_of_ok hcall).trans ((bind_of_ok (x := bucket) (a := objects) rfl).trans
          ((bind_of_ok (key_of_some (w := World.fresh objects b) hcount)).trans ?_))))
    rw [if_pos hlength]
    rfl
  have hfinish : step.finish env = continueExecute step env := by rw [Step.finish, hbase]
  have hattempt : step.attempt M env (World.fresh objects b) =
      continueExecute step env { World.fresh objects b with
        body := { b with lastUpdate := some env.updateNow, state := some next } } := by
    rw [Step.attempt, bind_of_ok hcheck, bind_of_ok hperform, hfinish]
  have hcontinue : ∀ w, continueExecute step env w = (.ok (), { w with
      published := w.published ++ [⟨w.body, step.isDelayed⟩], acked := true }) := by
    intro w
    rw [continueExecute, hpublish, hack]
    rfl
  rw [hcontinue] at hattempt
  rw [processTask_of_transition h, execute_of_ok hattempt]
  exact ⟨_, rfl, rfl⟩

/-- **Where the invariant holds, a task and its children agree.** -/
theorem Inv.agreement {s : Queue} (hinv : Inv c s) : Agreement M c s := by
  have hcounts : ∀ p ∈ s.queue, ∀ folder, p.awaits = some folder → AllEnded s.store folder →
      p.childrenCount =
        some (listObjects s.store.objects (ofFolder c.organizationId c.now folder)).length := by
    intro p hp folder hawaits hended
    obtain ⟨names, hnames, hpage, hcount, hiff⟩ := hinv.counted p hp folder hawaits
    rw [hcount, length_listObjects s.store.objects c.organizationId c.now hnames hpage fun name => ?_]
    rw [← hiff]
    constructor
    · rintro ⟨o, ho, hkey⟩
      have hborn := hinv.owned o ho (by rw [hkey]) (by rw [hkey])
      rwa [hkey] at hborn
    · intro hborn
      obtain ⟨b, hb, htype, hname, hend⟩ := hended name hborn
      obtain ⟨⟨⟨org, created, folder', name'⟩, _, _, _⟩, ho, horg, hcreated, htype', hname'⟩ :=
        hinv.results b hb (by simp [hname]) hend
      obtain rfl := Option.some.inj ((hinv.ofRun b hb).1.symm.trans horg)
      obtain rfl := Option.some.inj ((hinv.ofRun b hb).2.symm.trans hcreated)
      obtain rfl := Option.some.inj (htype.symm.trans htype')
      obtain rfl := Option.some.inj (hname.symm.trans hname')
      exact ⟨_, ho, rfl⟩
  refine ⟨fun b hb hname hended => ?_, hcounts, fun p hp step folder next htrans hwaits hended => ?_⟩
  · obtain ⟨o, ho, hkey⟩ := hinv.results b hb hname hended
    exact ⟨o, ⟨ho, hkey⟩, fun o' ho' =>
      s.store.objects.eq_of_key ho'.1 ho (ho'.2.unique hkey)⟩
  · have hlog := hinv.queued p hp
    exact waitEnds_of_count (hinv.inFlight p hp).1 htrans hwaits (hinv.ofRun p hlog).1
      (hinv.ofRun p hlog).2 (hcounts p hp folder (awaits_of_transition htrans hwaits) hended) rfl

/-- **A task and its children agree.**  In every run, from a bucket without objects of it, whose steps
never let a child end without a result and count the children as they are put on the queue, every state
that is reached has exactly one result object for each child that has ended, as many objects of a folder
as the task waits for when all its children have, and then the task's wait is over. -/
theorem agreement_of_along (M : Modules) (objects : Bucket) (c : Schedule) (ds : List (ℕ × Env))
    (hfresh : ∀ o ∈ objects.rows, o.key.organizationId = c.organizationId → o.key.createdAt ≠ c.now)
    (hagrees : Run.Along (deliver M) (Agrees M) (start objects c) ds) :
    Run.Always (deliver M) (Agreement M c) (start objects c) ds :=
  (Run.always_of_along (fun _ _ _ hinv h hagrees => hinv.deliver h hagrees) (Inv.start c hfresh)
    hagrees).mono fun _ hinv => hinv.agreement

/-- A child whose calls are answered in time does not end without a result. -/
theorem leavesResult_answered (hlast : b.lastUpdate = some 0) (htimeout : b.taskTimeout = some 3600) :
    LeavesResult answered objects b := by
  intro _
  refine ⟨fun _ => ⟨?_, Or.inr ⟨rfl, rfl⟩⟩, fun _ => Or.inr (Or.inr ⟨Or.inr rfl, by decide⟩)⟩
  rintro ⟨t, d, ht, hd, hlate⟩
  obtain rfl := Option.some.inj (hlast.symm.trans ht)
  obtain rfl := Option.some.inj (htimeout.symm.trans hd)
  simp [answered] at hlate

variable (step) in
/-- A step that does not initialize has nothing to count. -/
theorem countsAll_of_none {s : Queue} (h : transition b = some step)
    (hinit : step.initializes = none) : CountsAll M env s b := by
  rintro folder ⟨step', s', htrans, hinit', -⟩
  obtain rfl := Option.some.inj (h.symm.trans htrans)
  rw [hinit] at hinit'
  cases hinit'

/-- The task is started, puts its child on the queue, and the child is started and processed. -/
theorem agreement_oneModule : Run.Always (deliver oneModule) (Agreement oneModule tenOClock)
    (start Table.empty tenOClock) [(0, answered), (0, answered), (1, answered), (1, answered)] := by
  refine agreement_of_along oneModule Table.empty tenOClock _ (fun o ho => absurd ho List.not_mem_nil) ?_
  intro s₁ h₁
  obtain rfl := Option.some.inj ((show deliver oneModule _ _ = some _ from rfl).symm.trans h₁)
  refine ⟨fun b hb => ?_, fun s₂ h₂ => ?_⟩
  · obtain rfl := Option.some.inj ((show _ = some _ from rfl).symm.trans hb)
    exact ⟨leavesResult_answered rfl rfl, countsAll_of_none .setStarted rfl rfl⟩
  obtain rfl := Option.some.inj ((show deliver oneModule _ _ = some _ from rfl).symm.trans h₂)
  refine ⟨fun b hb => ?_, fun s₃ h₃ => ?_⟩
  · obtain rfl := Option.some.inj ((show _ = some _ from rfl).symm.trans hb)
    refine ⟨leavesResult_answered rfl rfl, fun folder hinit => ?_⟩
    obtain ⟨step, s, htrans, hfolder, -⟩ := hinit
    obtain rfl := Option.some.inj ((show _ = some Step.initializeChecklist from rfl).symm.trans htrans)
    obtain rfl := (Prod.mk.inj (Option.some.inj hfolder)).1
    refine ⟨by decide, fun name hborn => ?_, fun p hp hawaits => ?_⟩
    · obtain ⟨child, hchild, -⟩ := hborn
      exact absurd hchild List.not_mem_nil
    · obtain rfl := List.mem_singleton.mp hp
      cases hawaits
  obtain rfl := Option.some.inj ((show deliver oneModule _ _ = some _ from rfl).symm.trans h₃)
  refine ⟨fun b hb => ?_, fun s₄ h₄ => ?_⟩
  · obtain rfl := Option.some.inj ((show _ = some _ from rfl).symm.trans hb)
    exact ⟨leavesResult_answered rfl rfl, countsAll_of_none .setStarted rfl rfl⟩
  obtain rfl := Option.some.inj ((show deliver oneModule _ _ = some _ from rfl).symm.trans h₄)
  refine ⟨fun b hb => ?_, trivial⟩
  obtain rfl := Option.some.inj ((show _ = some _ from rfl).symm.trans hb)
  exact ⟨leavesResult_answered rfl rfl, countsAll_of_none .process rfl rfl⟩

/-- All calls answer, two hours late. -/
def late : Env := { answered with checkNow := 7200 }

/-- **A child may end without a result**: its message was not read in time, so that it fails in
`SetStarted`; the task waits for an object that nothing writes. -/
theorem exists_disagreement : ∃ ds s, Run.run (deliver oneModule) (start Table.empty tenOClock) ds = some s ∧
    ¬ Agreement oneModule tenOClock s := by
  refine ⟨[(0, answered), (0, answered), (1, late)], _, rfl, fun hagree => ?_⟩
  obtain ⟨o, ⟨ho, -⟩, -⟩ := hagree.results _ (List.mem_cons_of_mem _ (List.mem_cons_of_mem _
    (List.mem_cons_of_mem _ (List.mem_cons_of_mem _ List.mem_cons_self)))) (by decide) (Or.inr rfl)
  exact absurd ho List.not_mem_nil

end Bumiworker
