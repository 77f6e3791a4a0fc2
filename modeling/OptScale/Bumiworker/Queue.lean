import OptScale.Bumiworker.Changes

/-!
# Bumiworker/Queue — the messages of one run, in any order

A run begins with the message of the scheduler.  Any message in flight may be the next to be processed;
one that was not acknowledged is delivered again.  Beside the bucket the store remembers the children
that were put on the queue, and every body that ever was.
-/

namespace Bumiworker

open Session

/-- The task that `ScheduleController.generate_tasks` puts on the queue. -/
structure Schedule where
  organizationId : String
  checklistId : String
  now : ℤ
  lastUpdate : ℤ
  taskTimeout : ℤ
  waitTimeout : ℤ
  maxRetries : ℕ
deriving DecidableEq, Repr

def Schedule.task (c : Schedule) : Body where
  lastUpdate := some c.lastUpdate
  triesCount := some 0
  organizationId := some c.organizationId
  checklistId := some c.checklistId
  createdAt := some c.now
  state := some .created
  taskTimeout := some c.taskTimeout
  waitTimeout := some c.waitTimeout
  maxRetries := some c.maxRetries
  moduleName := none
  moduleType := none
  childrenCount := none
  reason := none

/-- The bucket, the children put on the queue, and all bodies that were. -/
structure Store where
  objects : Bucket
  born : List Body
  log : List Body

/-- Process a message: what is in flight in its stead is the message itself, unless it was acknowledged,
its continuations, and the children. -/
def handle (M : Modules) (env : Env) (s : Store) (b : Body) : Store × List Body :=
  let w := processTask M env s.objects b
  let continuations := w.published.map Message.body
  (⟨w.objects, s.born ++ w.children, s.log ++ (continuations ++ w.children)⟩,
    (if w.acked then [] else [b]) ++ (continuations ++ w.children))

/-- The queue and the store. -/
abbrev Queue := Mailbox Store Body

/-- The message at a place is processed. -/
def deliver (M : Modules) : Queue → ℕ × Env → Option Queue := Mailbox.deliver (handle M)

/-- The scheduler has put its task on the queue. -/
def start (objects : Bucket) (c : Schedule) : Queue := ⟨⟨objects, [], [c.task]⟩, [c.task]⟩

/-- The world a message is processed in, at the beginning. -/
def World.fresh (objects : Bucket) (b : Body) : World := ⟨b, objects, [], [], false, []⟩

variable {M : Modules} {env : Env} {objects : Bucket} {b : Body} {step : Step} {P : World → Prop}

theorem processTask_of_transition (h : transition b = some step) :
    processTask M env objects b = (step.execute M env (World.fresh objects b)).2 := by
  rw [processTask, h]
  rfl

/-- **The invariant rule of a message.** -/
theorem processTask_keeps (h : transition b = some step) (hP : Unbroken M env step P)
    (hC : Closed step P) (hfresh : P (World.fresh objects b)) : P (processTask M env objects b) := by
  rw [processTask_of_transition h]
  exact (execute_keeps hC hP).apply hfresh

/-! ## Attempts and their failures -/

/-- **An attempt that succeeds** is all there is. -/
theorem execute_of_ok {w w' : World} (h : step.attempt M env w = (.ok (), w')) :
    (step.execute M env w).2 = w' := by
  rw [Step.execute, caught_of_ok h]

/-- **An attempt that fails** is handled, and acknowledged once more. -/
theorem execute_of_error {w w' : World} {e : Exn} (h : step.attempt M env w = (.error e, w')) :
    (step.execute M env w).2 = (ack env.reack (step.handleException env e w').2).2 := by
  have hraise : ∀ u : World, ((ack env.reack >>= fun _ => raise e : Act Unit) u).2 =
      (ack env.reack u).2 := by
    intro u
    cases hack : ack env.reack u with
    | mk r t =>
      cases r with
      | ok a => rw [bind_of_ok hack]; rfl
      | error e => rw [bind_of_error hack]
  rw [Step.execute, caught_of_error h, bind_of_ok (caught_pure _ _), hraise]

/-- **What an attempt establishes** either way, and no closing breaks, holds after the execution. -/
theorem execute_of_attempt {w : World} (hC : Closed step P)
    (hattempt : Spec (· = w) (step.attempt M env) (fun _ => P) fun _ => P) :
    P (step.execute M env w).2 := by
  cases hrun : step.attempt M env w with
  | mk r t =>
    cases r with
    | ok a =>
      rw [execute_of_ok hrun]
      exact hattempt.ok rfl hrun
    | error e =>
      rw [execute_of_error hrun]
      exact (ack_keeps hC _).apply ((handleException_keeps hC e).apply (hattempt.error rfl hrun))

@[simp] theorem ack_published (c : Call) (w : World) : (ack c w).2.published = w.published := by
  cases c <;> rfl

@[simp] theorem ack_objects (c : Call) (w : World) : (ack c w).2.objects = w.objects := by
  cases c <;> rfl

@[simp] theorem ack_body (c : Call) (w : World) : (ack c w).2.body = w.body := by
  cases c <;> rfl

@[simp] theorem ack_children (c : Call) (w : World) : (ack c w).2.children = w.children := by
  cases c <;> rfl

end Bumiworker
