import NetworkLoop.Observation.Service
import NetworkLoop.Evidence.Alerts
import NetworkLoop.Evidence.Jobs

/-! The output worker (`incident_output.rs`).

Handles put jobs into a bounded queue; one task takes them out, and a thread beside it persists
and alerts each. The parties move in any order: what they do is an `OutputEvent`, and a run is a
list of them. Whatever the order, no accepted job is lost or handled twice and none overtakes
another (`jobs_conserved`), the reported health does not hide a failure (`health_truthful`),
a task that has returned has handled all it accepted, and one that was told to shut down
returns (`shutdown_drains`). `stored_in_order` joins the worker with the recorder before it and
the store behind it. -/
namespace NetworkLoop.Evidence
open Library Observation

/-! ### The backend -/

inductive AlertSinkMode where
  | journald | stderrJson
  deriving DecidableEq, Repr

/-- A backend with state `B`; `X` is what happens outside during a job. A call without a reply
has panicked. -/
structure IncidentOutputBackend (B X : Type) where
  persist : X → B → IncidentWriteJob → Option (Except IncidentOutputError Unit) × B
  alert : X → B → IncidentWriteJob → EvidenceStatus → Option AlertSinkMode × B

abbrev OutputReply := Except IncidentOutputError Unit × AlertSinkMode

/-- The closure of `process_job`, with the backend locked. -/
def IncidentOutputBackend.process {B X : Type} (bk : IncidentOutputBackend B X) (x : X) (b : B) (job : IncidentWriteJob) :
    Option OutputReply × B :=
  match bk.persist x b job with
  | (none, b) => (none, b)
  | (some persisted, b) =>
    match bk.alert x b job (if persisted.isOk then .stored else .unavailable) with
    | (none, b) => (none, b)
    | (some sink, b) => (some (persisted, sink), b)

/-! ### The health -/

inductive OutputHealthState where
  | healthy | degraded
  deriving DecidableEq, Repr

structure OutputHealth where
  state : OutputHealthState
  storeAvailable : Bool
  corruptObjectCount : Nat
  incompleteObjectCount : Nat
  unknownObjectCount : Nat
  alertSink : AlertSinkMode
  lastErrorCode : Option String
  droppedJobCount : Nat
  deriving DecidableEq, Repr

namespace OutputHealth

/-- The health that `start` begins with. -/
def initial : OutputHealth := ⟨.healthy, true, 0, 0, 0, .stderrJson, none, 0⟩

/-- `OutputHealth::unavailable`, and `unavailable_health` beside it. -/
def unavailable (code : String) : OutputHealth := ⟨.degraded, false, 0, 0, 0, .stderrJson, some code, 0⟩

/-- `update_health`; its callers pass no other `store_available` than false. -/
def update (health : OutputHealth) (errorCode : String) (dropped : Bool) : OutputHealth :=
  { health with
    state := .degraded
    storeAvailable := false
    lastErrorCode := some errorCode
    droppedJobCount := if dropped then saturatingAdd health.droppedJobCount 1 else health.droppedJobCount }

/-- What `process_job` makes of a reply. -/
def replied (health : OutputHealth) : Option OutputReply → OutputHealth
  | some (.ok _, sink) => { health with alertSink := sink }
  | some (.error _, sink) => { health with alertSink := sink }.update "OUTPUT_STORE_UNAVAILABLE" false
  | none => health.update "OUTPUT_STORE_UNAVAILABLE" false

end OutputHealth

/-! ### The worker -/

inductive IncidentOutputSubmitError where
  | queueFull | closed
  deriving DecidableEq, Repr

/-- Where the task is. An aborted task may have left a job with the thread. -/
inductive OutputTask where
  | selecting
  | draining
  | processing (job : IncidentWriteJob) (draining : Bool)
  | returned
  | aborted (job : Option IncidentWriteJob)

structure OutputWorker (B : Type) where
  queue : List IncidentWriteJob
  receiverClosed : Bool
  /-- The shutdown signal was sent, or its sender is gone. -/
  shutdown : Bool
  /-- There is a handle left. -/
  handles : Bool
  task : OutputTask
  backend : B
  /-- A call of the backend has panicked under its lock. -/
  poisoned : Bool
  health : OutputHealth

/-- `try_submit` on a handle, the last handle dropped, the shutdown signal, a poll of the task,
the end of the thread's closure, and the timeout of `shutdown`. -/
inductive OutputEvent (X : Type) where
  | trySubmit (job : IncidentWriteJob)
  | dropHandles
  | signal
  | poll
  | finish (x : X)
  | timeout

/-- What the observer writes down: of a job that was handled also what happened outside, if the
backend was called at all. -/
inductive OutputNote (X : Type) where
  | accepted (job : IncidentWriteJob)
  | refused (job : IncidentWriteJob) (error : IncidentOutputSubmitError)
  | handled (x : Option X) (job : IncidentWriteJob) (reply : Option OutputReply)
  | discarded (job : IncidentWriteJob)

namespace OutputWorker
variable {B X : Type}

def start (backend : B) (health : OutputHealth) : OutputWorker B where
  queue := []
  receiverClosed := false
  shutdown := false
  handles := true
  task := .selecting
  backend := backend
  poisoned := false
  health := health

def trySubmit (w : OutputWorker B) (job : IncidentWriteJob) : OutputWorker B × List (OutputNote X) :=
  if w.receiverClosed then ({ w with health := w.health.update "OUTPUT_WORKER_FAILED" true }, [.refused job .closed])
  else if w.queue.length ≥ incidentOutputQueueCapacity then
    ({ w with health := w.health.update "OUTPUT_QUEUE_FULL" true }, [.refused job .queueFull])
  else ({ w with queue := w.queue ++ [job] }, [.accepted job])

/-- The task returns and drops its receiver. -/
def returns (w : OutputWorker B) : OutputWorker B := { w with task := .returned, receiverClosed := true }

/-- One poll of the task: the signal comes before a job. -/
def poll (w : OutputWorker B) : OutputWorker B :=
  match w.task with
  | .selecting =>
    if w.shutdown then { w with task := .draining, receiverClosed := true }
    else
      match w.queue with
      | job :: rest => { w with queue := rest, task := .processing job false }
      | [] => if w.handles then w else w.returns
  | .draining =>
    match w.queue with
    | job :: rest => { w with queue := rest, task := .processing job true }
    | [] => w.returns
  | _ => w

/-- The thread's closure on a job: its reply, and whether it came to call the backend. -/
def process (bk : IncidentOutputBackend B X) (w : OutputWorker B) (x : X) (job : IncidentWriteJob) :
    OutputWorker B × Option OutputReply × Option X :=
  if w.poisoned then (w, some (.error .storeUnavailable, .stderrJson), none)
  else
    let (reply, backend) := bk.process x w.backend job
    ({ w with backend, poisoned := reply.isNone }, reply, some x)

/-- The closure ends. Nobody waits for it after an abort. -/
def finish (bk : IncidentOutputBackend B X) (w : OutputWorker B) (x : X) : OutputWorker B × List (OutputNote X) :=
  match w.task with
  | .processing job draining =>
    let (w, reply, called) := w.process bk x job
    ({ w with health := w.health.replied reply, task := if draining then .draining else .selecting }, [.handled called job reply])
  | .aborted (some job) =>
    let (w, reply, called) := w.process bk x job
    ({ w with task := .aborted none }, [.handled called job reply])
  | _ => (w, [])

/-- The job that the thread has. -/
def inFlight (w : OutputWorker B) : Option IncidentWriteJob :=
  match w.task with
  | .processing job _ => some job
  | .aborted job => job
  | _ => none

/-- `shutdown` has waited long enough: a task that has not returned is aborted. -/
def timeout (w : OutputWorker B) : OutputWorker B × List (OutputNote X) :=
  match w.task with
  | .returned => (w, [])
  | .aborted _ => (w, [])
  | _ =>
    if w.shutdown then
      ({ w with
          queue := []
          receiverClosed := true
          task := .aborted w.inFlight
          health := w.health.update "OUTPUT_WORKER_FAILED" false }, (w.queue.map .discarded).reverse)
    else (w, [])

def handle (bk : IncidentOutputBackend B X) (w : OutputWorker B) : OutputEvent X → OutputWorker B × List (OutputNote X)
  | .trySubmit job => if w.handles then w.trySubmit job else (w, [])
  | .dropHandles => ({ w with handles := false }, [])
  | .signal => ({ w with shutdown := true }, [])
  | .poll => (w.poll, [])
  | .finish x => w.finish bk x
  | .timeout => w.timeout

end OutputWorker

inductive IncidentOutputShutdown where
  | drained | timedOut | workerFailed
  deriving DecidableEq, Repr

/-- What `shutdown` returns once the task has ended. The task does not panic. -/
def OutputTask.outcome : OutputTask → Option IncidentOutputShutdown
  | .returned => some .drained
  | .aborted _ => some .timedOut
  | _ => none

def working {B X : Type} (bk : IncidentOutputBackend B X) : Recorder (OutputWorker B) (OutputEvent X) (OutputNote X) where
  step := fun w event => (w.handle bk event).1
  note := fun w event log => (w.handle bk event).2 ++ log

/-! ### What a step can do -/

section
variable {B X : Type} {bk : IncidentOutputBackend B X} {w w' : OutputWorker B} {log notes : List (OutputNote X)}

/-- The jobs that were accepted, handled and discarded, the newest first. -/
def acceptedOf (log : List (OutputNote X)) : List IncidentWriteJob :=
  log.filterMap fun | .accepted job => some job | _ => none

def handledOf (log : List (OutputNote X)) : List IncidentWriteJob :=
  log.filterMap fun | .handled _ job _ => some job | _ => none

def discardedOf (log : List (OutputNote X)) : List IncidentWriteJob :=
  log.filterMap fun | .discarded job => some job | _ => none

/-- The task is still there. -/
def OutputTask.live : OutputTask → Bool
  | .returned | .aborted _ => false
  | _ => true

/-- The steps of the worker. -/
inductive Moves (bk : IncidentOutputBackend B X) (w : OutputWorker B) : OutputWorker B → List (OutputNote X) → Prop where
  | told (handles shutdown : Bool) (stays : w.shutdown = true → shutdown = true) : Moves bk w { w with handles, shutdown } []
  | accepts (job : IncidentWriteJob) (isOpen : w.receiverClosed = false) (room : w.queue.length < incidentOutputQueueCapacity) :
      Moves bk w { w with queue := w.queue ++ [job] } [.accepted job]
  | refuses (job : IncidentWriteJob) (error : IncidentOutputSubmitError) (code : String) :
      Moves bk w { w with health := w.health.update code true } [.refused job error]
  | closes (selecting : w.task = .selecting) (shutdown : w.shutdown = true) :
      Moves bk w { w with task := .draining, receiverClosed := true } []
  | takes {job : IncidentWriteJob} {rest : List IncidentWriteJob} (draining : Bool)
      (idle : w.task = if draining then .draining else .selecting) (queue : w.queue = job :: rest) :
      Moves bk w { w with queue := rest, task := .processing job draining } []
  | returns (idle : w.task = .draining ∨ w.task = .selecting ∧ w.handles = false) (queue : w.queue = []) : Moves bk w w.returns []
  | handles {job : IncidentWriteJob} {draining : Bool} (x : X) (processing : w.task = .processing job draining) :
      Moves bk w { (w.process bk x job).1 with
        health := w.health.replied (w.process bk x job).2.1
        task := if draining then .draining else .selecting } [.handled (w.process bk x job).2.2 job (w.process bk x job).2.1]
  | handlesLate {job : IncidentWriteJob} (x : X) (aborted : w.task = .aborted (some job)) :
      Moves bk w { (w.process bk x job).1 with task := .aborted none } [.handled (w.process bk x job).2.2 job (w.process bk x job).2.1]
  | aborts (live : w.task.live = true) (shutdown : w.shutdown = true) :
      Moves bk w { w with
        queue := []
        receiverClosed := true
        task := .aborted w.inFlight
        health := w.health.update "OUTPUT_WORKER_FAILED" false } (w.queue.map .discarded).reverse

theorem Moves.same (bk : IncidentOutputBackend B X) (w : OutputWorker B) : Moves bk w w [] := .told w.handles w.shutdown id

theorem moves_poll (bk : IncidentOutputBackend B X) (w : OutputWorker B) : Moves bk w w.poll [] := by
  unfold OutputWorker.poll
  cases htask : w.task with
  | selecting =>
    dsimp only
    split
    case isTrue hshutdown => exact .closes htask hshutdown
    case isFalse =>
      cases hqueue : w.queue with
      | cons job rest => exact .takes false htask hqueue
      | nil =>
        dsimp only
        split
        case isTrue => exact .same bk w
        case isFalse hhandles => exact .returns (.inr ⟨htask, Bool.not_eq_true _ ▸ hhandles⟩) hqueue
  | draining =>
    dsimp only
    cases hqueue : w.queue with
    | cons job rest => exact .takes true htask hqueue
    | nil => exact .returns (.inl htask) hqueue
  | processing job draining => exact .same bk w
  | returned => exact .same bk w
  | aborted job => exact .same bk w

/-- The closure has to do with the backend alone. -/
theorem process_fst (bk : IncidentOutputBackend B X) (w : OutputWorker B) (x : X) (job : IncidentWriteJob) :
    ∃ backend poisoned, (w.process bk x job).1 = { w with backend, poisoned } := by
  rw [OutputWorker.process]
  split
  · exact ⟨w.backend, w.poisoned, rfl⟩
  · exact ⟨_, _, rfl⟩

theorem moves_finish (bk : IncidentOutputBackend B X) (w : OutputWorker B) (x : X) : Moves bk w (w.finish bk x).1 (w.finish bk x).2 := by
  have hhealth : ∀ job, (w.process bk x job).1.health = w.health := fun job => by
    obtain ⟨backend, poisoned, heq⟩ := process_fst bk w x job
    rw [heq]
  unfold OutputWorker.finish
  cases htask : w.task with
  | processing job draining =>
    dsimp only
    rw [hhealth]
    exact .handles x htask
  | aborted job =>
    cases job with
    | none => exact .same bk w
    | some job => exact .handlesLate x htask
  | selecting => exact .same bk w
  | draining => exact .same bk w
  | returned => exact .same bk w

theorem moves_timeout (bk : IncidentOutputBackend B X) (w : OutputWorker B) : Moves bk w (w.timeout (X := X)).1 w.timeout.2 := by
  have hlive : w.task.live = true → w.timeout = (if w.shutdown then ({ w with
      queue := []
      receiverClosed := true
      task := .aborted w.inFlight
      health := w.health.update "OUTPUT_WORKER_FAILED" false }, ((w.queue.map .discarded).reverse : List (OutputNote X))) else (w, [])) := by
    intro h
    unfold OutputWorker.timeout
    cases htask : w.task <;> first | rfl | (rw [htask] at h; cases h)
  cases h : w.task.live with
  | true =>
    rw [hlive h]
    split
    case isTrue hshutdown => exact .aborts h hshutdown
    case isFalse => exact .same bk w
  | false =>
    have hsame : (w.timeout : OutputWorker B × List (OutputNote X)) = (w, []) := by
      unfold OutputWorker.timeout
      cases htask : w.task <;> first | rfl | (rw [htask] at h; cases h)
    rw [hsame]
    exact .same bk w

theorem moves (bk : IncidentOutputBackend B X) (w : OutputWorker B) (event : OutputEvent X) :
    Moves bk w (w.handle bk event).1 (w.handle bk event).2 := by
  cases event with
  | trySubmit job =>
    rw [OutputWorker.handle]
    split
    case isTrue =>
      rw [OutputWorker.trySubmit]
      split
      case isTrue => exact .refuses job .closed _
      case isFalse hopen =>
        split
        case isTrue => exact .refuses job .queueFull _
        case isFalse hroom => exact .accepts job (Bool.not_eq_true _ ▸ hopen) (Nat.not_le.mp hroom)
    case isFalse => exact .same bk w
  | dropHandles => exact .told false w.shutdown id
  | signal => exact .told w.handles true fun _ => rfl
  | poll => exact moves_poll bk w
  | finish x => exact moves_finish bk w x
  | timeout => exact moves_timeout bk w

/-! ### Conservation -/

/-- Where the accepted jobs are, and what goes with the state of the task. -/
structure Conserved (w : OutputWorker B) (log : List (OutputNote X)) : Prop where
  jobs : acceptedOf log = discardedOf log ++ (w.queue.reverse ++ (w.inFlight.toList ++ handledOf log))
  room : w.queue.length ≤ incidentOutputQueueCapacity
  isOpen : w.receiverClosed = false → w.task.live = true
  drained : w.task.live = false → w.queue = []
  discarded : discardedOf log ≠ [] → ∃ job, w.task = .aborted job
  closed : w.task = .draining ∨ (∃ job, w.task = .processing job true) → w.receiverClosed = true

theorem Conserved.undiscarded (h : Conserved w log) (hlive : w.task.live = true) : discardedOf log = [] := by
  by_contra hne
  obtain ⟨job, htask⟩ := h.discarded hne
  rw [htask] at hlive
  cases hlive

theorem conserved_start (backend : B) (health : OutputHealth) : Conserved (OutputWorker.start backend health) ([] : List (OutputNote X)) where
  jobs := rfl
  room := Nat.zero_le _
  isOpen _ := rfl
  drained _ := rfl
  discarded h := absurd rfl h
  closed h := by
    rcases h with h | ⟨job, h⟩ <;> cases h

theorem notes_of_discarded (jobs : List IncidentWriteJob) (log : List (OutputNote X)) :
    acceptedOf ((jobs.map .discarded).reverse ++ log) = acceptedOf log ∧
      handledOf ((jobs.map .discarded).reverse ++ log) = handledOf log ∧
      discardedOf ((jobs.map .discarded).reverse ++ log) = jobs.reverse ++ discardedOf log := by
  rw [← List.map_reverse]
  generalize jobs.reverse = jobs
  induction jobs with
  | nil => exact ⟨rfl, rfl, rfl⟩
  | cons job rest ih => exact ⟨ih.1, ih.2.1, congrArg (job :: ·) ih.2.2⟩

theorem Conserved.moves (h : Conserved w log) (hmoves : Moves bk w w' notes) : Conserved w' (notes ++ log) := by
  cases hmoves with
  | told handles shutdown stays => exact ⟨h.jobs, h.room, h.isOpen, h.drained, h.discarded, h.closed⟩
  | accepts job isOpen room =>
    have hnone := h.undiscarded (h.isOpen isOpen)
    refine ⟨?_, ?_, h.isOpen, fun hdead => ?_, h.discarded, h.closed⟩
    · show job :: acceptedOf log = discardedOf log ++ ((w.queue ++ [job]).reverse ++ (w.inFlight.toList ++ handledOf log))
      rw [h.jobs, hnone, List.reverse_append]
      rfl
    · show (w.queue ++ [job]).length ≤ _
      rw [List.length_append]
      exact room
    · rw [h.isOpen isOpen] at hdead
      cases hdead
  | refuses job error code => exact ⟨h.jobs, h.room, h.isOpen, h.drained, h.discarded, h.closed⟩
  | closes selecting shutdown =>
    refine ⟨?_, h.room, fun _ => rfl, fun hdead => (by cases hdead), fun hne => ?_, fun _ => rfl⟩
    · have hjobs := h.jobs
      rw [OutputWorker.inFlight, selecting] at hjobs
      exact hjobs
    · exact absurd (h.undiscarded (by rw [selecting]; rfl)) hne
  | @takes job rest draining idle queue =>
    have hlive : w.task.live = true := by
      rw [idle]
      cases draining <;> rfl
    have hidle : w.inFlight = none := by
      rw [OutputWorker.inFlight, idle]
      cases draining <;> rfl
    refine ⟨?_, ?_, fun _ => rfl, fun hdead => (by cases hdead), fun hne => absurd (h.undiscarded hlive) hne, fun hclosed => ?_⟩
    · have hjobs := h.jobs
      rw [queue, hidle, List.reverse_cons, List.append_assoc] at hjobs
      exact hjobs
    · have hroom := h.room
      rw [queue, List.length_cons] at hroom
      exact (Nat.le_succ _).trans hroom
    · rcases hclosed with hclosed | ⟨_, hclosed⟩ <;> cases hclosed
      exact h.closed (.inl idle)
  | returns idle queue =>
    have hidle : w.inFlight = none ∧ w.task.live = true := by
      rcases idle with htask | ⟨htask, -⟩ <;> (rw [OutputWorker.inFlight, htask]; exact ⟨rfl, rfl⟩)
    refine ⟨?_, h.room, fun hopen => (by cases hopen), fun _ => queue, fun hne => absurd (h.undiscarded hidle.2) hne, fun _ => rfl⟩
    have hjobs := h.jobs
    rw [hidle.1] at hjobs
    exact hjobs
  | @handles job draining x processing =>
    obtain ⟨backend, poisoned, heq⟩ := process_fst bk w x job
    have hlive : w.task.live = true := by rw [processing]; rfl
    have hbusy : w.inFlight = some job := by rw [OutputWorker.inFlight, processing]
    rw [heq]
    refine ⟨?_, h.room, fun _ => ?_, fun hdead => ?_, fun hne => absurd (h.undiscarded hlive) hne, fun hclosed => ?_⟩
    · have hjobs := h.jobs
      rw [hbusy] at hjobs
      show acceptedOf log = discardedOf log ++ (w.queue.reverse ++ (_ ++ job :: handledOf log))
      rw [hjobs]
      cases draining <;> rfl
    · cases draining <;> rfl
    · cases draining <;> cases hdead
    · cases draining with
      | true => exact h.closed (.inr ⟨job, processing⟩)
      | false => rcases hclosed with hclosed | ⟨_, hclosed⟩ <;> cases hclosed
  | @handlesLate job x aborted =>
    obtain ⟨backend, poisoned, heq⟩ := process_fst bk w x job
    have hdead : w.task.live = false := by rw [aborted]; rfl
    have hbusy : w.inFlight = some job := by rw [OutputWorker.inFlight, aborted]
    rw [heq]
    refine ⟨?_, h.room, fun hopen => ?_, fun _ => h.drained hdead, fun _ => ⟨none, rfl⟩, fun hclosed => ?_⟩
    · have hjobs := h.jobs
      rw [hbusy] at hjobs
      exact hjobs
    · rw [h.isOpen hopen] at hdead
      cases hdead
    · rcases hclosed with hclosed | ⟨_, hclosed⟩ <;> cases hclosed
  | aborts live shutdown =>
    obtain ⟨haccepted, hhandled, hdiscarded⟩ := notes_of_discarded w.queue log
    refine ⟨?_, Nat.zero_le _, fun hopen => (by cases hopen), fun _ => rfl, fun _ => ⟨w.inFlight, rfl⟩, fun hclosed => ?_⟩
    · rw [haccepted, hhandled, hdiscarded, h.jobs, h.undiscarded live, List.append_nil]
      rfl
    · rcases hclosed with hclosed | ⟨_, hclosed⟩ <;> cases hclosed

theorem conserved_run (bk : IncidentOutputBackend B X) (backend : B) (health : OutputHealth) (events : List (OutputEvent X)) :
    Conserved ((working bk).run (.start backend health, []) events).1 ((working bk).run (.start backend health, []) events).2 :=
  (working bk).run_invariant Conserved (fun w _ event h => h.moves (moves bk w event)) (.start backend health, []) events
    (conserved_start backend health)

/-- The jobs that handles offered, the oldest first. -/
def submitted (events : List (OutputEvent X)) : List IncidentWriteJob :=
  events.filterMap fun | .trySubmit job => some job | _ => none

/-- A step accepts no other job than the one that is submitted to it. -/
theorem acceptedOf_step (w : OutputWorker B) (event : OutputEvent X) (log : List (OutputNote X)) :
    acceptedOf ((working bk).note w event log) = acceptedOf log ∨
      ∃ job, event = .trySubmit job ∧ acceptedOf ((working bk).note w event log) = job :: acceptedOf log := by
  show acceptedOf ((w.handle bk event).2 ++ log) = _ ∨ ∃ job, _ ∧ acceptedOf ((w.handle bk event).2 ++ log) = _
  cases event with
  | trySubmit job =>
    rw [OutputWorker.handle, OutputWorker.trySubmit]
    split
    · split
      · exact .inl rfl
      · split
        · exact .inl rfl
        · exact .inr ⟨job, rfl, rfl⟩
    · exact .inl rfl
  | dropHandles => exact .inl rfl
  | signal => exact .inl rfl
  | poll => exact .inl rfl
  | finish x =>
    left
    rw [OutputWorker.handle, OutputWorker.finish]
    cases w.task with
    | aborted job => cases job <;> rfl
    | _ => rfl
  | timeout =>
    left
    have hdiscards := (notes_of_discarded w.queue log).1
    rw [OutputWorker.handle, OutputWorker.timeout]
    cases w.task <;> first
      | rfl
      | (dsimp only; split <;> first | exact hdiscards | rfl)

theorem accepted_submitted (bk : IncidentOutputBackend B X) (w : OutputWorker B) (log : List (OutputNote X)) (events : List (OutputEvent X)) :
    ∃ accepted, accepted.Sublist (submitted events) ∧
      (acceptedOf ((working bk).run (w, log) events).2).reverse = (acceptedOf log).reverse ++ accepted := by
  induction events generalizing w log with
  | nil => exact ⟨[], .slnil, (List.append_nil _).symm⟩
  | cons event rest ih =>
    obtain ⟨accepted, hsublist, hrest⟩ := ih ((working bk).step w event) ((working bk).note w event log)
    rw [show (working bk).run (w, log) (event :: rest) = (working bk).run ((working bk).step w event, (working bk).note w event log) rest
      from rfl, hrest]
    rcases acceptedOf_step w event log with hsame | ⟨job, rfl, hone⟩
    · rw [hsame]
      refine ⟨accepted, hsublist.trans ?_, rfl⟩
      rw [submitted, submitted, List.filterMap_cons]
      split
      · exact List.Sublist.refl _
      · exact List.sublist_cons_self _ _
    · rw [hone, List.reverse_cons, List.append_assoc]
      exact ⟨job :: accepted, hsublist.cons_cons _, rfl⟩

/-- The jobs in the order in which they came. -/
theorem Conserved.order {w : OutputWorker B} {log : List (OutputNote X)} (h : Conserved w log) :
    (acceptedOf log).reverse = (handledOf log).reverse ++ (w.inFlight.toList ++ (w.queue ++ (discardedOf log).reverse)) := by
  rw [h.jobs, List.reverse_append, List.reverse_append, List.reverse_append, List.reverse_reverse]
  cases w.inFlight <;> simp

theorem Conserved.handled_all {w : OutputWorker B} {log : List (OutputNote X)} (h : Conserved w log)
    (hdrained : w.task.outcome = some .drained) : handledOf log = acceptedOf log := by
  cases htask : w.task <;> rw [htask] at hdrained <;> cases hdrained
  have hnone : discardedOf log = [] := by
    by_contra hne
    obtain ⟨job, haborted⟩ := h.discarded hne
    rw [htask] at haborted
    cases haborted
  have hjobs := h.jobs
  rw [hnone, h.drained (by rw [htask]; rfl), OutputWorker.inFlight, htask] at hjobs
  exact hjobs.symm

/-- **No accepted job is lost, handled twice or overtaken**, in whatever order handles, task, thread
and shutdown move: what was accepted has been handled, is with the thread, waits in the queue, or
was discarded by a timeout, in the order in which it came. A drained worker has handled it all. -/
theorem jobs_conserved (bk : IncidentOutputBackend B X) (backend : B) (health : OutputHealth) (events : List (OutputEvent X)) :
    let c := (working bk).run (.start backend health, []) events
    (acceptedOf c.2).reverse = (handledOf c.2).reverse ++ (c.1.inFlight.toList ++ (c.1.queue ++ (discardedOf c.2).reverse)) ∧
      c.1.queue.length ≤ incidentOutputQueueCapacity ∧
      (acceptedOf c.2).reverse.Sublist (submitted events) ∧
      (c.1.task.outcome = some .drained → handledOf c.2 = acceptedOf c.2) ∧
      (discardedOf c.2 ≠ [] → c.1.task.outcome = some .timedOut) := by
  intro c
  have h : Conserved c.1 c.2 := conserved_run bk backend health events
  obtain ⟨accepted, hsublist, haccepted⟩ := accepted_submitted bk (.start backend health) [] events
  refine ⟨h.order, h.room, haccepted ▸ hsublist, h.handled_all, fun hne => ?_⟩
  obtain ⟨job, haborted⟩ := h.discarded hne
  rw [haborted]
  rfl

/-! ### The reported health -/

/-- The job was refused, or was not stored. -/
def OutputNote.failed : OutputNote X → Bool
  | .accepted _ => false
  | .refused _ _ => true
  | .handled _ _ (some (.ok _, _)) => false
  | .handled _ _ _ => true
  | .discarded _ => true

def refusedOf (log : List (OutputNote X)) : List IncidentWriteJob :=
  log.filterMap fun | .refused job _ => some job | _ => none

/-- Nothing has gone wrong so far. -/
def Unharmed (w : OutputWorker B) (log : List (OutputNote X)) : Prop :=
  (∀ note ∈ log, note.failed = false) ∧ w.task.outcome ≠ some .timedOut

/-- The health is as at the start as long as nothing has gone wrong, and no longer. -/
structure Truthful (initial : OutputHealth) (w : OutputWorker B) (log : List (OutputNote X)) : Prop where
  healthy : w.health.state = .healthy ↔ initial.state = .healthy ∧ Unharmed w log
  available : w.health.storeAvailable = true ↔ initial.storeAvailable = true ∧ Unharmed w log
  dropped : w.health.droppedJobCount = min (initial.droppedJobCount + (refusedOf log).length) (u64Bound - 1)
  objects : (w.health.corruptObjectCount, w.health.incompleteObjectCount, w.health.unknownObjectCount) =
    (initial.corruptObjectCount, initial.incompleteObjectCount, initial.unknownObjectCount)

section
variable {initial : OutputHealth}

theorem Truthful.unmoved (h : Truthful initial w log) (hhealth : w'.health = w.health)
    (hunharmed : Unharmed w' (notes ++ log) ↔ Unharmed w log) (hrefused : refusedOf (notes ++ log) = refusedOf log) :
    Truthful initial w' (notes ++ log) :=
  ⟨by rw [hhealth, hunharmed]; exact h.healthy, by rw [hhealth, hunharmed]; exact h.available,
    by rw [hhealth, hrefused]; exact h.dropped, hhealth ▸ h.objects⟩

/-- An update of the health, after something has gone wrong. -/
theorem Truthful.updated (h : Truthful initial w log) {code : String} (dropped : Bool) (hhealth : ∃ sink, w'.health =
    { w.health with alertSink := sink }.update code dropped) (hharmed : ¬Unharmed w' (notes ++ log))
    (hrefused : (refusedOf (notes ++ log)).length = (refusedOf log).length + if dropped then 1 else 0) :
    Truthful initial w' (notes ++ log) := by
  obtain ⟨sink, hhealth⟩ := hhealth
  refine ⟨?_, ?_, ?_, by rw [hhealth]; exact h.objects⟩
  · rw [hhealth]
    exact ⟨fun hstate => (by cases hstate), fun hboth => absurd hboth.2 hharmed⟩
  · rw [hhealth]
    exact ⟨fun hstate => (by cases hstate), fun hboth => absurd hboth.2 hharmed⟩
  · have hdropped := h.dropped
    rw [hhealth, hrefused]
    show (if dropped then saturatingAdd w.health.droppedJobCount 1 else w.health.droppedJobCount) = _
    rw [saturatingAdd, hdropped]
    cases dropped
    · rfl
    · simp only [if_true]
      omega

theorem unharmed_cons {note : OutputNote X} (hnote : note.failed = false) (htask : w'.task.outcome ≠ some .timedOut)
    (hbefore : w.task.outcome ≠ some .timedOut) : Unharmed w' ([note] ++ log) ↔ Unharmed w log := by
  rw [Unharmed, Unharmed, List.singleton_append, List.forall_mem_cons]
  tauto

theorem not_unharmed_cons {note : OutputNote X} (hnote : note.failed = true) : ¬Unharmed w' ([note] ++ log) := fun h => by
  rw [h.1 note List.mem_cons_self] at hnote
  cases hnote

theorem Truthful.moves (h : Truthful initial w log) (hmoves : Moves bk w w' notes) : Truthful initial w' (notes ++ log) := by
  cases hmoves with
  | told handles shutdown stays => exact h.unmoved rfl Iff.rfl rfl
  | accepts job isOpen room =>
    refine h.unmoved rfl ?_ rfl
    show (∀ note ∈ OutputNote.accepted job :: log, note.failed = false) ∧ _ ↔ _
    rw [List.forall_mem_cons]
    exact ⟨fun hall => ⟨hall.1.2, hall.2⟩, fun hall => ⟨⟨rfl, hall.1⟩, hall.2⟩⟩
  | refuses job error code => exact h.updated true ⟨w.health.alertSink, rfl⟩ (not_unharmed_cons rfl) rfl
  | closes selecting shutdown =>
    refine h.unmoved rfl ?_ rfl
    rw [Unharmed, Unharmed, selecting]
    exact ⟨fun hall => ⟨hall.1, fun hno => by cases hno⟩, fun hall => ⟨hall.1, fun hno => by cases hno⟩⟩
  | @takes job rest draining idle queue =>
    refine h.unmoved rfl ?_ rfl
    rw [Unharmed, Unharmed, idle]
    cases draining <;> exact ⟨fun hall => ⟨hall.1, fun hno => by cases hno⟩, fun hall => ⟨hall.1, fun hno => by cases hno⟩⟩
  | returns idle queue =>
    refine h.unmoved rfl ?_ rfl
    rw [Unharmed, Unharmed]
    rcases idle with htask | ⟨htask, -⟩ <;>
      (rw [htask]; exact ⟨fun hall => ⟨hall.1, fun hno => by cases hno⟩, fun hall => ⟨hall.1, fun hno => by cases hno⟩⟩)
  | @handles job draining x processing =>
    have hlive : ∀ draining, (if draining = true then OutputTask.draining else .selecting).outcome ≠ some .timedOut := fun draining hno => by
      cases draining <;> cases hno
    have hbefore : w.task.outcome ≠ some .timedOut := fun hno => by
      rw [processing] at hno
      cases hno
    generalize hreply : (w.process bk x job).2.1 = reply
    match reply, hreply with
    | some (.ok _, sink), _ =>
      have hsame : Unharmed { (w.process bk x job).1 with
          health := w.health.replied (some (.ok (), sink)), task := if draining then .draining else .selecting }
          ([.handled (w.process bk x job).2.2 job (some (.ok (), sink))] ++ log) ↔ Unharmed w log :=
        unharmed_cons rfl (hlive draining) hbefore
      exact ⟨h.healthy.trans (and_congr_right fun _ => hsame.symm), h.available.trans (and_congr_right fun _ => hsame.symm),
        h.dropped, h.objects⟩
    | some (.error _, sink), _ => exact h.updated false ⟨sink, rfl⟩ (not_unharmed_cons rfl) rfl
    | none, _ => exact h.updated false ⟨w.health.alertSink, rfl⟩ (not_unharmed_cons rfl) rfl
  | @handlesLate job x aborted =>
    obtain ⟨backend, poisoned, heq⟩ := process_fst bk w x job
    rw [heq]
    refine h.unmoved rfl ?_ rfl
    rw [Unharmed, Unharmed, aborted]
    exact ⟨fun hall => absurd rfl hall.2, fun hall => absurd rfl hall.2⟩
  | aborts live shutdown =>
    refine h.updated false ⟨w.health.alertSink, rfl⟩ (fun hall => absurd rfl hall.2) ?_
    have hnone : refusedOf ((w.queue.map .discarded).reverse ++ log) = refusedOf log := by
      rw [← List.map_reverse]
      generalize w.queue.reverse = jobs
      induction jobs with
      | nil => rfl
      | cons job rest ih => exact ih
    rw [hnone]
    rfl

/-- **The health does not hide a failure and does not make one up.** In every state of every run
it is healthy exactly if it was at the start, every job so far was accepted, every handled one was
stored and no timeout has ended the worker; and it counts the jobs that were refused. -/
theorem health_truthful (bk : IncidentOutputBackend B X) (backend : B) (initial : OutputHealth)
    (hwidth : initial.droppedJobCount < u64Bound) (events : List (OutputEvent X)) :
    let c := (working bk).run (.start backend initial, []) events
    (c.1.health.state = .healthy ↔ initial.state = .healthy ∧ Unharmed c.1 c.2) ∧
      (c.1.health.storeAvailable = true ↔ initial.storeAvailable = true ∧ Unharmed c.1 c.2) ∧
      c.1.health.droppedJobCount = min (initial.droppedJobCount + (refusedOf c.2).length) (u64Bound - 1) := by
  intro c
  have hnothing : Unharmed (OutputWorker.start backend initial) ([] : List (OutputNote X)) :=
    ⟨fun _ hmem => absurd hmem List.not_mem_nil, fun hno => by cases hno⟩
  have hstart : Truthful initial (OutputWorker.start backend initial) ([] : List (OutputNote X)) := by
    refine ⟨⟨fun h => ⟨h, hnothing⟩, And.left⟩, ⟨fun h => ⟨h, hnothing⟩, And.left⟩, ?_, rfl⟩
    show initial.droppedJobCount = min (initial.droppedJobCount + 0) (u64Bound - 1)
    omega
  have h : Truthful initial c.1 c.2 := (working bk).run_invariant (Truthful initial)
    (fun w _ event h => h.moves (moves bk w event)) (.start backend initial, []) events hstart
  exact ⟨h.healthy, h.available, h.dropped⟩

/-- `UnavailableIncidentOutputBackend`. -/
def unavailableIncidentOutputBackend : IncidentOutputBackend Unit Unit where
  persist _ _ _ := (some (.error .storeUnavailable), ())
  alert _ _ _ _ := (some .stderrJson, ())

theorem unavailable_degrades :
    let c := (working unavailableIncidentOutputBackend).run (.start () .initial, [])
      [.trySubmit (sampleRevision 5 1 1000 none), .poll, .finish ()]
    c.1.health.state ≠ .healthy := by
  intro c
  rw [Ne, (health_truthful unavailableIncidentOutputBackend () .initial (by decide) _).1]
  rintro ⟨-, hunharmed, -⟩
  exact absurd (hunharmed _ List.mem_cons_self) (by decide)

end

/-! ### Shutdown -/

/-- How many effective polls and closure ends a task that was told to shut down needs at most. -/
def OutputWorker.remaining (w : OutputWorker B) : Nat :=
  match w.task with
  | .selecting => 2 * incidentOutputQueueCapacity + 3
  | .processing _ false => 2 * incidentOutputQueueCapacity + 4
  | .draining => 2 * w.queue.length + 1
  | .processing _ true => 2 * w.queue.length + 2
  | .returned => 0
  | .aborted _ => 0

/-- The thread has a job. -/
def OutputTask.busy : OutputTask → Bool
  | .processing _ _ => true
  | _ => false

/-- A worker on its way to return. -/
structure Ending (w : OutputWorker B) : Prop where
  shutdown : w.shutdown = true
  room : w.queue.length ≤ incidentOutputQueueCapacity
  closed : w.task = .draining ∨ (∃ job, w.task = .processing job true) → w.receiverClosed = true
  notAborted : w.task.outcome ≠ some .timedOut

/-- A step that is not the timeout brings the end no farther away; a poll of a task that has no
job with the thread, and the end of the closure of one that has, bring it nearer. -/
structure Nears (w w' : OutputWorker B) (event : OutputEvent X) : Prop where
  ending : Ending w'
  le : w'.remaining ≤ w.remaining
  poll : event = .poll → w.task.busy = false → 0 < w.remaining → w'.remaining < w.remaining
  finish : ∀ x, event = .finish x → w.task.busy = true → w'.remaining < w.remaining

theorem Nears.same (h : Ending w) {event : OutputEvent X} (hpoll : event = .poll → w.task.busy = false → w.remaining = 0)
    (hfinish : ∀ x, event = .finish x → w.task.busy = false) : Nears w w event :=
  ⟨h, le_rfl, fun heq hidle hpos => absurd (hpoll heq hidle) hpos.ne', fun x heq hbusy => by
    rw [hfinish x heq] at hbusy
    cases hbusy⟩

theorem nears_poll (h : Ending w) : Nears w w.poll (.poll : OutputEvent X) := by
  have hroom := h.room
  unfold OutputWorker.poll
  cases htask : w.task with
  | selecting =>
    dsimp only
    rw [if_pos h.shutdown]
    have hless : 2 * w.queue.length + 1 < w.remaining := by
      rw [OutputWorker.remaining, htask]
      dsimp only
      omega
    exact ⟨⟨h.shutdown, hroom, fun _ => rfl, fun hno => by cases hno⟩, hless.le, fun _ _ _ => hless, fun x heq => by cases heq⟩
  | draining =>
    dsimp only
    cases hqueue : w.queue with
    | cons job rest =>
      rw [hqueue, List.length_cons] at hroom
      have hless : 2 * rest.length + 2 < w.remaining := by
        rw [OutputWorker.remaining, htask, hqueue, List.length_cons]
        dsimp only
        omega
      exact ⟨⟨h.shutdown, (Nat.le_succ _).trans hroom, fun _ => h.closed (.inl htask), fun hno => by cases hno⟩, hless.le,
        fun _ _ _ => hless, fun x heq => by cases heq⟩
    | nil =>
      have hless : 0 < w.remaining := by
        rw [OutputWorker.remaining, htask]
        exact Nat.succ_pos _
      exact ⟨⟨h.shutdown, h.room, fun _ => rfl, fun hno => by cases hno⟩, hless.le, fun _ _ _ => hless, fun x heq => by cases heq⟩
  | processing job draining =>
    refine .same h (fun _ hidle => ?_) fun x heq => (by cases heq)
    rw [htask] at hidle
    cases hidle
  | returned =>
    refine .same h (fun _ _ => ?_) fun x heq => (by cases heq)
    rw [OutputWorker.remaining, htask]
  | aborted job =>
    have hno := h.notAborted
    rw [htask] at hno
    exact absurd rfl hno

theorem nears_finish (h : Ending w) (bk : IncidentOutputBackend B X) (x : X) : Nears w (w.finish bk x).1 (.finish x) := by
  unfold OutputWorker.finish
  cases htask : w.task with
  | processing job draining =>
    dsimp only
    obtain ⟨backend, poisoned, heq⟩ := process_fst bk w x job
    rw [heq]
    cases draining with
    | true =>
      have hless : 2 * w.queue.length + 1 < w.remaining := by
        rw [OutputWorker.remaining, htask]
        exact Nat.lt_succ_self _
      exact ⟨⟨h.shutdown, h.room, fun _ => h.closed (.inr ⟨job, htask⟩), fun hno => by cases hno⟩, hless.le, fun heq => (by cases heq),
        fun _ _ _ => hless⟩
    | false =>
      have hless : 2 * incidentOutputQueueCapacity + 3 < w.remaining := by
        rw [OutputWorker.remaining, htask]
        exact Nat.lt_succ_self _
      refine ⟨⟨h.shutdown, h.room, fun hclosed => ?_, fun hno => by cases hno⟩, hless.le, fun heq => (by cases heq), fun _ _ _ => hless⟩
      rcases hclosed with hclosed | ⟨_, hclosed⟩ <;> cases hclosed
  | aborted job =>
    have hno := h.notAborted
    rw [htask] at hno
    exact absurd rfl hno
  | selecting => exact .same h (fun heq => by cases heq) fun _ _ => by rw [htask]; rfl
  | draining => exact .same h (fun heq => by cases heq) fun _ _ => by rw [htask]; rfl
  | returned => exact .same h (fun heq => by cases heq) fun _ _ => by rw [htask]; rfl

theorem nears (h : Ending w) (bk : IncidentOutputBackend B X) {event : OutputEvent X} (hevent : event ≠ .timeout) :
    Nears w (w.handle bk event).1 event := by
  cases event with
  | trySubmit job =>
    have hsame : ∀ w' : OutputWorker B, Ending w' → w'.remaining = w.remaining → Nears w w' (.trySubmit job : OutputEvent X) :=
      fun w' hending heq => ⟨hending, heq.le, fun heq => (by cases heq), fun x heq => by cases heq⟩
    rw [OutputWorker.handle]
    split
    case isFalse => exact hsame w h rfl
    case isTrue =>
      rw [OutputWorker.trySubmit]
      split
      case isTrue => exact hsame _ ⟨h.shutdown, h.room, h.closed, h.notAborted⟩ rfl
      case isFalse hopen =>
        split
        case isTrue => exact hsame _ ⟨h.shutdown, h.room, h.closed, h.notAborted⟩ rfl
        case isFalse hroom =>
          refine hsame _ ⟨h.shutdown, ?_, h.closed, h.notAborted⟩ ?_
          · show (w.queue ++ [job]).length ≤ _
            rw [List.length_append]
            exact Nat.not_le.mp hroom
          · -- the receiver is open, so what remains does not count the queue
            have hclosed := mt h.closed hopen
            rw [not_or, not_exists] at hclosed
            unfold OutputWorker.remaining
            cases htask : w.task with
            | draining => exact absurd htask hclosed.1
            | processing job draining =>
              cases draining with
              | true => exact absurd htask (hclosed.2 job)
              | false => rfl
            | _ => rfl
  | dropHandles =>
    exact ⟨⟨h.shutdown, h.room, h.closed, h.notAborted⟩, le_rfl, fun heq => (by cases heq), fun x heq => by cases heq⟩
  | signal => exact ⟨⟨rfl, h.room, h.closed, h.notAborted⟩, le_rfl, fun heq => (by cases heq), fun x heq => by cases heq⟩
  | poll => exact nears_poll h
  | finish x => exact nears_finish h bk x
  | timeout => exact absurd rfl hevent

/-- Without a timeout nothing gets farther away. -/
theorem nears_run (bk : IncidentOutputBackend B X) (events : List (OutputEvent X)) (hevents : .timeout ∉ events)
    {c : OutputWorker B × List (OutputNote X)} (h : Ending c.1) :
    Ending ((working bk).run c events).1 ∧ ((working bk).run c events).1.remaining ≤ c.1.remaining := by
  induction events generalizing c with
  | nil =>
    rw [Recorder.run_nil]
    exact ⟨h, le_rfl⟩
  | cons event rest ih =>
    rw [List.mem_cons, not_or] at hevents
    have hfirst := nears h bk (Ne.symm hevents.1)
    obtain ⟨hending, hle⟩ := ih hevents.2 (c := ((working bk).step c.1 event, (working bk).note c.1 event c.2)) hfirst.ending
    exact ⟨hending, hle.trans hfirst.le⟩

/-- Only a poll gives the thread a job. -/
theorem idle_stays (h : w.task.busy = false) {event : OutputEvent X} (hevent : event ≠ .poll) : (w.handle bk event).1.task.busy = false := by
  cases event with
  | trySubmit job =>
    rw [OutputWorker.handle, OutputWorker.trySubmit]
    split
    · split
      · exact h
      · split
        · exact h
        · exact h
    · exact h
  | dropHandles => exact h
  | signal => exact h
  | poll => exact absurd rfl hevent
  | finish x =>
    rw [OutputWorker.handle, OutputWorker.finish]
    cases htask : w.task with
    | processing job draining =>
      rw [htask] at h
      cases h
    | aborted job => cases job <;> first | rfl | exact h
    | _ => exact h
  | timeout =>
    rw [OutputWorker.handle, OutputWorker.timeout]
    cases htask : w.task <;> first
      | exact h
      | (dsimp only; split <;> first | rfl | exact h)

/-- The thread keeps its job until the closure ends. -/
theorem busy_stays (h : w.task.busy = true) {event : OutputEvent X} (hfinish : ∀ x, event ≠ .finish x) (htimeout : event ≠ .timeout) :
    (w.handle bk event).1.task.busy = true := by
  cases event with
  | trySubmit job =>
    rw [OutputWorker.handle, OutputWorker.trySubmit]
    split
    · split
      · exact h
      · split
        · exact h
        · exact h
    · exact h
  | dropHandles => exact h
  | signal => exact h
  | poll =>
    have hsame : w.poll = w := by
      unfold OutputWorker.poll
      cases htask : w.task <;> first
        | rfl
        | (rw [htask] at h; cases h)
    show w.poll.task.busy = true
    rwa [hsame]
  | finish x => exact absurd rfl (hfinish x)
  | timeout => exact absurd rfl htimeout

/-- A stretch with a poll and the end of a closure in it brings the end nearer. -/
theorem nears_stretch (bk : IncidentOutputBackend B X) (events : List (OutputEvent X)) (hevents : .timeout ∉ events)
    {c : OutputWorker B × List (OutputNote X)} (h : Ending c.1) (hpos : 0 < c.1.remaining)
    (heffective : c.1.task.busy = false ∧ .poll ∈ events ∨ c.1.task.busy = true ∧ ∃ x, .finish x ∈ events) :
    ((working bk).run c events).1.remaining < c.1.remaining := by
  induction events generalizing c with
  | nil => rcases heffective with ⟨-, hmem⟩ | ⟨-, x, hmem⟩ <;> exact absurd hmem List.not_mem_nil
  | cons event rest ih =>
    rw [List.mem_cons, not_or] at hevents
    have hfirst := nears h bk (Ne.symm hevents.1)
    have hrest := nears_run bk rest hevents.2 (c := ((working bk).step c.1 event, (working bk).note c.1 event c.2)) hfirst.ending
    show ((working bk).run ((working bk).step c.1 event, (working bk).note c.1 event c.2) rest).1.remaining < _
    by_cases hstrict : (c.1.handle bk event).1.remaining < c.1.remaining
    · exact hrest.2.trans_lt hstrict
    · -- the first event was not effective, so the effective one is still to come
      have hsame : (c.1.handle bk event).1.remaining = c.1.remaining := le_antisymm hfirst.le (Nat.not_lt.mp hstrict)
      have hnext := ih hevents.2 (c := ((working bk).step c.1 event, (working bk).note c.1 event c.2)) hfirst.ending
        (hsame ▸ hpos : 0 < (c.1.handle bk event).1.remaining) ?_
      · exact hnext.trans_le hfirst.le
      · rcases heffective with ⟨hidle, hmem⟩ | ⟨hbusy, x, hmem⟩
        · have hevent : event ≠ .poll := fun heq => hstrict (hfirst.poll heq hidle hpos)
          exact .inl ⟨idle_stays hidle hevent, (List.mem_cons.mp hmem).resolve_left (Ne.symm hevent)⟩
        · have hevent : ∀ x, event ≠ .finish x := fun x heq => hstrict (hfirst.finish x heq hbusy)
          exact .inr ⟨busy_stays hbusy hevent (Ne.symm hevents.1), x, (List.mem_cons.mp hmem).resolve_left (Ne.symm (hevent x))⟩

/-- The task is polled and the closure ends, and the time is not up. -/
structure Fair (events : List (OutputEvent X)) : Prop where
  poll : .poll ∈ events
  finish : ∃ x, .finish x ∈ events
  untimed : .timeout ∉ events

theorem nears_stretches (bk : IncidentOutputBackend B X) (stretches : List (List (OutputEvent X)))
    (hfair : ∀ events ∈ stretches, Fair events) {c : OutputWorker B × List (OutputNote X)} (h : Ending c.1) :
    Ending ((working bk).run c stretches.flatten).1 ∧
      ((working bk).run c stretches.flatten).1.remaining ≤ c.1.remaining - stretches.length := by
  induction stretches generalizing c with
  | nil =>
    rw [List.flatten_nil, Recorder.run_nil]
    exact ⟨h, le_rfl⟩
  | cons events rest ih =>
    obtain ⟨hfirst, hrest⟩ := List.forall_mem_cons.mp hfair
    obtain ⟨hending, hle⟩ := nears_run bk events hfirst.untimed h
    obtain ⟨hafter, hless⟩ := ih hrest hending
    rw [List.flatten_cons, Recorder.run_append, List.length_cons]
    refine ⟨hafter, ?_⟩
    rcases Nat.eq_zero_or_pos c.1.remaining with hzero | hpos
    · omega
    · have hstrict := nears_stretch bk events hfirst.untimed h hpos (by
        cases hbusy : c.1.task.busy with
        | false => exact .inl ⟨rfl, hfirst.poll⟩
        | true => exact .inr ⟨rfl, hfirst.finish⟩)
      omega

theorem remaining_le (h : Ending w) : w.remaining ≤ 2 * incidentOutputQueueCapacity + 4 := by
  have hroom := h.room
  unfold OutputWorker.remaining
  split <;> omega

/-- **A worker that is told to shut down returns, and has handled all it accepted**, as long as the
task is polled, the closures end and the time is not up; what else happens meanwhile does not
matter. -/
theorem shutdown_drains (bk : IncidentOutputBackend B X) (backend : B) (health : OutputHealth) (events : List (OutputEvent X))
    (stretches : List (List (OutputEvent X))) (hfair : ∀ stretch ∈ stretches, Fair stretch)
    (hlong : 2 * incidentOutputQueueCapacity + 4 ≤ stretches.length) :
    let c := (working bk).run (.start backend health, []) events
    let after := (working bk).run c stretches.flatten
    c.1.shutdown = true → c.1.task.outcome ≠ some .timedOut →
      after.1.task.outcome = some .drained ∧ handledOf after.2 = acceptedOf after.2 := by
  intro c after hshutdown htask
  have hconserved : Conserved c.1 c.2 := conserved_run bk backend health events
  have hending : Ending c.1 := ⟨hshutdown, hconserved.room, hconserved.closed, htask⟩
  obtain ⟨hafter, hremaining⟩ : Ending after.1 ∧ after.1.remaining ≤ c.1.remaining - stretches.length :=
    nears_stretches bk stretches hfair hending
  have hzero : after.1.remaining = 0 := by
    have hle := remaining_le hending
    omega
  have hdrained : after.1.task.outcome = some .drained := by
    have hnot := hafter.notAborted
    unfold OutputWorker.remaining at hzero
    cases htask : after.1.task with
    | returned => rfl
    | aborted job =>
      rw [htask] at hnot
      exact absurd rfl hnot
    | processing job draining =>
      rw [htask] at hzero
      cases draining <;> cases hzero
    | selecting =>
      rw [htask] at hzero
      cases hzero
    | draining =>
      rw [htask] at hzero
      cases hzero
  have hwhole : after = (working bk).run (.start backend health, []) (events ++ stretches.flatten) :=
    ((working bk).run_append _ _ _).symm
  refine ⟨hdrained, ?_⟩
  have hdone : Conserved after.1 after.2 := hwhole ▸ conserved_run bk backend health (events ++ stretches.flatten)
  exact hdone.handled_all hdrained

/-- Two jobs, the second one still in the queue when the signal comes. -/
theorem shutdown_drains_two :
    let c := (working unavailableIncidentOutputBackend).run (.start () .initial, [])
      [.trySubmit (sampleRevision 5 1 1000 none), .poll, .trySubmit (sampleRevision 5 2 1200 none), .signal]
    let after := (working unavailableIncidentOutputBackend).run c (List.replicate 68 [.poll, .finish ()]).flatten
    handledOf after.2 = acceptedOf after.2 := by
  intro c after
  refine (shutdown_drains unavailableIncidentOutputBackend () .initial
    [.trySubmit (sampleRevision 5 1 1000 none), .poll, .trySubmit (sampleRevision 5 2 1200 none), .signal]
    (List.replicate 68 [.poll, .finish ()]) (fun stretch hstretch => ?_) (by decide) rfl (fun hno => by cases hno)).2
  rw [List.eq_of_mem_replicate hstretch]
  exact ⟨List.mem_cons_self, ⟨(), List.mem_cons_of_mem _ List.mem_cons_self⟩, by simp⟩

end

/-! ### With the recorder before it and the store behind it -/

/-- `StoredIncidentOutputBackend`, with a store on a disk and a Linux sink. -/
def storedIncidentOutputBackend (F : Formats) :
    IncidentOutputBackend ((LinuxEvidenceStore × Disk) × LinuxAlertSink) (Persisting × AlertIo) where
  persist x b job :=
    let (persisted, s) := LinuxEvidenceStore.persistRevision F x.1 b.1 job
    (some persisted, s, b.2)
  alert x b job status :=
    let (outcome, sink, _) := b.2.publish x.2 (alertOf job status)
    (some (if outcome = some .journald then .journald else .stderrJson), b.1, sink)

section
variable {F : Formats} {s : LinuxEvidenceStore × Disk} {x : Persisting × AlertIo} {job : IncidentWriteJob}
  {w w' : OutputWorker ((LinuxEvidenceStore × Disk) × LinuxAlertSink)} {log notes : List (OutputNote (Persisting × AlertIo))}

/-- The calls that the store has had, the newest first. -/
def persistedOf (log : List (OutputNote (Persisting × AlertIo))) : List (Persisting × IncidentWriteJob) :=
  log.filterMap fun | .handled (some x) job _ => some (x.1, job) | _ => none

/-- The jobs that were handled and stored, the newest first. -/
def storedOf (log : List (OutputNote (Persisting × AlertIo))) : List IncidentWriteJob :=
  log.filterMap fun | .handled _ job (some (.ok _, _)) => some job | _ => none

/-- The worker's store is one that was given the handled jobs, one after the other. -/
structure Persists (F : Formats) (s : LinuxEvidenceStore × Disk) (w : OutputWorker ((LinuxEvidenceStore × Disk) × LinuxAlertSink))
    (log : List (OutputNote (Persisting × AlertIo))) : Prop where
  backend : w.backend.1 = ((persisting F).run (s, []) (persistedOf log).reverse).1
  stored : storedOf log = ((persisting F).run (s, []) (persistedOf log).reverse).2

theorem Persists.unmoved (h : Persists F s w log) (hbackend : w'.backend = w.backend) (hpersisted : persistedOf (notes ++ log) = persistedOf log)
    (hstored : storedOf (notes ++ log) = storedOf log) : Persists F s w' (notes ++ log) :=
  ⟨by rw [hbackend, hpersisted]; exact h.backend, by rw [hstored, hpersisted]; exact h.stored⟩

theorem process_stored (F : Formats) (x : Persisting × AlertIo) (b : (LinuxEvidenceStore × Disk) × LinuxAlertSink) (job : IncidentWriteJob) :
    ((storedIncidentOutputBackend F).process x b job).2.1 = (LinuxEvidenceStore.persistRevision F x.1 b.1 job).2 ∧
      ∃ sink, ((storedIncidentOutputBackend F).process x b job).1 = some ((LinuxEvidenceStore.persistRevision F x.1 b.1 job).1, sink) :=
  ⟨rfl, _, rfl⟩

/-- The thread's closure, with the store behind it. -/
theorem Persists.process (h : Persists F s w log) (x : Persisting × AlertIo) (job : IncidentWriteJob)
    (hbackend : w'.backend = (w.process (storedIncidentOutputBackend F) x job).1.backend) :
    Persists F s w' ([.handled (w.process (storedIncidentOutputBackend F) x job).2.2 job
      (w.process (storedIncidentOutputBackend F) x job).2.1] ++ log) := by
  rw [OutputWorker.process] at hbackend ⊢
  split at hbackend
  case isTrue hpoisoned =>
    rw [if_pos hpoisoned]
    exact h.unmoved hbackend rfl rfl
  case isFalse hclean =>
    rw [if_neg hclean]
    obtain ⟨hstore, sink, hreply⟩ := process_stored F x w.backend job
    have hrun := (persisting F).run_snoc (s, []) (persistedOf log).reverse (x.1, job)
    have hpersisted : ∀ reply, (persistedOf ([.handled (some x) job reply] ++ log)).reverse = (persistedOf log).reverse ++ [(x.1, job)] :=
      fun reply => List.reverse_cons
    constructor
    · rw [hpersisted, hrun, hbackend]
      show ((storedIncidentOutputBackend F).process x w.backend job).2.1 = _
      rw [hstore, h.backend]
      rfl
    · rw [hpersisted, hrun]
      show storedOf (.handled (some x) job ((storedIncidentOutputBackend F).process x w.backend job).1 :: log) =
        if (LinuxEvidenceStore.persistRevision F x.1 _ job).1.isOk then job :: _ else _
      rw [hreply, ← h.backend, ← h.stored]
      cases (LinuxEvidenceStore.persistRevision F x.1 w.backend.1 job).1 <;> rfl

theorem Persists.moves (h : Persists F s w log) (hmoves : Moves (storedIncidentOutputBackend F) w w' notes) :
    Persists F s w' (notes ++ log) := by
  cases hmoves with
  | handles x processing => exact h.process x _ rfl
  | handlesLate x aborted => exact h.process x _ rfl
  | aborts live shutdown =>
    have hnone : persistedOf ((w.queue.map .discarded).reverse ++ log) = persistedOf log ∧
        storedOf ((w.queue.map .discarded).reverse ++ log) = storedOf log := by
      rw [← List.map_reverse]
      generalize w.queue.reverse = jobs
      induction jobs with
      | nil => exact ⟨rfl, rfl⟩
      | cons job rest ih => exact ih
    exact h.unmoved rfl hnone.1 hnone.2
  | _ => exact h.unmoved rfl rfl rfl

/-- The store is called for handled jobs only. -/
theorem persistedOf_sublist (log : List (OutputNote (Persisting × AlertIo))) : ((persistedOf log).map Prod.snd).Sublist (handledOf log) := by
  induction log with
  | nil => exact .slnil
  | cons note rest ih =>
    match note with
    | .handled (some x) job reply => exact ih.cons_cons job
    | .handled none job reply => exact ih.cons job
    | .accepted _ => exact ih
    | .refused _ _ => exact ih
    | .discarded _ => exact ih

/-- **Each event's evidence is stored from the first revision on, without a gap.** A recorder makes
the jobs, handles may drop any of them, the parties of the worker move in any order, and calls of
the store fail: of every event the store has the first revisions, in order, and what its index
holds is the last of them. -/
theorem stored_in_order (F : Formats) (packageVersion : PackageVersion) (opening : Outside) (t₀ : Disk) (store : LinuxEvidenceStore)
    (hopen : LinuxEvidenceStore.openRoot F opening packageVersion t₀ = .ok store) (calls : List StoreCall)
    (ids : Nat → Except IncidentRecorderError EventId) (hids : DrawsFresh ids) (identity : IncidentIdentity)
    (recorded : List RecorderCall) (sink : LinuxAlertSink) (health : OutputHealth)
    (events : List (OutputEvent (Persisting × AlertIo))) :
    let s := afterCalls F (store, t₀) calls
    let jobs := (recording.run (.new identity ids, []) recorded).2
    let c := (working (storedIncidentOutputBackend F)).run (.start (s, sink) health, []) events
    (∀ job ∈ jobs, s.1.index.lookup job.eventId = none) → (submitted events).Sublist jobs.reverse →
      (∀ eventId, ∃ n, JobStream.revisionsOf eventId (storedOf c.2) = (List.range' 1 n).reverse) ∧
      (∀ job ∈ jobs, ∀ detail ∈ c.1.backend.1.1.index.lookup job.eventId,
        newest job.eventId (storedOf c.2) = some detail.latest) ∧
      ∀ job ∈ storedOf c.2, job ∈ jobs := by
  intro s jobs c hnew hsubmitted
  have hb : s.1.Bounded := bounded_reachable hopen calls
  have hstream : JobStream jobs := (recorded_run hids identity recorded).stream
  have hpersists : Persists F s c.1 c.2 := (working (storedIncidentOutputBackend F)).run_invariant (Persists F s)
    (fun w _ event h => h.moves (moves _ w event)) (.start (s, sink) health, []) events ⟨rfl, rfl⟩
  obtain ⟨accepted, hsublist, haccepted⟩ := accepted_submitted (storedIncidentOutputBackend F) (.start (s, sink) health) [] events
  have hhandled : (handledOf c.2).reverse.Sublist (acceptedOf c.2).reverse :=
    (conserved_run (storedIncidentOutputBackend F) (s, sink) health events).order ▸ List.sublist_append_left _ _
  have hoffered : ((persistedOf c.2).reverse.map Prod.snd).Sublist jobs.reverse := by
    rw [List.map_reverse]
    exact (persistedOf_sublist c.2).reverse.trans (hhandled.trans (haccepted ▸ hsublist.trans hsubmitted))
  have hkept := kept_stream (F := F) hb hstream hnew hoffered
  obtain ⟨taken, htaken, hafter⟩ := hkept.order
  rw [List.append_nil] at hafter
  rw [hpersists.stored, hpersists.backend]
  refine ⟨hkept.follows.numbered, fun job hjob detail hdetail => hkept.follows.held job.eventId (hnew job hjob) detail hdetail,
    fun job hjob => ?_⟩
  rw [hafter] at hjob
  exact List.mem_reverse.mp (hoffered.subset (htaken.subset (List.mem_reverse.mp hjob)))

/-- Each job is submitted when the one before it has been handled. -/
def oneByOne (x : Persisting × AlertIo) (jobs : List IncidentWriteJob) : List (OutputEvent (Persisting × AlertIo)) :=
  jobs.flatMap fun job => [.trySubmit job, .poll, .finish x]

theorem submitted_oneByOne (x : Persisting × AlertIo) (jobs : List IncidentWriteJob) : submitted (oneByOne x jobs) = jobs := by
  induction jobs with
  | nil => rfl
  | cons job rest ih => exact congrArg (job :: ·) ih

theorem stored_in_order_two :
    let c := (working (storedIncidentOutputBackend compactFormats)).run
      (.start ((emptyStore sampleVersion, emptyRoot 0), .new) .initial, [])
      (oneByOne (calmly 1000, ⟨true, true⟩) (recording.run (.new wanIdentity fewIds, []) twoIncidents).2.reverse)
    ∀ eventId, ∃ n, JobStream.revisionsOf eventId (storedOf c.2) = (List.range' 1 n).reverse := by
  intro c
  have hstored := stored_in_order compactFormats sampleVersion (.calm 0) (emptyRoot 0) (emptyStore sampleVersion)
    (openRoot_empty compactFormats sampleVersion) [] fewIds fewIds_fresh wanIdentity twoIncidents .new .initial
    (oneByOne (calmly 1000, ⟨true, true⟩) (recording.run (.new wanIdentity fewIds, []) twoIncidents).2.reverse)
    (fun _ _ => rfl) (by rw [submitted_oneByOne])
  exact hstored.1

end

end NetworkLoop.Evidence
