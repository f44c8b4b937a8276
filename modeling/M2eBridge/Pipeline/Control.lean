import M2eBridge.Pipeline.Threads

/-!
# The control thread and the step relation

`run_control` with `execute_start` and `execute_stop` in it, as the list of the
statements still to be done. A statement that waits (a join, the loops over a
thread's state, the pop of a command) is enabled when it can go on. `step` is one
step of any thread, of a caller of `execute`, or of an event timer.
-/

namespace M2eBridge

namespace Pipeline

variable {ω : Type}

/-- The body of `execute_start` behind its two tests. -/
def startBody : List Instr :=
  [.clearError, .setState .running, .setBlocking, .startSending, .awaitSending, .startProcessing, .awaitProcessing,
    .startReceiving, .awaitReceiving]

/-- The body of `execute_stop` behind its test. -/
def stopBody : List Instr :=
  [.setState .stopping, .connectorStop, .setNonBlocking, .joinReceiving, .notifyProcessing, .joinProcessing,
    .joinSending, .setState .stopped]

/-- The cases of the `switch`. -/
def handler : PipelineCommand → List Instr
  | .start => [.executeStart]
  | .stop => [.executeStop]
  | .restart => [.executeStop, .executeStart]
  | .terminate => [.executeStop, .setState .terminated]
  | .unkn => []

/-- The handlers of `run_control`. -/
def controlCaught (s : Pipeline ω) (e : Exn) : Pipeline ω :=
  if e.kind = .underflowError then { s with control := [.executeStop, .setState .terminated, .testAlive] }
  else { s with lastError := e.what, control := [.testAlive] }

def threadAlreadyStarted : Exn := ⟨.runtimeError, "Thread already started!"⟩

def timeoutError : Exn := ⟨.runtimeError, "Timeout error while starting pipeline!"⟩

/-- The loop of `Thread::start` over the state: it is left when the thread has got
going, and by an exception when that takes too long (`call` fails). -/
def await (s : Pipeline ω) (st : ThreadState) (call : Except Exn Unit) (rest : List Instr) : Option (Pipeline ω) :=
  if st ≠ .starting ∧ st ≠ .unkn then some { s with control := rest }
  else
    match call with
    | .ok _ => none
    | .error _ => some (s.controlCaught timeoutError)

/-- `connector_in_->stop()` does what `call` says. -/
def runControl (s : Pipeline ω) (call : Except Exn Unit) : List Instr → Option (Pipeline ω)
  | [] => none
  | .testAlive :: _ => some { s with control := if s.isAlive then [.command] else [.freeResources] }
  | .command :: _ =>
    match s.cQueue.pop with
    | some (.ok (command, cQueue)) => some { s with cQueue, control := handler command ++ [.command] }
    | some (.error e) => some (s.controlCaught e)
    | none => none
  | .executeStart :: rest =>
    if s.state = .running ∨ s.state = .starting then some { s with control := rest }
    else some { s with control := (if s.state ≠ .stopped then [.executeStop] else []) ++ startBody ++ rest }
  | .executeStop :: rest =>
    if s.state = .malformed ∨ s.state = .stopped ∨ s.state = .stopping then some { s with control := rest }
    else some { s with control := stopBody ++ rest }
  | .setState st :: rest => some { s with state := st, control := rest }
  | .clearError :: rest => some { s with lastError := "", control := rest }
  | .setBlocking :: rest => some { s with sQueue := s.sQueue.setBlocking, control := rest }
  | .setNonBlocking :: rest => some { s with sQueue := s.sQueue.setNonBlocking, control := rest }
  | .connectorStop :: rest =>
    match call with
    | .ok _ => some { s with control := rest }
    | .error e => some (s.controlCaught e)
  | .startSending :: rest =>
    match s.sending.thread with
    | some _ => some (s.controlCaught threadAlreadyStarted)
    | none => some ({ s with control := rest }.sendingAt .begin)
  | .awaitSending :: rest => s.await s.sending.state call rest
  | .startProcessing :: rest =>
    match s.processing.thread with
    | some _ => some (s.controlCaught threadAlreadyStarted)
    | none => some ({ s with control := rest }.processingAt .begin)
  | .awaitProcessing :: rest => s.await s.processing.state call rest
  | .startReceiving :: rest =>
    match s.receiving.thread with
    | some _ => some (s.controlCaught threadAlreadyStarted)
    | none => some ({ s with control := rest }.receivingAt .begin)
  | .awaitReceiving :: rest => s.await s.receiving.state call rest
  | .joinReceiving :: rest =>
    match s.receiving.thread with
    | none => some { s with control := rest }
    | some .done => some { s with receiving := { s.receiving with thread := none }, control := rest }
    | some _ => none
  | .notifyProcessing :: rest =>
    if s.processing.isRunning then some s.notify else some { s with control := rest }
  | .joinProcessing :: rest =>
    match s.processing.thread with
    | none => some { s with control := rest }
    | some .done => some { s with processing := { s.processing with thread := none }, control := rest }
    | some _ => none
  | .joinSending :: rest =>
    match s.sending.thread with
    | none => some { s with control := rest }
    | some .done => some { s with sending := { s.sending with thread := none }, control := rest }
    | some _ => none
  | .freeResources :: rest => some { s with control := rest }

inductive Action where
  /-- `execute` on a pipeline that is alive. -/
  | execute (cmd : PipelineCommand)
  | control (call : Except Exn Unit)
  | receiving (call : Except Exn Message)
  | processing (queues : String → InternalQueue Message)
  | sending (call : Except Exn Unit)
  /-- The two calls of an event timer. -/
  | timerPush
  | timerNotify
  /-- A spurious wakeup from `pipeline_event_.wait`. -/
  | wakeup

def step (chain : List (Filtra ω)) : Action → Pipeline ω → Option (Pipeline ω)
  | .execute cmd, s =>
    if s.isAlive then
      match s.cQueue.push cmd with
      | .ok cQueue => some { s with cQueue }
      | .error _ => some s
    else none
  | .control call, s => s.runControl call s.control
  | .receiving call, s => s.receiving.thread.bind (s.runReceiving call)
  | .processing queues, s => s.processing.thread.bind (s.runProcessing chain queues)
  | .sending call, s => s.sending.thread.bind (s.runSending call)
  | .timerPush, s =>
    match s.eQueue.push () with
    | .ok eQueue => some { s with eQueue, timers := s.timers + 1 }
    | .error _ => some s
  | .timerNotify, s => if 0 < s.timers then some { s.notify with timers := s.timers - 1 } else none
  | .wakeup, s => some s.notify

end Pipeline

end M2eBridge
