import M2eBridge.Process.Walk

/-!
# The pipeline object

`Pipeline` with what its threads share. A `Thread` whose pointer is set holds the
place its function has come to, so a function that has returned but is not joined
yet is `done`, and there is never more than one thread to a slot. `received` and
`sent` are history: what `connector_in_->receive()` has returned and what has been
handed to `connector_out_->send`.
-/

namespace M2eBridge

open Process (Frame Queued)

inductive PipelineState where
  | unkn
  | stopped
  | running
  | malformed
  | failed
  | starting
  | stopping
  | terminated
  deriving DecidableEq, Repr

inductive PipelineCommand where
  | unkn
  | stop
  | start
  | restart
  | terminate
  deriving DecidableEq, Repr

inductive ThreadState where
  | unkn
  | starting
  | running
  | finished
  deriving DecidableEq, Repr

/-- `Thread`: `thread` is the place in the thread's function, `none` the null pointer. -/
structure Thread (π : Type) where
  thread : Option π := none
  state : ThreadState := .unkn

/-- `Thread::is_running`. -/
def Thread.isRunning {π : Type} (t : Thread π) : Bool := t.state = .running ∨ t.state = .starting

/-- A received message, with its number among all that were received. -/
structure Received where
  number : Nat
  msg : Message

/-- The places in `run_receiving`. -/
inductive ReceivingPc where
  | begin
  | connect
  | connected
  | loop
  | receive
  | push (m : Received)
  | notify
  | disconnect
  | finish
  | done

/-- The places in `run_processing` and what it calls. -/
inductive ProcessingPc where
  | begin
  | startFiltra (ix : Nat)
  | started
  | loop
  /-- The loop of `handle_events`. -/
  | events
  | popEvent
  /-- In `process()`, at the filtra of the index. -/
  | event (ix : Nat)
  /-- The loop of `handle_messages`. -/
  | messages
  | popMessage
  /-- In `process(msg)`. -/
  | walk (frames : List Frame)
  | wait
  /-- In `pipeline_event_.wait`. -/
  | blocked
  | finish
  | done

/-- The places in `run_sending`. -/
inductive SendingPc where
  | begin
  | connect
  | connected
  | loop
  | pop
  | send (x : Queued)
  | clear
  | disconnect
  | finish
  | done

/-- What the control thread has still to do, one entry a statement. -/
inductive Instr where
  | testAlive
  | command
  | executeStart
  | executeStop
  | setState (st : PipelineState)
  | clearError
  | setBlocking
  | setNonBlocking
  | connectorStop
  | startSending
  | awaitSending
  | startProcessing
  | awaitProcessing
  | startReceiving
  | awaitReceiving
  | joinReceiving
  | notifyProcessing
  | joinProcessing
  | joinSending
  | freeResources
  deriving DecidableEq, Repr

structure Pipeline (ω : Type) where
  state : PipelineState := .stopped
  lastError : String := ""
  receiving : Thread ReceivingPc := {}
  processing : Thread ProcessingPc := {}
  sending : Thread SendingPc := {}
  /-- The rest of `run_control`. -/
  control : List Instr := [.testAlive]
  rQueue : TSQueue Received := { blocking := false }
  eQueue : TSQueue Unit := { blocking := false }
  sQueue : TSQueue Queued := {}
  cQueue : TSQueue PipelineCommand := {}
  /-- The event timers that have pushed and not notified yet. -/
  timers : Nat := 0
  world : ω
  received : List Message := []
  sent : List Queued := []

namespace Pipeline

variable {ω : Type}

def isAlive (s : Pipeline ω) : Bool := s.state ≠ .malformed ∧ s.state ≠ .terminated

def isActive (s : Pipeline ω) : Bool := s.state = .running

/-- `last_error_ = e.what(); state_ = PipelineState::FAILED;` -/
def fail (s : Pipeline ω) (e : Exn) : Pipeline ω := { s with lastError := e.what, state := .failed }

def receivingAt (s : Pipeline ω) (pc : ReceivingPc) : Pipeline ω :=
  { s with receiving := { s.receiving with thread := some pc } }

def processingAt (s : Pipeline ω) (pc : ProcessingPc) : Pipeline ω :=
  { s with processing := { s.processing with thread := some pc } }

def sendingAt (s : Pipeline ω) (pc : SendingPc) : Pipeline ω :=
  { s with sending := { s.sending with thread := some pc } }

def setReceivingState (s : Pipeline ω) (st : ThreadState) : Pipeline ω :=
  { s with receiving := { s.receiving with state := st } }

def setProcessingState (s : Pipeline ω) (st : ThreadState) : Pipeline ω :=
  { s with processing := { s.processing with state := st } }

def setSendingState (s : Pipeline ω) (st : ThreadState) : Pipeline ω :=
  { s with sending := { s.sending with state := st } }

/-- A notification of `pipeline_event_`: lost unless the processing thread is waiting. -/
def notify (s : Pipeline ω) : Pipeline ω :=
  match s.processing.thread with
  | some .blocked => s.processingAt .loop
  | _ => s

/-- The pipeline after `prepare`. -/
def prepared (world : ω) : Pipeline ω := { world }

end Pipeline

end M2eBridge
