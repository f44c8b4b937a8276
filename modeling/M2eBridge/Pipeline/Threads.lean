import M2eBridge.Pipeline.State

/-!
# The worker threads

`run_receiving`, `run_processing` and `run_sending`, one statement that reads or
writes something shared to a step. What a connector does in a call is the `call`
given to the step; a step that is not enabled, such as a pop that blocks, is `none`.
-/

namespace M2eBridge

namespace Pipeline

open Process (Env Frame Walk)

variable {ω : Type}

/-! ## Receiving -/

/-- The handlers of the receiving loop. -/
def receivingCaught (s : Pipeline ω) (e : Exn) : Pipeline ω :=
  if e.kind = .underflowError then s.receivingAt .disconnect else { s with lastError := e.what }.receivingAt .loop

def runReceiving (s : Pipeline ω) (call : Except Exn Message) : ReceivingPc → Option (Pipeline ω)
  | .begin => some ((s.setReceivingState .starting).receivingAt .connect)
  | .connect =>
    match call with
    | .ok _ => some (s.receivingAt .connected)
    | .error e => some ((s.fail e).receivingAt .connected)
  | .connected =>
    if s.state ≠ .failed then some ((s.setReceivingState .running).receivingAt .loop)
    else some (s.receivingAt .disconnect)
  | .loop => some (s.receivingAt (if s.isActive then .receive else .disconnect))
  | .receive =>
    match call with
    | .ok msg =>
      some ({ s with received := s.received ++ [msg] }.receivingAt (.push ⟨s.received.length, msg⟩))
    | .error e => some (s.receivingCaught e)
  | .push m =>
    match s.rQueue.push m with
    | .ok rQueue => some ({ s with rQueue }.receivingAt .notify)
    | .error e => some (s.receivingCaught e)
  | .notify => some (s.notify.receivingAt .loop)
  | .disconnect =>
    match call with
    | .ok _ => some (s.receivingAt .finish)
    | .error e => some ((s.fail e).receivingAt .finish)
  | .finish => some ((s.setReceivingState .finished).receivingAt .done)
  | .done => none

/-! ## Processing -/

/-- An exception has left `process`: `handle_events` and `handle_messages` stop at
an underflow and go on to `next`, every other ends the thread's loop. -/
def processingCaught (s : Pipeline ω) (e : Exn) (next : ProcessingPc) : Pipeline ω :=
  if e.kind = .underflowError then s.processingAt next else (s.fail e).processingAt .finish

/-- The walk as the thread has it. -/
def walkOf (s : Pipeline ω) (frames : List Frame) : Walk ω where
  frames
  world := s.world
  lastError := s.lastError
  sQueue := s.sQueue

/-- What a step of `process` finds. -/
def env (s : Pipeline ω) (queues : String → InternalQueue Message) : Env where
  active := s.isActive
  queues

def runProcessing (chain : List (Filtra ω)) (s : Pipeline ω) (queues : String → InternalQueue Message) :
    ProcessingPc → Option (Pipeline ω)
  | .begin => some ((s.setProcessingState .starting).processingAt (.startFiltra 0))
  | .startFiltra ix =>
    match chain[ix]? with
    | none => some (s.processingAt .started)
    | some filtra =>
      match filtra.start s.world with
      | (.ok _, world) => some ({ s with world }.processingAt (.startFiltra (ix + 1)))
      | (.error e, world) => some (({ s with world }.fail e).processingAt .started)
  | .started => some ((s.setProcessingState .running).processingAt .loop)
  | .loop => some (s.processingAt (if s.isActive then .events else .finish))
  | .events => some (s.processingAt (if s.isActive then .popEvent else .messages))
  | .popEvent =>
    match s.eQueue.pop with
    | some (.ok (_, eQueue)) => some ({ s with eQueue }.processingAt (.event 0))
    | some (.error _) => some (s.processingAt .messages)
    | none => none
  -- the message that a filtra generates is shadowed: the loop ends, and the outer one stays invalid
  | .event ix =>
    match chain[ix]? with
    | none => some (s.processingAt .events)
    | some filtra =>
      match filtra.generateMessage s.world with
      | (.ok msg, world) => some ({ s with world }.processingAt (if msg.isValid then .events else .event (ix + 1)))
      | (.error e, world) => some ({ s with world }.processingCaught e .messages)
  | .messages => some (s.processingAt (if s.isActive then .popMessage else .wait))
  | .popMessage =>
    match s.rQueue.pop with
    | some (.ok (m, rQueue)) => some ({ s with rQueue }.processingAt (.walk [.begin m.number m.msg 0]))
    | some (.error _) => some (s.processingAt .wait)
    | none => none
  | .walk frames =>
    let w := (s.walkOf frames).step chain (s.env queues)
    let s := { s with world := w.world, lastError := w.lastError, sQueue := w.sQueue }
    match w.escaped, w.frames with
    | some e, _ => some (s.processingCaught e .wait)
    | none, [] => some (s.processingAt .messages)
    | none, frames => some (s.processingAt (.walk frames))
  | .wait => some (s.processingAt .blocked)
  | .blocked => none
  | .finish => some ((s.setProcessingState .finished).processingAt .done)
  | .done => none

/-! ## Sending -/

def runSending (s : Pipeline ω) (call : Except Exn Unit) : SendingPc → Option (Pipeline ω)
  | .begin => some ((s.setSendingState .starting).sendingAt .connect)
  | .connect =>
    match call with
    | .ok _ => some (s.sendingAt .connected)
    | .error e => some ((s.fail e).sendingAt .connected)
  | .connected =>
    if s.state ≠ .failed then some ((s.setSendingState .running).sendingAt .loop)
    else some (s.sendingAt .disconnect)
  | .loop => some (s.sendingAt (if s.isActive then .pop else .disconnect))
  | .pop =>
    match s.sQueue.pop with
    | some (.ok (x, sQueue)) => some ({ s with sQueue }.sendingAt (.send x))
    | some (.error _) => some (s.sendingAt .disconnect)
    | none => none
  | .send x =>
    let s := { s with sent := s.sent ++ [x] }
    match call with
    | .ok _ => some (s.sendingAt .clear)
    | .error e =>
      if e.kind = .underflowError then some (s.sendingAt .disconnect)
      else some ({ s with lastError := e.what }.sendingAt .loop)
  | .clear => some ({ s with lastError := "" }.sendingAt .loop)
  | .disconnect =>
    match call with
    | .ok _ => some (s.sendingAt .finish)
    | .error e => some ((s.fail e).sendingAt .finish)
  | .finish => some ((s.setSendingState .finished).sendingAt .done)
  | .done => none

end Pipeline

end M2eBridge
