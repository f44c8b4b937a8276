import M2eBridge.Pipeline.Control

/-!
# Where the threads can go

What one statement of the control thread can do to the place of that thread
(`runControl_follows`) and to the workers (`runControl_step`), what a step of a worker
leaves of the others (`runReceiving_step` and its siblings), and what can happen while no
worker is running (`WorkersIdle.step`). Invariants over the life of a pipeline need these
facts, and no other look into the bodies of the threads.
-/

namespace M2eBridge

namespace Pipeline

variable {ω : Type}

/-! ## The control thread -/

/-- The place in `run_control` behind a statement, in the pipeline `s`. -/
inductive Follows (s : Pipeline ω) : List Instr → List Instr → Prop where
  | test (rest : List Instr) : Follows s (.testAlive :: rest) (if s.isAlive then [.command] else [.freeResources])
  | command (cmd : PipelineCommand) (rest : List Instr) (queued : cmd ∈ s.cQueue.queue) :
      Follows s (.command :: rest) (handler cmd ++ [.command])
  | start (stop rest : List Instr) (first : stop = [] ∨ stop = [.executeStop]) :
      Follows s (.executeStart :: rest) (stop ++ startBody ++ rest)
  | stop (rest : List Instr) : Follows s (.executeStop :: rest) (stopBody ++ rest)
  | notify (rest : List Instr) : Follows s (.notifyProcessing :: rest) (.notifyProcessing :: rest)
  | next (i : Instr) (rest : List Instr) (test : i ≠ .testAlive) (command : i ≠ .command) : Follows s (i :: rest) rest
  | underflow (i : Instr) (rest : List Instr) (free : i ≠ .freeResources) :
      Follows s (i :: rest) [.executeStop, .setState .terminated, .testAlive]
  | caught (i : Instr) (rest : List Instr) (free : i ≠ .freeResources) : Follows s (i :: rest) [.testAlive]

theorem controlCaught_follows (s : Pipeline ω) (e : Exn) {i : Instr} {rest : List Instr} (free : i ≠ .freeResources) :
    Follows s (i :: rest) (s.controlCaught e).control := by
  unfold controlCaught
  split
  · exact .underflow i rest free
  · exact .caught i rest free

theorem await_follows {s t : Pipeline ω} {st : ThreadState} {call : Except Exn Unit} {i : Instr} {rest : List Instr}
    (plain : i ≠ .testAlive ∧ i ≠ .command ∧ i ≠ .freeResources) (h : s.await st call rest = some t) :
    Follows s (i :: rest) t.control := by
  obtain ⟨test, command, free⟩ := plain
  unfold await at h
  split at h
  · cases h; exact .next i rest test command
  · cases call with
    | ok _ => cases h
    | error e => cases h; exact controlCaught_follows s timeoutError free

@[simp] theorem notify_control (s : Pipeline ω) : s.notify.control = s.control := by
  unfold notify
  split <;> rfl

theorem runControl_follows {s t : Pipeline ω} {call : Except Exn Unit} {c : List Instr} (here : s.control = c)
    (h : s.runControl call c = some t) : Follows s c t.control := by
  cases c with
  | nil => cases h
  | cons i rest =>
    cases i with
    | testAlive => cases h; exact .test rest
    | command =>
      simp only [runControl] at h
      split at h
      case h_1 cmd cQueue taken =>
        cases h
        exact .command cmd rest (TSQueue.pop_ok taken ▸ List.mem_cons_self)
      case h_2 e _ => cases h; exact controlCaught_follows s e (by simp)
      case h_3 => cases h
    | executeStart =>
      simp only [runControl] at h
      split at h
      · cases h; exact .next _ rest (by simp) (by simp)
      · cases h
        refine .start _ rest ?_
        split
        · exact .inr rfl
        · exact .inl rfl
    | executeStop =>
      simp only [runControl] at h
      split at h
      · cases h; exact .next _ rest (by simp) (by simp)
      · cases h; exact .stop rest
    | connectorStop =>
      cases call with
      | ok _ => cases h; exact .next _ rest (by simp) (by simp)
      | error e => cases h; exact controlCaught_follows s e (by simp)
    | startSending | startProcessing | startReceiving =>
      simp only [runControl] at h
      split at h
      · cases h; exact controlCaught_follows s _ (by simp)
      · cases h; exact .next _ rest (by simp) (by simp)
    | awaitSending | awaitProcessing | awaitReceiving => exact await_follows (by simp) h
    | joinReceiving | joinProcessing | joinSending =>
      simp only [runControl] at h
      split at h
      · cases h; exact .next _ rest (by simp) (by simp)
      · cases h; exact .next _ rest (by simp) (by simp)
      · cases h
    | notifyProcessing =>
      simp only [runControl] at h
      split at h
      · cases h
        rw [notify_control, here]
        exact .notify rest
      · cases h; exact .next _ rest (by simp) (by simp)
    | setState | clearError | setBlocking | setNonBlocking | freeResources =>
      cases h; exact .next _ rest (by simp) (by simp)

/-- What a statement of the control thread does to the threads of the workers. -/
inductive Touches (s t : Pipeline ω) : Instr → Prop where
  | startReceiving (free : s.receiving.thread = none) (begun : t.receiving.thread = some .begin)
      (processing : t.processing = s.processing) (sending : t.sending = s.sending) : Touches s t .startReceiving
  | startProcessing (free : s.processing.thread = none) (begun : t.processing.thread = some .begin)
      (receiving : t.receiving = s.receiving) (sending : t.sending = s.sending) : Touches s t .startProcessing
  | startSending (free : s.sending.thread = none) (begun : t.sending.thread = some .begin)
      (receiving : t.receiving = s.receiving) (processing : t.processing = s.processing) : Touches s t .startSending
  | joinReceiving (ended : s.receiving.thread = some .done) (joined : t.receiving.thread = none)
      (processing : t.processing = s.processing) (sending : t.sending = s.sending) : Touches s t .joinReceiving
  | joinProcessing (ended : s.processing.thread = some .done) (joined : t.processing.thread = none)
      (receiving : t.receiving = s.receiving) (sending : t.sending = s.sending) : Touches s t .joinProcessing
  | joinSending (ended : s.sending.thread = some .done) (joined : t.sending.thread = none)
      (receiving : t.receiving = s.receiving) (processing : t.processing = s.processing) : Touches s t .joinSending
  | notify (receiving : t.receiving = s.receiving) (processing : t.processing = s.notify.processing)
      (sending : t.sending = s.sending) : Touches s t .notifyProcessing
  /-- No thread; a `Thread::start` finds one in its place. -/
  | none (i : Instr) (receiving : t.receiving = s.receiving) (processing : t.processing = s.processing)
      (sending : t.sending = s.sending) (startReceiving : i = .startReceiving → s.receiving.thread ≠ none)
      (startProcessing : i = .startProcessing → s.processing.thread ≠ none)
      (startSending : i = .startSending → s.sending.thread ≠ none) : Touches s t i

/-- The threads that a statement touches; one statement sets the state, and none queues a
command, or has to do with the queues of the processing thread. -/
structure ControlStep (s t : Pipeline ω) (i : Instr) : Prop where
  threads : Touches s t i
  state : t.state = s.state ∨ i = .setState t.state
  commands : ∀ cmd ∈ t.cQueue.queue, cmd ∈ s.cQueue.queue
  rQueue : t.rQueue = s.rQueue
  eQueue : t.eQueue = s.eQueue
  timers : t.timers = s.timers

theorem notify_rest (s : Pipeline ω) :
    s.notify.receiving = s.receiving ∧ s.notify.sending = s.sending ∧ s.notify.state = s.state ∧
      s.notify.cQueue = s.cQueue ∧ s.notify.rQueue = s.rQueue ∧ s.notify.eQueue = s.eQueue ∧
      s.notify.timers = s.timers := by
  unfold notify
  split <;> exact ⟨rfl, rfl, rfl, rfl, rfl, rfl, rfl⟩

theorem runControl_step {s t : Pipeline ω} {call : Except Exn Unit} {i : Instr} {rest : List Instr}
    (h : s.runControl call (i :: rest) = some t) : ControlStep s t i := by
  have untouched {u : Pipeline ω} (receiving : u.receiving = s.receiving) (processing : u.processing = s.processing)
      (sending : u.sending = s.sending) (plain : i ≠ .startReceiving ∧ i ≠ .startProcessing ∧ i ≠ .startSending) :
      Touches s u i :=
    .none i receiving processing sending (fun other => absurd other plain.1) (fun other => absurd other plain.2.1)
      fun other => absurd other plain.2.2
  have caught (e : Exn) (plain : i ≠ .startReceiving ∧ i ≠ .startProcessing ∧ i ≠ .startSending) :
      ControlStep s (s.controlCaught e) i := by
    unfold controlCaught
    split <;> exact ⟨untouched rfl rfl rfl plain, .inl rfl, fun _ member => member, rfl, rfl, rfl⟩
  have awaited {st : ThreadState} (plain : i ≠ .startReceiving ∧ i ≠ .startProcessing ∧ i ≠ .startSending)
      (h : s.await st call rest = some t) : ControlStep s t i := by
    unfold await at h
    split at h
    · cases h; exact ⟨untouched rfl rfl rfl plain, .inl rfl, fun _ member => member, rfl, rfl, rfl⟩
    · split at h <;> cases h
      exact caught _ plain
  have startsTwice {e : Exn} (receiving : i = .startReceiving → s.receiving.thread ≠ none)
      (processing : i = .startProcessing → s.processing.thread ≠ none)
      (sending : i = .startSending → s.sending.thread ≠ none) : ControlStep s (s.controlCaught e) i := by
    unfold controlCaught
    split <;> exact ⟨.none i rfl rfl rfl receiving processing sending, .inl rfl, fun _ member => member, rfl, rfl, rfl⟩
  cases i with
  | awaitSending | awaitProcessing | awaitReceiving => exact awaited (by simp) h
  | command =>
    simp only [runControl] at h
    split at h <;> cases h
    case h_1 taken =>
      refine ⟨untouched rfl rfl rfl (by simp), .inl rfl, fun cmd member => ?_, rfl, rfl, rfl⟩
      rw [TSQueue.pop_ok taken]
      exact List.mem_cons_of_mem _ member
    case h_2 => exact caught _ (by simp)
  | connectorStop =>
    simp only [runControl] at h
    split at h <;> cases h
    · exact ⟨untouched rfl rfl rfl (by simp), .inl rfl, fun _ member => member, rfl, rfl, rfl⟩
    · exact caught _ (by simp)
  | startReceiving =>
    simp only [runControl] at h
    split at h <;> cases h
    case h_1 there => exact startsTwice (by simp [there]) (by simp) (by simp)
    case h_2 free => exact ⟨.startReceiving free rfl rfl rfl, .inl rfl, fun _ member => member, rfl, rfl, rfl⟩
  | startProcessing =>
    simp only [runControl] at h
    split at h <;> cases h
    case h_1 there => exact startsTwice (by simp) (by simp [there]) (by simp)
    case h_2 free => exact ⟨.startProcessing free rfl rfl rfl, .inl rfl, fun _ member => member, rfl, rfl, rfl⟩
  | startSending =>
    simp only [runControl] at h
    split at h <;> cases h
    case h_1 there => exact startsTwice (by simp) (by simp) (by simp [there])
    case h_2 free => exact ⟨.startSending free rfl rfl rfl, .inl rfl, fun _ member => member, rfl, rfl, rfl⟩
  | joinReceiving =>
    simp only [runControl] at h
    split at h <;> cases h
    · exact ⟨untouched rfl rfl rfl (by simp), .inl rfl, fun _ member => member, rfl, rfl, rfl⟩
    case h_2 ended => exact ⟨.joinReceiving ended rfl rfl rfl, .inl rfl, fun _ member => member, rfl, rfl, rfl⟩
  | joinProcessing =>
    simp only [runControl] at h
    split at h <;> cases h
    · exact ⟨untouched rfl rfl rfl (by simp), .inl rfl, fun _ member => member, rfl, rfl, rfl⟩
    case h_2 ended => exact ⟨.joinProcessing ended rfl rfl rfl, .inl rfl, fun _ member => member, rfl, rfl, rfl⟩
  | joinSending =>
    simp only [runControl] at h
    split at h <;> cases h
    · exact ⟨untouched rfl rfl rfl (by simp), .inl rfl, fun _ member => member, rfl, rfl, rfl⟩
    case h_2 ended => exact ⟨.joinSending ended rfl rfl rfl, .inl rfl, fun _ member => member, rfl, rfl, rfl⟩
  | notifyProcessing =>
    obtain ⟨receiving, sending, state, cQueue, rQueue, eQueue, timers⟩ := s.notify_rest
    simp only [runControl] at h
    split at h <;> cases h
    · exact ⟨.notify receiving rfl sending, .inl state, fun cmd member => cQueue ▸ member, rQueue, eQueue, timers⟩
    · exact ⟨untouched rfl rfl rfl (by simp), .inl rfl, fun _ member => member, rfl, rfl, rfl⟩
  | executeStart | executeStop =>
    simp only [runControl] at h
    split at h <;> cases h <;> exact ⟨untouched rfl rfl rfl (by simp), .inl rfl, fun _ member => member, rfl, rfl, rfl⟩
  | setState st => cases h; exact ⟨untouched rfl rfl rfl (by simp), .inr rfl, fun _ member => member, rfl, rfl, rfl⟩
  | testAlive | clearError | setBlocking | setNonBlocking | freeResources =>
    cases h; exact ⟨untouched rfl rfl rfl (by simp), .inl rfl, fun _ member => member, rfl, rfl, rfl⟩

/-! ## What a step of a worker leaves -/

/-- A step of the receiving thread: it can wake the processing thread. -/
structure ReceivingStep (s t : Pipeline ω) (pc : ReceivingPc) : Prop where
  moved : ∃ next, t.receiving.thread = some next ∧ (next = .done ↔ pc = .finish)
  processing : t.processing = s.processing ∨ t.processing = s.notify.processing
  sending : t.sending = s.sending
  control : t.control = s.control
  state : t.state = s.state ∨ t.state = .failed

/-- A step of the processing thread. -/
structure ProcessingStep (s t : Pipeline ω) (pc : ProcessingPc) : Prop where
  moved : ∃ next, t.processing.thread = some next ∧ (next = .done ↔ pc = .finish)
  receiving : t.receiving = s.receiving
  sending : t.sending = s.sending
  control : t.control = s.control
  state : t.state = s.state ∨ t.state = .failed

/-- A step of the sending thread, which has only `s_queue_` to do with the others. -/
structure SendingStep (s t : Pipeline ω) (pc : SendingPc) : Prop where
  moved : ∃ next, t.sending.thread = some next ∧ (next = .done ↔ pc = .finish)
  receiving : t.receiving = s.receiving
  processing : t.processing = s.processing
  control : t.control = s.control
  state : t.state = s.state ∨ t.state = .failed
  rQueue : t.rQueue = s.rQueue
  eQueue : t.eQueue = s.eQueue
  timers : t.timers = s.timers

theorem runReceiving_step {s t : Pipeline ω} {call : Except Exn Message} {pc : ReceivingPc}
    (h : s.runReceiving call pc = some t) : ReceivingStep s t pc := by
  have moves {u : Pipeline ω} {next : ReceivingPc} (state : u.state = s.state ∨ u.state = .failed)
      (processing : u.processing = s.processing) (sending : u.sending = s.sending) (control : u.control = s.control)
      (ends : next = .done ↔ pc = .finish) : ReceivingStep s (u.receivingAt next) pc :=
    ⟨⟨next, rfl, ends⟩, .inl processing, sending, control, state⟩
  have caught (e : Exn) (inside : pc ≠ .finish) : ReceivingStep s (s.receivingCaught e) pc := by
    unfold receivingCaught
    split <;> exact moves (.inl rfl) rfl rfl rfl (by simp [inside])
  cases pc with
  | begin | finish => cases h; exact moves (.inl rfl) rfl rfl rfl (by simp)
  | connect | disconnect =>
    cases call <;> cases h
    · exact moves (.inr rfl) rfl rfl rfl (by simp)
    · exact moves (.inl rfl) rfl rfl rfl (by simp)
  | connected =>
    simp only [runReceiving] at h
    split at h <;> cases h <;> exact moves (.inl rfl) rfl rfl rfl (by simp)
  | loop =>
    cases h
    split <;> exact moves (.inl rfl) rfl rfl rfl (by simp)
  | receive =>
    cases call <;> cases h
    · exact caught _ (by simp)
    · exact moves (.inl rfl) rfl rfl rfl (by simp)
  | push m =>
    simp only [runReceiving] at h
    split at h <;> cases h
    · exact moves (.inl rfl) rfl rfl rfl (by simp)
    · exact caught _ (by simp)
  | notify =>
    cases h
    obtain ⟨-, sending, state, -⟩ := s.notify_rest
    exact ⟨⟨.loop, rfl, by simp⟩, .inr rfl, sending, notify_control s, .inl state⟩
  | done => cases h

theorem runProcessing_step {chain : List (Filtra ω)} {s t : Pipeline ω} {queues : String → InternalQueue Message}
    {pc : ProcessingPc} (h : s.runProcessing chain queues pc = some t) : ProcessingStep s t pc := by
  have moves {u : Pipeline ω} {next : ProcessingPc} (state : u.state = s.state ∨ u.state = .failed)
      (receiving : u.receiving = s.receiving) (sending : u.sending = s.sending) (control : u.control = s.control)
      (ends : next = .done ↔ pc = .finish) : ProcessingStep s (u.processingAt next) pc :=
    ⟨⟨next, rfl, ends⟩, receiving, sending, control, state⟩
  have caught {u : Pipeline ω} (e : Exn) {next : ProcessingPc} (state : u.state = s.state)
      (receiving : u.receiving = s.receiving) (sending : u.sending = s.sending) (control : u.control = s.control)
      (inside : pc ≠ .finish) (open_end : next ≠ .done) : ProcessingStep s (u.processingCaught e next) pc := by
    unfold processingCaught
    split
    · exact moves (.inl state) receiving sending control (by simp [inside, open_end])
    · exact moves (.inr rfl) receiving sending control (by simp [inside])
  cases pc with
  | begin | started | wait | finish => cases h; exact moves (.inl rfl) rfl rfl rfl (by simp)
  | loop | events | messages =>
    cases h
    split <;> exact moves (.inl rfl) rfl rfl rfl (by simp)
  | startFiltra ix =>
    simp only [runProcessing] at h
    split at h
    · cases h; exact moves (.inl rfl) rfl rfl rfl (by simp)
    · split at h <;> cases h
      · exact moves (.inl rfl) rfl rfl rfl (by simp)
      · exact moves (.inr rfl) rfl rfl rfl (by simp)
  | popEvent | popMessage =>
    simp only [runProcessing] at h
    split at h <;> cases h <;> exact moves (.inl rfl) rfl rfl rfl (by simp)
  | event ix =>
    simp only [runProcessing] at h
    split at h
    · cases h; exact moves (.inl rfl) rfl rfl rfl (by simp)
    · split at h <;> cases h
      · split <;> exact moves (.inl rfl) rfl rfl rfl (by simp)
      · exact caught _ rfl rfl rfl rfl (by simp) (by simp)
  | walk frames =>
    simp only [runProcessing] at h
    split at h <;> cases h
    · exact caught _ rfl rfl rfl rfl (by simp) (by simp)
    · exact moves (.inl rfl) rfl rfl rfl (by simp)
    · exact moves (.inl rfl) rfl rfl rfl (by simp)
  | blocked | done => cases h

theorem runSending_step {s t : Pipeline ω} {call : Except Exn Unit} {pc : SendingPc}
    (h : s.runSending call pc = some t) : SendingStep s t pc := by
  have moves {sQueue : TSQueue Process.Queued} {sending : Thread SendingPc} {sent : List Process.Queued}
      {lastError : String} {state : PipelineState} {next : SendingPc} (kept : state = s.state ∨ state = .failed)
      (ends : next = .done ↔ pc = .finish) :
      SendingStep s ({ s with sQueue, sending, sent, lastError, state }.sendingAt next) pc :=
    ⟨⟨next, rfl, ends⟩, rfl, rfl, rfl, kept, rfl, rfl, rfl⟩
  cases pc with
  | begin | clear | finish => cases h; exact moves (.inl rfl) (by simp)
  | connect | disconnect =>
    cases call <;> cases h
    · exact moves (.inr rfl) (by simp)
    · exact moves (.inl rfl) (by simp)
  | connected | pop =>
    simp only [runSending] at h
    split at h <;> cases h <;> exact moves (.inl rfl) (by simp)
  | loop =>
    cases h
    split <;> exact moves (.inl rfl) (by simp)
  | send x =>
    simp only [runSending] at h
    split at h
    · cases h; exact moves (.inl rfl) (by simp)
    · split at h <;> cases h <;> exact moves (.inl rfl) (by simp)
  | done => cases h

/-! ## The workers -/

end Pipeline

/-- The statement starts a worker, or leads to one that does. -/
def Instr.starts : Instr → Bool
  | .executeStart | .startSending | .startProcessing | .startReceiving => true
  | _ => false

/-- The command starts the workers. -/
def PipelineCommand.starts : PipelineCommand → Bool
  | .start | .restart => true
  | _ => false

namespace Pipeline

variable {ω : Type}

/-- No worker thread is running: each is joined, or has returned. -/
structure WorkersIdle (s : Pipeline ω) : Prop where
  receiving : s.receiving.thread = none ∨ s.receiving.thread = some .done
  processing : s.processing.thread = none ∨ s.processing.thread = some .done
  sending : s.sending.thread = none ∨ s.sending.thread = some .done

instance : (thread : Option ReceivingPc) → Decidable (thread = none ∨ thread = some .done)
  | none | some .done => .isTrue (by simp)
  | some .begin | some .connect | some .connected | some .loop | some .receive | some (.push _) | some .notify
  | some .disconnect | some .finish => .isFalse (by simp)

instance : (thread : Option ProcessingPc) → Decidable (thread = none ∨ thread = some .done)
  | none | some .done => .isTrue (by simp)
  | some .begin | some (.startFiltra _) | some .started | some .loop | some .events | some .popEvent | some (.event _)
  | some .messages | some .popMessage | some (.walk _) | some .wait | some .blocked | some .finish => .isFalse (by simp)

instance : (thread : Option SendingPc) → Decidable (thread = none ∨ thread = some .done)
  | none | some .done => .isTrue (by simp)
  | some .begin | some .connect | some .connected | some .loop | some .pop | some (.send _) | some .clear
  | some .disconnect | some .finish => .isFalse (by simp)

instance (s : Pipeline ω) : Decidable s.WorkersIdle :=
  decidable_of_iff ((s.receiving.thread = none ∨ s.receiving.thread = some .done) ∧
      (s.processing.thread = none ∨ s.processing.thread = some .done) ∧
      (s.sending.thread = none ∨ s.sending.thread = some .done))
    ⟨fun idle => ⟨idle.1, idle.2.1, idle.2.2⟩, fun idle => ⟨idle.receiving, idle.processing, idle.sending⟩⟩

theorem WorkersIdle.congr {s t : Pipeline ω} (idle : s.WorkersIdle) (receiving : t.receiving = s.receiving)
    (processing : t.processing = s.processing) (sending : t.sending = s.sending) : t.WorkersIdle :=
  ⟨receiving ▸ idle.receiving, processing ▸ idle.processing, sending ▸ idle.sending⟩

theorem WorkersIdle.notify {s : Pipeline ω} (idle : s.WorkersIdle) : s.notify = s := by
  unfold Pipeline.notify
  split
  case h_1 blocked =>
    have := idle.processing
    simp [blocked] at this
  case h_2 => rfl

/-- While the workers are idle only the event timers move, and they leave the state alone. -/
theorem WorkersIdle.step {chain : List (Filtra ω)} {a : Action} {s t : Pipeline ω} (idle : s.WorkersIdle)
    (execute : ∀ cmd, a ≠ .execute cmd) (control : ∀ call, a ≠ .control call) (h : s.step chain a = some t) :
    t.WorkersIdle ∧ t.state = s.state ∧ t.cQueue = s.cQueue := by
  cases a with
  | execute cmd => exact absurd rfl (execute cmd)
  | control call => exact absurd rfl (control call)
  | receiving call =>
    rcases idle.receiving with gone | gone <;> simp [Pipeline.step, gone, runReceiving] at h
  | processing queues =>
    rcases idle.processing with gone | gone <;> simp [Pipeline.step, gone, runProcessing] at h
  | sending call =>
    rcases idle.sending with gone | gone <;> simp [Pipeline.step, gone, runSending] at h
  | timerPush =>
    simp only [Pipeline.step] at h
    split at h <;> cases h <;> exact ⟨idle.congr rfl rfl rfl, rfl, rfl⟩
  | timerNotify =>
    simp only [Pipeline.step, idle.notify] at h
    split at h
    · cases h; exact ⟨idle.congr rfl rfl rfl, rfl, rfl⟩
    · cases h
  | wakeup =>
    simp only [Pipeline.step, idle.notify] at h
    cases h
    exact ⟨idle, rfl, rfl⟩

/-- A statement that starts no worker leaves idle workers idle, and queues no command. -/
theorem WorkersIdle.runControl {s t : Pipeline ω} {call : Except Exn Unit} {c : List Instr} (idle : s.WorkersIdle)
    (calm : ∀ i ∈ c, i.starts = false) (h : s.runControl call c = some t) :
    t.WorkersIdle ∧ ∀ cmd ∈ t.cQueue.queue, cmd ∈ s.cQueue.queue := by
  cases c with
  | nil => cases h
  | cons i rest =>
    obtain ⟨threads, -, commands, -⟩ := runControl_step h
    refine ⟨?_, commands⟩
    cases threads with
    | startReceiving | startProcessing | startSending =>
      exact absurd (calm _ List.mem_cons_self) (by simp [Instr.starts])
    | joinReceiving _ joined processing sending =>
      exact ⟨.inl joined, processing ▸ idle.processing, sending ▸ idle.sending⟩
    | joinProcessing _ joined receiving sending =>
      exact ⟨receiving ▸ idle.receiving, .inl joined, sending ▸ idle.sending⟩
    | joinSending _ joined receiving processing =>
      exact ⟨receiving ▸ idle.receiving, processing ▸ idle.processing, .inl joined⟩
    | notify receiving processing sending =>
      exact idle.congr receiving (processing.trans (congrArg Pipeline.processing idle.notify)) sending
    | none _ receiving processing sending => exact idle.congr receiving processing sending

end Pipeline

end M2eBridge
