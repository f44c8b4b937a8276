import M2eBridge.Pipeline.Course
import M2eBridge.Pipeline.Order

/-!
# The state and the three threads

`state_` is written by the control thread and by the workers, and a start can be given
up halfway, but before each statement of the control thread the state says which of the
three `Thread` objects hold a thread (`slotsBefore`). So `Thread::start` never finds a
thread in its place, and a stopped pipeline has none (`slots_safe`). A start that is
given up leaves the state at `RUNNING` with workers missing (`start_abandoned`); where
that does not happen a running pipeline has all three (`running_complete`).
-/

namespace M2eBridge

namespace Pipeline

variable {ω : Type}

/-- Each of the three `Thread` objects holds a thread. -/
structure Full (s : Pipeline ω) : Prop where
  receiving : s.receiving.thread ≠ none
  processing : s.processing.thread ≠ none
  sending : s.sending.thread ≠ none

/-- The control thread is between two commands. -/
def Between (s : Pipeline ω) : Prop := s.control = [.testAlive] ∨ s.control = [.command]

/-- What the state says of the threads between two commands; of a running pipeline only
if no start is given up. -/
def Settled (timely : Prop) (s : Pipeline ω) : Prop :=
  (s.state = .stopped ∨ s.state = .terminated) ∧ s.Empty ∨ s.state = .running ∧ (timely → s.Full) ∨ s.state = .failed

/-- Between two commands a dead pipeline has been terminated. -/
theorem Settled.empty_of_dead {timely : Prop} {s : Pipeline ω} (settled : s.Settled timely) (dead : s.isAlive = false) :
    s.Empty := by
  rcases settled with ⟨_, empty⟩ | ⟨running, _⟩ | failed
  · exact empty
  · simp [isAlive, running] at dead
  · simp [isAlive, failed] at dead

/-- `execute_start` has set the state. -/
def Starting (s : Pipeline ω) : Prop := s.state = .running ∨ s.state = .failed

/-- `execute_stop` has set the state. -/
def Stopping (s : Pipeline ω) : Prop := s.state = .stopping ∨ s.state = .failed

/-- The assertion before each statement. -/
def slotsBefore (timely : Prop) : Instr → Pipeline ω → Prop
  | .testAlive, s | .command, s | .executeStart, s | .executeStop, s => s.Settled timely
  | .clearError, s | .setState .running, s | .setState .terminated, s => s.Empty
  | .setBlocking, s | .startSending, s => s.state = .running ∧ s.Empty
  | .awaitSending, s | .startProcessing, s =>
    s.Starting ∧ s.sending.thread ≠ none ∧ s.processing.thread = none ∧ s.receiving.thread = none
  | .awaitProcessing, s | .startReceiving, s =>
    s.Starting ∧ s.sending.thread ≠ none ∧ s.processing.thread ≠ none ∧ s.receiving.thread = none
  | .awaitReceiving, s => s.Starting ∧ s.Full
  | .connectorStop, s | .setNonBlocking, s | .joinReceiving, s => s.Stopping
  | .notifyProcessing, s | .joinProcessing, s => s.Stopping ∧ s.receiving.thread = none
  | .joinSending, s => s.Stopping ∧ s.receiving.thread = none ∧ s.processing.thread = none
  | .setState .stopped, s => s.Stopping ∧ s.Empty
  | .freeResources, s => s.Empty
  | _, _ => True

/-! ## What the other threads keep -/

section Apart

variable {s t : Pipeline ω} (apart : Apart s t)

include apart

theorem Apart.full : t.Full ↔ s.Full :=
  ⟨fun h => ⟨mt apart.receiving.mpr h.receiving, mt apart.processing.mpr h.processing, mt apart.sending.mpr h.sending⟩,
    fun h => ⟨mt apart.receiving.mp h.receiving, mt apart.processing.mp h.processing, mt apart.sending.mp h.sending⟩⟩

theorem Apart.settled {timely : Prop} (settled : s.Settled timely) : t.Settled timely := by
  rcases apart.state with same | ⟨failed, _⟩
  · rwa [Settled, same, apart.empty, apart.full]
  · exact .inr (.inr failed)

theorem Apart.starting (starting : s.Starting) : t.Starting := by
  rcases apart.state with same | ⟨failed, _⟩
  · rwa [Starting, same]
  · exact .inr failed

theorem Apart.stopping (stopping : s.Stopping) : t.Stopping := by
  rcases apart.state with same | ⟨failed, _⟩
  · rwa [Stopping, same]
  · exact .inr failed

/-- Without a worker the state stays. -/
theorem Apart.running (running : s.state = .running ∧ s.Empty) : t.state = .running ∧ t.Empty := by
  rcases apart.state with same | ⟨_, worker⟩
  · exact ⟨same.trans running.1, apart.empty.mpr running.2⟩
  · exact absurd running.2 worker

theorem Apart.slotsBefore {timely : Prop} {i : Instr} (before : Pipeline.slotsBefore timely i s) :
    Pipeline.slotsBefore timely i t := by
  cases i with
  | testAlive | command | executeStart | executeStop => exact apart.settled before
  | clearError => exact apart.empty.mpr before
  | setBlocking | startSending => exact apart.running before
  | awaitSending | startProcessing =>
    obtain ⟨starting, sending, processing, receiving⟩ := before
    exact ⟨apart.starting starting, mt apart.sending.mp sending, apart.processing.mpr processing,
      apart.receiving.mpr receiving⟩
  | awaitProcessing | startReceiving =>
    obtain ⟨starting, sending, processing, receiving⟩ := before
    exact ⟨apart.starting starting, mt apart.sending.mp sending, mt apart.processing.mp processing,
      apart.receiving.mpr receiving⟩
  | awaitReceiving => exact ⟨apart.starting before.1, apart.full.mpr before.2⟩
  | connectorStop | setNonBlocking | joinReceiving => exact apart.stopping before
  | notifyProcessing | joinProcessing => exact ⟨apart.stopping before.1, apart.receiving.mpr before.2⟩
  | joinSending =>
    exact ⟨apart.stopping before.1, apart.receiving.mpr before.2.1, apart.processing.mpr before.2.2⟩
  | setState st =>
    cases st with
    | running | terminated => exact apart.empty.mpr before
    | stopped => exact ⟨apart.stopping before.1, apart.empty.mpr before.2⟩
    | _ => trivial
  | freeResources => exact apart.empty.mpr before

end Apart

/-! ## The control thread -/

/-- `connector_in_->stop()` returns, as every `do_stop` of the connectors does. -/
def StopReturns (a : Action) (s : Pipeline ω) : Prop :=
  ∀ e rest, a = .control (.error e) → s.control ≠ .connectorStop :: rest

/-- `Thread::start` of the sending or of the processing thread gives up waiting. -/
def GivesUp (a : Action) (s : Pipeline ω) : Prop :=
  ∃ e rest, a = .control (.error e) ∧
    (s.control = .awaitSending :: rest ∧ (s.sending.state = .starting ∨ s.sending.state = .unkn) ∨
      s.control = .awaitProcessing :: rest ∧ (s.processing.state = .starting ∨ s.processing.state = .unkn))

/-- What is established behind `execute_stop`, whatever comes next. -/
theorem slotsBefore_of_stopped {timely : Prop} {s : Pipeline ω} {i j : Instr} (stopped : s.state = .stopped)
    (empty : s.Empty) (next : i = .executeStop ∨ i = .setState .stopped) (follows : i.precedes j) :
    slotsBefore timely j s := by
  have settled : s.Settled timely := .inl ⟨.inl stopped, empty⟩
  have cases : j = .command ∨ j = .executeStart ∨ j = .clearError ∨ j = .setState .terminated := by
    rcases next with rfl | rfl <;> simpa [Instr.precedes] using follows
  rcases cases with rfl | rfl | rfl | rfl
  · exact settled
  · exact settled
  · exact empty
  · exact empty

theorem Apart.controlCaught (s : Pipeline ω) (e : Exn) : Apart s (s.controlCaught e) := by
  unfold Pipeline.controlCaught
  split <;> exact .of_same rfl rfl rfl rfl

/-- The handlers of `run_control` go on with a test of the state or with a stop. -/
theorem slotsBefore_controlCaught {timely : Prop} {s : Pipeline ω} (settled : s.Settled timely) (e : Exn) :
    ∀ j later, (s.controlCaught e).control = j :: later → slotsBefore timely j (s.controlCaught e) := by
  intro j later next
  have caught := (Apart.controlCaught s e).settled settled
  have cases : j = .executeStop ∨ j = .testAlive := by
    unfold Pipeline.controlCaught at next
    split at next <;> cases next <;> simp
  rcases cases with rfl | rfl
  · exact caught
  · exact caught

theorem await_cases {s t : Pipeline ω} {st : ThreadState} {call : Except Exn Unit} {rest : List Instr}
    (h : s.await st call rest = some t) :
    t = { s with control := rest } ∨
      (∃ e, call = .error e) ∧ (st = .starting ∨ st = .unkn) ∧ t = s.controlCaught timeoutError := by
  unfold Pipeline.await at h
  split at h
  · cases h; exact .inl rfl
  case isFalse waiting =>
    cases call with
    | ok _ => cases h
    | error e =>
      cases h
      refine .inr ⟨⟨e, rfl⟩, ?_, rfl⟩
      by_contra neither
      exact waiting (not_or.mp neither)

/-- A start of the threads settles, when the last of them has been waited for. -/
theorem Starting.settled {timely : Prop} {s : Pipeline ω} (starting : s.Starting)
    (complete : timely → s.state = .running → s.Full) : s.Settled timely := by
  rcases starting with running | failed
  · exact .inr (.inl ⟨running, fun on => complete on running⟩)
  · exact .inr (.inr failed)

/-- A wait for a thread goes on to the next statement, or to the handlers when its time is up. -/
theorem slotsBefore_await {timely : Prop} {s t : Pipeline ω} {st : ThreadState} {call : Except Exn Unit}
    {rest : List Instr} (h : s.await st call rest = some t)
    (expired : (∃ e, call = .error e) → st = .starting ∨ st = .unkn → s.Settled timely)
    (awaited : ∀ j later, rest = j :: later → slotsBefore timely j s) :
    ∀ j later, t.control = j :: later → slotsBefore timely j t := by
  intro j later next
  rcases await_cases h with rfl | ⟨thrown, waiting, rfl⟩
  · have apart : Apart s { s with control := rest } := .of_same rfl rfl rfl rfl
    exact apart.slotsBefore (awaited j later next)
  · exact slotsBefore_controlCaught (expired thrown waiting) timeoutError j later next

section Statement

variable {timely : Prop} {s t : Pipeline ω} {call : Except Exn Unit} {rest : List Instr}

/-- A statement that leaves the state and the threads alone. -/
theorem slotsBefore_still (s : Pipeline ω) {u : Pipeline ω} {j : Instr} (state : u.state = s.state)
    (receiving : u.receiving.thread = s.receiving.thread) (processing : u.processing.thread = s.processing.thread)
    (sending : u.sending.thread = s.sending.thread) (holds : slotsBefore timely j s) : slotsBefore timely j u :=
  (Apart.of_same state receiving processing sending).slotsBefore holds

/-- A command is looked at, or there is none. -/
theorem slotsBefore_command (settled : s.Settled timely) (h : s.runControl call (.command :: rest) = some t) :
    ∀ j later, t.control = j :: later → slotsBefore timely j t := by
  intro j later next
  simp only [runControl] at h
  split at h <;> cases h
  case h_1 cmd cQueue taken =>
    have cases : j = .executeStart ∨ j = .executeStop ∨ j = .command := by
      cases cmd <;> cases next <;> simp
    rcases cases with rfl | rfl | rfl <;> exact slotsBefore_still s rfl rfl rfl rfl settled
  case h_2 e _ => exact slotsBefore_controlCaught settled e j later next

/-- A start does nothing to a pipeline that is running, and begins with a stop of one that is not stopped. -/
theorem slotsBefore_executeStart (course : Course (.executeStart :: rest)) (settled : s.Settled timely)
    (h : s.runControl call (.executeStart :: rest) = some t) :
    ∀ j later, t.control = j :: later → slotsBefore timely j t := by
  intro j later next
  simp only [runControl] at h
  split at h
  · cases h
    cases next
    obtain rfl : j = .command := by simpa [Instr.precedes] using course.1
    exact slotsBefore_still s rfl rfl rfl rfl settled
  case isFalse inactive =>
    cases h
    by_cases stopped : s.state = .stopped
    · simp only [stopped, ne_eq, not_true_eq_false, if_false, List.nil_append] at next
      cases next
      have empty : s.Empty := by
        rcases settled with ⟨_, empty⟩ | ⟨running, _⟩ | failed
        · exact empty
        · exact absurd (.inl running) inactive
        · cases stopped.symm.trans failed
      exact slotsBefore_still s rfl rfl rfl rfl (j := .clearError) empty
    · simp only [stopped, ne_eq, not_false_eq_true, if_true] at next
      cases next
      exact slotsBefore_still s rfl rfl rfl rfl (j := .executeStop) settled

/-- A stop does nothing to a pipeline that is stopped. -/
theorem slotsBefore_executeStop (course : Course (.executeStop :: rest)) (settled : s.Settled timely)
    (h : s.runControl call (.executeStop :: rest) = some t) :
    ∀ j later, t.control = j :: later → slotsBefore timely j t := by
  intro j later next
  simp only [runControl] at h
  split at h
  case isTrue skipped =>
    cases h
    cases next
    obtain ⟨stopped, empty⟩ : s.state = .stopped ∧ s.Empty := by
      rcases settled with ⟨stopped | terminated, empty⟩ | ⟨running, _⟩ | failed
      · exact ⟨stopped, empty⟩
      all_goals simp_all
    exact slotsBefore_still s rfl rfl rfl rfl (slotsBefore_of_stopped stopped empty (.inl rfl) course.1)
  · cases h
    cases next
    trivial

/-- What has been established for a state is what the statement behind it asks for. -/
theorem slotsBefore_setState {st : PipelineState} (course : Course (.setState st :: rest))
    (before : slotsBefore timely (.setState st) s) :
    ∀ j later, rest = j :: later → slotsBefore timely j { s with state := st, control := rest } := by
  rintro j later rfl
  cases st with
  | running =>
    obtain rfl : j = .setBlocking := by simpa [Instr.precedes] using course.1
    exact ⟨rfl, before.receiving, before.processing, before.sending⟩
  | terminated =>
    have cases : j = .command ∨ j = .testAlive := by simpa [Instr.precedes] using course.1
    have settled : Settled timely { s with state := .terminated, control := j :: later } :=
      .inl ⟨.inr rfl, before.receiving, before.processing, before.sending⟩
    rcases cases with rfl | rfl <;> exact settled
  | stopped =>
    exact slotsBefore_of_stopped rfl ⟨before.2.receiving, before.2.processing, before.2.sending⟩ (.inr rfl) course.1
  | stopping =>
    obtain rfl : j = .connectorStop := by simpa [Instr.precedes] using course.1
    exact .inl rfl
  | _ => cases course.1

/-- One statement. -/
theorem slotsBefore_control {i : Instr} (here : s.control = i :: rest) (course : Course (i :: rest)) (returns : StopReturns (.control call) s)
    (patient : timely → s.state = .running → ¬ GivesUp (.control call) s) (before : slotsBefore timely i s)
    (h : s.runControl call (i :: rest) = some t) : ∀ j later, t.control = j :: later → slotsBefore timely j t := by
  intro j later next
  cases i with
  | testAlive =>
    cases h
    cases alive : s.isAlive with
    | true =>
      simp only [alive, if_true] at next
      cases next
      exact slotsBefore_still s rfl rfl rfl rfl before
    | false =>
      simp only [alive, Bool.false_eq_true, if_false] at next
      cases next
      exact slotsBefore_still s rfl rfl rfl rfl (j := .freeResources) (before.empty_of_dead alive)
  | command => exact slotsBefore_command before h j later next
  | executeStart => exact slotsBefore_executeStart course before h j later next
  | executeStop => exact slotsBefore_executeStop course before h j later next
  | setState st =>
    cases h
    exact slotsBefore_setState course before j later next
  | clearError | setNonBlocking =>
    cases h
    cases next
    obtain rfl := of_decide_eq_true course.1
    exact slotsBefore_still s rfl rfl rfl rfl before
  | setBlocking =>
    cases h
    cases next
    obtain rfl := of_decide_eq_true course.1
    exact slotsBefore_still s rfl rfl rfl rfl (j := .startSending) before
  | connectorStop =>
    cases call with
    | ok _ =>
      cases h
      cases next
      obtain rfl := of_decide_eq_true course.1
      exact slotsBefore_still s rfl rfl rfl rfl (j := .setNonBlocking) before
    | error e => exact absurd here (returns e rest rfl)
  | startSending =>
    obtain ⟨running, empty⟩ := before
    simp only [runControl, empty.sending] at h
    cases h
    cases next
    obtain rfl := of_decide_eq_true course.1
    exact ⟨.inl running, by simp [sendingAt], empty.processing, empty.receiving⟩
  | awaitSending =>
    refine slotsBefore_await h ?_ ?_ j later next
    · rintro ⟨e, rfl⟩ waiting
      exact Starting.settled before.1 fun on running =>
        absurd ⟨e, rest, rfl, .inl ⟨here, waiting⟩⟩ (patient on running)
    · rintro _ _ rfl
      obtain rfl := of_decide_eq_true course.1
      exact before
  | startProcessing =>
    obtain ⟨starting, sending, processing, receiving⟩ := before
    simp only [runControl, processing] at h
    cases h
    cases next
    obtain rfl := of_decide_eq_true course.1
    exact ⟨starting, sending, by simp [processingAt], receiving⟩
  | awaitProcessing =>
    refine slotsBefore_await h ?_ ?_ j later next
    · rintro ⟨e, rfl⟩ waiting
      exact Starting.settled before.1 fun on running =>
        absurd ⟨e, rest, rfl, .inr ⟨here, waiting⟩⟩ (patient on running)
    · rintro _ _ rfl
      obtain rfl := of_decide_eq_true course.1
      exact before
  | startReceiving =>
    obtain ⟨starting, sending, processing, receiving⟩ := before
    simp only [runControl, receiving] at h
    cases h
    cases next
    obtain rfl := of_decide_eq_true course.1
    exact ⟨starting, ⟨by simp [receivingAt], processing, sending⟩⟩
  | awaitReceiving =>
    have settled : s.Settled timely := Starting.settled before.1 fun _ _ => before.2
    refine slotsBefore_await h (fun _ _ => settled) ?_ j later next
    rintro _ _ rfl
    obtain rfl := of_decide_eq_true course.1
    exact settled
  | joinReceiving =>
    simp only [runControl] at h
    split at h <;> cases h <;> cases next <;> obtain rfl := of_decide_eq_true course.1
    case h_1 gone => exact ⟨before, gone⟩
    case h_2 => exact ⟨before, rfl⟩
  | notifyProcessing =>
    simp only [runControl] at h
    split at h <;> cases h
    · have aside := Aside.notify s
      rw [aside.control, here] at next
      cases next
      exact aside.slotsBefore (i := .notifyProcessing) before
    · cases next
      obtain rfl := of_decide_eq_true course.1
      exact slotsBefore_still s rfl rfl rfl rfl (j := .joinProcessing) before
  | joinProcessing =>
    simp only [runControl] at h
    split at h <;> cases h <;> cases next <;> obtain rfl := of_decide_eq_true course.1
    case h_1 gone => exact ⟨before.1, before.2, gone⟩
    case h_2 => exact ⟨before.1, before.2, rfl⟩
  | joinSending =>
    simp only [runControl] at h
    split at h <;> cases h <;> cases next <;> obtain rfl := of_decide_eq_true course.1
    case h_1 gone => exact ⟨before.1, before.2.1, before.2.2, gone⟩
    case h_2 => exact ⟨before.1, before.2.1, before.2.2, rfl⟩
  | freeResources => cases h; cases next; cases course.1

end Statement

/-- The step, of whatever thread. -/
theorem Annotated.slots {chain : List (Filtra ω)} {timely : Prop} {a : Action} {s t : Pipeline ω}
    (slots : Annotated (slotsBefore timely) s) (returns : StopReturns a s)
    (patient : timely → s.state = .running → ¬ GivesUp a s) (h : step chain a s = some t) :
    Annotated (slotsBefore timely) t := by
  by_cases control : ∃ call, a = .control call
  · obtain ⟨call, rfl⟩ := control
    apply slots.control h
    intro i rest here course before
    exact slotsBefore_control here course returns patient before (here ▸ h)
  · have aside := Aside.step (fun call same => control ⟨call, same⟩) h
    exact slots.aside aside fun _ _ _ before => aside.slotsBefore before

theorem Annotated.slots_prepared (timely : Prop) (world : ω) : Annotated (slotsBefore timely) (prepared world) where
  course := .inl rfl
  holds := fun i rest here => by cases here; exact .inl ⟨.inl rfl, rfl, rfl, rfl⟩

theorem Annotated.settled {timely : Prop} {s : Pipeline ω} (slots : Annotated (slotsBefore timely) s)
    (between : s.Between) : s.Settled timely := by
  rcases between with here | here
  · exact slots.holds _ _ here
  · exact slots.holds _ _ here

/-! ## How many workers there are -/

end Pipeline

/-- `1` until the thread ends. -/
def ReceivingPc.live : ReceivingPc → Nat
  | .done => 0
  | _ => 1

/-- The same behind the next step. -/
def ReceivingPc.liveBehind : ReceivingPc → Nat
  | .finish => 0
  | _ => 1

def ProcessingPc.live : ProcessingPc → Nat
  | .done => 0
  | _ => 1

def ProcessingPc.liveBehind : ProcessingPc → Nat
  | .finish => 0
  | _ => 1

def SendingPc.live : SendingPc → Nat
  | .done => 0
  | _ => 1

def SendingPc.liveBehind : SendingPc → Nat
  | .finish => 0
  | _ => 1

theorem ReceivingPc.live_of_ends {pc next : ReceivingPc} (ends : next = .done ↔ pc = .finish) :
    next.live = pc.liveBehind := by
  by_cases last : pc = .finish
  · rw [last, ends.mpr last]
    rfl
  · have inside := mt ends.mp last
    trans 1
    · cases next <;> simp_all [live]
    · cases pc <;> simp_all [liveBehind]

theorem ProcessingPc.live_of_ends {pc next : ProcessingPc} (ends : next = .done ↔ pc = .finish) :
    next.live = pc.liveBehind := by
  by_cases last : pc = .finish
  · rw [last, ends.mpr last]
    rfl
  · have inside := mt ends.mp last
    trans 1
    · cases next <;> simp_all [live]
    · cases pc <;> simp_all [liveBehind]

theorem SendingPc.live_of_ends {pc next : SendingPc} (ends : next = .done ↔ pc = .finish) :
    next.live = pc.liveBehind := by
  by_cases last : pc = .finish
  · rw [last, ends.mpr last]
    rfl
  · have inside := mt ends.mp last
    trans 1
    · cases next <;> simp_all [live]
    · cases pc <;> simp_all [liveBehind]

/-- How many threads of each kind have been created and have not ended. -/
@[ext] structure Workers where
  receiving : Nat := 0
  processing : Nat := 0
  sending : Nat := 0

namespace Pipeline

variable {ω : Type}

/-- A `new std::thread` in `Thread::start`, and the return of a thread's function. -/
def countWorkers (w : Workers) (s : Pipeline ω) (a : Action) : Workers :=
  match a, s.control with
  | .control _, .startReceiving :: _ => if s.receiving.thread.isNone then { w with receiving := w.receiving + 1 } else w
  | .control _, .startProcessing :: _ =>
    if s.processing.thread.isNone then { w with processing := w.processing + 1 } else w
  | .control _, .startSending :: _ => if s.sending.thread.isNone then { w with sending := w.sending + 1 } else w
  | .receiving _, _ =>
    match s.receiving.thread with
    | some .finish => { w with receiving := w.receiving - 1 }
    | _ => w
  | .processing _, _ =>
    match s.processing.thread with
    | some .finish => { w with processing := w.processing - 1 }
    | _ => w
  | .sending _, _ =>
    match s.sending.thread with
    | some .finish => { w with sending := w.sending - 1 }
    | _ => w
  | _, _ => w

/-- The workers that the three `Thread` objects hold. -/
def heldWorkers (s : Pipeline ω) : Workers where
  receiving := s.receiving.thread.elim 0 ReceivingPc.live
  processing := s.processing.thread.elim 0 ProcessingPc.live
  sending := s.sending.thread.elim 0 SendingPc.live

theorem heldWorkers_notify (s : Pipeline ω) : s.notify.heldWorkers = s.heldWorkers := by
  unfold notify
  split
  case h_1 blocked => simp [heldWorkers, processingAt, blocked, ProcessingPc.live]
  case h_2 => rfl

theorem heldWorkers_runReceiving {s t : Pipeline ω} {call : Except Exn Message} {pc : ReceivingPc}
    (h : s.runReceiving call pc = some t) :
    t.heldWorkers = { s.heldWorkers with receiving := pc.liveBehind } := by
  have moved := runReceiving_step h
  obtain ⟨next, there, ends⟩ := moved.moved
  have processing : t.heldWorkers.processing = s.heldWorkers.processing := by
    rcases moved.processing with same | woken
    · exact congrArg (fun p : Thread ProcessingPc => p.thread.elim 0 ProcessingPc.live) same
    · exact (congrArg (fun p : Thread ProcessingPc => p.thread.elim 0 ProcessingPc.live) woken).trans
        (congrArg Workers.processing (heldWorkers_notify s))
  ext
  · simp only [heldWorkers, there, Option.elim_some]
    exact ReceivingPc.live_of_ends ends
  · exact processing
  · simp only [heldWorkers, moved.sending]

theorem heldWorkers_runSending {s t : Pipeline ω} {call : Except Exn Unit} {pc : SendingPc}
    (h : s.runSending call pc = some t) :
    t.heldWorkers = { s.heldWorkers with sending := pc.liveBehind } := by
  have moved := runSending_step h
  obtain ⟨next, there, ends⟩ := moved.moved
  simp only [heldWorkers, there, moved.receiving, moved.processing, Option.elim_some, SendingPc.live_of_ends ends]

theorem heldWorkers_runProcessing {chain : List (Filtra ω)} {s t : Pipeline ω}
    {queues : String → InternalQueue Message} {pc : ProcessingPc} (h : s.runProcessing chain queues pc = some t) :
    t.heldWorkers = { s.heldWorkers with processing := pc.liveBehind } := by
  have moved := runProcessing_step h
  obtain ⟨next, there, ends⟩ := moved.moved
  simp only [heldWorkers, there, moved.receiving, moved.sending, Option.elim_some, ProcessingPc.live_of_ends ends]

theorem heldWorkers_runControl {s t : Pipeline ω} {call : Except Exn Unit}
    (h : s.runControl call s.control = some t) : t.heldWorkers = countWorkers s.heldWorkers s (.control call) := by
  unfold countWorkers
  cases here : s.control with
  | nil => rw [here] at h; cases h
  | cons i rest =>
    rw [here] at h
    cases (runControl_step h).threads with
    | startReceiving free begun processing sending =>
      simp [heldWorkers, free, begun, processing, sending, ReceivingPc.live]
    | startProcessing free begun receiving sending =>
      simp [heldWorkers, free, begun, receiving, sending, ProcessingPc.live]
    | startSending free begun receiving processing =>
      simp [heldWorkers, free, begun, receiving, processing, SendingPc.live]
    | joinReceiving ended joined processing sending =>
      simp [heldWorkers, ended, joined, processing, sending, ReceivingPc.live]
    | joinProcessing ended joined receiving sending =>
      simp [heldWorkers, ended, joined, receiving, sending, ProcessingPc.live]
    | joinSending ended joined receiving processing =>
      simp [heldWorkers, ended, joined, receiving, processing, SendingPc.live]
    | notify receiving processing sending =>
      have woken := heldWorkers_notify s
      simp only [heldWorkers, receiving, processing, sending, s.notify_rest.1, s.notify_rest.2.1] at woken ⊢
      exact woken
    | none i receiving processing sending startReceiving startProcessing startSending =>
      have same : t.heldWorkers = s.heldWorkers := by simp only [heldWorkers, receiving, processing, sending]
      rw [same]
      cases i with
      | startReceiving => simp [startReceiving rfl]
      | startProcessing => simp [startProcessing rfl]
      | startSending => simp [startSending rfl]
      | _ => rfl

/-- The count of the workers is the count of those that the `Thread` objects hold. -/
theorem heldWorkers_step {chain : List (Filtra ω)} {a : Action} {s t : Pipeline ω} (h : step chain a s = some t) :
    t.heldWorkers = countWorkers s.heldWorkers s a := by
  cases a with
  | execute cmd =>
    simp only [step] at h
    split at h
    · split at h <;> cases h <;> rfl
    · cases h
  | control call => exact heldWorkers_runControl h
  | receiving call =>
    obtain ⟨pc, here, next⟩ := Option.bind_eq_some_iff.mp h
    rw [heldWorkers_runReceiving next]
    cases pc with
    | done => cases next
    | _ => simp [countWorkers, here, heldWorkers, ReceivingPc.live, ReceivingPc.liveBehind]
  | processing queues =>
    obtain ⟨pc, here, next⟩ := Option.bind_eq_some_iff.mp h
    rw [heldWorkers_runProcessing next]
    cases pc with
    | done => cases next
    | _ => simp [countWorkers, here, heldWorkers, ProcessingPc.live, ProcessingPc.liveBehind]
  | sending call =>
    obtain ⟨pc, here, next⟩ := Option.bind_eq_some_iff.mp h
    rw [heldWorkers_runSending next]
    cases pc with
    | done => cases next
    | _ => simp [countWorkers, here, heldWorkers, SendingPc.live, SendingPc.liveBehind]
  | timerPush =>
    simp only [step] at h
    split at h <;> cases h <;> rfl
  | timerNotify =>
    simp only [step] at h
    split at h <;> cases h
    exact heldWorkers_notify s
  | wakeup => cases h; exact heldWorkers_notify s

/-- `Thread::start` is called on a `Thread` that holds a thread, and throws. -/
def StartsTwice (s : Pipeline ω) : Prop :=
  ∃ rest, s.control = .startReceiving :: rest ∧ s.receiving.thread ≠ none ∨
    s.control = .startProcessing :: rest ∧ s.processing.thread ≠ none ∨
    s.control = .startSending :: rest ∧ s.sending.thread ≠ none

theorem Annotated.not_startsTwice {timely : Prop} {s : Pipeline ω} (slots : Annotated (slotsBefore timely) s) :
    ¬ s.StartsTwice := by
  rintro ⟨rest, ⟨here, holds⟩ | ⟨here, holds⟩ | ⟨here, holds⟩⟩
  · exact holds (slots.holds _ _ here).2.2.2
  · exact holds (slots.holds _ _ here).2.2.1
  · exact holds (slots.holds _ _ here).2.sending

/-- The threads that the objects hold are at most one of each kind. -/
theorem heldWorkers_le_one (s : Pipeline ω) :
    s.heldWorkers.receiving ≤ 1 ∧ s.heldWorkers.processing ≤ 1 ∧ s.heldWorkers.sending ≤ 1 := by
  refine ⟨?_, ?_, ?_⟩
  · rcases here : s.receiving.thread with _ | pc
    · simp [heldWorkers, here]
    · cases pc <;> simp [heldWorkers, here, ReceivingPc.live]
  · rcases here : s.processing.thread with _ | pc
    · simp [heldWorkers, here]
    · cases pc <;> simp [heldWorkers, here, ProcessingPc.live]
  · rcases here : s.sending.thread with _ | pc
    · simp [heldWorkers, here]
    · cases pc <;> simp [heldWorkers, here, SendingPc.live]

end Pipeline

/-- A pipeline with the count of its workers. -/
structure Watched (ω : Type) where
  pipeline : Pipeline ω
  workers : Workers := {}

namespace Watched

variable {ω : Type}

inductive Action where
  | thread (a : Pipeline.Action)
  /-- A worker sets `state_` to `FAILED`. -/
  | fail (e : Exn)

instance (s : Pipeline ω) : Decidable s.Empty :=
  decidable_of_iff (s.receiving.thread.isNone ∧ s.processing.thread.isNone ∧ s.sending.thread.isNone)
    ⟨fun ⟨r, p, q⟩ => ⟨by simpa using r, by simpa using p, by simpa using q⟩,
      fun empty => by simp [empty.receiving, empty.processing, empty.sending]⟩

def step (chain : List (Filtra ω)) : Action → Watched ω → Option (Watched ω)
  | .thread a, m =>
    (m.pipeline.step chain a).map fun pipeline => ⟨pipeline, Pipeline.countWorkers m.workers m.pipeline a⟩
  | .fail e, m => if m.pipeline.Empty then none else some { m with pipeline := m.pipeline.fail e }

/-- The commands come from `START`, `STOP` and `RESTART`, and `connector_in_->stop()` returns. -/
structure Commanded (a : Action) (m : Watched ω) : Prop where
  commands : ∀ cmd, a = .thread (.execute cmd) → cmd = .start ∨ cmd = .stop ∨ cmd = .restart
  returns : ∀ b, a = .thread b → Pipeline.StopReturns b m.pipeline

/-- What the run keeps. -/
structure Safe (m : Watched ω) : Prop where
  once : ¬ m.pipeline.StartsTwice
  receiving : m.workers.receiving ≤ 1
  processing : m.workers.processing ≤ 1
  sending : m.workers.sending ≤ 1
  stopped : m.pipeline.Between → m.pipeline.state = .stopped → m.pipeline.Empty

theorem slots_step {chain : List (Filtra ω)} {a : Action} {m n : Watched ω} (commanded : Commanded a m)
    (slots : Pipeline.Annotated (Pipeline.slotsBefore False) m.pipeline) (counted : m.workers = m.pipeline.heldWorkers)
    (h : step chain a m = some n) :
    Pipeline.Annotated (Pipeline.slotsBefore False) n.pipeline ∧ n.workers = n.pipeline.heldWorkers := by
  cases a with
  | thread b =>
    obtain ⟨pipeline, moved, rfl⟩ := Option.map_eq_some_iff.mp h
    refine ⟨slots.slots (commanded.returns b rfl) (fun never => never.elim) moved, ?_⟩
    rw [Pipeline.heldWorkers_step moved, ← counted]
  | fail e =>
    by_cases empty : m.pipeline.Empty
    · simp [step, empty] at h
    · simp only [step, empty, if_false] at h
      cases h
      have aside := Pipeline.Aside.fail empty e
      exact ⟨slots.aside aside fun _ _ _ before => aside.slotsBefore before, counted⟩

/-- The run. -/
theorem slots_safe (chain : List (Filtra ω)) (world : ω) (m : Watched ω)
    (reached : Lib.ReachesWhen (step chain) Commanded { pipeline := Pipeline.prepared world } m) : Safe m := by
  obtain ⟨slots, counted⟩ := reached.invariant
    (fun m => Pipeline.Annotated (Pipeline.slotsBefore False) m.pipeline ∧ m.workers = m.pipeline.heldWorkers)
    ⟨.slots_prepared False world, rfl⟩ fun a m n commanded inv h => slots_step commanded inv.1 inv.2 h
  obtain ⟨receiving, processing, sending⟩ := m.pipeline.heldWorkers_le_one
  refine ⟨slots.not_startsTwice, counted ▸ receiving, counted ▸ processing, counted ▸ sending, ?_⟩
  intro between stopped
  rcases slots.settled between with ⟨_, empty⟩ | ⟨running, _⟩ | failed
  · exact empty
  · cases stopped.symm.trans running
  · cases stopped.symm.trans failed

/-- A sending thread fails while the receiving thread is about to be started. -/
def failedAtStart : List Action :=
  let control := Action.thread (.control (.ok ()))
  .thread (.execute .start) :: List.replicate 7 control ++
    -- the sending thread and the processing thread get going
    List.replicate 3 (.thread (.sending (.ok ()))) ++ List.replicate 2 control ++
    List.replicate 3 (.thread (.processing fun _ => {})) ++
    .fail ⟨.runtimeError, "Connection lost"⟩ :: List.replicate 2 control

def failedStart : Watched Unit :=
  (Lib.exec (step []) failedAtStart { pipeline := Pipeline.prepared () }).getD { pipeline := Pipeline.prepared () }

theorem slots_safe_failedStart : Safe failedStart := by
  refine slots_safe [] () failedStart (Lib.exec_reachesWhen failedAtStart ?_ rfl)
  intro a member s
  refine ⟨fun cmd same => ?_, fun b same e rest error => ?_⟩
  · subst same
    simp [failedAtStart] at member
    exact .inl member
  · subst same error
    simp [failedAtStart] at member

example : failedStart.workers = ⟨1, 1, 1⟩ := rfl

end Watched

/-! ## A start that is given up -/

namespace Pipeline

variable {ω : Type}

/-- A pipeline that is reported as running has all three workers, started in this run:
the run began without any. -/
structure Complete (s : Pipeline ω) : Prop where
  begins : s.control.head? = some (.setState .running) → s.Empty
  running : s.Between → s.state = .running → s.Full

/-- The condition on a step: no `Thread::start` of the sending or of the processing
thread gives up while the pipeline is running. -/
structure Patient (a : Action) (s : Pipeline ω) : Prop where
  returns : StopReturns a s
  waits : s.state = .running → ¬ GivesUp a s

theorem Annotated.complete {s : Pipeline ω} (slots : Annotated (slotsBefore True) s) : s.Complete where
  begins := fun here => by
    obtain ⟨rest, here⟩ := List.head?_eq_some_iff.mp here
    exact slots.holds _ _ here
  running := fun between running => by
    rcases slots.settled between with ⟨stopped | terminated, _⟩ | ⟨_, full⟩ | failed
    · cases running.symm.trans stopped
    · cases running.symm.trans terminated
    · exact full trivial
    · cases running.symm.trans failed

/-- The thread that has still to be started is missing when the one before it gives up. -/
theorem Annotated.given_up {timely : Prop} {a : Action} {s t : Pipeline ω} {chain : List (Filtra ω)}
    (slots : Annotated (slotsBefore timely) s) (running : s.state = .running) (gives : GivesUp a s)
    (h : step chain a s = some t) : ¬ t.Complete := by
  obtain ⟨e, rest, rfl, here⟩ := gives
  have missing : s.receiving.thread = none := by
    rcases here with ⟨here, _⟩ | ⟨here, _⟩
    · exact (slots.holds _ _ here).2.2.2
    · exact (slots.holds _ _ here).2.2.2
  obtain rfl : t = s.controlCaught timeoutError := by
    rcases here with ⟨here, waiting⟩ | ⟨here, waiting⟩
    · rcases waiting with waiting | waiting <;> simpa [step, here, runControl, await, waiting] using h.symm
    · rcases waiting with waiting | waiting <;> simpa [step, here, runControl, await, waiting] using h.symm
  intro complete
  exact (complete.running (.inl rfl) running).receiving missing

/-- The run, and what is at fault in a step that does not meet the condition. -/
theorem running_complete (chain : List (Filtra ω)) (world : ω) :
    (∀ s, Lib.ReachesWhen (step chain) Patient (prepared world) s → s.Complete) ∧
      ∀ s t a, Lib.ReachesWhen (step chain) StopReturns (prepared world) s → step chain a s = some t →
        s.state = .running → GivesUp a s → ¬ t.Complete := by
  refine ⟨fun s reached => ?_, fun s t a reached h running gives => ?_⟩
  · have slots := reached.invariant (Annotated (slotsBefore True)) (.slots_prepared True world)
      fun a s t patient slots h => slots.slots patient.returns (fun _ => patient.waits) h
    exact slots.complete
  · have slots := reached.invariant (Annotated (slotsBefore False)) (.slots_prepared False world)
      fun a s t returns slots h => slots.slots returns (fun never => never.elim) h
    exact slots.given_up running gives h

/-- `START` up to the wait for the sending thread, which is in `connector_out_->connect()`. -/
def connectHangs : List Action := .execute .start :: List.replicate 7 (.control (.ok ())) ++ [.sending (.ok ())]

def connecting : Pipeline Unit := (Lib.exec (step []) connectHangs (prepared ())).getD (prepared ())

theorem connecting_reached : Lib.ReachesWhen (step []) StopReturns (prepared ()) connecting :=
  Lib.exec_reachesWhen connectHangs (by simp [connectHangs, StopReturns]) rfl

def abandoned : Pipeline Unit := (step [] (.control (.error timeoutError)) connecting).getD connecting

theorem running_complete_restarted : restarted.Complete ∧ restarted.state = .running ∧ ¬ abandoned.Complete := by
  have reached : Lib.ReachesWhen (step [.plain, .plain]) Patient (prepared ()) restarted := by
    refine Lib.exec_reachesWhen restarting (fun a member s => ?_) restarted_exec
    have returns : ∀ e, a ≠ .control (.error e) := by
      rintro e rfl
      simp [restarting, startUp, receiveOne, sendOne, stopDown, startAgain] at member
    refine ⟨fun e _ same => absurd same (returns e), ?_⟩
    rintro - ⟨e, _, same, _⟩
    exact returns e same
  have gives : GivesUp (.control (.error timeoutError)) connecting := ⟨timeoutError, _, rfl, .inl ⟨rfl, .inl rfl⟩⟩
  exact ⟨(running_complete [.plain, .plain] ()).1 restarted reached, by decide +kernel,
    (running_complete [] ()).2 connecting abandoned (.control (.error timeoutError)) connecting_reached rfl rfl gives⟩

/-- The next `START` finds the pipeline running, and does nothing. -/
example : (Lib.exec (step []) (.execute .start :: List.replicate 3 (.control (.ok ()))) abandoned).map (·.control) =
    some [.command] := rfl

theorem start_abandoned :
    ¬ ∀ (chain : List (Filtra Unit)) (s : Pipeline Unit), Lib.ReachesWhen (step chain) StopReturns (prepared ()) s →
      s.Complete := by
  intro all
  have reached : Lib.ReachesWhen (step []) StopReturns (prepared ()) abandoned :=
    connecting_reached.tail ⟨.control (.error timeoutError), fun e rest _ here => (by cases here), rfl⟩
  exact ((all [] abandoned reached).running (.inl rfl) rfl).processing rfl

end Pipeline

end M2eBridge
