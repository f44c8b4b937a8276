import M2eBridge.Pipeline.Places

/-!
# The course of the control thread

The statements that the control thread has still to do always stand in the order of
`execute_start`, `execute_stop` and the cases of the `switch` (`Course.step`), so an
invariant of the pipeline can be given as an assertion before each statement: it is kept
when the other threads keep each assertion and each statement establishes that of the
next (`Annotated.step`). What the other threads can do to the state of the pipeline and
to its `Thread` objects is `Aside`.
-/

namespace M2eBridge

/-- The second statement can stand behind the first. -/
def Instr.precedes : Instr → Instr → Bool
  | .executeStop, next | .setState .stopped, next =>
    next = .command ∨ next = .executeStart ∨ next = .clearError ∨ next = .setState .terminated
  | .executeStart, next | .awaitReceiving, next => next = .command
  | .setState .terminated, next => next = .command ∨ next = .testAlive
  | .clearError, next => next = .setState .running
  | .setState .running, next => next = .setBlocking
  | .setBlocking, next => next = .startSending
  | .startSending, next => next = .awaitSending
  | .awaitSending, next => next = .startProcessing
  | .startProcessing, next => next = .awaitProcessing
  | .awaitProcessing, next => next = .startReceiving
  | .startReceiving, next => next = .awaitReceiving
  | .setState .stopping, next => next = .connectorStop
  | .connectorStop, next => next = .setNonBlocking
  | .setNonBlocking, next => next = .joinReceiving
  | .joinReceiving, next => next = .notifyProcessing
  | .notifyProcessing, next => next = .joinProcessing
  | .joinProcessing, next => next = .joinSending
  | .joinSending, next => next = .setState .stopped
  | _, _ => false

/-- What the control thread can have still to do. -/
def Course : List Instr → Prop
  | [] => True
  | [i] => i = .testAlive ∨ i = .command ∨ i = .freeResources
  | i :: j :: rest => i.precedes j ∧ Course (j :: rest)

@[simp] theorem course_cons_cons (i j : Instr) (rest : List Instr) :
    Course (i :: j :: rest) ↔ i.precedes j ∧ Course (j :: rest) := Iff.rfl

@[simp] theorem course_singleton (i : Instr) :
    Course [i] ↔ i = .testAlive ∨ i = .command ∨ i = .freeResources := Iff.rfl

theorem Course.tail {i : Instr} {rest : List Instr} (course : Course (i :: rest)) : Course rest := by
  cases rest with
  | nil => trivial
  | cons j rest => exact course.2

/-- A statement that none can stand behind is the last. -/
theorem Course.next {i : Instr} {rest : List Instr} (course : Course (i :: rest))
    (inside : i ≠ .testAlive ∧ i ≠ .command ∧ i ≠ .freeResources) :
    ∃ j later, rest = j :: later ∧ i.precedes j ∧ Course (j :: later) := by
  cases rest with
  | nil =>
    rcases course with last | last | last
    · exact absurd last inside.1
    · exact absurd last inside.2.1
    · exact absurd last inside.2.2
  | cons j later => exact ⟨j, later, rfl, course⟩

namespace Pipeline

variable {ω : Type}

theorem course_handler (cmd : PipelineCommand) : Course (handler cmd ++ [.command]) := by
  cases cmd <;> simp [handler, Instr.precedes]

theorem course_startBody {rest : List Instr} (course : Course (.executeStart :: rest)) :
    Course (startBody ++ rest) := by
  obtain ⟨j, later, rfl, next, behind⟩ := course.next (by simp)
  simpa [startBody, Instr.precedes] using ⟨by simpa [Instr.precedes] using next, behind⟩

theorem course_stopBody {rest : List Instr} (course : Course (.executeStop :: rest)) : Course (stopBody ++ rest) := by
  obtain ⟨j, later, rfl, next, behind⟩ := course.next (by simp)
  simpa [stopBody, Instr.precedes] using ⟨by simpa [Instr.precedes] using next, behind⟩

theorem Follows.course {s : Pipeline ω} {c d : List Instr} (follows : s.Follows c d) (course : Course c) :
    Course d := by
  cases follows with
  | test => split <;> simp
  | command cmd => exact course_handler cmd
  | start stop rest first =>
    have body := course_startBody course
    rcases first with rfl | rfl
    · exact body
    · exact ⟨rfl, body⟩
  | stop => exact course_stopBody course
  | notify => exact course
  | next => exact course.tail
  | underflow => simp [Instr.precedes]
  | caught => simp

/-! ## The other threads -/

/-- None of the three `Thread` objects holds a thread. -/
structure Empty (s : Pipeline ω) : Prop where
  receiving : s.receiving.thread = none
  processing : s.processing.thread = none
  sending : s.sending.thread = none

/-- What a step that creates no thread and joins none can do to the state and to the
threads: only a worker sets the state, to `FAILED`. -/
structure Apart (s t : Pipeline ω) : Prop where
  state : t.state = s.state ∨ t.state = .failed ∧ ¬ s.Empty
  receiving : t.receiving.thread = none ↔ s.receiving.thread = none
  processing : t.processing.thread = none ↔ s.processing.thread = none
  sending : t.sending.thread = none ↔ s.sending.thread = none

theorem Apart.empty {s t : Pipeline ω} (apart : Apart s t) : t.Empty ↔ s.Empty :=
  ⟨fun h => ⟨apart.receiving.mp h.receiving, apart.processing.mp h.processing, apart.sending.mp h.sending⟩,
    fun h => ⟨apart.receiving.mpr h.receiving, apart.processing.mpr h.processing, apart.sending.mpr h.sending⟩⟩

/-- The step touches neither the state nor a thread's pointer. -/
theorem Apart.of_same {s t : Pipeline ω} (state : t.state = s.state)
    (receiving : t.receiving.thread = s.receiving.thread) (processing : t.processing.thread = s.processing.thread)
    (sending : t.sending.thread = s.sending.thread) : Apart s t :=
  ⟨.inl state, by rw [receiving], by rw [processing], by rw [sending]⟩

/-- A step of another thread than the control thread. -/
structure Aside (s t : Pipeline ω) : Prop extends Apart s t where
  control : t.control = s.control

theorem Aside.trans {s t u : Pipeline ω} (first : Aside s t) (later : Aside t u) : Aside s u where
  control := later.control.trans first.control
  state := by
    rcases later.state with same | ⟨failed, worker⟩
    · exact same ▸ first.state
    · exact .inr ⟨failed, mt first.empty.mpr worker⟩
  receiving := later.receiving.trans first.receiving
  processing := later.processing.trans first.processing
  sending := later.sending.trans first.sending

theorem Aside.of_same {s t : Pipeline ω} (control : t.control = s.control) (state : t.state = s.state)
    (receiving : t.receiving.thread = s.receiving.thread) (processing : t.processing.thread = s.processing.thread)
    (sending : t.sending.thread = s.sending.thread) : Aside s t :=
  ⟨.of_same state receiving processing sending, control⟩

theorem Aside.notify (s : Pipeline ω) : Aside s s.notify := by
  unfold Pipeline.notify
  split
  case h_1 blocked => exact ⟨⟨.inl rfl, .rfl, by simp [processingAt, blocked], .rfl⟩, rfl⟩
  case h_2 => exact .of_same rfl rfl rfl rfl rfl

theorem Aside.fail {s : Pipeline ω} (worker : ¬ s.Empty) (e : Exn) : Aside s (s.fail e) :=
  ⟨⟨.inr ⟨rfl, worker⟩, .rfl, .rfl, .rfl⟩, rfl⟩

/-- A worker is there. -/
theorem not_empty_of_receiving {s : Pipeline ω} {pc : ReceivingPc} (here : s.receiving.thread = some pc) : ¬ s.Empty :=
  fun empty => nomatch here.symm.trans empty.receiving

theorem not_empty_of_processing {s : Pipeline ω} {pc : ProcessingPc} (here : s.processing.thread = some pc) :
    ¬ s.Empty := fun empty => nomatch here.symm.trans empty.processing

theorem not_empty_of_sending {s : Pipeline ω} {pc : SendingPc} (here : s.sending.thread = some pc) : ¬ s.Empty :=
  fun empty => nomatch here.symm.trans empty.sending

theorem Aside.runReceiving {s t : Pipeline ω} {call : Except Exn Message} {pc : ReceivingPc}
    (here : s.receiving.thread = some pc) (h : s.runReceiving call pc = some t) : Aside s t := by
  have moved := runReceiving_step h
  obtain ⟨next, there, -⟩ := moved.moved
  refine ⟨⟨?_, by simp [here, there], ?_, by rw [moved.sending]⟩, moved.control⟩
  · exact moved.state.imp_right fun failed => ⟨failed, not_empty_of_receiving here⟩
  · rcases moved.processing with same | woken
    · rw [same]
    · rw [woken]
      exact (Aside.notify s).processing

theorem Aside.runSending {s t : Pipeline ω} {call : Except Exn Unit} {pc : SendingPc}
    (here : s.sending.thread = some pc) (h : s.runSending call pc = some t) : Aside s t := by
  have moved := runSending_step h
  obtain ⟨next, there, -⟩ := moved.moved
  refine ⟨⟨?_, by rw [moved.receiving], by rw [moved.processing], by simp [here, there]⟩, moved.control⟩
  exact moved.state.imp_right fun failed => ⟨failed, not_empty_of_sending here⟩

theorem Aside.runProcessing {chain : List (Filtra ω)} {s t : Pipeline ω} {queues : String → InternalQueue Message}
    {pc : ProcessingPc} (here : s.processing.thread = some pc) (h : s.runProcessing chain queues pc = some t) :
    Aside s t := by
  have moved := runProcessing_step h
  obtain ⟨next, there, -⟩ := moved.moved
  refine ⟨⟨?_, by rw [moved.receiving], by simp [here, there], by rw [moved.sending]⟩, moved.control⟩
  exact moved.state.imp_right fun failed => ⟨failed, not_empty_of_processing here⟩

/-- A step of any other thread. -/
theorem Aside.step {chain : List (Filtra ω)} {a : Action} {s t : Pipeline ω} (other : ∀ call, a ≠ .control call)
    (h : Pipeline.step chain a s = some t) : Aside s t := by
  cases a with
  | execute cmd =>
    simp only [Pipeline.step] at h
    split at h
    · split at h <;> cases h <;> exact .of_same rfl rfl rfl rfl rfl
    · cases h
  | control call => exact absurd rfl (other call)
  | receiving call =>
    obtain ⟨pc, here, next⟩ := Option.bind_eq_some_iff.mp h
    exact .runReceiving here next
  | processing queues =>
    obtain ⟨pc, here, next⟩ := Option.bind_eq_some_iff.mp h
    exact .runProcessing here next
  | sending call =>
    obtain ⟨pc, here, next⟩ := Option.bind_eq_some_iff.mp h
    exact .runSending here next
  | timerPush =>
    simp only [Pipeline.step] at h
    split at h <;> cases h <;> exact .of_same rfl rfl rfl rfl rfl
  | timerNotify =>
    simp only [Pipeline.step] at h
    split at h <;> cases h
    exact (Aside.notify s).trans (.of_same rfl rfl rfl rfl rfl)
  | wakeup => cases h; exact .notify s

/-! ## Assertions before the statements -/

/-- The assertion before the statement that comes next holds. -/
structure Annotated (before : Instr → Pipeline ω → Prop) (s : Pipeline ω) : Prop where
  course : Course s.control
  holds : ∀ i rest, s.control = i :: rest → before i s

/-- What other threads keep of each assertion they keep of the whole. -/
theorem Annotated.aside {before : Instr → Pipeline ω → Prop} {s t : Pipeline ω} (annotated : Annotated before s)
    (aside : Aside s t) (keep : ∀ i rest, s.control = i :: rest → before i s → before i t) : Annotated before t where
  course := aside.control ▸ annotated.course
  holds := fun i rest here => keep i rest (aside.control ▸ here) (annotated.holds i rest (aside.control ▸ here))

theorem Annotated.control {before : Instr → Pipeline ω → Prop} {s t : Pipeline ω} {call : Except Exn Unit}
    (annotated : Annotated before s) (h : s.runControl call s.control = some t)
    (establish : ∀ i rest, s.control = i :: rest → Course (i :: rest) → before i s →
      ∀ j later, t.control = j :: later → before j t) : Annotated before t where
  course := (runControl_follows rfl h).course annotated.course
  holds := by
    cases here : s.control with
    | nil => rw [here] at h; cases h
    | cons i rest => exact establish i rest here (here ▸ annotated.course) (annotated.holds i rest here)

end Pipeline

end M2eBridge
