import M2eBridge.Pipeline.Course

/-!
# The join of the processing thread

`execute_stop` notifies the processing thread until its `Thread::state_` says that it
does not run, and this value may be left over from an earlier run: the thread can be
anywhere before its first statement. But what a thread has written of itself is of this
run (`Marked`), and `state_` is no longer `RUNNING`, so a thread that is joined goes to
the end of its function without a wait (`join_unblocked`).
-/

namespace M2eBridge

/-- The thread is not inside its loop. -/
def ProcessingPc.outside : ProcessingPc → Bool
  | .begin | .startFiltra _ | .started | .loop | .finish | .done => true
  | _ => false

namespace Pipeline

variable {ω : Type}

/-- A thread that has begun and has not ended reads as running. -/
def Marked (s : Pipeline ω) : Prop :=
  ∀ pc, s.processing.thread = some pc → pc ≠ .begin → pc ≠ .done → s.processing.isRunning

/-- The processing thread, if there is one, is not inside its loop. -/
def Outside (s : Pipeline ω) : Prop := ∀ pc, s.processing.thread = some pc → pc.outside

/-- The assertion before each statement. -/
def joinBefore : Instr → Pipeline ω → Prop
  | .connectorStop, s | .setNonBlocking, s | .joinReceiving, s | .notifyProcessing, s => s.state ≠ .running
  | .joinProcessing, s => s.state ≠ .running ∧ s.Outside
  | _, _ => True

theorem Apart.not_running {s t : Pipeline ω} (apart : Apart s t) (before : s.state ≠ .running) :
    t.state ≠ .running := by
  rcases apart.state with same | ⟨failed, _⟩
  · rwa [same]
  · simp [failed]

/-! ## What becomes of the thread -/

theorem Marked.congr {s t : Pipeline ω} (marked : s.Marked) (same : t.processing = s.processing) : t.Marked := by
  unfold Marked
  rwa [same]

theorem Outside.congr {s t : Pipeline ω} (outside : s.Outside) (same : t.processing = s.processing) : t.Outside := by
  unfold Outside
  rwa [same]

theorem Marked.notify {s : Pipeline ω} (marked : s.Marked) : s.notify.Marked := by
  unfold Pipeline.notify
  split
  case h_1 blocked =>
    intro pc _ _ _
    exact marked .blocked blocked (by simp) (by simp)
  case h_2 => exact marked

theorem Outside.notify {s : Pipeline ω} (outside : s.Outside) : s.notify.Outside := by
  unfold Pipeline.notify
  split
  case h_1 blocked => cases outside _ blocked
  case h_2 => exact outside

/-- What a step of another thread does to the processing thread: at most it wakes it. -/
theorem processing_cases {chain : List (Filtra ω)} {a : Action} {s t : Pipeline ω}
    (control : ∀ call, a ≠ .control call) (processing : ∀ queues, a ≠ .processing queues)
    (h : step chain a s = some t) : t.processing = s.processing ∨ t.processing = s.notify.processing := by
  cases a with
  | execute cmd =>
    simp only [step] at h
    split at h
    · split at h <;> cases h <;> exact .inl rfl
    · cases h
  | control call => exact absurd rfl (control call)
  | processing queues => exact absurd rfl (processing queues)
  | receiving call =>
    obtain ⟨pc, here, next⟩ := Option.bind_eq_some_iff.mp h
    exact (runReceiving_step next).processing
  | sending call =>
    obtain ⟨pc, here, next⟩ := Option.bind_eq_some_iff.mp h
    exact .inl (runSending_step next).processing
  | timerPush =>
    simp only [step] at h
    split at h <;> cases h <;> exact .inl rfl
  | timerNotify =>
    simp only [step] at h
    split at h <;> cases h
    exact .inr rfl
  | wakeup => cases h; exact .inr rfl

/-- The thread in its function keeps its mark. -/
theorem Marked.at {s u : Pipeline ω} {pc : ProcessingPc} (marked : s.Marked) (here : s.processing.thread = some pc)
    (begun : pc ≠ .begin) (running : pc ≠ .done) (same : u.processing = s.processing) (pc' : ProcessingPc) :
    (u.processingAt pc').Marked := by
  intro _ _ _ _
  have kept := marked pc here begun running
  simpa [Thread.isRunning, processingAt, same] using kept

theorem Marked.runProcessing {chain : List (Filtra ω)} {s t : Pipeline ω} {queues : String → InternalQueue Message}
    {pc : ProcessingPc} (marked : s.Marked) (here : s.processing.thread = some pc)
    (h : s.runProcessing chain queues pc = some t) : t.Marked := by
  have kept {u : Pipeline ω} {pc' : ProcessingPc} (begun : pc ≠ .begin) (running : pc ≠ .done)
      (same : u.processing = s.processing) : (u.processingAt pc').Marked := marked.at here begun running same pc'
  have caught {u : Pipeline ω} {e : Exn} {next : ProcessingPc} (begun : pc ≠ .begin) (running : pc ≠ .done)
      (same : u.processing = s.processing) : (u.processingCaught e next).Marked := by
    unfold processingCaught
    split
    · exact kept begun running same
    · exact kept begun running (u := u.fail e) same
  cases pc with
  | begin =>
    cases h
    intro _ _ _ _
    rfl
  | started =>
    cases h
    intro _ _ _ _
    rfl
  | finish =>
    cases h
    intro pc here _ running
    cases here
    exact absurd rfl running
  | startFiltra ix =>
    simp only [Pipeline.runProcessing] at h
    split at h
    · cases h; exact kept (by simp) (by simp) rfl
    · split at h <;> cases h <;> exact kept (by simp) (by simp) rfl
  | loop | events | messages | wait => cases h; exact kept (by simp) (by simp) rfl
  | popEvent | popMessage =>
    simp only [Pipeline.runProcessing] at h
    split at h <;> cases h <;> exact kept (by simp) (by simp) rfl
  | event ix =>
    simp only [Pipeline.runProcessing] at h
    split at h
    · cases h; exact kept (by simp) (by simp) rfl
    · split at h <;> cases h
      · exact kept (by simp) (by simp) rfl
      · exact caught (by simp) (by simp) rfl
  | walk frames =>
    simp only [Pipeline.runProcessing] at h
    split at h <;> cases h
    · exact caught (by simp) (by simp) rfl
    · exact kept (by simp) (by simp) rfl
    · exact kept (by simp) (by simp) rfl
  | blocked | done => cases h

/-- From outside its loop the thread does not enter it. -/
theorem Outside.runProcessing {chain : List (Filtra ω)} {s t : Pipeline ω} {queues : String → InternalQueue Message}
    {pc : ProcessingPc} (outside : s.Outside) (inactive : s.state ≠ .running) (here : s.processing.thread = some pc)
    (h : s.runProcessing chain queues pc = some t) : t.Outside := by
  have at_pc {u : Pipeline ω} {pc' : ProcessingPc} (there : pc'.outside) : (u.processingAt pc').Outside := by
    intro pc here
    cases here
    exact there
  cases pc with
  | begin | started | finish => cases h; exact at_pc rfl
  | startFiltra ix =>
    simp only [Pipeline.runProcessing] at h
    split at h
    · cases h; exact at_pc rfl
    · split at h <;> cases h <;> exact at_pc rfl
  | loop =>
    have left : s.isActive = false := by simp [isActive, inactive]
    simp only [Pipeline.runProcessing, left] at h
    cases h
    exact at_pc rfl
  | done => cases h
  | _ => cases outside _ here

/-! ## The step -/

/-- The assertion before the next statement, and the mark. -/
structure Joinable (s : Pipeline ω) : Prop extends Annotated joinBefore s where
  marked : s.Marked

/-- The loop over `is_running()` is left by a thread that has not begun, or has ended. -/
theorem Marked.outside {s : Pipeline ω} (marked : s.Marked) (left : s.processing.isRunning = false) : s.Outside := by
  intro pc here
  by_cases begun : pc = .begin
  · rw [begun]; rfl
  · by_cases ended : pc = .done
    · rw [ended]; rfl
    · cases left.symm.trans (marked pc here begun ended)

theorem Marked.runControl {s t : Pipeline ω} {call : Except Exn Unit} {todo : List Instr} (marked : s.Marked)
    (h : s.runControl call todo = some t) : t.Marked := by
  cases todo with
  | nil => cases h
  | cons i rest =>
    cases (runControl_step h).threads with
    | startProcessing _ created =>
      intro pc here begun _
      cases created.symm.trans here
      exact absurd rfl begun
    | joinProcessing _ joined =>
      intro pc here
      cases joined.symm.trans here
    | notify _ processing => exact marked.notify.congr processing
    | startReceiving _ _ processing | startSending _ _ _ processing => exact marked.congr processing
    | joinReceiving _ _ processing | joinSending _ _ _ processing => exact marked.congr processing
    | none _ _ processing => exact marked.congr processing

end Pipeline

/-- The statement establishes an assertion, or keeps one. -/
def Instr.asserts : Instr → Bool
  | .setState .stopping | .connectorStop | .setNonBlocking | .joinReceiving | .notifyProcessing => true
  | _ => false

namespace Pipeline

variable {ω : Type}

/-- Behind any other statement nothing is asserted. -/
theorem joinBefore_of_follows {s t : Pipeline ω} {i j : Instr} {rest later : List Instr} (asserts : i.asserts = false)
    (course : Course (i :: rest)) (follows : Follows s (i :: rest) (j :: later)) : joinBefore j t := by
  generalize next : j :: later = d at follows
  cases follows with
  | test =>
    split at next <;> cases next <;> trivial
  | command cmd => cases cmd <;> cases next <;> trivial
  | start stop rest first => rcases first with rfl | rfl <;> cases next <;> trivial
  | stop => cases next; trivial
  | notify => cases asserts
  | next =>
    subst next
    have precedes := course.1
    cases j with
    | connectorStop | setNonBlocking | joinReceiving | notifyProcessing | joinProcessing =>
      rcases i with _ | _ | _ | _ | st | _ <;> try cases st
      all_goals simp_all [Instr.precedes, Instr.asserts]
    | _ => trivial
  | underflow => cases next; trivial
  | caught => cases next; trivial

/-- One statement. -/
theorem joinBefore_control {s t : Pipeline ω} {call : Except Exn Unit} {i : Instr} {rest : List Instr}
    (here : s.control = i :: rest) (course : Course (i :: rest)) (marked : s.Marked) (before : joinBefore i s)
    (h : s.runControl call (i :: rest) = some t) : ∀ j later, t.control = j :: later → joinBefore j t := by
  intro j later next
  cases asserts : i.asserts with
  | false =>
    have follows := runControl_follows here h
    exact joinBefore_of_follows asserts course (next ▸ follows)
  | true =>
    cases i with
    | setState st =>
      cases st with
      | stopping =>
        cases h
        cases next
        obtain rfl := of_decide_eq_true course.1
        simp [joinBefore]
      | _ => cases asserts
    | connectorStop =>
      cases call with
      | ok _ =>
        cases h
        cases next
        obtain rfl := of_decide_eq_true course.1
        exact before
      | error e =>
        cases h
        unfold controlCaught at next
        split at next <;> cases next <;> trivial
    | setNonBlocking =>
      cases h
      cases next
      obtain rfl := of_decide_eq_true course.1
      exact before
    | joinReceiving =>
      simp only [runControl] at h
      split at h <;> cases h <;> cases next <;> obtain rfl := of_decide_eq_true course.1 <;> exact before
    | notifyProcessing =>
      simp only [runControl] at h
      split at h
      · cases h
        have aside := Aside.notify s
        rw [aside.control, here] at next
        cases next
        exact aside.not_running before
      · cases h
        cases next
        obtain rfl := of_decide_eq_true course.1
        exact ⟨before, (marked.outside (eq_false_of_ne_true ‹_›)).congr rfl⟩
    | _ => cases asserts

/-- A step of another thread keeps a thread that is not running outside its loop. -/
theorem Outside.aside {chain : List (Filtra ω)} {a : Action} {s t : Pipeline ω} (outside : s.Outside)
    (inactive : s.state ≠ .running) (control : ∀ call, a ≠ .control call) (h : step chain a s = some t) :
    t.Outside := by
  by_cases processing : ∃ queues, a = .processing queues
  · obtain ⟨queues, rfl⟩ := processing
    obtain ⟨pc, here, next⟩ := Option.bind_eq_some_iff.mp h
    exact outside.runProcessing inactive here next
  · rcases processing_cases control (fun queues same => processing ⟨queues, same⟩) h with same | woken
    · exact outside.congr same
    · exact outside.notify.congr woken

theorem Marked.step {chain : List (Filtra ω)} {a : Action} {s t : Pipeline ω} (marked : s.Marked)
    (h : Pipeline.step chain a s = some t) : t.Marked := by
  by_cases control : ∃ call, a = .control call
  · obtain ⟨call, rfl⟩ := control
    exact marked.runControl h
  by_cases processing : ∃ queues, a = .processing queues
  · obtain ⟨queues, rfl⟩ := processing
    obtain ⟨pc, here, next⟩ := Option.bind_eq_some_iff.mp h
    exact marked.runProcessing here next
  · rcases processing_cases (fun call same => control ⟨call, same⟩) (fun queues same => processing ⟨queues, same⟩) h
      with same | woken
    · exact marked.congr same
    · exact marked.notify.congr woken

theorem Joinable.step {chain : List (Filtra ω)} {a : Action} {s t : Pipeline ω} (joinable : Joinable s)
    (h : Pipeline.step chain a s = some t) : Joinable t := by
  refine ⟨?_, joinable.marked.step h⟩
  by_cases control : ∃ call, a = .control call
  · obtain ⟨call, rfl⟩ := control
    have moved : s.runControl call s.control = some t := h
    apply joinable.toAnnotated.control moved
    intro i rest here course before
    rw [here] at moved
    exact joinBefore_control here course joinable.marked before moved
  · have other : ∀ call, a ≠ .control call := fun call same => control ⟨call, same⟩
    have aside := Aside.step other h
    refine joinable.toAnnotated.aside aside fun i rest _ before => ?_
    cases i with
    | connectorStop | setNonBlocking | joinReceiving | notifyProcessing => exact aside.not_running before
    | joinProcessing => exact ⟨aside.not_running before.1, before.2.aside before.1 other h⟩
    | _ => trivial

/-- The processing thread has not ended. -/
def Unended (s : Pipeline ω) : Prop := s.processing.thread ≠ none ∧ s.processing.thread ≠ some .done

/-- The join waits for the thread to end. -/
theorem join_waits {s t : Pipeline ω} {call : Except Exn Unit} (joining : s.control.head? = some .joinProcessing)
    (unended : s.Unended) : s.runControl call s.control ≠ some t := by
  obtain ⟨rest, here⟩ := List.head?_eq_some_iff.mp joining
  rw [here]
  intro h
  simp only [runControl] at h
  split at h
  case h_1 gone => exact unended.1 gone
  case h_2 ended => exact unended.2 ended
  case h_3 => cases h

/-- The run: at the join the thread is not in its wait, and does not come there until it ends. -/
theorem join_unblocked (chain : List (Filtra ω)) (world : ω) (s : Pipeline ω)
    (reached : Lib.Reaches (step chain) (prepared world) s) (joining : s.control.head? = some .joinProcessing) :
    s.processing.thread ≠ some .blocked ∧
      ∀ t, Lib.ReachesWhen (step chain) (fun _ u => u.Unended) s t → t.processing.thread ≠ some .blocked := by
  have start : Joinable (prepared world) := by
    refine ⟨⟨.inl rfl, fun i rest here => ?_⟩, fun pc here => ?_⟩
    · cases here; trivial
    · cases here
  have joinable := reached.invariant Joinable start fun a s t joinable h => joinable.step h
  obtain ⟨rest, here⟩ := List.head?_eq_some_iff.mp joining
  obtain ⟨inactive, outside⟩ := joinable.holds _ _ here
  have unblocked {u : Pipeline ω} (outside : u.Outside) : u.processing.thread ≠ some .blocked := fun blocked => by
    cases outside _ blocked
  refine ⟨unblocked outside, fun t later => ?_⟩
  have kept := later.invariant
    (fun u => u.control.head? = some .joinProcessing ∧ u.state ≠ .running ∧ u.Outside) ⟨joining, inactive, outside⟩ ?_
  · exact unblocked kept.2.2
  · rintro a u v unended ⟨joining, inactive, outside⟩ h
    have other : ∀ call, a ≠ .control call := by
      rintro call rfl
      exact join_waits joining unended h
    have aside := Aside.step other h
    exact ⟨aside.control ▸ joining, aside.not_running inactive, outside.aside inactive other h⟩

/-- The second run is stopped before its threads have done a statement, and what they
have left of the first still reads `FINISHED`. -/
def stopTwice : List Action :=
  let control := Action.control (.ok ())
  let receiving := Action.receiving (.ok {})
  let processing := Action.processing fun _ => {}
  let sending := Action.sending (.ok ())
  .execute .start :: List.replicate 7 control ++ List.replicate 3 sending ++ List.replicate 2 control ++
    List.replicate 3 processing ++ List.replicate 2 control ++ List.replicate 3 receiving ++
    -- the first stop
    .execute .stop :: List.replicate 6 control ++ List.replicate 3 sending ++ List.replicate 3 receiving ++
    List.replicate 2 processing ++ List.replicate 5 control ++
    -- the second start, which does not wait for its threads
    .execute .start :: List.replicate 11 control ++
    .execute .stop :: List.replicate 5 control ++ List.replicate 6 receiving ++ List.replicate 2 control

def stoppedTwice : Pipeline Unit := (Lib.exec (step []) stopTwice (prepared ())).getD (prepared ())

example : stoppedTwice.processing = { thread := some .begin, state := .finished } := rfl

theorem join_unblocked_stoppedTwice : stoppedTwice.processing.thread ≠ some .blocked :=
  (join_unblocked [] () stoppedTwice (Lib.exec_reaches stopTwice rfl) rfl).1

end Pipeline

end M2eBridge
