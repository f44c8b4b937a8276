import M2eBridge.Pipeline.Order
import M2eBridge.Pipeline.Places

/-!
# Notifications of the processing thread

The wait of `run_processing` has no predicate, and neither the pushes nor the
notifications are made under its mutex: a notification that comes between the thread's
last look into a queue and its wait is lost, and the thread sleeps on an element
(`notification_lost`). A run in which no notification comes there has no such state
(`processing_awake`).
-/

namespace M2eBridge

/-- The thread looks into `e_queue_` again only behind its wait. -/
def ProcessingPc.pastEvents : ProcessingPc → Bool
  | .messages | .popMessage | .walk _ | .wait | .blocked => true
  | _ => false

/-- The same of `r_queue_`. -/
def ProcessingPc.pastMessages : ProcessingPc → Bool
  | .wait | .blocked => true
  | _ => false

def ProcessingPc.isWait : ProcessingPc → Bool
  | .wait => true
  | _ => false

def ProcessingPc.isBlocked : ProcessingPc → Bool
  | .blocked => true
  | _ => false

def ReceivingPc.isNotify : ReceivingPc → Bool
  | .notify => true
  | _ => false

namespace Pipeline

variable {ω : Type} {chain : List (Filtra ω)}

/-- The processing thread waits for a notification, a queue is not empty, and no thread
that has pushed has still to notify. -/
structure Lost (s : Pipeline ω) : Prop where
  blocked : s.processing.thread = some .blocked
  waiting : s.rQueue.queue ≠ [] ∨ s.eQueue.queue ≠ []
  receiving : s.receiving.thread ≠ some .notify
  timers : s.timers = 0

/-- What leaves `process()` or `process(msg)` in a step of the processing thread. -/
def thrown (chain : List (Filtra ω)) (queues : String → InternalQueue Message) (s : Pipeline ω) : Option Exn :=
  match s.processing.thread with
  | some (.event ix) =>
    match chain[ix]? with
    | none => none
    | some filtra =>
      match (filtra.generateMessage s.world).1 with
      | .ok _ => none
      | .error e => some e
  | some (.walk frames) => ((s.walkOf frames).step chain (s.env queues)).escaped
  | _ => none

/-- The condition on a step: a notification finds the thread in its wait or before the
test of the queue, or has nothing to tell, or is not the last of the timers; and no
`underflow_error` leaves `process`, which would take the thread to its wait past the
queues. -/
structure Heard (chain : List (Filtra ω)) (a : Action) (s : Pipeline ω) : Prop where
  running : s.state = .running
  message : ∀ call, a = .receiving call → s.receiving.thread = some .notify → s.processing.thread = some .wait →
    s.rQueue.queue = []
  event : ∀ pc, a = .timerNotify → s.processing.thread = some pc → pc.pastEvents → pc ≠ .blocked →
    s.eQueue.queue = [] ∨ 1 < s.timers
  contained : ∀ queues e, a = .processing queues → s.thrown chain queues = some e → e.kind ≠ .underflowError

/-- A step that is none of the three. -/
theorem Heard.aside {a : Action} {s : Pipeline ω} (running : s.state = .running)
    (receiving : ∀ call, a ≠ .receiving call)
    (timer : a ≠ .timerNotify) (processing : ∀ queues, a ≠ .processing queues) : Heard chain a s where
  running
  message := fun call same => absurd same (receiving call)
  event := fun _ same => absurd same timer
  contained := fun queues _ same => absurd same (processing queues)

/-- What the thread does not look at before its wait, it will be notified of. -/
structure Awake (s : Pipeline ω) : Prop where
  messages : ∀ pc, s.processing.thread = some pc → pc.pastMessages → s.rQueue.queue ≠ [] →
    s.receiving.thread = some .notify
  events : ∀ pc, s.processing.thread = some pc → pc.pastEvents → s.eQueue.queue ≠ [] → 0 < s.timers

theorem Awake.not_lost {s : Pipeline ω} (awake : s.Awake) : ¬ s.Lost := by
  rintro ⟨blocked, messages | events, receiving, timers⟩
  · exact receiving (awake.messages _ blocked rfl messages)
  · have pending := awake.events _ blocked rfl events
    omega

/-- The thread is before its tests, or there is none. -/
theorem Awake.of_ahead {s : Pipeline ω} (ahead : ∀ pc, s.processing.thread = some pc → pc.pastEvents = false) :
    s.Awake := by
  refine ⟨fun pc here past => ?_, fun pc here past => ?_⟩
  · have := ahead pc here
    cases pc <;> simp_all [ProcessingPc.pastEvents, ProcessingPc.pastMessages]
  · rw [ahead pc here] at past
    cases past

theorem Awake.at {s : Pipeline ω} {pc : ProcessingPc} (ahead : pc.pastEvents = false) : (s.processingAt pc).Awake := by
  refine .of_ahead fun pc' here => ?_
  cases here
  exact ahead

/-- Nothing that matters here has changed. -/
theorem Awake.congr {s t : Pipeline ω} (awake : s.Awake) (processing : t.processing.thread = s.processing.thread)
    (receiving : s.receiving.thread = some .notify → t.receiving.thread = some .notify)
    (messages : t.rQueue.queue = s.rQueue.queue)
    (events : t.eQueue.queue = s.eQueue.queue) (timers : t.timers = s.timers) : t.Awake where
  messages := fun pc here past waiting =>
    receiving (awake.messages pc (processing ▸ here) past (messages ▸ waiting))
  events := fun pc here past waiting =>
    timers ▸ awake.events pc (processing ▸ here) past (events ▸ waiting)

/-- A notification wakes the thread, or changes nothing. -/
theorem notify_cases (s : Pipeline ω) :
    s.processing.thread = some .blocked ∧ s.notify = s.processingAt .loop ∨
      s.processing.thread ≠ some .blocked ∧ s.notify = s := by
  unfold notify
  split
  case h_1 blocked => exact .inl ⟨blocked, rfl⟩
  case h_2 awake => exact .inr ⟨awake, rfl⟩

theorem Awake.notify {s : Pipeline ω} (awake : s.Awake) : s.notify.Awake := by
  rcases s.notify_cases with ⟨_, woken⟩ | ⟨_, same⟩
  · rw [woken]; exact .at rfl
  · rw [same]; exact awake

/-! ## The step -/

theorem Awake.receivingCaught {s : Pipeline ω} (awake : s.Awake) (before : s.receiving.thread ≠ some .notify)
    (e : Exn) : (s.receivingCaught e).Awake := by
  unfold Pipeline.receivingCaught
  split <;> exact awake.congr rfl (fun here => absurd here before) rfl rfl rfl

theorem Awake.runReceiving {s t : Pipeline ω} {call : Except Exn Message} {pc : ReceivingPc} (awake : s.Awake)
    (here : s.receiving.thread = some pc) (heard : Heard chain (.receiving call) s)
    (h : s.runReceiving call pc = some t) : t.Awake := by
  cases pc with
  | notify =>
    cases h
    rcases s.notify_cases with ⟨_, woken⟩ | ⟨unblocked, same⟩
    · rw [woken]; exact (Awake.at (s := s.receivingAt .loop) rfl).congr rfl id rfl rfl rfl
    · rw [same]
      refine ⟨fun pc there past waiting => ?_, awake.events⟩
      cases pc with
      | wait => exact absurd (heard.message call rfl here there) waiting
      | blocked => exact absurd there unblocked
      | _ => cases past
  | push m =>
    simp only [Pipeline.runReceiving] at h
    split at h <;> cases h
    · exact ⟨fun _ _ _ _ => rfl, awake.events⟩
    · exact awake.receivingCaught (by simp [here]) _
  | receive =>
    cases call <;> cases h
    · exact awake.receivingCaught (by simp [here]) _
    · exact awake.congr rfl (by simp [here]) rfl rfl rfl
  | connect | disconnect => cases call <;> cases h <;> exact awake.congr rfl (by simp [here]) rfl rfl rfl
  | connected =>
    simp only [Pipeline.runReceiving] at h
    split at h <;> cases h <;> exact awake.congr rfl (by simp [here]) rfl rfl rfl
  | begin | loop | finish => cases h; exact awake.congr rfl (by simp [here]) rfl rfl rfl
  | done => cases h

theorem Awake.runSending {s t : Pipeline ω} {call : Except Exn Unit} {pc : SendingPc} (awake : s.Awake)
    (h : s.runSending call pc = some t) : t.Awake := by
  have moved := runSending_step h
  apply awake.congr
  · rw [moved.processing]
  · rw [moved.receiving]
    exact id
  · rw [moved.rQueue]
  · rw [moved.eQueue]
  · exact moved.timers

/-- An exception out of `process` that is no underflow ends the thread's loop. -/
theorem Awake.processingCaught (s : Pipeline ω) {e : Exn} (contained : e.kind ≠ .underflowError) (next : ProcessingPc) :
    (s.processingCaught e next).Awake := by
  rw [Pipeline.processingCaught, if_neg contained]
  exact .at rfl

theorem Awake.runProcessing {s t : Pipeline ω} {queues : String → InternalQueue Message} {pc : ProcessingPc}
    (awake : s.Awake) (here : s.processing.thread = some pc) (heard : Heard chain (.processing queues) s)
    (h : s.runProcessing chain queues pc = some t) : t.Awake := by
  have active : s.isActive = true := by simp [isActive, heard.running]
  cases pc with
  | begin | started | finish => cases h; exact .at rfl
  | startFiltra ix =>
    simp only [Pipeline.runProcessing] at h
    split at h
    · cases h; exact .at rfl
    · split at h <;> cases h <;> exact .at rfl
  | loop | events =>
    simp only [Pipeline.runProcessing, active, if_true] at h
    cases h
    exact .at rfl
  | popEvent =>
    simp only [Pipeline.runProcessing] at h
    split at h <;> cases h
    case h_1 => exact .at rfl
    case h_2 e empty =>
      refine ⟨fun pc there past => ?_, fun pc there past waiting => absurd (TSQueue.pop_error empty) waiting⟩
      cases there
      cases past
  | event ix =>
    simp only [Pipeline.runProcessing] at h
    split at h
    · cases h; exact .at rfl
    case h_2 filtra found =>
      split at h <;> cases h
      case h_1 msg world _ =>
        refine .of_ahead fun pc there => ?_
        cases there
        split <;> rfl
      case h_2 e world generated =>
        refine .processingCaught _ (heard.contained queues e rfl ?_) _
        simp [thrown, here, found, generated]
  | messages =>
    simp only [Pipeline.runProcessing, active, if_true] at h
    cases h
    refine ⟨fun pc there past => ?_, fun pc there past waiting => awake.events _ here rfl waiting⟩
    cases there
    cases past
  | popMessage =>
    simp only [Pipeline.runProcessing] at h
    split at h <;> cases h
    case h_1 m rQueue taken =>
      refine ⟨fun pc there past => ?_, fun pc there past waiting => awake.events _ here rfl waiting⟩
      cases there
      cases past
    case h_2 e empty =>
      exact ⟨fun pc there past waiting => absurd (TSQueue.pop_error empty) waiting,
        fun pc there past waiting => awake.events _ here rfl waiting⟩
  | walk frames =>
    simp only [Pipeline.runProcessing] at h
    split at h <;> cases h
    case h_1 e escaped =>
      refine .processingCaught _ (heard.contained queues e rfl ?_) _
      simp [thrown, here, escaped]
    case h_2 =>
      refine ⟨fun pc there past => ?_, fun pc there past waiting => awake.events _ here rfl waiting⟩
      cases there
      cases past
    case h_3 =>
      refine ⟨fun pc there past => ?_, fun pc there past waiting => awake.events _ here rfl waiting⟩
      cases there
      cases past
  | wait =>
    cases h
    exact ⟨fun pc there past waiting => awake.messages _ here rfl waiting,
      fun pc there past waiting => awake.events _ here rfl waiting⟩
  | blocked | done => cases h

theorem Awake.runControl {s t : Pipeline ω} {call : Except Exn Unit} {todo : List Instr} (awake : s.Awake)
    (h : s.runControl call todo = some t) : t.Awake := by
  cases todo with
  | nil => cases h
  | cons instr rest =>
    have moved := runControl_step h
    have kept (processing : t.processing = s.processing)
        (receiving : s.receiving.thread = some .notify → t.receiving.thread = some .notify) : t.Awake := by
      apply awake.congr
      · rw [processing]
      · exact receiving
      · rw [moved.rQueue]
      · rw [moved.eQueue]
      · exact moved.timers
    cases moved.threads with
    | startProcessing _ begun =>
      apply Awake.of_ahead
      intro pc here
      cases begun.symm.trans here
      rfl
    | joinProcessing _ joined => exact .of_ahead (by simp [joined])
    | notify receiving processing =>
      rcases s.notify_cases with ⟨_, woken⟩ | ⟨_, same⟩
      · apply Awake.of_ahead
        intro pc here
        rw [processing, woken] at here
        cases here
        rfl
      · exact kept (same ▸ processing) (receiving ▸ id)
    | startReceiving free _ processing => exact kept processing (by simp [free])
    | joinReceiving ended _ processing => exact kept processing (by simp [ended])
    | startSending _ _ receiving processing | joinSending _ _ receiving processing => exact kept processing (receiving ▸ id)
    | none _ receiving processing => exact kept processing (receiving ▸ id)

theorem Awake.step {a : Action} {s t : Pipeline ω} (awake : s.Awake) (heard : Heard chain a s)
    (h : Pipeline.step chain a s = some t) : t.Awake := by
  cases a with
  | execute cmd =>
    simp only [Pipeline.step] at h
    split at h
    · split at h <;> cases h
      · exact awake.congr rfl id rfl rfl rfl
      · exact awake
    · cases h
  | control call => exact awake.runControl h
  | receiving call =>
    obtain ⟨pc, here, next⟩ := Option.bind_eq_some_iff.mp h
    exact awake.runReceiving here heard next
  | processing queues =>
    obtain ⟨pc, here, next⟩ := Option.bind_eq_some_iff.mp h
    exact awake.runProcessing here heard next
  | sending call =>
    obtain ⟨pc, here, next⟩ := Option.bind_eq_some_iff.mp h
    exact awake.runSending next
  | timerPush =>
    simp only [Pipeline.step] at h
    split at h <;> cases h
    · exact ⟨awake.messages, fun _ _ _ _ => Nat.succ_pos _⟩
    · exact awake
  | timerNotify =>
    simp only [Pipeline.step] at h
    split at h <;> cases h
    rcases s.notify_cases with ⟨_, woken⟩ | ⟨unblocked, same⟩
    · rw [woken]; exact .of_ahead fun pc there => by cases there; rfl
    · rw [same]
      refine ⟨awake.messages, fun pc there past waiting => ?_⟩
      rcases heard.event pc rfl there past (fun blocked => unblocked (blocked ▸ there)) with empty | others
      · exact absurd empty waiting
      · exact Nat.sub_pos_of_lt others
  | wakeup => cases h; exact awake.notify

/-- The run from a `RUNNING` pipeline whose processing thread is still to be started. -/
theorem processing_awake (chain : List (Filtra ω)) (s t : Pipeline ω) (fresh : s.processing.thread = none)
    (reached : Lib.ReachesWhen (step chain) (Heard chain) s t) : ¬ t.Lost := by
  have start : s.Awake := .of_ahead fun pc here => by rw [fresh] at here; cases here
  exact (reached.invariant Awake start fun a s t heard awake h => awake.step heard h).not_lost

/-- `Heard` of a step, as a test. -/
def heard (chain : List (Filtra ω)) (a : Action) (s : Pipeline ω) : Bool :=
  s.isActive &&
    match a with
    | .receiving _ =>
      !(s.receiving.thread.any ReceivingPc.isNotify && s.processing.thread.any ProcessingPc.isWait) ||
        s.rQueue.queue.isEmpty
    | .timerNotify =>
      !s.processing.thread.any (fun pc => pc.pastEvents && !pc.isBlocked) || s.eQueue.queue.isEmpty || 1 < s.timers
    | .processing queues => (s.thrown chain queues).all (·.kind ≠ .underflowError)
    | _ => true

theorem Heard.of_test {a : Action} {s : Pipeline ω} (test : s.heard chain a = true) : Heard chain a s := by
  obtain ⟨active, test⟩ := Bool.and_eq_true_iff.mp test
  refine ⟨of_decide_eq_true active, ?_, ?_, ?_⟩
  · rintro call rfl notify wait
    simpa [notify, wait, ReceivingPc.isNotify, ProcessingPc.isWait] using test
  · rintro pc rfl here past unblocked
    have apart : pc.isBlocked = false := by cases pc <;> simp_all [ProcessingPc.isBlocked]
    simpa [here, past, apart] using test
  · rintro queues e rfl thrown
    simpa [thrown] using test

/-- The control thread is about to start the processing and the receiving thread. -/
def starting : Pipeline Unit :=
  { prepared () with
    state := .running
    control := [.startProcessing, .awaitProcessing, .startReceiving, .awaitReceiving, .command] }

/-- The processing thread comes to its wait three times; a message wakes it, and then a timer. -/
def wakings : List Action :=
  let control := Action.control (.ok ())
  let processing := Action.processing fun _ => {}
  control :: List.replicate 3 processing ++ [control, control] ++ List.replicate 3 (.receiving (.ok {})) ++ [control] ++
    List.replicate 6 processing ++ List.replicate 4 (.receiving (.ok (.ofString [0x61] .raw))) ++
    List.replicate 10 processing ++ [.timerPush, .timerNotify] ++ List.replicate 9 processing

def wokenTwice : Pipeline Unit := (Lib.exec (step []) wakings starting).getD starting

theorem processing_awake_woken :
    ¬ wokenTwice.Lost ∧ wokenTwice.processing.thread.any ProcessingPc.isBlocked = true := by
  have ran : Lib.exec (step []) wakings starting = some wokenTwice := Lib.exec_getD (by decide +kernel)
  have tested : Lib.Along (step []) (fun a s => s.heard [] a = true) wakings starting := by decide +kernel
  have reached := (tested.mono fun _ _ => Heard.of_test).reachesWhen ran
  exact ⟨processing_awake [] starting wokenTwice rfl reached, by decide +kernel⟩

/-- A message comes between the last look into `r_queue_` and the wait. -/
def messageBeforeWait : List Action :=
  let processing := Action.processing fun _ => {}
  startUp ++ List.replicate 3 processing ++ List.replicate 4 (.receiving (.ok (.ofString [0x61] .raw))) ++ [processing]

def asleep : Pipeline Unit :=
  (Lib.exec (step []) messageBeforeWait (prepared ())).getD (prepared ())

theorem notification_lost :
    ¬ ∀ (chain : List (Filtra Unit)) (s : Pipeline Unit), Lib.Reaches (step chain) (prepared ()) s →
      s.state = .running → ¬ s.Lost := by
  intro all
  have queued : asleep.rQueue.queue ≠ [] := List.cons_ne_nil _ _
  have notified : asleep.receiving.thread = some .loop := rfl
  exact all [] asleep (Lib.exec_reaches messageBeforeWait rfl) rfl ⟨rfl, .inl queued, by simp [notified], rfl⟩

end Pipeline

end M2eBridge
