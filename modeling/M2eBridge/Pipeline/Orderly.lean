import M2eBridge.Lib.Progress
import M2eBridge.Pipeline.Delivery
import M2eBridge.Pipeline.Join

/-!
# Orderly states

Facts about all the states that a pipeline comes to, on which its progress rests: the queues of
the processing thread have no limit and do not block, the walk that the thread is in comes to
its end whatever it finds, if the chain lets every call end, and what was received is handled,
waits in `r_queue_`, or is in the hand of the receiving thread (`grows_step`).
-/

namespace M2eBridge

open Process (Act Env Frame Walk Queued)

namespace Process

variable {ω : Type} {chain : List (Filtra ω)}

/-- Every call `process(msg)` ends, whatever it finds on its way. -/
def Returns (chain : List (Filtra ω)) : Prop :=
  ∀ (world : ω) (source : Nat) (msg : Message), Lib.Leads (Walk.step chain) (fun w => w.frames = []) (.begin world source msg 0)

/-- In a chain that leads forward, splitters of positive chunk sizes among the filtras, all calls end. -/
theorem returns_of_forward {C : Codec} {links : List (Link ω)} (forward : Forward (chainOf C links)) :
    Returns (chainOf C links) := by
  intro world source msg inputs
  obtain ⟨n, ended⟩ := call_returns forward _ (.begin world source msg 0) _ [] stacked_begin rfl rfl rfl inputs
  exact ⟨n, or_self_iff.mp ended⟩

/-- The same calls in the same world. -/
structure Walk.Same (w w' : Walk ω) : Prop where
  frames : w'.frames = w.frames
  world : w'.world = w.world
  escaped : w'.escaped = w.escaped
  unlimited : w.sQueue.maxSize = 0 ∧ w'.sQueue.maxSize = 0

/-- A step does not look at `s_queue_` or the last error. -/
theorem Walk.Same.step {w w' : Walk ω} (same : w.Same w') (env : Env) : (w.step chain env).Same (w'.step chain env) := by
  let bare : Walk ω := { w with sQueue := {} }
  have left : Alike w.sQueue.queue bare w := ⟨rfl, rfl, rfl, (List.append_nil _).symm, rfl, same.unlimited.1⟩
  have right : Alike w'.sQueue.queue bare w' :=
    ⟨same.frames, same.world, same.escaped, (List.append_nil _).symm, rfl, same.unlimited.2⟩
  have one : Alike _ (bare.step chain env) (w.step chain env) := left.step env
  have other : Alike _ (bare.step chain env) (w'.step chain env) := right.step env
  exact ⟨other.frames.trans one.frames.symm, other.world.trans one.world.symm, other.escaped.trans one.escaped.symm,
    one.unlimited.2, other.unlimited.2⟩

/-- The walk comes to its end, whatever it finds. -/
abbrev Walk.Ends (chain : List (Filtra ω)) : Walk ω → Prop := Acc (Lib.Onward (Walk.step chain) fun w => w.frames = [])

end Process

namespace Pipeline

variable {ω : Type} {chain : List (Filtra ω)}

/-! ## The processing thread -/

/-- The thread is in the walk. -/
structure InWalk (w : Walk ω) (s : Pipeline ω) : Prop where
  thread : s.processing.thread = some (.walk w.frames)
  same : w.Same (s.walkOf w.frames)

/-- The walk that the thread is in comes to its end. -/
def WalksEnd (chain : List (Filtra ω)) (s : Pipeline ω) : Prop :=
  ∀ frames, s.processing.thread = some (.walk frames) → ∃ w, InWalk w s ∧ w.Ends chain

/-- A step of another thread leaves the thread in its loop where it is, or wakes it. -/
theorem other_thread {a : Action} {s t : Pipeline ω} {pc : ProcessingPc} (other : ∀ queues, a ≠ .processing queues)
    (here : s.processing.thread = some pc) (handling : pc.handling = true) (h : step chain a s = some t) :
    t.processing.thread = some pc ∨ pc = .blocked ∧ t.processing.thread = some .loop := by
  have notified {u : Pipeline ω} (same : u.processing = s.notify.processing) :
      u.processing.thread = some pc ∨ pc = .blocked ∧ u.processing.thread = some .loop := by
    rw [same, notify]
    split
    case h_1 blocked => exact .inr ⟨Option.some.inj (here.symm.trans blocked), rfl⟩
    case h_2 => exact .inl here
  have still {u : Pipeline ω} (same : u.processing = s.processing) :
      u.processing.thread = some pc ∨ pc = .blocked ∧ u.processing.thread = some .loop := .inl (same ▸ here)
  by_cases control : ∃ call, a = .control call
  · obtain ⟨call, rfl⟩ := control
    cases todo : s.control with
    | nil => simp only [step, todo] at h; cases h
    | cons i rest =>
      simp only [step, todo] at h
      cases (runControl_step h).threads with
      | startProcessing free => cases free.symm.trans here
      | joinProcessing ended =>
        cases ended.symm.trans here
        cases handling
      | notify _ processing => exact notified processing
      | startReceiving _ _ processing | startSending _ _ _ processing | joinReceiving _ _ processing
      | joinSending _ _ _ processing | none _ _ processing => exact still processing
  · rcases processing_cases (fun call same => control ⟨call, same⟩) other h with same | woken
    · exact still same
    · exact notified woken

/-- The handlers of the thread go on, or the pipeline has failed. -/
theorem processingCaught_cases (s : Pipeline ω) (e : Exn) (next : ProcessingPc) :
    (s.processingCaught e next).processing.thread = some next ∨
      (s.processingCaught e next).processing.thread = some .finish ∧ (s.processingCaught e next).state = .failed := by
  unfold processingCaught
  split
  · exact .inl rfl
  · exact .inr ⟨rfl, rfl⟩

/-- What a step of the thread in a walk comes to. -/
theorem InWalk.step {queues : String → InternalQueue Message} {w : Walk ω} {s t : Pipeline ω} (walk : InWalk w s)
    (h : s.runProcessing chain queues (.walk w.frames) = some t) :
    w.frames ≠ [] ∧ InWalk (w.step chain (s.env queues)) t ∨ t.processing.thread = some .messages ∨
      t.processing.thread = some .wait ∨ t.processing.thread = some .finish ∧ t.state = .failed := by
  have next : (w.step chain (s.env queues)).Same ((s.walkOf w.frames).step chain (s.env queues)) := walk.same.step _
  simp only [runProcessing] at h
  split at h <;> cases h
  case h_1 e escaped => exact .inr (.inr (processingCaught_cases _ e .wait))
  case h_2 => exact .inr (.inl rfl)
  case h_3 frames inside some_ =>
    refine .inl ⟨fun none => ?_, ?_, ?_⟩
    · rw [none, Walk.step_nil chain rfl] at some_
      exact some_ rfl
    · exact congrArg (fun frames => some (ProcessingPc.walk frames)) next.frames
    · exact ⟨rfl, next.world, inside.symm.trans next.escaped, next.unlimited.1, next.unlimited.2⟩

/-- Another thread leaves the walk alone. -/
theorem InWalk.other {a : Action} {w : Walk ω} {s t : Pipeline ω} (walk : InWalk w s) (unlimited : t.sQueue.maxSize = 0)
    (other : ∀ queues, a ≠ .processing queues) (h : Pipeline.step chain a s = some t) : InWalk w t := by
  rcases other_thread other walk.thread rfl h with thread | ⟨blocked, -⟩
  · refine ⟨thread, rfl, ?_, walk.same.escaped, walk.same.unlimited.1, unlimited⟩
    exact (other_world other h).trans walk.same.world
  · cases blocked

/-! ## Orderly states -/

/-- The queues of the processing thread without limit and not blocking, and its walk bound to end. -/
structure Orderly (chain : List (Filtra ω)) (s : Pipeline ω) : Prop extends Unlimited s where
  rReturns : s.rQueue.blocking = false
  eReturns : s.eQueue.blocking = false
  walks : WalksEnd chain s
  /-- What waits was received. -/
  inbox : s.inbox.length ≤ s.received.length

theorem runReceiving_rQueue {s t : Pipeline ω} {call : Except Exn Message} {pc : ReceivingPc}
    (h : s.runReceiving call pc = some t) :
    t.rQueue.blocking = s.rQueue.blocking ∧ s.rQueue.queue <+: t.rQueue.queue := by
  have same {u : Pipeline ω} (rQueue : u.rQueue = s.rQueue) :
      u.rQueue.blocking = s.rQueue.blocking ∧ s.rQueue.queue <+: u.rQueue.queue :=
    rQueue ▸ ⟨rfl, List.prefix_refl _⟩
  have caught (e : Exn) : (s.receivingCaught e).rQueue = s.rQueue := by
    unfold receivingCaught
    split <;> rfl
  cases pc with
  | receive => cases call <;> cases h <;> first | exact same rfl | exact same (caught _)
  | push m =>
    simp only [runReceiving] at h
    split at h <;> cases h
    case h_1 pushed => exact ⟨TSQueue.push_blocking pushed, TSQueue.push_queue pushed ▸ List.prefix_append _ _⟩
    case h_2 => exact same (caught _)
  | connect | disconnect => cases call <;> cases h <;> exact same rfl
  | connected => simp only [runReceiving] at h; split at h <;> cases h <;> exact same rfl
  | notify => cases h; exact same (notify_rest s).2.2.2.2.1
  | begin | loop | finish => cases h; exact same rfl
  | done => cases h

/-- Only the processing thread takes from `r_queue_`. -/
theorem other_rQueue {a : Action} {s t : Pipeline ω} (other : ∀ queues, a ≠ .processing queues)
    (h : step chain a s = some t) : t.rQueue.blocking = s.rQueue.blocking ∧ s.rQueue.queue <+: t.rQueue.queue := by
  have same {u : Pipeline ω} (rQueue : u.rQueue = s.rQueue) :
      u.rQueue.blocking = s.rQueue.blocking ∧ s.rQueue.queue <+: u.rQueue.queue :=
    rQueue ▸ ⟨rfl, List.prefix_refl _⟩
  cases a with
  | processing queues => exact absurd rfl (other queues)
  | receiving call =>
    obtain ⟨pc, -, next⟩ := Option.bind_eq_some_iff.mp h
    exact runReceiving_rQueue next
  | execute cmd =>
    simp only [step] at h
    split at h
    · split at h <;> cases h <;> exact same rfl
    · cases h
  | control call =>
    cases todo : s.control with
    | nil => simp only [step, todo] at h; cases h
    | cons i rest =>
      simp only [step, todo] at h
      exact same (runControl_step h).rQueue
  | sending call =>
    obtain ⟨pc, -, next⟩ := Option.bind_eq_some_iff.mp h
    exact same (runSending_step next).rQueue
  | timerPush => simp only [step] at h; split at h <;> cases h <;> exact same rfl
  | timerNotify =>
    simp only [step] at h
    split at h <;> cases h
    exact same (notify_rest s).2.2.2.2.1
  | wakeup => cases h; exact same (notify_rest s).2.2.2.2.1

/-- What a step of the processing thread does to what waits for it: one statement takes a message. -/
theorem runProcessing_takes {queues : String → InternalQueue Message} {s t : Pipeline ω} {pc : ProcessingPc}
    (h : s.runProcessing chain queues pc = some t) :
    s.Keeps t ∨ pc = .popMessage ∧ t.received = s.received ∧ t.receiving = s.receiving ∧
      ∃ m, s.rQueue.pop = some (.ok (m, t.rQueue)) ∧ t.processing.thread = some (.walk [.begin m.number m.msg 0]) := by
  have caught (u : Pipeline ω) (e : Exn) (next : ProcessingPc) (keeps : s.Keeps u) : s.Keeps (u.processingCaught e next) := by
    unfold processingCaught
    split <;> exact ⟨keeps.received, keeps.rQueue, keeps.receiving⟩
  cases pc with
  | popMessage =>
    simp only [runProcessing] at h
    split at h <;> cases h
    case h_1 m rQueue taken => exact .inr ⟨rfl, rfl, rfl, m, taken, rfl⟩
    case h_2 => exact .inl ⟨rfl, rfl, rfl⟩
  | startFiltra | event =>
    simp only [runProcessing] at h
    split at h
    · cases h; exact .inl ⟨rfl, rfl, rfl⟩
    · split at h <;> cases h <;> first | exact .inl ⟨rfl, rfl, rfl⟩ | exact .inl (caught _ _ _ ⟨rfl, rfl, rfl⟩)
  | popEvent => simp only [runProcessing] at h; split at h <;> cases h <;> exact .inl ⟨rfl, rfl, rfl⟩
  | walk =>
    simp only [runProcessing] at h
    split at h <;> cases h <;> first | exact .inl ⟨rfl, rfl, rfl⟩ | exact .inl (caught _ _ _ ⟨rfl, rfl, rfl⟩)
  | begin | started | loop | events | messages | wait | finish => cases h; exact .inl ⟨rfl, rfl, rfl⟩
  | blocked | done => cases h

theorem runProcessing_returns {queues : String → InternalQueue Message} {s t : Pipeline ω} {pc : ProcessingPc}
    (h : s.runProcessing chain queues pc = some t) :
    t.rQueue.blocking = s.rQueue.blocking ∧ t.eQueue.blocking = s.eQueue.blocking := by
  refine ⟨?_, ?_⟩
  · rcases runProcessing_takes h with keeps | ⟨-, -, -, m, taken, -⟩
    · exact congrArg TSQueue.blocking keeps.rQueue
    · exact TSQueue.pop_blocking taken
  · have caught (u : Pipeline ω) (e : Exn) (next : ProcessingPc) : (u.processingCaught e next).eQueue = u.eQueue := by
      unfold processingCaught
      split <;> rfl
    cases pc with
    | popEvent =>
      simp only [runProcessing] at h
      split at h <;> cases h
      case h_1 taken => exact TSQueue.pop_blocking taken
      case h_2 => rfl
    | startFiltra | event =>
      simp only [runProcessing] at h
      split at h
      · cases h; rfl
      · split at h <;> cases h <;> first | rfl | exact congrArg TSQueue.blocking (caught _ _ _)
    | popMessage => simp only [runProcessing] at h; split at h <;> cases h <;> rfl
    | walk =>
      simp only [runProcessing] at h
      split at h <;> cases h <;> first | rfl | exact congrArg TSQueue.blocking (caught _ _ _)
    | begin | started | loop | events | messages | wait | finish => cases h; rfl
    | blocked | done => cases h

/-- Only the timers and the processing thread change the event queue. -/
theorem other_eQueue {a : Action} {s t : Pipeline ω} (other : ∀ queues, a ≠ .processing queues) (quiet : a ≠ .timerPush)
    (h : step chain a s = some t) : t.eQueue = s.eQueue := by
  cases a with
  | processing queues => exact absurd rfl (other queues)
  | timerPush => exact absurd rfl quiet
  | execute cmd =>
    simp only [step] at h
    split at h
    · split at h <;> cases h <;> rfl
    · cases h
  | control call =>
    cases todo : s.control with
    | nil => simp only [step, todo] at h; cases h
    | cons i rest =>
      simp only [step, todo] at h
      exact (runControl_step h).eQueue
  | receiving call =>
    obtain ⟨pc, -, next⟩ := Option.bind_eq_some_iff.mp h
    exact runReceiving_eQueue next
  | sending call =>
    obtain ⟨pc, -, next⟩ := Option.bind_eq_some_iff.mp h
    exact (runSending_step next).eQueue
  | timerNotify =>
    simp only [step] at h
    split at h <;> cases h
    exact (notify_rest s).2.2.2.2.2.1
  | wakeup => cases h; exact (notify_rest s).2.2.2.2.2.1

theorem step_returns {a : Action} {s t : Pipeline ω} (h : step chain a s = some t) :
    t.rQueue.blocking = s.rQueue.blocking ∧ t.eQueue.blocking = s.eQueue.blocking := by
  by_cases worker : ∃ queues, a = .processing queues
  · obtain ⟨queues, rfl⟩ := worker
    obtain ⟨pc, -, next⟩ := Option.bind_eq_some_iff.mp h
    exact runProcessing_returns next
  · have other : ∀ queues, a ≠ .processing queues := fun queues same => worker ⟨queues, same⟩
    refine ⟨(other_rQueue other h).1, ?_⟩
    by_cases quiet : a = .timerPush
    · subst quiet
      simp only [step] at h
      split at h <;> cases h
      case h_1 pushed => exact TSQueue.push_blocking pushed
      case h_2 => rfl
    · exact congrArg TSQueue.blocking (other_eQueue other quiet h)

/-- The thread comes to be in a walk from the step before in it, or by taking a message. -/
theorem runProcessing_walk {queues : String → InternalQueue Message} {s t : Pipeline ω} {pc : ProcessingPc} {frames : List Frame}
    (h : s.runProcessing chain queues pc = some t) (there : t.processing.thread = some (.walk frames)) :
    (∃ before, pc = .walk before) ∨ pc = .popMessage ∧ ∃ m : Received, frames = [.begin m.number m.msg 0] := by
  have caught (u : Pipeline ω) (e : Exn) {next : ProcessingPc} (other : next ≠ .walk frames)
      (same : (u.processingCaught e next).processing.thread = some (.walk frames)) : False := by
    rcases processingCaught_cases u e next with goes | ⟨left, -⟩
    · exact other (Option.some.inj (goes.symm.trans same))
    · cases left.symm.trans same
  cases pc with
  | walk before => exact .inl ⟨before, rfl⟩
  | popMessage =>
    simp only [runProcessing] at h
    split at h <;> cases h
    · cases there
      exact .inr ⟨rfl, _, rfl⟩
    · cases there
  | startFiltra =>
    simp only [runProcessing] at h
    split at h
    · cases h; cases there
    · split at h <;> cases h <;> cases there
  | event =>
    simp only [runProcessing] at h
    split at h
    · cases h; cases there
    · split at h <;> cases h
      · simp only [processingAt] at there
        split at there <;> cases there
      · exact (caught _ _ (by simp) there).elim
  | popEvent => simp only [runProcessing] at h; split at h <;> cases h <;> cases there
  | loop | events | messages =>
    cases h
    simp only [processingAt] at there
    split at there <;> cases there
  | begin | started | wait | finish => cases h; cases there
  | blocked | done => cases h

/-- The walk that the thread is in stays one that ends, and so is every walk that it begins. -/
theorem WalksEnd.step (returns : Process.Returns chain) {a : Action} {s t : Pipeline ω} (unlimited : s.Unlimited)
    (walks : s.WalksEnd chain) (h : step chain a s = some t) : t.WalksEnd chain := by
  have limit : t.sQueue.maxSize = 0 := (unlimited.step h).sQueue
  intro frames there
  by_cases worker : ∃ queues, a = .processing queues
  · obtain ⟨queues, rfl⟩ := worker
    obtain ⟨pc, here, next⟩ := Option.bind_eq_some_iff.mp h
    rcases runProcessing_walk next there with ⟨before, rfl⟩ | ⟨rfl, m, rfl⟩
    · obtain ⟨w, walk, ends⟩ := walks before here
      cases here.symm.trans walk.thread
      rcases walk.step next with ⟨open_, inside⟩ | left | left | ⟨left, -⟩
      · exact ⟨_, inside, ends.inv ⟨open_, _, rfl⟩⟩
      · cases left.symm.trans there
      · cases left.symm.trans there
      · cases left.symm.trans there
    · exact ⟨.begin t.world m.number m.msg 0, ⟨there, rfl, rfl, rfl, rfl, limit⟩, (returns _ _ _).acc⟩
  · have other : ∀ queues, a ≠ .processing queues := fun queues same => worker ⟨queues, same⟩
    rcases other_between other h with same | ⟨-, between⟩
    · obtain ⟨w, walk, ends⟩ := walks frames (same ▸ there)
      exact ⟨w, walk.other limit other h, ends⟩
    · exact ((between _ there).2.2 frames rfl).elim

/-- How many of the messages received are taken from `r_queue_`. -/
def handled (s : Pipeline ω) : Nat := s.received.length - s.inbox.length

/-- How many of them were pushed to `r_queue_`. -/
def accepted (s : Pipeline ω) : Nat := s.handled + s.rQueue.queue.length

theorem inbox_taken {s t : Pipeline ω} {m : Received} (receiving : t.receiving = s.receiving)
    (taken : s.rQueue.pop = some (.ok (m, t.rQueue))) : s.inbox = m.msg :: t.inbox := by
  simp only [Pipeline.inbox, cargo, receiving, TSQueue.pop_ok taken, List.cons_append, List.map_cons]

theorem handled_taken {s t : Pipeline ω} {m : Received} (inbox : s.inbox.length ≤ s.received.length)
    (received : t.received = s.received) (receiving : t.receiving = s.receiving)
    (taken : s.rQueue.pop = some (.ok (m, t.rQueue))) : t.handled = s.handled + 1 := by
  rw [inbox_taken receiving taken, List.length_cons] at inbox
  rw [handled, handled, received, inbox_taken receiving taken, List.length_cons]
  omega

/-- What was received, accepted and handled gets no less. -/
structure Grows (s t : Pipeline ω) : Prop where
  received : s.received <+: t.received
  accepted : s.accepted ≤ t.accepted
  handled : s.handled ≤ t.handled
  inbox : t.inbox.length ≤ t.received.length

theorem grows_step {a : Action} {s t : Pipeline ω} (unlimited : s.Unlimited) (inbox : s.inbox.length ≤ s.received.length)
    (h : step chain a s = some t) : s.Grows t := by
  by_cases worker : ∃ queues, a = .processing queues
  · obtain ⟨queues, rfl⟩ := worker
    obtain ⟨pc, here, next⟩ := Option.bind_eq_some_iff.mp h
    rcases runProcessing_takes next with keeps | ⟨-, received, receiving, m, taken, -⟩
    · have handled : t.handled = s.handled := by rw [Pipeline.handled, Pipeline.handled, keeps.received, keeps.inbox]
      refine ⟨keeps.received ▸ List.prefix_refl _, ?_, handled.ge, ?_⟩
      · rw [accepted, accepted, handled, keeps.rQueue]
      · rwa [keeps.received, keeps.inbox]
    · have handled : t.handled = s.handled + 1 := handled_taken inbox received receiving taken
      refine ⟨received ▸ List.prefix_refl _, ?_, by omega, ?_⟩
      · rw [accepted, accepted, handled, TSQueue.pop_ok taken, List.length_cons]
        omega
      · rw [inbox_taken receiving taken, List.length_cons] at inbox
        rw [received]
        omega
  · have other : ∀ queues, a ≠ .processing queues := fun queues same => worker ⟨queues, same⟩
    obtain ⟨new, received, waits⟩ := other_delivered unlimited other h
    have handled : t.handled = s.handled := by
      rw [Pipeline.handled, Pipeline.handled, received, waits, List.length_append, List.length_append]
      omega
    refine ⟨received ▸ List.prefix_append _ _, ?_, handled.ge, ?_⟩
    · rw [accepted, accepted, handled]
      exact Nat.add_le_add_left (other_rQueue other h).2.length_le _
    · rw [received, waits, List.length_append, List.length_append]
      omega

theorem Orderly.step (returns : Process.Returns chain) {a : Action} {s t : Pipeline ω} (orderly : s.Orderly chain)
    (h : step chain a s = some t) : t.Orderly chain where
  toUnlimited := orderly.toUnlimited.step h
  rReturns := (step_returns h).1.trans orderly.rReturns
  eReturns := (step_returns h).2.trans orderly.eReturns
  walks := orderly.walks.step returns orderly.toUnlimited h
  inbox := (grows_step orderly.toUnlimited orderly.inbox h).inbox

theorem orderly_prepared (world : ω) : (prepared world).Orderly chain where
  rQueue := rfl
  sQueue := rfl
  rReturns := rfl
  eReturns := rfl
  walks := nofun
  inbox := le_rfl

end Pipeline

end M2eBridge
