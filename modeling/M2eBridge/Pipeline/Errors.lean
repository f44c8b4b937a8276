import M2eBridge.Pipeline.Order

/-!
# How far an error in a message reaches

`process` catches what a filtra throws: the call is over, and the pipeline is as if
the wrapper had been taken out of it (`filtra_throws`). The redirects and the
generation of chunks stand outside its handlers. What they throw unwinds every call
up to the loops. These take an `underflow_error` for an empty queue, so that the thread
leaves `handle_messages` with messages still in `r_queue_`; of anything else the thread's
own handler fails the pipeline. So a step of the thread leaves the pipeline running, and
the messages to be handled, exactly when it meets no full subscriber buffer and no chunk
generation throws (`goesOn_iff`), and in a run of such steps it stays running whatever the
filtras do (`errors_contained`).
-/

namespace M2eBridge

open Process (Frame Queued Env Walk Next turn)

/-- The thread is in its loop, or in what the loop calls. -/
def ProcessingPc.handling : ProcessingPc → Bool
  | .loop | .events | .popEvent | .event _ | .messages | .popMessage | .walk _ | .wait | .blocked => true
  | .begin | .startFiltra _ | .started | .finish | .done => false

/-! ## What leaves a walk -/

section Walk

variable {ω : Type} {chain : List (Filtra ω)}

/-- What the redirects and the chunk generation throw. -/
def Escapes (chain : List (Filtra ω)) (env : Env) (world : ω) (f : Frame) (e : Exn) : Prop :=
  (∃ queuid queues, f.pc = .redirect (queuid :: queues) ∧ (env.queues queuid).SomeFull ∧ e = TSQueue.queueIsFull) ∨
  ∃ splitter filtra, f.pc = .generate splitter ∧ chain[splitter]? = some filtra ∧
    (filtra.generateMessage world).1 = .error e

theorem InternalQueue.push_error_iff {α : Type} {iq : InternalQueue α} {msg : α} {e : Exn} :
    (iq.push msg).1 = .error e ↔ iq.SomeFull ∧ e = TSQueue.queueIsFull := by
  constructor
  · intro thrown
    have full : e = TSQueue.queueIsFull := by
      simp only [push] at thrown
      split at thrown <;> cases thrown
      rfl
    exact ⟨push_throws_iff.mp (full ▸ thrown), full⟩
  · rintro ⟨someFull, rfl⟩
    exact push_throws_iff.mpr someFull

theorem turn_throw_iff {env : Env} {f : Frame} {world : ω} {e : Exn} :
    (∃ g, (turn chain env f world).1 = .throw e g) ↔ Escapes chain env world f e := by
  constructor
  · rintro ⟨g, left⟩
    have kind := Process.turned chain env f world
    rw [left] at kind
    cases kind with
    | overflows pc thrown => exact .inl ⟨_, _, pc, InternalQueue.push_error_iff.mp thrown⟩
    | generateFails pc found thrown => exact .inr ⟨_, _, pc, found, thrown⟩
  · rintro (⟨queuid, queues, pc, full⟩ | ⟨splitter, filtra, pc, found, thrown⟩)
    · have thrown : ((env.queues queuid).push f.msgW.withMsg.msg.copy).1 = .error e :=
        InternalQueue.push_error_iff.mpr full
      simp [turn, pc, thrown]
    · obtain ⟨result, world', eq⟩ : ∃ result world', filtra.generateMessage world = (result, world') := ⟨_, _, rfl⟩
      rw [eq] at thrown
      cases thrown
      simp [turn, pc, found, eq]

/-- The exception that leaves the walk is the one that leaves the innermost call. -/
theorem step_escaped_iff {env : Env} {w : Walk ω} {f : Frame} {rest : List Frame} (inside : w.escaped = none)
    (unlimited : w.sQueue.maxSize = 0) (top : w.frames = f :: rest) {e : Exn} :
    (w.step chain env).escaped = some e ↔ Escapes chain env w.world f e := by
  rw [← turn_throw_iff, Walk.step_cons chain top]
  cases (turn chain env f w.world).1 with
  | go | nest | ret => simp [Walk.apply, inside]
  | push g =>
    have room : w.sQueue.HasRoom := TSQueue.hasRoom_unlimited unlimited
    simp [Walk.apply, TSQueue.push_of_room room, inside]
  | throw e' g => simp [Walk.apply, Walk.unwind, eq_comm]

/-! ## A walk does not depend on what is in the queue -/

/-- `w'` is `w` with more in the queue before it, and another last error. -/
structure Alike (before : List Queued) (w w' : Walk ω) : Prop where
  frames : w'.frames = w.frames
  world : w'.world = w.world
  escaped : w'.escaped = w.escaped
  queue : w'.sQueue.queue = before ++ w.sQueue.queue
  unlimited : w.sQueue.maxSize = 0 ∧ w'.sQueue.maxSize = 0

theorem Alike.step {before : List Queued} {w w' : Walk ω} (alike : Alike before w w') (env : Env) :
    Alike before (w.step chain env) (w'.step chain env) := by
  obtain ⟨frames, world, escaped, queue, unlimited, unlimited'⟩ := alike
  have limits : (w.step chain env).sQueue.maxSize = 0 ∧ (w'.step chain env).sQueue.maxSize = 0 :=
    ⟨(Walk.step_maxSize env w).trans unlimited, (Walk.step_maxSize env w').trans unlimited'⟩
  refine ⟨?_, ?_, ?_, ?_, limits⟩ <;> clear limits
  all_goals
    cases top : w.frames with
    | nil =>
      rw [Walk.step_nil chain top, Walk.step_nil chain (frames.trans top)]
      assumption
    | cons f rest =>
      rw [Walk.step_cons chain top, Walk.step_cons chain (frames.trans top), world]
      cases (turn chain env f w.world).1 with
      | go | nest | ret | throw => first | rfl | assumption
      | push g =>
        simp [Walk.apply, TSQueue.push_of_room (TSQueue.hasRoom_unlimited unlimited),
          TSQueue.push_of_room (TSQueue.hasRoom_unlimited unlimited'), escaped, queue]

/-- A message takes the same steps and has the same wrappers pushed, whatever is in
`s_queue_` and in `last_error_` when it is taken from `r_queue_`. -/
theorem Alike.run {before : List Queued} {w w' : Walk ω} (alike : Alike before w w') (env : Nat → Env) (n : Nat) :
    Alike before (Lib.run (Walk.step chain) env w n) (Lib.run (Walk.step chain) env w' n) := by
  induction n with
  | zero => exact alike
  | succ n ih => exact ih.step (env n)

end Walk

/-! ## The pipeline -/

namespace Pipeline

variable {ω : Type} {chain : List (Filtra ω)}

/-- The processing thread handles messages. -/
def Handling (s : Pipeline ω) : Prop := ∃ pc, s.processing.thread = some pc ∧ pc.handling = true

/-- The step does not touch `state_` and leaves the thread in its loop, and `handle_messages`
only with `r_queue_` empty. -/
structure GoesOn (s t : Pipeline ω) : Prop where
  state : t.state = s.state
  handling : t.Handling
  drains : t.processing.thread = some .wait → t.rQueue.queue = []

/-- It throws nothing, or what the loops take for an empty queue. -/
def Survives (result : Except Exn Message) : Prop := ∀ e, result = .error e → e.kind = .underflowError

/-- A step of the processing thread meets no full subscriber buffer in a redirect; no
generation of a chunk throws, but for what is taken for an empty `r_queue_` when that is
empty, and no generation for an event, but for what is taken for an empty `e_queue_`. -/
structure Contained (chain : List (Filtra ω)) (queues : String → InternalQueue Message) (s : Pipeline ω) : Prop where
  redirect : ∀ f rest queuid others, s.processing.thread = some (.walk (f :: rest)) →
    f.pc = .redirect (queuid :: others) → ¬ (queues queuid).SomeFull
  generate : ∀ f rest splitter filtra, s.processing.thread = some (.walk (f :: rest)) →
    f.pc = .generate splitter → chain[splitter]? = some filtra →
      ∀ e, (filtra.generateMessage s.world).1 = .error e → e.kind = .underflowError ∧ s.rQueue.queue = []
  event : ∀ ix filtra, s.processing.thread = some (.event ix) → chain[ix]? = some filtra →
    Survives (filtra.generateMessage s.world).1

/-- At any other place there is nothing to meet. -/
theorem contained_elsewhere {queues : String → InternalQueue Message} {s : Pipeline ω} {pc : ProcessingPc}
    (here : s.processing.thread = some pc) (notWalk : ∀ f rest, pc ≠ .walk (f :: rest))
    (notEvent : ∀ ix, pc ≠ .event ix) : Contained chain queues s where
  redirect := fun _ _ _ _ walk _ => absurd (Option.some.inj (here.symm.trans walk)) (notWalk _ _)
  generate := fun _ _ _ _ walk _ _ => absurd (Option.some.inj (here.symm.trans walk)) (notWalk _ _)
  event := fun _ _ event _ => absurd (Option.some.inj (here.symm.trans event)) (notEvent _)

theorem goesOn_at (s : Pipeline ω) {pc : ProcessingPc} (handling : pc.handling = true) (inside : pc ≠ .wait) :
    GoesOn s (s.processingAt pc) :=
  ⟨rfl, ⟨pc, rfl, handling⟩, fun waits => absurd (Option.some.inj waits) inside⟩

/-- The handlers of the thread: an underflow, and everything else. -/
theorem goesOn_caught {s s' : Pipeline ω} (active : s.isActive = true) (same : s'.state = s.state) (e : Exn)
    (next : ProcessingPc) (handling : next.handling = true) :
    GoesOn s (s'.processingCaught e next) ↔ e.kind = .underflowError ∧ (next = .wait → s'.rQueue.queue = []) := by
  have running : s.state = .running := by simpa [isActive] using active
  unfold processingCaught
  split
  case isTrue underflow =>
    constructor
    · exact fun goesOn => ⟨underflow, fun waits => goesOn.drains (congrArg some waits)⟩
    · exact fun drained => ⟨same, ⟨next, rfl, handling⟩, fun waits => drained.2 (Option.some.inj waits)⟩
  case isFalse other =>
    refine ⟨fun goesOn => ?_, fun underflow => absurd underflow.1 other⟩
    have failed := goesOn.state
    rw [running] at failed
    cases failed

theorem contained_walk_iff {queues : String → InternalQueue Message} {s : Pipeline ω} {f : Frame} {rest : List Frame}
    (here : s.processing.thread = some (.walk (f :: rest))) :
    Contained chain queues s ↔
      ∀ e, Escapes chain (s.env queues) s.world f e → e.kind = .underflowError ∧ s.rQueue.queue = [] := by
  constructor
  · rintro contained e (⟨queuid, others, pc, full, -⟩ | ⟨splitter, filtra, pc, found, thrown⟩)
    · exact absurd full (contained.redirect f rest queuid others here pc)
    · exact contained.generate f rest splitter filtra here pc found e thrown
  · intro contained
    refine ⟨fun g rest' queuid others walk pc full => ?_, fun g rest' splitter filtra walk pc found e thrown => ?_,
      fun ix filtra event => ?_⟩
    · cases here.symm.trans walk
      have taken := contained _ (.inl ⟨queuid, others, pc, full, rfl⟩)
      cases taken.1
    · cases here.symm.trans walk
      exact contained e (.inr ⟨splitter, filtra, pc, found, thrown⟩)
    · cases here.symm.trans event

theorem contained_event_iff {queues : String → InternalQueue Message} {s : Pipeline ω} {ix : Nat}
    (here : s.processing.thread = some (.event ix)) :
    Contained chain queues s ↔
      ∀ filtra, chain[ix]? = some filtra → Survives (filtra.generateMessage s.world).1 := by
  refine ⟨fun contained filtra => contained.event ix filtra here, fun survives => ⟨?_, ?_, ?_⟩⟩
  · intro f rest _ _ walk
    cases here.symm.trans walk
  · intro f rest _ _ walk
    cases here.symm.trans walk
  · intro ix' filtra event
    cases here.symm.trans event
    exact survives filtra

/-- A filtra that generates for an event: the thread goes on when what it throws is survived. -/
theorem goesOn_event_iff {queues : String → InternalQueue Message} {s t : Pipeline ω} {ix : Nat} (active : s.isActive = true)
    (here : s.processing.thread = some (.event ix)) (h : s.runProcessing chain queues (.event ix) = some t) :
    GoesOn s t ↔ Contained chain queues s := by
  rw [contained_event_iff here]
  simp only [runProcessing] at h
  split at h
  case h_1 missing =>
    cases h
    exact iff_of_true (goesOn_at s rfl (by simp)) (by simp [missing])
  case h_2 filtra found =>
    have only : (∀ filtra', some filtra = some filtra' → Survives (filtra'.generateMessage s.world).1) ↔
        Survives (filtra.generateMessage s.world).1 := by simp
    rw [found, only]
    split at h
    case h_1 msg world generated =>
      cases h
      refine iff_of_true ⟨rfl, ⟨_, rfl, ?_⟩, fun waits => ?_⟩ fun e thrown => ?_
      · split <;> rfl
      · have waits : (if msg.isValid = true then ProcessingPc.events else .event (ix + 1)) = .wait := Option.some.inj waits
        split at waits <;> cases waits
      · rw [generated] at thrown; cases thrown
    case h_2 e world thrown =>
      cases h
      rw [goesOn_caught active (by rfl) e .messages rfl, thrown]
      exact ⟨fun underflow e' same => by cases same; exact underflow.1, fun survives => ⟨survives e rfl, by simp⟩⟩

/-- A step of a walk: the thread goes on when what escapes of it is survived. -/
theorem goesOn_walk_iff {queues : String → InternalQueue Message} {s t : Pipeline ω} {f : Frame} {rest : List Frame}
    (unlimited : s.sQueue.maxSize = 0) (active : s.isActive = true) (here : s.processing.thread = some (.walk (f :: rest)))
    (h : s.runProcessing chain queues (.walk (f :: rest)) = some t) : GoesOn s t ↔ Contained chain queues s := by
  rw [contained_walk_iff here]
  have escapes : ∀ e, ((s.walkOf (f :: rest)).step chain (s.env queues)).escaped = some e ↔
      Escapes chain (s.env queues) s.world f e := fun e => step_escaped_iff rfl unlimited rfl
  simp only [runProcessing] at h
  split at h
  case h_1 e escaped =>
    cases h
    rw [goesOn_caught active (by rfl) e .wait rfl]
    have thrown := (escapes e).mp escaped
    refine ⟨fun taken e' other => ?_, fun contained => ⟨(contained e thrown).1, fun _ => (contained e thrown).2⟩⟩
    cases escaped.symm.trans ((escapes e').mpr other)
    exact ⟨taken.1, taken.2 rfl⟩
  case h_2 inside _ | h_3 inside _ =>
    cases h
    refine iff_of_true ⟨rfl, ⟨_, rfl, rfl⟩, fun waits => by cases waits⟩ fun e thrown => ?_
    cases inside.symm.trans ((escapes e).mpr thrown)

/-- A step of the thread from its loop, while the pipeline is active: it goes on
exactly when the step is contained. -/
theorem goesOn_iff {queues : String → InternalQueue Message} {s t : Pipeline ω} (unlimited : s.sQueue.maxSize = 0)
    (active : s.isActive = true) (handling : s.Handling) (h : step chain (.processing queues) s = some t) :
    GoesOn s t ↔ Contained chain queues s := by
  obtain ⟨pc, here, handling⟩ := handling
  simp only [step, here, Option.bind_some] at h
  have plain : GoesOn s t → (∀ f rest, pc ≠ .walk (f :: rest)) → (∀ ix, pc ≠ .event ix) →
      (GoesOn s t ↔ Contained chain queues s) := fun goesOn notWalk notEvent =>
    iff_of_true goesOn (contained_elsewhere here notWalk notEvent)
  cases pc with
  | begin | startFiltra | started | finish | done => cases handling
  | loop | events | messages =>
    simp only [runProcessing, active, if_true, Option.some.injEq] at h
    exact plain (h ▸ goesOn_at s rfl (by simp)) (by simp) (by simp)
  | wait =>
    cases h
    exact plain (goesOn_at s rfl (by simp)) (by simp) (by simp)
  | popEvent =>
    simp only [runProcessing] at h
    split at h <;> cases h <;> exact plain ⟨rfl, ⟨_, rfl, rfl⟩, fun waits => by cases waits⟩ (by simp) (by simp)
  | popMessage =>
    simp only [runProcessing] at h
    split at h <;> cases h
    case h_1 => exact plain ⟨rfl, ⟨_, rfl, rfl⟩, fun waits => by cases waits⟩ (by simp) (by simp)
    case h_2 e empty => exact plain ⟨rfl, ⟨_, rfl, rfl⟩, fun _ => TSQueue.pop_error empty⟩ (by simp) (by simp)
  | blocked => cases h
  | event ix => exact goesOn_event_iff active here h
  | walk frames =>
    cases frames with
    | nil =>
      simp only [runProcessing, walkOf, Walk.step, Option.some.injEq] at h
      exact plain (h ▸ goesOn_at s rfl (by simp)) (by simp) (by simp)
    | cons f rest => exact goesOn_walk_iff unlimited active here h

/-- A redirect that meets a full buffer fails the pipeline. -/
theorem redirect_fails {queues : String → InternalQueue Message} {s t : Pipeline ω} {f : Frame} {rest : List Frame}
    {queuid : String} {others : List String} (unlimited : s.sQueue.maxSize = 0)
    (here : s.processing.thread = some (.walk (f :: rest))) (pc : f.pc = .redirect (queuid :: others))
    (full : (queues queuid).SomeFull) (h : step chain (.processing queues) s = some t) : t.state = .failed := by
  have escaped : ((s.walkOf (f :: rest)).step chain (s.env queues)).escaped = some TSQueue.queueIsFull :=
    (step_escaped_iff rfl unlimited rfl).mpr (.inl ⟨queuid, others, pc, full, rfl⟩)
  simp only [step, here, Option.bind_some, runProcessing, escaped, Option.some.injEq] at h
  exact h ▸ rfl

/-! ## A filtra that throws -/

/-- Where the thread goes on when a call is over: in the call below, or in the loop. -/
def behind : List Frame → ProcessingPc
  | [] => .messages
  | rest => .walk rest

/-- A walk step of the pipeline that lets nothing out. -/
theorem step_walk {queues : String → InternalQueue Message} {s : Pipeline ω} {frames : List Frame}
    (here : s.processing.thread = some (.walk frames))
    (inside : ((s.walkOf frames).step chain (s.env queues)).escaped = none) :
    step chain (.processing queues) s =
      some ({ s with
        world := ((s.walkOf frames).step chain (s.env queues)).world
        lastError := ((s.walkOf frames).step chain (s.env queues)).lastError
        sQueue := ((s.walkOf frames).step chain (s.env queues)).sQueue }.processingAt
          (behind ((s.walkOf frames).step chain (s.env queues)).frames)) := by
  simp only [step, here, Option.bind_some, runProcessing, inside]
  cases ((s.walkOf frames).step chain (s.env queues)).frames <;> rfl

/-- What a filtra throws takes its wrapper out of the pipeline, in one step or two,
and changes nothing else but the filtras' own world and `last_error_`. -/
theorem filtra_throws {s : Pipeline ω} {f : Frame} {rest : List Frame} {filtra : Filtra ω} {e : Exn}
    (here : s.processing.thread = some (.walk (f :: rest))) (pc : f.pc = .call)
    (found : chain[f.filtraIx]? = some filtra) (thrown : (filtra.processMessage s.world f.msgW).1 = .error e)
    (queues : String → InternalQueue Message) :
    ∃ turns error, Lib.exec (step chain) (List.replicate turns (.processing queues)) s =
      some ({ s with world := (filtra.processMessage s.world f.msgW).2.2, lastError := error }.processingAt
        (behind rest)) := by
  obtain ⟨hop, msgW, world, eq⟩ : ∃ hop msgW world, filtra.processMessage s.world f.msgW = (hop, msgW, world) :=
    ⟨_, _, _, rfl⟩
  rw [eq] at thrown ⊢
  cases thrown
  by_cases kind : e.kind = .invalidArgument
  · -- rejected, and dropped behind the loop
    let g : Frame := { f.left filtra s.world with msgW := msgW.reject, pc := .finish }
    have first : (s.walkOf (f :: rest)).step chain (s.env queues) = { s.walkOf (g :: rest) with world } := by
      rw [Walk.step_cons chain rfl]
      simp [turn, pc, found, eq, kind, Walk.apply, walkOf, g, Frame.left]
    let u := { s with world }.processingAt (.walk (g :: rest))
    have second : (u.walkOf (g :: rest)).step chain (u.env queues) =
        { u.walkOf rest with ended := [g.journey] } := by
      rw [Walk.step_cons chain rfl]
      simp [turn, Walk.apply, walkOf, g, MessageWrapper.reject]
    refine ⟨2, s.lastError, ?_⟩
    have one : step chain (.processing queues) s = some u := by
      rw [step_walk here (by rw [first]; rfl), first]
      rfl
    have two : step chain (.processing queues) u = some ({ s with world }.processingAt (behind rest)) := by
      rw [step_walk rfl (by rw [second]; rfl), second]
      rfl
    simp only [List.replicate, Lib.exec, one, two, Option.bind_some]
  · have first : (s.walkOf (f :: rest)).step chain (s.env queues) =
        { s.walkOf rest with
          world, lastError := e.what, ended := [(f.left filtra s.world).journey] } := by
      rw [Walk.step_cons chain rfl]
      simp [turn, pc, found, eq, kind, Walk.apply, walkOf]
    refine ⟨1, e.what, ?_⟩
    have one : step chain (.processing queues) s =
        some ({ s with world, lastError := e.what }.processingAt (behind rest)) := by
      rw [step_walk here (by rw [first]; rfl), first]
      rfl
    simp only [List.replicate, Lib.exec, one, Option.bind_some]

/-! ## Runs -/

/-- The control thread does not take `state_` out of `RUNNING`, no connector fails to
connect or to disconnect, and the steps of the processing thread are contained. -/
def Calm (chain : List (Filtra ω)) (a : Action) (s : Pipeline ω) : Prop :=
  match a with
  | .control _ => ∀ st rest, s.control = .setState st :: rest → st = .running
  | .receiving call => s.receiving.thread = some .connect ∨ s.receiving.thread = some .disconnect → ∃ m, call = .ok m
  | .sending call => s.sending.thread = some .connect ∨ s.sending.thread = some .disconnect → call = .ok ()
  | .processing queues => Contained chain queues s
  | .execute _ | .timerPush | .timerNotify | .wakeup => True

/-- The pipeline runs and its processing thread handles messages. -/
structure Working (s : Pipeline ω) : Prop where
  running : s.state = .running
  handling : s.Handling
  unlimited : s.sQueue.maxSize = 0

theorem Working.notify {s : Pipeline ω} (working : s.Working) : s.notify.Working := by
  unfold Pipeline.notify
  split
  · exact ⟨working.running, ⟨_, rfl, rfl⟩, working.unlimited⟩
  · exact working

/-- Nothing that matters here has changed. -/
theorem Working.congr {s t : Pipeline ω} (working : s.Working) (state : t.state = s.state)
    (processing : t.processing = s.processing) (limit : t.sQueue.maxSize = s.sQueue.maxSize) : t.Working where
  running := state.trans working.running
  handling := by
    obtain ⟨pc, here, handling⟩ := working.handling
    exact ⟨pc, processing ▸ here, handling⟩
  unlimited := limit.trans working.unlimited

theorem Working.receivingCaught {s : Pipeline ω} (working : s.Working) (e : Exn) : (s.receivingCaught e).Working := by
  unfold Pipeline.receivingCaught
  split <;> exact working.congr rfl rfl rfl

theorem Working.runReceiving {s t : Pipeline ω} {call : Except Exn Message} {pc : ReceivingPc} (working : s.Working)
    (connects : pc = .connect ∨ pc = .disconnect → ∃ m, call = .ok m) (h : s.runReceiving call pc = some t) :
    t.Working := by
  cases pc with
  | connect | disconnect =>
    obtain ⟨m, rfl⟩ := connects (by simp)
    cases h
    exact working.congr rfl rfl rfl
  | connected => simp only [Pipeline.runReceiving] at h; split at h <;> cases h <;> exact working.congr rfl rfl rfl
  | receive =>
    cases call <;> cases h
    · exact working.receivingCaught _
    · exact working.congr rfl rfl rfl
  | push m =>
    simp only [Pipeline.runReceiving] at h
    split at h <;> cases h
    · exact working.congr rfl rfl rfl
    · exact working.receivingCaught _
  | notify => cases h; exact working.notify.congr rfl rfl rfl
  | begin | loop | finish => cases h; exact working.congr rfl rfl rfl
  | done => cases h

theorem Working.runSending {s t : Pipeline ω} {call : Except Exn Unit} {pc : SendingPc} (working : s.Working)
    (connects : pc = .connect ∨ pc = .disconnect → call = .ok ()) (h : s.runSending call pc = some t) :
    t.Working := by
  cases pc with
  | connect | disconnect =>
    cases connects (by simp)
    cases h
    exact working.congr rfl rfl rfl
  | connected => simp only [Pipeline.runSending] at h; split at h <;> cases h <;> exact working.congr rfl rfl rfl
  | pop =>
    simp only [Pipeline.runSending] at h
    split at h <;> cases h
    case h_1 taken =>
      exact working.congr rfl rfl (TSQueue.pop_maxSize taken)
    case h_2 => exact working.congr rfl rfl rfl
  | send x =>
    simp only [Pipeline.runSending] at h
    split at h
    · cases h; exact working.congr rfl rfl rfl
    · split at h <;> cases h <;> exact working.congr rfl rfl rfl
  | begin | loop | clear | finish => cases h; exact working.congr rfl rfl rfl
  | done => cases h

theorem Working.controlCaught {s : Pipeline ω} (working : s.Working) (e : Exn) : (s.controlCaught e).Working := by
  unfold Pipeline.controlCaught
  split <;> exact working.congr rfl rfl rfl

theorem Working.await {s t : Pipeline ω} {st : ThreadState} {call : Except Exn Unit} {rest : List Instr}
    (working : s.Working) (h : s.await st call rest = some t) : t.Working := by
  unfold Pipeline.await at h
  split at h
  · cases h
    exact working.congr rfl rfl rfl
  · split at h <;> cases h
    exact working.controlCaught _

/-- The control thread does not find the processing thread gone. -/
theorem Working.joined {s : Pipeline ω} (working : s.Working) (gone : s.processing.thread = none ∨
    s.processing.thread = some .done) : False := by
  obtain ⟨pc, here, handling⟩ := working.handling
  rcases gone with gone | gone <;> cases here.symm.trans gone
  cases handling

theorem Working.runControl {s t : Pipeline ω} {call : Except Exn Unit} {todo : List Instr} (working : s.Working)
    (stays : ∀ st rest, todo = .setState st :: rest → st = .running) (h : s.runControl call todo = some t) :
    t.Working := by
  cases todo with
  | nil => cases h
  | cons instr rest =>
    cases instr with
    | setState st =>
      cases h
      exact ⟨stays st rest rfl, working.handling, working.unlimited⟩
    | joinProcessing =>
      simp only [Pipeline.runControl] at h
      split at h
      case h_1 gone => exact (working.joined (.inl gone)).elim
      case h_2 gone => exact (working.joined (.inr gone)).elim
      case h_3 => cases h
    | awaitSending | awaitProcessing | awaitReceiving => exact working.await h
    | startProcessing =>
      simp only [Pipeline.runControl] at h
      split at h
      · cases h
        exact working.controlCaught _
      case h_2 gone => exact (working.joined (.inl gone)).elim
    | startSending | startReceiving | connectorStop | command =>
      simp only [Pipeline.runControl] at h
      split at h <;> cases h <;> first | exact working.congr rfl rfl rfl | exact working.controlCaught _
    | executeStart | executeStop | joinReceiving | joinSending =>
      simp only [Pipeline.runControl] at h
      split at h <;> cases h <;> exact working.congr rfl rfl rfl
    | notifyProcessing =>
      simp only [Pipeline.runControl] at h
      split at h <;> cases h
      · exact working.notify
      · exact working.congr rfl rfl rfl
    | testAlive | clearError | setBlocking | setNonBlocking | freeResources =>
      cases h
      exact working.congr rfl rfl rfl

theorem unlimited_of_reaches {world : ω} {s : Pipeline ω} (reached : Lib.Reaches (step chain) (prepared world) s) :
    s.sQueue.maxSize = 0 :=
  reached.invariant (fun s => s.sQueue.maxSize = 0) rfl fun _ _ _ unlimited h => by
    obtain ⟨env, moves, -⟩ := step_moves h
    exact moves.limit.trans unlimited

theorem Working.step {a : Action} {s t : Pipeline ω} (calm : Calm chain a s) (working : s.Working)
    (h : step chain a s = some t) : t.Working := by
  cases a with
  | execute cmd =>
    simp only [Pipeline.step] at h
    split at h
    · split at h <;> cases h <;> exact working.congr rfl rfl rfl
    · cases h
  | control call => exact working.runControl calm h
  | receiving call =>
    obtain ⟨pc, here, next⟩ := Option.bind_eq_some_iff.mp h
    refine working.runReceiving (fun connects => calm ?_) next
    rcases connects with rfl | rfl
    · exact .inl here
    · exact .inr here
  | processing queues =>
    have active : s.isActive = true := by simp [isActive, working.running]
    have goesOn := (goesOn_iff working.unlimited active working.handling h).mpr calm
    obtain ⟨env, moves, -⟩ := step_moves h
    exact ⟨goesOn.state.trans working.running, goesOn.handling, moves.limit.trans working.unlimited⟩
  | sending call =>
    obtain ⟨pc, here, next⟩ := Option.bind_eq_some_iff.mp h
    refine working.runSending (fun connects => calm ?_) next
    rcases connects with rfl | rfl
    · exact .inl here
    · exact .inr here
  | timerPush =>
    simp only [Pipeline.step] at h
    split at h <;> cases h <;> exact working.congr rfl rfl rfl
  | timerNotify =>
    simp only [Pipeline.step] at h
    split at h <;> cases h
    exact working.notify.congr rfl rfl rfl
  | wakeup => cases h; exact working.notify

/-- **Errors.** In every state in which the pipeline runs and its thread handles
messages: it stays so in every calm run, whatever the filtras throw, and the thread leaves
no message in `r_queue_` behind; one step of the thread goes on so exactly when it is contained; a filtra that throws takes no more
than its wrapper with it; and a message taken then has the walk it would have in a
pipeline that received nothing before, in the same world. -/
theorem errors_contained (chain : List (Filtra ω)) (world : ω) :
    ∀ s, Lib.Reaches (step chain) (prepared world) s → s.state = .running → s.Handling →
      (∀ t, Lib.ReachesWhen (step chain) (Calm chain) s t → t.state = .running ∧ t.Handling ∧
        ∀ queues u, Contained chain queues t → step chain (.processing queues) t = some u → GoesOn t u) ∧
      (∀ queues t, step chain (.processing queues) s = some t → (GoesOn s t ↔ Contained chain queues s)) ∧
      (∀ f rest filtra e, s.processing.thread = some (.walk (f :: rest)) → f.pc = .call →
        chain[f.filtraIx]? = some filtra → (filtra.processMessage s.world f.msgW).1 = .error e →
        ∀ queues, ∃ turns error, Lib.exec (step chain) (List.replicate turns (.processing queues)) s =
          some ({ s with world := (filtra.processMessage s.world f.msgW).2.2, lastError := error }.processingAt
            (behind rest))) ∧
      ∀ (m : Received) env n, Alike s.sQueue.queue (Lib.run (Walk.step chain) env (.begin s.world m.number m.msg 0) n)
        (Lib.run (Walk.step chain) env (s.walkOf [.begin m.number m.msg 0]) n) := by
  intro s reached running handling
  have working : s.Working := ⟨running, handling, unlimited_of_reaches reached⟩
  have active : s.isActive = true := by simp [isActive, running]
  refine ⟨fun t calm => ?_, fun queues t h => goesOn_iff working.unlimited active handling h,
    fun f rest filtra e here pc found thrown queues => filtra_throws here pc found thrown queues, fun m env n => ?_⟩
  · have after := calm.invariant Working working fun a s t met working h => working.step met h
    have active : t.isActive = true := by simp [isActive, after.running]
    exact ⟨after.running, after.handling,
      fun queues u contained h => (goesOn_iff after.unlimited active after.handling h).mpr contained⟩
  · have start : Alike s.sQueue.queue (Walk.begin s.world m.number m.msg 0) (s.walkOf [.begin m.number m.msg 0]) :=
      ⟨rfl, rfl, rfl, (List.append_nil _).symm, rfl, working.unlimited⟩
    exact start.run env n

/-! ## A full subscriber -/

/-- The filtra of `{"queues": ["q"], "type": "nop"}`. -/
def forwarding : Filtra Unit :=
  .nop (.object [("queues", .array [.string "q"]), ("type", .string "nop")])
    { name := "", msgFormat := .raw, logicalNegation := false, queueIds := ["q"], metadata := .null, hops := ("", "") }
    rfl

/-- One subscriber with a limit of one message, and that message. -/
def oneFull (_ : String) : InternalQueue Message where
  buffers := [(1, { maxSize := 1, queue := [{}] })]
  maxTakenKey := 1
  distinct := by decide
  taken := by decide

/-- A message is about to be redirected. -/
def redirecting : Pipeline Unit :=
  (Lib.exec (step [forwarding, .plain])
    (startUp ++ receiveOne (.ofString [0x61] .raw) ++ List.replicate 2 (.processing fun _ => {})) (prepared ())).getD
    (prepared ())

theorem redirecting_reached : Lib.Reaches (step [forwarding, .plain]) (prepared ()) redirecting :=
  Lib.exec_reaches (startUp ++ receiveOne (.ofString [0x61] .raw) ++ List.replicate 2 (.processing fun _ => {})) rfl

/-- With no subscriber at all the redirect is contained. -/
theorem errors_contained_redirecting :
    ∃ t, step [forwarding, .plain] (.processing fun _ => {}) redirecting = some t ∧ redirecting.GoesOn t := by
  refine ⟨_, rfl, ?_⟩
  have goesOn := ((errors_contained [forwarding, .plain] () redirecting redirecting_reached rfl ⟨_, rfl, rfl⟩).2.1
    (fun _ => {}) _ rfl).mpr
  refine goesOn ⟨fun _ _ _ _ _ _ => ?_, fun _ _ _ _ here pc => ?_, fun _ _ here => ?_⟩
  · decide
  · cases here; cases pc
  · cases here

theorem full_subscriber_fails_pipeline :
    ¬ ∀ (chain : List (Filtra Unit)) (s t : Pipeline Unit) (queues : String → InternalQueue Message),
      Lib.Reaches (step chain) (prepared ()) s → s.state = .running → s.Handling →
      step chain (.processing queues) s = some t → t.state = .running := by
  intro all
  have running := all [forwarding, .plain] redirecting _ oneFull redirecting_reached rfl ⟨_, rfl, rfl⟩ rfl
  revert running
  decide

end Pipeline

end M2eBridge
