import M2eBridge.Pipeline.Control

/-!
# Where the messages are

A message of a pipeline is in the receiving thread's hand, in `r_queue_`, in a call
of `process`, in `s_queue_`, in the sending thread's hand, or out of the last. `Cargo`
is these places and nothing else of the state, and `step_moves` says once what a step
can do to them: nearly all steps, the whole of the control thread among them, leave
the cargo where it is.
-/

namespace M2eBridge

open Process (Frame Queued Env Walk)

def ReceivingPc.hand : ReceivingPc → List Received
  | .push m => [m]
  | _ => []

def ProcessingPc.frames : ProcessingPc → List Frame
  | .walk frames => frames
  | _ => []

def SendingPc.hand : SendingPc → List Queued
  | .send x => [x]
  | _ => []

structure Cargo where
  received : List Message
  receivingHand : List Received
  rQueue : List Received
  frames : List Frame
  sQueue : List Queued
  /-- The limit of `s_queue_`. -/
  limit : Nat
  sendingHand : List Queued
  sent : List Queued

namespace Pipeline

variable {ω : Type}

def cargo (s : Pipeline ω) : Cargo where
  received := s.received
  receivingHand := s.receiving.thread.elim [] ReceivingPc.hand
  rQueue := s.rQueue.queue
  frames := s.processing.thread.elim [] ProcessingPc.frames
  sQueue := s.sQueue.queue
  limit := s.sQueue.maxSize
  sendingHand := s.sending.thread.elim [] SendingPc.hand
  sent := s.sent

/-- What a step can do to the cargo; a step of `process` with what it finds. -/
inductive Moves (chain : List (Filtra ω)) : Option Env → Cargo → Cargo → Prop where
  | still (c : Cargo) : Moves chain none c c
  | receive (c : Cargo) (msg : Message) (empty : c.receivingHand = []) :
      Moves chain none c
        { c with received := c.received ++ [msg], receivingHand := [⟨c.received.length, msg⟩] }
  | accept (c : Cargo) (m : Received) (hand : c.receivingHand = [m]) :
      Moves chain none c { c with receivingHand := [], rQueue := c.rQueue ++ [m] }
  | lose (c : Cargo) : Moves chain none c { c with receivingHand := [] }
  | take (c : Cargo) (m : Received) (rest : List Received) (queue : c.rQueue = m :: rest) (idle : c.frames = []) :
      Moves chain none c { c with rQueue := rest, frames := [.begin m.number m.msg 0] }
  | walk (c : Cargo) (w : Walk ω) (env : Env) (frames : w.frames = c.frames) (queue : w.sQueue.queue = c.sQueue)
      (limit : w.sQueue.maxSize = c.limit) :
      Moves chain (some env) c
        { c with
          frames := (w.step chain env).frames
          sQueue := (w.step chain env).sQueue.queue
          limit := (w.step chain env).sQueue.maxSize }
  | pop (c : Cargo) (x : Queued) (rest : List Queued) (queue : c.sQueue = x :: rest) (empty : c.sendingHand = []) :
      Moves chain none c { c with sQueue := rest, sendingHand := [x] }
  | send (c : Cargo) (x : Queued) (hand : c.sendingHand = [x]) :
      Moves chain none c { c with sendingHand := [], sent := c.sent ++ [x] }

@[simp] theorem cargo_receivingAt (s : Pipeline ω) (pc : ReceivingPc) :
    (s.receivingAt pc).cargo = { s.cargo with receivingHand := pc.hand } := rfl

@[simp] theorem cargo_processingAt (s : Pipeline ω) (pc : ProcessingPc) :
    (s.processingAt pc).cargo = { s.cargo with frames := pc.frames } := rfl

@[simp] theorem cargo_sendingAt (s : Pipeline ω) (pc : SendingPc) :
    (s.sendingAt pc).cargo = { s.cargo with sendingHand := pc.hand } := rfl

/-- A notification wakes a thread that holds nothing. -/
@[simp] theorem cargo_notify (s : Pipeline ω) : s.notify.cargo = s.cargo := by
  unfold notify
  split
  case h_1 blocked => simp [cargo, processingAt, blocked, ProcessingPc.frames]
  case h_2 => rfl

@[simp] theorem cargo_controlCaught (s : Pipeline ω) (e : Exn) : (s.controlCaught e).cargo = s.cargo := by
  unfold controlCaught
  split <;> rfl

theorem cargo_receivingCaught (s : Pipeline ω) (e : Exn) :
    (s.receivingCaught e).cargo = { s.cargo with receivingHand := [] } := by
  unfold receivingCaught
  split <;> rfl

theorem cargo_processingCaught (s : Pipeline ω) (e : Exn) {next : ProcessingPc} (idle : next.frames = []) :
    (s.processingCaught e next).cargo = { s.cargo with frames := [] } := by
  unfold processingCaught
  split
  · simp [idle]
  · rfl

/-- `s_queue_` never gets a limit. -/
theorem Moves.limit {chain : List (Filtra ω)} {env : Option Env} {c d : Cargo} (moves : Moves chain env c d) :
    d.limit = c.limit := by
  cases moves with
  | walk _ w env _ _ limit => exact (Walk.step_maxSize env w).trans limit
  | still | receive | accept | lose | take | pop | send => rfl

/-- A step that only changes the place of the receiving thread, between places without a message. -/
theorem receiving_still {chain : List (Filtra ω)} {s t : Pipeline ω} (hand : s.cargo.receivingHand = [])
    (same : t.cargo = { s.cargo with receivingHand := [] }) : Moves chain none s.cargo t.cargo := by
  have : t.cargo = s.cargo := by rw [same, ← hand]
  rw [this]
  exact .still s.cargo

theorem processing_still {chain : List (Filtra ω)} {s t : Pipeline ω} (idle : s.cargo.frames = [])
    (same : t.cargo = { s.cargo with frames := [] }) : Moves chain none s.cargo t.cargo := by
  have : t.cargo = s.cargo := by rw [same, ← idle]
  rw [this]
  exact .still s.cargo

theorem sending_still {chain : List (Filtra ω)} {s t : Pipeline ω} (hand : s.cargo.sendingHand = [])
    (same : t.cargo = { s.cargo with sendingHand := [] }) : Moves chain none s.cargo t.cargo := by
  have : t.cargo = s.cargo := by rw [same, ← hand]
  rw [this]
  exact .still s.cargo

theorem runReceiving_moves {chain : List (Filtra ω)} {s t : Pipeline ω} {call : Except Exn Message}
    {pc : ReceivingPc} (here : s.receiving.thread = some pc) (h : s.runReceiving call pc = some t) :
    Moves chain none s.cargo t.cargo := by
  have hand : s.cargo.receivingHand = pc.hand := by simp [cargo, here]
  cases pc with
  | receive =>
    cases call with
    | ok msg => cases h; exact .receive s.cargo msg hand
    | error e => cases h; exact receiving_still hand (cargo_receivingCaught s e)
  | push m =>
    simp only [runReceiving] at h
    split at h
    case h_1 rQueue pushed =>
      rw [TSQueue.push] at pushed
      split at pushed <;> cases pushed
      cases h
      exact .accept s.cargo m hand
    case h_2 e _ =>
      cases h
      rw [cargo_receivingCaught]
      exact .lose s.cargo
  | connect | disconnect => cases call <;> cases h <;> exact receiving_still hand rfl
  | connected => simp only [runReceiving] at h; split at h <;> cases h <;> exact receiving_still hand rfl
  | loop =>
    cases h
    apply receiving_still hand
    cases s.isActive <;> rfl
  | notify => cases h; exact receiving_still hand (by simp [ReceivingPc.hand])
  | begin | finish => cases h; exact receiving_still hand rfl
  | done => cases h

theorem runSending_moves {chain : List (Filtra ω)} {s t : Pipeline ω} {call : Except Exn Unit}
    {pc : SendingPc} (here : s.sending.thread = some pc) (h : s.runSending call pc = some t) :
    Moves chain none s.cargo t.cargo := by
  have hand : s.cargo.sendingHand = pc.hand := by simp [cargo, here]
  cases pc with
  | pop =>
    simp only [runSending] at h
    split at h
    case h_1 x sQueue taken =>
      cases h
      have moves : Moves chain _ s.cargo _ := .pop s.cargo x sQueue.queue (TSQueue.pop_ok taken) hand
      rwa [show s.cargo.limit = sQueue.maxSize from (TSQueue.pop_maxSize taken).symm] at moves
    case h_2 => cases h; exact sending_still hand rfl
    case h_3 => cases h
  | send x =>
    simp only [runSending] at h
    split at h
    · cases h; exact .send s.cargo x hand
    · split at h <;> cases h <;> exact .send s.cargo x hand
  | connect | disconnect => cases call <;> cases h <;> exact sending_still hand rfl
  | connected => simp only [runSending] at h; split at h <;> cases h <;> exact sending_still hand rfl
  | loop =>
    cases h
    apply sending_still hand
    cases s.isActive <;> rfl
  | begin | clear | finish => cases h; exact sending_still hand rfl
  | done => cases h

theorem runProcessing_moves {chain : List (Filtra ω)} {s t : Pipeline ω} {queues : String → InternalQueue Message}
    {pc : ProcessingPc} (here : s.processing.thread = some pc) (h : s.runProcessing chain queues pc = some t) :
    ∃ env, Moves chain env s.cargo t.cargo ∧ (env = none ∨ env = some (s.env queues)) := by
  have frames : s.cargo.frames = pc.frames := by simp [cargo, here]
  cases pc with
  | walk frames' =>
    refine ⟨_, ?_, .inr rfl⟩
    have moves : Moves chain _ s.cargo _ := .walk s.cargo (s.walkOf frames') (s.env queues) frames.symm rfl rfl
    simp only [runProcessing] at h
    split at h
    case h_1 escaped =>
      cases h
      rw [cargo_processingCaught _ _ rfl]
      rw [Walk.step_escaped rfl escaped] at moves
      exact moves
    case h_2 none' =>
      cases h
      rw [none'] at moves
      exact moves
    case h_3 => cases h; exact moves
  | popMessage =>
    refine ⟨none, ?_, .inl rfl⟩
    simp only [runProcessing] at h
    split at h
    case h_1 m rQueue taken =>
      cases h
      exact .take s.cargo m rQueue.queue (TSQueue.pop_ok taken) frames
    case h_2 => cases h; exact processing_still frames rfl
    case h_3 => cases h
  | popEvent =>
    refine ⟨none, ?_, .inl rfl⟩
    simp only [runProcessing] at h
    split at h <;> cases h <;> exact processing_still frames rfl
  | event ix =>
    refine ⟨none, ?_, .inl rfl⟩
    simp only [runProcessing] at h
    split at h
    case h_1 => cases h; exact processing_still frames rfl
    case h_2 =>
      split at h <;> cases h
      · apply processing_still frames
        split <;> rfl
      · exact processing_still frames (cargo_processingCaught _ _ rfl)
  | startFiltra ix =>
    refine ⟨none, ?_, .inl rfl⟩
    simp only [runProcessing] at h
    split at h
    case h_1 => cases h; exact processing_still frames rfl
    case h_2 => split at h <;> cases h <;> exact processing_still frames rfl
  | loop | events | messages =>
    cases h
    refine ⟨none, processing_still frames ?_, .inl rfl⟩
    cases s.isActive <;> rfl
  | begin | started | wait | finish => cases h; exact ⟨none, processing_still frames rfl, .inl rfl⟩
  | blocked | done => cases h

@[simp] theorem cargo_control (s : Pipeline ω) (control : List Instr) :
    ({ s with control } : Pipeline ω).cargo = s.cargo := rfl

theorem await_cargo {s t : Pipeline ω} {st : ThreadState} {call : Except Exn Unit} {rest : List Instr}
    (h : s.await st call rest = some t) : t.cargo = s.cargo := by
  unfold await at h
  split at h
  · cases h; rfl
  · cases call <;> cases h
    simp

/-- The control thread starts threads that hold nothing yet and joins those that hold nothing any more. -/
theorem runControl_cargo {s t : Pipeline ω} {call : Except Exn Unit} {todo : List Instr}
    (h : s.runControl call todo = some t) : t.cargo = s.cargo := by
  cases todo with
  | nil => cases h
  | cons instr rest =>
    cases instr with
    | testAlive | setState | clearError | freeResources | setBlocking | setNonBlocking => cases h; rfl
    | command =>
      simp only [runControl] at h
      split at h <;> cases h
      · rfl
      · exact cargo_controlCaught s _
    | executeStart | executeStop => simp only [runControl] at h; split at h <;> cases h <;> rfl
    | connectorStop => cases call <;> cases h <;> simp
    | awaitSending | awaitProcessing | awaitReceiving => exact await_cargo h
    | notifyProcessing => simp only [runControl] at h; split at h <;> cases h <;> simp
    | startSending | startProcessing | startReceiving =>
      simp only [runControl] at h
      split at h <;> cases h
      · exact cargo_controlCaught s _
      case h_2 idle =>
        simp [cargo, idle, sendingAt, processingAt, receivingAt, SendingPc.hand, ProcessingPc.frames,
          ReceivingPc.hand]
    | joinReceiving | joinProcessing | joinSending =>
      simp only [runControl] at h
      split at h <;> cases h
      · rfl
      case h_2 done => simp [cargo, done, SendingPc.hand, ProcessingPc.frames, ReceivingPc.hand]

/-- A step leaves the cargo or moves it in one of the ways above; the calls of
`process` go on in steps of the processing thread only. -/
theorem step_moves {chain : List (Filtra ω)} {a : Action} {s t : Pipeline ω} (h : step chain a s = some t) :
    ∃ env, Moves chain env s.cargo t.cargo ∧
      ∀ e, env = some e → ∃ queues, a = .processing queues ∧ e = s.env queues := by
  have still : t.cargo = s.cargo → ∃ env, Moves chain env s.cargo t.cargo ∧
      ∀ e, env = some e → ∃ queues, a = .processing queues ∧ e = s.env queues := fun same =>
    ⟨none, same.symm ▸ .still s.cargo, nofun⟩
  cases a with
  | execute cmd =>
    simp only [step] at h
    split at h
    · split at h <;> cases h <;> exact still rfl
    · cases h
  | control call => exact still (runControl_cargo h)
  | receiving call =>
    obtain ⟨pc, here, next⟩ := Option.bind_eq_some_iff.mp h
    exact ⟨none, runReceiving_moves here next, nofun⟩
  | processing queues =>
    obtain ⟨pc, here, next⟩ := Option.bind_eq_some_iff.mp h
    obtain ⟨env, moves, found⟩ := runProcessing_moves here next
    refine ⟨env, moves, fun e same => ⟨queues, rfl, ?_⟩⟩
    rcases found with none' | found
    · rw [none'] at same; cases same
    · rw [found] at same; exact (Option.some.inj same).symm
  | sending call =>
    obtain ⟨pc, here, next⟩ := Option.bind_eq_some_iff.mp h
    exact ⟨none, runSending_moves here next, nofun⟩
  | timerPush => simp only [step] at h; split at h <;> cases h <;> exact still rfl
  | timerNotify =>
    simp only [step] at h
    split at h <;> cases h
    exact still (cargo_notify s)
  | wakeup => cases h; exact still (cargo_notify s)

end Pipeline

end M2eBridge
