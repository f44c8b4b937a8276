import M2eBridge.Pipeline.Sequential

/-!
# From the chain to the connector

What the chain pushes is owed to `connector_out_->send`: it waits in `s_queue_`, is in the
hand of the sending thread, or was handed over. No step of any thread loses, repeats or
reorders it (`delivered`), whatever fails, stops or starts again in between.
-/

namespace M2eBridge

open Process (Act Frame Walk Queued)

namespace Process

/-- The wrappers that are pushed to `s_queue_`. -/
def pushes : List Act → List MessageWrapper
  | [] => []
  | .push msgW :: acts => msgW :: pushes acts
  | _ :: acts => pushes acts

theorem pushes_append (acts later : List Act) : pushes (acts ++ later) = pushes acts ++ pushes later := by
  induction acts with
  | nil => rfl
  | cons act acts ih => cases act <;> simp only [List.cons_append, pushes, ih]

variable {ω : Type} {chain : List (Filtra ω)}

theorem pushes_generated (ix : Nat) (filtra : Filtra ω) (world : ω) : pushes (generated ix filtra world) = [] := by
  unfold generated
  split
  · split <;> rfl
  · rfl

/-- Only behind its loop a call pushes its wrapper, if that is passed. -/
theorem pushes_acts (f : Frame) (world : ω) :
    pushes (f.acts chain world) = if f.pc = .finish ∧ f.msgW.isPassed = true then [f.msgW] else [] := by
  cases pc : f.pc with
  | test => simp [Frame.acts, pc, pushes]
  | call =>
    simp only [Frame.acts, pc, reduceCtorEq, false_and, if_false]
    split
    · rfl
    · split <;> split <;> rfl
  | redirect queues => cases queues <;> simp [Frame.acts, pc, pushes]
  | generate splitter =>
    simp only [Frame.acts, pc, reduceCtorEq, false_and, if_false]
    split
    · rfl
    · exact pushes_generated _ _ _
  | finish =>
    simp only [Frame.acts, pc, true_and]
    split <;> rfl

/-- A step of the walk pushes what its acts say. -/
theorem walk_pushes (env : Env) {w : Walk ω} {f : Frame} {below : List Frame} (top : w.frames = f :: below)
    (unlimited : w.sQueue.maxSize = 0) :
    (w.step chain env).sQueue.queue.map Queued.msgW = w.sQueue.queue.map Queued.msgW ++ pushes (f.acts chain w.world) := by
  rw [pushes_acts]
  have kind := turned chain env f w.world
  rw [Walk.step_cons chain top]
  generalize (turn chain env f w.world).1 = next at kind ⊢
  generalize (turn chain env f w.world).2.1 = world
  generalize (turn chain env f w.world).2.2 = error
  cases kind with
  | pushes pc passed =>
    have pushed (x : Queued) : w.sQueue.push x = .ok { w.sQueue with queue := w.sQueue.queue ++ [x] } :=
      TSQueue.push_of_room (TSQueue.hasRoom_unlimited unlimited)
    simp [Walk.apply, pushed, pc, passed]
  | drops pc passed => simp [Walk.apply, pc, passed]
  | outOfLoop pc | enter pc | splits pc | passes pc | rejectsTo pc | rejects pc | invalid pc | fails pc | allRedirected pc
  | redirected pc | overflows pc | chunk pc | allGenerated pc | generateFails pc | astray pc =>
    simp [Walk.apply, Walk.unwind, pc]

end Process

namespace Pipeline

open Process (pushes pushes_append)

variable {ω : Type} {chain : List (Filtra ω)}

/-! ## The sending thread -/

theorem Moves.sent {env : Option Process.Env} {c d : Cargo} (moves : Moves chain env c d)
    (hand : d.sendingHand = c.sendingHand) : d.sent = c.sent := by
  cases moves with
  | send _ x full =>
    rw [full] at hand
    cases hand
  | still | receive | accept | lose | take | walk | pop => rfl

theorem sending_kept {a : Action} {s t : Pipeline ω} (control : ∀ call, a ≠ .control call)
    (sending : ∀ call, a ≠ .sending call) (h : step chain a s = some t) : t.sending = s.sending := by
  cases a with
  | execute cmd =>
    simp only [step] at h
    split at h
    · split at h <;> cases h <;> rfl
    · cases h
  | control call => exact absurd rfl (control call)
  | receiving call =>
    obtain ⟨pc, -, next⟩ := Option.bind_eq_some_iff.mp h
    exact (runReceiving_step next).sending
  | processing queues =>
    obtain ⟨pc, -, next⟩ := Option.bind_eq_some_iff.mp h
    exact (runProcessing_step next).sending
  | sending call => exact absurd rfl (sending call)
  | timerPush => simp only [step] at h; split at h <;> cases h <;> rfl
  | timerNotify =>
    simp only [step] at h
    split at h <;> cases h
    exact (notify_rest s).2.1
  | wakeup => cases h; exact (notify_rest s).2.1

/-- Only the sending thread sends. -/
theorem sent_kept {a : Action} {s t : Pipeline ω} (sending : ∀ call, a ≠ .sending call) (h : step chain a s = some t) :
    t.sent = s.sent := by
  by_cases control : ∃ call, a = .control call
  · obtain ⟨call, rfl⟩ := control
    exact congrArg Cargo.sent (runControl_cargo h)
  · have kept : t.sending = s.sending := sending_kept (fun call same => control ⟨call, same⟩) sending h
    obtain ⟨env, moves, -⟩ := step_moves h
    exact moves.sent (by simp only [cargo, kept])

/-- It sends what it has in hand. -/
theorem sent_sending {call : Except Exn Unit} {s t : Pipeline ω} (h : step chain (.sending call) s = some t) :
    t.sent = s.sent ++ s.cargo.sendingHand := by
  obtain ⟨pc, here, h⟩ := Option.bind_eq_some_iff.mp h
  have hand : s.cargo.sendingHand = pc.hand := by simp [cargo, here]
  rw [hand]
  cases pc with
  | send x =>
    simp only [runSending] at h
    split at h
    · cases h; rfl
    · split at h <;> cases h <;> rfl
  | pop | connected => simp only [runSending] at h; split at h <;> cases h <;> exact (List.append_nil _).symm
  | connect | disconnect => cases call <;> cases h <;> exact (List.append_nil _).symm
  | begin | loop | clear | finish => cases h; exact (List.append_nil _).symm
  | done => cases h

/-! ## What is owed -/

/-- What was handed to the connector and what is still to be handed to it, in that order. -/
def outbox (s : Pipeline ω) : List MessageWrapper :=
  (s.sent ++ s.cargo.sendingHand ++ s.sQueue.queue).map Queued.msgW

/-- Without a step of `process` the cargo keeps its far end, or moves it on. -/
theorem Moves.outbox {c d : Cargo} (moves : Moves chain none c d) :
    (d.sent ++ d.sendingHand ++ d.sQueue).map Queued.msgW = (c.sent ++ c.sendingHand ++ c.sQueue).map Queued.msgW := by
  generalize none' : none = env at moves
  cases moves with
  | still | receive | accept | lose | take => rfl
  | walk => cases none'
  | pop _ x rest queue empty => simp [queue, empty]
  | send _ x hand => simp [hand]

theorem processingCaught_rest (s : Pipeline ω) (e : Exn) (next : ProcessingPc) :
    (s.processingCaught e next).sent = s.sent ∧ (s.processingCaught e next).sending = s.sending ∧
      (s.processingCaught e next).sQueue = s.sQueue := by
  unfold processingCaught
  split <;> exact ⟨rfl, rfl, rfl⟩

theorem outbox_of_rest {s t : Pipeline ω} (sent : t.sent = s.sent) (sending : t.sending = s.sending)
    (sQueue : t.sQueue = s.sQueue) : t.outbox = s.outbox := by
  simp only [outbox, cargo, sent, sending, sQueue]

theorem runProcessing_outbox {queues : String → InternalQueue Message} {s t : Pipeline ω} {pc : ProcessingPc}
    (unlimited : s.sQueue.maxSize = 0) (here : s.processing.thread = some pc)
    (h : s.runProcessing chain queues pc = some t) : t.outbox = s.outbox ++ pushes (s.processingActs chain) := by
  have caught (s : Pipeline ω) (e : Exn) (next : ProcessingPc) : (s.processingCaught e next).outbox = s.outbox :=
    have rest := processingCaught_rest s e next
    outbox_of_rest rest.1 rest.2.1 rest.2.2
  cases pc with
  | walk frames =>
    cases frames with
    | nil =>
      rw [runProcessing, Walk.step_nil chain rfl] at h
      cases h
      simp only [processingActs, here, pushes, List.append_nil]
      exact outbox_of_rest rfl rfl rfl
    | cons f below =>
      have acts : s.processingActs chain = f.acts chain s.world := by simp only [processingActs, here]
      have pushed : ((s.walkOf (f :: below)).step chain (s.env queues)).sQueue.queue.map Queued.msgW =
          s.sQueue.queue.map Queued.msgW ++ pushes (f.acts chain s.world) := Process.walk_pushes _ rfl unlimited
      have same : t.sent = s.sent ∧ t.sending = s.sending ∧
          t.sQueue = ((s.walkOf (f :: below)).step chain (s.env queues)).sQueue := by
        simp only [runProcessing] at h
        split at h <;> cases h
        · exact processingCaught_rest _ _ _
        · exact ⟨rfl, rfl, rfl⟩
        · exact ⟨rfl, rfl, rfl⟩
      simp only [outbox, cargo, same.1, same.2.1, same.2.2, acts, List.map_append, pushed]
      exact (List.append_assoc _ _ _).symm
  | event ix =>
    have silent : pushes (s.processingActs chain) = [] := by
      simp only [processingActs, here]
      split
      · rfl
      · exact Process.pushes_generated _ _ _
    rw [silent, List.append_nil]
    simp only [runProcessing] at h
    split at h
    · cases h; exact outbox_of_rest rfl rfl rfl
    · split at h <;> cases h
      · exact outbox_of_rest rfl rfl rfl
      · exact (caught _ _ _).trans (outbox_of_rest rfl rfl rfl)
  | startFiltra ix =>
    simp only [processingActs, here, pushes, List.append_nil]
    simp only [runProcessing] at h
    split at h
    · cases h; exact outbox_of_rest rfl rfl rfl
    · split at h <;> cases h <;> exact outbox_of_rest rfl rfl rfl
  | popEvent | popMessage =>
    simp only [processingActs, here, pushes, List.append_nil]
    simp only [runProcessing] at h
    split at h <;> cases h <;> exact outbox_of_rest rfl rfl rfl
  | begin | started | loop | events | messages | wait | finish =>
    simp only [processingActs, here, pushes, List.append_nil]
    cases h
    exact outbox_of_rest rfl rfl rfl
  | blocked | done => cases h

/-- A step adds to what is owed to the connector what it pushes. -/
theorem outbox_step {a : Action} {s t : Pipeline ω} (unlimited : s.sQueue.maxSize = 0) (h : step chain a s = some t) :
    t.outbox = s.outbox ++ pushes (acts chain a s) := by
  by_cases worker : ∃ queues, a = .processing queues
  · obtain ⟨queues, rfl⟩ := worker
    obtain ⟨pc, here, next⟩ := Option.bind_eq_some_iff.mp h
    exact runProcessing_outbox unlimited here next
  · have silent : acts chain a s = [] := by
      cases a with
      | processing queues => exact absurd ⟨queues, rfl⟩ worker
      | _ => rfl
    obtain ⟨env, moves, walks⟩ := step_moves h
    cases env with
    | none =>
      rw [silent, pushes, List.append_nil]
      exact moves.outbox
    | some e =>
      obtain ⟨queues, same, -⟩ := walks e rfl
      exact absurd ⟨queues, same⟩ worker

/-- What is owed to the connector and what it has got are what was pushed. -/
theorem outbox_run {guard : Action → Pipeline ω → Prop} {world : ω} {t : Pipeline ω} {trace : List Act}
    (run : Acted chain guard (prepared world) trace t) : t.outbox = pushes trace := by
  have front : ∀ a s u, guard a s → s.sQueue.maxSize = 0 → step chain a s = some u →
      u.sQueue.maxSize = 0 ∧
        ∀ rest, t.outbox = u.outbox ++ pushes rest → t.outbox = s.outbox ++ pushes (acts chain a s ++ rest) := by
    intro a s u _ unlimited h
    obtain ⟨env, moves, -⟩ := step_moves h
    refine ⟨moves.limit.trans unlimited, fun rest owed => ?_⟩
    rw [owed, outbox_step unlimited h, pushes_append, List.append_assoc]
  have owed : t.outbox = (prepared world).outbox ++ pushes (trace ++ []) := by
    refine Lib.Trace.settle run ?_ front fun _ => (List.append_nil _).symm
    rfl
  rw [List.append_nil] at owed
  exact owed

/-- **Delivery.** In every run, whatever is received, commanded, thrown, stopped and started again, what was
handed to `connector_out_->send`, the message in the hand of the sending thread and what waits in
`s_queue_` are together what the calls of `process` have pushed, each once and in that order. -/
theorem delivered {world : ω} {t : Pipeline ω} {trace : List Act}
    (run : Acted chain (fun _ _ => True) (prepared world) trace t) :
    (t.sent ++ t.cargo.sendingHand ++ t.sQueue.queue).map Queued.msgW = pushes trace :=
  outbox_run run

/-- Two messages sent, and none on its way. -/
theorem delivered_restarted :
    restarted.sent.map Queued.msgW =
        pushes (Lib.outputs (step [.plain, .plain]) (acts [.plain, .plain]) restarting (prepared ())) ∧
      restarted.sent.length = 2 := by
  have run : Acted [.plain, .plain] (fun _ _ => True) (prepared ()) _ restarted :=
    Lib.exec_trace restarting (fun _ _ _ => trivial) restarted_exec
  have all := delivered run
  have rest : restarted.cargo.sendingHand = [] ∧ restarted.sQueue.queue = [] := ⟨rfl, rfl⟩
  rw [rest.1, rest.2, List.append_nil, List.append_nil] at all
  exact ⟨all, by decide +kernel⟩

end Pipeline

end M2eBridge
