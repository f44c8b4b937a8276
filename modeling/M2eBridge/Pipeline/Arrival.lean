import M2eBridge.Lib.Progress
import M2eBridge.Pipeline.Stream
import Mathlib.Data.List.Infix

/-!
# That what waits is received

The stream of a subscriber is what was received and what waits behind it (`InternalPipeline.stream`). While
the receiving thread stays in its loop, what waits at a time is received in the end, if the thread is not
put off for ever, whatever the other threads and the other users of the queue do (`Fetching.arrives`).
-/

namespace M2eBridge

namespace InternalQueue

variable {α : Type}

/-- Where something waits, a pop takes it. -/
theorem popFrom_of_waiting {iq : InternalQueue α} {rq : RQueue} (waits : iq.waitingFor rq ≠ []) :
    ∃ value iq', iq.popFrom rq = some (.ok (value, iq')) := by
  cases there : iq.buffer? rq with
  | none => simp [waitingFor, there] at waits
  | some b =>
    obtain ⟨id, buffer⟩ := b
    have some' : buffer.queue ≠ [] := by simpa [waitingFor, there] using waits
    obtain ⟨value, rest, queue⟩ := List.exists_cons_of_ne_nil some'
    exact ⟨value, iq.setBuffer id { buffer with queue := rest }, by simp only [popFrom, there, TSQueue.pop, queue]⟩

end InternalQueue

/-- The place is one of the loop of `run_receiving`. -/
def ReceivingPc.fetching : ReceivingPc → Bool
  | .loop | .receive | .push _ | .notify => true
  | _ => false

namespace Pipeline

variable {ω : Type} {chain : List (Filtra ω)}

/-- The receiving thread is in its loop. -/
def ReceiveLoop (s : Pipeline ω) : Prop := s.receiving.thread.any ReceivingPc.fetching = true

instance (s : Pipeline ω) : Decidable s.ReceiveLoop := inferInstanceAs (Decidable (_ = true))

theorem ReceiveLoop.places {s : Pipeline ω} (loop : s.ReceiveLoop) :
    s.receiving.thread = some .loop ∨ s.receiving.thread = some .receive ∨ (∃ m, s.receiving.thread = some (.push m)) ∨
      s.receiving.thread = some .notify := by
  unfold ReceiveLoop at loop
  cases there : s.receiving.thread with
  | none => simp [there] at loop
  | some pc =>
    rw [there, Option.any_some] at loop
    cases pc with
    | loop | receive | notify => simp
    | push m => simp
    | begin | connect | connected | disconnect | finish | done => cases loop

/-- There it neither connects nor disconnects. -/
theorem ReceiveLoop.subscribed {s : Pipeline ω} (loop : s.ReceiveLoop) :
    s.receiving.thread ≠ some .connect ∧ s.receiving.thread ≠ some .disconnect := by
  rcases loop.places with there | there | ⟨m, there⟩ | there <;> simp [there]

/-- A step of another thread leaves the thread in its function where it is. -/
theorem other_receiving {a : Action} {s t : Pipeline ω} {pc : ReceivingPc} (other : ∀ call, a ≠ .receiving call)
    (here : s.receiving.thread = some pc) (inside : pc ≠ .done) (h : step chain a s = some t) :
    t.receiving.thread = some pc := by
  by_cases control : ∃ call, a = .control call
  · obtain ⟨call, rfl⟩ := control
    cases todo : s.control with
    | nil => simp only [step, todo] at h; cases h
    | cons i rest =>
      simp only [step, todo] at h
      cases (runControl_step h).threads with
      | startReceiving free => cases free.symm.trans here
      | joinReceiving ended =>
        cases ended.symm.trans here
        exact absurd rfl inside
      | startSending _ _ receiving | startProcessing _ _ receiving | joinSending _ _ receiving
      | joinProcessing _ _ receiving | notify receiving | none _ receiving => exact receiving ▸ here
  · rw [receiving_kept (fun call same => control ⟨call, same⟩) other h]
    exact here

/-- From its loop the thread goes on in it, or it leaves it for `disconnect`. -/
theorem loop_next {s t : Pipeline ω} {call : Except Exn Message} {pc : ReceivingPc} (loop : t.ReceiveLoop)
    (h : s.runReceiving call pc = some t) :
    (pc = .loop → t.receiving.thread = some .receive) ∧ (pc = .notify → t.receiving.thread = some .loop) ∧
      ∀ m, pc = .push m → t.receiving.thread = some .notify ∨ t.receiving.thread = some .loop := by
  refine ⟨?_, ?_, ?_⟩
  · rintro rfl
    cases h
    by_cases active : s.isActive
    · simp [receivingAt, active]
    · simp [ReceiveLoop, receivingAt, active, ReceivingPc.fetching] at loop
  · rintro rfl
    cases h
    rfl
  · rintro m rfl
    simp only [runReceiving] at h
    split at h <;> cases h
    · exact .inl rfl
    · unfold receivingCaught at loop ⊢
      split at loop
      · simp [ReceiveLoop, receivingAt, ReceivingPc.fetching] at loop
      case isFalse other => rw [if_neg other]; exact .inr rfl

end Pipeline

namespace InternalPipeline

variable {ω : Type} {chain : List (Filtra ω)}

/-- But for the receiving thread's, a step is one of another thread of the pipeline, or none of the pipeline at all. -/
theorem other_pipeline {a : Action} {s t : InternalPipeline ω} (other : a ≠ .receiving) (h : step chain a s = some t) :
    t.pipeline = s.pipeline ∨
      ∃ b, (∀ call, b ≠ .receiving call) ∧ s.pipeline.step chain b = some t.pipeline := by
  cases a with
  | receiving => exact absurd rfl other
  | control call =>
    simp only [step, InternalPipeline.runControl] at h
    split at h
    · split at h
      · cases h
      · obtain ⟨pipeline, moved, rfl⟩ := Option.map_eq_some_iff.mp h
        exact .inr ⟨_, by simp, moved⟩
    · obtain ⟨pipeline, moved, rfl⟩ := Option.map_eq_some_iff.mp h
      exact .inr ⟨_, by simp, moved⟩
  | thread a =>
    cases a with
    | control call => cases h
    | receiving call => cases h
    | _ =>
      simp only [step] at h
      obtain ⟨pipeline, moved, rfl⟩ := Option.map_eq_some_iff.mp h
      exact .inr ⟨_, by simp, moved⟩
  | subscribe size => simp only [step] at h; split at h <;> cases h <;> exact .inl rfl
  | unsubscribe rq => simp only [step] at h; split at h <;> cases h; exact .inl rfl
  | push msg => cases h; exact .inl rfl
  | pop rq =>
    simp only [step] at h
    split at h
    · split at h <;> cases h
      exact .inl rfl
    · cases h

/-- In its loop the stream of the receiving thread gets no shorter. -/
theorem stream_grows {a : Action} {s t : InternalPipeline ω} (apart : Apart s) (loop : s.pipeline.ReceiveLoop)
    (h : step chain a s = some t) : s.stream <+: t.stream := by
  cases streams apart h with
  | goesOn stream => exact stream ▸ List.prefix_append _ _
  | misses _ _ _ stream => exact stream ▸ List.prefix_refl _
  | drops _ place => exact (place.elim loop.subscribed.1 loop.subscribed.2).elim

/-- A step of the thread that is not its call of the connector. -/
theorem runReceiving_inside {s t : InternalPipeline ω} {pc : ReceivingPc} (here : s.pipeline.receiving.thread = some pc)
    (plain : pc ≠ .connect ∧ pc ≠ .receive ∧ pc ≠ .disconnect) :
    s.runReceiving chain = some t ↔ ∃ pipeline, s.pipeline.runReceiving (.ok {}) pc = some pipeline ∧ t = { s with pipeline } := by
  have moves : s.runReceiving chain =
      (s.pipeline.step chain (.receiving (.ok {}))).map fun pipeline => { s with pipeline } := by
    unfold InternalPipeline.runReceiving
    split
    case h_1 there => cases here.symm.trans there; exact absurd rfl plain.1
    case h_2 there => cases here.symm.trans there; exact absurd rfl plain.2.1
    case h_3 there => cases here.symm.trans there; exact absurd rfl plain.2.2
    case h_4 => rfl
  have stepped : s.pipeline.step chain (.receiving (.ok {})) = s.pipeline.runReceiving (.ok {}) pc := by
    simp only [Pipeline.step, here, Option.bind_some]
  rw [moves, stepped, Option.map_eq_some_iff]
  simp only [eq_comm]

/-- Something waits behind the first `i` messages received. -/
structure Awaits (i : Nat) (s : InternalPipeline ω) : Prop where
  received : s.pipeline.received.length = i
  waits : i < s.stream.length

theorem Awaits.waiting {i : Nat} {s : InternalPipeline ω} (awaits : Awaits i s) : s.queue.waitingFor s.incoming ≠ [] := by
  intro none'
  have waits := awaits.waits
  rw [stream, none', List.map_nil, List.append_nil, awaits.received] at waits
  exact absurd waits (Nat.lt_irrefl i)

/-- The thread goes on without a call of the connector. -/
theorem Awaits.inside {i : Nat} {s t : InternalPipeline ω} {pc : ReceivingPc} (awaits : Awaits i s)
    (here : s.pipeline.receiving.thread = some pc) (plain : pc ≠ .connect ∧ pc ≠ .receive ∧ pc ≠ .disconnect)
    (h : s.runReceiving chain = some t) : Awaits i t := by
  obtain ⟨pipeline, moved, rfl⟩ := (runReceiving_inside here plain).mp h
  have stepped : s.pipeline.step chain (.receiving (.ok {})) = some pipeline := by
    simp only [Pipeline.step, here, Option.bind_some, moved]
  have received : pipeline.received = s.pipeline.received :=
    (Pipeline.received_receiving stepped).2 fun there => absurd (Option.some.inj (here.symm.trans there)) plain.2.1
  exact ⟨received ▸ awaits.received, by simpa only [stream, received] using awaits.waits⟩

variable (chain) in
/-- It takes what waits. -/
theorem Awaits.takes {i : Nat} {s : InternalPipeline ω} (awaits : Awaits i s)
    (here : s.pipeline.receiving.thread = some .receive) :
    ∃ t, s.runReceiving chain = some t ∧ i < t.pipeline.received.length := by
  obtain ⟨msg, queue, popped⟩ := InternalQueue.popFrom_of_waiting awaits.waiting
  have stepped : s.pipeline.step chain (.receiving (.ok (InternalConnector.doReceive msg))) = some
      ({ s.pipeline with received := s.pipeline.received ++ [InternalConnector.doReceive msg] }.receivingAt
        (.push ⟨s.pipeline.received.length, InternalConnector.doReceive msg⟩)) := by
    simp only [Pipeline.step, here, Option.bind_some, Pipeline.runReceiving]
  refine ⟨_, by rw [InternalPipeline.runReceiving, here, popped]; exact Option.map_eq_some_iff.mpr ⟨_, stepped, rfl⟩, ?_⟩
  simp only [Pipeline.receivingAt, List.length_append, awaits.received]
  exact Nat.lt_succ_self i

/-! ## Runs without end -/

section System

variable {σ α β : Type} {step : α → σ → Option σ} {down : σ → InternalPipeline ω} {pushes : α → σ → List β}
  {msg : β → Message} {receives : α → Prop}

variable (chain step down receives) in
/-- The actions of a system that are the steps of the receiving thread. -/
structure Schedules : Prop where
  takes : ∀ a s t, receives a → step a s = some t → (down s).runReceiving chain = some (down t)
  lets : ∀ s t, (down s).runReceiving chain = some t → ∃ a u, receives a ∧ step a s = some u

variable (down receives) in
/-- The receiving thread stays in its loop and is not put off for ever. -/
structure Fetching (run : Lib.Execution step) : Prop where
  apart : (down (run.state 0)).Apart
  loop : ∀ n, (down (run.state n)).pipeline.ReceiveLoop
  fair : run.Fair receives

/-- A step that is not the thread's leaves the thread and what it has received. -/
theorem Contains.other (contains : Contains chain step down pushes msg receives) {run : Lib.Execution step} {n : Nat}
    {pc : ReceivingPc} (other : ¬ receives (run.act n)) (here : (down (run.state n)).pipeline.receiving.thread = some pc)
    (inside : pc ≠ .done) :
    (down (run.state (n + 1))).pipeline.receiving.thread = some pc ∧
      (down (run.state (n + 1))).pipeline.received = (down (run.state n)).pipeline.received := by
  rcases contains _ _ _ (run.next n) with ⟨same, -⟩ | ⟨b, moved, -, receiving⟩
  · rw [same]
    exact ⟨here, rfl⟩
  · rcases other_pipeline (fun same => other (receiving same)) moved with same | ⟨c, notReceiving, stepped⟩
    · rw [same]
      exact ⟨here, rfl⟩
    · exact ⟨Pipeline.other_receiving notReceiving here inside stepped, Pipeline.received_kept notReceiving stepped⟩

namespace Fetching

variable {run : Lib.Execution step} (contains : Contains chain step down pushes msg receives)
  (schedules : Schedules chain step down receives) (fetching : Fetching down receives run)

include contains fetching in
theorem apart_all (n : Nat) : (down (run.state n)).Apart := by
  induction n with
  | zero => exact fetching.apart
  | succ n ih => exact contains.apart ih (run.next n)

include contains fetching in
theorem grows (n : Nat) : (down (run.state n)).stream <+: (down (run.state (n + 1))).stream := by
  rcases contains _ _ _ (run.next n) with ⟨same, -⟩ | ⟨b, moved, -⟩
  · rw [same]
  · exact stream_grows (fetching.apart_all contains n) (fetching.loop n) moved

include contains schedules fetching in
/-- From a place in its loop the thread comes to take its next step. -/
theorem turn (i : Nat) {pc : ReceivingPc} (inside : pc ≠ .done) (goal : InternalPipeline ω → Prop)
    (enabled : ∀ s : InternalPipeline ω, s.pipeline.receiving.thread = some pc → Awaits i s →
      ∃ t, s.runReceiving chain = some t)
    (does : ∀ s t : InternalPipeline ω, s.pipeline.receiving.thread = some pc → Awaits i s → t.pipeline.ReceiveLoop →
      s.runReceiving chain = some t → goal t) :
    run.LeadsTo (fun s => (down s).pipeline.receiving.thread = some pc ∧ Awaits i (down s)) fun s => goal (down s) := by
  have taken {n : Nat} (here : (down (run.state n)).pipeline.receiving.thread = some pc) (awaits : Awaits i (down (run.state n)))
      (help : receives (run.act n)) : goal (down (run.state (n + 1))) :=
    does _ _ here awaits (fetching.loop (n + 1)) (schedules.takes _ _ _ help (run.next n))
  refine fetching.fair.leadsTo ?_ ?_ ?_
  · rintro n ⟨here, awaits⟩
    by_cases help : receives (run.act n)
    · exact .inr (taken here awaits help)
    · obtain ⟨stays, received⟩ := contains.other help here inside
      exact .inl ⟨stays, received ▸ awaits.received, awaits.waits.trans_le (fetching.grows contains n).length_le⟩
  · rintro n help ⟨here, awaits⟩
    exact taken here awaits help
  · rintro n ⟨here, awaits⟩
    obtain ⟨t, possible⟩ := enabled _ here awaits
    exact schedules.lets _ _ possible

include contains schedules fetching in
/-- Without a call of the connector, it comes to the next of them. -/
theorem turn_inside (i : Nat) {pc : ReceivingPc} (next : Option ReceivingPc → Prop)
    (plain : pc ≠ .connect ∧ pc ≠ .receive ∧ pc ≠ .disconnect) (inside : pc ≠ .done)
    (enabled : ∀ s : Pipeline ω, ∃ t, s.runReceiving (.ok {}) pc = some t)
    (goes : ∀ s t : Pipeline ω, t.ReceiveLoop → s.runReceiving (.ok {}) pc = some t → next t.receiving.thread) :
    run.LeadsTo (fun s => (down s).pipeline.receiving.thread = some pc ∧ Awaits i (down s)) fun s =>
      next (down s).pipeline.receiving.thread ∧ Awaits i (down s) := by
  refine fetching.turn contains schedules i inside (fun t => next t.pipeline.receiving.thread ∧ Awaits i t) ?_ ?_
  · intro s here _
    obtain ⟨pipeline, possible⟩ := enabled s.pipeline
    exact ⟨_, (runReceiving_inside here plain).mpr ⟨pipeline, possible, rfl⟩⟩
  · intro s t here awaits loop h
    have after := awaits.inside here plain h
    obtain ⟨pipeline, moved, rfl⟩ := (runReceiving_inside here plain).mp h
    exact ⟨goes _ _ loop moved, after⟩

include contains schedules fetching in
/-- The next message that waits is received. -/
theorem receives_next (i : Nat) :
    run.LeadsTo (fun s => Awaits i (down s)) fun s => i < (down s).pipeline.received.length := by
  have receive : run.LeadsTo (fun s => (down s).pipeline.receiving.thread = some .receive ∧ Awaits i (down s)) fun s =>
      i < (down s).pipeline.received.length := by
    refine fetching.turn contains schedules i (by simp) (fun t => i < t.pipeline.received.length) ?_ ?_
    · intro s here awaits
      obtain ⟨t, possible, -⟩ := awaits.takes chain here
      exact ⟨t, possible⟩
    · intro s t here awaits _ h
      obtain ⟨u, possible, more⟩ := awaits.takes chain here
      cases possible.symm.trans h
      exact more
  have loop : run.LeadsTo (fun s => (down s).pipeline.receiving.thread = some .loop ∧ Awaits i (down s)) fun s =>
      i < (down s).pipeline.received.length :=
    (fetching.turn_inside contains schedules i (· = some .receive) (by simp) (by simp) (fun s => ⟨_, rfl⟩)
      fun s t stays h => (Pipeline.loop_next stays h).1 rfl).trans receive
  have notify : run.LeadsTo (fun s => (down s).pipeline.receiving.thread = some .notify ∧ Awaits i (down s)) fun s =>
      i < (down s).pipeline.received.length :=
    (fetching.turn_inside contains schedules i (· = some .loop) (by simp) (by simp) (fun s => ⟨_, rfl⟩)
      fun s t stays h => (Pipeline.loop_next stays h).2.1 rfl).trans loop
  have push (m : Received) : run.LeadsTo (fun s => (down s).pipeline.receiving.thread = some (.push m) ∧ Awaits i (down s))
      fun s => i < (down s).pipeline.received.length := by
    refine (fetching.turn_inside contains schedules i (fun pc => pc = some .notify ∨ pc = some .loop) (by simp) (by simp)
      (fun s => ?_) fun s t stays h => (Pipeline.loop_next stays h).2.2 m rfl).trans ?_
    · simp only [Pipeline.runReceiving]
      split <;> exact ⟨_, rfl⟩
    · rintro n ⟨there | there, awaits⟩
      · exact notify n ⟨there, awaits⟩
      · exact loop n ⟨there, awaits⟩
  intro n awaits
  rcases (fetching.loop n).places with here | here | ⟨m, here⟩ | here
  · exact loop n ⟨here, awaits⟩
  · exact receive n ⟨here, awaits⟩
  · exact push m n ⟨here, awaits⟩
  · exact notify n ⟨here, awaits⟩

include contains schedules fetching in
/-- What waits at a time is received later. -/
theorem arrives (n : Nat) : ∃ m, n ≤ m ∧ (down (run.state n)).stream <+: (down (run.state m)).pipeline.received := by
  have grow {n m : Nat} (before : n ≤ m) : (down (run.state n)).stream <+: (down (run.state m)).stream :=
    Nat.rel_of_forall_rel_succ_of_le (· <+: ·) (f := fun n => (down (run.state n)).stream) (fetching.grows contains) before
  obtain ⟨m, after, received⟩ := Lib.Execution.catches_up (fun s => (down s).pipeline.received.length)
    (fun s => (down s).stream.length) (fun n => (fetching.grows contains n).length_le)
    (fun i n here => fetching.receives_next contains schedules i n ⟨here.1, here.2⟩) n
  exact ⟨m, after, List.prefix_of_prefix_length_le (grow after) (List.prefix_append _ _) received⟩

omit contains schedules in
include fetching in
theorem flowing (room : ∀ n, pushes (run.act n) (run.state n) ≠ [] → ¬ (down (run.state n)).queue.SomeFull) (n : Nat) :
    Flowing down pushes receives (run.act n) (run.state n) :=
  ⟨fun _ => (fetching.loop n).subscribed, room n⟩

include contains schedules fetching in
/-- While everything flows, all that is pushed is received. -/
theorem arrives_pushed (connected : (down (run.state 0)).connected = true) {n : Nat} {fed : List β}
    (feeds : Lib.Trace step pushes (Flowing down pushes receives) (run.state 0) fed (run.state n)) :
    ∃ m, n ≤ m ∧
      (down (run.state 0)).stream ++ (fed.map msg).map InternalConnector.doReceive <+: (down (run.state m)).pipeline.received := by
  obtain ⟨m, after, arrived⟩ := fetching.arrives contains schedules n
  exact ⟨m, after, contains.lossless fetching.apart connected feeds ▸ arrived⟩

end Fetching

end System

end InternalPipeline

end M2eBridge
