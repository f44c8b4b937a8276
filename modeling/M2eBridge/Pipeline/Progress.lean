import M2eBridge.Pipeline.Errors
import M2eBridge.Pipeline.Orderly
import Mathlib.Data.List.Infix

/-!
# That the messages get through

What the other modules show of a pipeline never happens; here is what comes about. A pipeline
that stays in `RUNNING`, whose threads are not put off for ever and whose processing thread does
not stay blocked, takes every message that it receives, comes to the end of the call of
`process` for it if the chain lets every call end, and hands what the call pushed to the
connector (`served`).
-/

namespace M2eBridge

open Process (Act Env Frame Walk Queued)

namespace Pipeline

variable {ω : Type} {chain : List (Filtra ω)}

/-! ## A pipeline that goes on -/

def Action.isProcessing : Action → Prop
  | .processing _ => True
  | _ => False

def Action.isSending : Action → Prop
  | .sending _ => True
  | _ => False

/-- The sending thread is in its loop. -/
def SendLoop (s : Pipeline ω) : Prop :=
  s.sending.thread = some .loop ∨ s.sending.thread = some .pop ∨ (∃ x, s.sending.thread = some (.send x)) ∨
    s.sending.thread = some .clear

/-- The pipeline keeps on running, nobody but the receiving thread gives it something to do, and no thread is kept
from going on for ever. -/
structure Serving (run : Lib.Execution (step chain)) : Prop where
  running : ∀ n, (run.state n).state = .running
  handling : (run.state 0).Handling
  sendLoop : (run.state 0).SendLoop
  blocking : ∀ n, (run.state n).sQueue.blocking = true
  untimed : ∀ n, run.act n ≠ .timerPush
  sends : ∀ n e, run.act n = .sending (.error e) → e.kind ≠ .underflowError
  /-- The processing thread takes its steps, and so does the sending thread. -/
  processes : run.Fair Action.isProcessing
  delivers : run.Fair Action.isSending
  /-- The processing thread does not stay in `pipeline_event_.wait`. -/
  awake : ∀ n, ∃ m, n ≤ m ∧ (run.state m).processing.thread ≠ some .blocked
  /-- What is received is pushed to `r_queue_`. -/
  pushes : ∀ n, ∃ m, n ≤ m ∧ (run.state m).cargo.receivingHand = []

/-- A step of the thread from its loop leaves it there, if the pipeline runs on. -/
theorem Handling.step {a : Action} {s t : Pipeline ω} (handling : s.Handling) (active : s.state = .running)
    (running : t.state = .running) (h : step chain a s = some t) : t.Handling := by
  obtain ⟨pc, here, handles⟩ := handling
  by_cases worker : ∃ queues, a = .processing queues
  · obtain ⟨queues, rfl⟩ := worker
    simp only [Pipeline.step, here, Option.bind_some] at h
    have caught (u : Pipeline ω) (e : Exn) {next : ProcessingPc} (handles : next.handling = true)
        (goesOn : (u.processingCaught e next).state = .running) : (u.processingCaught e next).Handling := by
      rcases processingCaught_cases u e next with there | ⟨-, failed⟩
      · exact ⟨next, there, handles⟩
      · cases failed.symm.trans goesOn
    cases pc with
    | begin | startFiltra | started | finish | done => cases handles
    | loop | events | messages =>
      simp only [runProcessing, isActive, active, decide_true, if_true, Option.some.injEq] at h
      subst h
      exact ⟨_, rfl, rfl⟩
    | popEvent | popMessage => simp only [runProcessing] at h; split at h <;> cases h <;> exact ⟨_, rfl, rfl⟩
    | event ix =>
      simp only [runProcessing] at h
      split at h
      · cases h; exact ⟨_, rfl, rfl⟩
      · split at h <;> cases h
        · refine ⟨_, rfl, ?_⟩
          split <;> rfl
        · exact caught _ _ rfl running
    | walk frames =>
      simp only [runProcessing] at h
      split at h <;> cases h
      · exact caught _ _ rfl running
      · exact ⟨_, rfl, rfl⟩
      · exact ⟨_, rfl, rfl⟩
    | wait => cases h; exact ⟨_, rfl, rfl⟩
    | blocked => cases h
  · rcases other_thread (fun queues same => worker ⟨queues, same⟩) here handles h with same | ⟨-, woken⟩
    · exact ⟨pc, same, handles⟩
    · exact ⟨_, woken, rfl⟩

/-- In its loop the processing thread can take a step, unless it waits to be woken. -/
theorem processing_enabled {s : Pipeline ω} {pc : ProcessingPc} (orderly : s.Orderly chain)
    (here : s.processing.thread = some pc) (handles : pc.handling = true) (awake : pc ≠ .blocked) :
    ∃ t, step chain (.processing fun _ => {}) s = some t := by
  simp only [step, here, Option.bind_some]
  have pops {α : Type} (q : TSQueue α) (returns : q.blocking = false) : q.pop ≠ none := by
    unfold TSQueue.pop
    split <;> simp [returns]
  cases pc with
  | begin | startFiltra | started | finish | done => cases handles
  | blocked => exact absurd rfl awake
  | loop | events | messages | wait => exact ⟨_, rfl⟩
  | popEvent =>
    simp only [runProcessing]
    split
    · exact ⟨_, rfl⟩
    · exact ⟨_, rfl⟩
    case h_3 none => exact absurd none (pops _ orderly.eReturns)
  | popMessage =>
    simp only [runProcessing]
    split
    · exact ⟨_, rfl⟩
    · exact ⟨_, rfl⟩
    case h_3 none => exact absurd none (pops _ orderly.rReturns)
  | event ix =>
    simp only [runProcessing]
    split
    · exact ⟨_, rfl⟩
    · split <;> exact ⟨_, rfl⟩
  | walk frames =>
    simp only [runProcessing]
    split <;> exact ⟨_, rfl⟩

namespace Serving

variable {run : Lib.Execution (step chain)}

theorem orderly (returns : Process.Returns chain) (start : (run.state 0).Orderly chain) (n : Nat) :
    (run.state n).Orderly chain := by
  induction n with
  | zero => exact start
  | succ n ih => exact ih.step returns (run.next n)

theorem handles (serving : Serving run) (n : Nat) : (run.state n).Handling := by
  induction n with
  | zero => exact serving.handling
  | succ n ih => exact ih.step (serving.running n) (serving.running (n + 1)) (run.next n)

/-- From a place in its loop the processing thread comes to take its next step. -/
theorem turn (serving : Serving run) (orderly : ∀ n, (run.state n).Orderly chain) {pc : ProcessingPc}
    (handling : pc.handling = true) (awake : pc ≠ .blocked) {p goal : Pipeline ω → Prop}
    (keeps : ∀ n, (∀ queues, run.act n ≠ .processing queues) → p (run.state n) → p (run.state (n + 1)))
    (does : ∀ queues (s t : Pipeline ω), s.isActive = true → t.state = .running → s.processing.thread = some pc → p s →
      s.runProcessing chain queues pc = some t → goal t) :
    run.LeadsTo (fun s => s.processing.thread = some pc ∧ p s) goal := by
  have taken {n : Nat} {queues : String → InternalQueue Message} (here : (run.state n).processing.thread = some pc)
      (true_ : p (run.state n)) (act : run.act n = .processing queues) : goal (run.state (n + 1)) := by
    have active : (run.state n).isActive = true := by simp [isActive, serving.running n]
    have next := run.next n
    rw [act] at next
    simp only [step, here, Option.bind_some] at next
    exact does queues _ _ active (serving.running (n + 1)) here true_ next
  refine serving.processes.leadsTo ?_ ?_ ?_
  · rintro n ⟨here, true_⟩
    by_cases worker : ∃ queues, run.act n = .processing queues
    · obtain ⟨queues, act⟩ := worker
      exact .inr (taken here true_ act)
    · have other : ∀ queues, run.act n ≠ .processing queues := fun queues same => worker ⟨queues, same⟩
      rcases other_thread other here handling (run.next n) with same | ⟨blocked, -⟩
      · exact .inl ⟨same, keeps n other true_⟩
      · exact absurd blocked awake
  · rintro n help ⟨here, true_⟩
    cases act : run.act n with
    | processing queues => exact taken here true_ act
    | execute | control | receiving | sending | timerPush | timerNotify | wakeup =>
      rw [act] at help
      cases help
  · rintro n ⟨here, -⟩
    obtain ⟨t, possible⟩ := processing_enabled (orderly n) here handling awake
    exact ⟨.processing fun _ => {}, t, trivial, possible⟩

/-- The same where nothing else needs to be known. -/
theorem goesOn (serving : Serving run) (orderly : ∀ n, (run.state n).Orderly chain) {pc : ProcessingPc}
    (handling : pc.handling = true) (awake : pc ≠ .blocked) {goal : Pipeline ω → Prop}
    (does : ∀ queues (s t : Pipeline ω), s.isActive = true → t.state = .running →
      s.runProcessing chain queues pc = some t → goal t) :
    run.LeadsTo (fun s => s.processing.thread = some pc) goal := fun n here =>
  serving.turn orderly (p := fun _ => True) handling awake (fun _ _ _ => trivial)
    (fun queues s t active running _ _ => does queues s t active running) n ⟨here, trivial⟩

/-- The events that wait get no more. -/
theorem keeps_eQueue (serving : Serving run) (e n : Nat) (other : ∀ queues, run.act n ≠ .processing queues)
    (short : (run.state n).eQueue.queue.length ≤ e) : (run.state (n + 1)).eQueue.queue.length ≤ e := by
  rwa [other_eQueue other (serving.untimed n) (run.next n)]

/-- `process()` asks one filtra after the other. -/
theorem event_leaves (serving : Serving run) (orderly : ∀ n, (run.state n).Orderly chain) (e k : Nat) :
    ∀ ix, chain.length - ix ≤ k →
      run.LeadsTo (fun s => s.processing.thread = some (.event ix) ∧ s.eQueue.queue.length ≤ e) fun s =>
        s.processing.thread = some .messages ∨ s.processing.thread = some .events ∧ s.eQueue.queue.length ≤ e := by
  have next (ix : Nat) : run.LeadsTo (fun s => s.processing.thread = some (.event ix) ∧ s.eQueue.queue.length ≤ e) fun s =>
      (s.processing.thread = some .messages ∨ s.processing.thread = some .events ∧ s.eQueue.queue.length ≤ e) ∨
        ix < chain.length ∧ s.processing.thread = some (.event (ix + 1)) ∧ s.eQueue.queue.length ≤ e := by
    refine serving.turn orderly rfl (by simp) (serving.keeps_eQueue e) fun queues s t _ running here short h => ?_
    simp only [runProcessing] at h
    split at h
    · cases h
      exact .inl (.inr ⟨rfl, short⟩)
    case h_2 filtra found =>
      have inside := (List.getElem?_eq_some_iff.mp found).1
      split at h <;> cases h
      case h_1 msg world _ =>
        cases valid : msg.isValid
        · exact .inr ⟨inside, rfl, short⟩
        · exact .inl (.inr ⟨rfl, short⟩)
      case h_2 ex world _ =>
        rcases processingCaught_cases { s with world } ex .messages with goes | ⟨-, failed⟩
        · exact .inl (.inl goes)
        · cases failed.symm.trans running
  induction k with
  | zero =>
    intro ix far
    refine (next ix).trans (.of_imp fun n goes => ?_)
    rcases goes with left | ⟨inside, -⟩
    · exact left
    · omega
  | succ k ih =>
    intro ix far
    refine (next ix).trans (.or (.of_imp fun _ => id) ?_)
    rintro n ⟨-, on⟩
    exact ih (ix + 1) (by omega) n on

/-- `handle_events` takes an event, or leaves its loop. -/
theorem popEvent_leaves (serving : Serving run) (orderly : ∀ n, (run.state n).Orderly chain) (e : Nat) :
    run.LeadsTo (fun s => s.processing.thread = some .popEvent ∧ s.eQueue.queue.length ≤ e) fun s =>
      s.processing.thread = some .messages ∨
        s.processing.thread = some .events ∧ s.eQueue.queue.length + 1 ≤ e := by
  have pops : run.LeadsTo (fun s => s.processing.thread = some .popEvent ∧ s.eQueue.queue.length ≤ e) fun s =>
      s.processing.thread = some .messages ∨
        s.processing.thread = some (.event 0) ∧ s.eQueue.queue.length + 1 ≤ e := by
    refine serving.turn orderly rfl (by simp) (serving.keeps_eQueue e) fun queues s t _ _ _ short h => ?_
    simp only [runProcessing] at h
    split at h
    case h_1 eQueue taken =>
      rw [TSQueue.pop_ok taken, List.length_cons] at short
      cases h
      exact .inr ⟨rfl, short⟩
    case h_2 =>
      cases h
      exact .inl rfl
    case h_3 => cases h
  refine pops.trans (.or (.of_imp fun _ => .inl) ?_)
  rintro n ⟨here, short⟩
  obtain ⟨m, after, left | ⟨there, short⟩⟩ := serving.event_leaves orderly (e - 1) _ 0 le_rfl n ⟨here, by omega⟩
  · exact ⟨m, after, .inl left⟩
  · exact ⟨m, after, .inr ⟨there, by omega⟩⟩

/-- It comes to its end, as nothing is pushed. -/
theorem events_leaves (serving : Serving run) (orderly : ∀ n, (run.state n).Orderly chain) (e : Nat) :
    run.LeadsTo (fun s => s.processing.thread = some .events ∧ s.eQueue.queue.length ≤ e) fun s =>
      s.processing.thread = some .messages := by
  have tests (e : Nat) : run.LeadsTo (fun s => s.processing.thread = some .events ∧ s.eQueue.queue.length ≤ e) fun s =>
      s.processing.thread = some .popEvent ∧ s.eQueue.queue.length ≤ e := by
    refine serving.turn orderly rfl (by simp) (serving.keeps_eQueue e) fun queues s t active _ _ short h => ?_
    simp only [runProcessing, active, if_true, Option.some.injEq] at h
    exact h ▸ ⟨rfl, short⟩
  induction e with
  | zero =>
    refine (tests 0).trans ((serving.popEvent_leaves orderly 0).trans (.or (.of_imp fun _ => id) ?_))
    rintro n ⟨-, short⟩
    cases short
  | succ e ih =>
    refine (tests _).trans ((serving.popEvent_leaves orderly _).trans (.or (.of_imp fun _ => id) ?_))
    rintro n ⟨here, short⟩
    exact ih n ⟨here, Nat.le_of_succ_le_succ short⟩

/-- Behind `handle_events` the thread comes to the `pop` of `handle_messages`. -/
theorem messages_pops (serving : Serving run) (orderly : ∀ n, (run.state n).Orderly chain) :
    run.LeadsTo (fun s => s.processing.thread = some .messages) fun s => s.processing.thread = some .popMessage := by
  refine serving.goesOn orderly rfl (by simp) fun queues s t active _ h => ?_
  rw [runProcessing, active] at h
  cases h
  rfl

/-- From the head of its loop the thread handles the events and comes to the messages. -/
theorem events_pops (serving : Serving run) (orderly : ∀ n, (run.state n).Orderly chain) :
    run.LeadsTo (fun s => s.processing.thread = some .events) fun s => s.processing.thread = some .popMessage :=
  fun n here => (serving.events_leaves orderly (run.state n).eQueue.queue.length).trans (serving.messages_pops orderly) n
    ⟨here, le_rfl⟩

theorem loop_pops (serving : Serving run) (orderly : ∀ n, (run.state n).Orderly chain) :
    run.LeadsTo (fun s => s.processing.thread = some .loop) fun s => s.processing.thread = some .popMessage := by
  refine .trans ?_ (serving.events_pops orderly)
  refine serving.goesOn orderly rfl (by simp) fun queues s t active _ h => ?_
  rw [runProcessing, active] at h
  cases h
  rfl

/-- The thread that waits is woken. -/
theorem blocked_pops (serving : Serving run) (orderly : ∀ n, (run.state n).Orderly chain) :
    run.LeadsTo (fun s => s.processing.thread = some .blocked) fun s => s.processing.thread = some .popMessage := by
  refine .trans (.of_leaves (fun n here => ?_) serving.awake) (serving.loop_pops orderly)
  have next := run.next n
  by_cases worker : ∃ queues, run.act n = .processing queues
  · obtain ⟨queues, act⟩ := worker
    rw [act] at next
    simp only [step, here, Option.bind_some, runProcessing] at next
    cases next
  · exact (other_thread (fun queues same => worker ⟨queues, same⟩) here rfl next).imp_right And.right

theorem wait_pops (serving : Serving run) (orderly : ∀ n, (run.state n).Orderly chain) :
    run.LeadsTo (fun s => s.processing.thread = some .wait) fun s => s.processing.thread = some .popMessage := by
  refine .trans ?_ (serving.blocked_pops orderly)
  exact serving.goesOn orderly rfl (by simp) fun queues s t _ _ h => by cases h; rfl

/-- The walk comes to its end, each step of it being one that the thread takes. -/
theorem walk_pops (serving : Serving run) (orderly : ∀ n, (run.state n).Orderly chain) {w : Walk ω} (ends : w.Ends chain) :
    run.LeadsTo (InWalk w) fun s => s.processing.thread = some .popMessage := by
  refine .acc (p := InWalk) (fun w n inside => ?_) ends
  have stepped : run.LeadsTo (fun s => s.processing.thread = some (.walk w.frames) ∧ InWalk w s) fun s =>
      (s.processing.thread = some .messages ∨ s.processing.thread = some .wait) ∨
        ∃ v, Lib.Onward (Walk.step chain) (fun w => w.frames = []) v w ∧ InWalk v s := by
    refine serving.turn orderly rfl (by simp) (fun n other walk => ?_) fun queues s t _ running _ walk h => ?_
    · exact walk.other (orderly (n + 1)).sQueue other (run.next n)
    · rcases walk.step h with ⟨open_, inside⟩ | left | left | ⟨-, failed⟩
      · exact .inr ⟨_, ⟨open_, _, rfl⟩, inside⟩
      · exact .inl (.inl left)
      · exact .inl (.inr left)
      · cases failed.symm.trans running
  obtain ⟨m, after, (left | left) | goes⟩ := stepped n ⟨inside.thread, inside⟩
  · obtain ⟨k, behind, pops⟩ := serving.messages_pops orderly m left
    exact ⟨k, after.trans behind, .inl pops⟩
  · obtain ⟨k, behind, pops⟩ := serving.wait_pops orderly m left
    exact ⟨k, after.trans behind, .inl pops⟩
  · exact ⟨m, after, .inr goes⟩

/-- Wherever it is, the thread comes to take a message. -/
theorem pops (serving : Serving run) (orderly : ∀ n, (run.state n).Orderly chain) (n : Nat) :
    ∃ m, n ≤ m ∧ (run.state m).processing.thread = some .popMessage := by
  obtain ⟨pc, here, handling⟩ := serving.handles n
  cases pc with
  | begin | startFiltra | started | finish | done => cases handling
  | loop => exact serving.loop_pops orderly n here
  | events => exact serving.events_pops orderly n here
  | popEvent =>
    obtain ⟨m, after, left | ⟨there, -⟩⟩ := serving.popEvent_leaves orderly _ n ⟨here, le_rfl⟩
    · obtain ⟨k, behind, pops⟩ := serving.messages_pops orderly m left
      exact ⟨k, after.trans behind, pops⟩
    · obtain ⟨k, behind, pops⟩ := serving.events_pops orderly m there
      exact ⟨k, after.trans behind, pops⟩
  | event ix =>
    obtain ⟨m, after, left | ⟨there, -⟩⟩ := serving.event_leaves orderly _ _ ix le_rfl n ⟨here, le_rfl⟩
    · obtain ⟨k, behind, pops⟩ := serving.messages_pops orderly m left
      exact ⟨k, after.trans behind, pops⟩
    · obtain ⟨k, behind, pops⟩ := serving.events_pops orderly m there
      exact ⟨k, after.trans behind, pops⟩
  | messages => exact serving.messages_pops orderly n here
  | popMessage => exact ⟨n, le_rfl, here⟩
  | walk frames =>
    obtain ⟨w, inside, ends⟩ := (orderly n).walks frames here
    exact serving.walk_pops orderly ends n inside
  | wait => exact serving.wait_pops orderly n here
  | blocked => exact serving.blocked_pops orderly n here

theorem grows (orderly : ∀ n, (run.state n).Orderly chain) (n : Nat) : (run.state n).Grows (run.state (n + 1)) :=
  grows_step (orderly n).toUnlimited (orderly n).inbox (run.next n)

/-- At the `pop` the thread takes a message if there is one. -/
theorem takes (serving : Serving run) (orderly : ∀ n, (run.state n).Orderly chain) {j k : Nat} (before : j ≤ k) :
    run.LeadsTo (fun s => s.processing.thread = some .popMessage ∧ j ≤ s.handled ∧ k < s.accepted ∧
      s.inbox.length ≤ s.received.length) fun s => j < s.handled := by
  refine serving.turn orderly rfl (by simp) (fun n _ ⟨handled, accepted, _⟩ => ?_)
    fun queues s t _ _ _ ⟨handled, accepted, inbox⟩ h => ?_
  · have grows := grows orderly n
    exact ⟨handled.trans grows.handled, accepted.trans_le grows.accepted, grows.inbox⟩
  · simp only [runProcessing] at h
    split at h
    case h_1 m rQueue taken =>
      have grown : t.handled = s.handled + 1 := handled_taken inbox (by cases h; rfl) (by cases h; rfl) (by cases h; exact taken)
      omega
    case h_2 e empty =>
      cases h
      have none : s.rQueue.queue = [] := TSQueue.pop_error empty
      rw [Pipeline.accepted, none] at accepted
      exact before.trans_lt accepted
    case h_3 => cases h

/-- Every message that is pushed to `r_queue_` is handled. -/
theorem handles_accepted (serving : Serving run) (orderly : ∀ n, (run.state n).Orderly chain) {k n : Nat}
    (accepted : k < (run.state n).accepted) (j : Nat) (before : j ≤ k + 1) : ∃ m, n ≤ m ∧ j ≤ (run.state m).handled := by
  induction j with
  | zero => exact ⟨n, le_rfl, Nat.zero_le _⟩
  | succ j ih =>
    obtain ⟨m, after, handled⟩ := ih (by omega)
    obtain ⟨l, behind, there⟩ := serving.pops orderly m
    have grows := monotone_nat_of_le_succ (f := fun n => (run.state n).handled) (fun n => (grows orderly n).handled) behind
    have still := monotone_nat_of_le_succ (f := fun n => (run.state n).accepted)
      (fun n => (Serving.grows orderly n).accepted) (after.trans behind)
    obtain ⟨i, late, taken⟩ := serving.takes orderly (j := j) (k := k) (by omega) l
      ⟨there, handled.trans grows, accepted.trans_le still, (orderly l).inbox⟩
    exact ⟨i, (after.trans behind).trans late, taken⟩

/-- What is received at a time has been taken, and the call of `process` for it is over, at a later time. -/
theorem handles_received (serving : Serving run) (orderly : ∀ n, (run.state n).Orderly chain) (n : Nat) :
    ∃ m, n ≤ m ∧ (run.state m).BetweenJobs ∧ (run.state n).received.length ≤ (run.state m).handled := by
  obtain ⟨l, after, empty⟩ := serving.pushes n
  have received : (run.state n).received.length ≤ (run.state l).received.length :=
    monotone_nat_of_le_succ (f := fun n => (run.state n).received.length) (fun n => (grows orderly n).received.length_le) after
  have accepted : (run.state l).accepted = (run.state l).received.length := by
    have waits : (run.state l).inbox.length = (run.state l).rQueue.queue.length := by
      rw [Pipeline.inbox, empty, List.append_nil, List.length_map]
      rfl
    have := (orderly l).inbox
    rw [Pipeline.accepted, Pipeline.handled, waits]
    omega
  have taken : ∃ m, l ≤ m ∧ (run.state n).received.length ≤ (run.state m).handled := by
    by_cases none' : (run.state n).received.length = 0
    · exact ⟨l, le_rfl, by omega⟩
    · exact serving.handles_accepted orderly (k := (run.state n).received.length - 1) (by omega) _ (by omega)
  obtain ⟨m, behind, handled⟩ := taken
  obtain ⟨i, late, there⟩ := serving.pops orderly m
  refine ⟨i, (after.trans behind).trans late, between_at there (by simp) (by simp) (by simp), handled.trans ?_⟩
  exact monotone_nat_of_le_succ (f := fun n => (run.state n).handled) (fun n => (grows orderly n).handled) late

/-! ### The sending thread -/

/-- A step of another thread leaves the thread in its function where it is. -/
theorem other_sending {a : Action} {s t : Pipeline ω} {pc : SendingPc} (other : ∀ call, a ≠ .sending call)
    (here : s.sending.thread = some pc) (inside : pc ≠ .done) (h : step chain a s = some t) :
    t.sending.thread = some pc := by
  by_cases control : ∃ call, a = .control call
  · obtain ⟨call, rfl⟩ := control
    cases todo : s.control with
    | nil => simp only [step, todo] at h; cases h
    | cons i rest =>
      simp only [step, todo] at h
      cases (runControl_step h).threads with
      | startSending free => cases free.symm.trans here
      | joinSending ended =>
        cases ended.symm.trans here
        exact absurd rfl inside
      | startReceiving _ _ _ sending | startProcessing _ _ _ sending | joinReceiving _ _ _ sending
      | joinProcessing _ _ _ sending | notify _ _ sending | none _ _ _ sending => exact sending ▸ here
  · rw [sending_kept (fun call same => control ⟨call, same⟩) other h]
    exact here

/-- Something is owed to the connector behind the first `i` wrappers that it has got. -/
structure Owes (i : Nat) (s : Pipeline ω) : Prop where
  sent : s.sent.length = i
  owed : i < s.outbox.length

/-- From a place in its loop the sending thread comes to take its next step, if it can. -/
theorem sending_turn (serving : Serving run) {pc : SendingPc} (inside : pc ≠ .done) {p goal : Pipeline ω → Prop}
    (keeps : ∀ n, (∀ call, run.act n ≠ .sending call) → p (run.state n) → p (run.state (n + 1)))
    (enabled : ∀ s : Pipeline ω, s.sending.thread = some pc → p s → ∃ t, step chain (.sending (.ok ())) s = some t)
    (does : ∀ (call : Except Exn Unit) (s t : Pipeline ω), (∀ e, call = .error e → e.kind ≠ .underflowError) →
      s.isActive = true → s.sending.thread = some pc → p s → s.runSending call pc = some t → goal t) :
    run.LeadsTo (fun s => s.sending.thread = some pc ∧ p s) goal := by
  have taken {n : Nat} {call : Except Exn Unit} (here : (run.state n).sending.thread = some pc) (true_ : p (run.state n))
      (act : run.act n = .sending call) : goal (run.state (n + 1)) := by
    have active : (run.state n).isActive = true := by simp [isActive, serving.running n]
    have next := run.next n
    rw [act] at next
    simp only [step, here, Option.bind_some] at next
    exact does call _ _ (fun e thrown => serving.sends n e (thrown ▸ act)) active here true_ next
  refine serving.delivers.leadsTo ?_ ?_ ?_
  · rintro n ⟨here, true_⟩
    by_cases sender : ∃ call, run.act n = .sending call
    · obtain ⟨call, act⟩ := sender
      exact .inr (taken here true_ act)
    · have other : ∀ call, run.act n ≠ .sending call := fun call same => sender ⟨call, same⟩
      exact .inl ⟨other_sending other here inside (run.next n), keeps n other true_⟩
  · rintro n help ⟨here, true_⟩
    cases act : run.act n with
    | sending call => exact taken here true_ act
    | execute | control | receiving | processing | timerPush | timerNotify | wakeup =>
      rw [act] at help
      cases help
  · rintro n ⟨here, true_⟩
    obtain ⟨t, possible⟩ := enabled _ here true_
    exact ⟨.sending (.ok ()), t, trivial, possible⟩

/-- A step of the thread from its loop leaves it there, if no `send` throws an underflow and `s_queue_` blocks. -/
theorem sendLoop_step (serving : Serving run) (n : Nat) (loop : (run.state n).SendLoop) : (run.state (n + 1)).SendLoop := by
  have next := run.next n
  have active : (run.state n).isActive = true := by simp [isActive, serving.running n]
  have stays {pc : SendingPc} (here : (run.state n).sending.thread = some pc) (inside : pc ≠ .done)
      (place : ∀ s : Pipeline ω, s.sending.thread = some pc → s.SendLoop)
      (does : ∀ call, run.act n = .sending call → (run.state n).runSending call pc = some (run.state (n + 1)) →
        (run.state (n + 1)).SendLoop) : (run.state (n + 1)).SendLoop := by
    by_cases sender : ∃ call, run.act n = .sending call
    · obtain ⟨call, act⟩ := sender
      rw [act] at next
      simp only [step, here, Option.bind_some] at next
      exact does call act next
    · exact place _ (other_sending (fun call same => sender ⟨call, same⟩) here inside next)
  rcases loop with here | here | ⟨x, here⟩ | here
  · refine stays here (by simp) (fun s there => .inl there) fun call _ h => ?_
    rw [runSending, active] at h
    exact .inr (.inl (Option.some.inj h ▸ rfl))
  · refine stays here (by simp) (fun s there => .inr (.inl there)) fun call _ h => ?_
    simp only [runSending] at h
    split at h
    case h_1 x sQueue _ => exact .inr (.inr (.inl ⟨x, Option.some.inj h ▸ rfl⟩))
    case h_2 e failed =>
      have empty := TSQueue.pop_error failed
      simp only [TSQueue.pop, empty, serving.blocking n, if_true] at failed
      cases failed
    case h_3 => cases h
  · refine stays here (by simp) (fun s there => .inr (.inr (.inl ⟨x, there⟩))) fun call act h => ?_
    simp only [runSending] at h
    split at h
    · exact .inr (.inr (.inr (Option.some.inj h ▸ rfl)))
    case h_2 e =>
      rw [if_neg (serving.sends n e act)] at h
      exact .inl (Option.some.inj h ▸ rfl)
  · refine stays here (by simp) (fun s there => .inr (.inr (.inr there))) fun call _ h => ?_
    exact .inl (Option.some.inj h ▸ rfl)

theorem sendLoop_all (serving : Serving run) (n : Nat) : (run.state n).SendLoop := by
  induction n with
  | zero => exact serving.sendLoop
  | succ n ih => exact serving.sendLoop_step n ih

theorem outbox_grows (orderly : ∀ n, (run.state n).Orderly chain) (n : Nat) :
    (run.state n).outbox <+: (run.state (n + 1)).outbox := by
  rw [outbox_step (orderly n).sQueue (run.next n)]
  exact List.prefix_append _ _

/-- A step of the thread that sends nothing leaves what is owed. -/
theorem Owes.stays {i : Nat} {call : Except Exn Unit} {s t : Pipeline ω} {pc : SendingPc} (owes : Owes i s)
    (here : s.sending.thread = some pc) (h : s.runSending call pc = some t) (sent : t.sent = s.sent) : Owes i t where
  sent := sent ▸ owes.sent
  owed := by
    have moves : Moves ([] : List (Filtra ω)) none s.cargo t.cargo := runSending_moves here h
    have same : t.outbox = s.outbox := moves.outbox
    exact same ▸ owes.owed

theorem Owes.waits {i : Nat} {s : Pipeline ω} (owes : Owes i s) (here : s.sending.thread = some .pop) : s.sQueue.queue ≠ [] := by
  intro none'
  have owed := owes.owed
  simp only [outbox, cargo, here, none', Option.elim_some, SendingPc.hand, List.append_nil, List.length_map, owes.sent,
    Nat.lt_irrefl] at owed

/-- What is owed to the connector is sent. -/
theorem sends_next (serving : Serving run) (orderly : ∀ n, (run.state n).Orderly chain) (i : Nat) :
    run.LeadsTo (Owes i) fun s => i < s.sent.length := by
  have keeps (n : Nat) (other : ∀ call, run.act n ≠ .sending call) (owes : Owes i (run.state n)) : Owes i (run.state (n + 1)) := by
    refine ⟨?_, owes.owed.trans_le (outbox_grows orderly n).length_le⟩
    rw [sent_kept other (run.next n)]
    exact owes.sent
  have sends (x : Queued) : run.LeadsTo (fun s => s.sending.thread = some (.send x) ∧ Owes i s) fun s => i < s.sent.length := by
    refine serving.sending_turn (by simp) keeps (fun s here _ => ?_) fun call s t _ _ _ owes h => ?_
    · exact ⟨_, by simp only [step, here, Option.bind_some]; rfl⟩
    · have sent : t.sent = s.sent ++ [x] := by
        simp only [runSending] at h
        split at h
        · cases h; rfl
        · split at h <;> cases h <;> rfl
      rw [sent, List.length_append, owes.sent]
      exact Nat.lt_succ_self i
  have pops : run.LeadsTo (fun s => s.sending.thread = some .pop ∧ Owes i s) fun s =>
      ∃ x, s.sending.thread = some (.send x) ∧ Owes i s := by
    refine serving.sending_turn (by simp) keeps (fun s here owes => ?_) fun call s t _ _ here owes h => ?_
    · obtain ⟨x, rest, queue⟩ := List.exists_cons_of_ne_nil (owes.waits here)
      exact ⟨_, by simp only [step, here, Option.bind_some, runSending, TSQueue.pop, queue]; rfl⟩
    · have sent : t.sent = s.sent := by simp only [runSending] at h; split at h <;> cases h <;> rfl
      have next := owes.stays here h sent
      simp only [runSending] at h
      split at h
      case h_1 x sQueue _ => exact ⟨x, Option.some.inj h ▸ rfl, next⟩
      case h_2 e failed => exact absurd (TSQueue.pop_error failed) (owes.waits here)
      case h_3 => cases h
  have loops : run.LeadsTo (fun s => s.sending.thread = some .loop ∧ Owes i s) fun s => s.sending.thread = some .pop ∧ Owes i s := by
    refine serving.sending_turn (by simp) keeps (fun s here _ => ?_) fun call s t _ active here owes h => ?_
    · exact ⟨_, by simp only [step, here, Option.bind_some]; rfl⟩
    · have next := owes.stays here h (by cases h; rfl)
      rw [runSending, active] at h
      exact ⟨Option.some.inj h ▸ rfl, next⟩
  have clears : run.LeadsTo (fun s => s.sending.thread = some .clear ∧ Owes i s) fun s => s.sending.thread = some .loop ∧ Owes i s := by
    refine serving.sending_turn (by simp) keeps (fun s here _ => ?_) fun call s t _ _ here owes h => ?_
    · exact ⟨_, by simp only [step, here, Option.bind_some]; rfl⟩
    · exact ⟨Option.some.inj h ▸ rfl, owes.stays here h (by cases h; rfl)⟩
  have popped : run.LeadsTo (fun s => s.sending.thread = some .pop ∧ Owes i s) fun s => i < s.sent.length := by
    refine pops.trans ?_
    rintro n ⟨x, sending⟩
    exact sends x n sending
  intro n owes
  rcases serving.sendLoop_all n with here | here | ⟨x, here⟩ | here
  · exact loops.trans popped n ⟨here, owes⟩
  · exact popped n ⟨here, owes⟩
  · exact sends x n ⟨here, owes⟩
  · exact clears.trans (loops.trans popped) n ⟨here, owes⟩

/-- The connector gets what is owed to it at a time. -/
theorem sends_owed (serving : Serving run) (orderly : ∀ n, (run.state n).Orderly chain) (n : Nat) :
    ∃ m, n ≤ m ∧ (run.state n).outbox <+: (run.state m).sent.map Queued.msgW := by
  have grow {n m : Nat} (before : n ≤ m) : (run.state n).outbox <+: (run.state m).outbox :=
    Nat.rel_of_forall_rel_succ_of_le (· <+: ·) (f := fun n => (run.state n).outbox) (outbox_grows orderly) before
  obtain ⟨m, after, sent⟩ := Lib.Execution.catches_up (fun s => s.sent.length) (fun s : Pipeline ω => s.outbox.length)
    (fun n => (outbox_grows orderly n).length_le) (fun i n here => serving.sends_next orderly i n ⟨here.1, here.2⟩) n
  refine ⟨m, after, List.prefix_of_prefix_length_le (grow after) ?_ (by rwa [List.length_map])⟩
  rw [outbox, List.append_assoc, List.map_append]
  exact List.prefix_append _ _

/-! ### All together -/

/-- While the pipeline runs on, no step of the processing thread disturbs a call: it would have failed. -/
theorem undisturbed (serving : Serving run) (orderly : ∀ n, (run.state n).Orderly chain) (n : Nat) :
    Undisturbed chain (run.act n) (run.state n) := by
  intro queues act f below top
  have next := run.next n
  rw [act] at next
  have active : (run.state n).isActive = true := by simp [isActive, serving.running n]
  have here : (run.state n).processing.thread = some (.walk (f :: below)) := by
    obtain ⟨pc, there, -⟩ := serving.handles n
    simp only [cargo, there, Option.elim_some] at top
    cases pc with
    | walk frames => rw [there]; exact congrArg (fun frames => some (ProcessingPc.walk frames)) top
    | _ => cases top
  refine ⟨fun interrupted => ?_, fun queuid msg redirects => ?_⟩
  · cases active.symm.trans interrupted.2.2
  · have waits := Process.redirect_pending redirects
    cases pc : f.pc with
    | redirect others =>
      cases others with
      | nil => simp [Frame.pending, pc] at waits
      | cons first others =>
        simp only [Frame.acts, pc, List.mem_singleton, Act.redirect.injEq] at redirects
        intro full
        have failed := redirect_fails (orderly n).sQueue here pc (redirects.1 ▸ full) next
        cases (serving.running (n + 1)).symm.trans failed
    | _ => simp [Frame.pending, pc] at waits

/-- What is received is handled, and what that pushes is sent. -/
theorem handled_sent (serving : Serving run) (returns : Process.Returns chain) {world : ω} {trace : List Act}
    (before : Acted chain (Undisturbed chain) (prepared world) trace (run.state 0)) (n : Nat) :
    ∃ m, n ≤ m ∧ ∃ jobs acts last, JobsDo chain jobs world acts last ∧ (run.state n).received <+: Job.messages jobs ∧
      Process.pushes acts <+: (run.state m).sent.map Queued.msgW := by
  have start : (run.state 0).Orderly chain :=
    before.reaches.invariant (Orderly chain) (orderly_prepared world) fun _ _ _ _ orderly h => orderly.step returns h
  have orderly := orderly returns start
  obtain ⟨m, after, between, handled⟩ := serving.handles_received orderly n
  have goesOn : Acted chain (Undisturbed chain) (run.state 0) (run.upTo (acts chain) m) (run.state m) :=
    run.trace_upTo (acts chain) (serving.undisturbed orderly) m
  have whole : Acted chain (Undisturbed chain) (prepared world) (trace ++ run.upTo (acts chain) m) (run.state m) :=
    before.trans goesOn
  obtain ⟨jobs, does, -, arrives⟩ := explained_run True (fun _ _ => id) (fun _ => True) (fun _ _ _ => trivial)
    whole trivial (fun _ _ _ _ _ _ => trivial) between
  obtain ⟨l, behind, sent⟩ := serving.sends_owed orderly m
  refine ⟨l, after.trans behind, jobs, _, _, does, ?_, outbox_run whole ▸ sent⟩
  have received : (run.state n).received <+: (run.state m).received :=
    Nat.rel_of_forall_rel_succ_of_le (· <+: ·) (f := fun n => (run.state n).received)
      (fun n => (grows orderly n).received) after
  refine List.prefix_of_prefix_length_le received (arrives ▸ List.prefix_append _ _) ?_
  rw [Pipeline.handled, arrives, List.length_append, Nat.add_sub_cancel] at handled
  exact handled

end Serving

/-- **The messages get through.** Where every call of `process` ends: in a run that has brought the pipeline, its
calls undisturbed, to a state from which it serves, whatever is received at a time is in the end handled as
the sequential machine does, one message after the other, and what that machine pushes is handed to the
connector, in its order. -/
theorem served {run : Lib.Execution (step chain)} (returns : Process.Returns chain) {world : ω} {trace : List Act}
    (before : Acted chain (Undisturbed chain) (prepared world) trace (run.state 0)) (serving : Serving run) (n : Nat) :
    ∃ m, n ≤ m ∧ ∃ jobs acts last, JobsDo chain jobs world acts last ∧ (run.state n).received <+: Job.messages jobs ∧
      Process.pushes acts <+: (run.state m).sent.map Queued.msgW :=
  serving.handled_sent returns before n

/-! ## Two messages that get through -/

/-- A filtra that looks at the message and lets it through. -/
def looking {ω : Type} : Filtra ω :=
  { (Filtra.plain : Filtra ω) with
    processMessage := fun world w => (.ok "", w.withMsg.pass, world)
    keepsOrig := fun _ w => MessageWrapper.withMsg_orig w
    keepsMetadata := fun _ w => MessageWrapper.withMsg_metadata w }

theorem looking_not_splits {ω : Type} : ¬ (looking : Filtra ω).Splits := by
  rintro ⟨world, w, self⟩
  simp [looking] at self

/-- Two filtras that let all through. -/
def lookAndPass : List (Process.Link Unit) := [.other looking looking_not_splits, .other .plain Filtra.plain_not_splits]

abbrev plainChain : List (Filtra (Process.SplitterWorld Unit)) := Process.chainOf Message.literalCodec lookAndPass

theorem plainChain_forward : Process.Forward plainChain where
  passed := by
    rintro (_ | _ | i) filtra found <;> cases found <;> exact Nat.lt_succ_self _
  rejected := by
    rintro (_ | _ | i) filtra found <;> cases found <;> exact fun named => absurd rfl named

def plainPrepared : Pipeline (Process.SplitterWorld Unit) := prepared { splitters := fun _ => { messageId := 7 }, others := () }

/-- The threads are in their loops, with what has come through. -/
def inLoops (processing : ProcessingPc) (sending : SendingPc) (received : List Message) (sent : List Queued) :
    Pipeline (Process.SplitterWorld Unit) :=
  { plainPrepared with
    state := .running
    receiving := { thread := some .loop, state := .running }
    processing := { thread := some processing, state := .running }
    sending := { thread := some sending, state := .running }
    control := [.command]
    received
    sent }

def started : Pipeline (Process.SplitterWorld Unit) := inLoops .loop .loop [] []

theorem startUp_started : Lib.exec (step plainChain) startUp plainPrepared = some started := rfl

theorem startUp_smooth : Lib.Along (step plainChain) (fun _ s => s.Smooth) startUp plainPrepared := by decide

/-- Two messages are received. -/
def twoReceived : List Action :=
  List.replicate 4 (.receiving (.ok (.ofString [0x61] .raw))) ++ List.replicate 4 (.receiving (.ok (.ofString [0x62] .raw)))

/-- They are handled, one behind the other, and sent; then the threads wait. -/
def twoThrough : List Action :=
  twoReceived ++ List.replicate 26 (.processing fun _ => {}) ++ List.replicate 9 (.sending (.ok ()))

/-- What is sent then. -/
def sentTwo : List Queued := (((Lib.exec (step plainChain) twoThrough started).map Pipeline.sent).getD [])

def idle : Pipeline (Process.SplitterWorld Unit) :=
  inLoops .blocked .pop [.ofString [0x61] .raw, .ofString [0x62] .raw] sentTwo

theorem twoThrough_idle : Lib.exec (step plainChain) twoThrough started = some idle := rfl

/-- The processing thread is woken, finds nothing and waits again. -/
def idling : List Action := .wakeup :: List.replicate 6 (.processing fun _ => {})

theorem idling_back : Lib.exec (step plainChain) idling idle = some idle := rfl

def idleRun : Lib.Execution (step plainChain) := .circle idling idle (by decide) idling_back

/-- The two messages, and wake-ups for ever. -/
def servingRun : Lib.Execution (step plainChain) := idleRun.prepend twoThrough started twoThrough_idle

theorem servingRun_state (n : Nat) {i : Nat} (inside : i < idling.length) :
    some (servingRun.state (n * idling.length + i + twoThrough.length)) = Lib.exec (step plainChain) (idling.take i) idle :=
  (congrArg some (Lib.Execution.prepend_state _)).trans (Lib.Execution.circle_state n inside)

theorem servingRun_act (n : Nat) {i : Nat} (inside : i < idling.length) :
    servingRun.act (n * idling.length + i + twoThrough.length) = idling.get ⟨i, inside⟩ :=
  (Lib.Execution.prepend_act _).trans (Lib.Execution.circle_act n inside)

theorem late_enough (n i : Nat) : n ≤ n * idling.length + i + twoThrough.length := by
  have wide : idling.length = 7 := rfl
  rw [wide]
  omega

def Action.sendFails : Action → Bool
  | .sending (.error _) => true
  | _ => false

/-- The pipeline runs, no timer pushes, and every send returns. -/
def Steady (a : Action) (s : Pipeline (Process.SplitterWorld Unit)) : Prop :=
  s.state = .running ∧ s.sQueue.blocking = true ∧ a.isTimerPush = false ∧ a.sendFails = false

instance (a : Action) (s : Pipeline (Process.SplitterWorld Unit)) : Decidable (Steady a s) := inferInstanceAs (Decidable (_ ∧ _))

theorem servingRun_steady (n : Nat) : Steady (servingRun.act n) (servingRun.state n) :=
  Lib.Execution.prepend_along (by decide) (Lib.Execution.circle_along (by decide)) n

theorem servingRun_serving : Serving servingRun where
  running n := (servingRun_steady n).1
  blocking n := (servingRun_steady n).2.1
  handling := ⟨_, rfl, rfl⟩
  sendLoop := .inl rfl
  untimed n timer := by
    have steady := (servingRun_steady n).2.2.1
    rw [timer] at steady
    cases steady
  sends n e sent := by
    have steady := (servingRun_steady n).2.2.2
    rw [sent] at steady
    cases steady
  processes n := by
    refine ⟨_, late_enough n 1, .inl ?_⟩
    rw [servingRun_act n (by decide : 1 < idling.length)]
    trivial
  delivers n := by
    refine ⟨_, late_enough n 0, .inr fun a sending => ?_⟩
    rw [Option.some.inj (servingRun_state n (by decide : 0 < idling.length))]
    cases a with
    | sending call => rfl
    | _ => cases sending
  awake n := by
    refine ⟨_, late_enough n 1, ?_⟩
    have woken : some (servingRun.state (n * idling.length + 1 + twoThrough.length)) = some (idle.processingAt .loop) :=
      servingRun_state n (by decide : 1 < idling.length)
    rw [Option.some.inj woken]
    rintro ⟨⟩
  pushes n := by
    refine ⟨_, late_enough n 0, ?_⟩
    rw [Option.some.inj (servingRun_state n (by decide : 0 < idling.length))]
    rfl

/-- Both are received before anything is handled. -/
theorem served_two :
    ∃ m, twoReceived.length ≤ m ∧ ∃ jobs acts last, JobsDo plainChain jobs plainPrepared.world acts last ∧
      [.ofString [0x61] .raw, .ofString [0x62] .raw] <+: Job.messages jobs ∧
      Process.pushes acts <+: (servingRun.state m).sent.map Queued.msgW := by
  have before : Acted plainChain (Undisturbed plainChain) plainPrepared _ (servingRun.state 0) :=
    Lib.along_trace startUp (startUp_smooth.mono fun a _ smooth => undisturbed_of_smooth smooth a) startUp_started
  exact served (Process.returns_of_forward plainChain_forward) before servingRun_serving twoReceived.length

end Pipeline

end M2eBridge
