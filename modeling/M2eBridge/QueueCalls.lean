import M2eBridge.TSQueue
import M2eBridge.Lib.Runs
import Mathlib.Data.Fintype.Basic

/-!
# The calls of a queue, step by step

`TSQueue` as its callers run it: `pop` and `push` under the mutex, and a
`set_non_blocking` that writes the flag and notifies without it. A consumer that has
tested the predicate and is about to block is not reached by a notification, so a
`set_non_blocking` that runs through between the two leaves it blocked
(`consumer_left_blocked`). Where no consumer stands there when the notification is made,
none is blocked once the call has returned (`released_unblocked`).
-/

namespace M2eBridge

/-- The places in the three functions; `outside` has what the last call came to. -/
inductive CallPc (α : Type) where
  | outside (result : Except Exn (Option α))
  | popLock
  /-- `pop` at its predicate, with the mutex. -/
  | popTest
  /-- The predicate was false: about to give the mutex back and to block. -/
  | popWait
  | popBlocked
  /-- Notified, or woken for nothing: the mutex is to be taken again. -/
  | popWoken
  | pushLock (value : α)
  | pushTest (value : α)
  | pushNotify
  | pushUnlock
  | setWrite
  | setNotify
  deriving DecidableEq

def CallPc.isBlocked {α : Type} : CallPc α → Bool
  | .popBlocked => true
  | _ => false

/-- The place behind a notification that reaches the thread. -/
def CallPc.notified {α : Type} : CallPc α → CallPc α
  | .popBlocked => .popWoken
  | pc => pc

inductive QueueCall (α : Type) where
  | pop
  | push (value : α)
  | setNonBlocking

def QueueCall.entry {α : Type} : QueueCall α → CallPc α
  | .pop => .popLock
  | .push value => .pushLock value
  | .setNonBlocking => .setWrite

/-- The queue with its mutex and the threads that call it; `released` is history: a
`set_non_blocking` has returned. -/
structure QueueCalls (ι α : Type) where
  queue : TSQueue α
  mutex : Option ι := none
  threads : ι → CallPc α := fun _ => .outside (.ok none)
  released : Bool := false

namespace QueueCalls

variable {ι α : Type} [DecidableEq ι]

def moveTo (s : QueueCalls ι α) (i : ι) (pc : CallPc α) : QueueCalls ι α :=
  { s with threads := Function.update s.threads i pc }

def lock (s : QueueCalls ι α) (i : ι) (pc : CallPc α) : Option (QueueCalls ι α) :=
  if s.mutex.isNone then some ({ s with mutex := some i }.moveTo i pc) else none

/-- The call comes to its end, and gives the mutex back. -/
def leave (s : QueueCalls ι α) (i : ι) (result : Except Exn (Option α)) : QueueCalls ι α :=
  { s with mutex := none }.moveTo i (.outside result)

def notifyAll (s : QueueCalls ι α) : QueueCalls ι α := { s with threads := fun i => (s.threads i).notified }

/-- The next step of a thread inside a call. -/
def runCall (s : QueueCalls ι α) (i : ι) : CallPc α → Option (QueueCalls ι α)
  | .popLock | .popWoken => s.lock i .popTest
  | .popTest =>
    match s.queue.pop with
    | some (.ok (value, queue)) => some ({ s with queue }.leave i (.ok (some value)))
    | some (.error e) => some (s.leave i (.error e))
    | none => some (s.moveTo i .popWait)
  | .popWait => some ({ s with mutex := none }.moveTo i .popBlocked)
  | .pushLock value => s.lock i (.pushTest value)
  | .pushTest value =>
    match s.queue.push value with
    | .ok queue => some ({ s with queue }.moveTo i .pushNotify)
    | .error e => some (s.leave i (.error e))
  | .pushUnlock => some (s.leave i (.ok none))
  | .setWrite => some ({ s with queue := s.queue.setNonBlocking }.moveTo i .setNotify)
  | .setNotify => some ({ s.notifyAll with released := true }.moveTo i (.outside (.ok none)))
  | .outside _ | .popBlocked | .pushNotify => none

inductive Action (ι α : Type) where
  | call (i : ι) (c : QueueCall α)
  | run (i : ι)
  /-- The `notify_one` of a `push`, which wakes some consumer if any is blocked. -/
  | notifyOne (i : ι) (woken : Option ι)
  /-- A spurious wakeup. -/
  | wakeup (i : ι)

variable [Fintype ι]

def step : Action ι α → QueueCalls ι α → Option (QueueCalls ι α)
  | .call i c, s =>
    match s.threads i with
    | .outside _ => some (s.moveTo i c.entry)
    | _ => none
  | .run i, s => s.runCall i (s.threads i)
  | .notifyOne i woken, s =>
    match s.threads i, woken with
    | .pushNotify, some j =>
      if (s.threads j).isBlocked then some ((s.moveTo j .popWoken).moveTo i .pushUnlock) else none
    | .pushNotify, none => if ∀ j, (s.threads j).isBlocked = false then some (s.moveTo i .pushUnlock) else none
    | _, _ => none
  | .wakeup i, s => if (s.threads i).isBlocked then some (s.moveTo i .popWoken) else none

/-- A queue that nobody has called yet. -/
def fresh (queue : TSQueue α) : QueueCalls ι α := { queue }

/-- No consumer is blocked once a `set_non_blocking` has returned. -/
def Unblocked (s : QueueCalls ι α) : Prop := s.released = true → ∀ i, s.threads i ≠ .popBlocked

/-- The condition on a step: where a thread makes the notification of
`set_non_blocking`, no consumer stands between its test and its blocking. -/
def Reached (a : Action ι α) (s : QueueCalls ι α) : Prop :=
  ∀ i, a = .run i → s.threads i = .setNotify → ∀ j, s.threads j ≠ .popWait

instance [DecidableEq α] (a : Action ι α) (s : QueueCalls ι α) : Decidable (Reached a s) :=
  match a with
  | .run i =>
    decidable_of_iff (s.threads i = .setNotify → ∀ j, s.threads j ≠ .popWait)
      ⟨fun met _ same => by cases same; exact met, fun reached => reached i rfl⟩
  | .call .. | .notifyOne .. | .wakeup _ => .isTrue fun _ same => by cases same

/-- What the steps keep. -/
structure Releasing (s : QueueCalls ι α) : Prop where
  written : ∀ i, s.threads i = .setNotify → s.queue.blocking = false
  flag : s.released = true → s.queue.blocking = false
  unblocked : s.released = true → ∀ i, s.threads i ≠ .popBlocked ∧ s.threads i ≠ .popWait

/-! ## What a step can do -/

/-- The places that matter are entered from these. -/
structure Progress (s t : QueueCalls ι α) : Prop where
  blocking : t.queue.blocking = s.queue.blocking ∨ t.queue.blocking = false
  notify : ∀ i, t.threads i = .setNotify → s.threads i = .setNotify ∨ t.queue.blocking = false
  blocked : ∀ i, t.threads i = .popBlocked → s.threads i = .popBlocked ∨ s.threads i = .popWait
  wait : ∀ i, t.threads i = .popWait → s.threads i = .popWait ∨ s.queue.blocking = true

omit [Fintype ι] in
theorem moveTo_threads (s : QueueCalls ι α) (i j : ι) (pc : CallPc α) :
    (s.moveTo i pc).threads j = if j = i then pc else s.threads j := Function.update_apply ..

omit [Fintype ι] in
/-- A thread moves; the others stay, or are woken. -/
theorem Progress.moveTo {s u : QueueCalls ι α} {i : ι} {pc : CallPc α}
    (threads : ∀ j, u.threads j = s.threads j ∨ u.threads j = .popWoken)
    (blocking : u.queue.blocking = s.queue.blocking ∨ u.queue.blocking = false)
    (notify : pc = .setNotify → u.queue.blocking = false) (blocked : pc = .popBlocked → s.threads i = .popWait)
    (wait : pc = .popWait → s.queue.blocking = true) : Progress s (u.moveTo i pc) := by
  have other {j : ι} {place : CallPc α} (here : (u.moveTo i pc).threads j = place) (asleep : place ≠ .popWoken) :
      j = i ∧ pc = place ∨ s.threads j = place := by
    rw [moveTo_threads] at here
    split at here
    case isTrue same => exact .inl ⟨same, here⟩
    case isFalse =>
      rcases threads j with same | woken
      · exact .inr (same ▸ here)
      · exact absurd (here.symm.trans woken) asleep
  refine ⟨blocking, fun j here => ?_, fun j here => ?_, fun j here => ?_⟩
  · rcases other here (by simp) with ⟨_, same⟩ | before
    · exact .inr (notify same)
    · exact .inl before
  · rcases other here (by simp) with ⟨rfl, same⟩ | before
    · exact .inr (blocked same)
    · exact .inl before
  · rcases other here (by simp) with ⟨_, same⟩ | before
    · exact .inr (wait same)
    · exact .inl before

omit [Fintype ι] in
/-- The thread goes to another place than the three. -/
theorem Progress.elsewhere {s u : QueueCalls ι α} {i : ι} {pc : CallPc α}
    (threads : ∀ j, u.threads j = s.threads j ∨ u.threads j = .popWoken)
    (blocking : u.queue.blocking = s.queue.blocking) (place : pc ≠ .setNotify ∧ pc ≠ .popBlocked ∧ pc ≠ .popWait) :
    Progress s (u.moveTo i pc) :=
  .moveTo threads (.inl blocking) (fun same => absurd same place.1) (fun same => absurd same place.2.1)
    fun same => absurd same place.2.2

theorem push_blocking {q q' : TSQueue α} {value : α} (h : q.push value = .ok q') : q'.blocking = q.blocking := by
  unfold TSQueue.push at h
  split at h <;> cases h
  rfl

theorem pop_blocking {q q' : TSQueue α} {value : α} (h : q.pop = some (.ok (value, q'))) :
    q'.blocking = q.blocking := by
  unfold TSQueue.pop at h
  split at h
  · cases h; rfl
  · split at h <;> cases h

/-- A pop blocks on a blocking queue only. -/
theorem pop_none {q : TSQueue α} (h : q.pop = none) : q.blocking = true := by
  unfold TSQueue.pop at h
  split at h
  · cases h
  · split at h
    · assumption
    · cases h

omit [Fintype ι] in
theorem Progress.runCall {s t : QueueCalls ι α} {i : ι} {pc : CallPc α} (here : s.threads i = pc)
    (h : s.runCall i pc = some t) : Progress s t := by
  have stay (j : ι) : s.threads j = s.threads j ∨ s.threads j = .popWoken := .inl rfl
  cases pc with
  | popLock | popWoken | pushLock value =>
    simp only [QueueCalls.runCall, lock] at h
    split at h <;> cases h
    exact .elsewhere stay rfl (by simp)
  | popTest =>
    simp only [QueueCalls.runCall] at h
    split at h <;> cases h
    case h_1 value queue taken => exact .elsewhere stay (pop_blocking taken) (by simp)
    case h_2 => exact .elsewhere stay rfl (by simp)
    case h_3 blocks => exact .moveTo stay (.inl rfl) (by simp) (by simp) fun _ => pop_none blocks
  | popWait => cases h; exact .moveTo stay (.inl rfl) (by simp) (fun _ => here) (by simp)
  | pushTest value =>
    simp only [QueueCalls.runCall] at h
    split at h <;> cases h
    case h_1 queue pushed => exact .elsewhere stay (push_blocking pushed) (by simp)
    case h_2 => exact .elsewhere stay rfl (by simp)
  | pushUnlock => cases h; exact .elsewhere stay rfl (by simp)
  | setWrite => cases h; exact .moveTo stay (.inr rfl) (fun _ => rfl) (by simp) (by simp)
  | setNotify =>
    cases h
    refine .elsewhere (fun j => ?_) rfl (by simp)
    show (s.threads j).notified = _ ∨ (s.threads j).notified = _
    cases s.threads j with
    | popBlocked => exact .inr rfl
    | _ => exact .inl rfl
  | outside | popBlocked | pushNotify => cases h

theorem Progress.step {a : Action ι α} {s t : QueueCalls ι α} (h : QueueCalls.step a s = some t) : Progress s t := by
  have stay (j : ι) : s.threads j = s.threads j ∨ s.threads j = .popWoken := .inl rfl
  cases a with
  | call i c =>
    simp only [QueueCalls.step] at h
    split at h <;> cases h
    cases c <;> exact .elsewhere stay rfl (by simp [QueueCall.entry])
  | run i => exact .runCall rfl h
  | notifyOne i woken =>
    simp only [QueueCalls.step] at h
    split at h
    case h_1 j _ =>
      split at h <;> cases h
      refine .elsewhere (fun k => ?_) rfl (by simp)
      rw [moveTo_threads]
      split
      · exact .inr rfl
      · exact .inl rfl
    case h_2 =>
      split at h <;> cases h
      exact .elsewhere stay rfl (by simp)
    case h_3 => cases h
  | wakeup i =>
    simp only [QueueCalls.step] at h
    split at h <;> cases h
    exact .elsewhere stay rfl (by simp)

/-- The history changes with the notification of a `set_non_blocking`, which leaves no
consumer blocked and brings none before its blocking. -/
theorem released_step {a : Action ι α} {s t : QueueCalls ι α} (h : step a s = some t) :
    t.released = s.released ∨
      ∃ i, a = .run i ∧ s.threads i = .setNotify ∧ t.queue = s.queue ∧
        ∀ j, t.threads j ≠ .popBlocked ∧ (t.threads j = .popWait → s.threads j = .popWait) := by
  cases a with
  | call i c =>
    simp only [step] at h
    split at h <;> cases h
    exact .inl rfl
  | notifyOne i woken =>
    simp only [step] at h
    split at h
    · split at h <;> cases h; exact .inl rfl
    · split at h <;> cases h; exact .inl rfl
    · cases h
  | wakeup i =>
    simp only [step] at h
    split at h <;> cases h
    exact .inl rfl
  | run i =>
    have ran : s.runCall i (s.threads i) = some t := h
    cases here : s.threads i with
    | setNotify =>
      rw [here] at ran
      cases ran
      refine .inr ⟨i, rfl, here, rfl, fun j => ?_⟩
      rw [moveTo_threads]
      split
      · simp
      · show (s.threads j).notified ≠ _ ∧ ((s.threads j).notified = _ → _)
        cases s.threads j <;> simp [CallPc.notified]
    | popLock | popWoken | pushLock =>
      rw [here] at ran
      simp only [runCall, lock] at ran
      split at ran <;> cases ran
      exact .inl rfl
    | popTest | pushTest =>
      rw [here] at ran
      simp only [runCall] at ran
      split at ran <;> cases ran <;> exact .inl rfl
    | popWait | pushUnlock | setWrite => rw [here] at ran; cases ran; exact .inl rfl
    | outside | popBlocked | pushNotify => rw [here] at ran; cases ran

theorem Releasing.step {a : Action ι α} {s t : QueueCalls ι α} (releasing : Releasing s) (reached : Reached a s)
    (h : QueueCalls.step a s = some t) : Releasing t := by
  have progress := Progress.step h
  have off (flag : s.queue.blocking = false) : t.queue.blocking = false := by
    rcases progress.blocking with same | written
    · exact same.trans flag
    · exact written
  refine ⟨fun i here => ?_, fun on => ?_, fun on i => ?_⟩
  · rcases progress.notify i here with before | written
    · exact off (releasing.written i before)
    · exact written
  · rcases released_step h with same | ⟨i, rfl, notifies, _⟩
    · exact off (releasing.flag (same ▸ on))
    · exact off (releasing.written i notifies)
  · rcases released_step h with same | ⟨k, rfl, notifies, _, cleared⟩
    · -- neither place is entered: the flag is written
      have before := releasing.unblocked (same ▸ on) i
      refine ⟨fun here => ?_, fun here => ?_⟩
      · rcases progress.blocked i here with blocked | wait
        · exact before.1 blocked
        · exact before.2 wait
      · rcases progress.wait i here with wait | blocking
        · exact before.2 wait
        · cases (releasing.flag (same ▸ on)).symm.trans blocking
    · exact ⟨(cleared i).1, fun here => reached k rfl notifies i ((cleared i).2 here)⟩

omit [DecidableEq ι] [Fintype ι] in
theorem Releasing.fresh (queue : TSQueue α) : Releasing (fresh queue : QueueCalls ι α) where
  written := fun _ here => by cases here
  flag := fun on => by cases on
  unblocked := fun on => by cases on

/-- A consumer that the notification has not reached blocks behind it. -/
theorem blocks_behind {j : ι} {s : QueueCalls ι α} (released : s.released = true) (waits : s.threads j = .popWait) :
    ∃ u, step (.run j) s = some u ∧ ¬ u.Unblocked := by
  refine ⟨{ s with mutex := none }.moveTo j .popBlocked, ?_, fun unblocked => unblocked released j ?_⟩
  · simp only [step, waits, runCall]
  · rw [moveTo_threads, if_pos rfl]

theorem unblocked_broken {i j : ι} {s t : QueueCalls ι α} (notifies : s.threads i = .setNotify)
    (waits : s.threads j = .popWait) (h : step (.run i) s = some t) :
    ∃ u, step (.run j) t = some u ∧ ¬ u.Unblocked := by
  have apart : j ≠ i := by
    rintro rfl
    cases waits.symm.trans notifies
  have ran : s.runCall i (s.threads i) = some t := h
  rw [notifies] at ran
  cases ran
  apply blocks_behind rfl
  rw [moveTo_threads, if_neg apart]
  simp [notifyAll, waits, CallPc.notified]

/-- The run, and what is at fault in a step that does not meet the condition. -/
theorem released_unblocked (queue : TSQueue α) :
    (∀ s : QueueCalls ι α, Lib.ReachesWhen step Reached (fresh queue) s → s.Unblocked) ∧
      ∀ (s t : QueueCalls ι α) (a : Action ι α), step a s = some t → ¬ Reached a s →
        ∃ j u, step (.run j) t = some u ∧ ¬ u.Unblocked := by
  refine ⟨fun s reached on i => ?_, fun s t a h missed => ?_⟩
  · have releasing := reached.invariant Releasing (.fresh queue) fun a s t reached inv h => inv.step reached h
    exact (releasing.unblocked on i).1
  · simp only [Reached, not_forall, not_not] at missed
    obtain ⟨i, rfl, notifies, j, waits⟩ := missed
    exact ⟨j, unblocked_broken notifies waits h⟩

/-- The consumer `0` is blocked when the stopper `1` writes the flag and notifies. -/
def stopBehindBlocking : List (Action (Fin 2) Nat) :=
  [.call 0 .pop, .run 0, .run 0, .run 0, .call 1 .setNonBlocking, .run 1, .run 1, .run 0]

def woken : QueueCalls (Fin 2) Nat := (Lib.exec step stopBehindBlocking (fresh {})).getD (fresh {})

/-- The stopper `1` is about to notify while the consumer `0` has found the queue empty and is not blocked yet. -/
def notifying : QueueCalls (Fin 2) Nat :=
  (Lib.exec step [.call 0 .pop, .run 0, .run 0, .call 1 .setNonBlocking, .run 1] (fresh {})).getD (fresh {})

def notified : QueueCalls (Fin 2) Nat := (step (.run 1) notifying).getD notifying

theorem released_unblocked_woken :
    woken.Unblocked ∧ ∃ j u, step (.run j) notified = some u ∧ ¬ u.Unblocked := by
  have reached : Lib.Along step Reached stopBehindBlocking (fresh {} : QueueCalls (Fin 2) Nat) := by decide
  have missed : ¬ Reached (.run 1) notifying := by decide
  exact ⟨(released_unblocked {}).1 woken (reached.reachesWhen rfl),
    (released_unblocked {}).2 notifying notified (.run 1) rfl missed⟩

/-- The consumer `0` has found the queue empty; the stopper `1` writes the flag and notifies. -/
def stopBeforeBlocking : List (Action (Fin 2) Nat) :=
  [.call 0 .pop, .run 0, .run 0, .call 1 .setNonBlocking, .run 1, .run 1, .run 0]

def leftBlocked : QueueCalls (Fin 2) Nat := (Lib.exec step stopBeforeBlocking (fresh {})).getD (fresh {})

theorem consumer_left_blocked :
    ¬ ∀ (queue : TSQueue Nat) (s : QueueCalls (Fin 2) Nat), Lib.Reaches step (fresh queue) s → s.Unblocked := by
  intro all
  exact all {} leftBlocked (Lib.exec_reaches stopBeforeBlocking rfl) rfl 0 rfl

/-- No other thread is left that would wake it. -/
example : leftBlocked.threads 1 = .outside (.ok none) := rfl

end QueueCalls

end M2eBridge
