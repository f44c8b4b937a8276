import M2eBridge.Aliases

/-!
# The thread-safe queue

`TSQueue` by what its operations do under the mutex. A `pop` that finds the queue
empty blocks while the queue is blocking and throws otherwise.
-/

namespace M2eBridge

structure TSQueue (α : Type) where
  /-- `0` is no limit. -/
  maxSize : Nat := 0
  queue : List α := []
  blocking : Bool := true
  deriving DecidableEq, Repr

namespace TSQueue

variable {α : Type}

def queueIsFull : Exn := ⟨.overflowError, "Queue is full!"⟩

def noMessages : Exn := ⟨.underflowError, "No messages in queue!"⟩

/-- `check_size()` does not throw. -/
def HasRoom (q : TSQueue α) : Prop := ¬ (0 < q.maxSize ∧ q.maxSize ≤ q.queue.length)

instance (q : TSQueue α) : Decidable q.HasRoom := inferInstanceAs (Decidable (¬ _))

def push (q : TSQueue α) (value : α) : Except Exn (TSQueue α) :=
  if q.HasRoom then .ok { q with queue := q.queue ++ [value] } else .error queueIsFull

/-- `none` while the caller stays blocked. -/
def pop (q : TSQueue α) : Option (Except Exn (α × TSQueue α)) :=
  match q.queue with
  | value :: rest => some (.ok (value, { q with queue := rest }))
  | [] => if q.blocking then none else some (.error noMessages)

def setNonBlocking (q : TSQueue α) : TSQueue α := { q with blocking := false }

def setBlocking (q : TSQueue α) : TSQueue α := { q with blocking := true }

theorem push_of_room {q : TSQueue α} {value : α} (room : q.HasRoom) :
    q.push value = .ok { q with queue := q.queue ++ [value] } := if_pos room

theorem push_of_full {q : TSQueue α} {value : α} (full : ¬ q.HasRoom) :
    q.push value = .error queueIsFull := if_neg full

/-- A pop that returns takes the head of the queue. -/
theorem pop_ok {q q' : TSQueue α} {value : α} (h : q.pop = some (.ok (value, q'))) :
    q.queue = value :: q'.queue := by
  unfold pop at h
  split at h
  · cases h; assumption
  · split at h <;> cases h

/-- A pop throws on the empty queue only. -/
theorem pop_error {q : TSQueue α} {e : Exn} (h : q.pop = some (.error e)) : q.queue = [] := by
  unfold pop at h
  split at h
  · cases h
  · assumption

theorem pop_maxSize {q q' : TSQueue α} {value : α} (h : q.pop = some (.ok (value, q'))) :
    q'.maxSize = q.maxSize := by
  unfold pop at h
  split at h
  · cases h; rfl
  · split at h <;> cases h

theorem push_blocking {q q' : TSQueue α} {value : α} (h : q.push value = .ok q') : q'.blocking = q.blocking := by
  unfold push at h
  split at h <;> cases h
  rfl

theorem push_queue {q q' : TSQueue α} {value : α} (h : q.push value = .ok q') : q'.queue = q.queue ++ [value] := by
  unfold push at h
  split at h <;> cases h
  rfl

theorem pop_blocking {q q' : TSQueue α} {value : α} (h : q.pop = some (.ok (value, q'))) :
    q'.blocking = q.blocking := by
  unfold pop at h
  split at h
  · cases h; rfl
  · split at h <;> cases h

/-- A queue without a limit never overflows. -/
theorem hasRoom_unlimited {q : TSQueue α} (h : q.maxSize = 0) : q.HasRoom := by
  simp [HasRoom, h]

end TSQueue

end M2eBridge
