import M2eBridge.TSQueue
import M2eBridge.Lib.StopLoop

/-!
# Internal queues

An `InternalQueue` hands every message pushed to it to each subscriber's own
buffer. The buffers stand in a hash map, so the list `buffers` gives them in an
arbitrary iteration order; that their keys are distinct and among those taken so
far is part of the structure. `push` is a loop that a full buffer ends by an
exception, so whether every subscriber with room is served depends on that order:
`push_serves_iff`.
-/

namespace M2eBridge

/-- A subscriber's handle; `queue` points to the buffer of that key, `none` is null. -/
structure RQueue where
  id : Nat := 0
  queue : Option Nat := none
  deriving DecidableEq, Repr

/-- The bounds on the keys, where there is none. -/
theorem taken_nil : ∀ id ∈ ([] : List Nat), 0 < id ∧ id ≤ 0 := nofun

structure InternalQueue (α : Type) where
  buffers : List (Nat × TSQueue α) := []
  maxTakenKey : Nat := 0
  distinct : (buffers.map Prod.fst).Nodup := by exact List.nodup_nil
  taken : ∀ id ∈ buffers.map Prod.fst, 0 < id ∧ id ≤ maxTakenKey := by exact taken_nil

namespace InternalQueue

variable {α : Type}

/-- `std::numeric_limits<size_t>::max()`. -/
def sizeMax : Nat := UInt64.size - 1

/-- The keys in iteration order. -/
def keys (iq : InternalQueue α) : List Nat := iq.buffers.map Prod.fst

def subscribe (iq : InternalQueue α) (bufferSize : Nat) : Except Exn (RQueue × InternalQueue α) :=
  if iq.maxTakenKey = sizeMax then .error ⟨.overflowError, "Too many subscribers!"⟩
  else if fresh : iq.maxTakenKey + 1 ∈ iq.buffers.map Prod.fst then .error ⟨.runtimeError, "Can not subscribe!"⟩
  else
    .ok (⟨iq.maxTakenKey + 1, some (iq.maxTakenKey + 1)⟩,
      { buffers := (iq.maxTakenKey + 1, { maxSize := bufferSize }) :: iq.buffers
        maxTakenKey := iq.maxTakenKey + 1
        distinct := List.nodup_cons.mpr ⟨fresh, iq.distinct⟩
        taken := by
          intro id member
          rcases List.mem_cons.mp member with rfl | old
          · exact ⟨Nat.succ_pos _, Nat.le_refl _⟩
          · have := iq.taken id old; omega })

def unsubscribe (iq : InternalQueue α) (rq : RQueue) : InternalQueue α where
  buffers := iq.buffers.filter fun b => b.1 ≠ rq.id
  maxTakenKey := iq.maxTakenKey
  distinct := (List.filter_sublist.map Prod.fst).nodup iq.distinct
  taken := fun id member => iq.taken id ((List.filter_sublist.map Prod.fst).subset member)

/-- `buffer.push(msg_ptr)` on one entry of the map; `none` when it throws. -/
def pushBuffer (msg : α) (b : Nat × TSQueue α) : Option (Nat × TSQueue α) :=
  (b.2.push msg).toOption.map (b.1, ·)

theorem pushBuffer_of_room {msg : α} {b : Nat × TSQueue α} (room : b.2.HasRoom) :
    pushBuffer msg b = some (b.1, { b.2 with queue := b.2.queue ++ [msg] }) := by
  simp [pushBuffer, TSQueue.push_of_room room, Except.toOption]

theorem pushBuffer_of_full {msg : α} {b : Nat × TSQueue α} (full : ¬ b.2.HasRoom) :
    pushBuffer msg b = none := by
  simp [pushBuffer, TSQueue.push_of_full full, Except.toOption]

theorem pushBuffer_eq_none {msg : α} {b : Nat × TSQueue α} : pushBuffer msg b = none ↔ ¬ b.2.HasRoom := by
  refine ⟨fun fails room => ?_, pushBuffer_of_full⟩
  rw [pushBuffer_of_room room] at fails
  cases fails

theorem pushBuffer_key {msg : α} (b c : Nat × TSQueue α) (h : pushBuffer msg b = some c) : c.1 = b.1 := by
  obtain ⟨q, -, rfl⟩ := Option.map_eq_some_iff.mp h
  rfl

theorem pushBuffer_ne {msg : α} (b c : Nat × TSQueue α) (h : pushBuffer msg b = some c) : c ≠ b := by
  rintro rfl
  have room : c.2.HasRoom := by
    by_contra full
    rw [pushBuffer_of_full full] at h
    cases h
  rw [pushBuffer_of_room room] at h
  have same := congrArg (fun b : Nat × TSQueue α => b.2.queue.length) (Option.some.inj h)
  simp at same

/-- `push`: the buffers served before the exception stay served. -/
def push (iq : InternalQueue α) (msg : α) : Except Exn Unit × InternalQueue α :=
  let loop := Lib.stopLoop (pushBuffer msg) iq.buffers
  have keysKept : loop.1.map Prod.fst = iq.buffers.map Prod.fst := Lib.stopLoop_map pushBuffer_key iq.buffers
  (if loop.2 then .ok () else .error TSQueue.queueIsFull,
    { buffers := loop.1
      maxTakenKey := iq.maxTakenKey
      distinct := keysKept ▸ iq.distinct
      taken := keysKept ▸ iq.taken })

@[simp] theorem push_buffers (iq : InternalQueue α) (msg : α) :
    (iq.push msg).2.buffers = (Lib.stopLoop (pushBuffer msg) iq.buffers).1 := rfl

/-- Some subscriber's buffer is full. -/
def SomeFull (iq : InternalQueue α) : Prop := ∃ b ∈ iq.buffers, ¬ b.2.HasRoom

/-- In iteration order no full buffer comes before one with room. -/
def RoomFirst (iq : InternalQueue α) : Prop :=
  iq.buffers.Pairwise fun a b => ¬ a.2.HasRoom → ¬ b.2.HasRoom

instance (iq : InternalQueue α) : Decidable iq.SomeFull := inferInstanceAs (Decidable (∃ b ∈ _, _))

instance (iq : InternalQueue α) : Decidable iq.RoomFirst := inferInstanceAs (Decidable (List.Pairwise _ _))

/-- `push` throws exactly when some buffer is full. -/
theorem push_throws_iff {iq : InternalQueue α} {msg : α} :
    (iq.push msg).1 = .error TSQueue.queueIsFull ↔ iq.SomeFull := by
  have finished := Lib.stopLoop_finished (f := pushBuffer msg) (l := iq.buffers)
  cases h : (Lib.stopLoop (pushBuffer msg) iq.buffers).2 with
  | true =>
    have served := finished.mp h
    simp only [push, h, if_true, reduceCtorEq, false_iff]
    rintro ⟨b, member, full⟩
    have := served b member
    rw [pushBuffer_of_full full] at this
    cases this
  | false =>
    simp only [push, h, Bool.false_eq_true, if_false, true_iff]
    by_contra room
    rw [finished.mpr] at h
    · cases h
    · intro b member
      rw [pushBuffer_of_room (not_not.mp fun full => room ⟨b, member, full⟩)]
      rfl

/-- `push` returns when none is. -/
theorem push_returns_iff {iq : InternalQueue α} {msg : α} : (iq.push msg).1 = .ok () ↔ ¬ iq.SomeFull := by
  have throws : (iq.push msg).1 = .error TSQueue.queueIsFull ↔ iq.SomeFull := push_throws_iff
  rw [← throws]
  simp only [push]
  split <;> simp

/-- Every subscriber whose buffer had room has the message appended, once: its key
stands for one buffer, which is the old one with the message behind it. -/
def Serves (iq : InternalQueue α) (msg : α) (after : InternalQueue α) : Prop :=
  ∀ id q, (id, q) ∈ iq.buffers → q.HasRoom → (id, { q with queue := q.queue ++ [msg] }) ∈ after.buffers

/-- A full buffer is left as it was. -/
theorem push_keeps_full {iq : InternalQueue α} {msg : α} {b : Nat × TSQueue α} (member : b ∈ iq.buffers)
    (full : ¬ b.2.HasRoom) : b ∈ (iq.push msg).2.buffers :=
  Lib.failing_mem_stopLoop (pushBuffer_of_full full) member

theorem roomFirst_iff_failsLast {iq : InternalQueue α} {msg : α} :
    iq.RoomFirst ↔ Lib.FailsLast (pushBuffer msg) iq.buffers := by
  simp only [RoomFirst, Lib.FailsLast, pushBuffer_eq_none]

/-- The loop serves every subscriber with room exactly when, in the iteration order
of the buffers, no full one comes before one with room. -/
theorem serves_iff_roomFirst {iq : InternalQueue α} {msg : α} : iq.Serves msg (iq.push msg).2 ↔ iq.RoomFirst := by
  have order : iq.RoomFirst ↔ Lib.FailsLast (pushBuffer msg) iq.buffers := roomFirst_iff_failsLast
  rw [order, ← Lib.updated_iff pushBuffer_key pushBuffer_ne iq.distinct]
  constructor
  · intro serves b member c hc
    by_cases room : b.2.HasRoom
    · rw [pushBuffer_of_room room] at hc
      exact Option.some.inj hc ▸ serves b.1 b.2 member room
    · rw [pushBuffer_of_full room] at hc
      cases hc
  · intro updated id q member room
    exact updated (id, q) member _ (pushBuffer_of_room room)

/-- A buffer behind the push that is longer than before has the pushed message at its end. -/
theorem push_appended {iq : InternalQueue α} {msg m : α} {id : Nat} {q : TSQueue α} (member : (id, q) ∈ iq.buffers)
    (after : (id, { q with queue := q.queue ++ [m] }) ∈ (iq.push msg).2.buffers) : m = msg := by
  rcases Lib.mem_stopLoop after with old | ⟨⟨id', q'⟩, inside, pushed⟩
  · have same := List.inj_on_of_nodup_map iq.distinct old member rfl
    have lengths := congrArg (fun b : Nat × TSQueue α => b.2.queue.length) same
    simp at lengths
  · have key := pushBuffer_key _ _ pushed
    cases List.inj_on_of_nodup_map iq.distinct inside member key.symm
    by_cases room : q.HasRoom
    · rw [pushBuffer_of_room room] at pushed
      have same := congrArg (fun b : Nat × TSQueue α => b.2.queue) (Option.some.inj pushed)
      simpa using same.symm
    · rw [pushBuffer_of_full room] at pushed
      cases pushed

/-- **Fan-out.** A push serves every subscriber with room exactly when no full buffer
comes before one with room; it throws when one is full, and leaves the full ones alone. -/
theorem push_serves_iff (iq : InternalQueue α) (msg : α) :
    (iq.Serves msg (iq.push msg).2 ↔ iq.RoomFirst) ∧
    ((iq.push msg).1 = .error TSQueue.queueIsFull ↔ iq.SomeFull) ∧
    ∀ b ∈ iq.buffers, ¬ b.2.HasRoom → b ∈ (iq.push msg).2.buffers :=
  ⟨serves_iff_roomFirst, push_throws_iff, fun _ member full => push_keeps_full member full⟩

/-- Two subscribers with limit 1: the full buffer comes first in the map, and the
other subscriber, whose buffer is empty, does not get the message. -/
theorem full_buffer_starves_another :
    ¬ ∀ (iq : InternalQueue String) (msg : String), iq.Serves msg (iq.push msg).2 := by
  intro all
  let iq : InternalQueue String :=
    { buffers := [(2, { maxSize := 1, queue := ["old"] }), (1, { maxSize := 1 })]
      maxTakenKey := 2
      distinct := by decide
      taken := by decide }
  have served := all iq "new" 1 { maxSize := 1 } (by decide) (by decide)
  have lost : (1, { maxSize := 1, queue := ["new"] }) ∉ (iq.push "new").2.buffers := by decide
  exact lost served

end InternalQueue

end M2eBridge
