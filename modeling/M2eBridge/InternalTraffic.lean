import M2eBridge.InternalQueue
import M2eBridge.Lib.Runs
import Mathlib.Data.List.Sort
import Mathlib.Logic.Function.Basic

/-!
# Interleavings on an internal queue

`subscribe` and `unsubscribe` hold `buffers_mtx_` exclusively, `push` holds it
shared: any number of pushes may walk the map at once, each giving its message to
one buffer after the other, and no subscription changes while one of them does.
A push is therefore three kinds of step here (begin, deliver to the next buffer,
end), the other operations are one step each. Messages carry the number of their
push. `begun`, `issued`, `since` and `popped` are history: no operation reads them.

Since two pushes may overlap, two subscribers may get them in opposite orders
(`overlapping_pushes_disagree`); what every subscriber gets is `traffic_window`.
-/

namespace M2eBridge

namespace InternalQueue

variable {α : Type}

/-- The same buffers in another iteration order, as after a rehash. -/
def arrange (rank : Nat → Nat) (iq : InternalQueue α) : InternalQueue α :=
  have perm := List.perm_insertionSort (fun a b : Nat × TSQueue α => rank a.1 ≤ rank b.1) iq.buffers
  { buffers := iq.buffers.insertionSort fun a b => rank a.1 ≤ rank b.1
    maxTakenKey := iq.maxTakenKey
    distinct := ((perm.map Prod.fst).nodup_iff).mpr iq.distinct
    taken := fun id member => iq.taken id ((perm.map Prod.fst).subset member) }

/-- Changing the value under one key leaves the keys alone. -/
theorem map_fst_changed {β : Type} (l : List (Nat × β)) (id : Nat) (f : β → β) :
    (l.map fun b => if b.1 = id then (b.1, f b.2) else b).map Prod.fst = l.map Prod.fst := by
  rw [List.map_map]
  apply List.map_congr_left
  intro b _
  dsimp only [Function.comp]
  split <;> rfl

/-- The buffer of key `id` replaced by `f` of it. -/
def onBuffer (iq : InternalQueue α) (id : Nat) (f : TSQueue α → TSQueue α) : InternalQueue α where
  buffers := iq.buffers.map fun b => if b.1 = id then (b.1, f b.2) else b
  maxTakenKey := iq.maxTakenKey
  distinct := map_fst_changed iq.buffers id f ▸ iq.distinct
  taken := map_fst_changed iq.buffers id f ▸ iq.taken

@[simp] theorem keys_onBuffer (iq : InternalQueue α) (id : Nat) (f : TSQueue α → TSQueue α) :
    (iq.onBuffer id f).keys = iq.keys := map_fst_changed iq.buffers id f

theorem mem_arrange {rank : Nat → Nat} {iq : InternalQueue α} {b : Nat × TSQueue α} :
    b ∈ (iq.arrange rank).buffers ↔ b ∈ iq.buffers :=
  (List.perm_insertionSort _ iq.buffers).mem_iff

/-- One key, one buffer. -/
theorem buffer_unique {iq : InternalQueue α} {id : Nat} {p q : TSQueue α} (hp : (id, p) ∈ iq.buffers)
    (hq : (id, q) ∈ iq.buffers) : p = q :=
  (Prod.mk.inj (List.inj_on_of_nodup_map iq.distinct hp hq rfl)).2

theorem mem_keys {iq : InternalQueue α} {id : Nat} : id ∈ iq.keys ↔ ∃ q, (id, q) ∈ iq.buffers := by
  simp [keys]

theorem mem_onBuffer {iq : InternalQueue α} {id key : Nat} {f : TSQueue α → TSQueue α} {q : TSQueue α} :
    (key, q) ∈ (iq.onBuffer id f).buffers ↔
      ∃ p, (key, p) ∈ iq.buffers ∧ q = if key = id then f p else p := by
  simp only [onBuffer, List.mem_map, Prod.exists]
  constructor
  · rintro ⟨k, p, member, same⟩
    by_cases own : k = id
    · rw [if_pos own] at same
      cases same
      exact ⟨_, member, (if_pos own).symm⟩
    · rw [if_neg own] at same
      cases same
      exact ⟨_, member, (if_neg own).symm⟩
  · rintro ⟨p, member, rfl⟩
    refine ⟨key, p, member, ?_⟩
    split <;> rfl

theorem mem_unsubscribe {iq : InternalQueue α} {rq : RQueue} {b : Nat × TSQueue α} :
    b ∈ (iq.unsubscribe rq).buffers ↔ b ∈ iq.buffers ∧ b.1 ≠ rq.id := by
  simp [unsubscribe]

/-- A handle that was never subscribed removes nothing. -/
theorem unsubscribe_unknown {iq : InternalQueue α} {rq : RQueue} (unknown : rq.id ∉ iq.keys) :
    (iq.unsubscribe rq).buffers = iq.buffers :=
  List.filter_eq_self.mpr fun b member =>
    decide_eq_true fun same => unknown (same ▸ List.mem_map.mpr ⟨b, member, rfl⟩)

/-- What a successful subscription does. -/
theorem subscribe_cases {iq after : InternalQueue α} {bufferSize : Nat} {rq : RQueue}
    (h : iq.subscribe bufferSize = .ok (rq, after)) :
    rq = ⟨iq.maxTakenKey + 1, some (iq.maxTakenKey + 1)⟩ ∧ after.maxTakenKey = iq.maxTakenKey + 1 ∧
      after.buffers = (iq.maxTakenKey + 1, { maxSize := bufferSize }) :: iq.buffers := by
  unfold subscribe at h
  split at h
  · cases h
  · split at h
    · cases h
    · cases h
      exact ⟨rfl, rfl, rfl⟩

end InternalQueue

/-! ## The step relation -/

/-- A push that has begun: its message, and the pushes that were under way at that moment. -/
structure Begun (α : Type) where
  msg : α
  overlapping : List Nat
  deriving DecidableEq, Repr

structure Traffic (α : Type) where
  iq : InternalQueue (Nat × α) := {}
  /-- The pushes under way, which hold the lock shared. -/
  pushing : List Nat := []
  /-- The keys that a push has still to visit. -/
  rest : Nat → List Nat := fun _ => []
  begun : List (Begun α) := []
  /-- The ids that `subscribe` has returned. -/
  issued : List Nat := []
  /-- How many pushes had begun at the subscription of an id. -/
  since : Nat → Nat := fun _ => 0
  popped : Nat → List (Nat × α) := fun _ => []

namespace Traffic

open Function (update)

variable {α : Type}

inductive Action (α : Type) where
  | subscribe (bufferSize : Nat) (rank : Nat → Nat)
  | unsubscribe (rq : RQueue)
  | pushBegin (msg : α)
  | deliver (number : Nat)
  | pushEnd (number : Nat)
  | pop (rq : RQueue)

/-- The subscription: the insertion may put the map in another order. -/
def subscribe (s : Traffic α) (bufferSize : Nat) (rank : Nat → Nat) : Option (Traffic α) :=
  if s.pushing ≠ [] then none
  else
    match s.iq.subscribe bufferSize with
    | .ok (rq, iq) =>
      some { s with
        iq := iq.arrange rank
        issued := rq.id :: s.issued
        since := update s.since rq.id s.begun.length
        popped := update s.popped rq.id [] }
    | .error _ => some s

def unsubscribe (s : Traffic α) (rq : RQueue) : Option (Traffic α) :=
  if s.pushing ≠ [] then none else some { s with iq := s.iq.unsubscribe rq }

def pushBegin (s : Traffic α) (msg : α) : Option (Traffic α) :=
  some { s with
    pushing := s.begun.length :: s.pushing
    rest := update s.rest s.begun.length s.iq.keys
    begun := s.begun ++ [⟨msg, s.pushing⟩] }

/-- One turn of the loop of `push`, for a buffer that does not overflow. -/
def deliver (s : Traffic α) (number : Nat) : Option (Traffic α) :=
  match s.begun[number]?, s.rest number with
  | some b, id :: rest =>
    match s.iq.buffers.lookup id with
    | some q =>
      if q.HasRoom then
        some { s with
          iq := s.iq.onBuffer id fun q => { q with queue := q.queue ++ [(number, b.msg)] }
          rest := update s.rest number rest }
      else none
    | none => none
  | _, _ => none

def pushEnd (s : Traffic α) (number : Nat) : Option (Traffic α) :=
  if s.rest number = [] then some { s with pushing := s.pushing.erase number } else none

/-- A pop through a live handle; one that throws changes nothing. -/
def pop (s : Traffic α) (rq : RQueue) : Option (Traffic α) :=
  match s.iq.buffers.lookup rq.id with
  | some q =>
    match q.pop with
    | some (.ok (value, q')) =>
      some { s with
        iq := s.iq.onBuffer rq.id fun _ => q'
        popped := update s.popped rq.id (s.popped rq.id ++ [value]) }
    | some (.error _) => some s
    | none => none
  | none => none

def step : Action α → Traffic α → Option (Traffic α)
  | .subscribe bufferSize rank, s => s.subscribe bufferSize rank
  | .unsubscribe rq, s => s.unsubscribe rq
  | .pushBegin msg, s => s.pushBegin msg
  | .deliver number, s => s.deliver number
  | .pushEnd number, s => s.pushEnd number
  | .pop rq, s => s.pop rq

/-- `l` is what the live subscriber `id` has popped, followed by its buffer. -/
def Sequence (s : Traffic α) (id : Nat) (l : List (Nat × α)) : Prop :=
  ∃ q, (id, q) ∈ s.iq.buffers ∧ l = s.popped id ++ q.queue

/-- Push `m` had ended when push `n` began. -/
def Precedes (s : Traffic α) (m n : Nat) : Prop :=
  ∃ b, s.begun[n]? = some b ∧ m < n ∧ m ∉ b.overlapping

/-- What a subscriber gets: each push begun since its subscription, once and with
its message, except those that have not come to its buffer yet; and never a push
before one that had ended when it began. -/
structure Window (s : Traffic α) (id : Nat) (l : List (Nat × α)) : Prop where
  once : (l.map Prod.fst).Nodup
  pushed : ∀ n, n ∈ l.map Prod.fst ↔ s.since id ≤ n ∧ n < s.begun.length ∧ id ∉ s.rest n
  message : ∀ x ∈ l, ∃ b, s.begun[x.1]? = some b ∧ b.msg = x.2
  order : l.Pairwise fun x y => ¬ s.Precedes y.1 x.1

/-! ## A push that nothing interleaves -/

/-- The turn of the loop that comes to the buffer behind `served`. -/
theorem deliver_next {s : Traffic α} {number id : Nat} {b : Begun α} {q : TSQueue (Nat × α)}
    {served waiting : List (Nat × TSQueue (Nat × α))} {rest : List Nat} (begun : s.begun[number]? = some b)
    (split : s.iq.buffers = served ++ (id, q) :: waiting) (visits : s.rest number = id :: rest) (room : q.HasRoom) :
    ∃ t, s.deliver number = some t ∧ t.begun = s.begun ∧ t.rest number = rest ∧
      t.iq.buffers = served ++ (id, { q with queue := q.queue ++ [(number, b.msg)] }) :: waiting := by
  have distinct := s.iq.distinct
  rw [split, List.map_append, List.nodup_append, List.map_cons, List.nodup_cons] at distinct
  obtain ⟨-, ⟨later, -⟩, earlier⟩ := distinct
  have notServed : ∀ x ∈ served, x.1 ≠ id := fun x member same =>
    earlier x.1 (List.mem_map_of_mem member) id List.mem_cons_self same
  have notWaiting : ∀ x ∈ waiting, x.1 ≠ id := fun x member same =>
    later (List.mem_map.mpr ⟨x, member, same⟩)
  have found : s.iq.buffers.lookup id = some q :=
    List.lookup_eq_some_iff.mpr ⟨served, waiting, split, fun x member => by simpa using (notServed x member).symm⟩
  let f : TSQueue (Nat × α) → TSQueue (Nat × α) := fun q => { q with queue := q.queue ++ [(number, b.msg)] }
  refine ⟨{ s with iq := s.iq.onBuffer id f, rest := update s.rest number rest }, ?_, rfl,
    Function.update_self .., ?_⟩
  · simp only [Traffic.deliver, begun, visits, found, room, if_true, f]
  have keep : ∀ l : List (Nat × TSQueue (Nat × α)), (∀ x ∈ l, x.1 ≠ id) →
      (l.map fun x => if x.1 = id then (x.1, f x.2) else x) = l :=
    fun l other => (List.map_congr_left fun x member => if_neg (other x member)).trans (List.map_id l)
  simp only [InternalQueue.onBuffer, split, List.map_append, List.map_cons, if_true, keep _ notServed,
    keep _ notWaiting, f]

theorem deliver_rest {s : Traffic α} {number : Nat} {b : Begun α}
    {served waiting : List (Nat × TSQueue (Nat × α))} (begun : s.begun[number]? = some b)
    (split : s.iq.buffers = served ++ waiting) (visits : s.rest number = waiting.map Prod.fst)
    (room : ∀ x ∈ waiting, x.2.HasRoom) :
    ∃ t, Lib.exec step (List.replicate waiting.length (.deliver number)) s = some t ∧ t.rest number = [] ∧
      t.iq.buffers = served ++ waiting.map fun x => (x.1, { x.2 with queue := x.2.queue ++ [(number, b.msg)] }) := by
  induction waiting generalizing s served with
  | nil => exact ⟨s, rfl, visits, split⟩
  | cons x waiting ih =>
    obtain ⟨id, q⟩ := x
    obtain ⟨u, first, begun', visits', split'⟩ := deliver_next begun split visits (room _ List.mem_cons_self)
    obtain ⟨t, later, done, buffers⟩ := ih (begun' ▸ begun)
      (split'.trans (List.append_cons served _ waiting)) visits' fun x member => room x (List.mem_cons_of_mem _ member)
    refine ⟨t, ?_, done, by simp [buffers]⟩
    change (s.deliver number).bind _ = _
    rw [first]
    exact later

/-- Alone on the queue, a push that overflows no buffer is the `push` of one step. -/
theorem push_alone (s : Traffic α) (msg : α) (room : ¬ s.iq.SomeFull) :
    ∃ t, Lib.exec step (.pushBegin msg :: List.replicate s.iq.buffers.length (.deliver s.begun.length)) s = some t ∧
      t.rest s.begun.length = [] ∧ t.iq.buffers = (s.iq.push (s.begun.length, msg)).2.buffers := by
  have room : ∀ x ∈ s.iq.buffers, x.2.HasRoom := fun x member =>
    not_not.mp fun full => room ⟨x, member, full⟩
  let u : Traffic α :=
    { s with
      pushing := s.begun.length :: s.pushing
      rest := update s.rest s.begun.length s.iq.keys
      begun := s.begun ++ [⟨msg, s.pushing⟩] }
  obtain ⟨t, run, done, buffers⟩ := deliver_rest (s := u) (b := ⟨msg, s.pushing⟩) (by simp [u])
    (List.nil_append _).symm (Function.update_self ..) room
  refine ⟨t, run, done, ?_⟩
  rw [buffers, InternalQueue.push_buffers, Lib.stopLoop_eq_map fun x member =>
    InternalQueue.pushBuffer_of_room (room x member)]
  rfl

/-! ## The invariant -/

structure Inv (s : Traffic α) : Prop where
  issued : s.issued.Nodup
  issuedTaken : ∀ id ∈ s.issued, 0 < id ∧ id ≤ s.iq.maxTakenKey
  live : ∀ id ∈ s.iq.keys, id ∈ s.issued
  since : ∀ id, s.since id ≤ s.begun.length
  /-- A buffer still to be visited belongs to a subscription older than the push. -/
  pending : ∀ n, ∀ id ∈ s.rest n, s.since id ≤ n ∧ n < s.begun.length ∧ id ∈ s.issued
  restOnce : ∀ n, (s.rest n).Nodup
  underWay : ∀ n, s.rest n ≠ [] → n ∈ s.pushing
  /-- A push with buffers to visit overlaps all that began after it. -/
  overlaps : ∀ n, s.rest n ≠ [] → ∀ k b, s.begun[k]? = some b → n < k → n ∈ b.overlapping
  window : ∀ id l, s.Sequence id l → s.Window id l

theorem inv_empty : Inv ({} : Traffic α) where
  issued := .nil
  issuedTaken := nofun
  live := nofun
  since := fun _ => Nat.le_refl _
  pending := nofun
  restOnce := fun _ => .nil
  underWay := fun _ some => absurd rfl some
  overlaps := fun _ some => absurd rfl some
  window := fun _ _ ⟨_, member, _⟩ => nomatch member

theorem mem_of_lookup {iq : InternalQueue (Nat × α)} {id : Nat} {q : TSQueue (Nat × α)}
    (h : iq.buffers.lookup id = some q) : (id, q) ∈ iq.buffers := by
  obtain ⟨before, after, split, -⟩ := List.lookup_eq_some_iff.mp h
  simp [split]

/-- A window reads the history of its own subscription only. -/
theorem Window.congr {s t : Traffic α} {id : Nat} {l : List (Nat × α)} (window : s.Window id l)
    (since : t.since id = s.since id) (begun : t.begun = s.begun) (rest : ∀ n, id ∈ t.rest n ↔ id ∈ s.rest n) :
    t.Window id l where
  once := window.once
  pushed := fun n => by rw [window.pushed, since, begun, rest]
  message := by rw [begun]; exact window.message
  order := by simpa only [Precedes, begun] using window.order

/-- Nothing has been pushed since this very moment. -/
theorem Window.fresh {t : Traffic α} {id : Nat} (since : t.since id = t.begun.length) : t.Window id [] where
  once := .nil
  pushed := fun _ => ⟨nofun, fun ⟨lower, upper, _⟩ => absurd upper (Nat.not_lt.mpr (since ▸ lower))⟩
  message := nofun
  order := .nil

/-- A push that begins has still to come to the subscriber. -/
theorem Window.pushBegin {s t : Traffic α} {id : Nat} {l : List (Nat × α)} {b : Begun α} (window : s.Window id l)
    (since : t.since id = s.since id) (begun : t.begun = s.begun ++ [b]) (visits : id ∈ t.rest s.begun.length)
    (rest : ∀ n, n ≠ s.begun.length → t.rest n = s.rest n) : t.Window id l := by
  have bound : ∀ x ∈ l, x.1 < s.begun.length := fun x hx => ((window.pushed x.1).mp (List.mem_map_of_mem hx)).2.1
  refine ⟨window.once, fun n => ?_, fun x hx => ?_, window.order.imp_of_mem ?_⟩
  · rw [window.pushed, since, begun, List.length_append, List.length_singleton]
    by_cases new : n = s.begun.length
    · simp [new, visits]
    · rw [rest n new]
      exact ⟨fun ⟨lower, upper, passed⟩ => ⟨lower, by omega, passed⟩,
        fun ⟨lower, upper, passed⟩ => ⟨lower, by omega, passed⟩⟩
  · rw [begun, List.getElem?_append_left (bound x hx)]
    exact window.message x hx
  · rintro x y hx - apart ⟨b, later, before⟩
    rw [begun, List.getElem?_append_left (bound x hx)] at later
    exact apart ⟨b, later, before⟩

/-- A push comes to the subscriber, which all that began behind it overlap. -/
theorem Window.deliver {s t : Traffic α} {id number : Nat} {l : List (Nat × α)} {b : Begun α} (window : s.Window id l)
    (since : t.since id = s.since id) (same : t.begun = s.begun) (begun : s.begun[number]? = some b)
    (pending : s.since id ≤ number ∧ number < s.begun.length) (expected : id ∈ s.rest number)
    (overlaps : ∀ k b, s.begun[k]? = some b → number < k → number ∈ b.overlapping)
    (visited : id ∉ t.rest number) (rest : ∀ n, n ≠ number → t.rest n = s.rest n) :
    t.Window id (l ++ [(number, b.msg)]) := by
  have absent : number ∉ l.map Prod.fst := fun already => ((window.pushed number).mp already).2.2 expected
  refine ⟨?_, fun n => ?_, fun x hx => ?_, ?_⟩
  · rw [List.map_append, List.nodup_append]
    refine ⟨window.once, by simp, ?_⟩
    rintro n hn m hm rfl
    simp only [List.map_cons, List.map_nil, List.mem_singleton] at hm
    exact absent (hm ▸ hn)
  · rw [List.map_append, List.mem_append, window.pushed, since, same]
    by_cases here : n = number
    · simp [here, visited, pending.1, pending.2]
    · simp [here, rest n here]
  · rw [same]
    rcases List.mem_append.mp hx with earlier | last
    · exact window.message x earlier
    · cases List.mem_singleton.mp last
      exact ⟨b, begun, rfl⟩
  · -- no push that the subscriber has already got began after this one had ended
    have order : l.Pairwise fun x y => ¬ t.Precedes y.1 x.1 := by simpa only [Precedes, same] using window.order
    refine List.pairwise_append.mpr ⟨order, List.pairwise_singleton _ _, ?_⟩
    rintro x - y hy ⟨b', begun', before, ended⟩
    cases List.mem_singleton.mp hy
    exact ended (overlaps x.1 b' (same ▸ begun') before)

theorem Inv.subscribe {s t : Traffic α} {bufferSize : Nat} {rank : Nat → Nat} (inv : s.Inv)
    (h : s.subscribe bufferSize rank = some t) : t.Inv := by
  unfold Traffic.subscribe at h
  split at h
  · cases h
  split at h
  case h_2 => cases h; exact inv
  rename_i rq iq subscribed
  obtain ⟨rfl, top, buffers⟩ := InternalQueue.subscribe_cases subscribed
  cases h
  have fresh : s.iq.maxTakenKey + 1 ∉ s.issued := by
    intro old
    have := inv.issuedTaken _ old
    omega
  have other : ∀ id ∈ s.issued, id ≠ s.iq.maxTakenKey + 1 := fun id old same => fresh (same ▸ old)
  refine
    { issued := List.nodup_cons.mpr ⟨fresh, inv.issued⟩
      issuedTaken := fun id member => ?_
      live := fun id member => ?_
      since := fun id => ?_
      pending := fun n id member => ?_
      restOnce := inv.restOnce
      underWay := inv.underWay
      overlaps := inv.overlaps
      window := ?_ }
  · change 0 < id ∧ id ≤ iq.maxTakenKey
    rcases List.mem_cons.mp member with rfl | old
    · exact ⟨Nat.succ_pos _, top.ge⟩
    · have := inv.issuedTaken id old; omega
  · obtain ⟨q, member⟩ := InternalQueue.mem_keys.mp member
    rw [InternalQueue.mem_arrange, buffers] at member
    rcases List.mem_cons.mp member with new | old
    · cases new; exact List.mem_cons_self
    · exact List.mem_cons_of_mem _ (inv.live id (InternalQueue.mem_keys.mpr ⟨q, old⟩))
  · by_cases new : id = s.iq.maxTakenKey + 1
    · simp [new]
    · simpa [update, new] using inv.since id
  · obtain ⟨lower, upper, old⟩ := inv.pending n id member
    exact ⟨by simpa [update, other id old] using lower, upper, List.mem_cons_of_mem _ old⟩
  · rintro id l ⟨q, member, rfl⟩
    rw [InternalQueue.mem_arrange, buffers] at member
    rcases List.mem_cons.mp member with new | old
    · cases new
      simp only [Function.update_self, List.nil_append]
      exact .fresh (Function.update_self ..)
    · have different := other id (inv.live id (InternalQueue.mem_keys.mpr ⟨q, old⟩))
      simp only [update, different, dite_false]
      exact (inv.window id _ ⟨q, old, rfl⟩).congr (by simp [update, different]) rfl fun _ => Iff.rfl

theorem Inv.unsubscribe {s t : Traffic α} {rq : RQueue} (inv : s.Inv) (h : s.unsubscribe rq = some t) :
    t.Inv := by
  unfold Traffic.unsubscribe at h
  split at h
  · cases h
  cases h
  refine { inv with
    live := fun id member => ?_
    window := fun id l ⟨q, member, same⟩ => ?_ }
  · obtain ⟨q, member⟩ := InternalQueue.mem_keys.mp member
    exact inv.live id (InternalQueue.mem_keys.mpr ⟨q, (InternalQueue.mem_unsubscribe.mp member).1⟩)
  · exact (inv.window id l ⟨q, (InternalQueue.mem_unsubscribe.mp member).1, same⟩).congr rfl rfl fun _ => Iff.rfl

theorem Inv.pushBegin {s t : Traffic α} {msg : α} (inv : s.Inv) (h : s.pushBegin msg = some t) : t.Inv := by
  cases h
  refine
    { issued := inv.issued
      issuedTaken := inv.issuedTaken
      live := inv.live
      since := fun id => by have := inv.since id; simp; omega
      pending := fun n id member => ?_
      restOnce := fun n => ?_
      underWay := fun n some => ?_
      overlaps := fun n some k b begun before => ?_
      window := ?_ }
  · by_cases new : n = s.begun.length
    · subst new
      simp only [Function.update_self] at member
      exact ⟨inv.since id, by simp, inv.live id member⟩
    · simp only [ne_eq, new, not_false_eq_true, Function.update_of_ne] at member
      obtain ⟨lower, upper, old⟩ := inv.pending n id member
      exact ⟨lower, by simp; omega, old⟩
  · by_cases new : n = s.begun.length
    · simpa [new, InternalQueue.keys] using s.iq.distinct
    · simpa [update, new] using inv.restOnce n
  · by_cases new : n = s.begun.length
    · exact List.mem_cons.mpr (.inl new)
    · refine List.mem_cons_of_mem _ (inv.underWay n ?_)
      simpa [update, new] using some
  · change (s.begun ++ [_])[k]? = _ at begun
    have upper : k < (s.begun ++ [(⟨msg, s.pushing⟩ : Begun α)]).length := (List.getElem?_eq_some_iff.mp begun).1
    simp only [List.length_append, List.length_cons, List.length_nil] at upper
    have old : s.rest n ≠ [] := by
      have different : n ≠ s.begun.length := by omega
      simpa [update, different] using some
    by_cases new : k = s.begun.length
    · -- the new push overlaps every one that is under way
      subst new
      simp only [List.getElem?_concat_length, Option.some.injEq] at begun
      exact begun ▸ inv.underWay n old
    · rw [List.getElem?_append_left (by omega)] at begun
      exact inv.overlaps n old k b begun before
  · rintro id l ⟨q, member, rfl⟩
    have visits : id ∈ s.iq.keys := InternalQueue.mem_keys.mpr ⟨q, member⟩
    refine (inv.window id _ ⟨q, member, rfl⟩).pushBegin rfl rfl ?_ fun n new => Function.update_of_ne new ..
    simpa using visits

theorem Inv.deliver {s t : Traffic α} {number : Nat} (inv : s.Inv) (h : s.deliver number = some t) : t.Inv := by
  unfold Traffic.deliver at h
  split at h
  case h_2 => cases h
  rename_i b id rest begun visits
  split at h
  case h_2 => cases h
  rename_i q found
  split at h
  case isFalse => cases h
  cases h
  have member := mem_of_lookup found
  have mono : ∀ n, update s.rest number rest n ⊆ s.rest n := by
    intro n
    by_cases own : n = number
    · subst own; simp [visits]
    · simp [update, own]
  have stillSome : ∀ n, update s.rest number rest n ≠ [] → s.rest n ≠ [] := fun n some none =>
    some (List.subset_nil.mp (none ▸ mono n))
  have onceMore : id ∉ rest ∧ rest.Nodup := List.nodup_cons.mp (visits ▸ inv.restOnce number)
  have expected : id ∈ s.rest number := visits ▸ List.mem_cons_self
  refine
    { issued := inv.issued
      issuedTaken := inv.issuedTaken
      live := fun id' new => inv.live id' (InternalQueue.keys_onBuffer s.iq id _ ▸ new)
      since := inv.since
      pending := fun n id' new => inv.pending n id' (mono n new)
      restOnce := fun n => ?_
      underWay := fun n some => inv.underWay n (stillSome n some)
      overlaps := fun n some => inv.overlaps n (stillSome n some)
      window := ?_ }
  · by_cases own : n = number
    · simpa [own] using onceMore.2
    · simpa [update, own] using inv.restOnce n
  · rintro id' l ⟨q', new, rfl⟩
    obtain ⟨p, old, rfl⟩ := InternalQueue.mem_onBuffer.mp new
    have window := inv.window id' _ ⟨p, old, rfl⟩
    by_cases own : id' = id
    · subst own
      rw [if_pos rfl]
      dsimp only
      rw [← List.append_assoc]
      have before := inv.pending number id' expected
      refine window.deliver rfl rfl begun ⟨before.1, before.2.1⟩ expected
        (inv.overlaps number (List.ne_nil_of_mem expected)) ?_ fun n other => Function.update_of_ne other ..
      simpa using onceMore.1
    · rw [if_neg own]
      refine window.congr rfl rfl fun n => ?_
      by_cases same : n = number
      · subst same
        simp [visits, own]
      · simp [update, same]

theorem Inv.pushEnd {s t : Traffic α} {number : Nat} (inv : s.Inv) (h : s.pushEnd number = some t) : t.Inv := by
  unfold Traffic.pushEnd at h
  split at h
  case isFalse => cases h
  rename_i finished
  cases h
  refine { inv with
    underWay := fun n some => (List.mem_erase_of_ne fun same => ?_).mpr (inv.underWay n some)
    window := fun id l sequence => (inv.window id l sequence).congr rfl rfl fun _ => Iff.rfl }
  exact some (same ▸ finished)

/-- A pop moves the head of the buffer behind what was popped before. -/
theorem pop_sequence {s t : Traffic α} {rq : RQueue} (h : s.pop rq = some t) (id : Nat) (l : List (Nat × α)) :
    t.Sequence id l ↔ s.Sequence id l := by
  unfold Traffic.pop at h
  split at h
  case h_2 => cases h
  rename_i q found
  have member := mem_of_lookup found
  split at h
  case h_2 => cases h; exact Iff.rfl
  case h_3 => cases h
  case h_1 value q' taken =>
    have queue := TSQueue.pop_ok taken
    cases h
    unfold Sequence
    simp only [InternalQueue.mem_onBuffer]
    by_cases own : id = rq.id
    · subst own
      simp only [Function.update_self, if_true]
      constructor
      · rintro ⟨_, ⟨p, -, rfl⟩, rfl⟩
        exact ⟨q, member, by simp [queue]⟩
      · rintro ⟨p, old, rfl⟩
        cases InternalQueue.buffer_unique old member
        exact ⟨_, ⟨q, member, rfl⟩, by simp [queue]⟩
    · simp only [update, own, dite_false, if_false]
      exact ⟨fun ⟨_, ⟨p, old, same⟩, eq⟩ => ⟨p, old, same ▸ eq⟩, fun ⟨p, old, eq⟩ => ⟨p, ⟨p, old, rfl⟩, eq⟩⟩

/-- A pop writes nothing else. -/
theorem pop_history {s t : Traffic α} {rq : RQueue} (h : s.pop rq = some t) :
    t.iq.keys = s.iq.keys ∧ t.iq.maxTakenKey = s.iq.maxTakenKey ∧ t.pushing = s.pushing ∧ t.rest = s.rest ∧
      t.begun = s.begun ∧ t.issued = s.issued ∧ t.since = s.since := by
  unfold Traffic.pop at h
  split at h
  case h_2 => cases h
  split at h <;> cases h
  · exact ⟨InternalQueue.keys_onBuffer .., rfl, rfl, rfl, rfl, rfl, rfl⟩
  · exact ⟨rfl, rfl, rfl, rfl, rfl, rfl, rfl⟩

theorem Inv.pop {s t : Traffic α} {rq : RQueue} (inv : s.Inv) (h : s.pop rq = some t) : t.Inv := by
  obtain ⟨keys, top, pushing, rest, begun, issued, since⟩ := pop_history h
  refine
    { issued := issued ▸ inv.issued
      issuedTaken := by rw [issued, top]; exact inv.issuedTaken
      live := by rw [keys, issued]; exact inv.live
      since := by rw [since, begun]; exact inv.since
      pending := by rw [rest, since, begun, issued]; exact inv.pending
      restOnce := rest ▸ inv.restOnce
      underWay := by rw [rest, pushing]; exact inv.underWay
      overlaps := by rw [rest, begun]; exact inv.overlaps
      window := fun id l sequence => ?_ }
  exact (inv.window id l ((pop_sequence h id l).mp sequence)).congr (by rw [since]) begun fun n => by rw [rest]

theorem Inv.step {a : Action α} {s t : Traffic α} (inv : s.Inv) (h : step a s = some t) : t.Inv := by
  cases a with
  | subscribe bufferSize rank => exact inv.subscribe h
  | unsubscribe rq => exact inv.unsubscribe h
  | pushBegin msg => exact inv.pushBegin h
  | deliver number => exact inv.deliver h
  | pushEnd number => exact inv.pushEnd h
  | pop rq => exact inv.pop h

theorem Inv.of_reaches {s : Traffic α} (reached : Lib.Reaches Traffic.step ({} : Traffic α) s) : s.Inv :=
  reached.invariant Inv inv_empty fun _ _ _ inv h => inv.step h

/-! ## What the subscribers get -/

/-- Since the subscription of `id` every push found the queue to itself, and none is under way. -/
structure Serial (s : Traffic α) (id : Nat) : Prop where
  idle : s.pushing = []
  alone : ∀ n b, s.since id ≤ n → s.begun[n]? = some b → b.overlapping = []

/-- An operation of a subscriber other than `id`: a subscription while `id` is
live, or an unsubscription or a pop through another handle. -/
def Action.Foreign (s : Traffic α) (id : Nat) : Action α → Prop
  | .subscribe _ _ => id ∈ s.iq.keys
  | .unsubscribe rq => rq.id ≠ id
  | .pop rq => rq.id ≠ id
  | .pushBegin _ | .deliver _ | .pushEnd _ => False

theorem Action.Foreign.frame {s t : Traffic α} {a : Action α} {id : Nat} (foreign : a.Foreign s id)
    (h : step a s = some t) (l : List (Nat × α)) : t.Sequence id l ↔ s.Sequence id l := by
  cases a with
  | subscribe bufferSize rank =>
    simp only [step, Traffic.subscribe] at h
    split at h
    · cases h
    split at h
    case h_2 => cases h; exact Iff.rfl
    rename_i rq iq subscribed
    obtain ⟨rfl, -, buffers⟩ := InternalQueue.subscribe_cases subscribed
    cases h
    have different : id ≠ s.iq.maxTakenKey + 1 := by
      intro same
      have := (s.iq.taken id foreign).2
      omega
    simp [Sequence, InternalQueue.mem_arrange, buffers, different]
  | unsubscribe rq =>
    simp only [step, Traffic.unsubscribe] at h
    split at h <;> cases h
    simp only [Sequence, InternalQueue.mem_unsubscribe]
    exact ⟨fun ⟨q, member, eq⟩ => ⟨q, member.1, eq⟩, fun ⟨q, member, eq⟩ => ⟨q, ⟨member, foreign.symm⟩, eq⟩⟩
  | pop rq => exact pop_sequence h id l
  | pushBegin | deliver | pushEnd => exact foreign.elim

/-- Where no pushes overlap, a window is the pushes since the subscription, in order. -/
theorem Window.serial {s : Traffic α} {id : Nat} {l : List (Nat × α)} (inv : s.Inv) (window : s.Window id l)
    (serial : s.Serial id) : l.map Prod.snd = (s.begun.drop (s.since id)).map Begun.msg := by
  have visited : ∀ n, s.rest n = [] := by
    intro n
    by_contra some
    have := inv.underWay n some
    rw [serial.idle] at this
    cases this
  have numbers : l.map Prod.fst = List.range' (s.since id) (s.begun.length - s.since id) := by
    have sorted : (l.map Prod.fst).Pairwise (· ≤ ·) := by
      refine List.pairwise_map.mpr (window.order.imp_of_mem fun {x y} hx hy apart => ?_)
      by_contra later
      obtain ⟨b, begun, -⟩ := window.message x hx
      have lower := ((window.pushed x.1).mp (List.mem_map_of_mem hx)).1
      exact apart ⟨b, begun, by omega, by simp [serial.alone x.1 b lower begun]⟩
    have rangeSorted : (List.range' (s.since id) (s.begun.length - s.since id)).Pairwise (· ≤ ·) :=
      List.pairwise_le_range' 1
    refine List.Perm.eq_of_pairwise (fun a b _ _ => Nat.le_antisymm) sorted rangeSorted ?_
    refine (List.perm_ext_iff_of_nodup window.once List.nodup_range').mpr fun n => ?_
    rw [window.pushed, visited, List.mem_range'_1]
    have := inv.since id
    simp
    omega
  have messages : l.map (fun x => some x.2) = (l.map Prod.fst).map fun n => s.begun[n]?.map Begun.msg := by
    rw [List.map_map]
    refine List.map_congr_left fun x hx => ?_
    obtain ⟨b, begun, msg⟩ := window.message x hx
    simp [begun, msg]
  apply List.map_injective_iff.mpr (Option.some_injective α)
  rw [List.map_map, List.map_map]
  apply messages.trans
  rw [numbers]
  refine List.ext_getElem (by simp) fun k hk _ => ?_
  simp only [List.length_map, List.length_range'] at hk
  have inside : s.since id + k < s.begun.length := by omega
  simp [inside]

/-- **Traffic on an internal queue.** In every reachable state ids are issued once,
every live subscriber has its window, which is the pushes since its subscription
in order where these do not overlap, an unsubscription removes the buffer of its
own id, if any, and no operation of another subscriber changes its sequence. -/
theorem traffic_window {s : Traffic α} (reached : Lib.Reaches step ({} : Traffic α) s) :
    (s.issued.Nodup ∧ 0 ∉ s.issued ∧ ∀ id ∈ s.iq.keys, id ∈ s.issued) ∧
    (∀ n, n ∉ s.pushing → s.rest n = []) ∧
    (∀ id l, s.Sequence id l → s.Window id l ∧
      (s.Serial id → l.map Prod.snd = (s.begun.drop (s.since id)).map Begun.msg)) ∧
    (∀ rq b, b ∈ (s.iq.unsubscribe rq).buffers ↔ b ∈ s.iq.buffers ∧ b.1 ≠ rq.id) ∧
    (∀ rq : RQueue, rq.id ∉ s.issued → (s.iq.unsubscribe rq).buffers = s.iq.buffers) ∧
    ∀ a t id l, Action.Foreign s id a → step a s = some t → (t.Sequence id l ↔ s.Sequence id l) := by
  have inv := Inv.of_reaches reached
  refine ⟨⟨inv.issued, fun zero => absurd (inv.issuedTaken 0 zero).1 (Nat.lt_irrefl 0), inv.live⟩,
    fun n ended => ?_, fun id l sequence => ?_, fun rq b => InternalQueue.mem_unsubscribe,
    fun rq unknown => InternalQueue.unsubscribe_unknown fun live => unknown (inv.live rq.id live),
    fun a t id l foreign next => foreign.frame next l⟩
  · by_contra some
    exact ended (inv.underWay n some)
  · have window := inv.window id l sequence
    exact ⟨window, window.serial inv⟩

/-- Two subscribers and two pushes, the second of which overtakes the first at one of them. -/
def overtaking : List (Action String) :=
  [.subscribe 0 id, .subscribe 0 id, .pushBegin "a", .pushBegin "b", .deliver 0, .deliver 1, .deliver 1,
    .deliver 0, .pushEnd 0, .pushEnd 1]

def overtaken : Traffic String := ((Lib.exec step overtaking {}).getD {})

theorem overtaken_reached : Lib.Reaches step ({} : Traffic String) overtaken :=
  Lib.exec_reaches overtaking rfl

theorem overtaken_first : overtaken.Sequence 1 [(0, "a"), (1, "b")] :=
  ⟨{ queue := [(0, "a"), (1, "b")] }, by decide, rfl⟩

theorem overtaken_second : overtaken.Sequence 2 [(1, "b"), (0, "a")] :=
  ⟨{ queue := [(1, "b"), (0, "a")] }, by decide, rfl⟩

theorem traffic_window_overtaken :
    overtaken.Window 1 [(0, "a"), (1, "b")] ∧ overtaken.Window 2 [(1, "b"), (0, "a")] :=
  have windows := (traffic_window overtaken_reached).2.2.1
  ⟨(windows _ _ overtaken_first).1, (windows _ _ overtaken_second).1⟩

/-- No one order of the pushes fits both subscribers, though no push is under way any more. -/
theorem overlapping_pushes_disagree :
    ¬ ∀ s : Traffic String, Lib.Reaches step ({} : Traffic String) s → s.pushing = [] →
      ∃ order : List (Nat × String), ∀ id l, s.Sequence id l → l = order.drop (s.since id) := by
  intro agree
  obtain ⟨order, fits⟩ := agree overtaken overtaken_reached (by decide)
  have first := fits 1 _ overtaken_first
  have second := fits 2 _ overtaken_second
  have same : overtaken.since 1 = overtaken.since 2 := by decide
  rw [same, ← second] at first
  revert first
  decide

end Traffic

end M2eBridge
