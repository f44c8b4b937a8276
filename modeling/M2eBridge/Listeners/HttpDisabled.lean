import M2eBridge.Listeners.HttpPost

/-!
# Disabled channels

`handlePost` refuses a channel that is disabled; `handleGet`, which is the same otherwise, does not look
at the flag. So what a listener that was loaded and then called and sent requests in any order does for
a disabled channel is as it should be as long as no GET slips in (`disabled_silent_iff`): a GET on a
channel that is sound and accepts it, unless the exception of a text that is too long or of a full
buffer comes before anything is pushed.
-/

namespace M2eBridge

namespace InternalQueue

variable {α : Type} {iq : InternalQueue α} {msg : α}

/-- The buffer that a push comes to first is full. -/
def FirstFull (iq : InternalQueue α) : Prop := ∃ b, iq.buffers.head? = some b ∧ ¬ b.2.HasRoom

theorem FirstFull.someFull (first : iq.FirstFull) : iq.SomeFull := by
  obtain ⟨b, head, full⟩ := first
  exact ⟨b, List.mem_of_mem_head? head, full⟩

theorem push_of_firstFull (first : iq.FirstFull) : (iq.push msg).2 = iq := by
  obtain ⟨b, head, full⟩ := first
  obtain ⟨rest, buffers⟩ := List.head?_eq_some_iff.mp head
  have stopped : (iq.push msg).2.buffers = iq.buffers := by
    rw [push_buffers, buffers, Lib.stopLoop_cons_none rest (pushBuffer_of_full full)]
  obtain ⟨buffers, maxTakenKey, distinct, taken⟩ := iq
  simp only [push] at stopped ⊢
  simp only [stopped]

/-- A push that throws has done nothing when the first buffer is full, and only then. -/
theorem push_unchanged_iff (full : iq.SomeFull) : (iq.push msg).2 = iq ↔ iq.FirstFull := by
  refine ⟨fun same => ?_, push_of_firstFull⟩
  obtain ⟨b, member, -⟩ := full
  obtain ⟨first, rest, buffers⟩ := List.exists_cons_of_ne_nil (List.ne_nil_of_mem member)
  refine ⟨first, by rw [buffers]; rfl, fun room => ?_⟩
  have stopped : (Lib.stopLoop (pushBuffer msg) iq.buffers).1 = iq.buffers := by rw [← push_buffers, same]
  rw [buffers, Lib.stopLoop_cons_some rest (pushBuffer_of_room room), List.cons.injEq] at stopped
  exact pushBuffer_ne first _ (pushBuffer_of_room room) stopped.1

end InternalQueue

namespace HTTPChannel

/-- `consume` leaves the queue and the counter alone when it throws before it pushes anything. -/
theorem consume_unchanged_iff {c : HTTPChannel} {queuid : String} (queue : c.queue = some queuid)
    (queues : String → InternalQueue Message) (data : Bytes) (n : Nat) (now : UInt64) :
    ∃ result c' queues', c.consume queues data n now = some (result, c', queues') ∧
      (queues' queuid = queues queuid ∧ c'.msgReceived = c.msgReceived ↔ maxSize < n ∨ (queues queuid).FirstFull) := by
  by_cases long : maxSize < n
  · refine ⟨.error lengthError, c, queues, by simp only [consume, queue, if_pos long], ?_⟩
    exact iff_of_true ⟨rfl, rfl⟩ (.inl long)
  · by_cases full : (queues queuid).SomeFull
    · have thrown : ((queues queuid).push (.ofChars data n)).1 = .error TSQueue.queueIsFull :=
        InternalQueue.push_throws_iff.mpr full
      simp only [consume, queue, if_neg long, thrown]
      refine ⟨_, _, _, rfl, ?_⟩
      rw [if_pos rfl, and_iff_left rfl, InternalQueue.push_unchanged_iff full, or_iff_right long]
    · have returned : ((queues queuid).push (.ofChars data n)).1 = .ok () := InternalQueue.push_returns_iff.mpr full
      simp only [consume, queue, if_neg long, returned]
      refine ⟨_, _, _, rfl, iff_of_false (fun unchanged => ?_) fun early => ?_⟩
      · -- the counter wraps around, but never to where it was
        have counted : c.msgReceived + 1 = c.msgReceived := unchanged.2
        simp at counted
      · exact full (early.resolve_left long).someFull

end HTTPChannel

/-- What `handleGet` passes on: the text behind the `?`, which may be missing. -/
def Request.query (r : Request) : Bytes := r.queryString.getD []

namespace HTTPListener

/-- A GET that gets to a channel which is disabled. -/
structure GetsTo (l : HTTPListener) (r : Request) (id : String) (c : HTTPChannel) : Prop where
  get : r.method = .get
  segment : r.lastSegment = some id
  channel : l.channels.lookup id = some c
  disabled : c.enabled = false
  sound : c.isMalformed = false
  shown : c.accepts r = true

variable {l : HTTPListener} {r : Request} {id : String} {c : HTTPChannel}

theorem GetsTo.dispatch (gets : l.GetsTo r id c) : l.dispatch r = .ok ⟨id, c, r.query, r.query.length⟩ := by
  have authorized := authorize_iff.mpr ⟨id, c, gets.segment, gets.channel, gets.sound, gets.shown⟩
  simp only [HTTPListener.dispatch, authorized, gets.get, handleGet, gets.segment, gets.channel, Request.query]
  cases r.queryString <;> rfl

/-- Every other request on a disabled channel is answered at once. -/
theorem dispatch_disabled (segment : r.lastSegment = some id) (channel : l.channels.lookup id = some c)
    (disabled : c.enabled = false) (stays : ¬ l.GetsTo r id c) : ∃ reply, l.dispatch r = .error reply := by
  cases dispatched : l.dispatch r with
  | error reply => exact ⟨reply, rfl⟩
  | ok d =>
    have admitted := dispatch_ok dispatched
    obtain rfl := Option.some.inj (segment.symm.trans admitted.id)
    obtain rfl := Option.some.inj (channel.symm.trans admitted.channel)
    cases method : r.method with
    | get =>
      have shown := HTTPChannel.accepts_iff.mpr admitted.shown
      exact absurd ⟨method, segment, channel, disabled, admitted.sound, shown⟩ stays
    | post =>
      obtain ⟨id', c', opens, same⟩ := (dispatch_post_iff method).mp dispatched
      have enabled : d.channel.enabled = true := same ▸ opens.enabled
      rw [enabled] at disabled
      cases disabled

end HTTPListener

namespace HTTPState

variable {φ : Type} [DecidableEq φ]

/-- For a channel that is disabled no message is pushed to its queue, and none is counted. -/
def Silent (w : HTTPState φ) (r : Request) (now : UInt64) : Prop :=
  ∀ id c, r.lastSegment = some id → w.listener.channels.lookup id = some c → c.enabled = false →
    ∀ answer after, w.serve r now = some (answer, after) →
      (∀ queuid, c.queue = some queuid → after.queues queuid = w.queues queuid) ∧
      (after.listener.channels.lookup id).map HTTPChannel.msgReceived = some c.msgReceived

/-- A GET gets to a disabled channel with a text that a string can hold, and the push does not fail at once. -/
def SlipsIn (w : HTTPState φ) (r : Request) : Prop :=
  ∃ id c, w.listener.GetsTo r id c ∧ r.query.length ≤ HTTPChannel.maxSize ∧
    ∀ queuid, c.queue = some queuid → ¬ (w.queues queuid).FirstFull

variable {w : HTTPState φ} {r : Request}

omit [DecidableEq φ] in
/-- A GET that gets to a disabled channel is as if it were not when it throws before it pushes anything. -/
theorem serve_gets_iff (settled : w.listener.channels.Each HTTPChannel.Settled) {id : String} {c : HTTPChannel}
    (gets : w.listener.GetsTo r id c) (now : UInt64) :
    ∃ queuid answer after, c.queue = some queuid ∧ w.serve r now = some (answer, after) ∧
      ((after.queues queuid = w.queues queuid ∧
        (after.listener.channels.lookup id).map HTTPChannel.msgReceived = some c.msgReceived) ↔
        HTTPChannel.maxSize < r.query.length ∨ (w.queues queuid).FirstFull) := by
  have queue := ((settled id c gets.channel).configured gets.sound).queue
  obtain ⟨result, c', queues', consumed, unchanged⟩ :=
    HTTPChannel.consume_unchanged_iff queue w.queues r.query r.query.length now
  refine ⟨_, answer result, { w.withChannels (w.listener.channels.insert id c') with queues := queues' }, queue,
    by simp only [serve, gets.dispatch, consumed], ?_⟩
  rw [← unchanged]
  simp [withChannels]

omit [DecidableEq φ] in
theorem silent_iff (settled : w.listener.channels.Each HTTPChannel.Settled) (now : UInt64) :
    Silent w r now ↔ ¬ SlipsIn w r := by
  constructor
  · rintro silent ⟨id, c, gets, short, room⟩
    obtain ⟨queuid, answer, after, queue, ran, unchanged⟩ := serve_gets_iff settled gets now
    obtain ⟨queues, counter⟩ := silent id c gets.segment gets.channel gets.disabled answer after ran
    rcases unchanged.mp ⟨queues queuid queue, counter⟩ with long | first
    · exact absurd short (Nat.not_le.mpr long)
    · exact room queuid queue first
  · intro none_slips id c segment channel disabled answer after ran
    by_cases gets : w.listener.GetsTo r id c
    · obtain ⟨queuid, answer', after', queue, ran', unchanged⟩ := serve_gets_iff settled gets now
      cases ran.symm.trans ran'
      have early : HTTPChannel.maxSize < r.query.length ∨ (w.queues queuid).FirstFull := by
        by_contra late
        obtain ⟨short, room⟩ := not_or.mp late
        refine none_slips ⟨id, c, gets, Nat.not_lt.mp short, fun other there => ?_⟩
        cases queue.symm.trans there
        exact room
      obtain ⟨queues, counter⟩ := unchanged.mpr early
      refine ⟨fun other there => ?_, counter⟩
      cases queue.symm.trans there
      exact queues
    · obtain ⟨reply, refused⟩ := HTTPListener.dispatch_disabled segment channel disabled gets
      simp only [serve, refused] at ran
      cases ran
      exact ⟨fun _ _ => rfl, by rw [channel]; rfl⟩

/-- What the action of a run does for disabled channels is as it should be. -/
def StaysSilent (a : Action) (w : HTTPState φ) : Prop := ∀ r now, a = .request r now → Silent w r now

/-- The action is no request that slips in. -/
def KeepsOut (a : Action) (w : HTTPState φ) : Prop := ∀ r now, a = .request r now → ¬ SlipsIn w r

/-- **Disabled channels.** In the runs of a loaded listener no request pushes to the queue of a
disabled channel or is counted there, exactly if no request slips in. -/
theorem disabled_silent_iff (gc : GlobalConfig) (disk : Disk φ) (queues : String → InternalQueue Message)
    {l : HTTPListener} (listening : HTTPListener.ofConfig gc.httpListener = .ok l) (actions : List Action) :
    Lib.Along step StaysSilent actions ⟨gc, disk, l, queues⟩ ↔ Lib.Along step KeepsOut actions ⟨gc, disk, l, queues⟩ := by
  have start : l.channels.Each HTTPChannel.Settled :=
    HTTPListener.each_ofConfig (fun id config c built => (HTTPChannel.ofConfig_ok built).1) listening
  refine Lib.along_iff (fun w => w.listener.channels.Each HTTPChannel.Settled) ?_ ?_ start actions
  · intro a w settled
    exact forall₃_congr fun r now _ => silent_iff settled now
  · intro a w w' settled stepped
    exact settled_step settled stepped

/-- A listener with one channel, which is open to everybody and disabled. -/
def disabledDocument : Json :=
  .object [("channels", .object [("a", .object [("authtype", .string "none"), ("queue_name", .string "q")])]),
    ("enabled", .boolean true)]

def disabledStart : HTTPState Unit :=
  { guardedStart with
    gc := { guardedStart.gc with httpListener := disabledDocument }
    listener := { channels := HTTPListener.channelsIn disabledDocument, enabled := true } }

def getRequest : Request := { method := .get, requestUri := "/channel/http/a", queryString := some (bytesOf "x") }

/-- The channel is enabled, and then gets its GET. -/
theorem disabled_silent_iff_enabled :
    Lib.Along step StaysSilent [.call (.update "a" (.ok (.object [("enabled", .boolean true)]))) .whole,
      .request getRequest 0] disabledStart ↔
    Lib.Along step KeepsOut [.call (.update "a" (.ok (.object [("enabled", .boolean true)]))) .whole,
      .request getRequest 0] disabledStart :=
  disabled_silent_iff disabledStart.gc disabledStart.disk disabledStart.queues rfl _

/-- A GET on a disabled channel is counted. -/
theorem disabled_answers_get : ¬ ∀ (gc : GlobalConfig) (disk : Disk Unit) (queues : String → InternalQueue Message)
    (l : HTTPListener) (actions : List Action), HTTPListener.ofConfig gc.httpListener = .ok l →
      Lib.Along step StaysSilent actions ⟨gc, disk, l, queues⟩ := by
  intro all
  have along := all disabledStart.gc disabledStart.disk disabledStart.queues _ [.request getRequest 7] rfl
  have silent : Silent disabledStart getRequest 7 := along.1 getRequest 7 rfl
  let channel : HTTPChannel :=
    { id := "a", queueName := "q", authtype := .none, queue := some "q", state := .configured }
  obtain ⟨-, counter⟩ := silent "a" channel rfl rfl rfl _ _ rfl
  exact absurd counter (by decide)

end HTTPState

end M2eBridge
