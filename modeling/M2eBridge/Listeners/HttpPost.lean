import M2eBridge.Listeners.HttpRequests
import M2eBridge.MessageReads

/-!
# The body of a POST

`mg_read` gives some of the body at each call, no more than its buffer holds, and `handlePost` calls it
once: `Delivers` says what the calls can give for a body, of which the handler sees the first. A POST
that gets past the checks is answered as it should be when that first part is all, the channel has a
queue, and no subscriber's buffer is full (`post_answered_iff`). The request handler of the REST
interface reads until there is no more.
-/

namespace M2eBridge

/-- The results of `mg_read` on a body with a buffer of 1024 bytes, up to the end or an error. -/
inductive Delivers : Bytes → List (Option Bytes) → Prop where
  | done : Delivers [] []
  | chunk {chunk rest : Bytes} {reads : List (Option Bytes)} (some : chunk ≠ []) (fits : chunk.length ≤ 1024)
      (delivers : Delivers rest reads) : Delivers (chunk ++ rest) (Option.some chunk :: reads)
  | error (rest : Bytes) : Delivers rest [none]

/-- The first call: no bytes where the connection is at its end. -/
def firstRead (reads : List (Option Bytes)) : Option Bytes := reads.headD (some [])

/-- A request whose handler reads from the connection once. -/
def Request.reading (r : Request) (reads : List (Option Bytes)) : Request := { r with body := firstRead reads }

theorem Delivers.first_length {body : Bytes} {reads : List (Option Bytes)} (delivers : Delivers body reads) :
    ∀ chunk, firstRead reads = some chunk → chunk.length ≤ 1024 := by
  intro chunk first
  cases delivers with
  | done => cases first; exact Nat.zero_le _
  | chunk _ fits _ => cases first; exact fits
  | error => cases first

/-- What the handler passes on is the first part. -/
theorem Request.received_reading {r : Request} {body chunk : Bytes} {reads : List (Option Bytes)}
    (delivers : Delivers body reads) (first : firstRead reads = some chunk) :
    (r.reading reads).received = (chunk, chunk.length) := by
  simp only [received, reading, first, List.take_of_length_le (delivers.first_length chunk first)]

/-- Where the first call fails, its result is taken for a length. -/
theorem Request.received_failed {r : Request} {reads : List (Option Bytes)} (failed : firstRead reads = none) :
    (r.reading reads).received = ([], UInt64.size - 1) := by
  simp only [received, reading, failed]

namespace HTTPListener

/-- The channel that a POST gets to. -/
structure Opens (l : HTTPListener) (r : Request) (id : String) (c : HTTPChannel) : Prop where
  segment : r.lastSegment = some id
  channel : l.channels.lookup id = some c
  sound : c.isMalformed = false
  shown : c.accepts r = true
  enabled : c.enabled = true

theorem dispatch_post_iff {l : HTTPListener} {r : Request} (post : r.method = .post) {d : Delivery} :
    l.dispatch r = .ok d ↔ ∃ id c, l.Opens r id c ∧ d = ⟨id, c, r.received.1, r.received.2⟩ := by
  constructor
  · intro dispatched
    have admitted := dispatch_ok dispatched
    have shown := HTTPChannel.accepts_iff.mpr admitted.shown
    unfold dispatch at dispatched
    split at dispatched
    · cases dispatched
    · rw [post] at dispatched
      simp only [handlePost, admitted.id, admitted.channel] at dispatched
      split at dispatched
      · next enabled =>
        exact ⟨_, _, ⟨admitted.id, admitted.channel, admitted.sound, shown, enabled⟩, (Except.ok.inj dispatched).symm⟩
      · cases dispatched
  · rintro ⟨id, c, opens, rfl⟩
    have authorized := authorize_iff.mpr ⟨id, c, opens.segment, opens.channel, opens.sound, opens.shown⟩
    simp only [dispatch, authorized, post, handlePost, opens.segment, opens.channel]
    rw [if_pos opens.enabled]

theorem authorize_refused {l : HTTPListener} {r : Request} {reply : Reply} (refused : l.authorize r = .error reply) :
    reply.status ≠ 200 := by
  unfold authorize at refused
  repeat' split at refused
  all_goals cases refused <;> decide

theorem handlePost_refused {l : HTTPListener} {r : Request} {reply : Reply} (refused : l.handlePost r = .error reply) :
    reply.status ≠ 200 := by
  unfold handlePost at refused
  repeat' split at refused
  all_goals cases refused <;> decide

/-- Where a POST is not passed on, the reply is an error. -/
theorem dispatch_refused {l : HTTPListener} {r : Request} {reply : Reply} (post : r.method = .post)
    (refused : l.dispatch r = .error reply) : reply.status ≠ 200 := by
  unfold dispatch at refused
  rw [post] at refused
  split at refused
  · next unauthorized =>
    cases refused
    exact authorize_refused unauthorized
  · exact handlePost_refused refused

end HTTPListener

namespace HTTPState

variable {φ : Type} [DecidableEq φ]

/-- The messages that a request makes, each with the queue that it is pushed to. -/
def pushes (w : HTTPState φ) (r : Request) : List (String × Message) :=
  match w.listener.dispatch r with
  | .error _ => []
  | .ok d =>
    match d.channel.queue with
    | none => []
    | some queuid => if HTTPChannel.maxSize < d.length then [] else [(queuid, .ofChars d.data d.length)]

/-- The queues behind some pushes. -/
def pushAll (pushes : List (String × Message)) (queues : String → InternalQueue Message) : String → InternalQueue Message :=
  pushes.foldl (fun queues p other => if other = p.1 then ((queues p.1).push p.2).2 else queues other) queues

/-- A POST is answered once, without an exception, and where the answer is OK one message has been pushed,
which is the whole body. -/
structure Answered (w : HTTPState φ) (r : Request) (now : UInt64) (body : Bytes) : Prop where
  replies : ∃ reply after, w.serve r now = some (.ok reply, after)
  whole : ∀ reply after, w.serve r now = some (.ok reply, after) → reply.status = 200 → ∃ queuid msg,
    w.pushes r = [(queuid, msg)] ∧ after.queues = pushAll (w.pushes r) w.queues ∧ ∀ C, (msg.getRaw C).1 = .ok body

/-- The first part is all there is, and there is a queue to push it to, of which no buffer is full. -/
structure Fits (w : HTTPState φ) (c : HTTPChannel) (body : Bytes) (reads : List (Option Bytes)) : Prop where
  whole : firstRead reads = some body
  queue : ∃ queuid, c.queue = some queuid ∧ ¬ (w.queues queuid).SomeFull

variable {w : HTTPState φ} {r : Request} {now : UInt64}

omit [DecidableEq φ] in
/-- A body that is longer than the buffer does not come at once. -/
theorem Fits.length_le {c : HTTPChannel} {body : Bytes} {reads : List (Option Bytes)} (fits : Fits w c body reads)
    (delivers : Delivers body reads) : body.length ≤ 1024 := delivers.first_length body fits.whole

omit [DecidableEq φ] in
/-- A request that is refused pushes nothing. -/
theorem answered_refused {reply : Reply} {body : Bytes} (post : r.method = .post)
    (refused : w.listener.dispatch r = .error reply) : Answered w r now body := by
  have served : w.serve r now = some (.ok reply, w) := by simp only [serve, refused]
  refine ⟨⟨reply, w, served⟩, fun reply' after same ok => ?_⟩
  cases served.symm.trans same
  exact absurd ok (HTTPListener.dispatch_refused post refused)

omit [DecidableEq φ] in
variable (now) in
/-- A part that is read is pushed unless a buffer is full, and then the exception leaves the handler. -/
theorem serve_chunk {id queuid : String} {c : HTTPChannel} {chunk : Bytes}
    (dispatched : w.listener.dispatch r = .ok ⟨id, c, chunk, chunk.length⟩) (queue : c.queue = some queuid)
    (short : chunk.length ≤ 1024) :
    w.pushes r = [(queuid, .ofChars chunk chunk.length)] ∧
      (¬ (w.queues queuid).SomeFull → ∃ after, w.serve r now = some (.ok ⟨200, ""⟩, after) ∧
        after.queues = pushAll (w.pushes r) w.queues) ∧
      ((w.queues queuid).SomeFull → ∃ after, w.serve r now = some (.error TSQueue.queueIsFull, after)) := by
  have fits : ¬ HTTPChannel.maxSize < chunk.length := by
    have size : HTTPChannel.maxSize = 9223372036854775807 := rfl
    omega
  have pushed : w.pushes r = [(queuid, .ofChars chunk chunk.length)] := by
    simp only [pushes, dispatched, queue, if_neg fits]
  refine ⟨pushed, fun room => ?_, fun full => ?_⟩
  · have returned : ((w.queues queuid).push (.ofChars chunk chunk.length)).1 = .ok () :=
      InternalQueue.push_returns_iff.mpr room
    simp only [serve, dispatched, HTTPChannel.consume, queue, if_neg fits, returned]
    exact ⟨_, rfl, by rw [pushed]; rfl⟩
  · have thrown : ((w.queues queuid).push (.ofChars chunk chunk.length)).1 = .error TSQueue.queueIsFull :=
      InternalQueue.push_throws_iff.mpr full
    simp only [serve, dispatched, HTTPChannel.consume, queue, if_neg fits, thrown]
    exact ⟨_, rfl⟩

omit [DecidableEq φ] in
/-- Where nothing could be read, the length is one that no string has. -/
theorem serve_failed {id : String} {c : HTTPChannel} (dispatched : w.listener.dispatch r = .ok ⟨id, c, [], UInt64.size - 1⟩)
    (reply : Reply) (after : HTTPState φ) : w.serve r now ≠ some (.ok reply, after) := by
  intro served
  simp only [serve, dispatched, HTTPChannel.consume] at served
  split at served
  · cases served
  · next consumed =>
    split at consumed
    · cases consumed
    · cases consumed
      cases served

omit [DecidableEq φ] in
/-- Where the first call fails, no response is sent. -/
theorem answered_failed {id : String} {c : HTTPChannel} {body : Bytes}
    (dispatched : w.listener.dispatch r = .ok ⟨id, c, [], UInt64.size - 1⟩) : ¬ Answered w r now body := by
  intro answered
  obtain ⟨reply, after, served⟩ := answered.replies
  exact serve_failed dispatched reply after served

omit [DecidableEq φ] in
/-- A part that is read is an answer to the whole body if it is the body, and gets into every buffer of the queue. -/
theorem answered_chunk_iff {id : String} {c : HTTPChannel} {body chunk : Bytes}
    (dispatched : w.listener.dispatch r = .ok ⟨id, c, chunk, chunk.length⟩) (short : chunk.length ≤ 1024) :
    Answered w r now body ↔ chunk = body ∧ ∃ queuid, c.queue = some queuid ∧ ¬ (w.queues queuid).SomeFull := by
  have raw (C : Codec) : ((Message.ofChars chunk chunk.length).getRaw C).1 = .ok chunk :=
    congrArg Except.ok List.take_length
  cases queue : c.queue with
  | none =>
    refine iff_of_false (fun answered => ?_) fun fits => ?_
    · obtain ⟨reply, after, served⟩ := answered.replies
      simp only [serve, dispatched, HTTPChannel.consume, queue] at served
      cases served
    · obtain ⟨-, queuid, there, -⟩ := fits
      cases there
  | some queuid =>
    obtain ⟨pushed, returns, throws⟩ := serve_chunk now dispatched queue short
    by_cases full : (w.queues queuid).SomeFull
    · obtain ⟨after, thrown⟩ := throws full
      refine iff_of_false (fun answered => ?_) fun fits => ?_
      · obtain ⟨reply, after', served⟩ := answered.replies
        cases thrown.symm.trans served
      · obtain ⟨-, queuid', there, room⟩ := fits
        cases there
        exact room full
    · obtain ⟨after, served, queues⟩ := returns full
      constructor
      · intro answered
        obtain ⟨queuid', msg, only, -, whole⟩ := answered.whole _ _ served rfl
        cases pushed.symm.trans only
        cases (raw Message.literalCodec).symm.trans (whole Message.literalCodec)
        exact ⟨rfl, queuid, rfl, full⟩
      · rintro ⟨rfl, -⟩
        refine ⟨⟨_, after, served⟩, fun reply after' same ok => ?_⟩
        cases served.symm.trans same
        exact ⟨queuid, _, pushed, queues, raw⟩

omit [DecidableEq φ] in
/-- A POST is answered as it should be exactly when it is refused, or it is read whole at once, there is a
queue, and no subscriber's buffer is full. -/
theorem post_answered_iff {body : Bytes} {reads : List (Option Bytes)} (post : r.method = .post)
    (delivers : Delivers body reads) :
    Answered w (r.reading reads) now body ↔
      ∀ id c, w.listener.Opens (r.reading reads) id c → Fits w c body reads := by
  have post : (r.reading reads).method = .post := post
  cases dispatched : w.listener.dispatch (r.reading reads) with
  | error reply =>
    refine iff_of_true (answered_refused post dispatched) fun id c opens => ?_
    have passed := (HTTPListener.dispatch_post_iff post).mpr ⟨id, c, opens, rfl⟩
    cases dispatched.symm.trans passed
  | ok d =>
    obtain ⟨id, c, opens, rfl⟩ := (HTTPListener.dispatch_post_iff post).mp dispatched
    have only : (∀ id c, w.listener.Opens (r.reading reads) id c → Fits w c body reads) ↔ Fits w c body reads := by
      refine ⟨fun all => all id c opens, fun fits id' c' opens' => ?_⟩
      cases opens.segment.symm.trans opens'.segment
      cases opens.channel.symm.trans opens'.channel
      exact fits
    rw [only]
    cases first : firstRead reads with
    | none =>
      rw [Request.received_failed first] at dispatched
      refine iff_of_false (answered_failed dispatched) fun fits => ?_
      cases first.symm.trans fits.whole
    | some chunk =>
      rw [Request.received_reading delivers first] at dispatched
      rw [answered_chunk_iff dispatched (delivers.first_length chunk first)]
      constructor
      · rintro ⟨rfl, queue⟩
        exact ⟨first, queue⟩
      · rintro ⟨whole, queue⟩
        exact ⟨Option.some.inj (first.symm.trans whole), queue⟩

/-- One byte, which comes at once. -/
theorem post_answered_byte :
    Answered guardedStart (guardedRequest.reading [some [1]]) 0 [1] ↔
      ∀ id c, guardedStart.listener.Opens (guardedRequest.reading [some [1]]) id c → Fits guardedStart c [1] [some [1]] :=
  post_answered_iff rfl (@Delivers.chunk [1] [] [] (by decide) (by decide) .done)

/-- Two bytes that come one by one: the answer is OK, and the message is the first of them. -/
theorem post_cut_short : ¬ ∀ (w : HTTPState Unit) (r : Request) (now : UInt64) (body : Bytes) (reads : List (Option Bytes)),
    r.method = .post → Delivers body reads → Answered w (r.reading reads) now body := by
  intro all
  have delivers : Delivers [1, 2] [some [1], some [2]] :=
    @Delivers.chunk [1] [2] _ (by decide) (by decide) (@Delivers.chunk [2] [] _ (by decide) (by decide) .done)
  have answered := all guardedStart guardedRequest 0 _ _ rfl delivers
  have dispatched : guardedStart.listener.dispatch (guardedRequest.reading [some [1], some [2]]) =
      .ok ⟨"a", _, [1], 1⟩ := rfl
  obtain ⟨pushed, returns, -⟩ := serve_chunk 0 dispatched (w := guardedStart) rfl (by decide)
  obtain ⟨after, served, -⟩ := returns (by decide)
  obtain ⟨queuid, msg, only, -, whole⟩ := answered.whole _ _ served rfl
  cases pushed.symm.trans only
  cases whole Message.literalCodec

end HTTPState

end M2eBridge
