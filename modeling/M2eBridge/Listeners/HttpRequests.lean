import M2eBridge.Lib.Runs
import M2eBridge.Listeners.HttpListener

/-!
# Requests on HTTP channels

The two handlers of `/channel/http/`, the first of which decides whether the second
runs. A request is what the handlers read of it; requests and calls are handled one at
a time. A channel that a request gets to is sound, and is open to everybody or was
shown its token, and so `consume` never goes through a null queue: `listener_guards`.
-/

namespace M2eBridge

/-- The methods that the handler overrides. -/
inductive Method where
  | get
  | post
  deriving DecidableEq, Repr

structure Request where
  method : Method
  requestUri : String
  /-- The `Authorization` header, a C string. -/
  authorization : Option Bytes := none
  queryString : Option Bytes := none
  /-- What there is to read, `none` where `mg_read` fails. -/
  body : Option Bytes := none
  deriving DecidableEq, Repr

structure Reply where
  status : Nat
  text : String
  deriving DecidableEq, Repr

/-- A call of `consume` on the channel under `id`. -/
structure Delivery where
  id : String
  channel : HTTPChannel
  data : Bytes
  length : Nat
  deriving DecidableEq, Repr

namespace Request

/-- `cv_get_last_segment`. -/
def lastSegment (r : Request) : Option String :=
  let uri := r.requestUri.toList
  if '/' ∈ uri then
    match (uri.reverse.takeWhile (· ≠ '/')).reverse with
    | [] => none
    | segment => some (String.ofList segment)
  else none

/-- `cv_get_bearer_token`: what stands behind the first seven bytes, whatever these are. -/
def bearerToken (r : Request) : Option Bytes :=
  match r.authorization with
  | some header => if 7 < header.length then some (header.drop 7) else none
  | none => none

/-- The buffer of `handlePost` and its length, which converts a negative one. -/
def received (r : Request) : Bytes × Nat :=
  match r.body with
  | some body => (body.take 1024, (body.take 1024).length)
  | none => ([], UInt64.size - 1)

end Request

/-- A request that the channel lets through, when it is sound. -/
def HTTPChannel.accepts (c : HTTPChannel) (r : Request) : Bool := c.isAnonymous || r.bearerToken.any c.verifyToken

theorem HTTPChannel.accepts_iff {c : HTTPChannel} {r : Request} :
    c.accepts r = true ↔ c.isAnonymous = true ∨ r.bearerToken = some (bytesOf c.token) := by
  rw [accepts, Bool.or_eq_true, Option.any_eq_true]
  refine or_congr_right ⟨?_, fun shown => ⟨_, shown, decide_eq_true rfl⟩⟩
  rintro ⟨token, shown, verified⟩
  exact of_decide_eq_true verified ▸ shown

namespace HTTPListener

def missingId : Reply := ⟨400, "Channel ID is missing in URI"⟩

def notAuthorized : Reply := ⟨401, "Not authorized"⟩

def pipelineNotFound : Reply := ⟨404, "Pipeline not found!"⟩

/-- `HTTPChannelAuthHandler::authorize`: the reply where it returns `false`. -/
def authorize (l : HTTPListener) (r : Request) : Except Reply Unit :=
  match r.lastSegment with
  | none => .error missingId
  | some id =>
    match l.channels.lookup id with
    | none => .error ⟨404, "Channel not found!"⟩
    | some channel =>
      if channel.isMalformed then .error ⟨500, "Channel is malformed!"⟩
      else if channel.isAnonymous then .ok ()
      else
        match r.bearerToken with
        | some token => if channel.verifyToken token then .ok () else .error notAuthorized
        | none => .error notAuthorized

/-- `handlePost` up to `consume`, or its reply. -/
def handlePost (l : HTTPListener) (r : Request) : Except Reply Delivery :=
  match r.lastSegment with
  | none => .error missingId
  | some id =>
    match l.channels.lookup id with
    | none => .error pipelineNotFound
    | some channel =>
      if channel.enabled then .ok ⟨id, channel, r.received.1, r.received.2⟩
      else .error ⟨405, "Channel is disabled!"⟩

/-- `handleGet` up to `consume`: it does not ask whether the channel is enabled. -/
def handleGet (l : HTTPListener) (r : Request) : Except Reply Delivery :=
  match r.lastSegment with
  | none => .error missingId
  | some id =>
    match l.channels.lookup id with
    | none => .error pipelineNotFound
    | some channel =>
      match r.queryString with
      | some query => .ok ⟨id, channel, query, query.length⟩
      | none => .ok ⟨id, channel, [], 0⟩

def dispatch (l : HTTPListener) (r : Request) : Except Reply Delivery :=
  match l.authorize r with
  | .error reply => .error reply
  | .ok () =>
    match r.method with
    | .get => l.handleGet r
    | .post => l.handlePost r

/-- What was shown for a request to get to a channel. -/
structure Admitted (l : HTTPListener) (r : Request) (d : Delivery) : Prop where
  id : r.lastSegment = some d.id
  channel : l.channels.lookup d.id = some d.channel
  sound : d.channel.isMalformed = false
  shown : d.channel.isAnonymous = true ∨ r.bearerToken = some (bytesOf d.channel.token)

/-- The requests that the handler behind gets to see. -/
theorem authorize_iff {l : HTTPListener} {r : Request} : l.authorize r = .ok () ↔
    ∃ id c, r.lastSegment = some id ∧ l.channels.lookup id = some c ∧ c.isMalformed = false ∧ c.accepts r = true := by
  unfold authorize
  split
  · next none_left => simp [none_left]
  · next id segment =>
    split
    · next missing => simp [segment, missing]
    · next c found =>
      simp only [segment, Option.some.injEq, exists_and_left, exists_eq_left', found]
      split
      · next malformed => simp [malformed]
      · next sound =>
        split
        · next anonymous => simp [sound, HTTPChannel.accepts, anonymous]
        · next named =>
          split
          · next token shown =>
            split
            · next verified => simp [sound, HTTPChannel.accepts, shown, verified]
            · next wrong => simp [HTTPChannel.accepts, named, shown, wrong]
          · next unshown => simp [HTTPChannel.accepts, named, unshown]

/-- Both handlers take the channel under the last segment. -/
theorem handlePost_ok {l : HTTPListener} {r : Request} {d : Delivery} (handled : l.handlePost r = .ok d) :
    r.lastSegment = some d.id ∧ l.channels.lookup d.id = some d.channel := by
  unfold handlePost at handled
  split at handled
  · cases handled
  · next id segment =>
    split at handled
    · cases handled
    · next channel found =>
      split at handled
      · cases handled; exact ⟨segment, found⟩
      · cases handled

theorem handleGet_ok {l : HTTPListener} {r : Request} {d : Delivery} (handled : l.handleGet r = .ok d) :
    r.lastSegment = some d.id ∧ l.channels.lookup d.id = some d.channel := by
  unfold handleGet at handled
  split at handled
  · cases handled
  · next id segment =>
    split at handled
    · cases handled
    · next channel found => split at handled <;> cases handled <;> exact ⟨segment, found⟩

theorem dispatch_ok {l : HTTPListener} {r : Request} {d : Delivery} (admitted : l.dispatch r = .ok d) :
    Admitted l r d := by
  unfold dispatch at admitted
  split at admitted
  · cases admitted
  · next authorized =>
    have place : r.lastSegment = some d.id ∧ l.channels.lookup d.id = some d.channel := by
      split at admitted
      · exact handleGet_ok admitted
      · exact handlePost_ok admitted
    obtain ⟨id, c, segment, found, sound, accepted⟩ := authorize_iff.mp authorized
    obtain rfl := Option.some.inj (segment.symm.trans place.1)
    obtain rfl := Option.some.inj (found.symm.trans place.2)
    exact ⟨place.1, place.2, sound, HTTPChannel.accepts_iff.mp accepted⟩

end HTTPListener

namespace HTTPState

variable {φ : Type} [DecidableEq φ]

/-- What the handler makes of the end of `consume`. -/
def answer : Except Exn Unit → Except Exn Reply
  | .ok () => .ok ⟨200, ""⟩
  | .error e => if e.kind = .outOfRange then .ok HTTPListener.pipelineNotFound else .error e

omit [DecidableEq φ] in
/-- A request, with the reply or the exception that leaves the handler; `none` where
a null `queue_` is gone through. -/
def serve (w : HTTPState φ) (r : Request) (now : UInt64) : Option (Except Exn Reply × HTTPState φ) :=
  match w.listener.dispatch r with
  | .error reply => some (.ok reply, w)
  | .ok d =>
    match d.channel.consume w.queues d.data d.length now with
    | none => none
    | some (result, channel, queues) =>
      some (answer result, { w.withChannels (w.listener.channels.insert d.id channel) with queues })

/-- A call, a request, or what the rest of the process does to the queues. -/
inductive Action where
  | call (c : Call) (written : Written)
  | request (r : Request) (now : UInt64)
  | others (queues : String → InternalQueue Message)

def step (a : Action) (w : HTTPState φ) : Option (HTTPState φ) :=
  match a with
  | .call c written => some (w.call c written).2
  | .request r now => (w.serve r now).map Prod.snd
  | .others queues => some { w with queues }

end HTTPState

/-- A channel that is fit for use. -/
structure HTTPChannel.Configured (c : HTTPChannel) : Prop where
  named : c.queueName ≠ ""
  queue : c.queue = some (InternalQueue.getQueuePtr c.queueName)
  token : c.authtype = .token → c.token ≠ ""

theorem HTTPChannel.Settled.configured {c : HTTPChannel} (settled : c.Settled) (sound : c.isMalformed = false) :
    c.Configured := by
  have fit := mt settled.isMalformed_iff.mpr (by simp [sound])
  obtain ⟨hasToken, named⟩ := not_or.mp fit
  exact ⟨named, by rw [settled.queue, if_neg named], fun asks empty => hasToken ⟨asks, empty⟩⟩

namespace HTTPState

variable {φ : Type} [DecidableEq φ]

structure Guarded (w : HTTPState φ) : Prop where
  configured : ∀ id c, w.listener.channels.lookup id = some c → c.isMalformed = false → c.Configured
  unchanged : ∀ (c : HTTPChannel) config e, (c.reconfigure config).1 = .error e → (c.reconfigure config).2 = c
  admitted : ∀ r d, w.listener.dispatch r = .ok d → HTTPListener.Admitted w.listener r d
  served : ∀ r now, (w.serve r now).isSome

omit [DecidableEq φ] in
theorem guarded_of_settled {w : HTTPState φ} (settled : w.listener.channels.Each HTTPChannel.Settled) : Guarded w where
  configured := fun id c found sound => (settled id c found).configured sound
  unchanged := fun _ _ _ thrown => HTTPChannel.reconfigure_error thrown
  admitted := fun _ _ => HTTPListener.dispatch_ok
  served := by
    intro r now
    unfold serve
    split
    · rfl
    · next d admitted =>
      have at_d := HTTPListener.dispatch_ok admitted
      have fit := (settled d.id d.channel at_d.channel).configured at_d.sound
      have some_queue := HTTPChannel.consume_isSome (c := d.channel) w.queues d.data d.length now
      rw [fit.queue] at some_queue
      split
      · next null => rw [null] at some_queue; cases some_queue
      · rfl

theorem settled_step {a : Action} {w w' : HTTPState φ} (settled : w.listener.channels.Each HTTPChannel.Settled)
    (stepped : step a w = some w') : w'.listener.channels.Each HTTPChannel.Settled := by
  cases a with
  | call c written =>
    cases stepped
    refine each_call settled c written (fun id config ch built => (HTTPChannel.ofConfig_ok built).1) ?_
    intro id j ch _ _ before
    exact before.reconfigure j
  | request r now =>
    obtain ⟨⟨result, after⟩, served, rfl⟩ := Option.map_eq_some_iff.mp stepped
    unfold serve at served
    split at served
    · cases served; exact settled
    · next d admitted =>
      split at served
      · cases served
      · next channel queues consumed =>
        cases served
        have before := settled d.id d.channel (HTTPListener.dispatch_ok admitted).channel
        exact settled.insert d.id (before.consume consumed)
  | others queues => cases stepped; exact settled

theorem listener_guards (gc : GlobalConfig) (disk : Disk φ) (queues : String → InternalQueue Message)
    {l : HTTPListener} (listening : HTTPListener.ofConfig gc.httpListener = .ok l) {w : HTTPState φ}
    (reached : Lib.Reaches step ⟨gc, disk, l, queues⟩ w) : Guarded w := by
  have start : l.channels.Each HTTPChannel.Settled :=
    HTTPListener.each_ofConfig (fun id config c built => (HTTPChannel.ofConfig_ok built).1) listening
  exact guarded_of_settled
    (reached.invariant (fun w => w.listener.channels.Each HTTPChannel.Settled) start fun a s t settled stepped =>
      settled_step settled stepped)

/-- A listener with one channel, which asks for a token. -/
def guardedDocument : Json :=
  .object [("channels", .object [("a", .object [("authtype", .string "token"), ("enabled", .boolean true),
    ("queue_name", .string "q"), ("token", .string "t")])]), ("enabled", .boolean true)]

def guardedStart : HTTPState Unit where
  gc := { config := .null, configPath := "", pipelines := [], httpListener := guardedDocument, sharedObjects := .null,
          authbundlesDbPath := "", convertersDbPath := "" }
  disk := { file := fun _ => (), content := fun _ => .ok .null, regularFiles := fun _ => .ok [] }
  listener := { channels := HTTPListener.channelsIn guardedDocument, enabled := true }
  queues := fun _ => {}

def guardedRequest : Request :=
  { method := .post, requestUri := "/channel/http/a", authorization := some (bytesOf "Bearer t"), body := some [1] }

/-- A request that shows the token, an update that is refused and one that opens the channel. -/
def guardedRun : List Action :=
  [.request guardedRequest 0,
   .call (.update "a" (.ok (.object [("queue_name", .string "")]))) .whole,
   .call (.update "a" (.ok (.object [("authtype", .string "none")]))) .whole]

theorem listener_guards_opened : Guarded ((Lib.exec step guardedRun guardedStart).getD guardedStart) :=
  listener_guards guardedStart.gc guardedStart.disk guardedStart.queues rfl (Lib.exec_reaches guardedRun rfl)

end HTTPState

end M2eBridge
