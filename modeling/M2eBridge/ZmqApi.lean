import M2eBridge.ApiHelpers
import M2eBridge.Listeners.HttpListener

/-!
# The ZeroMQ API

`ZMQAPI::api_handler` on the bytes of a request, with the four functions on the channels of
the HTTP listener, which the first call constructs. `PUT` and `POST` catch a
`configuration_error`, `GET` an id that is not there, and `DELETE` nothing; what else the
functions below throw leaves the handler. So a request is answered exactly when it is
`Answerable`, and a payload that does not parse, or an id that is not there, is not.
-/

namespace M2eBridge

/-- The process as the API finds it. An id is a byte string, and the channels under ids that
are not UTF-8 are kept apart. -/
structure ZmqState (φ : Type) where
  http : HTTPState φ
  /-- `instance_` is not null. -/
  constructed : Bool := true
  foreign : AList fun _ : Bytes => HTTPChannel := ∅

namespace ZmqState

variable {φ : Type}

/-- `HTTPListener::get_instance`. -/
def getInstance (w : ZmqState φ) : Except Exn (ZmqState φ) :=
  if w.constructed then .ok w
  else do
    let listener ← HTTPListener.ofConfig w.http.gc.httpListener
    .ok { http := { w.http with listener } }

/-- What follows `get_instance`. -/
def withInstance {α : Type} (w : ZmqState φ) (f : ZmqState φ → Except Exn α × ZmqState φ) :
    Except Exn α × ZmqState φ :=
  match w.getInstance with
  | .error e => (.error e, w)
  | .ok v => f v

def lookup (w : ZmqState φ) (id : Bytes) : Option HTTPChannel :=
  match textOf id with
  | some id => w.http.listener.channels.lookup id
  | none => w.foreign.lookup id

def insert (w : ZmqState φ) (id : Bytes) (ch : HTTPChannel) : ZmqState φ :=
  match textOf id with
  | some id => { w with http := w.http.withChannels (w.http.listener.channels.insert id ch) }
  | none => { w with foreign := w.foreign.insert id ch }

def erase (w : ZmqState φ) (id : Bytes) : ZmqState φ :=
  match textOf id with
  | some id => { w with http := w.http.withChannels (w.http.listener.channels.erase id) }
  | none => { w with foreign := w.foreign.erase id }

variable [DecidableEq φ]

/-- `save`, and the `true` behind it: the ids are keys of the document that it dumps. -/
def save (w : ZmqState φ) (written : Written) : Except Exn Bool × ZmqState φ :=
  if w.foreign = ∅ then
    let (result, http) := w.http.save written
    (result, { w with http })
  else (.error invalidUtf8, w)

def createChannel (C : Codec) (w : ZmqState φ) (id payload : Bytes) (written : Written) :
    Except Exn Bool × ZmqState φ :=
  w.withInstance fun w =>
    if (w.lookup id).isSome then (.error ⟨.configurationError, "Channel already exist"⟩, w)
    else
      -- an id that is not UTF-8 is kept as the key only
      match parseJson C payload >>= fun j => HTTPChannel.ofConfig ((textOf id).getD "") j with
      | .error e => (.error e, w)
      | .ok ch => if ch.isMalformed then (.ok false, w) else (w.insert id ch).save written

def updateChannel (C : Codec) (w : ZmqState φ) (id payload : Bytes) (written : Written) :
    Except Exn Bool × ZmqState φ :=
  match parseJson C payload with
  | .error e => (.error e, w)
  | .ok j =>
    w.withInstance fun w =>
      match w.lookup id with
      | none => (.error ⟨.outOfRange, "unordered_map::at"⟩, w)
      | some ch =>
        let (result, ch) := ch.reconfigure j
        let w := w.insert id ch
        match result with
        | .error e => (.error e, w)
        | .ok () => w.save written

def deleteChannel (w : ZmqState φ) (id : Bytes) (written : Written) : Except Exn Bool × ZmqState φ :=
  w.withInstance fun w => (w.erase id).save written

/-- `set_api_authentication`, on the file of the main configuration. -/
def setApiAuthentication (w : ZmqState φ) (value : Bool) (written : Written) : Except Exn Bool × ZmqState φ :=
  match w.http.gc.config with
  | .object members => store (Json.setMember "api_authentication" (.boolean value) members)
  | .null => store [("api_authentication", .boolean value)]
  | j => (.error ⟨.jsonException, "[json.exception.type_error.305] cannot use operator[] with a string argument with " ++
      j.typeName⟩, w)
where
  store (members : List (String × Json)) : Except Exn Bool × ZmqState φ :=
    let gc := { w.http.gc with config := .object members }
    let disk := w.http.disk.write gc.configPath gc.config written
    (.ok (written ≠ .refused), { w with http := { w.http with gc, disk } })

/-! ### On ids that are text -/

section Text

omit [DecidableEq φ] in
theorem lookup_text (w : ZmqState φ) (id : String) :
    w.lookup (bytesOf id) = w.http.listener.channels.lookup id := by
  rw [lookup, textOf_bytesOf]

omit [DecidableEq φ] in
theorem insert_text (w : ZmqState φ) (id : String) (ch : HTTPChannel) :
    w.insert (bytesOf id) ch = { w with http := w.http.withChannels (w.http.listener.channels.insert id ch) } := by
  rw [insert, textOf_bytesOf]

omit [DecidableEq φ] in
theorem erase_text (w : ZmqState φ) (id : String) :
    w.erase (bytesOf id) = { w with http := w.http.withChannels (w.http.listener.channels.erase id) } := by
  rw [erase, textOf_bytesOf]

omit [DecidableEq φ] in
theorem withInstance_constructed {α : Type} {w : ZmqState φ} (constructed : w.constructed = true)
    (f : ZmqState φ → Except Exn α × ZmqState φ) : w.withInstance f = f w := by
  rw [withInstance, getInstance, if_pos constructed]

theorem save_text {w : ZmqState φ} (text : w.foreign = ∅) (written : Written) :
    w.save written = ((w.http.save written).1, { w with http := (w.http.save written).2 }) := by
  rw [save, if_pos text]

variable {w : ZmqState φ} (constructed : w.constructed = true) (text : w.foreign = ∅) (id : String)

include constructed text

theorem createChannel_text (C : Codec) (payload : Bytes) (written : Written) :
    w.createChannel C (bytesOf id) payload written =
      ((w.http.createChannel id (parseJson C payload) written).1,
        { w with http := (w.http.createChannel id (parseJson C payload) written).2 }) := by
  rw [createChannel, withInstance_constructed constructed, HTTPState.createChannel, lookup_text, textOf_bytesOf,
    Option.getD_some]
  by_cases there : id ∈ w.http.listener.channels
  · rw [if_pos there, if_pos (AList.lookup_isSome.mpr there)]
  · rw [if_neg there, if_neg (mt AList.lookup_isSome.mp there)]
    cases parseJson C payload >>= fun j => HTTPChannel.ofConfig id j with
    | error e => rfl
    | ok ch =>
      by_cases malformed : ch.isMalformed
      · simp [malformed]
      · simp only [malformed, Bool.false_eq_true, if_false, insert_text]
        refine save_text ?_ written
        exact text

theorem updateChannel_text (C : Codec) (payload : Bytes) (written : Written) :
    w.updateChannel C (bytesOf id) payload written =
      ((w.http.updateChannel id (parseJson C payload) written).1,
        { w with http := (w.http.updateChannel id (parseJson C payload) written).2 }) := by
  unfold updateChannel HTTPState.updateChannel
  cases parseJson C payload with
  | error e => rfl
  | ok j =>
    simp only [withInstance_constructed constructed, lookup_text, insert_text]
    cases w.http.listener.channels.lookup id with
    | none => rfl
    | some ch =>
      rcases reconfigured : ch.reconfigure j with ⟨e | _, after⟩
      · simp only [reconfigured]
      · simp only [reconfigured]
        refine save_text ?_ written
        exact text

theorem deleteChannel_text (written : Written) :
    w.deleteChannel (bytesOf id) written =
      ((w.http.deleteChannel id written).1, { w with http := (w.http.deleteChannel id written).2 }) := by
  rw [deleteChannel, withInstance_constructed constructed, erase_text]
  refine save_text ?_ written
  exact text

end Text

end ZmqState

/-! ## The replies -/

namespace ZMQAPI

open ZmqState

def errorReply : Bytes := bytesOf "\x7b\"error\": \"error\"\x7d"

def version : Bytes := bytesOf "0000"

def stateStr : ChannelState → String
  | .malformed => "MALFORMED"
  | .configured => "CONFIGURED"
  | .unkn => "UNKN"

/-- A channel in the listing. -/
def summary (id : String) (c : HTTPChannel) : Json :=
  Json.ofMembers [("id", .string id), ("type", .string "http"), ("state", .string (stateStr c.state)),
    ("enabled", .boolean c.enabled), ("msg_received", Json.ofSize c.msgReceived),
    ("msg_timestamp", Json.ofSize c.msgTimestamp)]

def port (n : Nat) (descr : String) : Json := Json.ofMembers [("port", .integer n), ("descr", .string descr)]

/-- The listing of one channel. -/
def description (id : String) (c : HTTPChannel) : Json :=
  Json.ofMembers ([("id", .string id), ("type", .string "http")] ++
    (if c.authtype = .token then [("token", .string c.token)] else []) ++
    [("queue_name", .string c.queueName), ("state", .string (stateStr c.state)), ("enabled", .boolean c.enabled),
      ("ports", .array [port 443 "HTTPS", port 80 "HTTP"]), ("path", .string ("/channel/http/" ++ id)),
      ("authtype", .string c.authtypeStr), ("msg_received", Json.ofSize c.msgReceived),
      ("msg_timestamp", Json.ofSize c.msgTimestamp)])

/-- What is made of the end of a call that `PUT` and `POST` make. -/
def caught : Except Exn Bool → Except Exn Bytes
  | .ok true => .ok []
  | .ok false => .ok errorReply
  | .error e => if e.kind = .configurationError then .ok (bytesOf ("\x7b\"error\": " ++ e.what ++ "\x7d")) else .error e

/-- `DELETE` catches nothing. -/
def uncaught : Except Exn Bool → Except Exn Bytes
  | .ok true => .ok []
  | .ok false => .ok errorReply
  | .error e => .error e

variable {φ : Type}

def zmqLegacyGet (path : Bytes) : Bytes :=
  if path = bytesOf "api_version" then version
  else if path = bytesOf "status" then bytesOf "running"
  else bytesOf "unknown path"

def zmqChannelGet (C : Codec) (w : ZmqState φ) (path : Bytes) : Except Exn Bytes × ZmqState φ :=
  match getLastSegments path with
  | [_] => w.withInstance fun w =>
    if w.foreign = ∅ then
      (.ok (C.dump (.array (w.http.listener.channels.entries.map fun e => summary e.1 e.2))), w)
    else (.error invalidUtf8, w)
  | [_, id] => w.withInstance fun w =>
    match w.lookup id with
    | none => (.ok errorReply, w)
    | some c =>
      match textOf id with
      | some id => (.ok (C.dump (description id c)), w)
      | none => (.error invalidUtf8, w)
  | _ => (.ok errorReply, w)

variable [DecidableEq φ]

def zmqLegacyPut (w : ZmqState φ) (path : Bytes) (written : Written) : Except Exn Bytes × ZmqState φ :=
  if path = bytesOf "set_api_auth_off" then set false
  else if path = bytesOf "set_api_auth_on" then set true
  else (.ok (bytesOf "unknown path"), w)
where
  set (value : Bool) : Except Exn Bytes × ZmqState φ :=
    let (result, w) := w.setApiAuthentication value written
    (result.map fun saved => bytesOf (if saved then "ok" else "fail"), w)

def zmqChannelPut (C : Codec) (w : ZmqState φ) (path payload : Bytes) (written : Written) :
    Except Exn Bytes × ZmqState φ :=
  match getLastSegments path with
  | [_, id] =>
    let (result, w) := w.updateChannel C id payload written
    (caught result, w)
  | _ => (.ok errorReply, w)

def zmqChannelPost (C : Codec) (w : ZmqState φ) (path payload : Bytes) (written : Written) :
    Except Exn Bytes × ZmqState φ :=
  match getLastSegments path with
  | [_, id] =>
    let (result, w) := w.createChannel C id payload written
    (caught result, w)
  | _ => (.ok errorReply, w)

def zmqChannelDelete (w : ZmqState φ) (path : Bytes) (written : Written) : Except Exn Bytes × ZmqState φ :=
  match getLastSegments path with
  | [_, id] =>
    let (result, w) := w.deleteChannel id written
    (uncaught result, w)
  | _ => (.ok errorReply, w)

end ZMQAPI

/-- What `api_handler` reads of a request. -/
structure ZmqRequest where
  method : Bytes
  path : Bytes
  payload : Bytes := []
  deriving DecidableEq, Repr

namespace ZMQAPI

variable {φ : Type} [DecidableEq φ]

/-- What is read of a text: nothing of one in chunks. -/
def readString : CborItem → Option Bytes
  | .string data => some data
  | .chunkedString _ => some []
  | _ => none

def readPayload : CborItem → Option Bytes
  | .bytestring data => some data
  | .chunkedBytestring _ => some []
  | item => readString item

/-- The method, the path and the payload, if the item has them. -/
def requestOf : CborItem → Option ZmqRequest
  | .array [method, path] => do some { method := ← readString method, path := ← readString path }
  | .array (method :: path :: payload :: _) => do
    some { method := ← readString method, path := ← readString path, payload := ← readPayload payload }
  | _ => none

/-- The method in upper or lower case. -/
def isMethod (upper lower : String) (method : Bytes) : Bool := method = bytesOf upper ∨ method = bytesOf lower

def onChannels (path : Bytes) : Bool := (bytesOf "channel").isPrefixOf path

def executeRequest (C : Codec) (w : ZmqState φ) (r : ZmqRequest) (written : Written) : Except Exn Bytes × ZmqState φ :=
  if isMethod "GET" "get" r.method then
    if onChannels r.path then zmqChannelGet C w r.path else (.ok (zmqLegacyGet r.path), w)
  else if isMethod "PUT" "put" r.method then
    if onChannels r.path then zmqChannelPut C w r.path r.payload written else zmqLegacyPut w r.path written
  else if isMethod "POST" "post" r.method then zmqChannelPost C w r.path r.payload written
  else if isMethod "DELETE" "delete" r.method then zmqChannelDelete w r.path written
  else (.ok (bytesOf "Unknown method"), w)

/-- `api_handler`, with the reply or the exception that leaves it. -/
def apiHandler (C : Codec) (w : ZmqState φ) (buffer : Bytes) (written : Written) : Except Exn Bytes × ZmqState φ :=
  match (C.cborLoad buffer).bind requestOf with
  | none => (.ok errorReply, w)
  | some r => executeRequest C w r written

end ZMQAPI

end M2eBridge
