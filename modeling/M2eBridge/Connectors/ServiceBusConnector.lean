import M2eBridge.Connectors.Connector
import M2eBridge.Database.Authbundle
import M2eBridge.MessageWrapper

/-!
# The Azure Service Bus connector

`ServiceBusConnector`: the connection string, the token that is signed with its key, and the
requests of `do_send` and `do_receive` on one easy handle of libcurl. A call is given the
readings of the clock that it takes and what becomes of its transfers; besides its result
it leaves the connector and what can be seen of it, tokens generated and requests issued.
-/

namespace M2eBridge

/-- A token, whose text ends with the time at which it expires. -/
structure SasToken where
  resourceUri : Bytes
  signature : Bytes
  expiry : Int
  keyName : Bytes
  deriving DecidableEq

/-- What the connector takes from the libraries for its tokens. -/
structure SasLibrary where
  urlEncode : Bytes → Bytes
  hmacSha256 : Bytes → Bytes → Bytes
  base64 : Bytes → Bytes

def SasToken.text (t : SasToken) : Bytes :=
  bytesOf "SharedAccessSignature sr=" ++ t.resourceUri ++ bytesOf "&sig=" ++ t.signature ++
    bytesOf ("&se=" ++ toString t.expiry ++ "&skn=") ++ t.keyName

/-- The options of an easy handle, which stay until they are set again. -/
structure EasyHandle where
  url : Bytes := []
  /-- `CURLOPT_POST`, which `CURLOPT_HTTPGET` takes back. -/
  post : Bool := false
  /-- `CURLOPT_CUSTOMREQUEST`, which goes before both. -/
  customRequest : Option String := none
  postFields : Bytes := []
  authorization : Option SasToken := none
  contentType : Option String := none
  deriving DecidableEq

/-- What becomes of a transfer, and when it is made. -/
structure Transfer where
  time : Int
  /-- `curl_easy_strerror`, if it fails. -/
  result : Except String Unit
  /-- What the write callback is given. -/
  body : Bytes

structure CurlRequest where
  method : String
  url : Bytes
  authorization : Option SasToken
  time : Int
  deriving DecidableEq

def EasyHandle.method (h : EasyHandle) : String := h.customRequest.getD (if h.post then "POST" else "GET")

/-- `curl_easy_perform`. -/
def EasyHandle.perform (h : EasyHandle) (t : Transfer) : CurlRequest :=
  { method := h.method, url := h.url, authorization := h.authorization, time := t.time }

/-- What can be seen of a call. -/
inductive SasAct where
  | generated (time : Int) (before : Option SasToken) (token : SasToken)
  | requested (r : CurlRequest)
  deriving DecidableEq

/-- The readings of the clock by `refresh_sas_token` and by `generate_sas_token` in it. -/
structure ClockReadings where
  checked : Int
  generated : Int

structure ServiceBusConnector where
  base : Connector
  connectionString : Bytes
  endpoint : Bytes := []
  accessKeyName : Bytes := []
  accessKey : Bytes := []
  entityPath : String
  /-- `none` is the empty string of a connector that has not connected. -/
  sasToken : Option SasToken := none
  /-- No constructor and no function writes it. -/
  sasTokenExpiry : Int
  expireIn : Int
  resourceUri : Bytes := []
  isTopic : Bool
  subscriptionName : String
  deleteAfterProcessing : Bool
  curl : Option EasyHandle := none

namespace ServiceBusConnector

/-! ## The constructor -/

/-- `parse_authbundle`. -/
def parseAuthbundle (o : SqliteOutcomes) (authbundleId : String) : Except Exn Bytes := do
  match ← (AuthbundleTable.get o (bytesOf authbundleId)).1 with
  | none => .error ⟨.runtimeError, "Not able to retrieve authbundle"⟩
  | some ab =>
    if ab.serviceType ≠ .azure then .error ⟨.runtimeError, "Incompatiable authbundle service type"⟩
    else if ab.authType ≠ .accessKey then .error ⟨.runtimeError, "Incompatiable authbundle auth type"⟩
    else .ok ab.password

/-- The conversion of `expire_in` to an `int`, by way of a `time_t`. -/
def getExpireIn : Json → Except Exn Int
  | .integer n => .ok (Int.bmod n UInt32.size)
  | .float bits => .ok (Int.bmod (Float.ofBits bits).toInt64.toInt UInt32.size)
  | j => .error (Json.typeError302 "number" j)

/-- `ServiceBusConnector::ServiceBusConnector`; `sas_token_expiry_` has whatever its memory had. -/
def ofConfig (o : SqliteOutcomes) (memory : Int) (pipeid : String) (mode : ConnectorMode) (config : Json) :
    Except Exn ServiceBusConnector := do
  let base ← Connector.ofConfig pipeid mode config
  if base.authbundleId = "" then
    .error ⟨.runtimeError, "authbundle_id cannot be null for azure service bus connector"⟩
  else
    let connectionString ← parseAuthbundle o base.authbundleId
    let entityPath ← config.required "entity_path" Json.getString
      "entity_path cannot be null for azure service bus connector"
    let expireIn := config.readOr "expire_in" getExpireIn 3600
    let isTopic ← config.required "is_topic" Json.getBoolean "is_topic cannot be null for azure service bus connector"
    let subscriptionName ←
      if isTopic ∧ mode = .input then
        config.required "subscription_name" Json.getString
          "subscription_name cannot be null for azure service bus connector_in"
      else .ok ""
    let deleteAfterProcessing ←
      if config.contains "delete_after_processing" then do (← config.at' "delete_after_processing").getBoolean
      else .ok !isTopic
    let sasTokenExpiry := memory
    .ok { base, connectionString, entityPath, sasTokenExpiry, expireIn, isTopic, subscriptionName, deleteAfterProcessing }

/-! ## The calls -/

/-- The group of `name([^;]+)`, or of `name([^;]+);`, where it is found first. -/
def captured (name : Bytes) (closed : Bool) : Bytes → Option Bytes
  | [] => none
  | b :: rest =>
    let behind := (b :: rest).drop name.length
    let value := behind.takeWhile (· ≠ 0x3b)
    if name.isPrefixOf (b :: rest) ∧ value ≠ [] ∧ (closed → value.length < behind.length) then some value
    else captured name closed rest

/-- `parse_connection_string`, with the parts that it leaves. -/
def parseConnectionString (c : ServiceBusConnector) : Bool × ServiceBusConnector :=
  match captured (bytesOf "Endpoint=") true c.connectionString with
  | none => (false, c)
  | some endpoint =>
    let c := { c with endpoint }
    match captured (bytesOf "SharedAccessKeyName=") true c.connectionString with
    | none => (false, c)
    | some accessKeyName =>
      let c := { c with accessKeyName }
      match captured (bytesOf "SharedAccessKey=") false c.connectionString with
      | none => (false, c)
      | some accessKey => (true, { c with accessKey })

variable (S : SasLibrary)

/-- `generate_sas_token`. -/
def generateSasToken (c : ServiceBusConnector) (now : Int) : SasToken :=
  let expiry := now + c.expireIn
  let stringToSign := S.urlEncode c.resourceUri ++ bytesOf ("\n" ++ toString expiry)
  { resourceUri := S.urlEncode c.resourceUri
    signature := S.urlEncode (S.base64 (S.hmacSha256 c.accessKey stringToSign))
    expiry
    keyName := c.accessKeyName }

/-- `sas_token_ = generate_sas_token(resource_uri_)`. -/
def renew (c : ServiceBusConnector) (now : Int) : ServiceBusConnector × List SasAct :=
  let token := c.generateSasToken S now
  ({ c with sasToken := some token }, [.generated now c.sasToken token])

def refreshSasToken (c : ServiceBusConnector) (r : ClockReadings) : ServiceBusConnector × List SasAct :=
  if c.sasTokenExpiry ≤ r.checked then c.renew S r.generated else (c, [])

/-- The address behind `sb://` is one of `https://`. -/
def resourceUriOf (c : ServiceBusConnector) : Bytes :=
  let uri := c.endpoint ++ bytesOf c.entityPath
  if (bytesOf "sb://").isPrefixOf uri then bytesOf "https://" ++ uri.drop 5 else uri

/-- `do_connect`; `init` says whether `curl_easy_init` gives a handle. -/
def doConnect (c : ServiceBusConnector) (now : Int) (init : Bool) :
    Except Exn Unit × ServiceBusConnector × List SasAct :=
  match c.parseConnectionString with
  | (false, c) => (.error ⟨.runtimeError, "Incompatiable connection string"⟩, c, [])
  | (true, c) =>
    let (c, acts) := { c with resourceUri := c.resourceUriOf }.renew S now
    if init then (.ok (), { c with curl := some {} }, acts)
    else (.error ⟨.runtimeError, "Failed to initialize CURL"⟩, { c with curl := none }, acts)

def curlError (what : String) : Exn := ⟨.runtimeError, what⟩

/-- `do_send`, on the handle `h`. -/
def doSend (C : Codec) (c : ServiceBusConnector) (h : EasyHandle) (w : MessageWrapper) (r : ClockReadings)
    (t : Transfer) : Except Exn Unit × MessageWrapper × ServiceBusConnector × List SasAct :=
  match w.onMsg (·.getRaw C) with
  | (.error e, w) => (.error e, w, c, [])
  | (.ok payload, w) =>
    let h := { h with url := c.resourceUri ++ bytesOf "/messages", post := true, postFields := cString payload }
    let (c, acts) := c.refreshSasToken S r
    let h := { h with authorization := c.sasToken, contentType := some "text/plain; charset=utf-8" }
    (t.result.mapError curlError, w, { c with curl := some h }, acts ++ [.requested (h.perform t)])

def receiveUrl (c : ServiceBusConnector) : Bytes :=
  if c.isTopic then
    c.resourceUri ++ bytesOf ("/subscriptions/" ++ c.subscriptionName ++ "/messages/head?api-version=2013-08")
  else c.resourceUri ++ bytesOf "/messages/head?api-version=2013-08"

/-- The outside of a call of `do_receive`. -/
structure Reception where
  readings : ClockReadings
  read : Transfer
  delete : Transfer

/-- The read brings a message. -/
def Reception.gets (w : Reception) : Bool := w.read.result.isOk && !w.read.body.isEmpty

/-- `do_receive`, on the handle `h`. One buffer takes the bodies of both transfers. -/
def doReceive (c : ServiceBusConnector) (h : EasyHandle) (w : Reception) :
    Except Exn Message × ServiceBusConnector × List SasAct :=
  let h := { h with url := c.receiveUrl, post := false }
  let (c, acts) := c.refreshSasToken S w.readings
  let h := { h with authorization := c.sasToken, contentType := none }
  let response := w.read.body
  let acts := acts ++ [.requested (h.perform w.read)]
  match w.read.result with
  | .error what => (.error (curlError what), { c with curl := some h }, acts)
  | .ok () =>
    if response = [] then (.error ⟨.outOfRange, "No messages"⟩, { c with curl := some h }, acts)
    else if c.deleteAfterProcessing then
      let h := { h with url := c.receiveUrl, customRequest := some "DELETE" }
      let response := response ++ w.delete.body
      let acts := acts ++ [.requested (h.perform w.delete)]
      match w.delete.result with
      | .error what => (.error (curlError what), { c with curl := some h }, acts)
      | .ok () => (.ok (.ofString response c.base.msgFormat c.entityPath), { c with curl := some h }, acts)
    else (.ok (.ofString response c.base.msgFormat c.entityPath), { c with curl := some h }, acts)

/-! ## What a call of `do_receive` does -/

variable {S}

@[simp] theorem refresh_deleteAfterProcessing (c : ServiceBusConnector) (r : ClockReadings) :
    (c.refreshSasToken S r).1.deleteAfterProcessing = c.deleteAfterProcessing := by
  unfold refreshSasToken
  split <;> rfl

/-- The parts of the connection string are all that is parsed. -/
theorem parseConnectionString_kept (c : ServiceBusConnector) :
    c.parseConnectionString.2.sasToken = c.sasToken ∧
      c.parseConnectionString.2.deleteAfterProcessing = c.deleteAfterProcessing := by
  unfold parseConnectionString
  split
  · exact ⟨rfl, rfl⟩
  · dsimp only
    split
    · exact ⟨rfl, rfl⟩
    · split <;> exact ⟨rfl, rfl⟩

/-- A connection begins with a handle of its own. -/
theorem doConnect_ok {c : ServiceBusConnector} {now : Int} {init : Bool} (connected : (c.doConnect S now init).1 = .ok ()) :
    (c.doConnect S now init).2.1.curl = some {} ∧
      (c.doConnect S now init).2.1.deleteAfterProcessing = c.deleteAfterProcessing := by
  have kept := (parseConnectionString_kept c).2
  unfold doConnect at connected ⊢
  generalize c.parseConnectionString = parsed at connected kept ⊢
  obtain ⟨result, c'⟩ := parsed
  cases result with
  | false => cases connected
  | true =>
    cases init with
    | false => cases connected
    | true => exact ⟨rfl, kept⟩

theorem refresh_kept (c : ServiceBusConnector) (r : ClockReadings) :
    (c.refreshSasToken S r).1.base = c.base ∧ (c.refreshSasToken S r).1.entityPath = c.entityPath := by
  unfold refreshSasToken
  split <;> exact ⟨rfl, rfl⟩

/-- The handle of the read. -/
def readHandle (c refreshed : ServiceBusConnector) (h : EasyHandle) : EasyHandle :=
  { h with url := c.receiveUrl, post := false, authorization := refreshed.sasToken, contentType := none }

/-- The handle of the delete. -/
def deleteHandle (c refreshed : ServiceBusConnector) (h : EasyHandle) : EasyHandle :=
  { readHandle c refreshed h with url := refreshed.receiveUrl, customRequest := some "DELETE" }

/-- No message is brought, or one is that stays in the queue, or one is that is deleted. -/
theorem doReceive_cases (c : ServiceBusConnector) (h : EasyHandle) (w : Reception) :
    let (refreshed, acts) := c.refreshSasToken S w.readings
    let read := readHandle c refreshed h
    let delete := deleteHandle c refreshed h
    (w.gets = false ∧ ∃ e, c.doReceive S h w =
      (.error e, { refreshed with curl := some read }, acts ++ [.requested (read.perform w.read)])) ∨
    (w.gets = true ∧ c.deleteAfterProcessing = false ∧ c.doReceive S h w =
      (.ok (.ofString w.read.body c.base.msgFormat c.entityPath), { refreshed with curl := some read },
        acts ++ [.requested (read.perform w.read)])) ∨
    (w.gets = true ∧ c.deleteAfterProcessing = true ∧ c.doReceive S h w =
      ((w.delete.result.mapError curlError).map fun _ =>
          .ofString (w.read.body ++ w.delete.body) c.base.msgFormat c.entityPath,
        { refreshed with curl := some delete },
        acts ++ [.requested (read.perform w.read), .requested (delete.perform w.delete)])) := by
  obtain ⟨base, entityPath⟩ := refresh_kept (S := S) c w.readings
  unfold doReceive
  cases result : w.read.result with
  | error what => exact .inl ⟨by simp [Reception.gets, result, Except.isOk, Except.toBool], _, rfl⟩
  | ok done =>
    by_cases empty : w.read.body = []
    · simp only [empty, if_true]
      exact .inl ⟨by simp [Reception.gets, empty], _, rfl⟩
    · have gets : w.gets = true := by simp [Reception.gets, result, empty, Except.isOk, Except.toBool]
      simp only [empty, if_false, refresh_deleteAfterProcessing, base, entityPath]
      cases deletes : c.deleteAfterProcessing with
      | false => exact .inr (.inl ⟨gets, rfl, rfl⟩)
      | true =>
        simp only [if_true, List.append_assoc, List.singleton_append]
        cases w.delete.result <;> exact .inr (.inr ⟨gets, trivial, rfl⟩)

/-- The requests behind a refresh: the read, and the delete of what it brought. -/
structure Receives (c : ServiceBusConnector) (h : EasyHandle) (w : Reception) (refreshed : ServiceBusConnector)
    (requests : List CurlRequest) : Prop where
  signed : ∀ request ∈ requests, request.authorization = refreshed.sasToken
  times : requests.map CurlRequest.time =
    w.read.time :: if w.gets && c.deleteAfterProcessing then [w.delete.time] else []
  methods : requests.map CurlRequest.method =
    h.customRequest.getD "GET" :: if w.gets && c.deleteAfterProcessing then ["DELETE"] else []

theorem doReceive_requests (c : ServiceBusConnector) (h : EasyHandle) (w : Reception) :
    ∃ requests, (c.doReceive S h w).2.2 = (c.refreshSasToken S w.readings).2 ++ requests.map .requested ∧
      Receives c h w (c.refreshSasToken S w.readings).1 requests := by
  have once (refreshed : ServiceBusConnector) (single : (w.gets && c.deleteAfterProcessing) = false) :
      Receives c h w refreshed [(readHandle c refreshed h).perform w.read] := by
    refine ⟨fun request member => ?_, ?_, ?_⟩
    · rw [List.mem_singleton.mp member]
      rfl
    · simp [single, EasyHandle.perform]
    · simp [single, EasyHandle.perform, EasyHandle.method, readHandle]
  rcases doReceive_cases (S := S) c h w with ⟨gets, e, received⟩ | ⟨gets, deletes, received⟩ | ⟨gets, deletes, received⟩
  · rw [received]
    exact ⟨_, rfl, once _ (by simp [gets])⟩
  · rw [received]
    exact ⟨_, rfl, once _ (by simp [deletes])⟩
  · rw [received]
    refine ⟨[_, _], rfl, fun request member => ?_, ?_, ?_⟩
    · rcases List.mem_cons.mp member with rfl | member
      · rfl
      · rw [List.mem_singleton.mp member]
        rfl
    · simp [gets, EasyHandle.perform, deletes]
    · simp [gets, EasyHandle.perform, EasyHandle.method, readHandle, deleteHandle, deletes]

/-- The handle keeps the method of the delete, and what comes back is the bodies of both transfers. -/
structure Returns (c : ServiceBusConnector) (h : EasyHandle) (w : Reception)
    (out : Except Exn Message × ServiceBusConnector × List SasAct) : Prop where
  handle : ∃ h', out.2.1.curl = some h' ∧
    h'.customRequest = if w.gets && c.deleteAfterProcessing then some "DELETE" else h.customRequest
  deletes : out.2.1.deleteAfterProcessing = c.deleteAfterProcessing
  payload : ∀ m, out.1 = .ok m ↔ w.gets = true ∧
    if c.deleteAfterProcessing then
      w.delete.result = .ok () ∧ m = .ofString (w.read.body ++ w.delete.body) c.base.msgFormat c.entityPath
    else m = .ofString w.read.body c.base.msgFormat c.entityPath

theorem doReceive_returns (c : ServiceBusConnector) (h : EasyHandle) (w : Reception) :
    Returns c h w (c.doReceive S h w) := by
  rcases doReceive_cases (S := S) c h w with ⟨gets, e, received⟩ | ⟨gets, deletes, received⟩ | ⟨gets, deletes, received⟩
  · rw [received]
    exact ⟨⟨_, rfl, by simp [gets, readHandle]⟩, refresh_deleteAfterProcessing c _, by simp [gets]⟩
  · rw [received]
    refine ⟨⟨_, rfl, by simp [deletes, readHandle]⟩, refresh_deleteAfterProcessing c _, fun m => ?_⟩
    simp [gets, deletes, eq_comm]
  · rw [received]
    refine ⟨⟨_, rfl, by simp [gets, deletes, deleteHandle]⟩, refresh_deleteAfterProcessing c _, fun m => ?_⟩
    cases deleted : w.delete.result with
    | error what => simp [deletes, Except.mapError, Except.map]
    | ok done => simp [gets, deletes, Except.mapError, Except.map, eq_comm]

/-! ## Runs -/

inductive ServiceBusCall where
  | connect (now : Int) (init : Bool)
  | send (w : MessageWrapper) (r : ClockReadings) (t : Transfer)
  | receive (w : Reception)

variable (S) (C : Codec)

/-- A call, with the connector that it leaves and what is seen of it; without a handle there is no request to make. -/
def perform (call : ServiceBusCall) (c : ServiceBusConnector) : Option (ServiceBusConnector × List SasAct) :=
  match call, c.curl with
  | .connect now init, _ => some (c.doConnect S now init).2
  | .send w r t, some h => some (c.doSend S C h w r t).2.2
  | .receive w, some h => some (c.doReceive S h w).2
  | _, none => none

def step (call : ServiceBusCall) (c : ServiceBusConnector) : Option ServiceBusConnector :=
  (c.perform S C call).map Prod.fst

def acts (call : ServiceBusCall) (c : ServiceBusConnector) : List SasAct :=
  ((c.perform S C call).map Prod.snd).getD []

/-! ## A queue -/

/-- Nothing is encoded, and a text is its own signature. -/
def plainLibrary : SasLibrary := { urlEncode := id, hmacSha256 := fun _ data => data, base64 := id }

/-- A connector as it is constructed. -/
def plainQueue (memory : Int) : ServiceBusConnector where
  base := .plain
  connectionString := bytesOf "Endpoint=sb://n/;SharedAccessKeyName=k;SharedAccessKey=s"
  entityPath := "q"
  sasTokenExpiry := memory
  expireIn := 3600
  isTopic := false
  subscriptionName := ""
  deleteAfterProcessing := true

end ServiceBusConnector

end M2eBridge
