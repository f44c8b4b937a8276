import M2eBridge.Connectors.Connector
import M2eBridge.Database.Authbundle
import M2eBridge.Lib.Runs

/-!
# The MQTT connector

`MqttConnector`: its constructor, and `do_connect` with the credentials of an
authentication bundle. The class has a member `authbundle_id_` of its own, which hides the
one that the constructor of `Connector` fills. Nothing writes it, so that no connector
looks its bundle up.
-/

namespace M2eBridge

inductive MqttVersion where
  | v311
  | v5
  deriving DecidableEq, Repr

structure SslOptions where
  verify : Bool
  enableServerCertAuth : Bool
  /-- `none` where it is not set. -/
  trustStore : Option String
  deriving DecidableEq

/-- The parts of `mqtt::connect_options` that the connector sets. -/
structure ConnectOptions where
  cleanSession : Bool := true
  mqttVersion : MqttVersion := .v5
  userName : Option Bytes := none
  password : Option Bytes := none
  ssl : Option SslOptions := none
  deriving DecidableEq

/-- The members of `MqttConnector` beside those of its base. -/
structure MqttConnector where
  base : Connector
  server : String
  clientId : String
  topicTemplate : String
  isTopicTemplate : Bool
  nRetryAttempts : Int
  qos : Int
  connOpts : ConnectOptions := {}
  /-- Not the one of `base`. -/
  authbundleId : String := ""
  mqttVersion : MqttVersion
  verifyServerHostname : Bool
  verifyServerCertificate : Bool
  caCertificateFile : String

namespace MqttConnector

/-! ## The constructor -/

/-- `Poco::trim`. -/
def trim (s : String) : String :=
  let isSpace := fun c : Char => c = ' ' ∨ '\t' ≤ c ∧ c ≤ '\r'
  .ofList ((s.toList.dropWhile isSpace).reverse.dropWhile isSpace).reverse

/-- A version that is neither leaves the default. -/
def versionOf (version : String) : MqttVersion := if trim version = "3.11" then .v311 else .v5

/-- `MqttConnector::MqttConnector`; `randomId` is what `generate_random_id` makes. -/
def ofConfig (randomId pipeid : String) (mode : ConnectorMode) (config : Json) : Except Exn MqttConnector := do
  let base ← Connector.ofConfig pipeid mode config
  let server := config.readOr "server" Json.getString "tcp://127.0.0.1:1884"
  let mqttVersion := versionOf (config.readOr "version" Json.getString "5")
  let topicTemplate ← config.required "topic" Json.getString "Topic cannot be null for mqtt connector"
  let clientId := config.readOr "client_id" Json.getString randomId
  let nRetryAttempts := config.readOr "retry_attempts" Json.getInt 10
  let qos := config.readOr "qos" Json.getInt 1
  let verifyServerHostname := config.readOr "verify_server_hostname" Json.getString "yes" = "yes"
  let verifyServerCertificate := config.readOr "verify_server_certificate" Json.getString "yes" = "yes"
  let caCertificateFile := config.readOr "ca_certificate" Json.getString ""
  let isTopicTemplate := (SubsEngine.pattern.find (bytesOf topicTemplate)).isSome
  .ok { base, server, clientId, topicTemplate, isTopicTemplate, nRetryAttempts, qos, mqttVersion,
        verifyServerHostname, verifyServerCertificate, caCertificateFile }

/-! ## The connection -/

/-- What is outside of a call of `do_connect`: the calls to SQLite, the signing of a token
for a client by a key, and the answer of the broker. -/
structure MqttOutcomes where
  database : SqliteOutcomes
  sign : Bytes → String → Except Exn Bytes
  caStorage : String
  /-- Whether the token arrives in time, or what `connect` throws. -/
  answer : Except Exn Bool

inductive MqttAct where
  | lookedUp (authbundleId : String)
  | connected (options : ConnectOptions)
  deriving DecidableEq

def noAuthbundle : Exn := ⟨.runtimeError, "Not able to retrieve authbundle!"⟩

def incompatible : Exn := ⟨.runtimeError, "Incompatiable authbundle auth type!"⟩

/-- The bundle with an id, as the table gives it. -/
def MqttOutcomes.lookup (o : MqttOutcomes) (authbundleId : String) : Except Exn (Option AuthBundle) :=
  (AuthbundleTable.get o.database (bytesOf authbundleId)).1

/-- The credentials of a bundle in the options; the user of a token stays if there is no token. -/
def credentials (o : MqttOutcomes) (clientId : String) (ab : AuthBundle) (options : ConnectOptions) :
    Except Exn Unit × ConnectOptions :=
  match ab.authType with
  | .password => (.ok (), { options with userName := some ab.username, password := some ab.password })
  | .jwtEs256 =>
    let options := if ab.username ≠ [] then { options with userName := some ab.username } else options
    match o.sign ab.keydata clientId with
    | .error e => (.error e, options)
    | .ok token => (.ok (), { options with password := some token })
  | _ => (.error incompatible, options)

/-- `parse_authbundle`, with the options that it leaves. -/
def parseAuthbundle (o : MqttOutcomes) (c : MqttConnector) : Except Exn Unit × ConnectOptions :=
  match o.lookup c.authbundleId with
  | .error e => (.error e, c.connOpts)
  | .ok none => (.error noAuthbundle, c.connOpts)
  | .ok (some ab) => credentials o c.clientId ab c.connOpts

def usesTls (c : MqttConnector) : Bool :=
  (bytesOf "ssl").isPrefixOf (bytesOf c.server) || (bytesOf "tls").isPrefixOf (bytesOf c.server)

def sslOptions (o : MqttOutcomes) (c : MqttConnector) : SslOptions where
  verify := c.verifyServerHostname
  enableServerCertAuth := c.verifyServerCertificate
  trustStore := if c.caCertificateFile ≠ "" then some (o.caStorage ++ c.caCertificateFile) else none

/-- The end of `do_connect`. -/
def connect (o : MqttOutcomes) (c : MqttConnector) : Except Exn Unit × MqttConnector × List MqttAct :=
  let c := if c.usesTls then { c with connOpts := { c.connOpts with ssl := some (c.sslOptions o) } } else c
  let result :=
    match o.answer with
    | .error e => .error e
    | .ok true => .ok ()
    | .ok false => .error ⟨.runtimeError, "MQTT Connection Timeout!"⟩
  (result, c, [.connected c.connOpts])

/-- The options before the credentials. -/
def started (c : MqttConnector) : MqttConnector :=
  { c with connOpts := { c.connOpts with cleanSession := false, mqttVersion := c.mqttVersion } }

/-- `do_connect`, with the connector that it leaves, and whether a bundle was looked up and
with which options a connection was asked for. -/
def doConnect (o : MqttOutcomes) (c : MqttConnector) : Except Exn Unit × MqttConnector × List MqttAct :=
  if c.authbundleId = "" then c.started.connect o
  else
    match c.started.parseAuthbundle o with
    | (.error e, connOpts) => (.error e, { c.started with connOpts }, [.lookedUp c.authbundleId])
    | (.ok (), connOpts) =>
      let out := { c.started with connOpts }.connect o
      (out.1, out.2.1, .lookedUp c.authbundleId :: out.2.2)

/-! ## What is expected of it -/

/-- The options that a bundle prescribes for the client. -/
def Prescribes (o : MqttOutcomes) (clientId : String) (ab : AuthBundle) (options : ConnectOptions) : Prop :=
  match ab.authType with
  | .password => options.userName = some ab.username ∧ options.password = some ab.password
  | .jwtEs256 =>
    (ab.username ≠ [] → options.userName = some ab.username) ∧
      ∃ token, o.sign ab.keydata clientId = .ok token ∧ options.password = some token
  | _ => False

/-- Why a connection with a bundle can be refused: it can not be read, it is missing or of
another type, or no token can be signed by it. -/
def Refuses (o : MqttOutcomes) (clientId authbundleId : String) (e : Exn) : Prop :=
  match o.lookup authbundleId with
  | .error thrown => e = thrown
  | .ok none => e = noAuthbundle
  | .ok (some ab) =>
    match ab.authType with
    | .password => False
    | .jwtEs256 => o.sign ab.keydata clientId = .error e
    | _ => e = incompatible

/-- The bundle of the config is looked up, and a connection is asked for with what it
prescribes, or the call throws for what is wrong with the bundle. -/
structure Authenticates (o : MqttOutcomes) (c : MqttConnector) : Prop where
  lookedUp : .lookedUp c.base.authbundleId ∈ (c.doConnect o).2.2
  prescribed : ∀ options, .connected options ∈ (c.doConnect o).2.2 →
    ∃ ab, o.lookup c.base.authbundleId = .ok (some ab) ∧ Prescribes o c.clientId ab options
  refused : (∀ options, .connected options ∉ (c.doConnect o).2.2) →
    ∃ e, (c.doConnect o).1 = .error e ∧ Refuses o c.clientId c.base.authbundleId e

variable {o : MqttOutcomes} {c : MqttConnector}

/-- The credentials are those of the bundle, or the bundle gives none. -/
theorem credentials_cases (o : MqttOutcomes) (clientId : String) (ab : AuthBundle) (options : ConnectOptions) :
    (∃ given, credentials o clientId ab options = (.ok (), given) ∧ Prescribes o clientId ab given) ∨
      ∃ e left, credentials o clientId ab options = (.error e, left) ∧
        match ab.authType with
        | .password => False
        | .jwtEs256 => o.sign ab.keydata clientId = .error e
        | _ => e = incompatible := by
  unfold credentials Prescribes
  cases type : ab.authType with
  | password => exact .inl ⟨_, rfl, rfl, rfl⟩
  | jwtEs256 =>
    cases signed : o.sign ab.keydata clientId with
    | error e => exact .inr ⟨e, _, rfl, rfl⟩
    | ok token =>
      refine .inl ⟨_, rfl, fun named => ?_, token, rfl, rfl⟩
      simp [named]
  | _ => exact .inr ⟨_, _, rfl, rfl⟩

theorem parseAuthbundle_cases (o : MqttOutcomes) (c : MqttConnector) :
    (∃ given ab, c.parseAuthbundle o = (.ok (), given) ∧ o.lookup c.authbundleId = .ok (some ab) ∧
      Prescribes o c.clientId ab given) ∨
      ∃ e left, c.parseAuthbundle o = (.error e, left) ∧ Refuses o c.clientId c.authbundleId e := by
  unfold parseAuthbundle Refuses
  cases found : o.lookup c.authbundleId with
  | error e => exact .inr ⟨e, _, rfl, rfl⟩
  | ok bundle =>
    cases bundle with
    | none => exact .inr ⟨_, _, rfl, rfl⟩
    | some ab =>
      rcases credentials_cases o c.clientId ab c.connOpts with ⟨given, read, prescribed⟩ | ⟨e, left, read, refused⟩
      · exact .inl ⟨given, ab, read, rfl, prescribed⟩
      · exact .inr ⟨e, left, read, refused⟩

/-- The end of the call asks for one connection, with the credentials that there are. -/
theorem connect_acts (o : MqttOutcomes) (c : MqttConnector) :
    ∃ options, (c.connect o).2.2 = [.connected options] ∧ options.userName = c.connOpts.userName ∧
      options.password = c.connOpts.password := by
  unfold connect
  split <;> exact ⟨_, rfl, rfl, rfl⟩

theorem Prescribes.congr {clientId : String} {ab : AuthBundle} {given options : ConnectOptions}
    (prescribed : Prescribes o clientId ab given) (user : options.userName = given.userName)
    (password : options.password = given.password) : Prescribes o clientId ab options := by
  unfold Prescribes at prescribed ⊢
  rw [user, password]
  exact prescribed

/-- Without an id of its own the connector asks for a connection at once. -/
theorem doConnect_empty (o : MqttOutcomes) (empty : c.authbundleId = "") : c.doConnect o = c.started.connect o := by
  unfold doConnect
  exact if_pos empty

theorem doConnect_refused (filled : c.authbundleId ≠ "") {e : Exn} {left : ConnectOptions}
    (parsed : c.started.parseAuthbundle o = (.error e, left)) :
    c.doConnect o = (.error e, { c.started with connOpts := left }, [.lookedUp c.authbundleId]) := by
  unfold doConnect
  rw [if_neg filled, parsed]

/-- With an id of its own, and a bundle for it, it asks with the credentials. -/
theorem doConnect_given (filled : c.authbundleId ≠ "") {given : ConnectOptions}
    (parsed : c.started.parseAuthbundle o = (.ok (), given)) :
    ∃ options, (c.doConnect o).2.2 = [.lookedUp c.authbundleId, .connected options] ∧
      options.userName = given.userName ∧ options.password = given.password := by
  obtain ⟨options, acts, user, password⟩ := connect_acts o { c.started with connOpts := given }
  refine ⟨options, ?_, user, password⟩
  unfold doConnect
  rw [if_neg filled, parsed]
  simp only [acts]

/-- With a bundle in the config, the connector authenticates iff its own id is the one of its base. -/
theorem authenticates_iff (o : MqttOutcomes) (asked : c.base.authbundleId ≠ "") :
    Authenticates o c ↔ c.authbundleId = c.base.authbundleId := by
  constructor
  · intro authenticates
    have lookedUp := authenticates.lookedUp
    by_cases empty : c.authbundleId = ""
    · obtain ⟨options, acts, -⟩ := connect_acts o c.started
      rw [doConnect_empty o empty, acts] at lookedUp
      simp at lookedUp
    · rcases parseAuthbundle_cases o c.started with ⟨given, ab, parsed, -⟩ | ⟨e, left, parsed, -⟩
      · obtain ⟨options, acts, -⟩ := doConnect_given empty parsed
        rw [acts] at lookedUp
        simpa [eq_comm] using lookedUp
      · rw [doConnect_refused empty parsed] at lookedUp
        simpa [eq_comm] using lookedUp
  · intro same
    have filled : c.authbundleId ≠ "" := by rwa [same]
    rcases parseAuthbundle_cases o c.started with ⟨given, ab, parsed, found, prescribed⟩ | ⟨e, left, parsed, refused⟩
    · obtain ⟨options, shown, user, password⟩ := doConnect_given filled parsed
      refine ⟨by simp [shown, same], fun other member => ?_, fun none_asked => ?_⟩
      · rw [shown] at member
        obtain rfl : other = options := by simpa using member
        exact ⟨ab, same ▸ found, prescribed.congr user password⟩
      · exact absurd (by simp [shown]) (none_asked options)
    · have shown := doConnect_refused filled parsed
      refine ⟨by simp [shown, same], fun other member => ?_, fun _ => ⟨e, by rw [shown], same ▸ refused⟩⟩
      rw [shown] at member
      simp at member

/-! ## Every connection -/

/-- Calls of `do_connect`, one after another. -/
def reconnect (o : MqttOutcomes) (c : MqttConnector) : Option MqttConnector := some (c.doConnect o).2.1

/-- What the constructor leaves, and every connection. -/
structure Anonymous (base : Connector) (c : MqttConnector) : Prop where
  sameBase : c.base = base
  noBundle : c.authbundleId = ""
  noUser : c.connOpts.userName = none
  noPassword : c.connOpts.password = none

theorem anonymous_ofConfig {randomId pipeid : String} {mode : ConnectorMode} {config : Json}
    (built : ofConfig randomId pipeid mode config = .ok c) : Anonymous c.base c := by
  obtain ⟨base, -, built⟩ := bind_eq_ok.mp built
  obtain ⟨topic, -, built⟩ := bind_eq_ok.mp built
  cases built
  exact ⟨rfl, rfl, rfl, rfl⟩

theorem Anonymous.reconnect {base : Connector} {d : MqttConnector} (anonymous : Anonymous base c)
    (next : c.reconnect o = some d) : Anonymous base d := by
  cases next
  rw [doConnect_empty o anonymous.noBundle]
  unfold connect
  split <;> exact ⟨anonymous.sameBase, anonymous.noBundle, anonymous.noUser, anonymous.noPassword⟩

theorem base_ofConfig {randomId pipeid id : String} {mode : ConnectorMode} {config : Json}
    (built : ofConfig randomId pipeid mode config = .ok c) (asked : config.find? "authbundle_id" = some (.string id)) :
    c.base.authbundleId = id := by
  obtain ⟨base, read, built⟩ := bind_eq_ok.mp built
  obtain ⟨topic, -, built⟩ := bind_eq_ok.mp built
  cases built
  obtain ⟨format, -, read⟩ := bind_eq_ok.mp read
  cases read
  have text : Json.getString (.string id) = .ok id := rfl
  exact Json.readOr_of_find asked text ""

/-- **No connector authenticates.** Whatever bundle its config names and whatever the table
has, at every connection nothing is looked up, and the broker is asked without a user name
and without a password. -/
theorem never_authenticates {randomId pipeid id : String} {mode : ConnectorMode} {config : Json} {start : MqttConnector}
    (built : ofConfig randomId pipeid mode config = .ok start)
    (asked : config.find? "authbundle_id" = some (.string id)) (filled : id ≠ "")
    (reached : Lib.Reaches (fun o c => c.reconnect o) start c) (o : MqttOutcomes) :
    ¬ Authenticates o c ∧
      ∃ options, (c.doConnect o).2.2 = [.connected options] ∧ options.userName = none ∧ options.password = none := by
  have anonymous : Anonymous start.base c :=
    reached.invariant (Anonymous start.base) (anonymous_ofConfig built) fun _ _ _ kept next => kept.reconnect next
  have named : c.base.authbundleId = id := by rw [anonymous.sameBase, base_ofConfig built asked]
  constructor
  · rw [authenticates_iff o (by rwa [named]), anonymous.noBundle, named]
    exact filled.symm
  · obtain ⟨options, acts, user, password⟩ := connect_acts o c.started
    rw [doConnect_empty o anonymous.noBundle]
    exact ⟨options, acts, user.trans anonymous.noUser, password.trans anonymous.noPassword⟩

def plainConfig : Json := .object [("authbundle_id", .string "b"), ("topic", .string "t")]

/-- What the constructor makes of `plainConfig`. -/
def plain : MqttConnector where
  base := { Connector.plain with authbundleId := "b" }
  server := "tcp://127.0.0.1:1884"
  clientId := "r"
  topicTemplate := "t"
  isTopicTemplate := false
  nRetryAttempts := 10
  qos := 1
  mqttVersion := .v5
  verifyServerHostname := true
  verifyServerCertificate := true
  caCertificateFile := ""

/-- The table has the bundle, with a user and a password, and the broker answers. -/
def withBundle : MqttOutcomes where
  database := { SqliteOutcomes.good with
    stepped := .row (["b", "mqtt50", "password", "user", "secret"].map fun text => some (bytesOf text)) }
  sign := fun _ _ => .ok []
  caStorage := ""
  answer := .ok true

theorem never_authenticates_plain :
    ¬ Authenticates withBundle plain ∧
      ∃ options, (plain.doConnect withBundle).2.2 = [.connected options] ∧ options.userName = none ∧
        options.password = none :=
  have built : ofConfig "r" "p" .output plainConfig = .ok plain := rfl
  never_authenticates built rfl (by decide) .refl withBundle

/-- A connector whose bundle is in the table asks for a connection all the same without it. -/
theorem bundle_ignored :
    ¬ ∀ (config : Json) (c : MqttConnector) (o : MqttOutcomes), ofConfig "r" "p" .output config = .ok c →
      c.base.authbundleId ≠ "" → Authenticates o c := by
  intro all
  have asked : plain.base.authbundleId ≠ "" := by decide
  have authenticates := all plainConfig plain withBundle rfl asked
  exact absurd ((authenticates_iff withBundle asked).mp authenticates) (by decide)

end MqttConnector

end M2eBridge
