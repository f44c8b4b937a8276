import M2eBridge.Json
import M2eBridge.InternalQueue
import M2eBridge.Message

/-!
# HTTP channels

`HTTPChannel`: the constructor in its strict and its lenient mode, `reconfigure`,
which changes the fields that its argument names, and `consume`. Whatever was done
to a channel, its state and its queue are a function of its other fields (`Settled`):
it is malformed iff its queue has no name or the token that it asks for is empty.
-/

namespace M2eBridge

inductive AuthType where
  | unkn
  | none
  | token
  deriving DecidableEq, Repr

inductive ChannelState where
  | unkn
  | malformed
  | configured
  deriving DecidableEq, Repr

/-- `str2authtype`. -/
def AuthType.ofString (str : String) : AuthType :=
  if str = "token" then .token else if str = "none" then .none else .unkn

/-- `get_queue_ptr`: an entry of `queues_` is never removed, so its key stands for its address. -/
def InternalQueue.getQueuePtr (queuid : String) : String := queuid

@[ext] structure HTTPChannel where
  id : String := ""
  token : String := ""
  queueName : String := ""
  authtype : AuthType := .unkn
  /-- `none` is the null pointer. -/
  queue : Option String := none
  state : ChannelState := .unkn
  enabled : Bool := false
  msgReceived : UInt64 := 0
  msgTimestamp : UInt64 := 0
  deriving DecidableEq, Repr

namespace HTTPChannel

def isAnonymous (c : HTTPChannel) : Bool := c.authtype = .none

def isMalformed (c : HTTPChannel) : Bool := c.state = .malformed

/-- `get_authtype_str`. -/
def authtypeStr (c : HTTPChannel) : String :=
  match c.authtype with
  | .none => "none"
  | .token => "token"
  | .unkn => "unkn"

/-- `verify_token`, on a C string. -/
def verifyToken (c : HTTPChannel) (token : Bytes) : Bool := bytesOf c.token = token

theorem ofString_authtypeStr (c : HTTPChannel) : AuthType.ofString c.authtypeStr = c.authtype := by
  unfold authtypeStr
  cases c.authtype <;> rfl

/-! ## The constructor -/

def canNotBeEmpty (field : String) : Exn := ⟨.configurationError, field ++ " can not be empty"⟩

/-- A field that must not be empty: the strict constructor throws where it is, the
lenient one goes on. -/
def checkFilled (strict : Bool) (field s : String) : Except Exn ChannelState :=
  if s = "" then if strict then .error (canNotBeEmpty field) else .ok .malformed else .ok .configured

def tokenIn (config : Json) : Except Exn Json :=
  if config.contains "token" then config.at' "token" else config.at' "secret"

/-- The token of a channel that asks for one; any other gets none. -/
def readToken (authtype : AuthType) (config : Json) (strict : Bool) : Except Exn (String × ChannelState) :=
  if authtype = .token then do
    let token ← (← tokenIn config).getString
    .ok (token, ← checkFilled strict "token" token)
  else .ok ("", .configured)

/-- The name and the queue. The `catch` is for the exceptions of the library, and
nothing before `checkFilled` throws another. -/
def readQueue (config : Json) (strict : Bool) : Except Exn (String × Option String × ChannelState) :=
  match config.at' "queue_name" >>= Json.getString with
  | .ok name => do
    let state ← checkFilled strict "queue_name" name
    .ok (name, if name = "" then none else some (InternalQueue.getQueuePtr name), state)
  | .error _ => .ok ("", none, .malformed)

/-- `HTTPChannel::HTTPChannel`. -/
def ofConfig (id : String) (config : Json) (strict : Bool := true) : Except Exn HTTPChannel := do
  let authtype := AuthType.ofString (← (← config.at' "authtype").getString)
  let (token, tokenState) ← readToken authtype config strict
  let enabled ← config.value Json.getBoolean "enabled" false
  let (queueName, queue, queueState) ← readQueue config strict
  -- "Let's be optimistic": either field can still make the channel malformed
  let state := if tokenState = .malformed ∨ queueState = .malformed then .malformed else .configured
  .ok { id, token, queueName, authtype, queue, state, enabled }

/-! ## `reconfigure` -/

def patchQueueName (c : HTTPChannel) (config : Json) : Except Exn String :=
  if config.contains "queue_name" then do
    let name ← (← config.at' "queue_name").getString
    if name = "" then .error (canNotBeEmpty "queue_name") else .ok name
  else if c.queueName = "" then .error (canNotBeEmpty "queue_name")
  else .ok c.queueName

def givenToken (c : HTTPChannel) (config : Json) : Except Exn String :=
  if config.contains "token" then do (← config.at' "token").getString
  else if config.contains "secret" then do (← config.at' "secret").getString
  else if c.authtype ≠ .token then .error ⟨.configurationError, "Token is missing"⟩
  else .ok c.token

/-- The token of a channel that is to ask for one. -/
def patchToken (c : HTTPChannel) (config : Json) : Except Exn String := do
  let token ← c.givenToken config
  if token = "" then .error (canNotBeEmpty "token") else .ok token

def patchAuth (c : HTTPChannel) (config : Json) : Except Exn (AuthType × String) :=
  if config.contains "authtype" then do
    match AuthType.ofString (← (← config.at' "authtype").getString) with
    | .token => .ok (.token, ← c.patchToken config)
    | other => .ok (other, c.token)
  else if c.authtype = .token ∧ c.token = "" then .error (canNotBeEmpty "token")
  else .ok (c.authtype, c.token)

def patchEnabled (c : HTTPChannel) (config : Json) : Except Exn Bool :=
  if config.contains "enabled" then do (← config.at' "enabled").getBoolean else .ok c.enabled

/-- The copy `tmp`, to which the checks are made. -/
def patch (c : HTTPChannel) (config : Json) : Except Exn HTTPChannel := do
  let queueName ← c.patchQueueName config
  let (authtype, token) ← c.patchAuth config
  let enabled ← c.patchEnabled config
  .ok { c with queueName, authtype, token, enabled }

/-- `reconfigure`, with the channel that it leaves. -/
def reconfigure (c : HTTPChannel) (config : Json) : Except Exn Unit × HTTPChannel :=
  match c.patch config with
  | .error e => (.error e, c)
  | .ok tmp =>
    (.ok (), { c with
      queueName := tmp.queueName
      queue := some (InternalQueue.getQueuePtr tmp.queueName)
      authtype := tmp.authtype
      token := tmp.token
      enabled := tmp.enabled
      state := .configured })

/-! ## What holds of every channel -/

/-- The channel asks for a token and has none. -/
def LacksToken (c : HTTPChannel) : Prop := c.authtype = .token ∧ c.token = ""

instance (c : HTTPChannel) : Decidable c.LacksToken := inferInstanceAs (Decidable (_ ∧ _))

structure Settled (c : HTTPChannel) : Prop where
  state : c.state = if c.LacksToken ∨ c.queueName = "" then .malformed else .configured
  queue : c.queue = if c.queueName = "" then none else some (InternalQueue.getQueuePtr c.queueName)

theorem Settled.isMalformed_iff {c : HTTPChannel} (settled : Settled c) :
    c.isMalformed = true ↔ c.LacksToken ∨ c.queueName = "" := by
  rw [isMalformed, decide_eq_true_iff, settled.state]
  by_cases bad : c.LacksToken ∨ c.queueName = ""
  · simp [bad]
  · simp [bad]

theorem checkFilled_ok {strict : Bool} {field s : String} {state : ChannelState}
    (checked : checkFilled strict field s = .ok state) : state = .malformed ↔ s = "" := by
  unfold checkFilled at checked
  split at checked
  · next empty =>
    cases strict <;> cases checked
    simp [empty]
  · next filled =>
    cases checked
    simp [filled]

theorem readToken_ok {authtype : AuthType} {config : Json} {strict : Bool} {token : String} {state : ChannelState}
    (read : readToken authtype config strict = .ok (token, state)) :
    (state = .malformed ↔ authtype = .token ∧ token = "") ∧ (authtype ≠ .token → token = "") := by
  unfold readToken at read
  split at read
  · next asks =>
    obtain ⟨j, -, read⟩ := bind_eq_ok.mp read
    obtain ⟨name, -, read⟩ := bind_eq_ok.mp read
    obtain ⟨checked, filled, read⟩ := bind_eq_ok.mp read
    cases read
    exact ⟨by rw [checkFilled_ok filled]; simp [asks], fun other => absurd asks other⟩
  · next other =>
    cases read
    exact ⟨by simp [other], fun _ => rfl⟩

theorem readQueue_ok {config : Json} {strict : Bool} {name : String} {queue : Option String} {state : ChannelState}
    (read : readQueue config strict = .ok (name, queue, state)) :
    (state = .malformed ↔ name = "") ∧
      queue = if name = "" then none else some (InternalQueue.getQueuePtr name) := by
  unfold readQueue at read
  split at read
  · obtain ⟨checked, filled, read⟩ := bind_eq_ok.mp read
    cases read
    exact ⟨checkFilled_ok filled, rfl⟩
  · cases read
    exact ⟨by simp, rfl⟩

/-- What either mode of the constructor builds. -/
theorem ofConfig_ok {id : String} {config : Json} {strict : Bool} {c : HTTPChannel}
    (built : ofConfig id config strict = .ok c) : Settled c ∧ c.id = id ∧ (c.authtype ≠ .token → c.token = "") := by
  obtain ⟨j, -, built⟩ := bind_eq_ok.mp built
  obtain ⟨str, -, built⟩ := bind_eq_ok.mp built
  obtain ⟨⟨token, tokenState⟩, tokenRead, built⟩ := bind_eq_ok.mp built
  obtain ⟨enabled, -, built⟩ := bind_eq_ok.mp built
  obtain ⟨⟨name, queue, queueState⟩, queueRead, built⟩ := bind_eq_ok.mp built
  obtain ⟨tokenBad, tokenNone⟩ := readToken_ok tokenRead
  obtain ⟨queueBad, queueOf⟩ := readQueue_ok queueRead
  cases built
  exact ⟨⟨if_congr (or_congr tokenBad queueBad) rfl rfl, queueOf⟩, rfl, tokenNone⟩

theorem patchQueueName_ok {c : HTTPChannel} {config : Json} {name : String}
    (patched : c.patchQueueName config = .ok name) : name ≠ "" := by
  unfold patchQueueName at patched
  split at patched
  · obtain ⟨j, -, patched⟩ := bind_eq_ok.mp patched
    obtain ⟨given, -, patched⟩ := bind_eq_ok.mp patched
    split at patched
    · cases patched
    · next filled => cases patched; exact filled
  · split at patched
    · cases patched
    · next filled => cases patched; exact filled

theorem patchToken_ok {c : HTTPChannel} {config : Json} {token : String}
    (patched : c.patchToken config = .ok token) : token ≠ "" := by
  obtain ⟨given, -, patched⟩ := bind_eq_ok.mp patched
  split at patched
  · cases patched
  · next filled => cases patched; exact filled

/-- The update gives the channel a type that is neither `"token"` nor `"none"`. -/
def GivesUnkn (config : Json) : Prop :=
  ∃ str, config.find? "authtype" = some (.string str) ∧ AuthType.ofString str = .unkn

/-- Only a channel that asks for a token is given another. -/
theorem patchAuth_ok {c : HTTPChannel} {config : Json} {authtype : AuthType} {token : String}
    (patched : c.patchAuth config = .ok (authtype, token)) :
    (authtype = .token → token ≠ "") ∧
      (authtype ≠ .token → token = c.token ∧ (authtype = .unkn → c.authtype = .unkn ∨ GivesUnkn config)) := by
  unfold patchAuth at patched
  split at patched
  · obtain ⟨j, found, patched⟩ := bind_eq_ok.mp patched
    obtain ⟨str, string, patched⟩ := bind_eq_ok.mp patched
    split at patched
    · obtain ⟨given, new, patched⟩ := bind_eq_ok.mp patched
      cases patched
      exact ⟨fun _ => patchToken_ok new, fun other => absurd rfl other⟩
    · next other different =>
      cases patched
      have given : config.find? "authtype" = some (.string str) :=
        Json.getString_eq_ok.mp string ▸ Json.at_eq_ok.mp found
      exact ⟨fun same => absurd same different, fun _ => ⟨rfl, fun unknown => .inr ⟨str, given, unknown⟩⟩⟩
  · split at patched
    · cases patched
    · next sound =>
      cases patched
      exact ⟨fun asks empty => sound ⟨asks, empty⟩, fun _ => ⟨rfl, .inl⟩⟩

theorem patch_ok {c tmp : HTTPChannel} {config : Json} (patched : c.patch config = .ok tmp) :
    tmp.queueName ≠ "" ∧ (tmp.authtype = .token → tmp.token ≠ "") ∧
      (tmp.authtype ≠ .token → tmp.token = c.token ∧
        (tmp.authtype = .unkn → c.authtype = .unkn ∨ GivesUnkn config)) := by
  obtain ⟨name, named, patched⟩ := bind_eq_ok.mp patched
  obtain ⟨⟨authtype, token⟩, auth, patched⟩ := bind_eq_ok.mp patched
  obtain ⟨enabled, -, patched⟩ := bind_eq_ok.mp patched
  cases patched
  exact ⟨patchQueueName_ok named, patchAuth_ok auth⟩

theorem Settled.reconfigure {c : HTTPChannel} (settled : Settled c) (config : Json) :
    Settled (c.reconfigure config).2 := by
  unfold HTTPChannel.reconfigure
  split
  · exact settled
  · next tmp patched =>
    obtain ⟨named, tokened, -⟩ := patch_ok patched
    exact ⟨(if_neg (not_or.mpr ⟨fun lacks => tokened lacks.1 lacks.2, named⟩)).symm, (if_neg named).symm⟩

theorem reconfigure_error {c : HTTPChannel} {config : Json} {e : Exn} (thrown : (c.reconfigure config).1 = .error e) :
    (c.reconfigure config).2 = c := by
  unfold reconfigure at thrown ⊢
  split
  · rfl
  · next tmp patched =>
    rw [patched] at thrown
    cases thrown

/-! ## `consume` -/

/-- `std::string::max_size()`. -/
def maxSize : Nat := UInt64.size / 2 - 1

def lengthError : Exn := ⟨.logicError, "basic_string::_M_create"⟩

/-- `consume`, with the channel and the queues that it leaves; `none` where it goes
through a null `queue_`. -/
def consume (c : HTTPChannel) (queues : String → InternalQueue Message) (data : Bytes) (n : Nat) (now : UInt64) :
    Option (Except Exn Unit × HTTPChannel × (String → InternalQueue Message)) :=
  match c.queue with
  | none => none
  | some queuid =>
    if maxSize < n then some (.error lengthError, c, queues)
    else
      let (result, iq) := (queues queuid).push (Message.ofChars data n)
      let pushed := fun other => if other = queuid then iq else queues other
      match result with
      | .error e => some (.error e, c, pushed)
      | .ok () => some (.ok (), { c with msgReceived := c.msgReceived + 1, msgTimestamp := now }, pushed)

/-- Only a null `queue_` is gone through. -/
theorem consume_isSome {c : HTTPChannel} (queues : String → InternalQueue Message) (data : Bytes) (n : Nat)
    (now : UInt64) : (c.consume queues data n now).isSome = c.queue.isSome := by
  unfold consume
  split
  · next null => rw [null]; rfl
  · next queuid points =>
    rw [points]
    split
    · rfl
    · split
      split <;> rfl

/-- `consume` changes the counters only. -/
theorem Settled.consume {c c' : HTTPChannel} {queues queues' : String → InternalQueue Message} {data : Bytes}
    {n : Nat} {now : UInt64} {result : Except Exn Unit} (settled : Settled c)
    (consumed : c.consume queues data n now = some (result, c', queues')) : Settled c' := by
  unfold HTTPChannel.consume at consumed
  split at consumed
  · cases consumed
  · split at consumed
    · cases consumed; exact settled
    · split at consumed
      split at consumed <;> cases consumed
      · exact settled
      · exact ⟨settled.state, settled.queue⟩

end HTTPChannel

end M2eBridge
