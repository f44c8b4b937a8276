import M2eBridge.Listeners.HttpReload
import M2eBridge.ZmqApi

/-!
# The ZeroMQ listener

Which requests the API answers, in terms of the request and of the channels that it finds
(`Answerable`), and the receive loop of `ZmqListener::run`, which an exception of the
handler ends. The conditions are read off the functions by one rule for a computation under
a handler of `configuration_error` (`Handled`).
-/

namespace M2eBridge

/-! ## What the handlers catch -/

/-- The computation returns a value with `P`, or throws what `PUT` and `POST` catch. -/
def Handled {α : Type} (x : Except Exn α) (P : α → Prop) : Prop :=
  match x with
  | .ok a => P a
  | .error e => e.kind = .configurationError

@[simp] theorem handled_ok {α : Type} {a : α} {P : α → Prop} : Handled (.ok a) P ↔ P a := Iff.rfl

theorem handled_bind {α β : Type} {x : Except Exn α} {f : α → Except Exn β} {P : β → Prop} :
    Handled (x >>= f) P ↔ Handled x fun a => Handled (f a) P := by
  cases x <;> rfl

namespace Json

/-- The member, if there is one, is a string. -/
def StringIfAny (j : Json) (key : String) : Prop := ∀ v, j.find? key = some v → ∃ s, v = .string s

def BooleanIfAny (j : Json) (key : String) : Prop := ∀ v, j.find? key = some v → ∃ b, v = .boolean b

theorem handled_getString {j : Json} {P : String → Prop} : Handled j.getString P ↔ ∃ s, j = .string s ∧ P s := by
  cases j <;> simp [Handled, getString, typeError302]

theorem handled_getBoolean {j : Json} {P : Bool → Prop} : Handled j.getBoolean P ↔ ∃ b, j = .boolean b ∧ P b := by
  cases j <;> simp [Handled, getBoolean, typeError302]

theorem handled_at {j : Json} {key : String} {P : Json → Prop} :
    Handled (j.at' key) P ↔ ∃ v, j.find? key = some v ∧ P v := by
  cases found : j.find? key with
  | some v => simp [at_eq_ok.mpr found]
  | none =>
    obtain ⟨what, thrown⟩ := at_error found
    rw [thrown]
    exact iff_of_false nofun (by simp)

/-- A field that is read as a string. -/
theorem handled_string {j : Json} {key : String} {P : String → Prop} :
    Handled (j.at' key >>= getString) P ↔ ∃ s, j.find? key = some (.string s) ∧ P s := by
  rcases string_cases j key with ⟨s, found, read⟩ | ⟨other, what, thrown⟩
  · simp [found, read]
  · rw [thrown]
    exact iff_of_false nofun fun ⟨s, found, _⟩ => other s found

/-- An optional field that is read as a boolean, whatever it is. -/
theorem handled_value_boolean {j : Json} {key : String} {default : Bool} {Q : Prop} {members : List (String × Json)}
    (members_of : j = .object members) :
    Handled (j.value getBoolean key default) (fun _ => Q) ↔ j.BooleanIfAny key ∧ Q := by
  subst members_of
  simp only [value, BooleanIfAny, find?]
  cases found : members.lookup key with
  | none => simp [Handled]
  | some v =>
    simp only [handled_getBoolean, Option.some.injEq, forall_eq', exists_and_right]

end Json

namespace HTTPChannel

open Json (handled_string handled_getString handled_at)

/-- The member that `tokenIn` takes. -/
def tokenMember (j : Json) : Option Json := (j.find? "token").or (j.find? "secret")

theorem handled_checkFilled {field s : String} {P : ChannelState → Prop} :
    Handled (checkFilled true field s) P ↔ s = "" ∨ P .configured := by
  unfold checkFilled
  by_cases empty : s = ""
  · simp [empty, Handled, canNotBeEmpty]
  · simp [empty, Handled]

theorem handled_tokenIn {j : Json} {P : Json → Prop} : Handled (tokenIn j) P ↔ ∃ v, tokenMember j = some v ∧ P v := by
  unfold tokenIn tokenMember Json.contains
  cases found : j.find? "token" with
  | none => simp [handled_at]
  | some v => simp [handled_at, found]

theorem handled_readToken {authtype : AuthType} {j : Json} {P : String × ChannelState → Prop} :
    Handled (readToken authtype j true) P ↔
      if authtype = .token then ∃ t, tokenMember j = some (.string t) ∧ (t = "" ∨ P (t, .configured))
      else P ("", .configured) := by
  unfold readToken
  split
  · simp only [handled_bind, handled_tokenIn, handled_getString, handled_checkFilled]
    constructor
    · rintro ⟨v, found, t, rfl, rest⟩
      exact ⟨t, found, rest⟩
    · rintro ⟨t, found, rest⟩
      exact ⟨_, found, t, rfl, rest⟩
  · rfl

/-- The strict constructor makes a malformed channel of a name that cannot be read. -/
theorem handled_readQueue {j : Json} {Q : Prop} :
    Handled (readQueue j true) (fun q => q.2.2 = .malformed ∨ Q) ↔
      ∀ name, j.find? "queue_name" = some (.string name) → name ≠ "" → Q := by
  unfold readQueue
  split
  · next name read =>
    obtain ⟨v, found, string⟩ := bind_eq_ok.mp read
    obtain rfl := Json.getString_eq_ok.mp string
    rw [Json.at_eq_ok.mp found, handled_bind, handled_checkFilled]
    by_cases empty : name = ""
    · simp [empty]
    · simp [empty, Handled]
  · next e thrown =>
    refine iff_of_true (.inl rfl) fun name found => ?_
    rw [Json.at_eq_ok.mpr found] at thrown
    cases thrown

/-- A document that `create_channel` answers: up to a token or a name that is empty, the
fields have their types, and what is then to be saved can be. -/
def Creates (j : Json) (saves : Prop) : Prop :=
  ∃ authtype, j.find? "authtype" = some (.string authtype) ∧
    (authtype = "token" → ∃ token, tokenMember j = some (.string token)) ∧
      (authtype = "token" ∧ tokenMember j = some (.string "") ∨
        j.BooleanIfAny "enabled" ∧ ∀ name, j.find? "queue_name" = some (.string name) → name ≠ "" → saves)

theorem ofString_eq_token {s : String} : AuthType.ofString s = .token ↔ s = "token" := by
  unfold AuthType.ofString
  split
  · next same => simp [same]
  · next other => split <;> simp [other]

theorem handled_ofConfig (id : String) {j : Json} {Q : Prop} :
    Handled (ofConfig id j) (fun ch => ch.isMalformed = true ∨ Q) ↔ Creates j Q := by
  unfold ofConfig Creates
  rw [handled_bind, handled_at]
  simp only [handled_bind, handled_getString, handled_readToken, ofString_eq_token, handled_ok, isMalformed,
    decide_eq_true_eq, reduceCtorEq, false_or, ite_eq_left_iff, imp_false, not_not, handled_readQueue]
  -- the document is an object, since it has a member
  have behind {v : Json} (found : j.find? "authtype" = some v) {Q : Prop} :
      Handled (j.value Json.getBoolean "enabled" false) (fun _ => Q) ↔ j.BooleanIfAny "enabled" ∧ Q := by
    cases j with
    | object members => exact Json.handled_value_boolean rfl
    | _ => cases found
  constructor
  · rintro ⟨v, found, s, rfl, rest⟩
    rw [behind found] at rest
    refine ⟨s, found, ?_⟩
    split at rest
    · next asks =>
      obtain ⟨t, given, rest⟩ := rest
      refine ⟨fun _ => ⟨t, given⟩, rest.imp_left fun (empty : t = "") => ⟨asks, empty ▸ given⟩⟩
    · next other => exact ⟨fun asks => absurd asks other, .inr rest⟩
  · rintro ⟨s, found, typed, rest⟩
    refine ⟨_, found, s, rfl, ?_⟩
    rw [behind found]
    split
    · next asks =>
      obtain ⟨t, given⟩ := typed asks
      refine ⟨t, given, rest.imp_left fun both => ?_⟩
      have empty := both.2
      rw [given] at empty
      cases empty
      rfl
    · next other => exact rest.resolve_left fun both => other both.1

/-! ## `reconfigure` -/

/-- The channel has no name behind the update. -/
def Nameless (c : HTTPChannel) (j : Json) : Prop :=
  j.find? "queue_name" = some (.string "") ∨ j.find? "queue_name" = none ∧ c.queueName = ""

/-- The update asks for a token. -/
def Asks (j : Json) : Prop := j.find? "authtype" = some (.string "token")

/-- The channel asks for a token behind the update, and gets none. -/
def Tokenless (c : HTTPChannel) (j : Json) : Prop :=
  Asks j ∧ (tokenMember j = some (.string "") ∨ tokenMember j = none ∧ (c.authtype ≠ .token ∨ c.token = "")) ∨
    j.find? "authtype" = none ∧ c.LacksToken

/-- A document that `update_channel` answers: up to what the channel can not be without, the
fields have their types, and what is then to be saved can be. -/
def Updates (c : HTTPChannel) (j : Json) (saves : Prop) : Prop :=
  j.StringIfAny "queue_name" ∧ (Nameless c j ∨
    j.StringIfAny "authtype" ∧ (Asks j → ∀ v, tokenMember j = some v → ∃ s, v = .string s) ∧
      (Tokenless c j ∨ j.BooleanIfAny "enabled" ∧ saves))

theorem handled_filled {field s : String} {Q : Prop} :
    Handled (if s = "" then .error (canNotBeEmpty field) else .ok s) (fun _ => Q) ↔ s = "" ∨ Q := by
  by_cases empty : s = ""
  · simp [empty, Handled, canNotBeEmpty]
  · simp [empty]

theorem handled_patchQueueName {c : HTTPChannel} {j : Json} {Q : Prop} :
    Handled (c.patchQueueName j) (fun _ => Q) ↔ j.StringIfAny "queue_name" ∧ (Nameless c j ∨ Q) := by
  unfold patchQueueName Nameless Json.StringIfAny Json.contains
  cases found : j.find? "queue_name" with
  | none => simp [handled_filled]
  | some v =>
    simp only [Option.isSome_some, if_true, handled_bind, handled_at, found, handled_getString, handled_filled]
    cases v <;> simp

theorem handled_givenToken {c : HTTPChannel} {j : Json} {P : String → Prop} :
    Handled (c.givenToken j) P ↔
      (∃ s, tokenMember j = some (.string s) ∧ P s) ∨ tokenMember j = none ∧ (c.authtype ≠ .token ∨ P c.token) := by
  unfold givenToken tokenMember Json.contains
  cases token : j.find? "token" with
  | some v => simp [handled_string, token]
  | none =>
    cases secret : j.find? "secret" with
    | some v => simp [handled_string, secret]
    | none =>
      by_cases asked : c.authtype = .token
      · simp [asked]
      · simp [asked, Handled]

theorem handled_patchToken {c : HTTPChannel} {j : Json} {Q : Prop} :
    Handled (c.patchToken j) (fun _ => Q) ↔
      (∀ v, tokenMember j = some v → ∃ s, v = .string s) ∧
        ((tokenMember j = some (.string "") ∨ tokenMember j = none ∧ (c.authtype ≠ .token ∨ c.token = "")) ∨ Q) := by
  unfold patchToken
  rw [handled_bind, handled_givenToken]
  simp only [handled_filled]
  cases tokenMember j with
  | none => simp [or_assoc]
  | some v => cases v <;> simp

theorem handled_patchAuth {c : HTTPChannel} {j : Json} {Q : Prop} :
    Handled (c.patchAuth j) (fun _ => Q) ↔
      j.StringIfAny "authtype" ∧ (Asks j → ∀ v, tokenMember j = some v → ∃ s, v = .string s) ∧ (Tokenless c j ∨ Q) := by
  unfold patchAuth Json.StringIfAny Tokenless Asks Json.contains
  cases found : j.find? "authtype" with
  | none =>
    by_cases lacks : c.LacksToken
    · have both : c.authtype = .token ∧ c.token = "" := lacks
      simp [lacks, both, Handled, canNotBeEmpty]
    · have both : ¬ (c.authtype = .token ∧ c.token = "") := lacks
      simp [lacks, both]
  | some v =>
    simp only [Option.isSome_some, if_true, handled_bind, handled_at, found, handled_getString]
    by_cases string : ∃ s, v = .string s
    · obtain ⟨s, rfl⟩ := string
      simp only [Option.some.injEq, exists_eq_left', Json.string.injEq]
      split
      · next type =>
        obtain rfl := ofString_eq_token.mp type
        simpa [handled_bind] using handled_patchToken
      · next other =>
        have asks : s ≠ "token" := fun same => other (ofString_eq_token.mpr same)
        simp [asks]
    · refine iff_of_false (fun ⟨_, same, s, text, _⟩ => ?_) fun ⟨typed, _⟩ => string (typed v rfl)
      exact string ⟨s, Option.some.inj same ▸ text⟩

theorem handled_patchEnabled {c : HTTPChannel} {j : Json} {Q : Prop} :
    Handled (c.patchEnabled j) (fun _ => Q) ↔ j.BooleanIfAny "enabled" ∧ Q := by
  unfold patchEnabled Json.BooleanIfAny Json.contains
  cases found : j.find? "enabled" with
  | none => simp
  | some v =>
    simp only [Option.isSome_some, if_true, handled_bind, handled_at, found, Json.handled_getBoolean]
    cases v <;> simp

theorem handled_reconfigure {c : HTTPChannel} {j : Json} {Q : Prop} :
    Handled (c.reconfigure j).1 (fun _ => Q) ↔ Updates c j Q := by
  have patched : Handled (c.patch j) (fun _ => Q) ↔ Updates c j Q := by
    simp only [patch, Updates, handled_bind, handled_patchQueueName, handled_patchAuth, handled_patchEnabled,
      handled_ok]
  rw [← patched, reconfigure]
  cases c.patch j <;> rfl

end HTTPChannel

/-! ## The calls -/

namespace ZmqState

open HTTPChannel (Creates Updates)

variable {φ : Type}

/-- The document of the channels can be dumped, and there is a path to write it to. -/
structure Saves (w : ZmqState φ) : Prop where
  text : w.foreign = ∅
  path : ∃ path, w.http.gc.config.find? "http_gate_path" = some (.string path)

/-- The same with a channel under the id. -/
def SavesWith (w : ZmqState φ) (id : Bytes) : Prop := (textOf id).isSome ∧ w.Saves

theorem getInstance_error {w : ZmqState φ} {e : Exn} (thrown : w.getInstance = .error e) :
    e.kind = .jsonException := by
  have read : HTTPListener.ofConfig w.http.gc.httpListener =
      ( w.http.gc.httpListener.at' "enabled" >>= Json.getBoolean) >>= fun enabled =>
        .ok { channels := HTTPListener.channelsIn w.http.gc.httpListener, enabled } := (bind_assoc _ _ _).symm
  unfold getInstance at thrown
  split at thrown
  · cases thrown
  · rw [read] at thrown
    rcases Json.boolean_cases w.http.gc.httpListener "enabled" with ⟨b, -, enabled⟩ | ⟨-, what, missing⟩
    · rw [enabled] at thrown
      cases thrown
    · rw [missing] at thrown
      cases thrown
      rfl

theorem handled_withInstance {α : Type} {w : ZmqState φ} {f : ZmqState φ → Except Exn α × ZmqState φ} {P : α → Prop} :
    Handled (w.withInstance f).1 P ↔ ∃ v, w.getInstance = .ok v ∧ Handled (f v).1 P := by
  unfold withInstance
  cases made : w.getInstance with
  | ok v => simp
  | error e =>
    refine iff_of_false (fun (kind : e.kind = .configurationError) => ?_) (by simp)
    rw [getInstance_error made] at kind
    cases kind

theorem handled_parseJson {C : Codec} {text : Bytes} {P : Json → Prop} :
    Handled (parseJson C text) P ↔ ∃ j, C.parse text = .ok j ∧ P j := by
  unfold parseJson
  cases C.parse text with
  | ok j => simp
  | error e => exact iff_of_false nofun (by simp)

variable [DecidableEq φ]

/-- `save` returns `true` or throws what no handler of the API catches. -/
theorem save_cases (w : ZmqState φ) (written : Written) :
    w.Saves ∧ (w.save written).1 = .ok true ∨
      ¬ w.Saves ∧ ∃ what, (w.save written).1 = .error ⟨.jsonException, what⟩ := by
  unfold save
  by_cases text : w.foreign = ∅
  · rw [if_pos text]
    have gate : w.http.gc.httpGatePath = w.http.gc.config.at' "http_gate_path" >>= Json.getString := rfl
    simp only [HTTPState.save, GlobalConfig.saveHttpGate, gate]
    rcases Json.string_cases w.http.gc.config "http_gate_path" with ⟨path, found, read⟩ | ⟨other, what, thrown⟩
    · rw [read]
      exact .inl ⟨⟨text, path, found⟩, rfl⟩
    · rw [thrown]
      exact .inr ⟨fun saves => saves.path.elim other, what, rfl⟩
  · rw [if_neg text]
    exact .inr ⟨fun saves => text saves.text, _, rfl⟩

theorem handled_save {w : ZmqState φ} {written : Written} : Handled (w.save written).1 (fun _ => True) ↔ w.Saves := by
  rcases save_cases w written with ⟨saves, result⟩ | ⟨cannot, what, result⟩
  · rw [result]
    exact iff_of_true trivial saves
  · rw [result]
    exact iff_of_false nofun cannot

omit [DecidableEq φ] in
theorem saves_insert {w : ZmqState φ} {id : Bytes} {ch : HTTPChannel} : (w.insert id ch).Saves ↔ w.SavesWith id := by
  unfold insert SavesWith
  cases textOf id with
  | some id => exact ⟨fun saves => ⟨rfl, saves.text, saves.path⟩, fun saves => ⟨saves.2.text, saves.2.path⟩⟩
  | none =>
    refine iff_of_false (fun saves => ?_) fun saves => by cases saves.1
    have there : id ∈ w.foreign.insert id ch := (AList.mem_insert _).mpr (.inl rfl)
    rw [show w.foreign.insert id ch = ∅ from saves.text] at there
    cases there

theorem handled_createChannel {C : Codec} {w : ZmqState φ} {id payload : Bytes} {written : Written} :
    Handled (w.createChannel C id payload written).1 (fun _ => True) ↔
      ∃ v, w.getInstance = .ok v ∧
        ((v.lookup id).isSome ∨ ∃ j, C.parse payload = .ok j ∧ Creates j (v.SavesWith id)) := by
  rw [createChannel, handled_withInstance]
  refine exists_congr fun v => and_congr_right fun _ => ?_
  by_cases there : (v.lookup id).isSome
  · rw [if_pos there]
    exact iff_of_true rfl (.inl there)
  · rw [if_neg there, or_iff_right there, ← handled_parseJson]
    simp only [← HTTPChannel.handled_ofConfig ((textOf id).getD ""), ← handled_bind]
    cases parseJson C payload >>= fun j => HTTPChannel.ofConfig ((textOf id).getD "") j with
    | error e => rfl
    | ok ch =>
      by_cases malformed : ch.isMalformed
      · simp [malformed]
      · simp [malformed, handled_save, saves_insert]

theorem handled_updateChannel {C : Codec} {w : ZmqState φ} {id payload : Bytes} {written : Written} :
    Handled (w.updateChannel C id payload written).1 (fun _ => True) ↔
      ∃ j, C.parse payload = .ok j ∧ ∃ v, w.getInstance = .ok v ∧
        ∃ c, v.lookup id = some c ∧ Updates c j (v.SavesWith id) := by
  rw [updateChannel, ← handled_parseJson]
  cases parseJson C payload with
  | error e => rfl
  | ok j =>
    simp only [handled_withInstance, handled_ok]
    refine exists_congr fun v => and_congr_right fun _ => ?_
    cases found : v.lookup id with
    | none => exact iff_of_false nofun (by simp)
    | some c =>
      simp only [Option.some.injEq, exists_eq_left', ← HTTPChannel.handled_reconfigure]
      cases (c.reconfigure j).1 with
      | error e => rfl
      | ok _ => simp [handled_save, saves_insert]

theorem returns_deleteChannel {w : ZmqState φ} {id : Bytes} {written : Written} :
    (∃ deleted, (w.deleteChannel id written).1 = .ok deleted) ↔
      ∃ v, w.getInstance = .ok v ∧ (v.erase id).Saves := by
  unfold deleteChannel withInstance
  cases w.getInstance with
  | error e => simp
  | ok v =>
    rcases save_cases (v.erase id) written with ⟨saves, result⟩ | ⟨cannot, what, result⟩
    · simp [result, saves]
    · simp [result, cannot]

end ZmqState

/-! ## The requests -/

namespace ZMQAPI

open HTTPChannel (Creates Updates)
open ZmqState

variable {φ : Type}

/-- The listing of a channel, or of all, has only text in it. -/
def GetAnswerable (w : ZmqState φ) (path : Bytes) : Prop :=
  match getLastSegments path with
  | [_] => ∃ v, w.getInstance = .ok v ∧ v.foreign = ∅
  | [_, id] => ∃ v, w.getInstance = .ok v ∧ ((v.lookup id).isSome → (textOf id).isSome)
  | _ => True

def LegacyPutAnswerable (w : ZmqState φ) (path : Bytes) : Prop :=
  path = bytesOf "set_api_auth_off" ∨ path = bytesOf "set_api_auth_on" →
    (∃ members, w.http.gc.config = .object members) ∨ w.http.gc.config = .null

/-- The payload parses, the channel is there, and takes the update. -/
def PutAnswerable (C : Codec) (w : ZmqState φ) (path payload : Bytes) : Prop :=
  match getLastSegments path with
  | [_, id] => ∃ j, C.parse payload = .ok j ∧ ∃ v, w.getInstance = .ok v ∧
      ∃ c, v.lookup id = some c ∧ Updates c j (v.SavesWith id)
  | _ => True

/-- The channel is there already, or the payload parses and is one. -/
def PostAnswerable (C : Codec) (w : ZmqState φ) (path payload : Bytes) : Prop :=
  match getLastSegments path with
  | [_, id] => ∃ v, w.getInstance = .ok v ∧
      ((v.lookup id).isSome ∨ ∃ j, C.parse payload = .ok j ∧ Creates j (v.SavesWith id))
  | _ => True

/-- What is left without the channel can be saved. -/
def DeleteAnswerable (w : ZmqState φ) (path : Bytes) : Prop :=
  match getLastSegments path with
  | [_, id] => ∃ v, w.getInstance = .ok v ∧ (v.erase id).Saves
  | _ => True

/-- The requests that the handler answers, command by command. -/
def Answerable (C : Codec) (w : ZmqState φ) (r : ZmqRequest) : Prop :=
  if isMethod "GET" "get" r.method then onChannels r.path → GetAnswerable w r.path
  else if isMethod "PUT" "put" r.method then
    if onChannels r.path then PutAnswerable C w r.path r.payload else LegacyPutAnswerable w r.path
  else if isMethod "POST" "post" r.method then PostAnswerable C w r.path r.payload
  else if isMethod "DELETE" "delete" r.method then DeleteAnswerable w r.path
  else True

theorem returns_caught {result : Except Exn Bool} :
    (∃ reply, caught result = .ok reply) ↔ Handled result fun _ => True := by
  cases result with
  | error e => by_cases handled : e.kind = .configurationError <;> simp [caught, Handled, handled]
  | ok done => cases done <;> simp [caught]

theorem returns_uncaught {result : Except Exn Bool} :
    (∃ reply, uncaught result = .ok reply) ↔ ∃ done, result = .ok done := by
  cases result with
  | error e => simp [uncaught]
  | ok done => cases done <;> simp [uncaught]

theorem returns_get {C : Codec} {w : ZmqState φ} {path : Bytes} :
    (∃ reply, (zmqChannelGet C w path).1 = .ok reply) ↔ GetAnswerable w path := by
  unfold zmqChannelGet GetAnswerable withInstance
  rcases getLastSegments path with _ | ⟨first, _ | ⟨id, _ | ⟨third, rest⟩⟩⟩
  · simp
  · cases w.getInstance with
    | error e => simp
    | ok v => by_cases text : v.foreign = ∅ <;> simp [text]
  · cases w.getInstance with
    | error e => simp
    | ok v =>
      cases found : v.lookup id with
      | none => simp [found]
      | some c => cases text : textOf id <;> simp [found, text]
  · simp

variable [DecidableEq φ]

theorem returns_legacyPut {w : ZmqState φ} {path : Bytes} {written : Written} :
    (∃ reply, (zmqLegacyPut w path written).1 = .ok reply) ↔ LegacyPutAnswerable w path := by
  have stored (value : Bool) : (∃ reply, (zmqLegacyPut.set w written value).1 = .ok reply) ↔
      (∃ members, w.http.gc.config = .object members) ∨ w.http.gc.config = .null := by
    unfold zmqLegacyPut.set setApiAuthentication
    cases w.http.gc.config <;> simp [setApiAuthentication.store, Except.map]
  unfold zmqLegacyPut LegacyPutAnswerable
  by_cases off : path = bytesOf "set_api_auth_off"
  · rw [if_pos off, stored]
    simp [off]
  · by_cases on : path = bytesOf "set_api_auth_on"
    · rw [if_neg off, if_pos on, stored]
      simp [on]
    · simp [off, on]

theorem returns_put {C : Codec} {w : ZmqState φ} {path payload : Bytes} {written : Written} :
    (∃ reply, (zmqChannelPut C w path payload written).1 = .ok reply) ↔ PutAnswerable C w path payload := by
  unfold zmqChannelPut PutAnswerable
  rcases getLastSegments path with _ | ⟨first, _ | ⟨id, _ | ⟨third, rest⟩⟩⟩
  · simp
  · simp
  · exact returns_caught.trans handled_updateChannel
  · simp

theorem returns_post {C : Codec} {w : ZmqState φ} {path payload : Bytes} {written : Written} :
    (∃ reply, (zmqChannelPost C w path payload written).1 = .ok reply) ↔ PostAnswerable C w path payload := by
  unfold zmqChannelPost PostAnswerable
  rcases getLastSegments path with _ | ⟨first, _ | ⟨id, _ | ⟨third, rest⟩⟩⟩
  · simp
  · simp
  · exact returns_caught.trans handled_createChannel
  · simp

theorem returns_delete {w : ZmqState φ} {path : Bytes} {written : Written} :
    (∃ reply, (zmqChannelDelete w path written).1 = .ok reply) ↔ DeleteAnswerable w path := by
  unfold zmqChannelDelete DeleteAnswerable
  rcases getLastSegments path with _ | ⟨first, _ | ⟨id, _ | ⟨third, rest⟩⟩⟩
  · simp
  · simp
  · exact returns_uncaught.trans returns_deleteChannel
  · simp

/-- One request. -/
theorem returns_executeRequest {C : Codec} {w : ZmqState φ} {r : ZmqRequest} {written : Written} :
    (∃ reply, (executeRequest C w r written).1 = .ok reply) ↔ Answerable C w r := by
  unfold executeRequest Answerable
  by_cases get : isMethod "GET" "get" r.method
  · by_cases channels : onChannels r.path
    · simpa [get, channels] using returns_get
    · simp [get, channels]
  · by_cases put : isMethod "PUT" "put" r.method
    · by_cases channels : onChannels r.path
      · simpa [get, put, channels] using returns_put
      · simpa [get, put, channels] using returns_legacyPut
    · by_cases post : isMethod "POST" "post" r.method
      · simpa [get, put, post] using returns_post
      · by_cases delete : isMethod "DELETE" "delete" r.method
        · simpa [get, put, post, delete] using returns_delete
        · simp [get, put, post, delete]

theorem returns_apiHandler {C : Codec} {w : ZmqState φ} {buffer : Bytes} (written : Written) :
    (∃ reply, (apiHandler C w buffer written).1 = .ok reply) ↔
      ∀ r, (C.cborLoad buffer).bind requestOf = some r → Answerable C w r := by
  unfold apiHandler
  cases (C.cborLoad buffer).bind requestOf with
  | none => simp
  | some r => simpa using returns_executeRequest

end ZMQAPI

/-! ## The receive loop -/

/-- How `run` has come to its end. -/
inductive ZmqExit where
  | stopped
  | zmqError
  | exception (e : Exn)
  deriving DecidableEq, Repr

inductive ZmqPlace where
  /-- At the test of `stop_`. -/
  | test
  | receiving
  | left (exit : ZmqExit)
  deriving DecidableEq, Repr

structure ZmqListener (φ : Type) where
  api : ZmqState φ
  stop : Bool := false
  place : ZmqPlace := .test

namespace ZmqListener

open ZMQAPI

variable {φ : Type} [DecidableEq φ]

/-- What the thread does next, and what is done to it. -/
inductive Event (φ : Type) where
  | test
  /-- A request, with what becomes of the file that is saved and whether the reply can be sent. -/
  | receive (buffer : Bytes) (written : Written) (sends : Bool)
  | nothing
  | zmqError
  | stop
  /-- The other threads leave any state of the process. -/
  | others (api : ZmqState φ)

/-- A step of `run`, or of another thread. -/
def step (C : Codec) (e : Event φ) (l : ZmqListener φ) : ZmqListener φ :=
  match e, l.place with
  | .stop, _ => { l with stop := true }
  | .others api, _ => { l with api }
  | .test, .test => { l with place := if l.stop then .left .stopped else .receiving }
  | .nothing, .receiving => { l with place := .test }
  | .zmqError, .receiving => { l with place := .left .zmqError }
  | .receive buffer written sends, .receiving =>
    match apiHandler C l.api buffer written with
    | (.ok _, api) => { l with api, place := if sends then .test else .left .zmqError }
    | (.error e, api) => { l with api, place := .left (.exception e) }
  | _, _ => l

omit [DecidableEq φ] in
/-- An exception of the handler has ended the thread. -/
def Ended (l : ZmqListener φ) : Prop := ∃ e, l.place = .left (.exception e)

omit [DecidableEq φ] in
/-- The request is one that the handler answers, if it is received. -/
def Meets (C : Codec) : Event φ → ZmqListener φ → Prop
  | .receive buffer _ _, l =>
    l.place = .receiving → ∀ r, (C.cborLoad buffer).bind requestOf = some r → Answerable C l.api r
  | _, _ => True

/-- A request that is not answered ends the thread, and nothing else does so. -/
theorem step_ended_iff {C : Codec} {e : Event φ} {l : ZmqListener φ} (going : ¬ l.Ended) :
    ¬ (step C e l).Ended ↔ Meets C e l := by
  cases place : l.place with
  | test => cases e <;> simp [step, place, Meets, Ended]; split <;> simp
  | left exit =>
    have other : ∀ e, exit ≠ .exception e := fun e same => going ⟨e, by rw [place, same]⟩
    cases e <;> simp [step, place, Meets, Ended, other]
  | receiving =>
    cases e with
    | receive buffer written sends =>
      simp only [Meets, place, forall_const, ← returns_apiHandler written, step]
      rcases apiHandler C l.api buffer written with ⟨e | reply, api⟩
      · simp [Ended]
      · cases sends <;> simp [Ended]
    | _ => simp [step, place, Meets, Ended]

/-- A request is answered exactly when it meets the condition, in any state of the process; so
the loop is left by `stop` or a ZeroMQ error only, exactly as long as all that are received do. -/
theorem answers_iff :
    (∀ (C : Codec) (w : ZmqState φ) (buffer : Bytes) (written : Written),
      (∃ reply, (apiHandler C w buffer written).1 = .ok reply) ↔
        ∀ r, (C.cborLoad buffer).bind requestOf = some r → Answerable C w r) ∧
      ∀ (C : Codec) (l : ZmqListener φ), ¬ l.Ended → ∀ (events : Nat → Event φ) (n : Nat),
        (∀ k < n, ¬ (step C (events k) (Lib.run (step C) events l k)).Ended) ↔
          ∀ k < n, Meets C (events k) (Lib.run (step C) events l k) := by
  refine ⟨fun C w buffer written => returns_apiHandler written, fun C l going events n => ?_⟩
  exact Lib.run_met_iff (fun l => ¬ l.Ended) (fun e l => ¬ (step C e l).Ended) (Meets C) going
    (fun e l going => step_ended_iff going) (fun e l after _ => after) n

/-- `["PUT", "channel/x", "\x7b\x7d"]` -/
def putUnknown : Bytes := [0x83, 0x63] ++ bytesOf "PUT" ++ [0x69] ++ bytesOf "channel/x" ++ [0x62] ++ bytesOf "\x7b\x7d"

/-- The libraries, on that request. -/
def putCodec : Codec where
  parse text := if text = bytesOf "\x7b\x7d" then .ok (.object []) else .error ⟨.jsonException, ""⟩
  dump _ := []
  toCbor _ := []
  cborLoad buffer :=
    if buffer = putUnknown then
      some (.array [.string (bytesOf "PUT"), .string (bytesOf "channel/x"), .string (bytesOf "\x7b\x7d")])
    else none

/-- The process with the channels as they have been loaded, of which there are none. -/
def justLoaded : ZmqState String where
  http := HTTPState.savedStart "/etc/m2eb/http_listener.json"

theorem lookup_justLoaded (id : Bytes) : justLoaded.lookup id = none := by
  unfold ZmqState.lookup
  cases textOf id <;> rfl

/-- An update of a channel that is not there: `std::out_of_range` leaves the handler. -/
theorem unknown_id_escapes : ¬ ∀ (C : Codec) (gc : GlobalConfig) (disk : Disk String) (configPath : String)
    (l : HTTPListener) (queues : String → InternalQueue Message) (buffer : Bytes) (written : Written),
    GlobalConfig.load disk configPath = .ok gc → HTTPListener.ofConfig gc.httpListener = .ok l →
      ∃ reply, (apiHandler C { http := ⟨gc, disk, l, queues⟩ } buffer written).1 = .ok reply := by
  intro all
  have answered : ∃ reply, (apiHandler putCodec justLoaded putUnknown .whole).1 = .ok reply :=
    all putCodec _ _ _ _ _ putUnknown .whole (HTTPState.savedDisk_loads "/etc/m2eb/http_listener.json") rfl
  have loaded : (putCodec.cborLoad putUnknown).bind requestOf =
      some { method := bytesOf "PUT", path := bytesOf "channel/x", payload := bytesOf "\x7b\x7d" } := rfl
  have answerable := (returns_apiHandler .whole).mp answered _ loaded
  have segments : getLastSegments (bytesOf "channel/x") = [bytesOf "channel", bytesOf "x"] := by decide
  rw [Answerable, if_neg (by decide), if_pos (by decide), if_pos (by decide), PutAnswerable] at answerable
  simp only [segments] at answerable
  obtain ⟨j, -, v, made, c, found, -⟩ := answerable
  obtain rfl : justLoaded = v := Except.ok.inj made
  rw [lookup_justLoaded] at found
  cases found

end ZmqListener

end M2eBridge
