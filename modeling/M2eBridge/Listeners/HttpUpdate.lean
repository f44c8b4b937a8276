import M2eBridge.Listeners.HttpReload

/-!
# Updating a channel

What an update that is accepted leaves of a channel: every field that the update names
has the value that it gives, and every other its old value (`patch_taken`). The token is the exception.
`reconfigure` looks at it only where the update names the type too, and `verify_token`
compares it with a C string. So an update gives a channel that asks for a token the one
that it names when it names the type, or the token that was there, and that token has no
NUL: `update_iff`.
-/

namespace M2eBridge

/-- The field that an update may name has the value that the update gives it, or else its old one. -/
def Taken {α : Type} (read : Json → Except Exn α) (config : Json) (field : String) (old new : α) : Prop :=
  match config.find? field with
  | some j => read j = .ok new
  | none => new = old

theorem taken_of_present {α : Type} {read : Json → Except Exn α} {config j : Json} {field : String} {old new : α}
    (present : config.find? field = some j) : Taken read config field old new ↔ read j = .ok new := by
  rw [Taken, present]

theorem taken_of_missing {α : Type} {read : Json → Except Exn α} {config : Json} {field : String} {old new : α}
    (missing : config.find? field = none) : Taken read config field old new ↔ new = old := by
  rw [Taken, missing]

/-- It has that value and no other. -/
theorem Taken.iff {α : Type} {read : Json → Except Exn α} {config : Json} {field : String} {old new other : α}
    (taken : Taken read config field old new) : Taken read config field old other ↔ new = other := by
  cases found : config.find? field with
  | some j =>
    rw [taken_of_present found] at taken ⊢
    rw [taken, Except.ok.injEq]
  | none =>
    rw [taken_of_missing found] at taken ⊢
    rw [taken, eq_comm]

namespace HTTPChannel

/-- The type that a document names. -/
def readAuthType (j : Json) : Except Exn AuthType := j.getString.map AuthType.ofString

/-- The token in an update, which goes by one of two names. -/
def tokenGiven (config : Json) : Option Json :=
  match config.find? "token" with
  | some token => some token
  | none => config.find? "secret"

/-- Of the C strings, `verify_token` accepts `token` and no other. -/
def AcceptsOnly (c : HTTPChannel) (token : String) : Prop :=
  ∀ shown : Bytes, 0 ∉ shown ∧ c.verifyToken shown = true ↔ shown = bytesOf token

/-- What an update is to leave of the channel `c`. -/
structure Updated (c : HTTPChannel) (config : Json) (after : HTTPChannel) : Prop where
  queueName : Taken Json.getString config "queue_name" c.queueName after.queueName
  authtype : Taken readAuthType config "authtype" c.authtype after.authtype
  enabled : Taken Json.getBoolean config "enabled" c.enabled after.enabled
  token : after.authtype = .token → ∀ given, tokenGiven config = some given →
    ∃ token, given = .string token ∧ after.AcceptsOnly token

/-- The token of an update to a channel that is to ask for one is looked at, or is
the one it has, and some C string is equal to it. -/
def TokenFits (c : HTTPChannel) (config : Json) : Prop :=
  Taken readAuthType config "authtype" c.authtype .token → ∀ given, tokenGiven config = some given →
    (config.contains "authtype" = true ∨ given = .string c.token) ∧
      ∀ token, given = .string token → 0 ∉ bytesOf token

theorem acceptsOnly_iff {c : HTTPChannel} {token : String} :
    c.AcceptsOnly token ↔ c.token = token ∧ 0 ∉ bytesOf token := by
  simp only [AcceptsOnly, verifyToken, decide_eq_true_iff]
  constructor
  · intro only
    obtain ⟨clean, same⟩ := (only (bytesOf token)).mpr rfl
    exact ⟨bytesOf_inj.mp same, clean⟩
  · rintro ⟨rfl, clean⟩ shown
    constructor
    · rintro ⟨-, same⟩
      exact same.symm
    · rintro rfl
      exact ⟨clean, rfl⟩

/-! ## The fields of an accepted update -/

variable {c c' tmp : HTTPChannel} {config : Json}

theorem find_of_not_contains {field : String} (missing : ¬ config.contains field = true) :
    config.find? field = none := by
  rwa [Json.contains, Bool.not_eq_true, Option.isSome_eq_false_iff, Option.isNone_iff_eq_none] at missing

theorem patchQueueName_taken {name : String} (patched : c.patchQueueName config = .ok name) :
    Taken Json.getString config "queue_name" c.queueName name := by
  unfold patchQueueName at patched
  split at patched
  · obtain ⟨j, found, patched⟩ := bind_eq_ok.mp patched
    obtain ⟨given, string, patched⟩ := bind_eq_ok.mp patched
    rw [taken_of_present (Json.at_eq_ok.mp found)]
    split at patched
    · cases patched
    · cases patched; exact string
  · next missing =>
    rw [taken_of_missing (find_of_not_contains missing)]
    split at patched
    · cases patched
    · cases patched; rfl

theorem patchEnabled_taken {enabled : Bool} (patched : c.patchEnabled config = .ok enabled) :
    Taken Json.getBoolean config "enabled" c.enabled enabled := by
  unfold patchEnabled at patched
  split at patched
  · obtain ⟨j, found, patched⟩ := bind_eq_ok.mp patched
    exact (taken_of_present (Json.at_eq_ok.mp found)).mpr patched
  · next missing =>
    cases patched
    exact (taken_of_missing (find_of_not_contains missing)).mpr rfl

theorem givenToken_ok {token : String} (read : c.givenToken config = .ok token) {given : Json}
    (present : tokenGiven config = some given) : given = .string token := by
  unfold givenToken at read
  unfold tokenGiven at present
  split at read
  · obtain ⟨j, found, read⟩ := bind_eq_ok.mp read
    rw [Json.at_eq_ok.mp found] at present
    cases present
    exact Json.getString_eq_ok.mp read
  · next missing =>
    rw [find_of_not_contains missing] at present
    split at read
    · obtain ⟨j, found, read⟩ := bind_eq_ok.mp read
      cases present.symm.trans (Json.at_eq_ok.mp found)
      exact Json.getString_eq_ok.mp read
    · next absent =>
      cases present.symm.trans (find_of_not_contains absent)

/-- The type is taken, and the token is the one given where the type is named. -/
theorem patchAuth_taken {authtype : AuthType} {token : String} (patched : c.patchAuth config = .ok (authtype, token)) :
    Taken readAuthType config "authtype" c.authtype authtype ∧
      (authtype = .token → ∀ given, tokenGiven config = some given →
        if config.contains "authtype" then given = .string token else token = c.token) := by
  unfold patchAuth at patched
  split at patched
  · next named =>
    obtain ⟨j, found, patched⟩ := bind_eq_ok.mp patched
    obtain ⟨str, string, patched⟩ := bind_eq_ok.mp patched
    have read : readAuthType j = .ok (AuthType.ofString str) := by rw [readAuthType, string]; rfl
    rw [taken_of_present (Json.at_eq_ok.mp found), read]
    simp only [if_pos named]
    split at patched
    · next asks =>
      obtain ⟨new, checked, patched⟩ := bind_eq_ok.mp patched
      cases patched
      obtain ⟨shown, read, checked⟩ := bind_eq_ok.mp checked
      split at checked
      · cases checked
      · cases checked
        exact ⟨by rw [asks], fun _ given present => givenToken_ok read present⟩
    · next other different =>
      cases patched
      exact ⟨rfl, fun asks => absurd asks different⟩
  · next unnamed =>
    rw [taken_of_missing (find_of_not_contains unnamed)]
    simp only [if_neg unnamed]
    split at patched
    · cases patched
    · cases patched
      exact ⟨rfl, fun _ _ _ => rfl⟩

theorem patch_taken (patched : c.patch config = .ok tmp) :
    Taken Json.getString config "queue_name" c.queueName tmp.queueName ∧
      Taken readAuthType config "authtype" c.authtype tmp.authtype ∧
      Taken Json.getBoolean config "enabled" c.enabled tmp.enabled ∧
      (tmp.authtype = .token → ∀ given, tokenGiven config = some given →
        if config.contains "authtype" then given = .string tmp.token else tmp.token = c.token) := by
  obtain ⟨name, named, patched⟩ := bind_eq_ok.mp patched
  obtain ⟨⟨authtype, token⟩, auth, patched⟩ := bind_eq_ok.mp patched
  obtain ⟨enabled, enables, patched⟩ := bind_eq_ok.mp patched
  cases patched
  exact ⟨patchQueueName_taken named, (patchAuth_taken auth).1, patchEnabled_taken enables, (patchAuth_taken auth).2⟩

/-- What is accepted of a given token, by whether the update names the type. -/
theorem acceptsOnly_given_iff {given : Json}
    (kept : if config.contains "authtype" then given = .string c'.token else c'.token = c.token) :
    (∃ token, given = .string token ∧ c'.AcceptsOnly token) ↔
      (config.contains "authtype" = true ∨ given = .string c.token) ∧
        ∀ token, given = .string token → 0 ∉ bytesOf token := by
  constructor
  · rintro ⟨token, rfl, only⟩
    obtain ⟨rfl, clean⟩ := acceptsOnly_iff.mp only
    refine ⟨?_, fun token same => Json.string.inj same ▸ clean⟩
    by_cases named : config.contains "authtype" = true
    · exact .inl named
    · rw [if_neg named] at kept
      exact .inr (congrArg Json.string kept)
  · rintro ⟨looked, clean⟩
    have same : given = .string c'.token := by
      by_cases named : config.contains "authtype" = true
      · rwa [if_pos named] at kept
      · rw [if_neg named] at kept
        rw [kept]
        exact looked.resolve_left named
    exact ⟨c'.token, same, acceptsOnly_iff.mpr ⟨rfl, clean c'.token same⟩⟩

/-- A channel that has passed the checks is what the update is to leave when the token fits. -/
theorem updated_iff (patched : c.patch config = .ok tmp) :
    Updated c config (c.reconfigure config).2 ↔ TokenFits c config := by
  obtain ⟨name, auth, enables, kept⟩ := patch_taken patched
  have asks : Taken readAuthType config "authtype" c.authtype .token ↔ tmp.authtype = .token := auth.iff
  rw [reconfigure, patched, TokenFits, asks]
  constructor
  · intro updated token given present
    exact (acceptsOnly_given_iff (kept token given present)).mp (updated.token token given present)
  · intro fits
    refine ⟨name, auth, enables, fun token given present => ?_⟩
    exact (acceptsOnly_given_iff (kept token given present)).mpr (fits token given present)

end HTTPChannel

namespace HTTPState

variable {φ : Type} [DecidableEq φ]

/-- An update that returns success has passed the checks, and has changed the channel. -/
theorem updateChannel_success {w after : HTTPState φ} {id : String} {j : Json} {written : Written} {c : HTTPChannel}
    (found : w.listener.channels.lookup id = some c)
    (success : w.updateChannel id (.ok j) written = (.ok true, after)) :
    ∃ tmp, c.patch j = .ok tmp ∧ after.listener.channels.lookup id = some (c.reconfigure j).2 := by
  simp only [updateChannel, found] at success
  cases patched : c.patch j with
  | error e =>
    have thrown : (c.reconfigure j).1 = .error e := by rw [HTTPChannel.reconfigure, patched]
    rw [thrown] at success
    cases success
  | ok tmp =>
    have changed : (c.reconfigure j).1 = .ok () := by rw [HTTPChannel.reconfigure, patched]
    rw [changed] at success
    have saved : after.listener.channels = w.listener.channels.insert id (c.reconfigure j).2 :=
      congrArg (fun r => r.2.listener.channels) success.symm
    exact ⟨tmp, rfl, by rw [saved, AList.lookup_insert]⟩

/-- **Updates.** After an update that returns success the channel has every field that the update gives and its
old ones beside, and accepts the token given and no other, exactly when the token fits. -/
theorem update_iff {w after : HTTPState φ} {id : String} {j : Json} {written : Written} {c : HTTPChannel}
    (found : w.listener.channels.lookup id = some c)
    (success : w.updateChannel id (.ok j) written = (.ok true, after)) :
    (∃ c', after.listener.channels.lookup id = some c' ∧ c.Updated j c') ↔ c.TokenFits j := by
  obtain ⟨tmp, patched, there⟩ := updateChannel_success found success
  rw [there, ← HTTPChannel.updated_iff patched]
  simp only [Option.some.injEq, exists_eq_left']

/-- A listener with a channel that asks for the token `t`. -/
def tokenStart : HTTPState String :=
  { savedStart "/etc/m2eb/http_listener.json" with listener := guardedStart.listener }

def tokenChannel : HTTPChannel :=
  { id := "a", token := "t", queueName := "q", authtype := .token, queue := some "q", state := .configured,
    enabled := true }

def namedUpdate : Json := .object [("authtype", .string "token"), ("token", .string "new")]

/-- The update names the type with the token. -/
theorem update_iff_named :
    (∃ c', (tokenStart.updateChannel "a" (.ok namedUpdate) .whole).2.listener.channels.lookup "a" = some c' ∧
      tokenChannel.Updated namedUpdate c') ↔ tokenChannel.TokenFits namedUpdate :=
  @update_iff String _ tokenStart _ "a" namedUpdate .whole tokenChannel rfl rfl

/-- An update that gives a new token and no type returns success, and the old token stays. -/
theorem new_token_dropped : ¬ ∀ (w after : HTTPState String) (id : String) (j : Json) (written : Written)
    (c : HTTPChannel), w.listener.channels.lookup id = some c → w.updateChannel id (.ok j) written = (.ok true, after) →
      ∃ c', after.listener.channels.lookup id = some c' ∧ c.Updated j c' := by
  intro all
  obtain ⟨c', found, updated⟩ := all tokenStart _ "a" (.object [("token", .string "new")]) .whole tokenChannel rfl rfl
  obtain rfl : tokenChannel = c' := Option.some.inj found
  obtain ⟨token, given, only⟩ := updated.token rfl _ rfl
  cases given
  exact absurd ((only (bytesOf "t")).mp (by decide)) (by decide)

end HTTPState

end M2eBridge
