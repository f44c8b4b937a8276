import M2eBridge.Listeners.HttpRequests

/-!
# Reloading the HTTP listener

What a listener saves, its constructor reads back, but for a token that the type of
its channel does not ask for. The main configuration names the file that is written
and the file that is read under two keys, resolves only the second against its own
directory, and the save does not look at whether the write succeeds. So a reload
gives the running listener back where the two are one file, each save gets there,
and no channel is left with a token and an unknown type: `reload_restores`.
-/

namespace M2eBridge

/-! ## One channel -/

namespace HTTPChannel

/-- The channel that the constructor makes of what is saved of `c`. -/
def restored (id : String) (c : HTTPChannel) : HTTPChannel :=
  { c with id, token := if c.authtype = .token then c.token else "", msgReceived := 0, msgTimestamp := 0 }

/-- A channel of an unknown type holds no token. -/
def Tidy (c : HTTPChannel) : Prop := c.authtype = .unkn → c.token = ""

open HTTPListener (channelConfig)

theorem find_authtype (c : HTTPChannel) : (channelConfig c).find? "authtype" = some (.string c.authtypeStr) :=
  Json.lookup_setMember_self _ _ _

theorem find_enabled (c : HTTPChannel) : (channelConfig c).find? "enabled" = some (.boolean c.enabled) := by
  rw [channelConfig, Json.find?, Json.lookup_setMember_other (by decide), Json.lookup_setMember_self]

theorem find_queueName (c : HTTPChannel) : (channelConfig c).find? "queue_name" = some (.string c.queueName) := by
  rw [channelConfig, Json.find?, Json.lookup_setMember_other (by decide), Json.lookup_setMember_other (by decide)]
  split
  · exact Json.lookup_setMember_self _ _ _
  · rw [Json.lookup_setMember_other (by decide), Json.lookup_setMember_self]

theorem find_token {c : HTTPChannel} (asks : c.authtype = .token) :
    (channelConfig c).find? "token" = some (.string c.token) := by
  have named : c.isAnonymous = false := by simp [isAnonymous, asks]
  rw [channelConfig, Json.find?, Json.lookup_setMember_other (by decide), Json.lookup_setMember_other (by decide)]
  simp only [named, Bool.false_eq_true, if_false]
  exact Json.lookup_setMember_self _ _ _

theorem checkFilled_lenient (field s : String) :
    checkFilled false field s = .ok (if s = "" then .malformed else .configured) := by
  unfold checkFilled
  split <;> rfl

theorem readToken_channelConfig (c : HTTPChannel) : readToken c.authtype (channelConfig c) false =
    .ok (if c.authtype = .token then c.token else "", if c.LacksToken then .malformed else .configured) := by
  unfold readToken LacksToken
  by_cases asks : c.authtype = .token
  · have given := Json.at_eq_ok.mpr (find_token asks)
    have present : (channelConfig c).contains "token" = true := by rw [Json.contains, find_token asks]; rfl
    simp [asks, tokenIn, present, given, Json.getString, checkFilled_lenient, bind, Except.bind]
  · simp [asks]

theorem readQueue_channelConfig (c : HTTPChannel) : readQueue (channelConfig c) false =
    .ok (c.queueName, if c.queueName = "" then none else some (InternalQueue.getQueuePtr c.queueName),
      if c.queueName = "" then .malformed else .configured) := by
  have given := Json.at_eq_ok.mpr (find_queueName c)
  simp [readQueue, given, Json.getString, checkFilled_lenient, bind, Except.bind]

/-- The constructor reads back what is saved of a channel. -/
theorem ofConfig_channelConfig {c : HTTPChannel} (settled : Settled c) (id : String) :
    ofConfig id (channelConfig c) false = .ok (restored id c) := by
  have authtype := Json.at_eq_ok.mpr (find_authtype c)
  have enabled : (channelConfig c).value Json.getBoolean "enabled" false = .ok c.enabled :=
    Json.value_of_find Json.getBoolean false (find_enabled c)
  simp only [ofConfig, authtype, enabled, Json.getString, ofString_authtypeStr, readToken_channelConfig,
    readQueue_channelConfig, bind, Except.bind, restored, settled.queue, settled.state]
  by_cases lacks : c.LacksToken
  · simp [lacks]
  · by_cases unnamed : c.queueName = ""
    · simp [lacks, unnamed]
    · simp [lacks, unnamed]

/-- Only a channel that is not open to everybody looks at its token. -/
theorem accepts_congr {c c' : HTTPChannel} (authtype : c'.authtype = c.authtype)
    (token : c.authtype ≠ .none → c'.token = c.token) (r : Request) : c'.accepts r = c.accepts r := by
  by_cases open_to_all : c.authtype = .none
  · simp [accepts, isAnonymous, authtype, open_to_all]
  · have verify : c'.verifyToken = c.verifyToken := by
      funext shown
      rw [verifyToken, verifyToken, token open_to_all]
    rw [accepts, accepts, isAnonymous, isAnonymous, authtype, verify]

/-- A header that shows the token. -/
theorem bearerToken_of_header {token : String} (filled : token ≠ "") {r : Request}
    (header : r.authorization = some (bytesOf "Bearer " ++ bytesOf token)) : r.bearerToken = some (bytesOf token) := by
  have longer : 0 < (bytesOf token).length := List.length_pos_iff.mpr (mt bytesOf_eq_nil.mp filled)
  have seven : (bytesOf "Bearer ").length = 7 := by decide
  rw [Request.bearerToken, header]
  simp only [List.length_append, seven]
  rw [if_pos (by omega), ← seven, List.drop_left]

/-- A token of an unknown type is accepted, and is not saved to be read. -/
theorem accepts_restored_iff {c : HTTPChannel} (id : String) :
    (∀ r, (restored id c).accepts r = c.accepts r) ↔ Tidy c := by
  constructor
  · intro same unknown
    by_contra held
    let r : Request := { method := .get, requestUri := "", authorization := some (bytesOf "Bearer " ++ bytesOf c.token) }
    have shown := bearerToken_of_header (r := r) held rfl
    have before : c.accepts r = true := by simp [accepts, shown, verifyToken]
    have after : (restored id c).accepts r = false := by
      have other : ¬ bytesOf c.token = bytesOf "" := mt bytesOf_eq_nil.mp held
      simp [accepts, shown, verifyToken, isAnonymous, restored, unknown, Ne.symm other]
    rw [← same r, after] at before
    cases before
  · intro tidy r
    refine accepts_congr (show (restored id c).authtype = c.authtype from rfl) (fun asks => ?_) r
    cases authtype : c.authtype with
    | none => exact absurd authtype asks
    | token => exact if_pos authtype
    | unkn => rw [restored, authtype, tidy authtype]; rfl

/-- The two channels are the same to their clients. -/
structure Alike (c c' : HTTPChannel) : Prop where
  queueName : c'.queueName = c.queueName
  enabled : c'.enabled = c.enabled
  malformed : c'.isMalformed = c.isMalformed
  accepts : ∀ r, c'.accepts r = c.accepts r

theorem alike_restored {c : HTTPChannel} (tidy : Tidy c) (id : String) : Alike c (restored id c) :=
  ⟨rfl, rfl, rfl, (accepts_restored_iff id).mpr tidy⟩

end HTTPChannel

/-! ## All channels -/

namespace Channels

/-- The constructor's loop has the channels that the members build. -/
theorem lookup_load {members : List (String × Json)} (distinct : (members.map Prod.fst).Nodup) (channels : Channels)
    (id : String) :
    (load members channels).lookup id =
      ((members.lookup id).bind fun j => (HTTPChannel.ofConfig id j false).toOption).or (channels.lookup id) := by
  induction members generalizing channels with
  | nil => rfl
  | cons m rest ih =>
    obtain ⟨key, config⟩ := m
    obtain ⟨fresh, behind⟩ := List.nodup_cons.mp distinct
    have gone : rest.lookup key = none := by
      rw [List.lookup_eq_none_iff]
      intro n there
      exact bne_iff_ne.mpr fun same => fresh (List.mem_map.mpr ⟨n, there, same.symm⟩)
    rw [load]
    by_cases here : id = key
    · subst here
      rw [List.lookup_cons_self]
      split
      · next ch built => rw [ih behind, gone, AList.lookup_insert, Option.bind_some, built]; rfl
      · next e thrown => rw [ih behind, gone, Option.bind_some, thrown]; rfl
    · rw [List.lookup_cons, beq_eq_false_iff_ne.mpr here]
      split
      · rw [ih behind, AList.lookup_insert_ne here]
      · exact ih behind channels

end Channels

namespace HTTPListener

open HTTPChannel (Settled Tidy restored)

theorem sorted_saved (entries : List (Sigma fun _ : String => HTTPChannel)) {members : List (String × Json)}
    (sorted : Json.Sorted members) : Json.Sorted (entries.foldl saveChannel members) := by
  induction entries generalizing members with
  | nil => exact sorted
  | cons e rest ih => exact ih (Json.setMember_sorted e.1 (channelConfig e.2) sorted)

theorem lookup_saved {entries : List (Sigma fun _ : String => HTTPChannel)} (distinct : entries.NodupKeys)
    (members : List (String × Json)) (id : String) :
    (entries.foldl saveChannel members).lookup id = ((entries.dlookup id).map channelConfig).or (members.lookup id) := by
  induction entries generalizing members with
  | nil => rfl
  | cons e rest ih =>
    obtain ⟨key, ch⟩ := e
    obtain ⟨fresh, behind⟩ := List.nodupKeys_cons.mp distinct
    rw [List.foldl_cons, ih behind, saveChannel]
    by_cases here : id = key
    · subst here
      rw [List.dlookup_eq_none.mpr fresh, List.dlookup_cons_eq, Json.lookup_setMember_self]
      rfl
    · rw [List.dlookup_cons_ne rest (⟨key, ch⟩ : Sigma fun _ : String => HTTPChannel) here,
        Json.lookup_setMember_other here]

/-- The saved document gives every channel back. -/
theorem lookup_document {l : HTTPListener} (settled : l.channels.Each Settled) (id : String) :
    (channelsIn l.document).lookup id = (l.channels.lookup id).map (restored id) := by
  have sorted : Json.Sorted (l.channels.entries.foldl saveChannel []) := sorted_saved _ List.Pairwise.nil
  have distinct : ((l.channels.entries.foldl saveChannel []).map Prod.fst).Nodup :=
    List.pairwise_map.mpr (sorted.imp fun {m n} below (same : m.1 = n.1) => String.lt_irrefl n.1 (same ▸ below))
  have found : channelsIn l.document = Channels.load (l.channels.entries.foldl saveChannel []) ∅ := rfl
  rw [found, Channels.lookup_load distinct, lookup_saved l.channels.nodupKeys, AList.lookup_empty, Option.or_none,
    List.lookup_nil, Option.or_none]
  change ((l.channels.lookup id).map channelConfig).bind _ = _
  cases there : l.channels.lookup id with
  | none => rfl
  | some ch =>
    rw [Option.map_some, Option.bind_some, HTTPChannel.ofConfig_channelConfig (settled id ch there)]
    rfl

/-- The two listeners are the same to their clients. -/
structure Alike (l l' : HTTPListener) : Prop where
  ids : ∀ id, id ∈ l'.channels ↔ id ∈ l.channels
  channels : ∀ id c c', l.channels.lookup id = some c → l'.channels.lookup id = some c' → HTTPChannel.Alike c c'

/-- A listener that is the same to its clients authorizes the same requests. -/
theorem Alike.authorize_iff {l l' : HTTPListener} (alike : Alike l l') (r : Request) :
    l'.authorize r = .ok () ↔ l.authorize r = .ok () := by
  rw [HTTPListener.authorize_iff, HTTPListener.authorize_iff]
  constructor
  · rintro ⟨id, c', segment, found', sound, accepted⟩
    have there : id ∈ l.channels := (alike.ids id).mp (AList.lookup_isSome.mp (found' ▸ rfl))
    obtain ⟨c, found⟩ := Option.isSome_iff_exists.mp (AList.lookup_isSome.mpr there)
    have same := alike.channels id c c' found found'
    exact ⟨id, c, segment, found, same.malformed ▸ sound, same.accepts r ▸ accepted⟩
  · rintro ⟨id, c, segment, found, sound, accepted⟩
    have there : id ∈ l'.channels := (alike.ids id).mpr (AList.lookup_isSome.mp (found ▸ rfl))
    obtain ⟨c', found'⟩ := Option.isSome_iff_exists.mp (AList.lookup_isSome.mpr there)
    have same := alike.channels id c c' found found'
    exact ⟨id, c', segment, found', same.malformed.symm ▸ sound, (same.accepts r).symm ▸ accepted⟩

theorem alike_self (l : HTTPListener) : Alike l l where
  ids := fun _ => Iff.rfl
  channels := by
    intro id c c' one two
    obtain rfl := Option.some.inj (one.symm.trans two)
    exact ⟨rfl, rfl, rfl, fun _ => rfl⟩

/-- The constructor gives the listener back that was saved. -/
theorem ofConfig_document {l : HTTPListener} (each : l.channels.Each fun c => Settled c ∧ Tidy c) :
    ∃ l', ofConfig l.document = .ok l' ∧ Alike l l' := by
  have back := lookup_document (l := l) fun id c found => (each id c found).1
  refine ⟨{ channels := channelsIn l.document, enabled := l.enabled }, rfl, ?_, ?_⟩
  · intro id
    rw [← AList.lookup_isSome, ← AList.lookup_isSome, back, Option.isSome_map]
  · intro id c c' found found'
    rw [back, found] at found'
    obtain rfl := Option.some.inj found'
    exact HTTPChannel.alike_restored (each id c found).2 id

end HTTPListener

theorem HTTPChannel.Tidy.reconfigure {c : HTTPChannel} (tidy : c.Tidy) {config : Json}
    (given : GivesUnkn config → c.token = "") : (c.reconfigure config).2.Tidy := by
  unfold HTTPChannel.reconfigure
  split
  · exact tidy
  · next tmp patched =>
    intro unknown
    obtain ⟨-, -, same⟩ := patch_ok patched
    have other : tmp.authtype ≠ .token := fun asks => by
      have := unknown.symm.trans asks
      cases this
    obtain ⟨token, was⟩ := same other
    show tmp.token = ""
    rw [token]
    exact (was unknown).elim tidy given

/-! ## Runs -/

namespace HTTPState

variable {φ : Type} [DecidableEq φ]

/-- A call that returns success. -/
def succeed (a : Call × Written) (w : HTTPState φ) : Option (HTTPState φ) :=
  match w.call a.1 a.2 with
  | (.ok true, w') => some w'
  | _ => none

omit [DecidableEq φ] in
/-- The save opens the file that the listener is loaded from, which is not the main
configuration. -/
def SavesWhereRead (gc : GlobalConfig) (disk : Disk φ) : Prop :=
  ∃ gate listener, gc.httpGatePath = .ok gate ∧
    GlobalConfig.getConfigPath gc.configPath gc.config "http_listener_path" = .ok listener ∧
    disk.file listener = disk.file gate ∧ disk.file gc.configPath ≠ disk.file gate

/-- The call is saved where it is read from, and gives no unknown type to a channel
that holds a token. -/
structure Kept (a : Call × Written) (w : HTTPState φ) : Prop where
  whole : a.2 = .whole
  place : SavesWhereRead w.gc w.disk
  types : ∀ id j ch, a.1 = .update id (.ok j) → w.listener.channels.lookup id = some ch →
    HTTPChannel.GivesUnkn j → ch.token = ""

/-- A reload from the disk gives the running listener. -/
def Restores (disk : Disk φ) (configPath : String) (l : HTTPListener) : Prop :=
  ∃ gc l', GlobalConfig.load disk configPath = .ok gc ∧ HTTPListener.ofConfig gc.httpListener = .ok l' ∧
    HTTPListener.Alike l l'

/-- The disk has the main configuration of the process and its listener. -/
structure Reloads (w : HTTPState φ) : Prop where
  channels : w.listener.channels.Each fun c => c.Settled ∧ c.Tidy
  loads : ∃ gc, GlobalConfig.Loads w.disk w.gc.configPath gc ∧ gc.config = w.gc.config ∧
    ∃ l', HTTPListener.ofConfig gc.httpListener = .ok l' ∧ HTTPListener.Alike w.listener l'

/-- A call that returns success ends with a save. -/
theorem call_success {w w' : HTTPState φ} {c : Call} {written : Written}
    (success : w.call c written = (.ok true, w')) :
    ∃ channels, (w.withChannels channels).save written = (.ok true, w') := by
  cases c with
  | create id config =>
    simp only [call, createChannel] at success
    split at success
    · cases success
    · split at success
      · cases success
      · split at success
        · cases success
        · exact ⟨_, success⟩
  | update id config =>
    simp only [call, updateChannel] at success
    split at success
    · cases success
    · split at success
      · cases success
      · split at success
        · cases success
        · exact ⟨_, success⟩
  | delete id => exact ⟨_, success⟩

theorem Reloads.step {a : Call × Written} {w w' : HTTPState φ} (reloads : Reloads w) (kept : Kept a w)
    (success : succeed a w = some w') : Reloads w' ∧ w'.gc = w.gc := by
  obtain ⟨c, written⟩ := a
  obtain rfl : written = .whole := kept.whole
  have called : w.call c .whole = (.ok true, w') := by
    unfold succeed at success
    split at success
    · next after called => cases success; exact called
    · cases success
  have each : w'.listener.channels.Each fun c => c.Settled ∧ c.Tidy := by
    have all := each_call reloads.channels c .whole ?_ ?_
    · rwa [called] at all
    · intro id config ch built
      obtain ⟨settled, -, tidy⟩ := HTTPChannel.ofConfig_ok built
      exact ⟨settled, fun unknown => tidy (by rw [unknown]; decide)⟩
    · intro id j ch same found before
      exact ⟨before.1.reconfigure j, before.2.reconfigure (kept.types id j ch same found)⟩
  obtain ⟨channels, saved⟩ := call_success called
  obtain ⟨gate, listener, opened, named, one_file, apart⟩ := kept.place
  obtain ⟨gc, loads, config, -⟩ := reloads.loads
  simp only [save, GlobalConfig.saveHttpGate, withChannels, opened, Prod.mk.injEq] at saved
  obtain ⟨-, rfl⟩ := saved
  obtain ⟨gc', loads', config', listened⟩ := loads.again
    (w.disk.readable_write gate (HTTPListener.document { w.listener with channels }))
    (Disk.read_write_other apart _ .whole) (config ▸ named)
  rw [Disk.read_write_same one_file] at listened
  obtain ⟨l', listening, alike⟩ := HTTPListener.ofConfig_document each
  exact ⟨⟨each, gc', loads', config'.trans config, l', Except.ok.inj listened ▸ listening, alike⟩, rfl⟩

theorem reload_restores {disk : Disk φ} {configPath : String} {gc : GlobalConfig} {l : HTTPListener}
    (queues : String → InternalQueue Message) (loaded : GlobalConfig.load disk configPath = .ok gc)
    (listening : HTTPListener.ofConfig gc.httpListener = .ok l) {w : HTTPState φ}
    (reached : Lib.ReachesWhen succeed Kept ⟨gc, disk, l, queues⟩ w) : Restores w.disk configPath w.listener := by
  have loads := GlobalConfig.load_iff.mp loaded
  have start : Reloads (⟨gc, disk, l, queues⟩ : HTTPState φ) := {
    channels := HTTPListener.each_ofConfig (fun id config c built => by
      obtain ⟨settled, -, tidy⟩ := HTTPChannel.ofConfig_ok built
      exact ⟨settled, fun unknown => tidy (by rw [unknown]; decide)⟩) listening
    loads := ⟨gc, loads.path ▸ loads, rfl, l, listening, HTTPListener.alike_self l⟩ }
  have all := reached.invariant (fun w => Reloads w ∧ w.gc = gc) ⟨start, rfl⟩ fun a s t kept before stepped =>
    let after := before.1.step kept stepped
    ⟨after.1, after.2.trans before.2⟩
  obtain ⟨gc', reloads, -, l', again⟩ := all.1.loads
  rw [all.2, loads.path] at reloads
  exact ⟨gc', l', GlobalConfig.load_iff.mpr reloads, again⟩

/-- A process whose main configuration has both keys. -/
def mainConfig (gate : String) : Json :=
  .object [("authbundles_db_path", .string "authbundles.sqlite"), ("converters_db_path", .string "gnode.sqlite"),
    ("http_gate_path", .string gate), ("http_listener_path", .string "http_listener.json"),
    ("pipelines_path", .string "pipelines.json"), ("shared_objects_path", .string "shared_objects.json")]

def noChannels : Json := .object [("channels", .object []), ("enabled", .boolean true)]

def savedDisk (gate : String) : Disk String where
  file := id
  content := fun path =>
    if path = "/etc/m2eb/m2e-bridge.json" then .ok (mainConfig gate)
    else if path = "/etc/m2eb/http_listener.json" then .ok noChannels
    else .ok (.object [])
  regularFiles := fun _ => .ok []

def savedConfig (gate : String) : GlobalConfig where
  config := mainConfig gate
  configPath := "/etc/m2eb/m2e-bridge.json"
  pipelines := [("/etc/m2eb/pipelines.json", .object [])]
  httpListener := noChannels
  sharedObjects := .object []
  authbundlesDbPath := "/etc/m2eb/authbundles.sqlite"
  convertersDbPath := "/etc/m2eb/gnode.sqlite"

def createOpen : Call :=
  .create "a" (.ok (.object [("authtype", .string "none"), ("queue_name", .string "q")]))

def savedStart (gate : String) : HTTPState String :=
  ⟨savedConfig gate, savedDisk gate, { enabled := true }, fun _ => {}⟩

theorem savedDisk_loads (gate : String) :
    GlobalConfig.load (savedDisk gate) "/etc/m2eb/m2e-bridge.json" = .ok (savedConfig gate) := by
  rfl

/-- A channel is created, and the save goes to the file that is read. -/
def created (gate : String) : HTTPState String := (succeed (createOpen, .whole) (savedStart gate)).getD (savedStart gate)

theorem reload_restores_created : Restores (created "/etc/m2eb/http_listener.json").disk "/etc/m2eb/m2e-bridge.json"
    (created "/etc/m2eb/http_listener.json").listener := by
  refine reload_restores (fun _ => {}) (savedDisk_loads _) rfl (.single ⟨(createOpen, .whole), ⟨rfl, ?_, ?_⟩, rfl⟩)
  · exact ⟨_, _, rfl, rfl, rfl, by decide⟩
  · intro id j ch same
    cases same

/-- The save goes to another file: the new channel is not there after a reload. -/
theorem created_forgotten : ¬ ∀ (disk : Disk String) (configPath : String) (gc : GlobalConfig) (l : HTTPListener)
    (queues : String → InternalQueue Message) (w : HTTPState String),
    GlobalConfig.load disk configPath = .ok gc → HTTPListener.ofConfig gc.httpListener = .ok l →
      Lib.Reaches succeed ⟨gc, disk, l, queues⟩ w → Restores w.disk configPath w.listener := by
  intro all
  obtain ⟨gc, l', loaded, listening, alike⟩ := all _ _ _ _ (fun _ => {}) (created "/etc/m2eb/http-gate.json")
    (savedDisk_loads "/etc/m2eb/http-gate.json") rfl (.single ⟨(createOpen, .whole), rfl⟩)
  have unchanged : GlobalConfig.load (created "/etc/m2eb/http-gate.json").disk "/etc/m2eb/m2e-bridge.json" =
      .ok (savedConfig "/etc/m2eb/http-gate.json") := rfl
  obtain rfl := Except.ok.inj (unchanged.symm.trans loaded)
  obtain rfl : { enabled := true } = l' := Except.ok.inj listening
  have there : "a" ∈ (created "/etc/m2eb/http-gate.json").listener.channels := by decide
  exact absurd ((alike.ids "a").mpr there) (by decide)

end HTTPState

end M2eBridge
