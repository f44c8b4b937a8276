import Mathlib.Data.List.AList
import M2eBridge.ConfigFiles
import M2eBridge.Listeners.HttpChannel

/-!
# The HTTP listener

`HTTPListener`: its constructor, which leaves out every channel whose constructor
throws, `save`, and the three calls that change the channels. The state of the
process is what these read and write; the document of a call is what parsing its
text comes to, and every save is told what becomes of the file. A change is made
before the save that may throw.
-/

namespace M2eBridge

/-- `channels_`, whose order is arbitrary. -/
abbrev Channels := AList fun _ : String => HTTPChannel

namespace Channels

/-- Every channel is as `P` says. -/
def Each (P : HTTPChannel → Prop) (channels : Channels) : Prop := ∀ id c, channels.lookup id = some c → P c

variable {P : HTTPChannel → Prop} {channels : Channels}

theorem Each.empty : Each P ∅ := by
  intro id c found
  rw [AList.lookup_empty] at found
  cases found

theorem Each.insert (each : Each P channels) (id : String) {c : HTTPChannel} (new : P c) :
    Each P (channels.insert id c) := by
  intro other d found
  by_cases same : other = id
  · subst same
    rw [AList.lookup_insert] at found
    cases found
    exact new
  · rw [AList.lookup_insert_ne same] at found
    exact each other d found

theorem Each.erase (each : Each P channels) (id : String) : Each P (channels.erase id) := by
  intro other d found
  by_cases same : other = id
  · subst same
    rw [AList.lookup_erase] at found
    cases found
  · rw [AList.lookup_erase_ne same] at found
    exact each other d found

/-- The loop of the constructor over the members of an object. -/
def load : List (String × Json) → Channels → Channels
  | [], channels => channels
  | (id, config) :: rest, channels =>
    match HTTPChannel.ofConfig id config false with
    | .ok ch => load rest (channels.insert id ch)
    | .error _ => load rest channels

theorem Each.load (built : ∀ id config c, HTTPChannel.ofConfig id config false = .ok c → P c)
    (members : List (String × Json)) (each : Each P channels) : Each P (load members channels) := by
  induction members generalizing channels with
  | nil => exact each
  | cons m rest ih =>
    rw [Channels.load]
    split
    · next ch new => exact ih (each.insert m.1 (built m.1 m.2 ch new))
    · exact ih each

end Channels

structure HTTPListener where
  channels : Channels := ∅
  enabled : Bool := false
  deriving DecidableEq

namespace HTTPListener

/-- A document of `channels` that is no object gives none: `it.key()` throws. -/
def channelsIn (config : Json) : Channels :=
  match config.find? "channels" with
  | some (.object members) => Channels.load members ∅
  | _ => ∅

/-- `HTTPListener::HTTPListener`. -/
def ofConfig (config : Json) : Except Exn HTTPListener := do
  let enabled ← (← config.at' "enabled").getBoolean
  .ok { channels := channelsIn config, enabled }

theorem each_ofConfig {P : HTTPChannel → Prop} {config : Json} {l : HTTPListener}
    (built : ∀ id config c, HTTPChannel.ofConfig id config false = .ok c → P c)
    (listening : ofConfig config = .ok l) : l.channels.Each P := by
  obtain ⟨j, -, listening⟩ := bind_eq_ok.mp listening
  obtain ⟨enabled, -, listening⟩ := bind_eq_ok.mp listening
  cases listening
  show Channels.Each P (channelsIn config)
  unfold channelsIn
  split
  · exact Channels.Each.load built _ .empty
  · exact .empty

/-- What `save` writes of a channel. -/
def channelConfig (c : HTTPChannel) : Json :=
  let members := Json.setMember "queue_name" (.string c.queueName) []
  let members := if c.isAnonymous then members else Json.setMember "token" (.string c.token) members
  let members := Json.setMember "enabled" (.boolean c.enabled) members
  .object (Json.setMember "authtype" (.string c.authtypeStr) members)

def saveChannel (members : List (String × Json)) (entry : Sigma fun _ : String => HTTPChannel) :
    List (String × Json) :=
  Json.setMember entry.1 (channelConfig entry.2) members

/-- The document that `save` writes. -/
def document (l : HTTPListener) : Json :=
  .object [("channels", .object (l.channels.entries.foldl saveChannel [])), ("enabled", .boolean l.enabled)]

end HTTPListener

/-! ## The calls -/

structure HTTPState (φ : Type) where
  gc : GlobalConfig
  disk : Disk φ
  listener : HTTPListener
  /-- `InternalQueue::queues_`. -/
  queues : String → InternalQueue Message

inductive Call where
  | create (id : String) (config : Except Exn Json)
  | update (id : String) (config : Except Exn Json)
  | delete (id : String)

namespace HTTPState

variable {φ : Type} [DecidableEq φ]

def withChannels (w : HTTPState φ) (channels : Channels) : HTTPState φ :=
  { w with listener := { w.listener with channels } }

/-- `save`, and the `true` behind it: what `save_http_gate` returns is not looked at. -/
def save (w : HTTPState φ) (written : Written) : Except Exn Bool × HTTPState φ :=
  let (saved, disk) := w.gc.saveHttpGate w.disk w.listener.document written
  (saved.map fun _ => true, { w with disk })

def createChannel (w : HTTPState φ) (id : String) (config : Except Exn Json) (written : Written) :
    Except Exn Bool × HTTPState φ :=
  if id ∈ w.listener.channels then (.error ⟨.configurationError, "Channel already exist"⟩, w)
  else
    match config >>= fun j => HTTPChannel.ofConfig id j with
    | .error e => (.error e, w)
    | .ok ch =>
      if ch.isMalformed then (.ok false, w)
      else (w.withChannels (w.listener.channels.insert id ch)).save written

def updateChannel (w : HTTPState φ) (id : String) (config : Except Exn Json) (written : Written) :
    Except Exn Bool × HTTPState φ :=
  match config with
  | .error e => (.error e, w)
  | .ok j =>
    match w.listener.channels.lookup id with
    | none => (.error ⟨.outOfRange, "unordered_map::at"⟩, w)
    | some ch =>
      let (result, ch) := ch.reconfigure j
      let w := w.withChannels (w.listener.channels.insert id ch)
      match result with
      | .error e => (.error e, w)
      | .ok () => w.save written

def deleteChannel (w : HTTPState φ) (id : String) (written : Written) : Except Exn Bool × HTTPState φ :=
  (w.withChannels (w.listener.channels.erase id)).save written

def call (w : HTTPState φ) : Call → Written → Except Exn Bool × HTTPState φ
  | .create id config => w.createChannel id config
  | .update id config => w.updateChannel id config
  | .delete id => w.deleteChannel id

/-- What the strict constructor builds and `reconfigure` keeps, every call keeps. -/
theorem each_call {P : HTTPChannel → Prop} {w : HTTPState φ} (each : w.listener.channels.Each P) (c : Call)
    (written : Written) (built : ∀ id config ch, HTTPChannel.ofConfig id config = .ok ch → P ch)
    (kept : ∀ id j ch, c = .update id (.ok j) → w.listener.channels.lookup id = some ch → P ch →
      P (ch.reconfigure j).2) :
    (w.call c written).2.listener.channels.Each P := by
  cases c with
  | create id config =>
    simp only [call, createChannel]
    split
    · exact each
    · split
      · exact each
      · next ch new =>
        obtain ⟨j, -, new⟩ := bind_eq_ok.mp new
        split
        · exact each
        · exact each.insert id (built id j ch new)
  | update id config =>
    simp only [call, updateChannel]
    split
    · exact each
    · next j =>
      split
      · exact each
      · next ch found =>
        have changed := each.insert id (kept id j ch rfl found (each id ch found))
        split <;> exact changed
  | delete id => exact each.erase id

end HTTPState

end M2eBridge
