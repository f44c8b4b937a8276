import M2eBridge.MessageWrapper
import M2eBridge.Substitutions.Template

/-!
# The objects of a substitution

An expression walks from a named object of the environment to a part of it. What it walks
through is an `ObjectProxy`; a step gives the next one, and leaves the object that it was
taken on, since a message keeps the document that it decodes and the extras of a message
keep the key.
-/

namespace M2eBridge

/-- `at(ix)`. -/
def Json.atIndex (j : Json) (ix : Nat) : Except Exn Json :=
  match j with
  | .array items =>
    match items[ix]? with
    | some item => .ok item
    | none => .error ⟨.jsonException, "[json.exception.out_of_range.401] array index " ++ toString ix ++ " is out of range"⟩
  | _ => .error ⟨.jsonException, "[json.exception.type_error.304] cannot use at() with " ++ j.typeName⟩

/-- `get_topic_levels`: nothing is made of an empty rest behind the last slash. -/
def Message.getTopicLevels (m : Message) : List String :=
  let levels := (m.msgTopic.toList.splitOn '/').map String.ofList
  if 1 < levels.length ∧ levels.getLast? = some "" then levels.dropLast else levels

inductive EnvObject where
  | message (msg : Message)
  | json (j : Json)
  | stringMap (m : List (String × String))
  | extra (e : MessageExtra)

abbrev EnvObjects := List (String × EnvObject)

inductive ObjectProxy where
  | message (msg : Message)
  | json (j : Json)
  | strings (v : List String)
  | string (s : String)
  | stringMap (m : List (String × String))
  | cbor (item : Option CborItem)
  | extra (e : MessageExtra)

namespace ObjectProxy

/-- `start` makes it of an entry of the environment. -/
def ofObject : EnvObject → ObjectProxy
  | .message msg => .message msg
  | .json j => .json j
  | .stringMap m => .stringMap m
  | .extra e => .extra e

def noKey (key : Bytes) : Exn := ⟨.outOfRange, "Can not find key: " ++ SubsEngine.shown key ++ "!"⟩

/-- `map::at`. -/
def mapAt {α : Type} (m : List (String × α)) (key : String) : Except Exn α :=
  match m.lookup key with
  | some v => .ok v
  | none => .error ⟨.outOfRange, "map::at"⟩

/-- The pairs of a map item; there is nothing to find in an item of another kind. -/
def pairs : CborItem → List (CborItem × CborItem)
  | .map pairs => pairs
  | _ => []

/-- The key of a pair is compared as a text. -/
def keyed (key : Bytes) : CborItem → Bool
  | .string data => data = key
  -- the length of a text in chunks is 0
  | .chunkedString _ => key = []
  | _ => false

/-- `next(key)`, and the object that the step leaves. -/
def next (C : Codec) (key : Bytes) : ObjectProxy → Except Exn ObjectProxy × ObjectProxy
  | .message msg =>
    if SubsEngine.shown key = "PAYLOAD" then
      match msg.format with
      | .json => ((msg.getJson C).1.map .json, .message (msg.getJson C).2)
      | .cbor => ((msg.getCbor C).1.map .cbor, .message (msg.getCbor C).2)
      | _ => (.error (noKey key), .message msg)
    else if SubsEngine.shown key = "TOPIC_LEVELS" then (.ok (.strings msg.getTopicLevels), .message msg)
    else if SubsEngine.shown key = "TOPIC" then (.ok (.string msg.msgTopic), .message msg)
    else (.error (noKey key), .message msg)
  | .json j => ((j.at' (SubsEngine.shown key)).map .json, .json j)
  | .stringMap m => ((mapAt m (SubsEngine.shown key)).map .string, .stringMap m)
  | .cbor (some item) =>
    match (pairs item).find? fun pair => keyed key pair.1 with
    | some pair => (.ok (.cbor (some pair.2)), .cbor (some item))
    | none => (.error (noKey key), .cbor (some item))
  | .extra e => (.ok (.extra { e with key := SubsEngine.shown key }), .extra { e with key := SubsEngine.shown key })
  | obj => (.error (noKey key), obj)

/-- `next(ix)`. -/
def nextIndex (ix : Nat) : ObjectProxy → Except Exn ObjectProxy
  | .strings v =>
    match v[ix]? with
    | some s => .ok (.string s)
    | none => .error ⟨.outOfRange, "vector::_M_range_check"⟩
  | .json j => (j.atIndex ix).map .json
  | _ => .error ⟨.invalidArgument, "Index access is not available!"⟩

def noValue : Exn := ⟨.runtimeError, "Value is not substitutable!"⟩

def value : ObjectProxy → Except Exn Substituted
  | .string s => .ok (.string (bytesOf s))
  | .json (.string s) => .ok (.string (bytesOf s))
  -- `std::to_string` of an `unsigned`
  | .json (.integer n) => .ok (.string (bytesOf (toString (n % UInt32.size).toNat)))
  | .json j => .ok (.json j)
  -- the magnitude that stands in the item, of a negative one too
  | .cbor (some (.uint _ v)) | .cbor (some (.negint _ v)) => .ok (.long (Int.bmod v.toNat UInt64.size))
  | .cbor (some (.float width bits)) => .ok (.double width bits)
  | .cbor (some (.ctrl v)) => if v = 20 ∨ v = 21 then .ok (.boolean (v = 21)) else .error noValue
  | .cbor (some (.bytestring data)) => .ok (.span data)
  | .cbor (some (.string data)) => .ok (.string data)
  -- and so nothing is read of a string in chunks
  | .cbor (some (.chunkedBytestring _)) => .ok (.span [])
  | .cbor (some (.chunkedString _)) => .ok (.string [])
  | .extra e => (mapAt e.extras e.key).map .span
  | _ => .error noValue

end ObjectProxy

/-! ## Modifiers -/

/-- `std::stoi` of digits. -/
def stoi (digits : Bytes) : Except Exn Nat :=
  if digits = [] then .error ⟨.invalidArgument, "stoi"⟩
  else
    let n := digits.foldl (fun n b => 10 * n + (b.toNat - 0x30)) 0
    if n < UInt32.size / 2 then .ok n else .error ⟨.outOfRange, "stoi"⟩

/-- What the bridge is built with: the resizing of images, unless it is left out. -/
abbrev ImageHandlers := Option (Nat → Bytes → Except Exn Bytes)

/-- `Modifier(notation)` and its `modify`; `none` is the null pointer of a type without an implementation. -/
def modifierOf (handlers : ImageHandlers) (modifierDef : Bytes) : Except Exn (Option (Bytes → Except Exn Bytes)) :=
  let name := (SubsEngine.shown (modifierDef.takeWhile (· ≠ 0x2c))).toLower
  let params := (modifierDef.dropWhile (· ≠ 0x2c)).drop 1
  if name = "unkn" then .ok none
  else if name = "resize" then
    match handlers with
    | none => .ok none
    | some resize => (stoi params).map fun width => some (resize width)
  else .error ⟨.invalidArgument, "Unknown modifier: " ++ name⟩

end M2eBridge
