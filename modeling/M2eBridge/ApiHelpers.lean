import M2eBridge.Message

/-!
# What the two APIs share

The parts of a URI or a path, which are byte strings, and the JSON library as the handlers
use it: parsing a payload, building an object member after member, and `dump`, which throws
at a string that is not UTF-8.
-/

namespace M2eBridge

/-- The text that a byte string is in UTF-8; `dump` throws at a string that is none. -/
def textOf (s : Bytes) : Option String := String.fromUTF8? ⟨s.toArray⟩

theorem textOf_bytesOf (s : String) : textOf (bytesOf s) = some s := by
  have valid : s.toUTF8.IsValidUTF8 := s.isValidUTF8
  exact dif_pos valid

def invalidUtf8 : Exn := ⟨.jsonException, "[json.exception.type_error.316] invalid UTF-8 byte"⟩

/-- A `json::parse_error`, by its text; `parse` throws `json::out_of_range` for some numbers. -/
def isParseError (e : Exn) : Bool :=
  e.kind = .jsonException ∧ "[json.exception.parse_error".toList.isPrefixOf e.what.toList

/-- `json::parse`; what it throws is of the library. -/
def parseJson (C : Codec) (text : Bytes) : Except Exn Json :=
  match C.parse text with
  | .ok j => .ok j
  | .error e => .error ⟨.jsonException, e.what⟩

namespace Json

/-- An object, member after member. -/
def ofMembers (members : List (String × Json)) : Json :=
  .object (members.foldl (fun all m => setMember m.1 m.2 all) [])

def ofSize (n : UInt64) : Json := .integer n.toNat

end Json

/-! ## Segments -/

/-- `/` -/
def slash : UInt8 := 47

/-- `get_last_segments` without a count; the rest behind the last slash may be nothing. -/
def getLastSegments (uri : Bytes) : List Bytes :=
  let segments := uri.splitOn slash
  if segments.getLast? = some [] then segments.dropLast else segments

/-- `get_last_segments` with a count, the last of them. -/
def getLastSegmentsOf (uri : Bytes) (count : Nat) : Except Exn (List Bytes) :=
  let segments := getLastSegments uri
  if segments.length < count then .error ⟨.outOfRange, ""⟩ else .ok (segments.drop (segments.length - count))

/-- What stands behind the last slash, if it is anything: `strrchr` and the test of its length. -/
def lastSegment (uri : Bytes) : Option Bytes :=
  if slash ∈ uri then
    match (uri.reverse.takeWhile (· ≠ slash)).reverse with
    | [] => none
    | segment => some segment
  else none

end M2eBridge
