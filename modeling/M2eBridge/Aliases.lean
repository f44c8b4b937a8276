import Mathlib.Control.Monad.Basic

/-!
# Aliases and exceptions

`std::string` payloads are byte strings, so they are lists of bytes; names,
keys and topics are `String`. An exception is its class and its `what()`: the
handlers of the bridge tell the standard classes apart, and nothing else.
-/

namespace M2eBridge

abbrev Bytes := List UInt8

/-- The bytes of a `std::string`. -/
def bytesOf (s : String) : Bytes := s.toUTF8.data.toList

theorem bytesOf_eq_nil {s : String} : bytesOf s = [] ↔ s = "" := by
  constructor
  · intro none_left
    rw [← String.utf8ByteSize_eq_zero_iff]
    exact congrArg List.length none_left
  · rintro rfl
    rfl

theorem bytesOf_inj {s t : String} : bytesOf s = bytesOf t ↔ s = t := by
  constructor
  · intro same
    exact String.toByteArray_inj.mp (ByteArray.ext (Array.toList_inj.mp same))
  · rintro rfl
    rfl

theorem bytesOf_append (s t : String) : bytesOf (s ++ t) = bytesOf s ++ bytesOf t := by
  simp [bytesOf, String.toUTF8, String.toByteArray_append, ByteArray.data_append]

/-- What a reader that stops at the first NUL sees of `c_str()`. -/
def cString (s : Bytes) : Bytes := s.takeWhile (· ≠ 0)

theorem cString_eq_iff {s : Bytes} : cString s = s ↔ 0 ∉ s := by
  induction s with
  | nil => simp [cString]
  | cons b s ih =>
    by_cases nul : b = 0
    · simp [cString, nul]
    · have rest : cString (b :: s) = b :: cString s := by simp [cString, nul]
      rw [rest, List.cons_inj_right, ih, List.mem_cons, not_or]
      exact ⟨fun clean => ⟨Ne.symm nul, clean⟩, And.right⟩

theorem cString_length_le (s : Bytes) : (cString s).length ≤ s.length := (List.takeWhile_sublist _).length_le

/-- The exception classes that some handler of the bridge names. `runtimeError`
and `logicError` stand for themselves and for any class that no handler names. -/
inductive ExnKind where
  | invalidArgument
  | outOfRange
  | logicError
  | configurationError
  | underflowError
  | overflowError
  | duplicateError
  | runtimeError
  | jsonException
  deriving DecidableEq, Repr

/-- A thrown `std::exception`. -/
structure Exn where
  kind : ExnKind
  what : String
  deriving DecidableEq, Repr

/-- A computation returns iff its first part does and the rest then does. -/
theorem bind_eq_ok {α β : Type} {x : Except Exn α} {f : α → Except Exn β} {b : β} :
    x >>= f = .ok b ↔ ∃ a, x = .ok a ∧ f a = .ok b := by
  cases x with
  | error e => simp [bind, Except.bind]
  | ok a => simp [bind, Except.bind]

end M2eBridge
