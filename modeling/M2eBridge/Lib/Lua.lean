import Mathlib.Data.List.Basic

/-!
# The stack of a Lua state

The functions of the C API by which a host pushes values, calls them in protected mode and
reads what they come to, each with what it does to the height of the stack. What Lua makes
of a text or of a call is a parameter, the `Interpreter`. An operation gives `none` where
the stack does not hold what it takes off; the slots that a host has to ask for are not counted.
-/

namespace Lib.Lua

/-- A value, as far as its text goes. -/
inductive Value where
  | nil
  | boolean (b : Bool)
  /-- A number, by the text that it is converted to. -/
  | number (text : List UInt8)
  | string (text : List UInt8)
  /-- A table, a function, a userdata or a thread. -/
  | object (address : Nat)
  deriving DecidableEq

def Value.text : Value → Option (List UInt8)
  | .number text | .string text => some text
  | .nil | .boolean _ | .object _ => none

/-- What Lua gives: the globals, the libraries, the chunk of a text, and the results of a
call or the error that it raises. -/
structure Interpreter where
  global : String → Value
  library : String → Value
  load : List UInt8 → Except Value Value
  call : Value → List Value → Except Value (List Value)

/-- The stack of a state, the top first. -/
structure State where
  stack : List Value := []
  deriving DecidableEq

namespace State

def height (L : State) : Nat := L.stack.length

def push (v : Value) (L : State) : State := { stack := v :: L.stack }

/-- `lua_getglobal` -/
def getglobal (I : Interpreter) (name : String) (L : State) : State := L.push (I.global name)

/-- `lua_pushlstring` -/
def pushlstring (text : List UInt8) (L : State) : State := L.push (.string text)

/-- `luaL_requiref`, which leaves the library on the stack. -/
def requiref (I : Interpreter) (L : State) (name : String) : State := L.push (I.library name)

/-- `lua_pop` -/
def pop (n : Nat) (L : State) : Option State := if n ≤ L.height then some { stack := L.stack.drop n } else none

/-- The results that are asked for, `none` for all of them; those that are missing are nil. -/
def adjusted : Option Nat → List Value → List Value
  | none, results => results
  | some n, results => (results ++ List.replicate n Value.nil).take n

/-- `lua_pcall` without a message handler, and whether there was an error. -/
def pcall (I : Interpreter) (nargs : Nat) (nresults : Option Nat) (L : State) : Option (Bool × State) :=
  match L.stack.drop nargs with
  | [] => none
  | f :: below =>
    match I.call f (L.stack.take nargs).reverse with
    | .ok results => some (false, { stack := (adjusted nresults results).reverse ++ below })
    | .error e => some (true, { stack := e :: below })

/-- `luaL_dostring` -/
def dostring (I : Interpreter) (text : List UInt8) (L : State) : Option (Bool × State) :=
  match I.load text with
  | .ok chunk => (L.push chunk).pcall I 0 none
  | .error e => some (true, L.push e)

/-- `lua_tostring` at the top: a number becomes its text, and what has none gives a null pointer. -/
def tostring (L : State) : Option (List UInt8) × State :=
  match L.stack with
  | .number text :: below => (some text, { stack := .string text :: below })
  | .string text :: _ => (some text, L)
  | _ => (none, L)

/-! ## What the operations do to the height -/

variable {I : Interpreter} {L L' : State}

@[simp] theorem push_height (v : Value) (L : State) : (L.push v).height = L.height + 1 := rfl

@[simp] theorem getglobal_height (name : String) : (L.getglobal I name).height = L.height + 1 := rfl

@[simp] theorem pushlstring_height (text : List UInt8) : (L.pushlstring text).height = L.height + 1 := rfl

@[simp] theorem tostring_height (L : State) : L.tostring.2.height = L.height := by
  obtain ⟨stack⟩ := L
  unfold tostring
  split
  · next same => rw [height, height, same]; rfl
  · rfl
  · rfl

theorem adjusted_length (n : Nat) (results : List Value) : (adjusted (some n) results).length = n := by
  rw [adjusted, List.length_take, List.length_append, List.length_replicate]
  omega

/-- The function and its arguments come off the stack, and the results or one error go onto it. -/
theorem pcall_height {nargs nresults : Nat} {failed : Bool} (called : L.pcall I nargs (some nresults) = some (failed, L')) :
    L'.height + nargs + 1 = L.height + if failed then 1 else nresults := by
  unfold pcall at called
  split at called
  · cases called
  · next f below stack =>
    have before : L.height = nargs + (below.length + 1) := by
      have long := congrArg List.length stack
      rw [List.length_drop, List.length_cons] at long
      rw [height]
      omega
    split at called <;> cases called
    · rw [before, height, List.length_append, List.length_reverse, adjusted_length, if_neg Bool.false_ne_true]
      omega
    · rw [before, height, List.length_cons, if_pos rfl]
      omega

/-- A call of a function with one argument for one result. -/
theorem pcall_push (f arg : Value) (L : State) : ((L.push f).push arg).pcall I 1 (some 1) =
    match I.call f [arg] with
    | .ok results => some (false, L.push (results.headD .nil))
    | .error e => some (true, L.push e) := by
  have args : ((L.push f).push arg).stack.take 1 = [arg] := rfl
  have below : ((L.push f).push arg).stack.drop 1 = f :: L.stack := rfl
  simp only [pcall, args, below, List.reverse_singleton]
  cases I.call f [arg] with
  | ok results => cases results <;> rfl
  | error e => rfl

theorem tostring_push (v : Value) (L : State) : (L.push v).tostring.1 = v.text := by
  cases v <;> rfl

/-- What has been pushed comes off again. -/
theorem pop_requiref (I : Interpreter) (names : List String) (L : State) :
    (names.foldl (requiref I) L).pop names.length = some L := by
  have pushed : ∀ (names : List String) (L : State),
      (names.foldl (requiref I) L).stack = (names.map I.library).reverse ++ L.stack := by
    intro names
    induction names with
    | nil => exact fun L => rfl
    | cons name names ih => exact fun L => by simp [ih, requiref, push]
  unfold pop
  rw [height, pushed, if_pos (by simp)]
  simp

end State

end Lib.Lua
