import Mathlib.Data.List.Infix
import M2eBridge.Filtras.Reading

/-!
# The filters

`ComparatorFT`, `FinderFT`, `LimiterFT` and `ThrottleFT`: what they read from their
configuration, and how they decide on a message. A filter looks at the payload through the
accessors of the working copy, which may leave that in another form. The clock is in
nanoseconds.
-/

namespace M2eBridge

namespace Json

/-- The conversion to `unsigned long`, which is defined for the doubles above -1 and below 2^64; outside of them it gives
one of the values that a compiler may give. -/
def getUnsigned : Json → Except Exn UInt64
  | .integer n => .ok (.ofNat (n % UInt64.size).toNat)
  | .float bits => .ok (Float.ofBits bits).toUInt64
  | j => .error (typeError302 "number" j)

/-- The conversion to `double`. -/
def getDouble : Json → Except Exn Float
  | .integer n => .ok (.ofInt n)
  | .float bits => .ok (.ofBits bits)
  | j => .error (typeError302 "number" j)

theorem getUnsigned_told {j : Json} {e : Exn} (thrown : j.getUnsigned = .error e) : e.Told := by
  cases j <;> simp only [getUnsigned, Except.error.injEq, reduceCtorEq] at thrown <;>
    exact thrown ▸ typeError302_told _ _

theorem getDouble_told {j : Json} {e : Exn} (thrown : j.getDouble = .error e) : e.Told := by
  cases j <;> simp only [getDouble, Except.error.injEq, reduceCtorEq] at thrown <;>
    exact thrown ▸ typeError302_told _ _

end Json

open Reading (index checked)

/-! ## `ComparatorFT` -/

inductive ComparatorOperator where
  | unkn
  | eq
  | gt
  | gte
  | lt
  | lte
  deriving DecidableEq, Repr

/-- A `long long` or a `double`. -/
inductive Number where
  | int (n : Int)
  | double (d : Float)

namespace Number

/-- `is_number_float()`, `is_number_integer()` and the conversions. -/
def ofJson? : Json → Option Number
  | .float bits => some (.double (.ofBits bits))
  | .integer n => some (.int (Int.bmod n UInt64.size))
  | _ => none

def toDouble : Number → Float
  | .int n => .ofInt n
  | .double d => d

end Number

structure ComparatorFT where
  operator : ComparatorOperator := .unkn
  valueKey : String
  comparand : Number := .int 0

namespace ComparatorFT

def operatorOf (oper : String) : ComparatorOperator :=
  if oper = "eq" then .eq
  else if oper = "gt" then .gt
  else if oper = "gte" then .gte
  else if oper = "lt" then .lt
  else if oper = "lte" then .lte
  else .unkn

def ofConfig (config : Json) : Reading ComparatorFT := do
  let oper ← index config "operator"
  let oper ← checked oper.getString
  let valueKey ← index config "value_key"
  let valueKey ← checked valueKey.getString
  let comparand ← checked <| config.at' "comparand"
  return { operator := operatorOf oper, valueKey, comparand := (Number.ofJson? comparand).getD (.int 0) }

/-- `compare`: integers as they are, and with a floating point number both as such. -/
def compare (c : ComparatorFT) (a b : Number) : Bool :=
  match a, b with
  | .int a, .int b =>
    match c.operator with
    | .eq => a = b
    | .gt => a > b
    | .gte => a ≥ b
    | .lt => a < b
    | .lte => a ≤ b
    | .unkn => false
  | a, b =>
    match c.operator with
    | .eq => a.toDouble == b.toDouble
    | .gt => a.toDouble > b.toDouble
    | .gte => a.toDouble ≥ b.toDouble
    | .lt => a.toDouble < b.toDouble
    | .lte => a.toDouble ≤ b.toDouble
    | .unkn => false

/-- `ComparatorFT::process_message`: the decoding of the payload is not in the `try`. -/
def processMessage (C : Codec) (c : ComparatorFT) (base : Filtra.Base) (w : MessageWrapper) :
    Except Exn String × MessageWrapper :=
  match w.onMsg (Message.getJson C) with
  | (.error e, w) => (.error e, w)
  | (.ok payload, w) =>
    match (payload.at' c.valueKey).map Number.ofJson? with
    | .ok (some value) =>
      let res := c.compare value c.comparand
      (.ok "", w.passIf (if base.logicalNegation then !res else res))
    | _ => (.error ⟨.invalidArgument, "json"⟩, w)

end ComparatorFT

/-! ## `FinderFT` -/

inductive SearchOperator where
  | unkn
  | contain
  | contained
  | match
  deriving DecidableEq, Repr

structure FinderFT where
  operator : SearchOperator := .unkn
  text : Bytes := []
  keys : List String := []
  valueKey : String := ""
  deriving DecidableEq, Repr

namespace FinderFT

def operatorOf (oper : String) : SearchOperator :=
  if oper = "contain" then .contain
  else if oper = "contained" then .contained
  else if oper = "match" then .match
  else .unkn

/-- The member under the key where there is one. -/
def member {α : Type} (config : Json) (key : String) (get : Json → Except Exn α) (default : α) : Reading α :=
  match config.find? key with
  | some v => checked (get v)
  | none => pure default

def ofConfig (config : Json) : Reading FinderFT := do
  let oper ← checked (config.value Json.getString "operator" "match")
  let text ← member config "text" Json.getString ""
  let keys ← member config "keys" (fun keys => keys.elements.mapM Json.getString) []
  let valueKey ← member config "value_key" Json.getString ""
  return { operator := operatorOf oper, text := bytesOf text, keys, valueKey }

def findInString (f : FinderFT) (msgString : Bytes) : Bool :=
  match f.operator with
  | .contain => decide (f.text <:+: msgString)
  | .contained => decide (msgString <:+: f.text)
  | .match => f.text = msgString
  | .unkn => false

def findInKeys (C : Codec) (f : FinderFT) (base : Filtra.Base) (w : MessageWrapper) : Except Exn Bool × MessageWrapper :=
  if base.msgFormat = .json then
    match w.onMsg (Message.getJson C) with
    | (.ok payload, w) => (.ok (f.keys.all payload.contains), w)
    | (.error e, w) => (.error e, w)
  else (.ok false, w)

def findInValue (C : Codec) (f : FinderFT) (base : Filtra.Base) (w : MessageWrapper) : Except Exn Bool × MessageWrapper :=
  if base.msgFormat = .json then
    match w.onMsg (Message.getJson C) with
    | (.ok payload, w) =>
      match payload.find? f.valueKey with
      | some v => (v.getString.map fun s => f.findInString (bytesOf s), w)
      | none => (.ok false, w)
    | (.error e, w) => (.error e, w)
  else (.ok false, w)

/-- The search for the text, in the payload or in a value of it. -/
def findText (C : Codec) (f : FinderFT) (base : Filtra.Base) (w : MessageWrapper) : Except Exn Bool × MessageWrapper :=
  if f.text = [] then (.ok true, w)
  else if f.valueKey ≠ "" then findInValue C f base w
  else ((w.onMsg (Message.getRaw C)).1.map f.findInString, (w.onMsg (Message.getRaw C)).2)

/-- What is made of the searches: where none is configured, nothing is found. -/
def decision (base : Filtra.Base) (checked res : Bool) : Bool :=
  if base.logicalNegation then !(checked && res) else checked && res

/-- `FinderFT::process_message` -/
def processMessage (C : Codec) (f : FinderFT) (base : Filtra.Base) (w : MessageWrapper) :
    Except Exn String × MessageWrapper :=
  match f.findText C base w with
  | (.error e, w) => (.error e, w)
  | (.ok inText, w) =>
    if inText ∧ f.keys ≠ [] then
      match f.findInKeys C base w with
      | (.error e, w) => (.error e, w)
      | (.ok inKeys, w) => (.ok "", w.passIf (decision base true inKeys))
    else (.ok "", w.passIf (decision base (f.text ≠ []) inText))

end FinderFT

/-! ## `LimiterFT` and `ThrottleFT` -/

structure LimiterFT where
  size : UInt64 := 0
  deriving DecidableEq, Repr

namespace LimiterFT

def ofConfig (config : Json) : Reading LimiterFT := do
  let size ← checked <| config.at' "size" >>= Json.getUnsigned
  return { size }

def processMessage (C : Codec) (l : LimiterFT) (w : MessageWrapper) : Except Exn String × MessageWrapper :=
  match w.onMsg (Message.getRaw C) with
  | (.ok data, w) => (.ok "", w.passIf (data.length ≤ l.size.toNat))
  | (.error e, w) => (.error e, w)

end LimiterFT

structure ThrottleFT where
  /-- Per second. -/
  rate : Float

namespace ThrottleFT

def ofConfig (config : Json) : Reading ThrottleFT := do
  let rate ← index config "rate"
  let rate ← checked rate.getDouble
  return { rate }

def delayMs (t : ThrottleFT) : Float := 1000 / t.rate

/-- At the time `now`, the last message that was let pass having come at `lastMsgTime`; the
new time of the last message comes with it. -/
def processMessage (t : ThrottleFT) (now lastMsgTime : Int) (w : MessageWrapper) :
    Except Exn String × MessageWrapper × Int :=
  let elapsed := (now - lastMsgTime).tdiv 1000000
  if Float.ofInt elapsed ≥ t.delayMs then (.ok "", w.pass, now) else (.ok "", w.reject, lastMsgTime)

end ThrottleFT

end M2eBridge
