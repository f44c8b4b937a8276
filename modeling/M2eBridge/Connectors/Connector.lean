import M2eBridge.Validator

/-!
# Connectors

What the constructor of `Connector` reads from the config of any connector. A value that
is missing or of the wrong type is replaced by a default; only the name of a format that
is none is refused.
-/

namespace M2eBridge

namespace Json

/-- `get<unsigned>()`. -/
def getUnsignedInt : Json → Except Exn UInt32
  | .integer n => .ok (.ofNat (n % UInt32.size).toNat)
  | .float bits => .ok (Float.ofBits bits).toUInt32
  | .boolean b => .ok (if b then 1 else 0)
  | j => .error (typeError302 "number" j)

/-- `get<int>()`. -/
def getInt : Json → Except Exn Int
  | .integer n => .ok (Int.bmod n UInt32.size)
  | .float bits => .ok (Float.ofBits bits).toInt32.toInt
  | .boolean b => .ok (if b then 1 else 0)
  | j => .error (typeError302 "number" j)

/-- A read whose `catch` gives a default. -/
def readOr {α : Type} (j : Json) (key : String) (get : Json → Except Exn α) (default : α) : α :=
  match j.at' key >>= get with
  | .ok v => v
  | .error _ => default

theorem readOr_of_find {α : Type} {j v : Json} {key : String} {get : Json → Except Exn α} {a : α}
    (found : j.find? key = some v) (read : get v = .ok a) (default : α) : j.readOr key get default = a := by
  have both : j.at' key >>= get = .ok a := bind_eq_ok.mpr ⟨v, at_eq_ok.mpr found, read⟩
  simp only [readOr, both]

/-- A member that must be there, with the exception of the `catch`. -/
def required {α : Type} (j : Json) (key : String) (get : Json → Except Exn α) (what : String) : Except Exn α :=
  match j.at' key >>= get with
  | .ok v => .ok v
  | .error _ => .error ⟨.runtimeError, what⟩

end Json

structure Connector where
  mode : ConnectorMode
  pipeid : String
  isActive : Bool
  pollingPeriod : UInt32
  authbundleId : String
  msgFormat : MessageFormat

/-- `Connector::Connector`. -/
def Connector.ofConfig (pipeid : String) (mode : ConnectorMode) (config : Json) : Except Exn Connector := do
  let pollingPeriod := config.readOr "polling_period" Json.getUnsignedInt 0
  let authbundleId := config.readOr "authbundle_id" Json.getString ""
  let msgFormat ← connectorFormat config
  .ok { mode, pipeid, isActive := true, pollingPeriod, authbundleId, msgFormat }

/-- A connector whose config says nothing. -/
def Connector.plain : Connector :=
  { mode := .output, pipeid := "p", isActive := true, pollingPeriod := 0, authbundleId := "", msgFormat := .unkn }

end M2eBridge
