import M2eBridge.Database.Converter
import M2eBridge.Filtras.Chain
import M2eBridge.Lib.Lua
import M2eBridge.Lib.Runs

/-!
# The Lua converter

`LuaConverterFT` with its Lua state. `start` loads the libraries, which it takes off the
stack again, and runs the script; `process_message` calls `convert` and leaves what it has
returned, or the error that it has raised, on the stack. `heights_kept_iff` says in which
runs every call nevertheless ends with the stack as high as before it.
-/

namespace M2eBridge

open Lib

/-- The pointer `L_`; `lua_close` leaves it as it is. -/
inductive LuaPointer where
  | null
  | live (L : Lua.State)
  | closed
  deriving DecidableEq

/-- The members of `LuaConverterFT` that change. -/
structure LuaConverterState where
  luaCode : Bytes := []
  L : LuaPointer := .null
  deriving DecidableEq

/-- The outside of a call of `start`. -/
structure LuaStart where
  database : SqliteOutcomes
  lua : Lua.Interpreter

namespace LuaConverterState

def libraries : List String := ["base", "string", "utf8", "table", "math", "cjson"]

/-- What is thrown with the text that `lua_tostring` gives. -/
def luaError (text : Bytes) : Exn := ⟨.runtimeError, stringOf (cString text)⟩

/-- `load_lua_code`, `none` where its behaviour is undefined: an exception is made of no text. -/
def loadLuaCode (o : LuaStart) (l : LuaConverterFT) (s : LuaConverterState) :
    Option (Except Exn Unit × LuaConverterState) :=
  match (ConverterTable.get o.database (bytesOf l.converterId)).1 with
  | .error e => some (.error e, s)
  | .ok none => some (.error ⟨.runtimeError, "Not able to retreive converter code!"⟩, s)
  | .ok (some c) => do
    let L ← (libraries.foldl (Lua.State.requiref o.lua) {}).pop 6
    let (failed, L) ← L.dostring o.lua (cString c.code)
    if failed then
      let (text, L) := L.tostring
      return (.error (luaError (← text)), { luaCode := c.code, L := .live L })
    else return (.ok (), { luaCode := c.code, L := .live L })

/-- `start`; a state that is closed is not closed again. -/
def start (o : LuaStart) (l : LuaConverterFT) (s : LuaConverterState) : Option (Except Exn Unit × LuaConverterState) :=
  match s.L with
  | .null => s.loadLuaCode o l
  | .live _ => { s with L := .closed }.loadLuaCode o l
  | .closed => none

/-- `process_message`, `none` where its behaviour is undefined: there is no state, or what
has been returned or raised has no text. -/
def processMessage (C : Codec) (I : Lua.Interpreter) (s : LuaConverterState) (w : MessageWrapper) :
    Option (Except Exn String × MessageWrapper × LuaConverterState) :=
  match (w.msg.copy.getRaw C).1 with
  | .error e => some (.error e, w.withMsg, s)
  | .ok raw =>
    match s.L with
    | .null | .closed => none
    | .live L => do
      let (failed, L) ← ((L.getglobal I "convert").pushlstring raw).pcall I 1 (some 1)
      let (text, L) := L.tostring
      let text ← text
      if failed then return (.error (luaError text), w.withMsg, { s with L := .live L })
      else return (.ok "", (w.onMsg fun m => ((), m.replaceRaw C (cString text))).2.pass, { s with L := .live L })

/-- A message, and what Lua comes to while it is processed. -/
structure Call where
  lua : Lua.Interpreter
  message : MessageWrapper

def step (C : Codec) (call : Call) (s : LuaConverterState) : Option LuaConverterState :=
  (s.processMessage C call.lua call.message).map fun out => out.2.2

def Live (s : LuaConverterState) : Prop := ∃ L, s.L = .live L

/-- The height of the stack. -/
def height (s : LuaConverterState) : Nat :=
  match s.L with
  | .live L => L.height
  | .null | .closed => 0

/-- The raw text of the message can be read. -/
def Call.reads (C : Codec) (call : Call) : Bool := (call.message.msg.getRaw C).1.isOk

/-! ## A call -/

variable {C : Codec} {I : Lua.Interpreter} {s : LuaConverterState} {w : MessageWrapper}

theorem height_live {L : Lua.State} (live : s.L = .live L) : s.height = L.height := by
  rw [height, live]

/-- A message that can not be read leaves Lua alone. -/
theorem processMessage_unread {e : Exn} (unread : (w.msg.getRaw C).1 = .error e) :
    s.processMessage C I w = some (.error e, w.withMsg, s) := by
  have copied : (w.msg.copy.getRaw C).1 = .error e := (Message.getRaw_copy C w.msg).trans unread
  simp only [processMessage, copied]

/-- A message that is read is given to `convert`, and what comes of that has a text. -/
theorem processMessage_read {raw : Bytes} (read : (w.msg.getRaw C).1 = .ok raw)
    {out : Except Exn String × MessageWrapper × LuaConverterState} (ran : s.processMessage C I w = some out) :
    ∃ (L called : Lua.State) (failed : Bool) (text : Bytes), s.L = .live L ∧
      ((L.getglobal I "convert").pushlstring raw).pcall I 1 (some 1) = some (failed, called) ∧
      called.tostring.1 = some text ∧ out.2.2.L = .live called.tostring.2 ∧
      (out.1, out.2.1) = if failed then (.error (luaError text), w.withMsg)
        else (.ok "", (w.onMsg fun m => ((), m.replaceRaw C (cString text))).2.pass) := by
  have copied : (w.msg.copy.getRaw C).1 = .ok raw := (Message.getRaw_copy C w.msg).trans read
  simp only [processMessage, copied] at ran
  split at ran
  case h_1 => cases ran
  case h_2 => cases ran
  case h_3 L live =>
    obtain ⟨⟨failed, called⟩, call, ran⟩ := Option.bind_eq_some_iff.mp ran
    obtain ⟨text, given, ran⟩ := Option.bind_eq_some_iff.mp ran
    refine ⟨L, called, failed, text, live, call, given, ?_⟩
    cases failed <;> cases ran <;> exact ⟨rfl, rfl⟩

/-- A call of `convert` leaves the stack higher by one value, the result or the error. -/
theorem processMessage_higher {raw : Bytes} (read : (w.msg.getRaw C).1 = .ok raw)
    {out : Except Exn String × MessageWrapper × LuaConverterState} (ran : s.processMessage C I w = some out) :
    out.2.2.Live ∧ out.2.2.height = s.height + 1 := by
  obtain ⟨L, called, failed, text, live, call, -, left, -⟩ := processMessage_read read ran
  refine ⟨⟨_, left⟩, ?_⟩
  -- the function and the text go, one value comes, whether there was an error or not
  have effect := Lua.State.pcall_height call
  simp only [Lua.State.pushlstring_height, Lua.State.getglobal_height, ite_self] at effect
  rw [height_live left, height_live live, Lua.State.tostring_height]
  omega

/-- What the script makes of a text; a value without one is not looked at. -/
def converts (I : Lua.Interpreter) (raw : Bytes) : Except Exn Bytes :=
  match I.call (I.global "convert") [.string raw] with
  | .ok results => .ok (cString ((results.headD .nil).text.getD []))
  | .error e => .error (luaError (e.text.getD []))

/-- A call that is defined is the one of a filtra whose script is a function on texts. -/
theorem processMessage_refines {out : Except Exn String × MessageWrapper × LuaConverterState}
    (ran : s.processMessage C I w = some out) :
    LuaConverterFT.processMessage C (converts I) w = (out.1, out.2.1) := by
  unfold LuaConverterFT.processMessage
  rw [Message.getRaw_copy]
  cases read : (w.msg.getRaw C).1 with
  | error e =>
    cases (processMessage_unread read).symm.trans ran
    rfl
  | ok raw =>
    obtain ⟨L, called, failed, text, -, call, given, -, outcome⟩ := processMessage_read read ran
    have pushed := Lua.State.pcall_push (I := I) (I.global "convert") (.string raw) L
    rw [outcome]
    simp only [bind, Except.bind, converts]
    cases came : I.call (I.global "convert") [.string raw] with
    | ok results =>
      rw [came] at pushed
      cases pushed.symm.trans call
      rw [Lua.State.tostring_push] at given
      simp only [given, Option.getD_some, if_neg Bool.false_ne_true]
    | error e =>
      rw [came] at pushed
      cases pushed.symm.trans call
      rw [Lua.State.tostring_push] at given
      simp only [given, Option.getD_some, if_true]

/-! ## The start -/

/-- Of the libraries nothing is left on the stack, which holds what the script has returned. -/
theorem loadLuaCode_ok {o : LuaStart} {l : LuaConverterFT} {t : LuaConverterState}
    (loaded : s.loadLuaCode o l = some (.ok (), t)) :
    ∃ results : List Lua.Value, t.L = .live { stack := results.reverse } := by
  have popped := Lua.State.pop_requiref o.lua libraries {}
  unfold loadLuaCode at loaded
  split at loaded
  case h_1 => cases loaded
  case h_2 => cases loaded
  case h_3 c _ =>
    obtain ⟨L, first, loaded⟩ := Option.bind_eq_some_iff.mp loaded
    cases popped.symm.trans first
    obtain ⟨⟨failed, L⟩, script, loaded⟩ := Option.bind_eq_some_iff.mp loaded
    cases failed with
    | true =>
      obtain ⟨text, -, loaded⟩ := Option.bind_eq_some_iff.mp loaded
      cases loaded
    | false =>
      cases loaded
      unfold Lua.State.dostring at script
      split at script
      case h_1 chunk _ =>
        cases came : o.lua.call chunk [] with
        | error e => simp [Lua.State.pcall, Lua.State.push, came] at script
        | ok results =>
          refine ⟨results, ?_⟩
          simp [Lua.State.pcall, Lua.State.push, Lua.State.adjusted, came] at script
          rw [script]
      case h_2 => cases script

theorem start_live {o : LuaStart} {l : LuaConverterFT} {t : LuaConverterState} (started : s.start o l = some (.ok (), t)) :
    t.Live := by
  unfold start at started
  split at started
  case h_1 =>
    obtain ⟨results, live⟩ := loadLuaCode_ok started
    exact ⟨_, live⟩
  case h_2 =>
    obtain ⟨results, live⟩ := loadLuaCode_ok started
    exact ⟨_, live⟩
  case h_3 => cases started

/-! ## Runs -/

theorem step_live (call : Call) (s t : LuaConverterState) (live : s.Live) (next : step C call s = some t) :
    t.Live ∧ t.height = s.height + if call.reads C then 1 else 0 := by
  obtain ⟨out, ran, rfl⟩ := Option.map_eq_some_iff.mp next
  cases read : (call.message.msg.getRaw C).1 with
  | error e =>
    cases (processMessage_unread read).symm.trans ran
    have unread : call.reads C = false := by rw [Call.reads, read]; rfl
    simp [unread, live]
  | ok raw =>
    have reads : call.reads C = true := by rw [Call.reads, read]; rfl
    rw [if_pos reads]
    exact processMessage_higher read ran

/-- After any run the stack holds one value more for each message that was read. -/
theorem height_run (live : s.Live) {t : LuaConverterState} (calls : List Call)
    (ran : Lib.exec (step C) calls s = some t) : t.height = s.height + calls.countP (Call.reads C) :=
  Lib.exec_countP Live height (Call.reads C) (fun call s t live next => step_live call s t live next) calls live ran

/-- The call ends, and the stack is as high as before it. -/
def Balanced (C : Codec) (call : Call) (s : LuaConverterState) : Prop :=
  ∃ out, s.processMessage C call.lua call.message = some out ∧ out.2.2.height = s.height

/-- Every call of the run is balanced, so that the stack never becomes higher than it was. -/
structure Steady (C : Codec) (calls : List Call) (s : LuaConverterState) : Prop where
  balanced : Lib.Along (step C) (Balanced C) calls s
  bounded : ∀ (n : Nat) (t : LuaConverterState), Lib.exec (step C) (calls.take n) s = some t → t.height = s.height

theorem balanced_iff (call : Call) (s : LuaConverterState) : Balanced C call s ↔ call.reads C = false := by
  cases read : (call.message.msg.getRaw C).1 with
  | error e =>
    have unread : call.reads C = false := by rw [Call.reads, read]; rfl
    exact iff_of_true ⟨_, processMessage_unread read, rfl⟩ unread
  | ok raw =>
    have reads : call.reads C = true := by rw [Call.reads, read]; rfl
    rw [reads]
    refine iff_of_false ?_ Bool.noConfusion
    rintro ⟨out, ran, same⟩
    have higher := (processMessage_higher read ran).2
    omega

/-- **The stack of a converter.** After a start, a run leaves the stack as high as it was
exactly if none of its messages can be read: every other call leaves a value on it. -/
theorem heights_kept_iff {o : LuaStart} {l : LuaConverterFT} {before s : LuaConverterState}
    (started : before.start o l = some (.ok (), s)) (C : Codec) (calls : List Call) :
    Steady C calls s ↔ ∀ call ∈ calls, call.reads C = false := by
  have live := start_live started
  have keep : ∀ call (s t : LuaConverterState), s.Live → step C call s = some t → t.Live :=
    fun call s t live next => (step_live call s t live next).1
  have enabled : ∀ (call : Call) (s : LuaConverterState), s.Live → call.reads C = false → ∃ t, step C call s = some t := by
    intro call s _ unread
    obtain ⟨out, ran, -⟩ := (balanced_iff call s).mpr unread
    exact ⟨out.2.2, by rw [step, ran]; rfl⟩
  have each : Lib.Along (step C) (Balanced C) calls s ↔ ∀ call ∈ calls, call.reads C = false := by
    rw [← Lib.along_forall Live enabled keep live]
    exact Lib.along_iff Live (fun call s _ => balanced_iff call s) keep live calls
  refine ⟨fun steady => each.mp steady.balanced, fun unread => ⟨each.mpr unread, fun n t ran => ?_⟩⟩
  have none_read : (calls.take n).countP (Call.reads C) = 0 := by
    rw [List.countP_eq_zero]
    intro call member
    rw [unread call (List.mem_of_mem_take member)]
    exact Bool.false_ne_true
  rw [height_run live (calls.take n) ran, none_read, Nat.add_zero]

/-- A script whose `convert` gives its argument back. -/
def echo : Lua.Interpreter where
  global _ := .object 1
  library _ := .object 0
  load _ := .ok (.object 2)
  call f args := .ok (if f = .object 2 then [] else args)

def echoStart : LuaStart where
  database :=
    { SqliteOutcomes.good with
      stepped := .row [some (bytesOf "echo"), some (bytesOf "function convert(s) return s end"), none] }
  lua := echo

def echoing : LuaConverterState := { luaCode := bytesOf "function convert(s) return s end", L := .live {} }

/-- A text, and a message that was decoded as CBOR, which is not serialised again. -/
def echoCalls : List Call :=
  [{ lua := echo, message := .ofMessage (.ofString [0x31] .raw) },
    { lua := echo, message := .ofMessage { Message.ofString [0x01] .raw with isSerialized := false } }]

theorem echo_starts : start echoStart ⟨"echo"⟩ {} = some (.ok (), echoing) := by rfl

theorem heights_kept_iff_echo :
    Steady Message.literalCodec echoCalls echoing ↔ ∀ call ∈ echoCalls, call.reads Message.literalCodec = false :=
  heights_kept_iff echo_starts Message.literalCodec echoCalls

/-- The text that comes back stays on the stack. -/
theorem echo_stays : ¬ ∀ (o : LuaStart) (l : LuaConverterFT) (before s : LuaConverterState),
    before.start o l = some (.ok (), s) → ∀ (C : Codec) (calls : List Call), Steady C calls s := by
  intro all
  have steady := all echoStart ⟨"echo"⟩ {} echoing echo_starts Message.literalCodec echoCalls
  obtain ⟨out, ran, same⟩ := steady.balanced.1
  have read : ((MessageWrapper.ofMessage (.ofString [0x31] .raw)).msg.getRaw Message.literalCodec).1 = .ok [0x31] := rfl
  have higher := (processMessage_higher read ran).2
  omega

end LuaConverterState

end M2eBridge
