import M2eBridge.ApiHelpers
import M2eBridge.PipelineListing
import M2eBridge.Supervisor
import M2eBridge.Validator
import Mathlib.Data.List.AList

/-!
# The REST API

The handlers of the pipelines, over the map of the supervisor and the configs in memory: what
each sends, how it comes to its end, and the state that it leaves. A handler catches some of
what the functions below throw; the rest leaves it, without a reply.
-/

namespace M2eBridge

/-- The map of the supervisor and the configs in memory, of which those under ids that are
not UTF-8 are kept apart. -/
structure RestState where
  pipelines : AList fun _ : String => Supervised
  gc : PipelineConfigs
  foreign : List (Bytes × Json) := []

structure RestReply where
  status : Nat
  body : Bytes := []
  deriving DecidableEq, Repr

/-- How a handler comes to its end. -/
inductive RestEnd where
  | returned
  | thrown (e : Exn)
  | undefined
  deriving DecidableEq, Repr

structure Handling where
  replies : List RestReply
  ending : RestEnd
  state : RestState

/-- Of the connectors of a pipeline. -/
structure PipelineStat where
  lastIn : Int := 0
  lastOut : Int := 0
  countIn : UInt64 := 0
  countOut : UInt64 := 0
  deriving DecidableEq, Repr

/-- What a request meets besides the state. -/
structure RestContext where
  codec : Codec
  connectors : Constructors
  factory : Factory
  /-- The files of the pipelines in front of the default one can be opened for writing. -/
  reached : Bool
  /-- The default one and those behind it can, too. -/
  opened : Bool
  statistics : String → PipelineStat

namespace RestState

def supervisor (w : RestState) : PipelineSupervisor where
  pipelines pipeid := w.pipelines.lookup pipeid
  gc := w.gc

/-- The state with what a call on `pipeid` leaves of the supervisor. -/
def adopt (w : RestState) (pipeid : String) (s : PipelineSupervisor) : RestState where
  pipelines :=
    match s.pipelines pipeid with
    | some p => w.pipelines.insert pipeid p
    | none => w.pipelines.erase pipeid
  gc := s.gc
  foreign := w.foreign

/-- What `save` comes to, a file after the other: the ids are keys of the documents that it
dumps, and those that are not UTF-8 are in the default file. -/
def saved (w : RestState) (c : RestContext) : Except Exn Bool :=
  if c.reached = false then .ok false
  else if w.foreign = [] then .ok c.opened
  else .error invalidUtf8

/-- The bytes of an id in a message. -/
def quoted (pipeid : Bytes) : String := (textOf pipeid).getD (String.ofList (pipeid.map fun b => Char.ofNat b.toNat))

def lookup (w : RestState) (pipeid : Bytes) : Option Supervised :=
  (textOf pipeid).bind fun pipeid => w.pipelines.lookup pipeid

/-- `PipelineConfigs::at`, `none` where it throws. -/
def configAt (w : RestState) (pipeid : Bytes) : Option Json :=
  match textOf pipeid with
  | some pipeid => w.gc.find? pipeid
  | none => w.foreign.lookup pipeid

/-- `PipelineSupervisor::add_pipeline`; an id that is not UTF-8 is assigned, and can not be saved. -/
def addPipeline (c : RestContext) (w : RestState) (pipeid : Bytes) (data : Json) : Except Exn Bool × RestState :=
  match textOf pipeid with
  | some pipeid =>
    let (result, s) := w.supervisor.addPipeline c.factory (w.saved c) pipeid data
    (result, w.adopt pipeid s)
  | none =>
    if (w.foreign.lookup pipeid).isSome then (.error (GlobalConfig.alreadyExist (quoted pipeid)), w)
    else
      let w := { w with foreign := w.foreign ++ [(pipeid, data)] }
      (w.saved c, w)

def editPipeline (c : RestContext) (w : RestState) (pipeid : Bytes) (data : Json) : Except Exn Bool × RestState :=
  match textOf pipeid with
  | some pipeid =>
    let (result, s) := w.supervisor.editPipeline c.factory (w.saved c) pipeid data
    (result, w.adopt pipeid s)
  | none => (.error (PipelineSupervisor.notFound (quoted pipeid)), w)

def deletePipeline (c : RestContext) (w : RestState) (pipeid : Bytes) : Except Exn Bool × RestState :=
  match textOf pipeid with
  | some pipeid =>
    let (result, s) := w.supervisor.deletePipeline c.factory (w.saved c) pipeid
    (result, w.adopt pipeid s)
  | none => (.error (GlobalConfig.doesntExist (quoted pipeid)), w)

/-- One reply, and the handler returns. -/
def answered (w : RestState) (status : Nat) (body : Bytes := []) : Handling := ⟨[⟨status, body⟩], .returned, w⟩

def escaped (w : RestState) (e : Exn) : Handling := ⟨[], .thrown e, w⟩

end RestState

/-! ## The handlers -/

namespace RestApi

open RestState

def missingId : Bytes := bytesOf "Pipeline ID is missing in URI"

/-- The way of `POST` and `PUT` to their calls. -/
def withConfig (c : RestContext) (w : RestState) (uri body : Bytes) (call : Bytes → Json → Handling) : Handling :=
  match lastSegment uri with
  | none => w.answered 400 missingId
  | some pipeid =>
    match c.codec.parse body with
    | .error e => if isParseError e then w.answered 400 (bytesOf "Could not parse request!") else w.escaped e
    | .ok data =>
      match validatePipeline c.connectors data with
      | .accepted => call pipeid data
      | .rejected why => w.answered 422 (bytesOf why)
      | .thrown e => w.escaped e
      | .undefined => ⟨[], .undefined, w⟩

def configPost (c : RestContext) (w : RestState) (uri body : Bytes) : Handling :=
  withConfig c w uri body fun pipeid data =>
    match w.addPipeline c pipeid data with
    | (.ok true, w) => w.answered 200
    | (.ok false, w) => w.answered 500 (bytesOf "Failed to add pipeline!")
    | (.error e, w) =>
      if e.kind = .invalidArgument ∨ e.kind = .duplicateError then w.answered 422 (bytesOf e.what) else w.escaped e

def configPut (c : RestContext) (w : RestState) (uri body : Bytes) : Handling :=
  withConfig c w uri body fun pipeid data =>
    match w.editPipeline c pipeid data with
    | (.ok true, w) => w.answered 200
    | (.ok false, w) => w.answered 500 (bytesOf "Failed to edit pipeline!")
    | (.error e, w) => if e.kind = .invalidArgument then w.answered 404 (bytesOf e.what) else w.escaped e

def configDelete (c : RestContext) (w : RestState) (uri : Bytes) : Handling :=
  match lastSegment uri with
  | none => w.answered 400 missingId
  | some pipeid =>
    match w.deletePipeline c pipeid with
    | (.ok true, w) => w.answered 200
    | (.ok false, w) => w.answered 500 (bytesOf "Failed to delete pipeline!")
    | (.error e, w) => if e.kind = .invalidArgument then w.answered 404 else w.escaped e

/-- The handler catches what the JSON library throws, and `at` throws `std::out_of_range`. -/
def configGet (c : RestContext) (w : RestState) (uri : Bytes) : Handling :=
  match lastSegment uri with
  | some pipeid =>
    match w.configAt pipeid with
    | some config => w.answered 200 (c.codec.dump config)
    | none => w.escaped ⟨.outOfRange, quoted pipeid⟩
  | none => if w.foreign = [] then w.answered 200 (c.codec.dump w.gc.dump) else w.escaped invalidUtf8

def stateToString : PipelineState → String
  | .stopped => "stopped"
  | .running => "running"
  | .failed => "failed"
  | .malformed => "malformed"
  | .starting => "starting"
  | .stopping => "stopping"
  | .terminated => "terminated"
  | .unkn => "unknown"

/-- `get_pipeline_status`, `none` where its `dump` throws. -/
def getPipelineStatus (stat : PipelineStat) (p : Supervised) : Option Json :=
  (textOf p.lastError).map fun error => Json.ofMembers ([("status", .string (stateToString p.state))] ++
    (if error = "" then [] else [("error", .string error)]) ++
    [("last_in", .integer stat.lastIn), ("last_out", .integer stat.lastOut), ("count_in", Json.ofSize stat.countIn),
      ("count_out", Json.ofSize stat.countOut)])

/-- `create_response`: without pipelines the document is null. -/
def createResponse (c : RestContext) (w : RestState) : Option Json := do
  let members ← w.pipelines.entries.mapM fun e => (getPipelineStatus (c.statistics e.1) e.2).map (Prod.mk e.1)
  some (if members = [] then .null else Json.ofMembers members)

/-- Behind the 404 the handler goes on to the 200. -/
def statusGet (c : RestContext) (w : RestState) (uri : Bytes) : Handling :=
  match lastSegment uri with
  | some pipeid =>
    match w.lookup pipeid with
    | some p =>
      match getPipelineStatus (c.statistics (quoted pipeid)) p with
      | some j => w.answered 200 (c.codec.dump j)
      | none => w.escaped invalidUtf8
    | none => ⟨[⟨404, bytesOf "Pipeid not found!"⟩, ⟨200, []⟩], .returned, w⟩
  | none =>
    match createResponse c w with
    | some j => w.answered 200 (c.codec.dump j)
    | none => w.escaped invalidUtf8

def commandFromString (command : Bytes) : PipelineCommand :=
  if command = bytesOf "stop" then .stop
  else if command = bytesOf "start" then .start
  else if command = bytesOf "restart" then .restart
  else if command = bytesOf "terminate" then .terminate
  else .unkn

/-- The commands that may be given. -/
def given (command : PipelineCommand) : Bool := command = .start ∨ command = .stop ∨ command = .restart

def notFound (w : RestState) : Handling := w.answered 404 (bytesOf "Pipeline not found!")

/-- What the handler does with an exception behind `get_pipeline`. -/
def uncaught (w : RestState) (e : Exn) : Handling := if e.kind = .outOfRange then notFound w else w.escaped e

/-- `execute` on the pipeline, and `update_pipeline`; whether it could be saved is not looked at. -/
def control (c : RestContext) (w : RestState) (pipeid : String) (p : Supervised) (command : PipelineCommand) :
    Handling :=
  match p.execute c.factory command with
  | .error e => uncaught w e
  | .ok p =>
    let w := { w with pipelines := w.pipelines.insert pipeid p }
    match GlobalConfig.mergePipeline (w.saved c) w.gc pipeid (.object [("enabled", .boolean (command ≠ .stop))]) with
    | (.ok _, gc) => { w with gc }.answered 200
    | (.error e, gc) => uncaught { w with gc } e

/-- Behind the 400 for too few segments the handler goes on to segments that are not there. -/
def controlPut (c : RestContext) (w : RestState) (uri : Bytes) : Handling :=
  match getLastSegmentsOf uri 2 with
  | .ok [command, pipeid] =>
    if given (commandFromString command) then
      match textOf pipeid with
      | none => notFound w
      | some pipeid =>
        match w.pipelines.lookup pipeid with
        | none => notFound w
        | some p => control c w pipeid p (commandFromString command)
    else w.answered 400 (bytesOf "Command unknown")
  | _ => ⟨[⟨400, []⟩], .undefined, w⟩

end RestApi

inductive RestHandler where
  | configPost
  | configGet
  | configPut
  | configDelete
  | statusGet
  | controlPut
  deriving DecidableEq, Repr

structure RestRequest where
  handler : RestHandler
  uri : Bytes
  body : Bytes := []
  deriving DecidableEq, Repr

def RestApi.handle (c : RestContext) (w : RestState) (r : RestRequest) : Handling :=
  match r.handler with
  | .configPost => configPost c w r.uri r.body
  | .configGet => configGet c w r.uri
  | .configPut => configPut c w r.uri r.body
  | .configDelete => configDelete c w r.uri
  | .statusGet => statusGet c w r.uri
  | .controlPut => controlPut c w r.uri

end M2eBridge
