import M2eBridge.Pipeline.Cargo
import M2eBridge.Pipeline.Places
import M2eBridge.Lib.Traces

/-!
# What the processing thread does with the messages

The statements of the processing thread that give a message to a filtra, let it through,
redirect or push it, as the trace of a run of the pipeline. `process(msg, filtra_ix)` and
`process()` have their own statements for it (`Frame.acts`, `Pipeline.processingActs`); whatever
the other threads do in between is no part of the trace.
-/

namespace M2eBridge

namespace Process

/-- What a statement does with a message. -/
inductive Act where
  /-- The filtra of the index is given the wrapper. -/
  | apply (ix : Nat) (msgW : MessageWrapper)
  /-- It lets the message through, or generates it. -/
  | emit (ix : Nat) (msg : Message)
  | redirect (queuid : String) (msg : Message)
  | push (msgW : MessageWrapper)
  /-- The message is given up, with an entry in `last_error_`. -/
  | error (what : String)

/-- Neither lets a message through nor redirects one. -/
def Act.isPlain : Act → Bool
  | .emit _ _ | .redirect _ _ => false
  | _ => true

variable {ω : Type} (chain : List (Filtra ω))

/-- `generate_message()` of the filtra at the index. -/
def generated (ix : Nat) (filtra : Filtra ω) (world : ω) : List Act :=
  match (filtra.generateMessage world).1 with
  | .ok msg => if msg.isValid then [.emit ix msg] else []
  | .error _ => []

/-- The acts of the next step of a call. -/
def Frame.acts (f : Frame) (world : ω) : List Act :=
  match f.pc with
  | .test | .redirect [] => []
  | .call =>
    match chain[f.filtraIx]? with
    | none => []
    | some filtra =>
      let msgW := (filtra.processMessage world f.msgW).2.1
      .apply f.filtraIx f.msgW ::
        match (filtra.processMessage world f.msgW).1 with
        | .ok hop => if hop ≠ "self" ∧ msgW.isPassed then [.emit f.filtraIx msgW.msg] else []
        | .error e => if e.kind = .invalidArgument then [] else [.error e.what]
  | .redirect (queuid :: _) => [.redirect queuid f.msgW.msg]
  | .generate splitter =>
    match chain[splitter]? with
    | none => []
    | some filtra => generated splitter filtra world
  | .finish => if f.msgW.isPassed then [.push f.msgW] else []

/-- What a call has still to redirect in the loop it is in. -/
def Frame.pending (f : Frame) : List Act :=
  match f.pc with
  | .redirect queues => queues.map fun queuid => .redirect queuid f.msgW.msg
  | _ => []

/-- The calls below the innermost one, each in its loop over the chunks. -/
def InChunks : List Frame → Prop
  | [] => True
  | _ :: below => ∀ f ∈ below, ∃ splitter, f.pc = .generate splitter

def pendingOf : List Frame → List Act
  | [] => []
  | f :: _ => f.pending

theorem Frame.pending_generate {f : Frame} {splitter : Nat} (pc : f.pc = .generate splitter) : f.pending = [] := by
  simp only [Frame.pending, pc]

theorem InChunks.tail {f : Frame} {below : List Frame} (inChunks : InChunks (f :: below)) :
    InChunks below ∧ pendingOf below = [] := by
  cases below with
  | nil => exact ⟨trivial, rfl⟩
  | cons g below =>
    obtain ⟨⟨splitter, pc⟩, deeper⟩ := List.forall_mem_cons.mp inChunks
    exact ⟨deeper, Frame.pending_generate pc⟩

end Process

namespace Pipeline

open Process (Act Frame Walk InChunks pendingOf)

variable {ω : Type} (chain : List (Filtra ω))

/-- The acts of the next statement of the processing thread. -/
def processingActs (s : Pipeline ω) : List Act :=
  match s.processing.thread with
  | some (.walk (f :: _)) => f.acts chain s.world
  | some (.event ix) =>
    match chain[ix]? with
    | none => []
    | some filtra => Process.generated ix filtra s.world
  | _ => []

/-- The acts of a step. -/
def acts : Action → Pipeline ω → List Act
  | .processing _, s => s.processingActs chain
  | _, _ => []

def pending (s : Pipeline ω) : List Act := pendingOf s.cargo.frames

/-- A run of the pipeline with its acts. -/
abbrev Acted (guard : Action → Pipeline ω → Prop) : Pipeline ω → List Act → Pipeline ω → Prop :=
  Lib.Trace (step chain) (acts chain) guard

end Pipeline

end M2eBridge
