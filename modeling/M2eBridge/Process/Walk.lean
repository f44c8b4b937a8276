import M2eBridge.Filtra
import M2eBridge.InternalQueue
import M2eBridge.Lib.Runs

/-!
# `Pipeline::process(msg, filtra_ix)`

The walk of one message through the chain, as a machine with a call stack: the
call made for a chunk of a splitter stands above the call that cut it. One step is
the code between two reads or writes of what other threads change (`state_`, the
internal queues, `s_queue_`), so a stop can fall between any two steps: what a
step finds is its `Env`, and a run takes a stream of them.

`turn` is what the innermost call does in one step, `Walk.step` what becomes of
the stack. `Journey` is history that no code reads: where the wrapper began, what
it was cut from, and what has happened to it.
-/

namespace M2eBridge

namespace Process

/-- What happens to a wrapper on its way. -/
inductive Event where
  /-- A filtra is entered: the pass flag, and the metadata before and after `add_metadata`. -/
  | enter (ix : Nat) (flag : Bool) (before after : Json)
  /-- The filtra returns its hop, or throws, and leaves the flag. -/
  | leave (ix : Nat) (hop : Except Exn String) (flag : Bool)
  | redirect (queuid : String)
  | push
  deriving DecidableEq

/-- A splitter has cut a chunk: the events and the metadata of the wrapper it cut,
and the metadata of the new wrapper. -/
structure Cut where
  events : List Event
  metadata : Json
  chunk : Json
  deriving DecidableEq

structure Journey where
  /-- The number of the received message. -/
  source : Nat := 0
  /-- The index at which the wrapper began. -/
  start : Nat := 0
  /-- The cuts it comes from, the oldest first. -/
  cuts : List Cut := []
  events : List Event := []
  deriving DecidableEq

def Journey.record (j : Journey) (e : Event) : Journey := { j with events := j.events ++ [e] }

inductive Pc where
  /-- At the loop test. -/
  | test
  /-- In the filtra at `filtra_ix`, metadata added. -/
  | call
  /-- In the loop over the destinations of a filtra. -/
  | redirect (queues : List String)
  /-- In the loop over the chunks of the splitter at the index. -/
  | generate (splitter : Nat)
  /-- Behind the loop. -/
  | finish
  deriving DecidableEq

/-- A call of `process`. -/
structure Frame where
  msgW : MessageWrapper
  filtraIx : Nat
  pc : Pc := .test
  journey : Journey := {}

/-- An element of `s_queue_`. -/
structure Queued where
  msgW : MessageWrapper
  journey : Journey

/-- The call `process(msg, filtra_ix)` for the received message of that number. -/
def Frame.begin (source : Nat) (msg : Message) (filtraIx : Nat) : Frame where
  msgW := .ofMessage msg
  filtraIx
  journey := { source, start := filtraIx }

/-- What one step finds outside the walk. -/
structure Env where
  /-- `is_active()`. -/
  active : Bool
  /-- The internal queue of a name. -/
  queues : String → InternalQueue Message

/-- A pipeline that stays active, and queues without subscribers. -/
def undisturbed (_ : Nat) : Env where
  active := true
  queues := fun _ => {}

variable {ω : Type} (chain : List (Filtra ω))

/-- `find_filtra_index`. -/
def findFiltraIndex (filtraName : String) : Nat :=
  if filtraName = "out" then chain.length else chain.findIdx fun f => f.getName = filtraName

/-- The index behind a filtra that passes a message, or whose chunks go on. -/
def nextIndex (hop : String) (filtraIx : Nat) : Nat :=
  if hop ≠ "" then findFiltraIndex chain hop else filtraIx + 1

/-- What becomes of a call in one step. -/
inductive Next where
  | go (f : Frame)
  /-- It calls `process` for a chunk. -/
  | nest (caller chunk : Frame)
  /-- It pushes its wrapper to `s_queue_` and returns. -/
  | push (f : Frame)
  | ret (f : Frame)
  /-- An exception leaves it. -/
  | throw (e : Exn) (f : Frame)

/-- The loop test, and the entry into the filtra. -/
def Frame.test (env : Env) (f : Frame) : Frame :=
  if f.filtraIx < chain.length ∧ env.active then
    match chain[f.filtraIx]? with
    | none => { f with msgW := f.msgW.reject, pc := .finish }
    | some filtra =>
      let msgW := f.msgW.addMetadata filtra.base.metadata
      { f with
        msgW
        pc := .call
        journey := f.journey.record (.enter f.filtraIx f.msgW.isPassed f.msgW.metadata msgW.metadata) }
  else { f with pc := .finish }

/-- The hop after a filtra that has returned. -/
def Frame.route (filtra : Filtra ω) (hop : String) (f : Frame) : Frame :=
  if hop = "self" then
    { f with filtraIx := nextIndex chain filtra.getHops.1 f.filtraIx, pc := .generate f.filtraIx }
  else if f.msgW.isPassed then
    { f with filtraIx := nextIndex chain filtra.getHops.1 f.filtraIx, pc := .redirect filtra.getDestinations }
  else if filtra.getHops.2 ≠ "" then
    { f with filtraIx := findFiltraIndex chain filtra.getHops.2, msgW := f.msgW.pass, pc := .test }
  else { f with pc := .finish }

/-- The frame after `process_message`, before the hop is looked at. -/
def Frame.left (filtra : Filtra ω) (f : Frame) (world : ω) : Frame :=
  let (hop, msgW, _) := filtra.processMessage world f.msgW
  { f with msgW, journey := f.journey.record (.leave f.filtraIx hop msgW.isPassed) }

/-- The chunk that a call makes: a new wrapper around a copy of the message. -/
def Frame.cut (f : Frame) (msg : Message) : Frame :=
  let msgW := MessageWrapper.ofMessage msg.copy
  { msgW
    filtraIx := f.filtraIx
    journey :=
      { source := f.journey.source
        start := f.filtraIx
        cuts := f.journey.cuts ++ [⟨f.journey.events, f.msgW.metadata, msgW.metadata⟩] } }

/-- One step of a call: what becomes of it, the world, and `last_error_` if it is written. -/
def turn (env : Env) (f : Frame) (world : ω) : Next × ω × Option String :=
  match f.pc with
  | .test => (.go (f.test chain env), world, none)
  | .call =>
    match chain[f.filtraIx]? with
    | none => (.ret f, world, none)
    | some filtra =>
      let (hop, _, world') := filtra.processMessage world f.msgW
      let f := f.left filtra world
      match hop with
      | .ok hop => (.go (f.route chain filtra hop), world', none)
      | .error e =>
        if e.kind = .invalidArgument then (.go { f with msgW := f.msgW.reject, pc := .finish }, world', none)
        else (.ret f, world', some e.what)
  | .redirect [] => (.go { f with pc := .test }, world, none)
  | .redirect (queuid :: queues) =>
    let f := { f with
      msgW := f.msgW.withMsg, pc := .redirect queues, journey := f.journey.record (.redirect queuid) }
    match ((env.queues queuid).push f.msgW.msg.copy).1 with
    | .ok _ => (.go f, world, none)
    | .error e => (.throw e f, world, none)
  | .generate splitter =>
    match chain[splitter]? with
    | none => (.ret f, world, none)
    | some filtra =>
      match filtra.generateMessage world with
      | (.ok msg, world) => if msg.isValid then (.nest f (f.cut msg), world, none) else (.ret f, world, none)
      | (.error e, world) => (.throw e f, world, none)
  | .finish => (if f.msgW.isPassed then .push { f with journey := f.journey.record .push } else .ret f, world, none)

/-- The turns, each with what makes the call take it. -/
inductive Turned (env : Env) (f : Frame) (world : ω) : Next → Prop where
  | outOfLoop (pc : f.pc = .test) (out : chain.length ≤ f.filtraIx ∨ env.active = false) :
      Turned env f world (.go { f with pc := .finish })
  | enter {filtra : Filtra ω} (pc : f.pc = .test) (active : env.active = true)
      (found : chain[f.filtraIx]? = some filtra) :
      Turned env f world (.go
        { f with
          msgW := f.msgW.addMetadata filtra.base.metadata
          pc := .call
          journey := f.journey.record (.enter f.filtraIx f.msgW.isPassed f.msgW.metadata
            (f.msgW.addMetadata filtra.base.metadata).metadata) })
  | splits {filtra : Filtra ω} (pc : f.pc = .call) (found : chain[f.filtraIx]? = some filtra)
      (hop : (filtra.processMessage world f.msgW).1 = .ok "self") :
      Turned env f world (.go
        { f.left filtra world with
          filtraIx := nextIndex chain filtra.getHops.1 f.filtraIx, pc := .generate f.filtraIx })
  | passes {filtra : Filtra ω} {hop : String} (pc : f.pc = .call) (found : chain[f.filtraIx]? = some filtra)
      (returned : (filtra.processMessage world f.msgW).1 = .ok hop) (notSelf : hop ≠ "self")
      (passed : (filtra.processMessage world f.msgW).2.1.isPassed = true) :
      Turned env f world (.go
        { f.left filtra world with
          filtraIx := nextIndex chain filtra.getHops.1 f.filtraIx, pc := .redirect filtra.getDestinations })
  | rejectsTo {filtra : Filtra ω} {hop : String} (pc : f.pc = .call) (found : chain[f.filtraIx]? = some filtra)
      (returned : (filtra.processMessage world f.msgW).1 = .ok hop) (notSelf : hop ≠ "self")
      (rejected : (filtra.processMessage world f.msgW).2.1.isPassed = false) (target : filtra.getHops.2 ≠ "") :
      Turned env f world (.go
        { f.left filtra world with
          filtraIx := findFiltraIndex chain filtra.getHops.2
          msgW := (filtra.processMessage world f.msgW).2.1.pass
          pc := .test })
  | rejects {filtra : Filtra ω} {hop : String} (pc : f.pc = .call) (found : chain[f.filtraIx]? = some filtra)
      (returned : (filtra.processMessage world f.msgW).1 = .ok hop) (notSelf : hop ≠ "self")
      (rejected : (filtra.processMessage world f.msgW).2.1.isPassed = false) (noTarget : filtra.getHops.2 = "") :
      Turned env f world (.go { f.left filtra world with pc := .finish })
  | invalid {filtra : Filtra ω} {e : Exn} (pc : f.pc = .call) (found : chain[f.filtraIx]? = some filtra)
      (thrown : (filtra.processMessage world f.msgW).1 = .error e) (kind : e.kind = .invalidArgument) :
      Turned env f world (.go
        { f.left filtra world with msgW := (filtra.processMessage world f.msgW).2.1.reject, pc := .finish })
  | fails {filtra : Filtra ω} {e : Exn} (pc : f.pc = .call) (found : chain[f.filtraIx]? = some filtra)
      (thrown : (filtra.processMessage world f.msgW).1 = .error e) (kind : e.kind ≠ .invalidArgument) :
      Turned env f world (.ret (f.left filtra world))
  | redirected {queuid : String} {queues : List String} (pc : f.pc = .redirect (queuid :: queues)) :
      Turned env f world (.go
        { f with msgW := f.msgW.withMsg, pc := .redirect queues, journey := f.journey.record (.redirect queuid) })
  | overflows {queuid : String} {queues : List String} {e : Exn} (pc : f.pc = .redirect (queuid :: queues))
      (thrown : ((env.queues queuid).push f.msgW.withMsg.msg.copy).1 = .error e) :
      Turned env f world (.throw e
        { f with msgW := f.msgW.withMsg, pc := .redirect queues, journey := f.journey.record (.redirect queuid) })
  | allRedirected (pc : f.pc = .redirect []) : Turned env f world (.go { f with pc := .test })
  | chunk {splitter : Nat} {filtra : Filtra ω} {msg : Message} (pc : f.pc = .generate splitter)
      (found : chain[splitter]? = some filtra) (generated : (filtra.generateMessage world).1 = .ok msg)
      (valid : msg.isValid = true) : Turned env f world (.nest f (f.cut msg))
  | allGenerated {splitter : Nat} (pc : f.pc = .generate splitter) : Turned env f world (.ret f)
  | generateFails {splitter : Nat} {filtra : Filtra ω} {e : Exn} (pc : f.pc = .generate splitter)
      (found : chain[splitter]? = some filtra) (thrown : (filtra.generateMessage world).1 = .error e) :
      Turned env f world (.throw e f)
  | pushes (pc : f.pc = .finish) (passed : f.msgW.isPassed = true) :
      Turned env f world (.push { f with journey := f.journey.record .push })
  | drops (pc : f.pc = .finish) (rejected : f.msgW.isPassed = false) : Turned env f world (.ret f)
  /-- A frame in a filtra that does not exist; the walk never makes one. -/
  | astray (pc : f.pc = .call) (missing : chain[f.filtraIx]? = none) : Turned env f world (.ret f)

/-- Every turn is one of these. -/
theorem turned (env : Env) (f : Frame) (world : ω) : Turned chain env f world (turn chain env f world).1 := by
  unfold turn
  split
  case h_1 pc =>
    dsimp only [Frame.test]
    split
    case isTrue inside =>
      obtain ⟨inside, active⟩ := inside
      rw [List.getElem?_eq_getElem inside]
      exact .enter pc active (List.getElem?_eq_getElem inside)
    case isFalse out =>
      exact .outOfLoop pc (by by_cases h : env.active = true <;> simp_all)
  case h_2 pc =>
    split
    case h_1 missing => exact .astray pc missing
    case h_2 filtra found =>
      dsimp only
      split
      case h_1 hop returned =>
        have flag : (f.left filtra world).msgW.isPassed = (filtra.processMessage world f.msgW).2.1.isPassed := rfl
        unfold Frame.route
        split
        case isTrue self => exact .splits pc found (self ▸ returned)
        case isFalse notSelf =>
          rw [flag]
          cases h : (filtra.processMessage world f.msgW).2.1.isPassed with
          | true => exact .passes pc found returned notSelf h
          | false =>
            simp only [Bool.false_eq_true, if_false]
            split
            case isTrue target => exact .rejectsTo pc found returned notSelf h target
            case isFalse noTarget => exact .rejects pc found returned notSelf h (not_not.mp noTarget)
      case h_2 e thrown =>
        split
        case isTrue kind => exact .invalid pc found thrown kind
        case isFalse kind => exact .fails pc found thrown kind
  case h_3 pc => exact .allRedirected pc
  case h_4 queuid queues pc =>
    dsimp only
    split
    case h_1 => exact .redirected pc
    case h_2 e thrown => exact .overflows pc thrown
  case h_5 splitter pc =>
    split
    case h_1 => exact .allGenerated pc
    case h_2 filtra found =>
      split
      case h_1 msg world' generated =>
        split
        case isTrue valid => exact .chunk pc found (by rw [generated]) valid
        case isFalse => exact .allGenerated pc
      case h_2 e world' thrown => exact .generateFails pc found (by rw [thrown])
  case h_6 pc =>
    dsimp only
    cases passed : f.msgW.isPassed with
    | true => exact .pushes pc passed
    | false => exact .drops pc passed

/-! ## The stack -/

structure Walk (ω : Type) where
  /-- The calls, the innermost first. -/
  frames : List Frame
  world : ω
  lastError : String := ""
  sQueue : TSQueue Queued := {}
  /-- The exception that has left the outermost call. -/
  escaped : Option Exn := none
  /-- The journeys of the calls that are over. -/
  ended : List Journey := []

namespace Walk

/-- The exception unwinds every call. -/
def unwind (w : Walk ω) (e : Exn) : Walk ω :=
  { w with frames := [], escaped := some e, ended := w.ended ++ w.frames.map Frame.journey }

/-- What becomes of the stack, `rest` being the calls below. -/
def apply (w : Walk ω) (rest : List Frame) : Next → Walk ω
  | .go f => { w with frames := f :: rest }
  | .nest caller chunk => { w with frames := chunk :: caller :: rest }
  | .push f =>
    match w.sQueue.push ⟨f.msgW, f.journey⟩ with
    | .ok sQueue => { w with frames := rest, sQueue, ended := w.ended ++ [f.journey] }
    | .error e => { w with frames := f :: rest }.unwind e
  | .ret f => { w with frames := rest, ended := w.ended ++ [f.journey] }
  | .throw e f => { w with frames := f :: rest }.unwind e

def step (env : Env) (w : Walk ω) : Walk ω :=
  match w.frames with
  | [] => w
  | f :: rest =>
    let (next, world, error) := turn chain env f w.world
    { w with world, lastError := error.getD w.lastError }.apply rest next

/-- The call of `process` for a received message. -/
def begin (world : ω) (source : Nat) (msg : Message) (filtraIx : Nat) : Walk ω where
  frames := [.begin source msg filtraIx]
  world

theorem step_nil {env : Env} {w : Walk ω} (h : w.frames = []) : w.step chain env = w := by
  simp [step, h]

theorem step_cons {env : Env} {w : Walk ω} {f : Frame} {rest : List Frame} (h : w.frames = f :: rest) :
    w.step chain env =
      { w with
        world := (turn chain env f w.world).2.1
        lastError := (turn chain env f w.world).2.2.getD w.lastError }.apply rest (turn chain env f w.world).1 := by
  simp [step, h]

end Walk

/-! ## Invariants of calls -/

/-- What a turn must do so that the calls keep `call`, the wrappers pushed meet
`queued` and the journeys that are over meet `past`. -/
def Next.Keeps (call : Frame → Prop) (queued : Queued → Prop) (past : Journey → Prop) : Next → Prop
  | .go f => call f
  | .nest caller chunk => call caller ∧ call chunk
  | .push f => queued ⟨f.msgW, f.journey⟩ ∧ past f.journey
  | .ret f => past f.journey
  | .throw _ f => past f.journey

theorem Next.Keeps.and {call call' : Frame → Prop} {queued queued' : Queued → Prop} {past past' : Journey → Prop}
    {next : Next} (h : next.Keeps call queued past) (h' : next.Keeps call' queued' past') :
    next.Keeps (fun f => call f ∧ call' f) (fun x => queued x ∧ queued' x) fun j => past j ∧ past' j := by
  cases next with
  | go | ret | throw => exact ⟨h, h'⟩
  | nest => exact ⟨⟨h.1, h'.1⟩, h.2, h'.2⟩
  | push => exact ⟨⟨h.1, h'.1⟩, h.2, h'.2⟩

theorem Next.Keeps.imp {call : Frame → Prop} {queued queued' : Queued → Prop} {past past' : Journey → Prop}
    {next : Next} (h : next.Keeps call queued past) (queue : ∀ x, queued x → queued' x)
    (ended : ∀ j, past j → past' j) : next.Keeps call queued' past' := by
  cases next with
  | go | nest => exact h
  | ret | throw => exact ended _ h
  | push => exact ⟨queue _ h.1, ended _ h.2⟩

namespace Walk

/-- Every call, every queued wrapper and every journey that is over is as it should be. -/
structure Sound (call : Frame → Prop) (queued : Queued → Prop) (past : Journey → Prop) (w : Walk ω) : Prop where
  calls : ∀ f ∈ w.frames, call f
  queue : ∀ x ∈ w.sQueue.queue, queued x
  ended : ∀ j ∈ w.ended, past j

variable {call : Frame → Prop} {queued : Queued → Prop} {past : Journey → Prop} {chain}

theorem mem_past {ended : List Journey} {frames : List Frame} (old : ∀ j ∈ ended, past j)
    (live : ∀ f ∈ frames, past f.journey) : ∀ j ∈ ended ++ frames.map Frame.journey, past j := by
  intro j member
  rcases List.mem_append.mp member with before | now
  · exact old j before
  · obtain ⟨f, running, rfl⟩ := List.mem_map.mp now
    exact live f running

theorem Sound.apply {w : Walk ω} {rest : List Frame} {next : Next} (calls : ∀ f ∈ rest, call f)
    (queue : ∀ x ∈ w.sQueue.queue, queued x) (ended : ∀ j ∈ w.ended, past j)
    (callPast : ∀ f, call f → past f.journey) (keeps : next.Keeps call queued past) :
    (w.apply rest next).Sound call queued past := by
  have unwound : ∀ (e : Exn) (f : Frame), past f.journey →
      (({ w with frames := f :: rest } : Walk ω).unwind e).Sound call queued past := fun e f isPast =>
    { calls := fun _ none => (List.not_mem_nil none).elim
      queue := queue
      ended := mem_past ended (List.forall_mem_cons.mpr ⟨isPast, fun f live => callPast f (calls f live)⟩) }
  cases next with
  | go f => exact ⟨List.forall_mem_cons.mpr ⟨keeps, calls⟩, queue, ended⟩
  | nest caller chunk =>
    exact ⟨List.forall_mem_cons.mpr ⟨keeps.2, List.forall_mem_cons.mpr ⟨keeps.1, calls⟩⟩, queue, ended⟩
  | push f =>
    simp only [Walk.apply]
    split
    case h_1 sQueue pushed =>
      rw [TSQueue.push] at pushed
      split at pushed <;> cases pushed
      refine ⟨calls, ?_, mem_past ended (List.forall_mem_singleton.mpr keeps.2)⟩
      exact List.forall_mem_append.mpr ⟨queue, List.forall_mem_singleton.mpr keeps.1⟩
    case h_2 e _ => exact unwound e f keeps.2
  | ret f => exact ⟨calls, queue, mem_past ended (List.forall_mem_singleton.mpr keeps)⟩
  | throw e f => exact unwound e f keeps

/-- The step rule: it is enough to look at the turn of the innermost call. -/
theorem Sound.step {env : Env} {w : Walk ω} (sound : w.Sound call queued past)
    (callPast : ∀ f, call f → past f.journey)
    (keeps : ∀ f rest, w.frames = f :: rest → call f → (turn chain env f w.world).1.Keeps call queued past) :
    (w.step chain env).Sound call queued past := by
  cases h : w.frames with
  | nil => rwa [step_nil chain h]
  | cons f rest =>
    obtain ⟨first, calls⟩ := List.forall_mem_cons.mp (h ▸ sound.calls)
    rw [step_cons chain h]
    exact .apply calls sound.queue sound.ended callPast (keeps f rest h first)

theorem Sound.begin {world : ω} {source : Nat} {msg : Message} {filtraIx : Nat}
    (first : call (.begin source msg filtraIx)) : (Walk.begin world source msg filtraIx).Sound call queued past where
  calls := List.forall_mem_singleton.mpr first
  queue := fun _ none => (List.not_mem_nil none).elim
  ended := fun _ none => (List.not_mem_nil none).elim

/-- The run rule, for what every turn keeps whatever it finds. -/
theorem Sound.run {w : Walk ω} (sound : w.Sound call queued past) (callPast : ∀ f, call f → past f.journey)
    (keeps : ∀ env f world, call f → (turn chain env f world).1.Keeps call queued past) (env : Nat → Env) (n : Nat) :
    (Lib.run (Walk.step chain) env w n).Sound call queued past :=
  Lib.run_invariant sound (fun env _ sound => sound.step callPast fun f _ _ => keeps env f _) env n

/-- An exception that leaves the outermost call leaves none behind. -/
theorem step_escaped {env : Env} {w : Walk ω} (inside : w.escaped = none) {e : Exn}
    (escaped : (w.step chain env).escaped = some e) : (w.step chain env).frames = [] := by
  cases h : w.frames with
  | nil => rw [step_nil chain h, inside] at escaped; cases escaped
  | cons f rest =>
    rw [step_cons chain h] at escaped ⊢
    revert escaped
    cases (turn chain env f w.world).1 with
    | go | nest | ret => intro escaped; rw [show _ = none from inside] at escaped; cases escaped
    | throw => exact fun _ => rfl
    | push g =>
      simp only [Walk.apply]
      split
      · intro escaped; rw [show _ = none from inside] at escaped; cases escaped
      · exact fun _ => rfl

/-- No step changes the limit of `s_queue_`. -/
theorem step_maxSize (env : Env) (w : Walk ω) : (w.step chain env).sQueue.maxSize = w.sQueue.maxSize := by
  cases h : w.frames with
  | nil => rw [step_nil chain h]
  | cons f rest =>
    rw [step_cons chain h]
    cases (turn chain env f w.world).1 with
    | go | nest | ret | throw => rfl
    | push g =>
      simp only [Walk.apply]
      split
      case h_1 pushed =>
        rw [TSQueue.push] at pushed
        split at pushed <;> cases pushed
        rfl
      case h_2 => rfl

theorem run_maxSize (chain : List (Filtra ω)) (w : Walk ω) (env : Nat → Env) (n : Nat) :
    (Lib.run (Walk.step chain) env w n).sQueue.maxSize = w.sQueue.maxSize := by
  induction n with
  | zero => rfl
  | succ n ih => exact (step_maxSize (env n) _).trans ih

end Walk

end Process

end M2eBridge
