import M2eBridge.Pipeline.Terminate

/-!
# Requests and the pipelines' own threads

The requests of the REST interface, which are handled one at a time, over all the
pipeline objects that were ever constructed: the object that an edit replaces, or a
delete takes out of the map, lives on, and its control thread comes to the `TERMINATE`
whenever it does. So a successor can run beside it (`edit_overlaps`), unless every
`START` finds the other objects of the id at rest (`fleet_exclusive`). What the calls of
`gc` return is an argument of the step, as it is for the supervisor.
-/

namespace M2eBridge

/-- A `Pipeline` object under the id it was constructed with. -/
structure Owned (ω : Type) where
  pipeid : String
  managed : Managed ω

/-- What the request in progress has still to do. -/
inductive RequestInstr where
  /-- `execute` is called on the object. -/
  | send (ix : Nat) (cmd : PipelineCommand)
  | returned (ix : Nat)
  | create (pipeid : String) (data : Json)
  /-- `pipelines_[pipeid]` is the new object, when its constructor has returned. -/
  | put (pipeid : String)
  /-- `get_pipeline(pipeid)->start()`. -/
  | start (pipeid : String)
  /-- `gc.delete_pipeline` and `erase`. -/
  | erase (pipeid : String)

structure Fleet (ω : Type) where
  objects : List (Owned ω) := []
  /-- `pipelines_`, the place among the objects for the pointer. -/
  pipelines : String → Option Nat := fun _ => none
  request : List RequestInstr := []

namespace Fleet

variable {ω : Type}

inductive Request where
  | add (pipeid : String) (data : Json)
  | edit (pipeid : String) (data : Json)
  | delete (pipeid : String)
  | control (pipeid : String) (cmd : PipelineCommand)

def replaceObject (f : Fleet ω) (ix : Nat) (o : Owned ω) (m : Managed ω) : Fleet ω :=
  { f with objects := f.objects.set ix { o with managed := m } }

/-- A request up to its first call on a pipeline; `stored` is what `gc` makes of it. -/
def begin (f : Fleet ω) (stored : Except Exn Bool) : Request → Fleet ω
  | .add pipeid data =>
    match f.pipelines pipeid, stored with
    | none, .ok true => { f with request := [.create pipeid data, .put pipeid] }
    | _, _ => f
  | .edit pipeid data =>
    match f.pipelines pipeid, stored with
    | some ix, .ok true =>
      match f.objects[ix]? with
      | some o =>
        let pstate := o.managed.pipeline.state
        let started := if pstate ≠ .stopped ∧ pstate ≠ .stopping then [.start pipeid] else []
        { f with request := [.send ix .terminate, .returned ix, .create pipeid data, .put pipeid] ++ started }
      | none => f
    | _, _ => f
  | .delete pipeid =>
    match f.pipelines pipeid with
    | some ix => { f with request := [.send ix .terminate, .returned ix, .erase pipeid] }
    | none => f
  | .control pipeid cmd =>
    match f.pipelines pipeid with
    | some ix =>
      if cmd = .start ∨ cmd = .stop ∨ cmd = .restart then { f with request := [.send ix cmd, .returned ix] } else f
    | none => f

/-- The next statement of the request; an object that is constructed keeps its filtras' state in `world`. -/
def proceed (f : Fleet ω) (stored : Except Exn Bool) (world : ω) : List RequestInstr → Option (Fleet ω)
  | [] => none
  | .send ix cmd :: rest =>
    match f.objects[ix]? with
    | some o => (o.managed.step (.execute cmd)).map fun m => { f.replaceObject ix o m with request := rest }
    | none => none
  | .returned ix :: rest =>
    match f.objects[ix]? with
    | some o => if o.managed.caller = .idle then some { f with request := rest } else none
    | none => none
  | .create pipeid data :: rest =>
    some { f with objects := f.objects ++ [{ pipeid, managed := .raw data world }], request := rest }
  | .put pipeid :: rest =>
    match f.objects.getLast? with
    | some o =>
      match o.managed.caller, o.managed.config.value Json.getBoolean "enabled" false with
      | .idle, _ =>
        some { f with pipelines := Function.update f.pipelines pipeid (some (f.objects.length - 1)), request := rest }
      -- the constructor throws, and the request with it
      | .readEnabled none, .error _ => some { f with request := [] }
      | _, _ => none
    | none => none
  | .start pipeid :: rest =>
    match f.pipelines pipeid with
    | some ix =>
      match f.objects[ix]? with
      | some o =>
        some
          { f.replaceObject ix o { o.managed with isEnabled := true } with
            request := .send ix .start :: .returned ix :: rest }
      | none => none
    | none => some { f with request := [] }
  | .erase pipeid :: rest =>
    match stored with
    | .ok true => some { f with pipelines := Function.update f.pipelines pipeid none, request := rest }
    | _ => some { f with request := [] }

inductive Action (ω : Type) where
  | request (r : Request) (stored : Except Exn Bool)
  | proceed (stored : Except Exn Bool) (world : ω)
  /-- A thread of the object, or the call that is in progress on it. -/
  | object (ix : Nat) (a : Managed.Action ω)

def step : Action ω → Fleet ω → Option (Fleet ω)
  | .request r stored, f =>
    match f.request with
    | [] => some (f.begin stored r)
    | _ :: _ => none
  | .proceed stored world, f => f.proceed stored world f.request
  | .object ix a, f =>
    match a with
    | .execute _ => none
    | a => f.objects[ix]?.bind fun o => (o.managed.step a).map (f.replaceObject ix o)

/-- Two objects of one id never have running workers at a time. -/
def Exclusive (f : Fleet ω) : Prop :=
  ∀ (i j : Nat) (o p : Owned ω), f.objects[i]? = some o → f.objects[j]? = some p → o.pipeid = p.pipeid →
    ¬ o.managed.pipeline.WorkersIdle → ¬ p.managed.pipeline.WorkersIdle → i = j

end Fleet

namespace Managed

variable {ω : Type}

/-- Nothing runs, and nothing that is queued or in progress will start anything. -/
structure AtRest (m : Managed ω) : Prop where
  idle : m.pipeline.WorkersIdle
  queue : ∀ cmd ∈ m.pipeline.cQueue.queue, cmd.starts = false
  caller : ∀ cmd, m.caller.next = some cmd → cmd.starts = false
  control : ∀ t ∈ m.threads, ∀ i ∈ t.control, i.starts = false

instance (m : Managed ω) : Decidable m.AtRest :=
  decidable_of_iff (m.pipeline.WorkersIdle ∧ (∀ cmd ∈ m.pipeline.cQueue.queue, cmd.starts = false) ∧
      (∀ cmd ∈ m.caller.next, cmd.starts = false) ∧ ∀ t ∈ m.threads, ∀ i ∈ t.control, i.starts = false)
    ⟨fun rest => ⟨rest.1, rest.2.1, rest.2.2.1, rest.2.2.2⟩, fun rest => ⟨rest.idle, rest.queue, rest.caller, rest.control⟩⟩

theorem AtRest.raw (config : Json) (world : ω) : (Managed.raw config world).AtRest :=
  ⟨⟨.inl rfl, .inl rfl, .inl rfl⟩, by simp [Managed.raw], by simp [Managed.raw, CallerPc.next], by simp [Managed.raw]⟩

theorem calm_of_follows {s : Pipeline ω} {c d : List Instr} (calm : ∀ i ∈ c, i.starts = false)
    (queue : ∀ cmd ∈ s.cQueue.queue, cmd.starts = false) (follows : Pipeline.Follows s c d) :
    ∀ i ∈ d, i.starts = false := by
  cases follows with
  | test rest => split <;> simp [Instr.starts]
  | command cmd rest queued =>
    have still := queue cmd queued
    cases cmd <;> simp_all [Pipeline.handler, Instr.starts, PipelineCommand.starts]
  | start stop rest first => exact absurd (calm _ List.mem_cons_self) (by simp [Instr.starts])
  | stop rest =>
    refine List.forall_mem_append.mpr ⟨?_, fun i member => calm i (List.mem_cons_of_mem _ member)⟩
    simp [Pipeline.stopBody, Instr.starts]
  | notify rest => exact calm
  | next i rest _ _ => exact fun j member => calm j (List.mem_cons_of_mem _ member)
  | underflow | caught => simp [Instr.starts]

theorem AtRest.caller_step {m n : Managed ω} {factories : Factories ω} (rest : m.AtRest)
    (h : step (.caller factories) m = some n) : n.AtRest := by
  have h : m.runCaller factories m.caller = some n := h
  obtain ⟨idle, queue, caller, control⟩ := rest
  cases here : m.caller with
  | idle => rw [here] at h; cases h
  | testAlive cmd =>
    rw [here] at h caller
    cases h
    refine ⟨idle, queue, fun other next => caller other ?_, control⟩
    split at next <;> exact next
  | push cmd =>
    rw [here] at h caller
    simp only [runCaller] at h
    split at h <;> cases h
    case h_1 cQueue pushed =>
      rw [TSQueue.push] at pushed
      split at pushed <;> cases pushed
      exact ⟨idle.congr rfl rfl rfl,
        List.forall_mem_append.mpr ⟨queue, List.forall_mem_singleton.mpr (caller cmd rfl)⟩, by simp [CallerPc.next], control⟩
    case h_2 => exact ⟨idle, queue, by simp [CallerPc.next], control⟩
  | startControl next =>
    rw [here] at h caller
    cases h
    refine ⟨idle, queue, fun other later => ?_, ?_⟩
    · cases next with
      | none => cases later
      | some cmd => exact caller other later
    · exact List.forall_mem_append.mpr ⟨control, by simp [Instr.starts]⟩
  | createFiltras entries next =>
    rw [here] at h caller
    cases entries with
    | nil => cases h; exact ⟨idle, queue, caller, control⟩
    | cons entry rest =>
      simp only [runCaller] at h
      split at h <;> cases h
      · exact ⟨idle.congr rfl rfl rfl, queue, caller, control⟩
      · exact ⟨idle.congr rfl rfl rfl, queue, by simp [constructFailed, CallerPc.next], control⟩
  | readEnabled next =>
    rw [here] at h caller
    simp only [runCaller] at h
    split at h <;> cases h
    · exact ⟨idle, queue, caller, control⟩
    · exact ⟨idle, queue, by simp [CallerPc.next], control⟩
  | createIn | createOut =>
    rw [here] at h caller
    simp only [runCaller] at h
    split at h <;> cases h
    · exact ⟨idle, queue, caller, control⟩
    · exact ⟨idle.congr rfl rfl rfl, queue, by simp [constructFailed, CallerPc.next], control⟩
  | clearError | setStopped | setMalformed | freeResources =>
    rw [here] at h caller
    cases h
    exact ⟨idle.congr rfl rfl rfl, queue, caller, control⟩

/-- An object at rest is brought out of it by a `START` or a `RESTART` only. -/
theorem AtRest.step {a : Action ω} {m n : Managed ω} (rest : m.AtRest)
    (calm : ∀ cmd, a = .execute cmd → cmd.starts = false) (h : Managed.step a m = some n) : n.AtRest := by
  cases a with
  | execute cmd =>
    simp only [Managed.step] at h
    split at h <;> cases h
    refine ⟨rest.idle, rest.queue, fun other next => ?_, rest.control⟩
    cases next
    exact calm cmd rfl
  | caller factories => exact rest.caller_step h
  | control i call =>
    obtain ⟨t, pipeline, found, stepped, rfl⟩ := control_step h
    have member := List.mem_of_getElem? found
    have idle : ({ m.pipeline with control := t.control } : Pipeline ω).WorkersIdle := rest.idle.congr rfl rfl rfl
    obtain ⟨idle, queued⟩ := idle.runControl (rest.control t member) stepped
    have follows := Pipeline.runControl_follows rfl stepped
    refine ⟨idle, fun cmd at_cmd => rest.queue cmd (queued cmd at_cmd), ?_, fun u at_u => ?_⟩
    · rw [moved_caller]; exact rest.caller
    · rw [moved_threads] at at_u
      rcases List.mem_or_eq_of_mem_set at_u with old | rfl
      · exact rest.control u old
      · exact calm_of_follows (s := { m.pipeline with control := t.control }) (rest.control t member) rest.queue follows
  | worker a =>
    obtain ⟨pipeline, stepped, rfl, execute, control⟩ := worker_step h
    obtain ⟨idle, _, queue⟩ := rest.idle.step execute control stepped
    exact ⟨idle, queue ▸ rest.queue, rest.caller, rest.control⟩

end Managed

namespace Fleet

variable {ω : Type}

/-- The condition on a step: a `START` or a `RESTART` finds the other objects of the id at rest. -/
def StartsAlone (a : Action ω) (f : Fleet ω) : Prop :=
  ∀ stored world ix cmd rest o, a = .proceed stored world → f.request = .send ix cmd :: rest → cmd.starts →
    f.objects[ix]? = some o → ∀ (j : Nat) (p : Owned ω), f.objects[j]? = some p → p.pipeid = o.pipeid → j ≠ ix →
      p.managed.AtRest

/-- The other objects of the id are at rest. -/
def RestsBeside (f : Fleet ω) (ix : Nat) (o : Owned ω) : Prop :=
  ∀ (j : Nat) (p : Owned ω), f.objects[j]? = some p → p.pipeid = o.pipeid → j ≠ ix → p.managed.AtRest

instance (f : Fleet ω) (ix : Nat) (o : Owned ω) : Decidable (f.RestsBeside ix o) :=
  decidable_of_iff (∀ j < f.objects.length, ∀ p ∈ f.objects[j]?, p.pipeid = o.pipeid → j ≠ ix → p.managed.AtRest) (by
    constructor
    · intro rest j p at_j
      exact rest j (List.getElem?_eq_some_iff.mp at_j).1 p at_j
    · exact fun rest j _ p at_j => rest j p at_j)

instance (a : Action ω) (f : Fleet ω) : Decidable (StartsAlone a f) :=
  match a, here : f.request with
  | .proceed stored world, .send ix cmd :: rest =>
    decidable_of_iff (cmd.starts → ∀ o ∈ f.objects[ix]?, f.RestsBeside ix o) (by
      constructor
      · rintro alone _ _ _ _ _ o ⟨⟩ sends starts found
        cases here.symm.trans sends
        exact alone starts o found
      · exact fun alone starts o found => alone stored world ix cmd rest o rfl here starts found)
  | .proceed .., [] | .proceed .., .returned _ :: _ | .proceed .., .create .. :: _ | .proceed .., .put _ :: _
  | .proceed .., .start _ :: _ | .proceed .., .erase _ :: _ =>
    .isTrue fun _ _ _ _ _ _ _ sends => by cases here.symm.trans sends
  | .request .., _ | .object .., _ => .isTrue fun _ _ _ _ _ _ same => by cases same

/-- Of the objects of an id all but one are at rest. -/
def Resting (f : Fleet ω) : Prop :=
  ∀ (i j : Nat) (o p : Owned ω), f.objects[i]? = some o → f.objects[j]? = some p → o.pipeid = p.pipeid →
    ¬ o.managed.AtRest → ¬ p.managed.AtRest → i = j

theorem Resting.exclusive {f : Fleet ω} (resting : Resting f) : Exclusive f := by
  intro i j o p at_i at_j same busy busy'
  exact resting i j o p at_i at_j same (fun rest => busy rest.idle) fun rest => busy' rest.idle

/-- No object leaves its rest. -/
def Settles (f g : Fleet ω) : Prop :=
  ∀ (k : Nat) (p : Owned ω), g.objects[k]? = some p →
    p.managed.AtRest ∨ ∃ o, f.objects[k]? = some o ∧ o.pipeid = p.pipeid ∧ (o.managed.AtRest → p.managed.AtRest)

theorem Resting.settles {f g : Fleet ω} (resting : Resting f) (settles : Settles f g) : Resting g := by
  intro i j o p at_i at_j same busy busy'
  rcases settles i o at_i with rest | ⟨o', was_i, id_i, keeps⟩
  · exact absurd rest busy
  · rcases settles j p at_j with rest | ⟨p', was_j, id_j, keeps'⟩
    · exact absurd rest busy'
    · exact resting i j o' p' was_i was_j (by rw [id_i, id_j, same]) (fun rest => busy (keeps rest))
        fun rest => busy' (keeps' rest)

theorem Settles.of_same {f g : Fleet ω} (same : g.objects = f.objects) : Settles f g :=
  fun _ p here => .inr ⟨p, same ▸ here, rfl, id⟩

/-- One object moves, and does not leave its rest. -/
theorem Settles.replace {f g : Fleet ω} {ix : Nat} {o : Owned ω} {m : Managed ω} (found : f.objects[ix]? = some o)
    (objects : g.objects = f.objects.set ix { o with managed := m }) (keeps : o.managed.AtRest → m.AtRest) :
    Settles f g := by
  intro k p at_k
  rw [objects, List.getElem?_set] at at_k
  split at at_k
  case isTrue same =>
    subst same
    split at at_k <;> cases at_k
    exact .inr ⟨o, found, rfl, keeps⟩
  case isFalse => exact .inr ⟨p, at_k, rfl, id⟩

theorem begin_objects (f : Fleet ω) (stored : Except Exn Bool) (r : Request) : (f.begin stored r).objects = f.objects := by
  cases r with
  | add | delete => simp only [begin]; split <;> rfl
  | edit =>
    simp only [begin]
    split
    · split <;> rfl
    · rfl
  | control =>
    simp only [begin]
    split
    · split <;> rfl
    · rfl

theorem Resting.proceed {f g : Fleet ω} {stored : Except Exn Bool} {world : ω} (resting : Resting f)
    (alone : StartsAlone (.proceed stored world) f) (h : step (.proceed stored world) f = some g) : Resting g := by
  have h : f.proceed stored world f.request = some g := h
  cases here : f.request with
  | nil => rw [here] at h; cases h
  | cons instr rest =>
    rw [here] at h
    cases instr with
    | send ix cmd =>
      simp only [Fleet.proceed] at h
      split at h
      case h_2 => cases h
      case h_1 o found =>
        obtain ⟨m, sent, rfl⟩ := Option.map_eq_some_iff.mp h
        cases starts : cmd.starts with
        | false =>
          refine resting.settles (.replace found rfl fun at_rest => at_rest.step (fun other same => ?_) sent)
          cases same
          exact starts
        | true =>
          have others := alone stored world ix cmd rest o rfl here starts found
          have place : ∀ (k : Nat) (p : Owned ω), (f.objects.set ix { o with managed := m })[k]? = some p →
              k = ix ∧ p.pipeid = o.pipeid ∨ k ≠ ix ∧ f.objects[k]? = some p := by
            intro k p at_k
            rw [List.getElem?_set] at at_k
            split at at_k
            case isTrue same => split at at_k <;> cases at_k; exact .inl ⟨same.symm, rfl⟩
            case isFalse different => exact .inr ⟨fun same => different same.symm, at_k⟩
          intro i j p q at_i at_j same busy busy'
          rcases place i p at_i with ⟨rfl, id_i⟩ | ⟨other_i, was_i⟩
          · rcases place j q at_j with ⟨rfl, _⟩ | ⟨other_j, was_j⟩
            · rfl
            · exact absurd (others j q was_j (same ▸ id_i) other_j) busy'
          · rcases place j q at_j with ⟨rfl, id_j⟩ | ⟨_, was_j⟩
            · exact absurd (others i p was_i (same ▸ id_j) other_i) busy
            · exact resting i j p q was_i was_j same busy busy'
    | returned ix =>
      simp only [Fleet.proceed] at h
      split at h
      · split at h <;> cases h
        exact resting.settles (.of_same rfl)
      · cases h
    | create pipeid data =>
      cases h
      refine resting.settles fun k p at_k => ?_
      simp only [List.getElem?_append] at at_k
      split at at_k
      · exact .inr ⟨p, at_k, rfl, id⟩
      · have new := List.mem_singleton.mp (List.mem_of_getElem? at_k)
        exact .inl (new ▸ .raw data world)
    | put pipeid =>
      simp only [Fleet.proceed] at h
      split at h
      · split at h <;> cases h <;> exact resting.settles (.of_same rfl)
      · cases h
    | start pipeid =>
      simp only [Fleet.proceed] at h
      split at h
      · split at h <;> cases h
        case h_1 =>
          exact resting.settles (.replace ‹_› rfl fun at_rest =>
            ⟨at_rest.idle, at_rest.queue, at_rest.caller, at_rest.control⟩)
      · cases h; exact resting.settles (.of_same rfl)
    | erase pipeid =>
      simp only [Fleet.proceed] at h
      split at h <;> cases h <;> exact resting.settles (.of_same rfl)

theorem Resting.step {a : Action ω} {f g : Fleet ω} (resting : Resting f) (alone : StartsAlone a f)
    (h : Fleet.step a f = some g) : Resting g := by
  cases a with
  | request r stored =>
    simp only [Fleet.step] at h
    split at h <;> cases h
    exact resting.settles (.of_same (begin_objects f stored r))
  | proceed stored world => exact resting.proceed alone h
  | object ix a =>
    cases a with
    | execute cmd => cases h
    | caller | control | worker =>
      obtain ⟨o, found, moved⟩ := Option.bind_eq_some_iff.mp h
      obtain ⟨m, stepped, rfl⟩ := Option.map_eq_some_iff.mp moved
      exact resting.settles (.replace found rfl fun at_rest => at_rest.step (by simp) stepped)

/-- The run, from the start of the process on. -/
theorem fleet_exclusive (f : Fleet ω) (reached : Lib.ReachesWhen step StartsAlone {} f) : Exclusive f := by
  have start : Resting ({} : Fleet ω) := fun i j o p at_i => by simp at at_i
  exact (reached.invariant Resting start fun a f g alone resting h => resting.step alone h).exclusive

/-- `START` on its way to the object, and the object's threads up to their loops. -/
def startingUp (ix : Nat) : List (Action Unit) :=
  let proceed := Action.proceed (.ok true) ()
  let control := Action.object ix (.control 0 (.ok ()))
  proceed :: List.replicate 2 (.object ix (.caller Managed.plainFactories)) ++ proceed :: List.replicate 7 control ++
    List.replicate 3 (.object ix (.worker (.sending (.ok ())))) ++ List.replicate 2 control ++
    List.replicate 3 (.object ix (.worker (.processing fun _ => {}))) ++ List.replicate 2 control ++
    List.replicate 3 (.object ix (.worker (.receiving (.ok {})))) ++ [control]

/-- The object's `TERMINATE` up to its end, with those of the workers. -/
def retiring (ix : Nat) : List (Action Unit) :=
  let control := Action.object ix (.control 0 (.ok ()))
  List.replicate 5 control ++ List.replicate 3 (.object ix (.worker (.receiving (.ok {})))) ++
    control :: List.replicate 2 (.object ix (.worker (.processing fun _ => {}))) ++ List.replicate 2 control ++
    List.replicate 3 (.object ix (.worker (.sending (.ok ())))) ++ List.replicate 3 control

/-- A pipeline is added, started and edited; the old object comes to its rest, and then its successor is started. -/
def editResting : List (Action Unit) :=
  let proceed := Action.proceed (.ok true) ()
  let caller := fun ix => Action.object ix (.caller Managed.plainFactories)
  .request (.add "p" Managed.plainConfig) (.ok true) :: proceed :: List.replicate 7 (caller 0) ++
    proceed :: .request (.control "p" .start) (.ok true) :: startingUp 0 ++
    .request (.edit "p" Managed.plainConfig) (.ok true) :: proceed :: List.replicate 2 (caller 0) ++ proceed :: retiring 0 ++
    proceed :: List.replicate 7 (caller 1) ++ [proceed, proceed] ++ startingUp 1

def edited : Fleet Unit := (Lib.exec step editResting {}).getD {}

set_option maxRecDepth 4000 in
theorem editResting_alone : Lib.Along step StartsAlone editResting {} := by
  decide

theorem fleet_exclusive_edited :
    edited.objects.map (fun o => (o.pipeid, o.managed.pipeline.state)) = [("p", .terminated), ("p", .running)] ∧
      Exclusive edited :=
  ⟨rfl, fleet_exclusive edited (editResting_alone.reachesWhen rfl)⟩

/-- A pipeline is added, started and edited, and its successor is started before the
pipeline's thread has looked at its `TERMINATE`. -/
def editRunning : List (Action Unit) :=
  let proceed := Action.proceed (.ok true) ()
  let caller := fun ix => Action.object ix (.caller Managed.plainFactories)
  let started := fun ix => proceed :: List.replicate 2 (caller ix) ++ proceed ::
    List.replicate 7 (.object ix (.control 0 (.ok ())))
  .request (.add "p" Managed.plainConfig) (.ok true) :: proceed :: List.replicate 7 (caller 0) ++
    proceed :: .request (.control "p" .start) (.ok true) :: started 0 ++
    .request (.edit "p" Managed.plainConfig) (.ok true) :: proceed :: List.replicate 2 (caller 0) ++
    [proceed, proceed] ++ List.replicate 7 (caller 1) ++ [proceed, proceed] ++ started 1

def overlapping : Fleet Unit := (Lib.exec step editRunning {}).getD {}

theorem edit_overlaps : ¬ ∀ f : Fleet Unit, Lib.Reaches step {} f → Exclusive f := by
  intro all
  have exclusive := all overlapping (Lib.exec_reaches editRunning rfl)
  have busy : ∀ m : Managed Unit, m.pipeline.sending.thread = some .begin → ¬ m.pipeline.WorkersIdle := by
    intro m here idle
    have ended := idle.sending
    simp [here] at ended
  have same := exclusive 0 1 _ _ rfl rfl rfl (busy _ rfl) (busy _ rfl)
  cases same

end Fleet

end M2eBridge
