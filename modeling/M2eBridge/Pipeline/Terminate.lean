import M2eBridge.Pipeline.Managed

/-!
# The end of a control thread

The inner loop of `run_control` goes on as long as a command comes, whatever the last
one was, so the thread that has handled a `TERMINATE` takes the next command too and
never comes to `free_resources`; a `START` brings the pipeline back to `RUNNING`. As
long as no `TERMINATE` is handled, and `prepare` is called again only behind the end of
the last control thread, no more than one control thread takes commands
(`terminate_retires`).
-/

namespace M2eBridge

/-- The thread is in `c_queue_.pop()`. -/
def ControlThread.Popping (t : ControlThread) : Prop := t.control.head? = some .command

namespace Managed

variable {ω : Type}

/-- Two of the threads with the property are the same. -/
def AtMostOne (property : ControlThread → Prop) (threads : List ControlThread) : Prop :=
  ∀ (i j : Nat) (t u : ControlThread), threads[i]? = some t → threads[j]? = some u → property t → property u → i = j

/-- A thread that has handled a `TERMINATE` is on its way out, and commands are taken by
one thread. -/
structure Retires (m : Managed ω) : Prop where
  leaves : ∀ t ∈ m.threads, t.terminated → t.control = [.testAlive] ∨ t.control = [.freeResources] ∨ t.control = []
  sole : AtMostOne ControlThread.Popping m.threads

/-- A command finds the pipeline dead only when its control threads have ended. -/
def PreparesEnded (a : Action ω) (m : Managed ω) : Prop :=
  ∀ factories cmd, a = .caller factories → m.caller = .testAlive cmd → ¬ m.pipeline.isAlive →
    ∀ t ∈ m.threads, t.Ended

/-- The step ends the handling of a `TERMINATE`. -/
def Terminates (a : Action ω) (m : Managed ω) : Prop :=
  ∃ i call t, a = .control i call ∧ m.threads[i]? = some t ∧ endsTerminate t.control

/-- The condition on a step. -/
structure Orderly (a : Action ω) (m : Managed ω) : Prop where
  prepares : PreparesEnded a m
  unterminated : ¬ Terminates a m

instance (a : Action ω) (m : Managed ω) : Decidable (PreparesEnded a m) :=
  match a with
  | .caller factories =>
    match here : m.caller with
    | .testAlive cmd =>
      decidable_of_iff (m.pipeline.isAlive ∨ ∀ t ∈ m.threads, t.control = []) (by
        constructor
        · rintro test _ _ - - dead
          exact test.resolve_left dead
        · intro ended
          by_cases alive : m.pipeline.isAlive
          · exact .inl alive
          · exact .inr (ended factories cmd rfl here alive))
    | .idle | .clearError _ | .readEnabled _ | .createIn _ | .createFiltras .. | .createOut _ | .setStopped _
    | .startControl _ | .setMalformed | .freeResources | .push _ => .isTrue fun _ _ _ test => by cases here.symm.trans test
  | .execute _ | .control .. | .worker _ => .isTrue fun _ _ same => by cases same

instance (a : Action ω) (m : Managed ω) : Decidable (Terminates a m) :=
  match a with
  | .control i call =>
    decidable_of_iff (∃ t ∈ m.threads[i]?, endsTerminate t.control) (by
      constructor
      · rintro ⟨t, found, ends⟩
        exact ⟨i, call, t, rfl, found, ends⟩
      · rintro ⟨_, _, t, ⟨⟩, found, ends⟩
        exact ⟨t, found, ends⟩)
  | .execute _ | .caller _ | .worker _ => .isFalse fun ⟨_, _, _, same, _⟩ => by cases same

instance (a : Action ω) (m : Managed ω) : Decidable (Orderly a m) :=
  decidable_of_iff (PreparesEnded a m ∧ ¬ Terminates a m)
    ⟨fun met => ⟨met.1, met.2⟩, fun met => ⟨met.prepares, met.unterminated⟩⟩

/-- One control thread at most has not ended, and none while `prepare` is at work. -/
structure Sole (m : Managed ω) : Prop where
  one : AtMostOne (¬ ·.Ended) m.threads
  preparing : m.caller.preparing → ∀ t ∈ m.threads, t.Ended

theorem Sole.of_ended {m : Managed ω} (ended : ∀ t ∈ m.threads, t.Ended) : Sole m := by
  refine ⟨fun i j t u found _ busy _ => ?_, fun _ => ended⟩
  exact absurd (ended t (List.mem_of_getElem? found)) busy

/-- The constructor starts at most one thread, and `prepare` its thread behind those that have ended. -/
theorem Sole.caller {m n : Managed ω} {factories : Factories ω} (sole : Sole m)
    (prepares : PreparesEnded (.caller factories) m) (h : step (.caller factories) m = some n) : Sole n := by
  rcases runCaller_threads h with ⟨same, entered⟩ | ⟨started, preparing, returned⟩
  · refine ⟨same ▸ sole.one, fun later => same ▸ ?_⟩
    rcases entered later with earlier | ⟨cmd, test, dead⟩
    · exact sole.preparing earlier
    · exact prepares factories cmd rfl test dead
  · have ended := sole.preparing preparing
    refine ⟨fun i j t u found other busy busy' => ?_, fun later => by rw [returned] at later; cases later⟩
    have new : ∀ k v, n.threads[k]? = some v → ¬ v.Ended → k = m.threads.length := by
      intro k v at_k running
      rw [started, List.getElem?_append] at at_k
      split at at_k
      · exact absurd (ended v (List.mem_of_getElem? at_k)) running
      · have bound := (List.getElem?_eq_some_iff.mp at_k).1
        simp only [List.length_singleton] at bound
        omega
    rw [new i t found busy, new j u other busy']

theorem Sole.control {m n : Managed ω} {i : Nat} {call : Except Exn Unit} (sole : Sole m)
    (h : step (.control i call) m = some n) : Sole n := by
  obtain ⟨t, pipeline, found, stepped, rfl⟩ := control_step h
  -- the thread that moves has not ended, so it is the one
  have busy : ¬ t.Ended := by
    intro ended
    rw [show t.control = [] from ended] at stepped
    cases stepped
  have only : ∀ k v, (m.moved i t pipeline).threads[k]? = some v → ¬ v.Ended → k = i := by
    intro k v at_k running
    rw [moved_threads, List.getElem?_set] at at_k
    split at at_k
    · exact (‹i = k›).symm
    · exact sole.one k i v t at_k found running busy
  refine ⟨fun j k u v at_j at_k ju kv => (only j u at_j ju).trans (only k v at_k kv).symm, fun preparing => ?_⟩
  rw [moved_caller] at preparing
  exact absurd (sole.preparing preparing t (List.mem_of_getElem? found)) busy

theorem Sole.step {a : Action ω} {m n : Managed ω} (sole : Sole m) (prepares : PreparesEnded a m)
    (h : Managed.step a m = some n) : Sole n := by
  cases a with
  | execute cmd =>
    simp only [Managed.step] at h
    split at h <;> cases h
    exact ⟨sole.one, fun preparing => by cases preparing⟩
  | caller factories => exact sole.caller prepares h
  | control i call => exact sole.control h
  | worker a =>
    obtain ⟨pipeline, _, rfl, _⟩ := worker_step h
    exact ⟨sole.one, sole.preparing⟩

theorem Constructed.sole {m : Managed ω} (constructed : Constructed m) : Sole m := by
  obtain ⟨config, world, reached, _⟩ := constructed
  -- inside the constructor no command tests the pipeline
  refine (reached.invariant (fun m => Sole m ∧ ∀ cmd, m.caller ≠ .testAlive cmd) ⟨.of_ended ?_, by simp [raw]⟩ ?_).1
  · simp [raw]
  · rintro a m n ⟨factories, rfl⟩ ⟨sole, untested⟩ h
    exact ⟨sole.caller (fun _ cmd _ test => absurd test (untested cmd)) h, runCaller_untested h⟩

/-- A step that ends the handling of no `TERMINATE` leaves the history of the threads as it is. -/
theorem step_terminated {a : Action ω} {m n : Managed ω} (unterminated : ¬ Terminates a m)
    (none : ∀ t ∈ m.threads, t.terminated = false) (h : step a m = some n) :
    ∀ t ∈ n.threads, t.terminated = false := by
  cases a with
  | execute cmd =>
    simp only [step] at h
    split at h <;> cases h
    exact none
  | caller factories =>
    rcases runCaller_threads h with ⟨same, _⟩ | ⟨started, _⟩
    · exact same ▸ none
    · rw [started]
      exact List.forall_mem_append.mpr ⟨none, List.forall_mem_singleton.mpr rfl⟩
  | control i call =>
    obtain ⟨t, pipeline, found, _, rfl⟩ := control_step h
    intro u member
    rcases List.mem_or_eq_of_mem_set member with old | rfl
    · exact none u old
    · have ends : endsTerminate t.control = false := by
        simpa using fun ends => unterminated ⟨i, call, t, rfl, found, ends⟩
      simp [ends, none t (List.mem_of_getElem? found)]
  | worker a =>
    obtain ⟨pipeline, _, rfl, _⟩ := worker_step h
    exact none

theorem Constructed.unterminated {m : Managed ω} (constructed : Constructed m) :
    ∀ t ∈ m.threads, t.terminated = false := by
  obtain ⟨config, world, reached, _⟩ := constructed
  refine reached.invariant (fun m => ∀ t ∈ m.threads, t.terminated = false) (by simp [raw]) ?_
  rintro a m n ⟨factories, rfl⟩ none h
  exact step_terminated (by rintro ⟨i, call, t, same, _⟩; cases same) none h

/-- The run, and what is at fault in a step that does not meet the condition: behind a
`TERMINATE` that is handled the thread is at the queue again. -/
theorem terminate_retires :
    (∀ start m : Managed ω, Constructed start → Lib.ReachesWhen step Orderly start m → Retires m) ∧
      ∀ (a : Action ω) (m n : Managed ω), step a m = some n → Terminates a m → ¬ Retires n := by
  constructor
  · intro start m constructed reached
    have kept := reached.invariant (fun m => Sole m ∧ ∀ t ∈ m.threads, t.terminated = false)
      ⟨constructed.sole, constructed.unterminated⟩ fun a m n orderly inv h =>
        ⟨inv.1.step orderly.prepares h, step_terminated orderly.unterminated inv.2 h⟩
    obtain ⟨sole, unterminated⟩ := kept
    refine ⟨fun t member terminated => ?_, fun i j t u at_i at_j ti uj => sole.one i j t u at_i at_j ?_ ?_⟩
    · rw [unterminated t member] at terminated
      cases terminated
    · intro ended
      rw [ControlThread.Popping, show t.control = [] from ended] at ti
      cases ti
    · intro ended
      rw [ControlThread.Popping, show u.control = [] from ended] at uj
      cases uj
  · rintro a m n h ⟨i, call, t, rfl, found, ends⟩ retires
    obtain ⟨u, pipeline, here, stepped, rfl⟩ := control_step h
    cases found.symm.trans here
    have ends' : t.control = [.setState .terminated, .command] := of_decide_eq_true ends
    rw [ends'] at stepped
    cases stepped
    have bound := (List.getElem?_eq_some_iff.mp found).1
    have member : ({ control := [.command], terminated := t.terminated || endsTerminate t.control } : ControlThread) ∈
        m.threads.set i { control := [.command], terminated := t.terminated || endsTerminate t.control } :=
      List.mem_set bound _
    have leaves := retires.leaves _ member (by simp [ends])
    simp at leaves

/-- A config with one filtra, which the factories make of its entry. -/
def chainConfig : Json :=
  .object [("connector_in", .null), ("connector_out", .null), ("filtras", .array [(Filtra.plain : Filtra Unit).config])]

def chainFactories : Factories Unit where
  connectorIn := fun _ => .ok ()
  connectorOut := fun _ => .ok ()
  filtra := fun entry world =>
    if entry = (Filtra.plain : Filtra Unit).config then (.ok .plain, world)
    else (.error ⟨.runtimeError, "Unknown filtra"⟩, world)
  made := by
    intro entry world f created
    split at created <;> cases created
    exact (‹entry = _›).symm

def constructedChain : Managed Unit :=
  (Lib.exec step (List.replicate 8 (.caller chainFactories)) (raw chainConfig ())).getD (raw chainConfig ())

theorem constructedChain_constructed : Constructed constructedChain := by
  refine ⟨chainConfig, (), Lib.exec_reachesWhen (List.replicate 8 (.caller chainFactories)) ?_ rfl, rfl⟩
  intro a member s
  exact ⟨chainFactories, List.eq_of_mem_replicate member⟩

/-- `START`, and the threads up to their loops. -/
def startingUp (i : Nat) : List (Action Unit) :=
  let control := Action.control i (.ok ())
  .execute .start :: List.replicate 2 (.caller chainFactories) ++ List.replicate 6 control ++
    List.replicate 3 (.worker (.sending (.ok ()))) ++ List.replicate 2 control ++
    List.replicate 4 (.worker (.processing fun _ => {})) ++ List.replicate 2 control ++
    List.replicate 3 (.worker (.receiving (.ok {}))) ++ [control]

/-- The threads come to their ends. -/
def receivingEnds : List (Action Unit) := List.replicate 3 (.worker (.receiving (.ok {})))

def processingEnds : List (Action Unit) := List.replicate 2 (.worker (.processing fun _ => {}))

def sendingEnds : List (Action Unit) := List.replicate 3 (.worker (.sending (.ok ())))

/-- `START`, `STOP`, `START`, and a `TERMINATE` whose `connector_in_->stop()` throws an `underflow_error` when the
workers have ended, which ends the control thread; then `START` prepares the pipeline again. -/
def preparedAgain : List (Action Unit) :=
  let caller := Action.caller chainFactories
  let control := Action.control 0 (.ok ())
  control :: startingUp 0 ++
    .execute .stop :: List.replicate 2 caller ++ List.replicate 5 control ++ receivingEnds ++ control :: processingEnds ++
    List.replicate 2 control ++ sendingEnds ++ List.replicate 2 control ++
    startingUp 0 ++
    .execute .terminate :: List.replicate 2 caller ++ List.replicate 3 control ++ receivingEnds ++ processingEnds ++
    sendingEnds ++ .control 0 (.error ⟨.underflowError, "stopped"⟩) :: List.replicate 4 control ++
    .execute .start :: List.replicate 10 caller

def builtAgain : Managed Unit := (Lib.exec step preparedAgain constructedChain).getD constructedChain

set_option maxRecDepth 4000 in
theorem builtAgain_exec : Lib.exec step preparedAgain constructedChain = some builtAgain :=
  Lib.exec_getD (by decide)

set_option maxRecDepth 4000 in
theorem preparedAgain_orderly : Lib.Along step Orderly preparedAgain constructedChain := by
  decide

/-- `TERMINATE` up to its last statement. -/
def terminating : Managed Unit :=
  (Lib.exec step
    (.execute .terminate :: List.replicate 2 (.caller chainFactories) ++ List.replicate 3 (.control 0 (.ok ())))
    constructedChain).getD constructedChain

def handled : Managed Unit := (step (.control 0 (.ok ())) terminating).getD terminating

theorem terminate_retires_again : Retires builtAgain ∧ ¬ Retires handled := by
  constructor
  · have reached := preparedAgain_orderly.reachesWhen builtAgain_exec
    exact terminate_retires.1 constructedChain builtAgain constructedChain_constructed reached
  · have ends : Terminates (.control 0 (.ok ())) terminating := by decide
    have stepped : step (.control 0 (.ok ())) terminating = some handled := rfl
    exact terminate_retires.2 (.control 0 (.ok ())) terminating handled stepped ends

/-- A config with connectors and no filtras, which the factories make. -/
def plainConfig : Json := .object [("connector_in", .null), ("connector_out", .null)]

def plainFactories : Factories Unit where
  connectorIn := fun _ => .ok ()
  connectorOut := fun _ => .ok ()
  filtra := fun _ world => (.error ⟨.runtimeError, "Unknown filtra"⟩, world)
  made := by simp

/-- `START` is queued behind `TERMINATE`. -/
def startBehindTerminate : List (Action Unit) :=
  let caller := Action.caller plainFactories
  let control := Action.control 0 (.ok ())
  .execute .terminate :: List.replicate 2 caller ++ .execute .start :: List.replicate 2 caller ++
    -- the test of the loop, and the four statements of `TERMINATE`
    List.replicate 4 control ++
    -- `START` stops the terminated pipeline first
    List.replicate 13 control

def constructedPlain : Managed Unit :=
  (Lib.exec step (List.replicate 7 (.caller plainFactories)) (raw plainConfig ())).getD (raw plainConfig ())

theorem constructedPlain_constructed : Constructed constructedPlain := by
  refine ⟨plainConfig, (), Lib.exec_reachesWhen (List.replicate 7 (.caller plainFactories)) ?_ rfl, rfl⟩
  intro a member s
  exact ⟨plainFactories, List.eq_of_mem_replicate member⟩

def runningAgain : Managed Unit := (Lib.exec step startBehindTerminate constructedPlain).getD constructedPlain

example : runningAgain.pipeline.state = .running := by decide

theorem terminated_runs_again :
    ¬ ∀ start m : Managed Unit, Constructed start → Lib.Reaches step start m → Retires m := by
  intro all
  have retires := all constructedPlain runningAgain constructedPlain_constructed (Lib.exec_reaches startBehindTerminate rfl)
  have leaves := retires.leaves _ (List.mem_cons_self) rfl
  simp at leaves

end Managed

end M2eBridge
