import M2eBridge.Pipeline.Terminate

/-!
# The chain of a live pipeline

`construct` appends to `filtras_`, and what empties it is `free_resources`, behind a
failed `construct` or at the end of a control thread. So the chain is the configured one
as long as `prepare` is called again only when the control threads have ended, and a
control thread ends only when no worker can bring the pipeline back to life
(`chain_built`). A `TERMINATE` ends no thread, and a command that comes after it builds
the chain a second time (`terminated_chain_doubled`).
-/

namespace M2eBridge

namespace Managed

variable {ω : Type}

/-- One filtra for each entry of the config, in its order, and the connectors of the last
`construct`. -/
structure Built (m : Managed ω) : Prop where
  chain : m.filtras.map Filtra.config = entries m.config
  connectorIn : m.connectorIn = some m.constructs
  connectorOut : m.connectorOut = some m.constructs

/-- A control thread that leaves its loop leaves no worker behind. -/
def LeavesNone (a : Action ω) (m : Managed ω) : Prop :=
  ∀ i call t, a = .control i call → m.threads[i]? = some t → t.control.head? = some .testAlive →
    ¬ m.pipeline.isAlive → m.pipeline.WorkersIdle

/-- The condition on a step. -/
structure Undisturbed (a : Action ω) (m : Managed ω) : Prop where
  prepares : PreparesEnded a m
  leaves : LeavesNone a m

instance (a : Action ω) (m : Managed ω) : Decidable (LeavesNone a m) :=
  match a with
  | .control i call =>
    decidable_of_iff (∀ t ∈ m.threads[i]?, t.control.head? = some .testAlive → ¬ m.pipeline.isAlive → m.pipeline.WorkersIdle) (by
      constructor
      · rintro leaves _ _ t ⟨⟩ found
        exact leaves t found
      · exact fun leaves t found => leaves i call t rfl found)
  | .execute _ | .caller _ | .worker _ => .isTrue fun _ _ _ same => by cases same

instance (a : Action ω) (m : Managed ω) : Decidable (Undisturbed a m) :=
  decidable_of_iff (PreparesEnded a m ∧ LeavesNone a m)
    ⟨fun met => ⟨met.1, met.2⟩, fun met => ⟨met.prepares, met.leaves⟩⟩

/-! ## The constructor and `prepare` -/

/-- What is built when the call is at the place. -/
def Stage (m : Managed ω) : CallerPc → Prop
  | .clearError _ | .readEnabled _ | .createIn _ => m.filtras = []
  | .createFiltras rest _ =>
    m.filtras.map Filtra.config ++ rest = entries m.config ∧ m.connectorIn = some m.constructs
  | .createOut _ => m.filtras.map Filtra.config = entries m.config ∧ m.connectorIn = some m.constructs
  | .setStopped _ | .startControl _ => Built m
  | .freeResources => m.pipeline.state = .malformed
  | .setMalformed | .idle | .testAlive _ | .push _ => True

/-- A step of `prepare`. -/
inductive Prepares (m n : Managed ω) : Prop where
  | work (before : ∀ next, m.caller ≠ .startControl next) (preparing : n.caller.preparing)
      (threads : n.threads = m.threads) (stage : Stage n n.caller)
      (state : n.pipeline.state = m.pipeline.state ∨ n.pipeline.state = .malformed ∨
        ∃ next, n.caller = .startControl next)
  | start (pipeline : n.pipeline = m.pipeline) (threads : n.threads = m.threads ++ [({} : ControlThread)])
      (returned : n.caller.preparing = false) (built : Built n)
  | giveUp (threads : n.threads = m.threads) (returned : n.caller.preparing = false) (free : n.filtras = [])
      (state : n.pipeline.state = .malformed)
  /-- The exception that leaves `construct`, which in the constructor leaves no object. -/
  | throw (next : PipelineCommand) (here : m.caller = .readEnabled (some next)) (threads : n.threads = m.threads)
      (returned : n.caller.preparing = false) (free : n.filtras = []) (state : n.pipeline.state = m.pipeline.state)

theorem prepare_step {m n : Managed ω} {factories : Factories ω} (preparing : m.caller.preparing)
    (stage : Stage m m.caller) (h : step (.caller factories) m = some n) :
    Prepares m n ∧ (m.pipeline.WorkersIdle → n.pipeline.WorkersIdle) ∧
      (m.caller.next = none → n.caller.next = none) := by
  have h : m.runCaller factories m.caller = some n := h
  cases here : m.caller with
  | idle | testAlive | push => rw [here] at preparing; cases preparing
  | clearError next =>
    rw [here] at h stage
    cases h
    exact ⟨.work (by simp [here]) rfl rfl stage (.inl rfl), fun idle => idle.congr rfl rfl rfl, id⟩
  | readEnabled next =>
    rw [here] at h stage
    simp only [runCaller] at h
    split at h
    · cases h; exact ⟨.work (by simp [here]) rfl rfl stage (.inl rfl), id, id⟩
    · cases h; exact ⟨.throw _ here rfl rfl stage rfl, id, fun _ => rfl⟩
    · cases h
  | createIn next =>
    rw [here] at h stage
    simp only [runCaller] at h
    split at h <;> cases h
    · refine ⟨.work (by simp [here]) rfl rfl ⟨?_, rfl⟩ (.inl rfl), id, id⟩
      rw [show m.filtras = [] from stage]
      rfl
    · exact ⟨.work (by simp [here]) rfl rfl trivial (.inl rfl), fun idle => idle.congr rfl rfl rfl, fun _ => rfl⟩
  | createFiltras rest next =>
    rw [here] at h stage
    obtain ⟨chain, connector⟩ := stage
    cases rest with
    | nil =>
      cases h
      exact ⟨.work (by simp [here]) rfl rfl ⟨by simpa using chain, connector⟩ (.inl rfl), id, id⟩
    | cons entry rest =>
      have made := factories.made entry m.pipeline.world
      simp only [runCaller] at h
      split at h <;> cases h
      case h_1 f world created =>
        have config : f.config = entry := made f (by rw [created])
        refine ⟨.work (by simp [here]) rfl rfl ⟨?_, connector⟩ (.inl rfl), fun idle => idle.congr rfl rfl rfl, id⟩
        simp only [List.map_append, List.map_cons, List.map_nil, config, List.append_assoc]
        exact chain
      case h_2 =>
        exact ⟨.work (by simp [here]) rfl rfl trivial (.inl rfl), fun idle => idle.congr rfl rfl rfl, fun _ => rfl⟩
  | createOut next =>
    rw [here] at h stage
    simp only [runCaller] at h
    split at h <;> cases h
    · exact ⟨.work (by simp [here]) rfl rfl ⟨stage.1, stage.2, rfl⟩ (.inl rfl), id, id⟩
    · exact ⟨.work (by simp [here]) rfl rfl trivial (.inl rfl), fun idle => idle.congr rfl rfl rfl, fun _ => rfl⟩
  | setStopped next =>
    rw [here] at h stage
    cases h
    exact ⟨.work (by simp [here]) rfl rfl ⟨stage.chain, stage.connectorIn, stage.connectorOut⟩
      (.inr (.inr ⟨next, rfl⟩)), fun idle => idle.congr rfl rfl rfl, id⟩
  | startControl next =>
    rw [here] at h stage
    cases h
    refine ⟨.start rfl rfl ?_ ⟨stage.chain, stage.connectorIn, stage.connectorOut⟩, id, ?_⟩
    · cases next <;> rfl
    · rintro rfl; rfl
  | setMalformed =>
    rw [here] at h
    cases h
    exact ⟨.work (by simp [here]) rfl rfl rfl (.inr (.inl rfl)), fun idle => idle.congr rfl rfl rfl, id⟩
  | freeResources =>
    rw [here] at h stage
    cases h
    exact ⟨.giveUp rfl rfl rfl stage, id, id⟩

/-! ## The run -/

/-- The place is in the loop of `run_control`, behind which is the end of a round. -/
structure Looping (control : List Instr) : Prop where
  last : control.getLast? = some .command ∨ control.getLast? = some .testAlive
  loop : .freeResources ∉ control

/-- The thread has ended, is in its loop, or is about to free what a pipeline has that is
dead for good. -/
def Placed (m : Managed ω) (t : ControlThread) : Prop :=
  t.Ended ∨ Looping t.control ∨
    t.control = [.freeResources] ∧ m.pipeline.isAlive = false ∧ m.pipeline.WorkersIdle

structure Chained (m : Managed ω) : Prop where
  sole : Sole m
  stage : Stage m m.caller
  preparing : m.caller.preparing →
    m.pipeline.WorkersIdle ∧ (m.pipeline.isAlive = false ∨ ∃ next, m.caller = .startControl next)
  freed : m.caller.preparing = false → (∀ t ∈ m.threads, t.Ended) →
    m.filtras = [] ∧ m.pipeline.isAlive = false ∧ m.pipeline.WorkersIdle
  built : ∀ t ∈ m.threads, ¬ t.Ended → Built m
  places : ∀ t ∈ m.threads, Placed m t

theorem Chained.alive {m : Managed ω} (chained : Chained m) (alive : m.pipeline.isAlive) : Built m := by
  cases at_work : m.caller.preparing with
  | true =>
    rcases (chained.preparing at_work).2 with dead | ⟨next, here⟩
    · rw [dead] at alive; cases alive
    · have stage := chained.stage
      rw [here] at stage
      exact stage
  | false =>
    by_cases ended : ∀ t ∈ m.threads, t.Ended
    · have dead := (chained.freed at_work ended).2.1
      rw [dead] at alive
      cases alive
    · obtain ⟨t, member, busy⟩ : ∃ t ∈ m.threads, ¬ t.Ended := by simpa using ended
      exact chained.built t member busy

/-- The place behind a statement of the loop is in the loop, or the thread has found the
pipeline dead. -/
theorem Looping.follows {s : Pipeline ω} {c d : List Instr} (looping : Looping c) (follows : Pipeline.Follows s c d) :
    Looping d ∨ d = [.freeResources] ∧ c.head? = some .testAlive ∧ s.isAlive = false := by
  obtain ⟨last, loop⟩ := looping
  cases follows with
  | test rest =>
    cases alive : s.isAlive with
    | true => exact .inl ⟨.inl rfl, by simp⟩
    | false => exact .inr ⟨rfl, rfl, rfl⟩
  | command cmd rest queued =>
    refine .inl ⟨.inl (by simp), ?_⟩
    cases cmd <;> simp [Pipeline.handler]
  | start stop rest first =>
    refine .inl ⟨?_, ?_⟩
    · cases rest with
      | nil => simp at last
      | cons i rest => simpa [List.getLast?_append] using last
    · have outside : .freeResources ∉ stop := by rcases first with rfl | rfl <;> simp
      simp only [List.mem_cons, not_or] at loop
      simp [outside, loop.2, Pipeline.startBody]
  | stop rest =>
    refine .inl ⟨?_, ?_⟩
    · cases rest with
      | nil => simp at last
      | cons i rest => simpa [List.getLast?_append] using last
    · simp only [List.mem_cons, not_or] at loop
      simp [loop.2, Pipeline.stopBody]
  | notify rest => exact .inl ⟨last, loop⟩
  | next i rest test command =>
    simp only [List.mem_cons, not_or] at loop
    refine .inl ⟨?_, loop.2⟩
    cases d with
    | nil =>
      simp only [List.getLast?_singleton, Option.some.injEq] at last
      rcases last with same | same
      · exact absurd same command
      · exact absurd same test
    | cons j rest => simpa using last
  | underflow i rest free => exact .inl ⟨.inr rfl, by simp⟩
  | caught i rest free => exact .inl ⟨.inr rfl, by simp⟩

/-- What is built stays while the chain, the connectors and the count do. -/
theorem Built.congr {m n : Managed ω} (built : Built m) (config : n.config = m.config) (filtras : n.filtras = m.filtras)
    (connectorIn : n.connectorIn = m.connectorIn) (connectorOut : n.connectorOut = m.connectorOut)
    (constructs : n.constructs = m.constructs) : Built n := by
  refine ⟨?_, ?_, ?_⟩
  · rw [filtras, config]; exact built.chain
  · rw [connectorIn, constructs]; exact built.connectorIn
  · rw [connectorOut, constructs]; exact built.connectorOut

/-- Outside `prepare` nothing is half built. -/
theorem Chained.of_returned {m : Managed ω} (sole : Sole m) (returned : m.caller.preparing = false)
    (freed : (∀ t ∈ m.threads, t.Ended) → m.filtras = [] ∧ m.pipeline.isAlive = false ∧ m.pipeline.WorkersIdle)
    (built : ∀ t ∈ m.threads, ¬ t.Ended → Built m) (places : ∀ t ∈ m.threads, Placed m t) : Chained m where
  sole
  stage := by
    cases here : m.caller <;> first | trivial | rw [here] at returned; cases returned
  preparing := fun at_work => by rw [returned] at at_work; cases at_work
  freed := fun _ => freed
  built
  places

/-- A dead pipeline that all has left. -/
theorem Chained.of_ended {m : Managed ω} (ended : ∀ t ∈ m.threads, t.Ended) (returned : m.caller.preparing = false)
    (free : m.filtras = []) (dead : m.pipeline.isAlive = false) (idle : m.pipeline.WorkersIdle) : Chained m :=
  .of_returned (.of_ended ended) returned (fun _ => ⟨free, dead, idle⟩)
    (fun t member busy => absurd (ended t member) busy) fun t member => .inl (ended t member)

/-- What leaves a pipeline with idle workers in its state leaves the chain alone. -/
theorem Chained.pipeline {m : Managed ω} (chained : Chained m) (pipeline : Pipeline ω)
    (still : m.pipeline.WorkersIdle → pipeline.WorkersIdle ∧ pipeline.state = m.pipeline.state) :
    Chained { m with pipeline } := by
  have dead : m.pipeline.WorkersIdle → m.pipeline.isAlive = false → pipeline.isAlive = false := by
    intro idle dead
    rw [← dead, Pipeline.isAlive, Pipeline.isAlive, (still idle).2]
  refine ⟨⟨chained.sole.one, chained.sole.preparing⟩, ?_, fun at_work => ?_, fun outside ended => ?_,
    fun t member busy => ?_, fun t member => ?_⟩
  · have stage := chained.stage
    cases here : m.caller with
    | freeResources =>
      rw [here] at stage
      obtain ⟨idle, _⟩ := chained.preparing (by rw [here]; rfl)
      exact (still idle).2.trans stage
    | setStopped | startControl => rw [here] at stage; exact stage.congr rfl rfl rfl rfl rfl
    | idle | testAlive | clearError | readEnabled | createIn | createFiltras | createOut | setMalformed | push =>
      rw [here] at stage; exact stage
  · obtain ⟨idle, before⟩ := chained.preparing at_work
    exact ⟨(still idle).1, before.imp_left (dead idle)⟩
  · obtain ⟨free, before, idle⟩ := chained.freed outside ended
    exact ⟨free, dead idle before, (still idle).1⟩
  · exact (chained.built t member busy).congr rfl rfl rfl rfl rfl
  · rcases chained.places t member with ended | looping | ⟨free, before, idle⟩
    · exact .inl ended
    · exact .inr (.inl looping)
    · exact .inr (.inr ⟨free, dead idle before, (still idle).1⟩)

/-- A call goes on outside `prepare`. -/
theorem Chained.call {m : Managed ω} (chained : Chained m) (outside : m.caller.preparing = false) {caller : CallerPc}
    (returned : caller.preparing = false) : Chained { m with caller } := by
  refine .of_returned ⟨chained.sole.one, fun at_work => ?_⟩ returned (chained.freed outside) (fun t member busy => ?_)
    chained.places
  · rw [returned] at at_work; cases at_work
  · exact (chained.built t member busy).congr rfl rfl rfl rfl rfl

theorem Chained.prepare {m n : Managed ω} {factories : Factories ω} (chained : Chained m)
    (at_work : m.caller.preparing) (h : step (.caller factories) m = some n) (sole : Sole n) : Chained n := by
  have ended := chained.sole.preparing at_work
  obtain ⟨prepared, keeps, _⟩ := prepare_step at_work chained.stage h
  obtain ⟨idle, dead⟩ := chained.preparing at_work
  cases prepared with
  | work before preparing threads stage state =>
    refine ⟨sole, stage, fun _ => ⟨keeps idle, ?_⟩, fun returned => ?_, ?_, ?_⟩
    · rcases state with same | same | started
      · rcases dead with dead | ⟨next, here⟩
        · left; rw [← dead, Pipeline.isAlive, Pipeline.isAlive, same]
        · exact absurd here (before next)
      · left; simp [Pipeline.isAlive, same]
      · exact .inr started
    · rw [preparing] at returned; cases returned
    · exact fun t member busy => absurd (ended t (threads ▸ member)) busy
    · exact fun t member => .inl (ended t (threads ▸ member))
  | start pipeline threads returned built =>
    refine .of_returned sole returned (fun all => ?_) (fun _ _ _ => built) ?_
    · have := all {} (by rw [threads]; simp)
      cases this
    · rw [threads]
      refine List.forall_mem_append.mpr ⟨fun t member => .inl (ended t member), ?_⟩
      exact List.forall_mem_singleton.mpr (.inr (.inl ⟨.inr rfl, by simp⟩))
  | giveUp threads returned free state =>
    exact .of_ended (threads ▸ ended) returned free (by simp [Pipeline.isAlive, state]) (keeps idle)
  | throw next here threads returned free state =>
    refine .of_ended (threads ▸ ended) returned free ?_ (keeps idle)
    rcases dead with dead | ⟨_, there⟩
    · rw [← dead, Pipeline.isAlive, Pipeline.isAlive, state]
    · rw [here] at there; cases there

theorem Chained.caller {m n : Managed ω} {factories : Factories ω} (chained : Chained m)
    (prepares : PreparesEnded (.caller factories) m) (h : step (.caller factories) m = some n) : Chained n := by
  have sole := chained.sole.caller prepares h
  have h' : m.runCaller factories m.caller = some n := h
  cases here : m.caller with
  | idle => rw [here] at h'; cases h'
  | testAlive cmd =>
    have outside : m.caller.preparing = false := by rw [here]; rfl
    rw [here] at h'
    cases h'
    cases alive : m.pipeline.isAlive with
    | true => exact chained.call outside rfl
    | false =>
      rw [alive] at sole
      have ended := prepares factories cmd rfl here (by simp [alive])
      obtain ⟨free, dead, idle⟩ := chained.freed outside ended
      exact
        { sole
          stage := free
          preparing := fun _ => ⟨idle, .inl dead⟩
          freed := fun returned => by cases returned
          built := fun t member busy => absurd (ended t member) busy
          places := fun t member => .inl (ended t member) }
  | push cmd =>
    have outside : m.caller.preparing = false := by rw [here]; rfl
    rw [here] at h'
    simp only [runCaller] at h'
    split at h' <;> cases h'
    case h_1 cQueue _ =>
      refine (chained.pipeline { m.pipeline with cQueue } fun idle => ⟨?_, rfl⟩).call outside rfl
      exact idle.congr rfl rfl rfl
    case h_2 => exact chained.call outside rfl
  | clearError | readEnabled | createIn | createFiltras | createOut | setStopped | startControl | setMalformed
  | freeResources => exact chained.prepare (by rw [here]; rfl) h sole

/-- A thread's statement in the loop. -/
theorem moved_of_looping (m : Managed ω) (i : Nat) {t : ControlThread} (looping : Looping t.control)
    (pipeline : Pipeline ω) :
    m.moved i t pipeline =
      { m with
        pipeline
        threads :=
          m.threads.set i { control := pipeline.control, terminated := t.terminated || endsTerminate t.control } } := by
  have inside : t.control.head? ≠ some .freeResources :=
    fun head => looping.loop (List.mem_of_head? head)
  rw [moved, if_neg inside]

/-- The threads that have not moved have ended. -/
theorem Sole.others {m : Managed ω} {i : Nat} {t : ControlThread} (sole : Sole m) (found : m.threads[i]? = some t)
    (busy : ¬ t.Ended) (pipeline : Pipeline ω) :
    ∀ u ∈ (m.moved i t pipeline).threads, u.Ended ∨
      u = { control := pipeline.control, terminated := t.terminated || endsTerminate t.control } := by
  intro u at_u
  rw [moved_threads] at at_u
  obtain ⟨k, at_k⟩ := List.mem_iff_getElem?.mp at_u
  rw [List.getElem?_set] at at_k
  split at at_k
  · split at at_k <;> cases at_k
    exact .inr rfl
  · by_contra neither
    push Not at neither
    exact absurd (sole.one i k t u found at_k busy neither.1) ‹i ≠ k›

theorem Chained.control {m n : Managed ω} {i : Nat} {call : Except Exn Unit} (chained : Chained m)
    (leaves : LeavesNone (.control i call) m) (h : step (.control i call) m = some n) : Chained n := by
  have sole := chained.sole.control h
  obtain ⟨t, pipeline, found, stepped, rfl⟩ := control_step h
  have member := List.mem_of_getElem? found
  have busy : ¬ t.Ended := by
    intro ended
    rw [show t.control = [] from ended] at stepped
    cases stepped
  have outside : m.caller.preparing = false := by
    by_contra at_work
    exact busy (chained.sole.preparing (by simpa using at_work) t member)
  have returned : (m.moved i t pipeline).caller.preparing = false := by rw [moved_caller, outside]
  have others := chained.sole.others found busy pipeline
  rcases chained.places t member with ended | looping | ⟨free, dead, idle⟩
  · exact absurd ended busy
  · have built : Built (m.moved i t pipeline) := by
      rw [moved_of_looping m i looping]
      exact (chained.built t member busy).congr rfl rfl rfl rfl rfl
    have placed : Placed (m.moved i t pipeline)
          { control := pipeline.control, terminated := t.terminated || endsTerminate t.control } ∧
        pipeline.control ≠ [] := by
      rcases looping.follows (Pipeline.runControl_follows rfl stepped) with looping | ⟨free, head, dead⟩
      · refine ⟨.inr (.inl looping), fun none => ?_⟩
        have last := looping.last
        simp [none] at last
      · obtain ⟨rest, test⟩ := List.head?_eq_some_iff.mp head
        have dead : m.pipeline.isAlive = false := dead
        have idle := leaves i call t rfl found head (by simp [dead])
        rw [test] at stepped
        cases stepped
        exact ⟨.inr (.inr ⟨free, dead, idle.receiving, idle.processing, idle.sending⟩), by rw [free]; simp⟩
    refine .of_returned sole returned (fun ended => ?_) (fun _ _ _ => built) fun u at_u => ?_
    · have bound := (List.getElem?_eq_some_iff.mp found).1
      exact absurd (ended _ (List.mem_set bound _)) placed.2
    · rcases others u at_u with ended | rfl
      · exact .inl ended
      · exact placed.1
  · rw [free] at stepped
    cases stepped
    refine .of_ended (fun u at_u => ?_) returned ?_ dead (idle.congr rfl rfl rfl)
    · rcases others u at_u with ended | rfl
      · exact ended
      · rfl
    · simp [moved, free, Managed.freeResources]

theorem Chained.step {a : Action ω} {m n : Managed ω} (chained : Chained m) (undisturbed : Undisturbed a m)
    (h : Managed.step a m = some n) : Chained n := by
  cases a with
  | execute cmd =>
    simp only [Managed.step] at h
    split at h <;> cases h
    exact chained.call (by simp_all [CallerPc.preparing]) rfl
  | caller factories => exact chained.caller undisturbed.prepares h
  | control i call => exact chained.control undisturbed.leaves h
  | worker a =>
    obtain ⟨pipeline, stepped, rfl, execute, control⟩ := worker_step h
    apply chained.pipeline pipeline
    intro idle
    obtain ⟨idle, state, _⟩ := idle.step execute control stepped
    exact ⟨idle, state⟩

/-- The constructor, which has no threads and no chain to begin with. -/
theorem Constructed.chained {m : Managed ω} (constructed : Constructed m) : Chained m := by
  obtain ⟨config, world, reached, returned⟩ := constructed
  have kept := reached.invariant (fun m => Chained m ∧ m.caller = .idle ∨
      m.caller.preparing ∧ m.caller.next = none ∧ m.threads = [] ∧ m.pipeline.WorkersIdle ∧ Stage m m.caller)
    (.inr ⟨rfl, rfl, rfl, ⟨.inl rfl, .inl rfl, .inl rfl⟩, rfl⟩) ?_
  · rcases kept with ⟨chained, _⟩ | ⟨at_work, _⟩
    · exact chained
    · rw [returned] at at_work; cases at_work
  · rintro a m n ⟨factories, rfl⟩ inv h
    rcases inv with ⟨_, idle⟩ | ⟨at_work, no_command, threads, idle, stage⟩
    · have h : m.runCaller factories m.caller = some n := h
      rw [idle] at h
      cases h
    · obtain ⟨prepared, keeps, still⟩ := prepare_step at_work stage h
      have behind : n.caller.preparing = false → n.caller = .idle := by
        intro returned
        have no_command := still no_command
        cases here : n.caller <;> simp_all [CallerPc.preparing, CallerPc.next]
      have sole : Sole n := by
        refine Sole.caller (.of_ended (by simp [threads])) (fun _ cmd _ test => ?_) h
        rw [test] at at_work
        cases at_work
      cases prepared with
      | work _ preparing same stage _ => exact .inr ⟨preparing, still no_command, same.trans threads, keeps idle, stage⟩
      | start _ started returned built =>
        rw [threads, List.nil_append] at started
        refine .inl ⟨.of_returned sole returned (fun ended => ?_) (fun _ _ _ => built) ?_, behind returned⟩
        · have := ended {} (by rw [started]; simp)
          cases this
        · rw [started]
          exact List.forall_mem_singleton.mpr (.inr (.inl ⟨.inr rfl, by simp⟩))
      | giveUp same returned free state =>
        exact .inl ⟨.of_ended (by simp [same, threads]) returned free (by simp [Pipeline.isAlive, state]) (keeps idle),
          behind returned⟩
      | throw next here _ _ _ _ => rw [here] at no_command; cases no_command

/-- The run, from the constructor on. -/
theorem chain_built (start m : Managed ω) (constructed : Constructed start)
    (reached : Lib.ReachesWhen step Undisturbed start m) (alive : m.pipeline.isAlive) : Built m := by
  have chained := reached.invariant Chained constructed.chained fun a m n undisturbed chained h =>
    chained.step undisturbed h
  exact chained.alive alive

set_option maxRecDepth 4000 in
theorem preparedAgain_undisturbed : Lib.Along step Undisturbed preparedAgain constructedChain := by
  decide

theorem chain_built_again : builtAgain.constructs = 2 ∧ Built builtAgain :=
  ⟨rfl, chain_built constructedChain builtAgain constructedChain_constructed (preparedAgain_undisturbed.reachesWhen builtAgain_exec) rfl⟩

/-- A `START` that comes when `TERMINATE` has been handled. -/
def startAfterTerminate : List (Action Unit) :=
  let caller := Action.caller chainFactories
  .execute .terminate :: List.replicate 2 caller ++ List.replicate 4 (.control 0 (.ok ())) ++
    .execute .start :: List.replicate 9 caller

def chainDoubled : Managed Unit := (Lib.exec step startAfterTerminate constructedChain).getD constructedChain

example : chainDoubled.filtras.length = 2 := by decide

theorem terminated_chain_doubled :
    ¬ ∀ start m : Managed Unit, Constructed start → Lib.Reaches step start m → m.pipeline.isAlive → Built m := by
  intro all
  have built := all constructedChain chainDoubled constructedChain_constructed (Lib.exec_reaches startAfterTerminate rfl) rfl
  have once := congrArg List.length built.chain
  revert once
  decide

end Managed

end M2eBridge
