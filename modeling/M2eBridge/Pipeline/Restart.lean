import M2eBridge.Pipeline.Order
import M2eBridge.Process.Complete

/-!
# What a restart finds in `s_queue_`

A STOP does not empty `s_queue_`, and the sending thread of the next START sends
what it finds there. As long as no loop test of `process` is interrupted, every
wrapper in `s_queue_`, in the sending thread's hand or sent has completed its hop
path, through all stops and restarts (`kept_completed`). A STOP that comes while a
message is between two filtras is enough for the next START to send it half done
(`restart_sends_unfinished`).
-/

namespace M2eBridge

namespace Pipeline

open Process (Frame Queued Walk Completed OnPath Arrived Interrupted)

variable {ω : Type}

/-- The step interrupts no loop test: where the processing thread takes it at a test
of `process` with a filtra to go to, the pipeline is active. -/
def Uninterrupted (chain : List (Filtra ω)) (a : Action) (s : Pipeline ω) : Prop :=
  ∀ queues, a = .processing queues → ∀ f rest, s.cargo.frames = f :: rest → ¬ Interrupted chain (s.env queues) f

/-- The calls keep to their paths, and what has left them is completed. -/
structure KeepsPaths (chain : List (Filtra ω)) (c : Cargo) : Prop where
  calls : ∀ f ∈ c.frames, OnPath chain f ∧ Arrived chain f
  left : ∀ x ∈ c.sent ++ c.sendingHand ++ c.sQueue, Completed chain x.journey

theorem KeepsPaths.walk {chain : List (Filtra ω)} {c : Cargo} {w : Walk ω} {env : Process.Env}
    (paths : KeepsPaths chain c) (frames : w.frames = c.frames) (queue : w.sQueue.queue = c.sQueue)
    (uninterrupted : ∀ f rest, c.frames = f :: rest → ¬ Interrupted chain env f) :
    KeepsPaths chain
      { c with
        frames := (w.step chain env).frames
        sQueue := (w.step chain env).sQueue.queue
        limit := (w.step chain env).sQueue.maxSize } := by
  obtain ⟨left, queued⟩ := List.forall_mem_append.mp paths.left
  have sound : w.Sound (fun f => OnPath chain f ∧ Arrived chain f) (fun x => Completed chain x.journey)
      fun _ => True := ⟨frames ▸ paths.calls, queue ▸ queued, fun _ _ => trivial⟩
  have after := Process.walk_completed sound fun f rest top => uninterrupted f rest (frames ▸ top)
  exact ⟨after.calls, List.forall_mem_append.mpr ⟨left, after.queue⟩⟩

theorem KeepsPaths.moves {chain : List (Filtra ω)} {c d : Cargo} {env : Option Process.Env}
    (paths : KeepsPaths chain c) (moves : Moves chain env c d)
    (uninterrupted : ∀ e, env = some e → ∀ f rest, c.frames = f :: rest → ¬ Interrupted chain e f) :
    KeepsPaths chain d := by
  cases moves with
  | still | receive | accept | lose => exact ⟨paths.calls, paths.left⟩
  | take _ m =>
    refine ⟨List.forall_mem_singleton.mpr ⟨fun _ => rfl, fun finish => ?_⟩, paths.left⟩
    cases finish
  | walk _ w env frames queue _ => exact paths.walk frames queue (uninterrupted env rfl)
  | pop _ x rest queue empty => exact ⟨paths.calls, by simpa [queue, empty] using paths.left⟩
  | send _ x hand => exact ⟨paths.calls, by simpa [hand] using paths.left⟩

/-- The walk, and the run: of one walk, what it pushes is completed exactly when no
loop test in it is interrupted; of a pipeline, through all stops and restarts, what
is in `s_queue_` or sent is completed as long as no step interrupts one. -/
theorem kept_completed (chain : List (Filtra ω)) (world : ω) :
    (∀ source msg filtraIx (env : Nat → Process.Env),
      (∀ n, ∀ x ∈ (Lib.run (Walk.step chain) env (.begin world source msg filtraIx) n).sQueue.queue,
        Completed chain x.journey) ↔
      ∀ n f rest, (Lib.run (Walk.step chain) env (.begin world source msg filtraIx) n).frames = f :: rest →
        ¬ Interrupted chain (env n) f) ∧
    ∀ s, Lib.ReachesWhen (step chain) (Uninterrupted chain) (prepared world) s →
      ∀ x ∈ s.sent ++ s.cargo.sendingHand ++ s.sQueue.queue, Completed chain x.journey := by
  refine ⟨fun source msg filtraIx env => Process.pushed_completed chain world source msg filtraIx env,
    fun s reached => ?_⟩
  have start : KeepsPaths chain (prepared world).cargo :=
    ⟨fun _ none => (List.not_mem_nil none).elim, fun _ none => (List.not_mem_nil none).elim⟩
  have paths := reached.invariant (fun s => KeepsPaths chain s.cargo) start fun a s t uninterrupted paths h => by
    obtain ⟨env, moves, found⟩ := step_moves h
    apply paths.moves moves
    intro e same f rest top
    obtain ⟨queues, action, rfl⟩ := found e same
    exact uninterrupted queues action f rest top
  exact paths.left

theorem uninterrupted_of_active {chain : List (Filtra ω)} {a : Action} {s : Pipeline ω}
    (active : s.isActive ∨ s.cargo.frames.isEmpty) : Uninterrupted chain a s := by
  rintro queues - f rest top ⟨pc, inside, inactive⟩
  rcases active with running | none
  · cases running.symm.trans inactive
  · simp [top] at none

theorem kept_completed_restarted : ∀ x ∈ restarted.sent, Completed [(.plain : Filtra Unit), .plain] x.journey := by
  have active : Lib.Along (step [.plain, .plain]) (fun _ s => s.isActive ∨ s.cargo.frames.isEmpty) restarting
      (prepared ()) := by decide +kernel
  have uninterrupted : Lib.Along (step [.plain, .plain]) (Uninterrupted [.plain, .plain]) restarting (prepared ()) :=
    active.mono fun _ _ => uninterrupted_of_active
  have kept := (kept_completed [.plain, .plain] ()).2 restarted (uninterrupted.reachesWhen restarted_exec)
  exact fun x sent => kept x (by simp [sent])

/-- The next START finds a wrapper that has gone through the first of two filtras,
and sends it: STOP came between the two. -/
def stopMidway : List Action :=
  let control := Action.control (.ok ())
  let receiving := Action.receiving (.ok {})
  let processing := Action.processing fun _ => {}
  let sending := Action.sending (.ok ())
  startUp ++ receiveOne (.ofString [0x61] .raw) ++
    -- through the first filtra
    List.replicate 3 processing ++
    .execute .stop :: List.replicate 3 control ++
    -- the second loop test finds the pipeline stopping; the wrapper is pushed
    List.replicate 4 processing ++ List.replicate 3 sending ++ List.replicate 3 receiving ++
    List.replicate 4 control ++ List.replicate 2 processing ++ List.replicate 4 control ++
    .execute .start :: List.replicate 6 control ++ List.replicate 6 sending

def stoppedMidway : Pipeline Unit :=
  (Lib.exec (step [.plain, .plain]) stopMidway (prepared ())).getD (prepared ())

theorem stoppedMidway_reached : Lib.Reaches (step [.plain, .plain]) (prepared ()) stoppedMidway :=
  Lib.exec_reaches stopMidway rfl

theorem restart_sends_unfinished :
    ¬ ∀ (chain : List (Filtra Unit)) (s : Pipeline Unit), Lib.Reaches (step chain) (prepared ()) s →
      ∀ x ∈ s.sent, Completed chain x.journey := by
  intro all
  have completed := all [.plain, .plain] stoppedMidway stoppedMidway_reached _ List.mem_cons_self
  revert completed
  rintro ⟨ix, arrived, behind⟩
  cases arrived
  exact absurd behind (by decide)

end Pipeline

end M2eBridge
