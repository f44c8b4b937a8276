import M2eBridge.Process.Reject

/-!
# Completed paths

`hopEnd` reads the hop path off the events of a wrapper: the index at which it
stands after them, provided each filtra it was handled by is the one at which its
path had arrived. A wrapper is completed when its path has arrived behind the chain.

The loop of `process` also ends when the pipeline is no longer active, and the
code behind it does not tell the two ends apart: a wrapper whose walk is
interrupted is pushed like a completed one. So what a walk pushes is completed
exactly when no loop test in it is interrupted (`pushed_completed`).
-/

namespace M2eBridge

namespace Process

variable {ω : Type} (chain : List (Filtra ω))

/-- The index after one event, for a wrapper at `ix`; `none` where the event does
not belong there or the path ends. -/
def hopNext (ix : Nat) : Event → Option Nat
  | .enter i _ _ _ => if i = ix then some ix else none
  | .leave i hop flag =>
    match chain[i]?, hop with
    | some filtra, .ok hop =>
      if i ≠ ix ∨ hop = "self" then none
      else if flag then some (nextIndex chain filtra.getHops.1 ix)
      else if filtra.getHops.2 ≠ "" then some (findFiltraIndex chain filtra.getHops.2)
      else none
    | _, _ => none
  | .redirect _ | .push => some ix

/-- The index at which a wrapper that began at `start` stands after the events. -/
def hopEnd (start : Nat) (events : List Event) : Option Nat := events.foldlM (hopNext chain) start

/-- Every filtra on the hop path has handled the wrapper, up to an index behind the chain. -/
def Completed (j : Journey) : Prop := ∃ ix, hopEnd chain j.start j.events = some ix ∧ chain.length ≤ ix

/-- The loop test finds a filtra to go to, but the pipeline inactive. -/
def Interrupted (env : Env) (f : Frame) : Prop :=
  f.pc = .test ∧ f.filtraIx < chain.length ∧ env.active = false

/-- The call is in its loop, or behind it with the wrapper passed. -/
def Frame.OnWay (f : Frame) : Prop :=
  (f.pc ≠ .finish ∧ ∀ splitter, f.pc ≠ .generate splitter) ∨ f.pc = .finish ∧ f.msgW.isPassed = true

/-- `filtra_ix` is where the hop path has arrived. -/
def OnPath (f : Frame) : Prop := f.OnWay → hopEnd chain f.journey.start f.journey.events = some f.filtraIx

/-- Behind the loop with the wrapper passed, the path has arrived behind the chain. -/
def Arrived (f : Frame) : Prop := f.pc = .finish → f.msgW.isPassed = true → chain.length ≤ f.filtraIx

variable {chain}

theorem hopEnd_record (start : Nat) (events : List Event) (e : Event) :
    hopEnd chain start (events ++ [e]) = (hopEnd chain start events).bind fun ix => hopNext chain ix e := by
  cases h : hopEnd chain start events <;> simp_all [hopEnd, List.foldlM_append]

theorem OnPath.record {f : Frame} (onPath : OnPath chain f) (onWay : f.OnWay) (e : Event) :
    hopEnd chain f.journey.start (f.journey.record e).events = hopNext chain f.filtraIx e := by
  rw [Journey.record, hopEnd_record, onPath onWay]
  rfl

theorem onWay_of_pc {f : Frame} (notFinish : f.pc ≠ .finish) (notGenerate : ∀ splitter, f.pc ≠ .generate splitter) :
    f.OnWay := .inl ⟨notFinish, notGenerate⟩

/-- A call keeps to its path, whatever the step finds. -/
theorem OnPath.turn {f : Frame} (onPath : OnPath chain f) (env : Env) (world : ω) :
    (Process.turn chain env f world).1.Keeps (OnPath chain)
      (fun x => ∃ ix, hopEnd chain x.journey.start x.journey.events = some ix) fun _ => True := by
  have kind := turned chain env f world
  generalize (Process.turn chain env f world).1 = next at kind ⊢
  cases kind with
  | outOfLoop pc => exact fun _ => onPath (onWay_of_pc (by simp [pc]) (by simp [pc]))
  | enter pc _ found =>
    intro _
    exact (onPath.record (onWay_of_pc (by simp [pc]) (by simp [pc])) _).trans (by simp [hopNext])
  | splits =>
    rintro (⟨-, notGenerate⟩ | ⟨finish, -⟩)
    · exact absurd rfl (notGenerate _)
    · cases finish
  | passes pc found returned notSelf passed =>
    intro _
    refine (onPath.record (onWay_of_pc (by simp [pc]) (by simp [pc])) _).trans ?_
    simp [hopNext, found, returned, notSelf, passed]
  | rejectsTo pc found returned notSelf rejected target =>
    intro _
    refine (onPath.record (onWay_of_pc (by simp [pc]) (by simp [pc])) _).trans ?_
    simp [hopNext, found, returned, notSelf, rejected, target]
  | rejects pc found _ _ rejected =>
    rintro (⟨notFinish, -⟩ | ⟨-, passed⟩)
    · exact absurd rfl notFinish
    · exact absurd (passed.symm.trans rejected) (by decide)
  | invalid =>
    rintro (⟨notFinish, -⟩ | ⟨-, passed⟩)
    · exact absurd rfl notFinish
    · cases passed
  | fails => trivial
  | redirected pc =>
    intro _
    exact onPath.record (onWay_of_pc (by simp [pc]) (by simp [pc])) _
  | overflows => trivial
  | allRedirected pc => exact fun _ => onPath (onWay_of_pc (by simp [pc]) (by simp [pc]))
  | chunk => exact ⟨onPath, fun _ => rfl⟩
  | allGenerated => trivial
  | generateFails => trivial
  | pushes pc passed => exact ⟨⟨f.filtraIx, onPath.record (.inr ⟨pc, passed⟩) .push⟩, trivial⟩
  | drops => trivial
  | astray => trivial

/-- Unless its test is interrupted, a call leaves the loop passed only behind the chain. -/
theorem Arrived.turn {f : Frame} (onPath : OnPath chain f) (arrived : Arrived chain f) {env : Env} (world : ω)
    (notInterrupted : ¬ Interrupted chain env f) :
    (Process.turn chain env f world).1.Keeps (Arrived chain) (fun x => Completed chain x.journey) fun _ => True := by
  have kind := turned chain env f world
  generalize (Process.turn chain env f world).1 = next at kind ⊢
  cases kind with
  | outOfLoop pc out =>
    intro _ _
    rcases out with out | inactive
    · exact out
    · exact Nat.le_of_not_lt fun inside => notInterrupted ⟨pc, inside, inactive⟩
  | enter | splits | passes | rejectsTo | redirected | allRedirected => exact nofun
  | rejects _ _ _ _ rejected => exact fun _ passed => absurd (passed.symm.trans rejected) (by decide)
  | invalid => exact nofun
  | chunk => exact ⟨arrived, nofun⟩
  | pushes pc passed =>
    exact ⟨⟨f.filtraIx, onPath.record (.inr ⟨pc, passed⟩) .push, arrived pc passed⟩, trivial⟩
  | fails | overflows | allGenerated | generateFails | drops | astray => trivial

/-- The calls of a walk without interruption keep to their paths and arrive. -/
theorem walk_completed {env : Env} {w : Walk ω}
    (sound : w.Sound (fun f => OnPath chain f ∧ Arrived chain f) (fun x => Completed chain x.journey) fun _ => True)
    (notInterrupted : ∀ f rest, w.frames = f :: rest → ¬ Interrupted chain env f) :
    (w.step chain env).Sound (fun f => OnPath chain f ∧ Arrived chain f) (fun x => Completed chain x.journey)
      fun _ => True := by
  refine sound.step (fun _ _ => trivial) fun f rest top inv => ?_
  exact ((inv.1.turn env w.world).and (inv.2.turn inv.1 w.world (notInterrupted f rest top))).imp
    (fun _ completed => completed.2) fun _ _ => trivial

/-- An interrupted test is two steps away from the push of a wrapper that is not completed. -/
theorem interrupted_pushes {env : Env} (env' : Env) {w : Walk ω} {f : Frame} {rest : List Frame}
    (sound : w.Sound (fun f => FlagInv chain f ∧ OnPath chain f) (fun _ => True) fun _ => True)
    (unlimited : w.sQueue.maxSize = 0) (top : w.frames = f :: rest) (interrupted : Interrupted chain env f) :
    ∃ x ∈ ((w.step chain env).step chain env').sQueue.queue, ¬ Completed chain x.journey := by
  obtain ⟨pc, inside, inactive⟩ := interrupted
  obtain ⟨flag, onPath⟩ := sound.calls f (top ▸ List.mem_cons_self)
  have onWay : f.OnWay := onWay_of_pc (by simp [pc]) (by simp [pc])
  have passed := (flag.going onWay).1
  have left : turn chain env f w.world = (.go { f with pc := .finish }, w.world, none) := by
    simp [turn, pc, Frame.test, inactive]
  have first : w.step chain env = { w with frames := { f with pc := .finish } :: rest } := by
    rw [Walk.step_cons chain top, left]
    rfl
  have room : w.sQueue.HasRoom := TSQueue.hasRoom_unlimited unlimited
  refine ⟨⟨f.msgW, f.journey.record .push⟩, ?_, ?_⟩
  · rw [first, Walk.step_cons chain rfl]
    simp [turn, passed, Walk.apply, TSQueue.push_of_room room]
  · rintro ⟨ix, arrived, behind⟩
    rw [show (f.journey.record .push).start = f.journey.start from rfl, onPath.record onWay .push] at arrived
    cases arrived
    exact absurd inside (Nat.not_lt.mpr behind)

/-- What a walk pushes, its chunks included, is completed exactly when none of its
loop tests is interrupted. -/
theorem pushed_completed (chain : List (Filtra ω)) (world : ω) (source : Nat) (msg : Message) (filtraIx : Nat)
    (env : Nat → Env) :
    (∀ n, ∀ x ∈ (Lib.run (Walk.step chain) env (.begin world source msg filtraIx) n).sQueue.queue,
      Completed chain x.journey) ↔
    ∀ n f rest, (Lib.run (Walk.step chain) env (.begin world source msg filtraIx) n).frames = f :: rest →
      ¬ Interrupted chain (env n) f := by
  constructor
  · intro completed n f rest top interrupted
    have start : (Walk.begin world source msg filtraIx).Sound (fun f => FlagInv chain f ∧ OnPath chain f)
        (fun _ => True) fun _ => True :=
      .begin ⟨⟨orderly_nil, fun _ => ⟨rfl, going_nil⟩⟩, fun _ => rfl⟩
    have sound := start.run (fun _ _ => trivial) (fun env f world inv =>
      ((inv.1.turn env world).and (inv.2.turn env world)).imp (fun _ _ => trivial) fun _ _ => trivial) env n
    have unlimited := Walk.run_maxSize chain (.begin world source msg filtraIx) env n
    obtain ⟨x, member, notCompleted⟩ :=
      interrupted_pushes (env (n + 1)) sound unlimited top interrupted
    exact notCompleted (completed (n + 2) x member)
  · intro notInterrupted n
    have start : (Walk.begin world source msg filtraIx).Sound (fun f => OnPath chain f ∧ Arrived chain f)
        (fun x => Completed chain x.journey) fun _ => True := .begin ⟨fun _ => rfl, nofun⟩
    have sound := Lib.run_invariant_of (fun env (w : Walk ω) => ∀ f rest, w.frames = f :: rest →
      ¬ Interrupted chain env f) start notInterrupted (fun _ _ met sound => walk_completed sound met) n
    exact sound.queue

end Process

end M2eBridge
