import M2eBridge.Filtras.Agreement
import M2eBridge.Filtras.Carried

/-!
# `goto` and the goto of the accepted branch

The constructor of the base class takes `goto` for the default of both branches. `acceptedGoto` is
a configuration in which it has been put under `goto_passed`, as what it is said to be equivalent
to: the members of `Base` are the same, except that a filtra without a `goto_rejected` of its own
now has no hop for a rejected message. So the two walks take the same steps until such a filtra
rejects a message (`accepted_goto_run`).
-/

namespace M2eBridge

namespace Json

theorem value_object {α : Type} (get : Json → Except Exn α) {j : Json} (object : ∃ members, j = .object members)
    (key : String) (default : α) : j.value get key default = (j.find? key).elim (.ok default) get := by
  obtain ⟨members, rfl⟩ := object
  simp only [value, find?]
  cases members.lookup key <;> rfl

/-- The `goto` of a configuration is put under `goto_passed`, unless there is one. -/
def acceptedGoto : Json → Json
  | .object members =>
    match members.lookup "goto" with
    | some target =>
      .object (eraseMember "goto"
        (if (members.lookup "goto_passed").isSome then members else setMember "goto_passed" target members))
    | none => .object members
  | j => j

theorem acceptedGoto_agrees {config : Json} (object : ∃ members, config = .object members) :
    config.AgreesBut ["goto", "goto_passed"] config.acceptedGoto := by
  obtain ⟨members, rfl⟩ := object
  cases target : members.lookup "goto" with
  | none =>
    have same : acceptedGoto (.object members) = .object members := by simp only [acceptedGoto, target]
    rw [same]
    exact ⟨⟨_, rfl⟩, ⟨_, rfl⟩, fun _ _ => rfl⟩
  | some target' =>
    have moved : acceptedGoto (.object members) = .object (eraseMember "goto"
        (if (members.lookup "goto_passed").isSome then members else setMember "goto_passed" target' members)) := by
      simp only [acceptedGoto, target]
    rw [moved]
    refine ⟨⟨_, rfl⟩, ⟨_, rfl⟩, fun key kept => ?_⟩
    obtain ⟨notGoto, notPassed⟩ : key ≠ "goto" ∧ key ≠ "goto_passed" := by simpa using kept
    simp only [find?]
    rw [lookup_eraseMember_other notGoto]
    split
    · rfl
    · rw [lookup_setMember_other notPassed]

theorem acceptedGoto_goto {config : Json} : config.acceptedGoto.find? "goto" = none := by
  cases config with
  | object members =>
    cases target : members.lookup "goto" with
    | none => simp only [acceptedGoto, target, find?]
    | some target' => simp only [acceptedGoto, target, find?, lookup_eraseMember_self]
  | null | boolean | integer | float | string | binary | array => rfl

/-- The accepted branch has a goto of its own, or the common one. -/
theorem acceptedGoto_passed {config : Json} :
    config.acceptedGoto.find? "goto_passed" = (config.find? "goto_passed").orElse fun _ => config.find? "goto" := by
  cases config with
  | object members =>
    cases target : members.lookup "goto" with
    | none =>
      simp only [acceptedGoto, target, find?]
      cases members.lookup "goto_passed" <;> rfl
    | some target' =>
      simp only [acceptedGoto, target, find?]
      rw [lookup_eraseMember_other (by decide)]
      cases passed : members.lookup "goto_passed" with
      | none => simp only [Option.isSome_none, Bool.false_eq_true, if_false, lookup_setMember_self, Option.orElse]
      | some p => simp only [Option.isSome_some, if_true, passed, Option.orElse]
  | null | boolean | integer | float | string | binary | array => rfl

end Json

namespace Filtra

/-- The members that are read then: the hop of the rejected branch only where it has one of its own. -/
def Base.acceptedGoto (config : Json) (base : Base) : Base :=
  { base with hops := (base.hops.1, if config.contains "goto_rejected" then base.hops.2 else "") }

theorem Base.ofConfig_acceptedGoto {config : Json} {base : Base} (built : ofConfig config = .ok base) :
    ofConfig config.acceptedGoto = .ok (base.acceptedGoto config) := by
  have reads := ofConfig_ok_iff.mp built
  have object : ∃ members, config = .object members := by
    have name := reads.name
    cases config with
    | object members => exact ⟨members, rfl⟩
    | null | boolean | integer | float | string | binary | array => cases name
  have agrees := Json.acceptedGoto_agrees object
  obtain ⟨gotoHop, going, passed, rejected⟩ := reads.hops
  rw [Json.value_object _ object] at going passed rejected
  refine ofConfig_ok_iff.mpr ⟨?_, ?_, ?_, ?_, ?_, "", ?_, ?_, ?_⟩
  · exact (agrees.value_eq (by decide) _ _).symm.trans reads.name
  · rw [← agrees.value_eq (by decide)]
    exact reads.msgFormat
  · exact (agrees.value_eq (by decide) _ _).symm.trans reads.logicalNegation
  · rw [queuesIn, ← agrees.find "queues" (by decide)]
    exact reads.queueIds
  · exact (agrees.find "metadata" (by decide)) ▸ reads.metadata
  · rw [Json.value_object _ agrees.right, Json.acceptedGoto_goto]
    rfl
  · rw [Json.value_object _ agrees.right, Json.acceptedGoto_passed]
    cases own : config.find? "goto_passed" with
    | some v => rw [own] at passed; exact passed
    | none =>
      rw [own] at passed
      cases passed
      cases target : config.find? "goto" with
      | some v => rw [target] at going; exact going
      | none => rw [target] at going; exact going
  · rw [Json.value_object _ agrees.right, ← agrees.find "goto_rejected" (by decide)]
    cases own : config.find? "goto_rejected" with
    | some v =>
      rw [own] at rejected
      simp only [Base.acceptedGoto, Json.contains, own, Option.isSome_some, if_true]
      exact rejected
    | none => simp only [Base.acceptedGoto, Json.contains, own, Option.isSome_none, Bool.false_eq_true, if_false, Option.elim]

variable {ω : Type}

/-- The filtra of that configuration. -/
def acceptedGoto (f : Filtra ω) : Filtra ω :=
  { f with
    config := f.config.acceptedGoto
    base := f.base.acceptedGoto f.config
    built := Base.ofConfig_acceptedGoto f.built }

/-- The filtra sends a rejected message on, to where its `goto` points. -/
def SharesGoto (f : Filtra ω) : Prop := f.config.contains "goto_rejected" = false ∧ f.getHops.2 ≠ ""

/-- The hop of the rejected branch is the same where it is not by `goto`. -/
theorem acceptedGoto_hop {f : Filtra ω} (own : ¬ f.SharesGoto) : f.acceptedGoto.getHops.2 = f.getHops.2 := by
  cases given : f.config.contains "goto_rejected" with
  | true => exact if_pos given
  | false =>
    have none_ : f.getHops.2 = "" := by
      by_contra target
      exact own ⟨given, target⟩
    rw [none_]
    exact if_neg (by simp [given])

end Filtra

namespace Process

variable {ω : Type}

/-- A filtra of the chain, as it is when it is among the chosen ones. -/
def movedGoto (chosen : Nat → Bool) (i : Nat) (f : Filtra ω) : Filtra ω := if chosen i then f.acceptedGoto else f

/-- The chain with the configurations of the chosen filtras changed. -/
def acceptedGotos (chosen : Nat → Bool) (chain : List (Filtra ω)) : List (Filtra ω) := chain.mapIdx (movedGoto chosen)

section Moved

variable (chosen : Nat → Bool) (i : Nat) (f : Filtra ω) (chain : List (Filtra ω))

@[simp] theorem movedGoto_processMessage : (movedGoto chosen i f).processMessage = f.processMessage := by
  unfold movedGoto
  split <;> rfl

@[simp] theorem movedGoto_generateMessage : (movedGoto chosen i f).generateMessage = f.generateMessage := by
  unfold movedGoto
  split <;> rfl

@[simp] theorem movedGoto_metadata : (movedGoto chosen i f).base.metadata = f.base.metadata := by
  unfold movedGoto
  split <;> rfl

@[simp] theorem movedGoto_getName : (movedGoto chosen i f).getName = f.getName := by
  unfold movedGoto
  split <;> rfl

@[simp] theorem movedGoto_getDestinations : (movedGoto chosen i f).getDestinations = f.getDestinations := by
  unfold movedGoto
  split <;> rfl

@[simp] theorem movedGoto_passed : (movedGoto chosen i f).getHops.1 = f.getHops.1 := by
  unfold movedGoto
  split <;> rfl

theorem acceptedGotos_getElem? : (acceptedGotos chosen chain)[i]? = (chain[i]?).map (movedGoto chosen i) :=
  List.getElem?_mapIdx

@[simp] theorem acceptedGotos_length : (acceptedGotos chosen chain).length = chain.length := List.length_mapIdx

/-- The filtras keep their names. -/
theorem acceptedGotos_index (filtraName : String) :
    findFiltraIndex (acceptedGotos chosen chain) filtraName = findFiltraIndex chain filtraName := by
  have names : (acceptedGotos chosen chain).map Filtra.getName = chain.map Filtra.getName := by
    refine List.ext_getElem? fun i => ?_
    rw [List.getElem?_map, List.getElem?_map, acceptedGotos_getElem?, Option.map_map]
    cases chain[i]? with
    | none => rfl
    | some f => exact congrArg some (movedGoto_getName chosen i f)
  have found (c : List (Filtra ω)) : (c.findIdx fun f => decide (f.getName = filtraName)) =
      (c.map Filtra.getName).findIdx fun name => decide (name = filtraName) := by
    rw [List.findIdx_map]
    rfl
  rw [findFiltraIndex, findFiltraIndex, acceptedGotos_length, found, names, ← found]

end Moved

/-- The hop of a rejected message too, unless it is by the `goto` of a chosen filtra. -/
theorem movedGoto_rejected {chosen : Nat → Bool} {i : Nat} {f : Filtra ω} (own : chosen i = true → ¬ f.SharesGoto) :
    (movedGoto chosen i f).getHops.2 = f.getHops.2 := by
  unfold movedGoto
  split
  · next inside => exact Filtra.acceptedGoto_hop (own inside)
  · rfl

theorem route_movedGoto (chosen : Nat → Bool) (chain : List (Filtra ω)) {i : Nat} {filtra : Filtra ω} {hop : String}
    {f : Frame} (keeps : hop ≠ "self" → f.msgW.isPassed = false → (movedGoto chosen i filtra).getHops.2 = filtra.getHops.2) :
    f.route (acceptedGotos chosen chain) (movedGoto chosen i filtra) hop = f.route chain filtra hop := by
  have index := acceptedGotos_index chosen chain
  simp only [Frame.route, nextIndex, index, movedGoto_passed, movedGoto_getDestinations]
  split
  · rfl
  · next notSelf =>
    split
    · rfl
    · next rejected => rw [keeps notSelf (Bool.eq_false_iff.mpr rejected)]

/-- The next step is that a chosen filtra rejects a message which its `goto` sends on. -/
structure Walk.RejectsByGoto (chosen : Nat → Bool) (chain : List (Filtra ω)) (w : Walk ω) (f : Frame) (rest : List Frame)
    (filtra : Filtra ω) : Prop where
  top : w.frames = f :: rest
  pc : f.pc = .call
  found : chain[f.filtraIx]? = some filtra
  chosen : chosen f.filtraIx = true
  shares : filtra.SharesGoto
  returned : ∃ hop, (filtra.processMessage w.world f.msgW).1 = .ok hop ∧ hop ≠ "self"
  rejected : (filtra.processMessage w.world f.msgW).2.1.isPassed = false

/-- In any other step the two chains do the same. -/
theorem step_acceptedGotos (chosen : Nat → Bool) (chain : List (Filtra ω)) (env : Env) (w : Walk ω)
    (other : ∀ f rest filtra, ¬ w.RejectsByGoto chosen chain f rest filtra) :
    w.step (acceptedGotos chosen chain) env = w.step chain env := by
  cases top : w.frames with
  | nil => rw [Walk.step_nil _ top, Walk.step_nil _ top]
  | cons f rest =>
    suffices same : turn (acceptedGotos chosen chain) env f w.world = turn chain env f w.world by
      rw [Walk.step_cons _ top, Walk.step_cons _ top, same]
    unfold turn
    cases pc : f.pc with
    | test =>
      simp only [Frame.test, acceptedGotos_length, acceptedGotos_getElem?]
      cases found : chain[f.filtraIx]? with
      | none => simp only [Option.map_none]
      | some filtra => simp only [Option.map_some, movedGoto_metadata]
    | call =>
      simp only [acceptedGotos_getElem?]
      cases found : chain[f.filtraIx]? with
      | none => simp only [Option.map_none]
      | some filtra =>
        have left : f.left (movedGoto chosen f.filtraIx filtra) w.world = f.left filtra w.world := by
          simp only [Frame.left, movedGoto_processMessage]
        simp only [Option.map_some, movedGoto_processMessage, left]
        cases returned : (filtra.processMessage w.world f.msgW).1 with
        | error e => rfl
        | ok hop =>
          have keeps : hop ≠ "self" → (f.left filtra w.world).msgW.isPassed = false →
              (movedGoto chosen f.filtraIx filtra).getHops.2 = filtra.getHops.2 := by
            intro notSelf rejected
            refine movedGoto_rejected fun inside => fun shares => ?_
            exact other f rest filtra ⟨top, pc, found, inside, shares, ⟨hop, returned, notSelf⟩, rejected⟩
          simp only [route_movedGoto chosen chain keeps]
    | redirect queues => cases queues <;> rfl
    | generate splitter =>
      simp only [acceptedGotos_getElem?]
      cases found : chain[splitter]? with
      | none => simp only [Option.map_none]
      | some filtra => simp only [Option.map_some, movedGoto_generateMessage]
    | finish => rfl

/-- What a call is about to redirect, and where to. -/
def Walk.redirects (w : Walk ω) : Option (String × Message) :=
  match w.frames with
  | [] => none
  | f :: _ =>
    match f.pc with
    | .redirect (queuid :: _) => some (queuid, f.msgW.withMsg.msg.copy)
    | _ => none

/-- While no message is rejected so, what is pushed and what is redirected is the same. -/
theorem accepted_goto_run (chosen : Nat → Bool) (chain : List (Filtra ω)) (world : ω) (source : Nat) (msg : Message)
    (filtraIx : Nat) (env : Nat → Env) (n : Nat)
    (other : ∀ k < n, ∀ f rest filtra,
      ¬ (Lib.run (Walk.step chain) env (.begin world source msg filtraIx) k).RejectsByGoto chosen chain f rest filtra) :
    ∀ k ≤ n,
      (Lib.run (Walk.step (acceptedGotos chosen chain)) env (.begin world source msg filtraIx) k).sQueue =
        (Lib.run (Walk.step chain) env (.begin world source msg filtraIx) k).sQueue ∧
      (Lib.run (Walk.step (acceptedGotos chosen chain)) env (.begin world source msg filtraIx) k).redirects =
        (Lib.run (Walk.step chain) env (.begin world source msg filtraIx) k).redirects := by
  suffices same : ∀ k ≤ n, Lib.run (Walk.step (acceptedGotos chosen chain)) env (.begin world source msg filtraIx) k =
      Lib.run (Walk.step chain) env (.begin world source msg filtraIx) k by
    intro k before
    rw [same k before]
    exact ⟨rfl, rfl⟩
  intro k
  induction k with
  | zero => exact fun _ => rfl
  | succ k ih =>
    intro before
    have here := ih (Nat.le_of_succ_le before)
    simp only [Lib.run, here]
    exact step_acceptedGotos chosen chain (env k) _ (other k before)

/-! ## The filtras of a configuration -/

/-- What the factory makes of the changed configuration. -/
def acceptedGotoObject (f : FiltraObject) : FiltraObject where
  config := f.config.acceptedGoto
  base := f.base.acceptedGoto f.config
  built := Filtra.Base.ofConfig_acceptedGoto f.built
  kind := f.kind

theorem create_acceptedGoto {b : Build} {f : FiltraObject} (made : (FiltraFactory.create b f.config).Gives f) :
    (FiltraFactory.create b f.config.acceptedGoto).Gives (acceptedGotoObject f) := by
  refine FiltraFactory.create_agrees made (Json.acceptedGoto_agrees ?_) (by decide) (by decide) _
  obtain ⟨read, found, -⟩ := FiltraFactory.create_gives_iff.mp made
  cases config : f.config with
  | object members => exact ⟨members, rfl⟩
  | null | boolean | integer | float | string | binary | array => rw [config] at found; cases found

/-- It does with a message what the filtra did. -/
theorem filtra_acceptedGoto (s : Services) (place : Nat) (f : FiltraObject) :
    (acceptedGotoObject f).filtra s place = (f.filtra s place).acceptedGoto := by
  obtain ⟨⟨config, base, built⟩, kind⟩ := f
  cases kind <;> rfl

/-- A limiter that lets nothing pass, with a `goto` behind the chain. -/
def refusingObject : FiltraObject where
  config := .object [("goto", .string "out"), ("size", .integer 0), ("type", .string "limiter")]
  base := { Filtra.Base.mk "" .raw false [] .null ("", "") with hops := ("out", "out") }
  built := rfl
  kind := .limiter { size := 0 }

/-- A limiter that lets eight bytes pass, with a `goto` to the filtra behind the next. -/
def lettingObject : FiltraObject where
  config := .object [("goto", .string "last"), ("size", .integer 8), ("type", .string "limiter")]
  base := { Filtra.Base.mk "" .raw false [] .null ("", "") with hops := ("last", "last") }
  built := rfl
  kind := .limiter { size := 8 }

/-- A limiter that lets nothing pass, with a `goto`, and a `goto_rejected` of its own. -/
def lastObject : FiltraObject where
  config :=
    .object [("goto", .string "out"), ("goto_rejected", .string "out"), ("name", .string "last"), ("size", .integer 0),
      ("type", .string "limiter")]
  base := { Filtra.Base.mk "last" .raw false [] .null ("", "") with hops := ("out", "out") }
  built := rfl
  kind := .limiter { size := 0 }

abbrev gotoChain : List (Filtra (SplitterWorld OtherWorld)) :=
  filtrasOf plainServices [lettingObject, refusingObject, lastObject]

def gotoStart : Walk (SplitterWorld OtherWorld) := .begin freshWorld 0 (.ofString [1] .raw "") 0

/-- The byte passes the first filtra and goes to the last by its `goto`, which rejects it and sends it on by
its `goto_rejected`. -/
theorem accepted_goto_passed :
    (Lib.run (Walk.step (acceptedGotos (fun _ => true) gotoChain)) undisturbed gotoStart 7).sQueue =
        (Lib.run (Walk.step gotoChain) undisturbed gotoStart 7).sQueue ∧
    (Lib.run (Walk.step (acceptedGotos (fun _ => true) gotoChain)) undisturbed gotoStart 7).redirects =
        (Lib.run (Walk.step gotoChain) undisturbed gotoStart 7).redirects := by
  refine accepted_goto_run (fun _ => true) gotoChain freshWorld 0 _ 0 undisturbed 7 ?_ 7 le_rfl
  intro k before f rest filtra rejects
  obtain ⟨top, pc, found, -, shares, -, rejected⟩ := rejects
  have place : k = 0 ∨ k = 1 ∨ k = 2 ∨ k = 3 ∨ k = 4 ∨ k = 5 ∨ k = 6 := by omega
  rcases place with rfl | rfl | rfl | rfl | rfl | rfl | rfl
  all_goals cases top
  all_goals cases pc
  all_goals cases found
  · cases rejected
  · cases shares.1

example : (Lib.run (Walk.step gotoChain) undisturbed gotoStart 7).sQueue.queue.length = 1 := by decide

/-- A byte that the limiter rejects is pushed because of the `goto`, and is not under `goto_passed`. -/
theorem rejected_kept_flowing : ¬ ∀ (s : Services) (filtras : List FiltraObject) (chosen : Nat → Bool)
    (world : SplitterWorld OtherWorld) (source : Nat) (msg : Message) (env : Nat → Env) (n : Nat),
    (Lib.run (Walk.step (filtrasOf s filtras)) env (.begin world source msg 0) n).frames = [] →
    (Lib.run (Walk.step (acceptedGotos chosen (filtrasOf s filtras))) env (.begin world source msg 0) n).frames = [] →
    (Lib.run (Walk.step (acceptedGotos chosen (filtrasOf s filtras))) env (.begin world source msg 0) n).sQueue =
      (Lib.run (Walk.step (filtrasOf s filtras)) env (.begin world source msg 0) n).sQueue := by
  intro same
  have pushed := same plainServices [refusingObject] (fun _ => true) freshWorld 0 (.ofString [1] .raw "") undisturbed 4 rfl rfl
  cases congrArg (fun q => q.queue.length) pushed

end Process

end M2eBridge
