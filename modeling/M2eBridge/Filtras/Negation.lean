import M2eBridge.Filtras.Agreement
import M2eBridge.Filtras.Carried

/-!
# Logical negation

Two filtras whose configurations differ in `logical_negation` only, given the same message in the
same state: a comparator and a finder answer the contrary, a limiter and a throttle, whose
`process_message` does not look at `logical_negation_`, answer the same (`negation_opposite_iff`).
-/

namespace M2eBridge

/-- The configuration with `logical_negation`. -/
def negationConfig (members : List (String × Json)) (negation : Bool) : Json :=
  .object (Json.setMember "logical_negation" (.boolean negation) members)

theorem negationConfig_agrees (members : List (String × Json)) (negation negation' : Bool) :
    (negationConfig members negation).AgreesBut ["logical_negation"] (negationConfig members negation') :=
  .set _ _ _ _

theorem negationConfig_find (members : List (String × Json)) (negation : Bool) :
    (negationConfig members negation).find? "logical_negation" = some (.boolean negation) :=
  Json.lookup_setMember_self _ _ _

/-- Two calls that answer alike, with opposite verdicts where they return. -/
structure Opposite (a b : Except Exn String × MessageWrapper) : Prop where
  answer : a.1 = b.1
  verdict : ∀ hop, a.1 = .ok hop → a.2.isPassed = !b.2.isPassed

section Calls

variable (C : Codec) {base base' : Filtra.Base} (w : MessageWrapper)

theorem ComparatorFT.opposite (c : ComparatorFT) (negated : base.logicalNegation = !base'.logicalNegation) :
    Opposite (c.processMessage C base w) (c.processMessage C base' w) := by
  unfold processMessage
  split
  · exact ⟨rfl, fun hop returned => by cases returned⟩
  · split
    · refine ⟨rfl, fun hop _ => ?_⟩
      rw [negated]
      cases base'.logicalNegation <;> simp [MessageWrapper.passIf]
    · exact ⟨rfl, fun hop returned => by cases returned⟩

theorem FinderFT.decision_not (negated : base.logicalNegation = !base'.logicalNegation) (checked res : Bool) :
    decision base checked res = !decision base' checked res := by
  unfold decision
  rw [negated]
  cases base'.logicalNegation <;> simp

theorem FinderFT.opposite (f : FinderFT) (negated : base.logicalNegation = !base'.logicalNegation)
    (format : base.msgFormat = base'.msgFormat) : Opposite (f.processMessage C base w) (f.processMessage C base' w) := by
  have text : f.findText C base = f.findText C base' := by
    unfold findText findInValue
    rw [format]
  have keys : f.findInKeys C base = f.findInKeys C base' := by
    unfold findInKeys
    rw [format]
  unfold processMessage
  rw [text, keys]
  split
  · exact ⟨rfl, fun hop returned => by cases returned⟩
  · split
    · split
      · exact ⟨rfl, fun hop returned => by cases returned⟩
      · exact ⟨rfl, fun hop _ => decision_not negated _ _⟩
    · exact ⟨rfl, fun hop _ => decision_not negated _ _⟩

end Calls

/-- The kinds that list `logical_negation` and make a verdict. -/
def FiltraKind.ListsNegation : FiltraKind → Prop
  | .comparator _ | .finder _ | .limiter _ | .throttle _ => True
  | _ => False

/-- The base class reads the flag. -/
theorem negationConfig_flag {members : List (String × Json)} {negation : Bool} {base : Filtra.Base}
    (built : Filtra.Base.ofConfig (negationConfig members negation) = .ok base) : base.logicalNegation = negation := by
  have flag := (Filtra.Base.ofConfig_ok_iff.mp built).logicalNegation
  rw [Json.value_of_find _ _ (negationConfig_find members negation)] at flag
  exact (Except.ok.inj flag).symm

/-- The format is read as before. -/
theorem negationConfig_format {members : List (String × Json)} {negation negation' : Bool} {base base' : Filtra.Base}
    (built : Filtra.Base.ofConfig (negationConfig members negation) = .ok base)
    (built' : Filtra.Base.ofConfig (negationConfig members negation') = .ok base') : base.msgFormat = base'.msgFormat := by
  have format := (Filtra.Base.ofConfig_ok_iff.mp built).msgFormat
  rw [(negationConfig_agrees members negation negation').value_eq (by decide)] at format
  exact Except.ok.inj (format.symm.trans (Filtra.Base.ofConfig_ok_iff.mp built').msgFormat)

open FiltraFactory in
/-- The class and its own members are read as before. -/
theorem negationConfig_kind {b : Build} {members : List (String × Json)} {negation negation' : Bool} {f f' : FiltraObject}
    (made : (create b (negationConfig members negation)).Gives f)
    (made' : (create b (negationConfig members negation')).Gives f') : f.kind = f'.kind := by
  have agrees := negationConfig_agrees members negation negation'
  obtain ⟨read, found, known, -, given⟩ := create_gives_iff.mp made
  obtain ⟨read', found', known', -, given'⟩ := create_gives_iff.mp made'
  have type : f.kind.typeName = f'.kind.typeName :=
    Json.string.inj (Option.some.inj (found.symm.trans ((agrees.find "type" (by decide)).trans found')))
  rw [← type] at known'
  obtain rfl := Option.some.inj (known.symm.trans known')
  rw [(readsOwn known).agrees agrees (by decide)] at given
  exact Except.ok.inj (Option.some.inj (given.symm.trans given'))

/-- The configuration is of a comparator or a finder. -/
def Negates (members : List (String × Json)) : Prop :=
  members.lookup "type" = some (.string "comparator") ∨ members.lookup "type" = some (.string "finder")

/-- The verdict under `logical_negation` is the opposite one exactly for a comparator and a finder. -/
theorem negation_opposite_iff {b : Build} {members : List (String × Json)} {negated plain : FiltraObject}
    (made : (FiltraFactory.create b (negationConfig members true)).Gives negated)
    (made' : (FiltraFactory.create b (negationConfig members false)).Gives plain) (lists : negated.kind.ListsNegation)
    (s : Services) (place : Nat) (world : OtherWorld) (w : MessageWrapper) {hop : String}
    (returned : (negated.kind.processMessage s place negated.base world w).1 = .ok hop) :
    ((plain.kind.processMessage s place plain.base world w).1 = .ok hop ∧
      (negated.kind.processMessage s place negated.base world w).2.1.isPassed =
        !(plain.kind.processMessage s place plain.base world w).2.1.isPassed) ↔ Negates members := by
  have type : members.lookup "type" = some (.string negated.kind.typeName) := by
    obtain ⟨read, found, -⟩ := FiltraFactory.create_gives_iff.mp made
    exact (Json.lookup_setMember_other (by decide) _ members).symm.trans found
  have kind := negationConfig_kind made made'
  have built := FiltraFactory.create_config made ▸ negated.built
  have built' := FiltraFactory.create_config made' ▸ plain.built
  have flags : negated.base.logicalNegation = !plain.base.logicalNegation := by
    rw [negationConfig_flag built, negationConfig_flag built']
    rfl
  have format := negationConfig_format built built'
  rw [Negates, type, ← kind]
  cases class_ : negated.kind with
  | comparator c =>
    have opposite := c.opposite s.codec w flags
    rw [class_] at returned
    exact iff_of_true ⟨opposite.answer.symm.trans returned, opposite.verdict hop returned⟩ (.inl rfl)
  | finder f =>
    have opposite := f.opposite s.codec w flags format
    rw [class_] at returned
    exact iff_of_true ⟨opposite.answer.symm.trans returned, opposite.verdict hop returned⟩ (.inr rfl)
  | limiter l =>
    refine iff_of_false (fun both => (Bool.eq_not_self _).mp both.2) ?_
    simp [FiltraKind.typeName]
  | throttle t =>
    refine iff_of_false (fun both => (Bool.eq_not_self _).mp both.2) ?_
    simp [FiltraKind.typeName]
  | eraser | builder | splitter | nop | luaConverter | image =>
    rw [class_] at lists
    exact lists.elim

/-- `{"size": 8, "type": "limiter"}`, with `logical_negation`. -/
def limiterObject (negation : Bool) : FiltraObject where
  config := negationConfig [("size", .integer 8), ("type", .string "limiter")] negation
  base := { Filtra.Base.mk "" .raw false [] .null ("", "") with logicalNegation := negation }
  built := by cases negation <;> rfl
  kind := .limiter { size := 8 }

theorem limiterObject_made (b : Build) (negation : Bool) :
    (FiltraFactory.create b (negationConfig [("size", .integer 8), ("type", .string "limiter")] negation)).Gives
      (limiterObject negation) := by
  refine FiltraFactory.create_gives_iff.mpr ⟨_, ?_, rfl, rfl, ?_⟩ <;> cases negation <;> rfl

/-- A message of one byte. -/
def byteWrapper : MessageWrapper := .ofMessage (.ofString [1] .raw "")

theorem negation_opposite_limiter :
    (((limiterObject false).kind.processMessage Process.plainServices 0 (limiterObject false).base Process.freshWorld.others
        byteWrapper).1 = .ok "" ∧
      ((limiterObject true).kind.processMessage Process.plainServices 0 (limiterObject true).base Process.freshWorld.others
          byteWrapper).2.1.isPassed =
        !((limiterObject false).kind.processMessage Process.plainServices 0 (limiterObject false).base
          Process.freshWorld.others byteWrapper).2.1.isPassed) ↔ Negates [("size", .integer 8), ("type", .string "limiter")] :=
  negation_opposite_iff (limiterObject_made plainBuild true) (limiterObject_made plainBuild false) trivial _ _ _ _ rfl

/-- The limiter lets a byte pass with the negation and without. -/
theorem limiter_not_negated : ¬ ∀ (b : Build) (members : List (String × Json)) (negated plain : FiltraObject),
    (FiltraFactory.create b (negationConfig members true)).Gives negated →
    (FiltraFactory.create b (negationConfig members false)).Gives plain → negated.kind.ListsNegation →
    ∀ (s : Services) (place : Nat) (world : OtherWorld) (w : MessageWrapper) (hop : String),
      (negated.kind.processMessage s place negated.base world w).1 = .ok hop →
      (negated.kind.processMessage s place negated.base world w).2.1.isPassed =
        !(plain.kind.processMessage s place plain.base world w).2.1.isPassed := by
  intro opposite
  have verdicts := opposite plainBuild _ _ _ (limiterObject_made plainBuild true) (limiterObject_made plainBuild false) trivial
    Process.plainServices 0 Process.freshWorld.others byteWrapper "" rfl
  exact absurd verdicts (by decide)

end M2eBridge
