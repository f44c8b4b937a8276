import Mathlib.Algebra.Ring.Int.Defs
import M2eBridge.Filtras.Filters
import M2eBridge.MessageReads

/-!
# The comparator on integers

`get<long long>()` takes an unsigned number of the parser as it is stored, so that the numbers from
2^63 on come out negative: `narrowed`. Two integers are compared as they are when they are both
below 2^63 or both not, and otherwise the one that has become negative has to be on the same side of
the other one as before, which is `Unwrapped`.
-/

namespace M2eBridge

namespace ComparatorFT

/-- What the operators stand for. -/
def Holds : ComparatorOperator → Int → Int → Prop
  | .unkn, _, _ => False
  | .eq, a, b => a = b
  | .gt, a, b => a > b
  | .gte, a, b => a ≥ b
  | .lt, a, b => a < b
  | .lte, a, b => a ≤ b

instance (operator : ComparatorOperator) (a b : Int) : Decidable (Holds operator a b) := by
  cases operator <;> unfold Holds <;> infer_instance

/-- An integer that the parser admits, as a `long long`. -/
def narrowed (n : Int) : Int := if n < 2 ^ 63 then n else n - 2 ^ 64

/-- The parser admits the integers of `int64_t` and of `uint64_t`. -/
def Admitted (n : Int) : Prop := -2 ^ 63 ≤ n ∧ n < 2 ^ 64

instance (n : Int) : Decidable (Admitted n) := inferInstanceAs (Decidable (_ ∧ _))

theorem bmod_eq_narrowed {n : Int} (admitted : Admitted n) : Int.bmod n UInt64.size = narrowed n := by
  obtain ⟨low, high⟩ := admitted
  have size : (UInt64.size : Int) = 2 ^ 64 := rfl
  unfold narrowed
  split
  · exact Int.bmod_eq_of_le (by rw [size]; omega) (by rw [size]; omega)
  · rw [← Int.sub_bmod_right n]
    exact Int.bmod_eq_of_le (by rw [size]; omega) (by rw [size]; omega)

/-- The operator does not see that one of the numbers is taken 2^64 too low. -/
def Unwrapped (operator : ComparatorOperator) (value comparand : Int) : Prop :=
  if value < 2 ^ 63 ↔ comparand < 2 ^ 63 then True
  else if comparand < 2 ^ 63 then
    match operator with
    | .unkn => True
    | .eq => comparand ≠ value - 2 ^ 64
    | .gt | .lte => comparand < value - 2 ^ 64
    | .gte | .lt => comparand ≤ value - 2 ^ 64
  else
    match operator with
    | .unkn => True
    | .eq => value ≠ comparand - 2 ^ 64
    | .gt | .lte => value ≤ comparand - 2 ^ 64
    | .gte | .lt => value < comparand - 2 ^ 64

theorem compare_int (c : ComparatorFT) (a b : Int) : c.compare (.int a) (.int b) = decide (Holds c.operator a b) := by
  obtain ⟨operator, _, _⟩ := c
  cases operator with
  | unkn => exact (decide_eq_false id).symm
  | eq | gt | gte | lt | lte => rfl

theorem holds_sub (operator : ComparatorOperator) (a b d : Int) :
    Holds operator (a - d) (b - d) ↔ Holds operator a b := by
  cases operator <;> simp only [Holds] <;> omega

/-- The narrowed numbers compare as the numbers do. -/
theorem holds_narrowed_iff {value comparand : Int} (left : Admitted value) (right : Admitted comparand)
    (operator : ComparatorOperator) :
    (Holds operator (narrowed value) (narrowed comparand) ↔ Holds operator value comparand) ↔
      Unwrapped operator value comparand := by
  obtain ⟨left, left'⟩ := left
  obtain ⟨right, right'⟩ := right
  by_cases same : value < 2 ^ 63 ↔ comparand < 2 ^ 63
  · unfold Unwrapped
    rw [if_pos same, iff_true]
    by_cases small : value < 2 ^ 63
    · rw [narrowed, if_pos small, narrowed, if_pos (same.mp small)]
    · rw [narrowed, if_neg small, narrowed, if_neg (mt same.mpr small), holds_sub]
  · unfold Unwrapped
    rw [if_neg same]
    by_cases small : comparand < 2 ^ 63
    · have large : ¬ value < 2 ^ 63 := fun below => same (iff_of_true below small)
      rw [if_pos small, narrowed, if_neg large, narrowed, if_pos small]
      cases operator <;> simp only [Holds, iff_self, ne_eq] <;> omega
    · have small' : value < 2 ^ 63 := by
        by_contra large
        exact same (iff_of_false large small)
      rw [if_neg small, narrowed, if_pos small', narrowed, if_neg small]
      cases operator <;> simp only [Holds, iff_self, ne_eq] <;> omega

/-- What the constructor reads. -/
theorem ofConfig_gives {config : Json} {c : ComparatorFT} :
    (ofConfig config).Gives c ↔ ∃ oper key comparand, config.find? "operator" = some (.string oper) ∧
      config.find? "value_key" = some (.string key) ∧ config.find? "comparand" = some comparand ∧
      c = { operator := operatorOf oper, valueKey := key, comparand := (Number.ofJson? comparand).getD (.int 0) } := by
  simp only [ofConfig, Reading.gives_bind, Reading.index_gives, Reading.checked_gives, Json.getString_eq_ok, Json.at_eq_ok]
  constructor
  · rintro ⟨_, operator, oper, rfl, _, valueKey, key, rfl, comparand, found, given⟩
    exact ⟨oper, key, comparand, operator, valueKey, found, (Except.ok.inj (Option.some.inj given)).symm⟩
  · rintro ⟨oper, key, comparand, operator, valueKey, found, rfl⟩
    exact ⟨_, operator, oper, rfl, _, valueKey, key, rfl, comparand, found, rfl⟩

/-- The verdict on an integer, with an integer to compare it with. -/
theorem processMessage_int {C : Codec} {c : ComparatorFT} {value comparand : Int} {payload : Json} {w : MessageWrapper}
    (stored : c.comparand = .int (narrowed comparand)) (admitted : Admitted value)
    (decoded : (w.onMsg (Message.getJson C)).1 = .ok payload) (found : payload.find? c.valueKey = some (.integer value))
    (base : Filtra.Base) :
    (c.processMessage C base w).1 = .ok "" ∧ (c.processMessage C base w).2.isPassed =
      (decide (Holds c.operator (narrowed value) (narrowed comparand)) != base.logicalNegation) := by
  obtain ⟨w', called⟩ : ∃ w', w.onMsg (Message.getJson C) = (.ok payload, w') := ⟨_, Prod.ext decoded rfl⟩
  have read : (payload.at' c.valueKey).map Number.ofJson? = .ok (some (.int (narrowed value))) := by
    rw [Json.at_eq_ok.mpr found, Except.map, Number.ofJson?, bmod_eq_narrowed admitted]
  simp only [processMessage, called, read, stored, compare_int, true_and]
  cases base.logicalNegation <;> simp [MessageWrapper.passIf]

/-- The comparator of a configuration tells what the comparison of the two integers is, under
`logical_negation` the contrary, exactly when neither of them wraps to where the operator sees it. -/
theorem processMessage_exact_iff {C : Codec} {config payload : Json} {c : ComparatorFT} {base : Filtra.Base} {oper : String}
    {value comparand : Int} {w : MessageWrapper} (made : (ofConfig config).Gives c)
    (operator : config.find? "operator" = some (.string oper))
    (given : config.find? "comparand" = some (.integer comparand)) (decoded : (w.onMsg (Message.getJson C)).1 = .ok payload)
    (found : payload.find? c.valueKey = some (.integer value)) (admitted : Admitted value ∧ Admitted comparand) :
    ((c.processMessage C base w).1 = .ok "" ∧ ((c.processMessage C base w).2.isPassed = true ↔
      (Holds (operatorOf oper) value comparand ↔ base.logicalNegation = false))) ↔
        Unwrapped (operatorOf oper) value comparand := by
  obtain ⟨oper', key, comparand', operator', -, given', rfl⟩ := ofConfig_gives.mp made
  cases operator.symm.trans operator'
  cases given.symm.trans given'
  have stored : (Number.ofJson? (.integer comparand)).getD (.int 0) = .int (narrowed comparand) := by
    rw [Number.ofJson?, bmod_eq_narrowed admitted.2, Option.getD_some]
  obtain ⟨returned, passed⟩ := processMessage_int stored admitted.1 decoded found base
  rw [← holds_narrowed_iff admitted.1 admitted.2, returned, passed]
  cases base.logicalNegation with
  | false => simp
  | true => simp [not_iff_not]

/-- `{"comparand": 0, "operator": "gt", "value_key": "temp"}` -/
def aboveZero : Json := .object [("comparand", .integer 0), ("operator", .string "gt"), ("value_key", .string "temp")]

def aboveZeroFT : ComparatorFT := { operator := .gt, valueKey := "temp", comparand := .int 0 }

theorem aboveZero_gives : (ofConfig aboveZero).Gives aboveZeroFT := rfl

def plainBase : Filtra.Base := (Filtra.plain : Filtra Unit).base

/-- A message with a number as `temp`. -/
def temperature (value : Int) : MessageWrapper :=
  .ofMessage (.ofJson (.object [("temp", .integer value)]) .json "")

theorem processMessage_exact_above :
    ((aboveZeroFT.processMessage Message.literalCodec plainBase (temperature 20)).1 = .ok "" ∧
      ((aboveZeroFT.processMessage Message.literalCodec plainBase (temperature 20)).2.isPassed = true ↔
        (Holds .gt 20 0 ↔ plainBase.logicalNegation = false))) ↔ Unwrapped .gt 20 0 :=
  processMessage_exact_iff aboveZero_gives rfl rfl rfl rfl (by decide)

/-- 2^63 is not above zero for the comparator. -/
theorem above_zero_rejected : ¬ ∀ (C : Codec) (config payload : Json) (c : ComparatorFT) (base : Filtra.Base) (oper : String)
    (value comparand : Int) (w : MessageWrapper), (ofConfig config).Gives c →
      config.find? "operator" = some (.string oper) → oper ∈ ["eq", "gt", "gte", "lt", "lte"] →
      config.find? "comparand" = some (.integer comparand) → (w.onMsg (Message.getJson C)).1 = .ok payload →
      payload.find? c.valueKey = some (.integer value) → Admitted value ∧ Admitted comparand →
      (c.processMessage C base w).1 = .ok "" ∧ ((c.processMessage C base w).2.isPassed = true ↔
        (Holds (operatorOf oper) value comparand ↔ base.logicalNegation = false)) := by
  intro exact
  have passes := (exact Message.literalCodec aboveZero _ _ plainBase "gt" (2 ^ 63) 0 (temperature (2 ^ 63))
    aboveZero_gives rfl (by decide) rfl rfl rfl (by decide)).2.mpr (iff_of_true (by decide) rfl)
  exact absurd passes (by decide)

end ComparatorFT

end M2eBridge
