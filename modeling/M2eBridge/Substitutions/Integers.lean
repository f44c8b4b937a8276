import Mathlib.Algebra.Ring.Int.Defs
import M2eBridge.Substitutions.CborAccess

/-!
# Integers of a payload

An integer of a document is read as an `unsigned`, and comes out in its decimal digits; an
integer item comes out as the `long` that stands in it, which for a negative one is not
its value but its magnitude less one. So what `MSG.PAYLOAD` evaluates to denotes the integer
that is stored exactly when that is not negative, and in a document below `2^32`, as long as the
path itself can be walked (`integers_denoted_iff`).
-/

namespace M2eBridge

/-- The number that an item denotes, if it is an integer of either kind. -/
def CborItem.integer? : CborItem → Option Int
  | .uint _ v => some v.toNat
  | .negint _ v => some (-1 - (v.toNat : Int))
  | _ => none

/-- The decimal text of an integer. -/
def decimal (n : Int) : Bytes := bytesOf (toString n)

theorem nat_toString_inj {k l : Nat} (same : toString k = toString l) : k = l := by
  have digits := congrArg String.toList same
  rw [Nat.toString_eq_repr, Nat.toString_eq_repr, Nat.toList_repr, Nat.toList_repr] at digits
  rw [← Nat.ofDigitChars_toDigits (b := 10) (n := k) (by decide) (by decide), digits,
    Nat.ofDigitChars_toDigits (by decide) (by decide)]

/-- The digits of a natural number are those of no negative integer. -/
theorem toString_negSucc_ne (k l : Nat) : toString (Int.negSucc k) ≠ toString l := by
  intro same
  have chars := congrArg String.toList same
  have minus : '-' ∈ (toString (Int.negSucc k)).toList := by
    show '-' ∈ ("-" ++ Nat.repr (k + 1)).toList
    simp
  rw [chars, Nat.toString_eq_repr, Nat.toList_repr] at minus
  have digit := Nat.isDigit_of_mem_toDigits (by decide) (by decide) minus
  revert digit
  decide

theorem decimal_eq_iff {n : Int} {k : Nat} : bytesOf (toString k) = decimal n ↔ n = k := by
  rw [decimal, bytesOf_inj]
  constructor
  · intro same
    cases n with
    | ofNat l => rw [nat_toString_inj same]; rfl
    | negSucc l => exact absurd same.symm (toString_negSucc_ne l k)
  · rintro rfl
    rfl

/-- An integer of a document is read modulo `2^32`. -/
theorem value_json_integer (n : Int) :
    (ObjectProxy.json (.integer n)).value = .ok (.string (decimal n)) ↔ 0 ≤ n ∧ n < UInt32.size := by
  have read : (ObjectProxy.json (.integer n)).value = .ok (.string (bytesOf (toString (n % UInt32.size).toNat))) := rfl
  rw [read, Except.ok.injEq, Substituted.string.injEq, decimal_eq_iff]
  have positive : 0 ≤ n % (UInt32.size : Int) := Int.emod_nonneg _ (by decide)
  have bound : n % (UInt32.size : Int) < UInt32.size := Int.emod_lt_of_pos _ (by decide)
  constructor
  · intro same
    omega
  · rintro ⟨low, high⟩
    rw [Int.emod_eq_of_lt low high]
    omega

/-- An integer item is read as what stands in it. -/
theorem value_cbor_integer {item : CborItem} {n : Int} (integer : item.integer? = some n)
    (signed : -(2 : Int) ^ 63 ≤ n ∧ n < 2 ^ 63) :
    (ObjectProxy.cbor (some item)).value = .ok (.long n) ↔ 0 ≤ n := by
  have size : UInt64.size = 18446744073709551616 := rfl
  cases item with
  | uint width v =>
    cases integer
    have bound : (v.toNat : Int) < 2 ^ 63 := signed.2
    have exact_ : Int.bmod v.toNat UInt64.size = v.toNat :=
      Int.bmod_eq_of_le_mul_two (by omega) (by omega)
    simp [ObjectProxy.value, exact_]
  | negint width v =>
    cases integer
    have bound : (v.toNat : Int) < 2 ^ 63 := by omega
    have exact_ : Int.bmod v.toNat UInt64.size = v.toNat :=
      Int.bmod_eq_of_le_mul_two (by omega) (by omega)
    simp only [ObjectProxy.value, exact_, Except.ok.injEq, Substituted.long.injEq]
    omega
  | bytestring | chunkedBytestring | string | chunkedString | array | map | tag | float | ctrl => cases integer

namespace Grammar

/-- **Integers.** Which of the integers that are stored in a payload are denoted by what they evaluate to. -/
theorem integers_denoted_iff (C : Codec) (handlers : ImageHandlers) (env : EnvObjects) (m : Message) (steps : List Step)
    (n : Int) (bound : ObjectProxy.mapAt env "MSG" = .ok (.message m)) (signed : -(2 : Int) ^ 63 ≤ n ∧ n < 2 ^ 63) :
    (∀ j, m.format = .json → (m.getJson C).1 = .ok j → j.stored steps = some (.integer n) →
      ((SubsEngine.evaluate C handlers env (payload steps).text).1 = .ok (.string (decimal n)) ↔
        (0 ≤ n ∧ n < UInt32.size) ∧ ∀ step ∈ steps, step.Fits)) ∧
    ∀ item leaf, m.format = .cbor → (m.getCbor C).1 = .ok (some item) → item.stored steps = some leaf →
      leaf.integer? = some n →
      (((∀ a ∈ payloadAccesses C m steps, a.Typed) ∧
          (SubsEngine.evaluate C handlers env (payload steps).text).1 = .ok (.long n)) ↔
        0 ≤ n ∧ steps.any Step.isIndex = false ∧ Navigable (some item) steps) := by
  have name : SubsEngine.shown payloadName.val = "PAYLOAD" := by decide
  rw [evaluate_payload steps bound]
  constructor
  · intro j format decoded stored
    simp only [ObjectProxy.next, name, if_true, format, decoded, Except.map, Except.bind, walk_json steps stored]
    by_cases fit : ∀ step ∈ steps, step.Fits
    · rw [if_pos fit]
      exact (value_json_integer n).trans (and_iff_left fit).symm
    · rw [if_neg fit]
      refine iff_of_false ?_ fun both => fit both.2
      intro same
      cases same
  · intro item leaf format decoded stored integer
    rw [payloadAccesses_typed_iff format decoded, and_comm, ← and_assoc]
    apply and_congr_left
    intro navigable
    simp only [ObjectProxy.next, name, if_true, format, decoded, Except.map, Except.bind]
    cases some_index : steps.any Step.isIndex with
    | false =>
      rw [walk_cbor steps stored some_index (navigable.keysWhole steps)]
      exact (value_cbor_integer integer signed).trans (and_iff_left rfl).symm
    | true =>
      obtain ⟨e, refused⟩ := walk_cbor_index C steps (some item) some_index
      rw [refused]
      refine iff_of_false ?_ (by simp)
      intro same
      cases same

/-- The item `{"a": 1}`. -/
theorem integers_denoted_one :
    (SubsEngine.evaluate mapCodec none (messageEnv (.ofString [0xa1, 0x61, 0x61, 0x01] .cbor ""))
      (payload [stepA]).text).1 = .ok (.long 1) :=
  (((integers_denoted_iff mapCodec none _ (.ofString [0xa1, 0x61, 0x61, 0x01] .cbor "") [stepA] 1 rfl (by decide)).2
    _ (.uint .w8 1) rfl rfl rfl rfl).mpr ⟨by decide, rfl, navigable_text_key⟩).2

/-- The document `-1`, which is read as `2^32 - 1`. -/
theorem negative_integer_not_denoted :
    ¬ ∀ (C : Codec) (handlers : ImageHandlers) (env : EnvObjects) (m : Message) (j : Json) (steps : List Step) (n : Int),
      ObjectProxy.mapAt env "MSG" = .ok (.message m) → -(2 : Int) ^ 63 ≤ n ∧ n < 2 ^ 63 → m.format = .json →
      (m.getJson C).1 = .ok j → j.stored steps = some (.integer n) →
      (SubsEngine.evaluate C handlers env (payload steps).text).1 = .ok (.string (decimal n)) := by
  intro all
  have denoted := all Message.literalCodec none (messageEnv (.ofJson (.integer (-1)) .json "")) _ _ [] (-1) rfl
    (by decide) rfl rfl rfl
  rw [evaluate_payload [] rfl] at denoted
  have range := (value_json_integer (-1)).mp denoted
  revert range
  decide

end Grammar

end M2eBridge
