import M2eBridge.Aliases
import M2eBridge.Lib.Base64

/-!
# The HTTP connector

`base64_encode`, whose accumulator is an `int` that is never masked: the bits of the
bytes before the last three are shifted up and out of it, and what is left of them
above the bits still to be written is masked away at every look-up.
-/

namespace M2eBridge

/-- `encode_table`. -/
def encodeTable : Bytes := bytesOf "ABCDEFGHIJKLMNOPQRSTUVWXYZabcdefghijklmnopqrstuvwxyz0123456789+/"

/-- `encode_table[(val >> k) & 0x3F]`; the shift of an `int` brings in copies of its sign. -/
def encodeTableAt (val : BitVec 32) (k : Nat) : UInt8 := encodeTable.getD (val.sshiftRight k &&& 0x3F).toNat 0

/-- The variables of the loop. -/
structure Base64State where
  val : BitVec 32 := 0
  valb : Int := -6
  encoded : Bytes := []

/-- The inner loop, with the `valb` and the `encoded` that it leaves. -/
def drain (val : BitVec 32) (valb : Int) (encoded : Bytes) : Int × Bytes :=
  if 0 ≤ valb then drain val (valb - 6) (encoded ++ [encodeTableAt val valb.toNat]) else (valb, encoded)
termination_by (valb + 6).toNat

/-- `(val << 8) + c`. -/
def shiftIn (val : BitVec 32) (c : UInt8) : BitVec 32 := val <<< 8 + c.toBitVec.setWidth 32

/-- The body of the loop. -/
def encodeByte (s : Base64State) (c : UInt8) : Base64State :=
  let val := shiftIn s.val c
  let (valb, encoded) := drain val (s.valb + 8) s.encoded
  { val, valb, encoded }

/-- The symbol of the bits that the loop has left over, if there are any. -/
def flush (s : Base64State) : Bytes :=
  if -6 < s.valb then s.encoded ++ [encodeTableAt (s.val <<< 8) (s.valb + 8).toNat] else s.encoded

/-- The last loop. -/
def pad (encoded : Bytes) : Bytes :=
  if encoded.length % 4 = 0 then encoded else pad (encoded ++ [.ofNat '='.toNat])
termination_by (4 - encoded.length % 4) % 4
decreasing_by simp only [List.length_append, List.length_singleton]; omega

/-- `base64_encode`. -/
def base64Encode (input : Bytes) : Bytes := pad (flush (input.foldl encodeByte {}))

/-! ## Look-ups -/

theorem encodeTable_eq (i : Fin 64) : encodeTable.getD i 0 = Lib.Base64.standard.symbol i := by
  revert i
  decide

/-- Of what is shifted, the mask keeps six bits, none of which is a copy of the sign. -/
theorem masked (val : BitVec 32) {k : Nat} (inside : k ≤ 26) :
    (val.sshiftRight k &&& 0x3F).toNat = val.toNat / 2 ^ k % 64 := by
  have logical : val.sshiftRight k &&& 0x3F = (val >>> k) &&& 0x3F := by
    apply BitVec.eq_of_getLsbD_eq
    intro i bound
    by_cases low : i < 6
    · simp only [BitVec.getLsbD_and, BitVec.getLsbD_sshiftRight, BitVec.getLsbD_ushiftRight]
      have inWord : k + i < 32 := by omega
      have notTop : ¬ 32 ≤ i := by omega
      simp [inWord, notTop]
    · have clear : (0x3F : BitVec 32).getLsbD i = false := by
        have high : ∀ j : Fin 32, ¬ j.val < 6 → (0x3F : BitVec 32).getLsbD j = false := by decide
        exact high ⟨i, bound⟩ low
      simp only [BitVec.getLsbD_and, clear, Bool.and_false]
  rw [logical, BitVec.toNat_and, BitVec.toNat_ushiftRight, Nat.shiftRight_eq_div_pow]
  exact Nat.and_two_pow_sub_one_eq_mod _ 6

theorem encodeTableAt_eq (val : BitVec 32) {k : Nat} (inside : k ≤ 26) :
    encodeTableAt val k = Lib.Base64.standard.sextet (val.toNat / 2 ^ k) := by
  rw [encodeTableAt, masked val inside, Lib.Base64.sextet, ← encodeTable_eq]
  rfl

theorem shiftIn_toNat (val : BitVec 32) (c : UInt8) :
    (shiftIn val c).toNat = (val.toNat * 2 ^ 8 + c.toNat) % 2 ^ 32 := by
  have byte := c.toNat_lt
  simp only [shiftIn, BitVec.toNat_add, BitVec.toNat_shiftLeft, BitVec.toNat_setWidth, Nat.shiftLeft_eq,
    UInt8.toNat_toBitVec]
  omega

/-! ## The loop -/

theorem drain_negative {valb : Int} (negative : valb < 0) (val : BitVec 32) (encoded : Bytes) :
    drain val valb encoded = (valb, encoded) := by
  rw [drain, if_neg (by omega)]

theorem drain_more {valb : Int} (more : 0 ≤ valb) (val : BitVec 32) (encoded : Bytes) :
    drain val valb encoded = drain val (valb - 6) (encoded ++ [encodeTableAt val valb.toNat]) := by
  rw [drain, if_pos more]

/-- With none, two and four bits left over: one symbol, one, and two. -/
theorem encodeByte_first (val : BitVec 32) (encoded : Bytes) (c : UInt8) :
    encodeByte ⟨val, -6, encoded⟩ c = ⟨shiftIn val c, -4, encoded ++ [encodeTableAt (shiftIn val c) 2]⟩ := by
  simp [encodeByte, drain_more, drain_negative]

theorem encodeByte_second (val : BitVec 32) (encoded : Bytes) (c : UInt8) :
    encodeByte ⟨val, -4, encoded⟩ c = ⟨shiftIn val c, -2, encoded ++ [encodeTableAt (shiftIn val c) 4]⟩ := by
  simp [encodeByte, drain_more, drain_negative]

theorem encodeByte_third (val : BitVec 32) (encoded : Bytes) (c : UInt8) :
    encodeByte ⟨val, -2, encoded⟩ c =
      ⟨shiftIn val c, -6, encoded ++ [encodeTableAt (shiftIn val c) 6, encodeTableAt (shiftIn val c) 0]⟩ := by
  simp [encodeByte, drain_more, drain_negative]

/-- The low bits of the accumulator are the last bytes, whatever is above them. -/
theorem symbol_first (val : BitVec 32) (a b c : UInt8) :
    encodeTableAt (shiftIn val a) 2 = Lib.Base64.standard.sextet (Lib.Base64.quantum a b c / 2 ^ 18) := by
  have byteB := b.toNat_lt
  have byteC := c.toNat_lt
  rw [encodeTableAt_eq _ (by omega)]
  apply Lib.Base64.sextet_congr
  rw [shiftIn_toNat, Lib.Base64.quantum]
  omega

theorem symbol_second (val : BitVec 32) (a b c : UInt8) :
    encodeTableAt (shiftIn (shiftIn val a) b) 4 =
      Lib.Base64.standard.sextet (Lib.Base64.quantum a b c / 2 ^ 12) := by
  have byteB := b.toNat_lt
  have byteC := c.toNat_lt
  rw [encodeTableAt_eq _ (by omega)]
  apply Lib.Base64.sextet_congr
  rw [shiftIn_toNat, shiftIn_toNat, Lib.Base64.quantum]
  omega

theorem symbol_third (val : BitVec 32) (a b c : UInt8) :
    encodeTableAt (shiftIn (shiftIn (shiftIn val a) b) c) 6 =
      Lib.Base64.standard.sextet (Lib.Base64.quantum a b c / 2 ^ 6) := by
  rw [encodeTableAt_eq _ (by omega)]
  apply Lib.Base64.sextet_congr
  rw [shiftIn_toNat, shiftIn_toNat, shiftIn_toNat, Lib.Base64.quantum]
  omega

theorem symbol_fourth (val : BitVec 32) (a b c : UInt8) :
    encodeTableAt (shiftIn (shiftIn (shiftIn val a) b) c) 0 =
      Lib.Base64.standard.sextet (Lib.Base64.quantum a b c) := by
  rw [encodeTableAt_eq _ (by omega)]
  apply Lib.Base64.sextet_congr
  rw [shiftIn_toNat, shiftIn_toNat, shiftIn_toNat, Lib.Base64.quantum]
  omega

theorem pad_full {encoded : Bytes} (full : encoded.length % 4 = 0) : pad encoded = encoded := by
  rw [pad, if_pos full]

theorem pad_more {encoded : Bytes} (more : encoded.length % 4 ≠ 0) :
    pad encoded = pad (encoded ++ [Lib.Base64.standard.pad]) := by
  rw [pad, if_neg more]
  rfl

theorem flush_none (val : BitVec 32) (encoded : Bytes) : flush ⟨val, -6, encoded⟩ = encoded := rfl

theorem flush_two (val : BitVec 32) (encoded : Bytes) :
    flush ⟨val, -4, encoded⟩ = encoded ++ [encodeTableAt (shiftIn val 0) 4] := by
  simp [flush, shiftIn]

theorem flush_four (val : BitVec 32) (encoded : Bytes) :
    flush ⟨val, -2, encoded⟩ = encoded ++ [encodeTableAt (shiftIn val 0) 6] := by
  simp [flush, shiftIn]

/-- From the end of a quantum on, whatever the accumulator holds. -/
theorem encode_from (input : Bytes) (val : BitVec 32) {encoded : Bytes} (full : encoded.length % 4 = 0) :
    pad (flush (input.foldl encodeByte ⟨val, -6, encoded⟩)) = encoded ++ Lib.Base64.standard.encode input := by
  induction input using Lib.Base64.encode.induct generalizing val encoded with
  | case1 a b c rest ih =>
    rw [List.foldl_cons, List.foldl_cons, List.foldl_cons, encodeByte_first, encodeByte_second, encodeByte_third]
    rw [ih _ (by simpa using full), symbol_first val a b c, symbol_second val a b c, symbol_third, symbol_fourth]
    simp [Lib.Base64.encode]
  | case2 a b =>
    rw [List.foldl_cons, List.foldl_cons, List.foldl_nil, encodeByte_first, encodeByte_second, flush_four]
    rw [pad_more (by simp; omega), pad_full (by simpa using full)]
    rw [symbol_first val a b 0, symbol_second val a b 0, symbol_third]
    simp [Lib.Base64.encode]
  | case3 a =>
    rw [List.foldl_cons, List.foldl_nil, encodeByte_first, flush_two]
    rw [pad_more (by simp; omega), pad_more (by simp; omega), pad_full (by simpa using full)]
    rw [symbol_first val a 0 0, symbol_second val a 0 0]
    simp [Lib.Base64.encode]
  | case4 =>
    rw [List.foldl_nil, flush_none, pad_full full]
    simp [Lib.Base64.encode]

/-- **`base64_encode` is the encoding of RFC 4648**, padded to a multiple of four, so
that decoding gives the bytes back. -/
theorem base64Encode_standard (input : Bytes) :
    base64Encode input = Lib.Base64.standard.encode input ∧ (base64Encode input).length % 4 = 0 ∧
      Lib.Base64.standard.decode (base64Encode input) = some input := by
  have encoded : base64Encode input = Lib.Base64.standard.encode input := encode_from input 0 rfl
  refine ⟨encoded, ?_, ?_⟩
  · rw [encoded, Lib.Base64.encode_length]
    omega
  · rw [encoded, Lib.Base64.decode_encode]

end M2eBridge
