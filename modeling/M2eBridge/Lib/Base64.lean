import Mathlib.Algebra.Ring.Nat
import Mathlib.Data.Fin.Basic
import Mathlib.Data.List.FinRange

/-!
# Base64

The encoding of RFC 4648: a quantum of three bytes is four symbols of six bits, the
highest bits first. A last quantum of one or two bytes is filled up with zero bits, and the
symbols that no bit of the input reaches are pads.
-/

namespace Lib

/-- Sixty-four symbols, told apart, and a pad that is none of them. -/
structure Base64 (α : Type) where
  symbol : Fin 64 → α
  pad : α
  value : α → Option (Fin 64)
  value_symbol : ∀ i, value (symbol i) = some i
  value_pad : value pad = none

namespace Base64

variable {α : Type} (A : Base64 α)

/-- The 24 bits of three bytes. -/
def quantum (a b c : UInt8) : Nat := a.toNat * 2 ^ 16 + b.toNat * 2 ^ 8 + c.toNat

/-- The symbol of the lowest six bits. -/
def sextet (n : Nat) : α := A.symbol (Fin.ofNat 64 n)

def encode : List UInt8 → List α
  | a :: b :: c :: rest =>
    let n := quantum a b c
    A.sextet (n / 2 ^ 18) :: A.sextet (n / 2 ^ 12) :: A.sextet (n / 2 ^ 6) :: A.sextet n :: encode rest
  | [a, b] =>
    let n := quantum a b 0
    [A.sextet (n / 2 ^ 18), A.sextet (n / 2 ^ 12), A.sextet (n / 2 ^ 6), A.pad]
  | [a] =>
    let n := quantum a 0 0
    [A.sextet (n / 2 ^ 18), A.sextet (n / 2 ^ 12), A.pad, A.pad]
  | [] => []

/-- The 24 bits of four symbols. -/
def gather (w x y z : Fin 64) : Nat := w.val * 2 ^ 18 + x.val * 2 ^ 12 + y.val * 2 ^ 6 + z.val

/-- The quanta back; a pad ends the text. -/
def decode : List α → Option (List UInt8)
  | [] => some []
  | p :: q :: r :: s :: rest =>
    match A.value p, A.value q, A.value r, A.value s with
    | some w, some x, some y, some z =>
      let n := gather w x y z
      (decode rest).map fun bytes => .ofNat (n / 2 ^ 16) :: .ofNat (n / 2 ^ 8) :: .ofNat n :: bytes
    | some w, some x, some y, none =>
      let n := gather w x y 0
      if rest.isEmpty then some [.ofNat (n / 2 ^ 16), .ofNat (n / 2 ^ 8)] else none
    | some w, some x, none, none =>
      let n := gather w x 0 0
      if rest.isEmpty then some [.ofNat (n / 2 ^ 16)] else none
    | _, _, _, _ => none
  | _ => none

/-! ## Encoding and back -/

@[simp] theorem value_sextet (n : Nat) : A.value (A.sextet n) = some (Fin.ofNat 64 n) := A.value_symbol _

theorem sextet_congr {m n : Nat} (same : m % 64 = n % 64) : A.sextet m = A.sextet n :=
  congrArg A.symbol (Fin.val_inj.mp same)

theorem quantum_lt (a b c : UInt8) : quantum a b c < 2 ^ 24 := by
  have ha := a.toNat_lt
  have hb := b.toNat_lt
  have hc := c.toNat_lt
  unfold quantum
  omega

/-- Four symbols are the bits that they were taken from. -/
theorem gather_sextets {n : Nat} (small : n < 2 ^ 24) :
    gather (Fin.ofNat 64 (n / 2 ^ 18)) (Fin.ofNat 64 (n / 2 ^ 12)) (Fin.ofNat 64 (n / 2 ^ 6)) (Fin.ofNat 64 n) = n := by
  simp only [gather, Fin.val_ofNat]
  omega

theorem quantum_bytes (a b c : UInt8) :
    UInt8.ofNat (quantum a b c / 2 ^ 16) = a ∧ UInt8.ofNat (quantum a b c / 2 ^ 8) = b ∧
      UInt8.ofNat (quantum a b c) = c := by
  have ha := a.toNat_lt
  have hb := b.toNat_lt
  have hc := c.toNat_lt
  refine ⟨?_, ?_, ?_⟩ <;>
  · apply UInt8.toNat_inj.mp
    simp only [UInt8.toNat_ofNat', quantum]
    omega

/-- The symbols that are left out are zero where the bytes are. -/
theorem sextet_zero (a b : UInt8) :
    Fin.ofNat 64 (quantum a b 0) = 0 ∧ Fin.ofNat 64 (quantum a 0 0 / 2 ^ 6) = 0 := by
  constructor <;>
  · apply Fin.val_inj.mp
    simp only [Fin.val_ofNat, quantum, UInt8.toNat_zero, Fin.val_zero]
    omega

/-- **Decoding gives the bytes back.** -/
theorem decode_encode (bytes : List UInt8) : A.decode (A.encode bytes) = some bytes := by
  induction bytes using encode.induct with
  | case1 a b c rest ih =>
    have whole := gather_sextets (quantum_lt a b c)
    obtain ⟨first, second, third⟩ := quantum_bytes a b c
    simp only [encode, decode, value_sextet, ih, Option.map_some, whole, first, second, third]
  | case2 a b =>
    have whole := gather_sextets (quantum_lt a b 0)
    rw [(sextet_zero a b).1] at whole
    obtain ⟨first, second, -⟩ := quantum_bytes a b 0
    simp only [encode, decode, value_sextet, A.value_pad, List.isEmpty_nil, if_true, whole, first, second]
  | case3 a =>
    have whole := gather_sextets (quantum_lt a 0 0)
    rw [(sextet_zero a 0).1, (sextet_zero a 0).2] at whole
    obtain ⟨first, -, -⟩ := quantum_bytes a 0 0
    simp only [encode, decode, value_sextet, A.value_pad, List.isEmpty_nil, if_true, whole, first]
  | case4 => rfl

/-- An encoded text is padded to a multiple of four symbols. -/
theorem encode_length (bytes : List UInt8) : (A.encode bytes).length = 4 * ((bytes.length + 2) / 3) := by
  induction bytes using encode.induct with
  | case1 a b c rest ih =>
    simp only [encode, List.length_cons, ih]
    omega
  | case2 a b => simp [encode]
  | case3 a => simp [encode]
  | case4 => rfl

/-! ## The standard alphabet -/

/-- `A`–`Z`, `a`–`z`, `0`–`9`, `+`, `/`. -/
def standardSymbol (i : Fin 64) : UInt8 :=
  if i.val < 26 then .ofNat ('A'.toNat + i.val)
  else if i.val < 52 then .ofNat ('a'.toNat + (i.val - 26))
  else if i.val < 62 then .ofNat ('0'.toNat + (i.val - 52))
  else if i.val = 62 then .ofNat '+'.toNat
  else .ofNat '/'.toNat

/-- The alphabet of Table 1, whose pad is `=`. -/
def standard : Base64 UInt8 where
  symbol := standardSymbol
  pad := .ofNat '='.toNat
  value c := (List.finRange 64).find? fun i => standardSymbol i = c
  value_symbol := by decide
  value_pad := by decide

example : standard.encode "Man".toUTF8.data.toList = "TWFu".toUTF8.data.toList := by decide

end Base64

end Lib
