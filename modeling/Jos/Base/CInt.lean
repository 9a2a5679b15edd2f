import Mathlib.Tactic.Ring

/-!
# Signed and unsigned 32-bit arithmetic

A C expression is evaluated in the integers and brought back into the range of
its type: `toI32` for `int`, `toU32` for `unsigned`. Division of an `int` rounds
towards zero, as `Int.tdiv` does.
-/

namespace Jos.CInt

def toU32 (i : Int) : Nat := (i % 4294967296).toNat

def toI32 (i : Int) : Int := i.bmod 4294967296

lemma toI32_eq (i : Int) :
    toI32 i = if i % 4294967296 < 2147483648 then i % 4294967296 else i % 4294967296 - 4294967296 := rfl

lemma toU32_lt (i : Int) : toU32 i < 4294967296 := by
  unfold toU32
  omega

lemma toU32_cast (i : Int) : (toU32 i : Int) = i % 4294967296 := by
  unfold toU32
  omega

lemma toU32_of_range {i : Int} (h0 : 0 ≤ i) (h1 : i < 4294967296) : (toU32 i : Int) = i := by
  rw [toU32_cast]
  omega

lemma toU32_of_neg {i : Int} (h0 : -4294967296 ≤ i) (h1 : i < 0) : (toU32 i : Int) = i + 4294967296 := by
  rw [toU32_cast]
  omega

lemma toI32_range (i : Int) : -2147483648 ≤ toI32 i ∧ toI32 i < 2147483648 := by
  rw [toI32_eq]
  split <;> omega

lemma toI32_of_range {i : Int} (h0 : -2147483648 ≤ i) (h1 : i < 2147483648) : toI32 i = i := by
  rw [toI32_eq]
  split <;> omega

lemma toI32_mod (i : Int) : toI32 i % 4294967296 = i % 4294967296 := by
  rw [toI32_eq]
  split <;> omega

lemma toI32_add (i j : Int) : toI32 (toI32 i + j) = toI32 (i + j) := by
  rw [toI32_eq (toI32 i + j), toI32_eq (i + j), Int.add_emod, toI32_mod, ← Int.add_emod]

lemma toI32_mul_add (i j k : Int) : toI32 (toI32 i * j + k) = toI32 (i * j + k) := by
  rw [toI32_eq (toI32 i * j + k), toI32_eq (i * j + k), Int.add_emod, Int.mul_emod, toI32_mod, ← Int.mul_emod,
    ← Int.add_emod]

lemma toU32_toI32 (i : Int) : toU32 (toI32 i) = toU32 i := by
  unfold toU32
  rw [toI32_mod]

lemma toI32_toU32 (i : Int) : toI32 (toU32 i) = toI32 i := by
  rw [toI32_eq, toI32_eq, toU32_cast, Int.emod_emod]

end Jos.CInt
