import Mathlib.Data.Nat.Bitwise
import Mathlib.Tactic.Ring

/-!
# Flag words

A flag word packs an index above its `k` low bits and flags inside them. The
lemmas read both halves back and turn C's mask tests into single bits.
-/

namespace Jos.Bits

/-- The C condition `w & m`. -/
def flag (w m : Nat) : Bool := w &&& m != 0

lemma flag_two_pow (w i : Nat) : flag w (2 ^ i) = w.testBit i := by
  rw [flag, Nat.and_two_pow]
  cases w.testBit i <;> simp

lemma and_of_flag {w i : Nat} (h : flag w (2 ^ i)) : w &&& 2 ^ i = 2 ^ i := by
  rw [Nat.and_two_pow, ← flag_two_pow, h]
  exact one_mul _

lemma flag_or (w v m : Nat) : flag (w ||| v) m = (flag w m || flag v m) := by
  rw [flag, Nat.and_or_distrib_right, Bool.eq_iff_iff]
  simp [flag, Nat.or_eq_zero_iff, imp_iff_not_or]

lemma flag_and (w v m : Nat) : flag (w &&& v) m = flag w (v &&& m) := by
  rw [flag, Nat.and_assoc, flag]

lemma pack_div {f k : Nat} (hf : f < 2 ^ k) (p : Nat) : (p * 2 ^ k ||| f) / 2 ^ k = p := by
  rw [mul_comm, ← Nat.two_pow_add_eq_or_of_lt hf]
  rw [Nat.mul_add_div (Nat.two_pow_pos k), Nat.div_eq_of_lt hf, add_zero]

lemma pack_and {m k : Nat} (hm : m < 2 ^ k) (p f : Nat) : (p * 2 ^ k ||| f) &&& m = f &&& m := by
  have hz : p * 2 ^ k &&& m = 0 := by
    rw [← Nat.mod_eq_of_lt hm, ← Nat.and_two_pow_sub_one_eq_mod m, Nat.and_comm m, ← Nat.and_assoc,
      Nat.and_two_pow_sub_one_eq_mod, Nat.mul_mod_left, Nat.zero_and]
  rw [Nat.and_or_distrib_right, hz, Nat.zero_or]

/-- A word whose bits all lie inside the mask `m` is bounded as `m` is. -/
theorem lt_of_and_not_eq_zero {w m k : Nat} (hw : w < 2 ^ 32) (hm : m < 2 ^ k)
    (h : w &&& (0xFFFFFFFF ^^^ m) = 0) : w < 2 ^ k := by
  apply Nat.lt_pow_two_of_testBit
  intro i hi
  by_cases h32 : 32 ≤ i
  · exact Nat.testBit_lt_two_pow (lt_of_lt_of_le hw (Nat.pow_le_pow_right (by decide) h32))
  have hb : (w &&& (0xFFFFFFFF ^^^ m)).testBit i = false := by rw [h]; simp
  have hm' : m.testBit i = false :=
    Nat.testBit_lt_two_pow (lt_of_lt_of_le hm (Nat.pow_le_pow_right (by decide) hi))
  have hall : (0xFFFFFFFF : Nat).testBit i := by
    have := Nat.testBit_two_pow_sub_one 32 i
    simpa [show i < 32 by omega] using this
  simpa [Nat.testBit_and, Nat.testBit_xor, hm', hall] using hb

/-- A word that contains a mask has the flags of the mask. -/
theorem flag_of_and_eq {w v m : Nat} (h : w &&& v = v) (hv : flag v m) : flag w m := by
  rw [← h, flag, Nat.and_right_comm] at hv
  exact bne_iff_ne.2 fun hz => bne_iff_ne.1 hv (by rw [hz, Nat.zero_and])

end Jos.Bits
