import Mathlib.Tactic.IntervalCases

/-!
# Word-addressed memory with byte access

Structures whose fields are aligned words live in a memory of words; text and
file data are read and written byte by byte inside these words, in little-endian
order. Byte `a` is part of word `a / 4`.
-/

namespace Jos.WordMem
open Function

abbrev Mem := Nat → Nat

def byteOf (w i : Nat) : Nat := w / 256 ^ i % 256

def setByte (w i v : Nat) : Nat := w - byteOf w i * 256 ^ i + v % 256 * 256 ^ i

def getByte (m : Mem) (a : Nat) : Nat := byteOf (m (a / 4)) (a % 4)

def putByte (m : Mem) (a v : Nat) : Mem := update m (a / 4) (setByte (m (a / 4)) (a % 4) v)

/-- The bytes `bs` laid out from byte `a` up. -/
def putBytes (m : Mem) (a : Nat) : List Nat → Mem
  | [] => m
  | b :: bs => putBytes (putByte m a b) (a + 1) bs

def bytesAt (m : Mem) (a n : Nat) : List Nat := (List.range n).map fun i => getByte m (a + i)

lemma byteOf_lt (w i : Nat) : byteOf w i < 256 := Nat.mod_lt _ (by decide)

lemma getByte_lt (m : Mem) (a : Nat) : getByte m a < 256 := byteOf_lt _ _

lemma byteOf_setByte {i j : Nat} (hi : i < 4) (hj : j < 4) (w v : Nat) :
    byteOf (setByte w i v) j = if j = i then v % 256 else byteOf w j := by
  unfold setByte byteOf
  interval_cases i <;> interval_cases j <;> simp <;> omega

lemma getByte_putByte (m : Mem) (a v c : Nat) :
    getByte (putByte m a v) c = if c = a then v % 256 else getByte m c := by
  by_cases hw : c / 4 = a / 4
  · have hc : c = a ↔ c % 4 = a % 4 := by omega
    simp only [getByte, putByte, hw, update_self, hc]
    exact byteOf_setByte (Nat.mod_lt _ (by decide)) (Nat.mod_lt _ (by decide)) _ _
  · have hne : c ≠ a := fun h => hw (h ▸ rfl)
    simp only [getByte, putByte, update_of_ne hw, hne, if_false]

lemma putByte_word {a w : Nat} (h : w ≠ a / 4) (m : Mem) (v : Nat) : putByte m a v w = m w :=
  update_of_ne h _ _

lemma getByte_putBytes (m : Mem) (a : Nat) (bs : List Nat) (c : Nat) : getByte (putBytes m a bs) c =
      if a ≤ c ∧ c < a + bs.length then bs[c - a]?.getD 0 % 256 else getByte m c := by
  induction bs generalizing m a with
  | nil => simp [putBytes]
  | cons b bs ih =>
    rw [putBytes, ih, getByte_putByte, List.length_cons]
    by_cases hc : c = a
    · subst hc
      simp
    · by_cases hin : a + 1 ≤ c ∧ c < a + 1 + bs.length
      · have hin' : a ≤ c ∧ c < a + (bs.length + 1) := by omega
        rw [if_pos hin, if_pos hin', show c - a = (c - (a + 1)) + 1 by omega, List.getElem?_cons_succ]
      · have hin' : ¬ (a ≤ c ∧ c < a + (bs.length + 1)) := by omega
        rw [if_neg hin, if_neg hin', if_neg hc]

/-- A word that the bytes do not reach. -/
theorem putBytes_word (m : Mem) (a : Nat) (bs : List Nat) {w : Nat}
    (h : w < a / 4 ∨ a + bs.length ≤ 4 * w) : putBytes m a bs w = m w := by
  induction bs generalizing m a with
  | nil => rfl
  | cons b bs ih =>
    rw [List.length_cons] at h
    rw [putBytes, ih _ _ (by omega), putByte_word (by omega)]

lemma getByte_congr {m m' : Mem} {a : Nat} (h : m' (a / 4) = m (a / 4)) : getByte m' a = getByte m a := by
  unfold getByte
  rw [h]

lemma length_bytesAt (m : Mem) (a n : Nat) : (bytesAt m a n).length = n := by simp [bytesAt]

lemma getElem_bytesAt (m : Mem) (a n : Nat) {i : Nat} (h : i < n) :
    (bytesAt m a n)[i]? = some (getByte m (a + i)) := by
  simp [bytesAt, h]

lemma take_bytesAt (m : Mem) (a : Nat) {n k : Nat} (h : k ≤ n) : (bytesAt m a n).take k = bytesAt m a k := by
  unfold bytesAt
  rw [← List.map_take, List.take_range, min_eq_left h]

lemma bytesAt_putBytes (m : Mem) (a : Nat) {bs : List Nat} (h : ∀ b ∈ bs, b < 256) :
    bytesAt (putBytes m a bs) a bs.length = bs := by
  refine List.ext_getElem (length_bytesAt _ _ _) fun i hi hi' => ?_
  have hbyte := getByte_putBytes m a bs (a + i)
  rw [if_pos ⟨Nat.le_add_right _ _, Nat.add_lt_add_left hi' _⟩, Nat.add_sub_cancel_left, List.getElem?_eq_getElem hi',
    Option.getD_some, Nat.mod_eq_of_lt (h _ (List.getElem_mem hi'))] at hbyte
  simpa [bytesAt] using hbyte

lemma testBit_byteOf (w i : Nat) {k : Nat} (hk : k < 8) : (byteOf w i).testBit k = w.testBit (8 * i + k) := by
  have h256 : 256 ^ i = 2 ^ (8 * i) := by rw [Nat.pow_mul]
  rw [byteOf, h256, show 256 = 2 ^ 8 from rfl, Nat.testBit_mod_two_pow, Nat.testBit_div_two_pow, decide_eq_true hk,
    Bool.true_and, add_comm]

end Jos.WordMem
