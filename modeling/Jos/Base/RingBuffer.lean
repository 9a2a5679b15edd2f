import Mathlib.Logic.Function.Basic

/-!
# Ring buffers

Element number `k` of a sequence is put into cell `k % cap` of a buffer of `cap` cells.
-/

namespace Jos.RingBuffer

universe u
variable {α : Type u} {buf : Nat → α} {cap lo hi : Nat} {xs : List α}

/-- The elements of `xs` from number `lo` up to `hi` are in the buffer. -/
def Holds (buf : Nat → α) (cap lo hi : Nat) (xs : List α) : Prop :=
  ∀ k, lo ≤ k → k < hi → xs[k]? = some (buf (k % cap))

lemma Holds.nothing (buf : Nat → α) (cap lo : Nat) (xs : List α) : Holds buf cap lo lo xs :=
  fun _ hlo hhi => absurd hhi (Nat.not_lt.mpr hlo)

lemma Holds.dropFirst (h : Holds buf cap lo hi xs) : Holds buf cap (lo + 1) hi xs :=
  fun k hlo hhi => h k (Nat.le_of_succ_le hlo) hhi

/-- Two numbers less than `cap` apart have different cells. -/
theorem cell_ne {j k : Nat} (hlt : j < k) (hnear : k < j + cap) : j % cap ≠ k % cap := by
  intro heq
  have hdvd : cap ∣ k - j := Nat.dvd_of_mod_eq_zero (Nat.sub_mod_eq_zero_of_mod_eq heq.symm)
  have hle := Nat.le_of_dvd (Nat.sub_pos_of_lt hlt) hdvd
  omega

/-- As long as there is room, the next element does not overwrite one that is still there. -/
theorem Holds.store (h : Holds buf cap lo xs.length xs) (hroom : xs.length < lo + cap) (x : α) :
    Holds (Function.update buf (xs.length % cap) x) cap lo (xs.length + 1) (xs ++ [x]) := by
  intro k hlo hhi
  rcases Nat.lt_succ_iff_lt_or_eq.mp hhi with hlt | rfl
  · rw [List.getElem?_append_left hlt, Function.update_of_ne (cell_ne hlt (by omega))]
    exact h k hlo hlt
  · rw [List.getElem?_append_right (Nat.le_refl _), Nat.sub_self, Function.update_self]
    rfl

end Jos.RingBuffer
