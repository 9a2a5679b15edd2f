import Mathlib.Data.List.Basic

/-!
# Strings in memory

A string is a run of bytes that are not 0, with a 0 after the last of them.
-/

namespace Jos

/-- The bytes at `a` are `cs` and a 0. -/
structure IsString (m : Nat → Nat) (a : Nat) (cs : List Nat) : Prop where
  nonzero : ∀ c ∈ cs, c ≠ 0
  chars : ∀ i, i ≤ cs.length → m (a + i) = cs[i]?.getD 0

namespace IsString
variable {m m' : Nat → Nat} {a c : Nat} {cs : List Nat}

lemma nil_iff : IsString m a [] ↔ m a = 0 := by
  refine ⟨fun h => h.chars 0 (Nat.le_refl 0), fun h => ⟨by simp, ?_⟩⟩
  intro i hi
  obtain rfl : i = 0 := Nat.le_zero.mp hi
  exact h

lemma cons_iff : IsString m a (c :: cs) ↔ c ≠ 0 ∧ m a = c ∧ IsString m (a + 1) cs := by
  constructor
  · intro h
    refine ⟨h.nonzero c List.mem_cons_self, h.chars 0 (Nat.zero_le _), fun x hx => h.nonzero x (List.mem_cons_of_mem c hx), ?_⟩
    intro i hi
    have hnext := h.chars (i + 1) (Nat.succ_le_succ hi)
    rwa [List.getElem?_cons_succ, show a + (i + 1) = a + 1 + i by omega] at hnext
  · rintro ⟨hc, ha, h⟩
    refine ⟨List.forall_mem_cons.mpr ⟨hc, h.nonzero⟩, ?_⟩
    intro i hi
    cases i with
    | zero => exact ha
    | succ i =>
      rw [List.getElem?_cons_succ, show a + (i + 1) = a + 1 + i by omega]
      exact h.chars i (Nat.le_of_succ_le_succ hi)

lemma congr (h : IsString m a cs) (heq : ∀ x, a ≤ x → x ≤ a + cs.length → m' x = m x) : IsString m' a cs := by
  refine ⟨h.nonzero, ?_⟩
  intro i hi
  rw [heq (a + i) (by omega) (by omega)]
  exact h.chars i hi

/-- The first byte is that of the string, or 0. -/
theorem first (h : IsString m a cs) : m a = cs.head?.getD 0 := by
  have := h.chars 0 (Nat.zero_le _)
  rwa [Nat.add_zero, ← List.head?_eq_getElem?] at this

end IsString

end Jos
