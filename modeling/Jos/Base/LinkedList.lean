import Mathlib.Data.List.Nodup

/-!
# Intrusive singly linked lists

The nodes are the elements themselves: `next a` is the link stored in `a`, and a
list is known only by its head pointer. `Chain next head l` says that following
the links from `head` visits exactly `l` and then ends.
-/

namespace Jos.LinkedList
open Function

universe u
variable {α : Type u}

def Chain (next : α → Option α) : Option α → List α → Prop
  | head, [] => head = none
  | head, a :: l => head = some a ∧ Chain next (next a) l

section
variable {next : α → Option α} {head : Option α} {l : List α} (h : Chain next head l)
include h

lemma Chain.unique {l' : List α} (h' : Chain next head l') : l = l' := by
  induction l generalizing head l' with
  | nil =>
    cases l' with
    | nil => rfl
    | cons b l' => exact absurd (h.symm.trans h'.1) (by simp)
  | cons a l ih =>
    cases l' with
    | nil => exact absurd (h'.symm.trans h.1) (by simp)
    | cons b l' =>
      have hab : a = b := Option.some.inj (h.1.symm.trans h'.1)
      subst b
      rw [ih h.2 h'.2]

lemma Chain.suffix {a : α} (ha : a ∈ l) : ∃ r, r.length < l.length ∧ Chain next (next a) r := by
  induction l generalizing head with
  | nil => simp at ha
  | cons b l ih =>
    rcases List.mem_cons.mp ha with rfl | ha
    · exact ⟨l, by simp, h.2⟩
    · obtain ⟨r, hr, hc⟩ := ih h.2 ha
      exact ⟨r, by simp only [List.length_cons]; omega, hc⟩

/-- A chain that ends cannot pass a node twice: the two tails would be equal
and yet of different length. -/
theorem Chain.nodup : l.Nodup := by
  induction l generalizing head with
  | nil => exact List.nodup_nil
  | cons a l ih =>
    refine List.nodup_cons.mpr ⟨?_, ih h.2⟩
    intro ha
    obtain ⟨r, hr, hc⟩ := h.2.suffix ha
    have := h.2.unique hc
    subst r
    omega

lemma Chain.congr {next' : α → Option α} (heq : ∀ a ∈ l, next' a = next a) : Chain next' head l := by
  induction l generalizing head with
  | nil => exact h
  | cons a l ih =>
    refine ⟨h.1, ?_⟩
    rw [heq a List.mem_cons_self]
    exact ih h.2 fun b hb => heq b (List.mem_cons_of_mem a hb)

lemma Chain.last_iff {a : α} (ha : a ∈ l) : next a = none ↔ ∃ l', l = l' ++ [a] := by
  induction l generalizing head with
  | nil => cases ha
  | cons b l ih =>
    obtain ⟨-, hrest⟩ := h
    cases l with
    | nil =>
      cases List.mem_singleton.mp ha
      exact ⟨fun _ => ⟨[], rfl⟩, fun _ => hrest⟩
    | cons c l =>
      have hne : next b ≠ none := fun hb => by cases hb.symm.trans hrest.1
      constructor
      · intro hnull
        have hb : a ≠ b := fun he => hne (he ▸ hnull)
        obtain ⟨l', hl'⟩ := (ih hrest ((List.mem_cons.mp ha).resolve_left hb)).mp hnull
        exact ⟨b :: l', congrArg (b :: ·) hl'⟩
      · rintro ⟨l', hl'⟩
        cases l' with
        | nil => cases hl'
        | cons d l' =>
          obtain ⟨-, hl'⟩ := List.cons.inj hl'
          exact (ih hrest (hl' ▸ List.mem_append_right l' List.mem_cons_self)).mpr ⟨l', hl'⟩

end

lemma Chain.endless {next : α → Option α} {S : α → Prop} (hS : ∀ a, S a → ∃ b, S b ∧ next a = some b) {a : α}
    (ha : S a) (l : List α) : ¬ Chain next (some a) l := by
  induction l generalizing a with
  | nil => intro h; cases h
  | cons c l ih =>
    rintro ⟨hc, hrest⟩
    cases Option.some.inj hc
    obtain ⟨b, hb, hnext⟩ := hS _ ha
    exact ih hb (hnext ▸ hrest)

/-- Consecutive nodes, each linked to the next one. -/
theorem chain_range' {next : Nat → Option Nat} (n a : Nat) (hnext : ∀ i, a ≤ i → i < a + n → next i = some (i + 1))
    (hlast : next (a + n) = none) : Chain next (some a) (List.range' a (n + 1)) := by
  induction n generalizing a with
  | zero => exact ⟨rfl, hlast⟩
  | succ n ih =>
    refine ⟨rfl, ?_⟩
    rw [hnext a (Nat.le_refl a) (by omega)]
    exact ih (a + 1) (fun i hi hu => hnext i (by omega) (by omega)) (by rw [← hlast]; congr 1; omega)

variable [DecidableEq α]

lemma Chain.push {next : α → Option α} {head : Option α} {l : List α} {a : α} (h : Chain next head l) (ha : a ∉ l) :
    Chain (update next a head) (some a) (a :: l) := by
  refine ⟨rfl, ?_⟩
  rw [update_self]
  apply h.congr
  intro b hb
  have hba : b ≠ a := fun he => ha (he ▸ hb)
  exact update_of_ne hba _ _

lemma Chain.pop {next : α → Option α} {a : α} {l : List α}
    (h : Chain next (some a) (a :: l)) : Chain (update next a none) (next a) l := by
  have ha : a ∉ l := (List.nodup_cons.mp h.nodup).1
  apply h.2.congr
  intro b hb
  have hba : b ≠ a := fun he => ha (he ▸ hb)
  exact update_of_ne hba _ _

end Jos.LinkedList
