import Mathlib.Data.List.TakeWhile

/-!
# The pieces of a list between separators

The non-empty runs of elements that are not separators, from left to right. How many
separators stand between two of them, or at the ends, does not matter.
-/

namespace Jos

variable {α : Type} (p : α → Bool)

def pieces (l : List α) : List (List α) := (l.splitOnP p).filter (· ≠ [])

lemma pieces_append_cons {sep : α} (h : p sep) (l l' : List α) :
    pieces p (l ++ sep :: l') = pieces p l ++ pieces p l' := by
  unfold pieces
  rw [List.splitOnP_append_cons l l' h, List.filter_append]

lemma pieces_nil : pieces p ([] : List α) = [] := rfl

lemma pieces_cons {sep : α} (h : p sep) (l : List α) : pieces p (sep :: l) = pieces p l :=
  pieces_append_cons p h [] l

lemma pieces_append_singleton {sep : α} (h : p sep) (l : List α) : pieces p (l ++ [sep]) = pieces p l := by
  rw [pieces_append_cons p h, pieces_nil, List.append_nil]

lemma pieces_dropWhile (l : List α) : pieces p (l.dropWhile p) = pieces p l := by
  induction l with
  | nil => rfl
  | cons x l ih =>
    by_cases hx : p x
    · rw [List.dropWhile_cons_of_pos hx, ih, pieces_cons p hx]
    · rw [List.dropWhile_cons_of_neg hx]

lemma pieces_of_not {l : List α} (hne : l ≠ []) (h : ∀ x ∈ l, p x = false) : pieces p l = [l] := by
  unfold pieces
  rw [List.splitOnP_eq_singleton, List.filter_cons_of_pos (by simpa using hne)]
  · rfl
  · simpa using h

/-- The first piece is what stands before the first separator. -/
theorem pieces_eq_cons {l : List α} (hne : l.takeWhile (fun x => !p x) ≠ []) :
    pieces p l = l.takeWhile (fun x => !p x) :: pieces p ((l.dropWhile fun x => !p x).dropWhile p) := by
  have hfirst : ∀ x ∈ l.takeWhile (fun x => !p x), p x = false := by
    intro x hx
    simpa using List.mem_takeWhile_imp hx
  rw [pieces_dropWhile]
  conv => lhs; rw [← List.takeWhile_append_dropWhile (p := fun x => !p x) (l := l)]
  rcases hrest : l.dropWhile (fun x => !p x) with _ | ⟨sep, rest⟩
  · rw [List.append_nil, pieces_of_not p hne hfirst, pieces_nil]
  · have hsep : p sep := by
      have := List.head?_dropWhile_not (fun x => !p x) l
      rw [hrest] at this
      simpa using this
    rw [pieces_append_cons p hsep, pieces_cons p hsep, pieces_of_not p hne hfirst]
    rfl

lemma mem_of_mem_splitOnP {l : List α} : ∀ {w : List α}, w ∈ l.splitOnP p → ∀ c ∈ w, c ∈ l := by
  induction l with
  | nil =>
    intro w hw c hc
    rw [List.splitOnP_nil, List.mem_singleton] at hw
    rw [hw] at hc
    cases hc
  | cons x l ih =>
    intro w hw c hc
    rw [List.splitOnP_cons_eq_if_modifyHead] at hw
    split at hw
    · rcases List.mem_cons.1 hw with rfl | hw
      · cases hc
      · exact List.mem_cons_of_mem x (ih hw c hc)
    · obtain ⟨first, rest, hsplit⟩ := List.exists_cons_of_ne_nil (List.splitOnP_ne_nil p l)
      rw [hsplit, List.modifyHead_cons] at hw
      rcases List.mem_cons.1 hw with rfl | hw
      · rcases List.mem_cons.1 hc with rfl | hc
        · exact List.mem_cons_self
        · exact List.mem_cons_of_mem x (ih (hsplit ▸ List.mem_cons_self) c hc)
      · exact List.mem_cons_of_mem x (ih (hsplit ▸ List.mem_cons_of_mem first hw) c hc)

lemma mem_of_mem_pieces {l w : List α} (h : w ∈ pieces p l) : ∀ c ∈ w, c ∈ l :=
  mem_of_mem_splitOnP p (List.mem_filter.1 h).1

lemma ne_nil_of_mem_pieces {l w : List α} (h : w ∈ pieces p l) : w ≠ [] := by
  simpa using (List.mem_filter.1 h).2

end Jos
