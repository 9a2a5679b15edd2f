import Mathlib.Data.Finset.Card

/-!
# Counting references

A finite set of slots, each of which refers to one target or to none. The number
of references to a target moves by one whenever one slot is rewritten.
-/

namespace Jos.RefCount
open Function

universe u v
variable {ι : Type u} {β : Type v} [DecidableEq β]

def refs (S : Finset ι) (f : ι → Option β) (b : β) : Nat := (S.filter fun i => f i = some b).card

lemma refs_eq_zero_iff {S : Finset ι} {f : ι → Option β} {b : β} : refs S f b = 0 ↔ ∀ i ∈ S, f i ≠ some b := by
  simp [refs, Finset.card_eq_zero, Finset.filter_eq_empty_iff]

lemma refs_pos {S : Finset ι} {f : ι → Option β} {b : β} {i : ι} (hi : i ∈ S) (h : f i = some b) : 0 < refs S f b :=
  Finset.card_pos.mpr ⟨i, Finset.mem_filter.mpr ⟨hi, h⟩⟩

lemma refs_congr {S : Finset ι} {f g : ι → Option β} (h : ∀ i ∈ S, f i = g i) (b : β) : refs S f b = refs S g b := by
  unfold refs
  congr 1
  apply Finset.filter_congr
  intro i hi
  rw [h i hi]

/-- The references from one kind of slot and those from the others. -/
theorem refs_filter_add {S : Finset ι} {f : ι → Option β} (q : ι → Bool) (b : β) :
    refs (S.filter fun i => q i) f b + refs (S.filter fun i => q i = false) f b = refs S f b := by
  have h := Finset.card_filter_add_card_filter_not (s := S.filter fun i => f i = some b) (fun i => q i)
  simp only [Finset.filter_filter, Bool.not_eq_true] at h
  simp only [refs, Finset.filter_filter]
  simpa only [and_comm] using h

/-- One slot is rewritten: the old target loses a reference and the new one gains it. -/
theorem refs_update [DecidableEq ι] {S : Finset ι} {f : ι → Option β} {i : ι} (hi : i ∈ S) (v : Option β) (b : β) :
    refs S (update f i v) b + (if f i = some b then 1 else 0) =
      refs S f b + (if v = some b then 1 else 0) := by
  have hrest : ∀ g : ι → Option β,
      refs S g b = ((S.erase i).filter fun j => g j = some b).card + (if g i = some b then 1 else 0) := by
    intro g
    unfold refs
    conv_lhs => rw [← Finset.insert_erase hi, Finset.filter_insert]
    split
    · rw [Finset.card_insert_of_notMem (by simp)]
    · simp
  have hsame : ((S.erase i).filter fun j => update f i v j = some b) =
      ((S.erase i).filter fun j => f j = some b) := by
    apply Finset.filter_congr
    intro j hj
    rw [update_of_ne (Finset.ne_of_mem_erase hj)]
  rw [hrest (update f i v), hrest f, hsame, update_self]
  omega

lemma refs_eq_one {S : Finset ι} {f : ι → Option β} {b : β} {i : ι} (hi : i ∈ S)
    (hfi : f i = some b) (hu : ∀ j ∈ S, f j = some b → j = i) : refs S f b = 1 := by
  apply Finset.card_eq_one.mpr
  refine ⟨i, Finset.ext fun j => ?_⟩
  rw [Finset.mem_filter, Finset.mem_singleton]
  constructor
  · rintro ⟨hj, hfj⟩
    exact hu j hj hfj
  · rintro rfl
    exact ⟨hi, hfi⟩

end Jos.RefCount
