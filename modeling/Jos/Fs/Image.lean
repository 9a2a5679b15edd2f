import Jos.Fs.Tree
import Mathlib.Data.List.Nodup

/-!
# Images with one directory

The files of an image in which the root is the only directory can be listed, and so can
their block numbers. That the bitmap agrees with them is then a matter of a few computations.
-/

namespace Jos.Fs
open WordMem Ownership

/-- The number of blocks that `f` can have without a new indirect block. -/
def slotCount (m : Mem) (f : Nat) : Nat := if m (fIndirect f) = 0 then ndirect else ndirect + nindirect

/-- The entries of the root that have a name. -/
def rootEntries (m : Mem) : List Nat :=
  (List.range (slotCount m root)).flatMap fun i =>
    if blockAt m root i = 0 then []
    else ((List.range blkfiles).map fun j => 1024 * blockAt m root i + 64 * j).filter fun e => !nameEmpty m e

/-- The block numbers in the root and in its entries. -/
def slotList (m : Mem) : List (Slot × Nat) :=
  (root :: rootEntries m).flatMap fun f =>
    ((.indirect f, m (fIndirect f)) ::
      (List.range (slotCount m f)).map fun i => (.block f i, blockAt m f i)).filter fun p => p.2 ≠ 0

lemma lt_slotCount {m : Mem} {f i : Nat} (hb : blockAt m f i ≠ 0) : i < slotCount m f ↔ i < ndirect + nindirect := by
  unfold slotCount
  split
  · rename_i hind
    have hi : i < ndirect := Nat.lt_of_not_le fun hle => hb (blockAt_none hle hind)
    exact iff_of_true hi (Nat.lt_add_right _ hi)
  · rfl

def Slot.within (m : Mem) : Slot → Bool
  | .block f i => i < nblocks (size m f)
  | .indirect _ => true

/-- The bitmap has exactly the listed blocks in use. -/
def BitmapFits (m : Mem) : Prop :=
  ((slotList m).map Prod.snd).Nodup ∧
  (∀ p ∈ slotList m, reservedEnd m ≤ p.2 ∧ p.2 < sNblocks m ∧ blockIsFree m p.2 = false ∧ p.1.within m) ∧
  (∀ b < reservedEnd m, blockIsFree m b = false) ∧
  ∀ b < sNblocks m, reservedEnd m ≤ b → blockIsFree m b = true ∨ b ∈ (slotList m).map Prod.snd

instance BitmapFits.decidable (m : Mem) : Decidable (BitmapFits m) := inferInstanceAs (Decidable (_ ∧ _))

instance Blank.decidable (lo : Nat) (m : Mem) (f : Nat) : Decidable (Blank lo m f) :=
  decidable_of_iff (∀ k < 45, lo ≤ k → m (f + k) = 0) (forall_congr' fun _ => forall_comm)

/-- What there is to check of an image in which the root is the only directory. -/
def Checked (m : Mem) : Prop :=
  (m (fType root) = ftypeDir ∧ ∀ f ∈ rootEntries m, m (fType f) ≠ ftypeDir) ∧
  (∀ f ∈ root :: rootEntries m, 0 ≤ size m f ∧ size m f ≤ maxfilesize) ∧ BitmapFits m ∧
  ∀ p ∈ slotList m, m (fType p.1.file) = ftypeDir → ∀ j < blkfiles,
    nameEmpty m (1024 * p.2 + 64 * j) = true → Blank 32 m (1024 * p.2 + 64 * j)

instance Checked.decidable (m : Mem) : Decidable (Checked m) := inferInstanceAs (Decidable (_ ∧ _))

/-- The root's first block is block 3, and the first entry there has a name. -/
def FirstNamed (m : Mem) : Prop := m (fType root) = ftypeDir ∧ blockAt m root 0 = 3 ∧ nameEmpty m 3072 = false

instance FirstNamed.decidable (m : Mem) : Decidable (FirstNamed m) := inferInstanceAs (Decidable (_ ∧ _))

lemma FirstNamed.isFile {m : Mem} (h : FirstNamed m) : IsFile m 3072 := by
  obtain ⟨hdir, hblock, hname⟩ := h
  have hfile := IsFile.entry (m := m) (i := 0) (j := 0) .root hdir (by decide)
  rw [hblock] at hfile
  exact hfile (by decide) (by decide) hname

namespace Checked
variable {m : Mem} (h : Checked m) {f b : Nat} {t : Slot}
include h

lemma isFile_iff : IsFile m f ↔ f ∈ root :: rootEntries m := by
  have hmem : ∀ e, e ∈ rootEntries m ↔ ∃ i, i < ndirect + nindirect ∧ blockAt m root i ≠ 0 ∧ ∃ j, j < blkfiles ∧
      nameEmpty m (1024 * blockAt m root i + 64 * j) = false ∧ 1024 * blockAt m root i + 64 * j = e := by
    intro e
    simp only [rootEntries, List.mem_flatMap, List.mem_range]
    refine exists_congr fun i => ?_
    by_cases hb : blockAt m root i = 0
    · simp [hb]
    · simp only [lt_slotCount hb, hb, if_false, List.mem_filter, List.mem_map, List.mem_range, Bool.not_eq_true', ne_eq,
        not_false_eq_true, true_and]
      refine and_congr_right fun _ => ⟨?_, ?_⟩
      · rintro ⟨⟨j, hj, rfl⟩, hname⟩
        exact ⟨j, hj, hname, rfl⟩
      · rintro ⟨j, hj, hname, rfl⟩
        exact ⟨⟨j, hj, rfl⟩, hname⟩
  rw [List.mem_cons]
  constructor
  · intro hf
    induction hf with
    | root => exact .inl rfl
    | entry _ hdir hi hb hj hname ih =>
      rcases ih with rfl | hd
      · exact .inr ((hmem _).mpr ⟨_, hi, hb, _, hj, hname, rfl⟩)
      · exact absurd hdir (h.1.2 _ hd)
  · rintro (rfl | hf)
    · exact .root
    · obtain ⟨i, hi, hb, j, hj, hname, rfl⟩ := (hmem f).mp hf
      exact .entry .root h.1.1 hi hb hj hname

lemma eq_root (hf : IsFile m f) (hdir : m (fType f) = ftypeDir) : f = root :=
  (List.mem_cons.mp (h.isFile_iff.mp hf)).resolve_right fun hmem => h.1.2 f hmem hdir

lemma refers_iff : Refers m t b ↔ (t, b) ∈ slotList m := by
  simp only [slotList, List.mem_flatMap, ← h.isFile_iff, List.mem_filter, List.mem_cons, List.mem_map, List.mem_range,
    Prod.mk.injEq, decide_eq_true_eq]
  cases t with
  | block f i =>
    constructor
    · rintro ⟨hf, hi, rfl, h0⟩
      exact ⟨f, hf, .inr ⟨i, (lt_slotCount h0).mpr hi, rfl, rfl⟩, h0⟩
    · rintro ⟨f', hf, ⟨heq, -⟩ | ⟨i', hi, heq, rfl⟩, h0⟩ <;> cases heq
      exact ⟨hf, (lt_slotCount h0).mp hi, rfl, h0⟩
  | indirect f =>
    constructor
    · rintro ⟨hf, rfl, h0⟩
      exact ⟨f, hf, .inl ⟨rfl, rfl⟩, h0⟩
    · rintro ⟨f', hf, ⟨heq, rfl⟩ | ⟨i', hi, heq, -⟩, h0⟩ <;> cases heq
      exact ⟨hf, rfl, h0⟩

theorem agrees : Agrees m := by
  obtain ⟨hnodup, hrange, hreserved, hcovers⟩ := h.2.2.1
  refine ⟨⟨⟨fun t u b ht hu => ?_, fun t b ht hb => ?_⟩, fun t b ht => ?_, hreserved⟩, fun b hb => ?_,
    fun f i hf hi hle => ?_⟩
  · exact congrArg Prod.fst (List.inj_on_of_nodup_map hnodup (h.refers_iff.mp ht) (h.refers_iff.mp hu) rfl)
  · rw [(hrange _ (h.refers_iff.mp ht)).2.2.1] at hb
    cases hb
  · have hp := hrange _ (h.refers_iff.mp ht)
    exact ⟨hp.1, hp.2.1⟩
  · rcases hcovers b hb.2 hb.1 with hfree | hmem
    · exact .inl hfree
    · obtain ⟨⟨t, b'⟩, hp, rfl⟩ := List.mem_map.mp hmem
      exact .inr ⟨t, h.refers_iff.mpr hp⟩
  · by_contra h0
    have href : Refers m (.block f i) (blockAt m f i) := ⟨hf, hi, rfl, h0⟩
    have hwithin : decide (i < nblocks (size m f)) = true := (hrange _ (h.refers_iff.mp href)).2.2.2
    exact absurd (of_decide_eq_true hwithin) (Nat.not_lt.mpr hle)

lemma sizes (hf : IsFile m f) : 0 ≤ size m f ∧ size m f ≤ maxfilesize := h.2.1 f (h.isFile_iff.mp hf)

lemma unusedBlank {lo : Nat} (hlo : 32 ≤ lo) : UnusedBlank lo m := fun _ _ _ j href hdir hj hempty k hk hlt =>
  h.2.2.2 _ (h.refers_iff.mp href) hdir j hj hempty k (hlo.trans hk) hlt

end Checked

end Jos.Fs
