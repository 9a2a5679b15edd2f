import Jos.Fs.Contents

/-!
# Shrinking a file and extending it again

`file_set_size` frees the blocks that lie past the new size as a whole. The bytes in the
rest of the last block that stays are left as they are, and a later extension of the file
makes them part of it again.
-/

namespace Jos.Fs
open WordMem CInt Ownership Function
open Relation (ReflTransGen)

def ReadsZero (m : Mem) (f lo hi : Nat) : Prop :=
  ∀ cached n o, Enough m f (o / 4096) (blockEnd o (o + readCount m f n o)) →
    ∃ out m', fileRead cached f n o m = .ok (readCount m f n o, out, m') ∧
      ∀ j, j < readCount m f n o → lo ≤ o + j → o + j < hi → (out.map Prod.snd)[j]? = some 0

/-- The bytes of `f` from `a` on are zero up to `b` or to the end of the last block of a file of size `a`. -/
def TailZero (m : Mem) (f a b : Nat) : Prop := ∀ p, a ≤ p → p < b → p < 4096 * nblocks a → byteAt m f p = 0

section
variable {m : Mem} (ho : Owned m) {f : Nat} (hf : IsFile m f) (hreg : m (fType f) ≠ ftypeDir)

lemma enough_present {p : Nat} (hp : p / 4096 < ndirect + nindirect) (hb : blockAt m f (p / 4096) ≠ 0) :
    Enough m f (p / 4096) (p / 4096 + 1) := by
  have hind : ndirect ≤ p / 4096 → m (fIndirect f) ≠ 0 := fun hle h0 => hb (blockAt_none hle h0)
  refine ⟨fun _ => hp, ?_⟩
  rw [needed_present (Nat.lt_succ_self _) hb hind, needed_empty _ _ le_rfl]
  exact Nat.zero_le _

include ho hf hreg in
lemma readsZero_iff (hmax : size m f ≤ maxfilesize) {lo hi : Nat} (hhi : hi ≤ size m f) :
    ReadsZero m f lo hi ↔ ∀ p, lo ≤ p → p < hi → byteAt m f p = 0 := by
  have hreads := readsAs_byteAt ho hf hreg hmax
  constructor
  · intro h p hlo hp
    by_contra hne
    have hb : blockAt m f (p / 4096) ≠ 0 := fun h0 => hne (byteAt_missing h0)
    have hlim : size m f ≤ 4235264 := hmax
    have hcount : readCount m f 1 p = 1 := by
      unfold readCount
      omega
    have hroom : Enough m f (p / 4096) (blockEnd p (p + readCount m f 1 p)) := by
      have hend : blockEnd p (p + 1) = p / 4096 + 1 := by
        unfold blockEnd
        rw [if_pos (Nat.lt_succ_self p)]
        omega
      rw [hcount, hend]
      exact enough_present (by unfold ndirect nindirect; omega) hb
    obtain ⟨out, m', hrun, hzero⟩ := h (fun _ => false) 1 p hroom
    obtain ⟨out', m'', hrun', hout⟩ := hreads (fun _ => false) 1 p hroom
    cases hrun.symm.trans hrun'
    have h0 := hzero 0 (by omega) (by omega) (by omega)
    rw [hout, hcount] at h0
    simp only [List.range_one, List.map_cons, List.getElem?_cons_zero, Option.some.injEq, add_zero] at h0
    exact hne h0
  · intro h cached n o hroom
    obtain ⟨out, m', hrun, hout⟩ := hreads cached n o hroom
    refine ⟨out, m', hrun, fun j hj hlo hhi' => ?_⟩
    rw [hout, List.getElem?_map, List.getElem?_range hj]
    exact congrArg some (h _ hlo hhi')

end

section
variable {m : Mem} {f : Nat} (hf : IsFile m f) (hreg : m (fType f) ≠ ftypeDir)

structure Resize (f n : Nat) (content : Nat → Nat) (m' : Mem) : Prop where
  owned : Owned m'
  isFile : IsFile m' f
  regular : m' (fType f) ≠ ftypeDir
  size : size m' f = n
  bytes : ∀ p, p / 4096 < ndirect + nindirect → byteAt m' f p = content p

include hf hreg in
lemma fileSetSize_shrinks (ha : Agrees m) {a : Nat} (hle : a ≤ size m f) : ∃ m', fileSetSize f a m = .ok (0, m') ∧
      Resize f a (fun p => if p < 4096 * nblocks a then byteAt m f p else 0) m' := by
  obtain ⟨m1, hset, hrun, hsame, htrunc⟩ := fileSetSize_spec ha.toOwned hf a
  have hshrunk := DetachStep.run hrun ha.toOwned hf
  have hrange := toI32_range (m (fSize f))
  have hsize : size m f < 2147483648 := hrange.2
  have hblocks : ∀ i, i < ndirect + nindirect → blockAt m1 f i = if nblocks a ≤ i then 0 else blockAt m f i := by
    intro i hi
    by_cases hlt : (a : Int) < size m f
    · exact (htrunc hreg hlt ha).2 i hi
    · rw [hsame hlt]
      split
      · rename_i hn
        have heq : (a : Int) = size m f := by omega
        exact ha.tail f i hf hi (heq ▸ hn)
      · rfl
  have hreg1 : m1 (fType f) ≠ ftypeDir := by
    rwa [show fType f = f + 33 from rfl, hshrunk.field f 33 hshrunk.isFile (by decide)]
  have hsb := sameBlocks_resize hshrunk.owned hshrunk.isFile (toU32 a)
  refine ⟨_, hset, hsb.owned, hsb.isFile, ?_, ?_, fun p hp => ?_⟩
  · rwa [update_of_ne (by unfold fType fSize; omega)]
  · rw [size, update_self, toI32_toU32, toI32_of_range (by omega) (by omega)]
  · rw [byteAt_resize hshrunk.owned hshrunk.isFile _ hshrunk.isFile hreg1 hp]
    have hbp := hblocks _ hp
    by_cases hcut : nblocks a ≤ p / 4096
    · rw [if_pos hcut] at hbp
      rw [byteAt_missing hbp, if_neg (by omega)]
    · rw [if_neg hcut] at hbp
      rw [if_pos (by omega)]
      exact DetachStep.byteAt_eq hrun ha.toOwned hf hf hreg hp hbp

include hf hreg in
lemma fileSetSize_grows (ho : Owned m) {b : Nat} (hle : size m f ≤ b) (hb : b < 2147483648) :
    ∃ m', fileSetSize f b m = .ok (0, m') ∧ Resize f b (byteAt m f) m' := by
  obtain ⟨m1, hset, -, hsame, -⟩ := fileSetSize_spec ho hf b
  rw [hsame (by omega)] at hset
  have hsb := sameBlocks_resize ho hf (toU32 b)
  refine ⟨_, hset, hsb.owned, hsb.isFile, ?_, ?_, fun p hp => byteAt_resize ho hf _ hf hreg hp⟩
  · rwa [update_of_ne (by unfold fType fSize; omega)]
  · rw [size, update_self, toI32_toU32, toI32_of_range (by omega) (by omega)]

end

/-- With the rest of the last block kept, that there are zeros above `a` is a matter of this rest. -/
theorem tailZero_iff {m : Mem} {f a b : Nat} {content : Nat → Nat}
    (hcontent : ∀ p, a ≤ p → p < b → content p = if p < 4096 * nblocks a then byteAt m f p else 0) :
    (∀ p, a ≤ p → p < b → content p = 0) ↔ TailZero m f a b := by
  refine forall_congr' fun p => forall_congr' fun hlo => forall_congr' fun hhi => ?_
  rw [hcontent p hlo hhi]
  split
  · exact ⟨fun h _ => h, fun h => h ‹_›⟩
  · exact ⟨fun _ h => absurd h ‹_›, fun _ => rfl⟩

/-- A disk of 5 blocks, none of them free: in the root there is a file whose contents are `ab`. -/
def lettersDisk : Mem := fun w =>
  if w = 1025 then 5
  else if w = 1058 then 4096
  else if w = 1059 then ftypeDir
  else if w = 1060 then 3
  else if w = 3072 then 97
  else if w = 3104 then 2
  else if w = 3106 then 4
  else if w = 4096 then 97 + 256 * 98
  else 0

lemma lettersDisk_checked : Checked lettersDisk := by decide +kernel

lemma lettersDisk_file : IsFile lettersDisk 3072 := FirstNamed.isFile (by decide)

/-- When an extension after `file_set_size(f, a)`, by a second such call or by a write that starts at `a` or later, shows
nothing but zeros. -/
theorem extension_zero_iff {m : Mem} (hc : Consistent m) {f : Nat} (hf : IsFile m f) (hreg : m (fType f) = ftypeReg) {a : Nat}
    (hle : a ≤ size m f) : ∃ m1, fileSetSize f a m = .ok (0, m1) ∧
      (∀ b, a < b → b ≤ maxfilesize → ∃ m2, fileSetSize f b m1 = .ok (0, m2) ∧
        (ReadsZero m2 f a b ↔ TailZero m f a b)) ∧
      ∀ cached buf off count, a ≤ off → a < off + count → off + count ≤ maxfilesize →
        Enough m1 f (off / 4096) (blockEnd off (off + count)) →
        ∃ m2, fileWrite cached (fun _ => buf) f count off m1 = .ok (count, m2) ∧
          (ReadsZero m2 f a off ↔ TailZero m f a off) := by
  have hreg' : m (fType f) ≠ ftypeDir := by
    rw [hreg]
    decide
  obtain ⟨m1, hset, hres⟩ := fileSetSize_shrinks hf hreg' hc.toAgrees hle
  have hlimit : ∀ p b : Nat, p < b → b ≤ maxfilesize → p / 4096 < ndirect + nindirect := by
    intro p b hp hb
    have hb' : b ≤ 4235264 := hb
    unfold ndirect nindirect
    omega
  refine ⟨m1, hset, fun b hab hmax => ?_, fun cached buf off count hoff hgrow hmax hroom => ?_⟩
  · have hmax' : b ≤ 4235264 := hmax
    obtain ⟨m2, hset2, hres2⟩ := fileSetSize_grows hres.isFile hres.regular hres.owned
      (b := b) (by rw [hres.size]; omega) (by omega)
    refine ⟨m2, hset2, ?_⟩
    rw [readsZero_iff hres2.owned hres2.isFile hres2.regular (by rw [hres2.size]; exact_mod_cast hmax)
      (by rw [hres2.size])]
    refine tailZero_iff fun p hlo hhi => ?_
    have hp := hlimit p b hhi hmax
    rw [hres2.bytes p hp, hres.bytes p hp]
  · have hmax' : off + count ≤ 4235264 := hmax
    obtain ⟨m2, hrun, hwrote⟩ := fileWrite_contents hres.owned hres.isFile hres.regular cached buf
      (by rw [hres.size]; omega) hmax hroom
    have hf2 := (hwrote.isFile_iff f).mpr hres.isFile
    have hreg2 : m2 (fType f) ≠ ftypeDir := by
      rw [show fType f = f + 33 from rfl, hwrote.field f 33 hres.isFile (by decide) (.inr (by decide))]
      exact hres.regular
    have hsize2 : size m2 f = (off + count : Nat) := by
      rw [hwrote.size, hres.size]
      omega
    refine ⟨m2, hrun, ?_⟩
    rw [readsZero_iff hwrote.owned hf2 hreg2 (by rw [hsize2]; exact_mod_cast hmax) (by rw [hsize2]; omega)]
    refine tailZero_iff fun p hlo hhi => ?_
    have hp := hlimit p (off + count) (by omega) hmax
    rw [hwrote.bytes f p hres.isFile hres.regular hp, if_neg (by omega), hres.bytes p hp]

theorem extension_zero_letters : ∃ m1 m2, fileSetSize 3072 0 lettersDisk = .ok (0, m1) ∧
    fileSetSize 3072 2 m1 = .ok (0, m2) ∧ ReadsZero m2 3072 0 2 := by
  obtain ⟨m1, hset, hgrow, -⟩ := extension_zero_iff lettersDisk_checked.consistent lettersDisk_file rfl
    (a := 0) (show (0 : Int) ≤ size lettersDisk 3072 by decide)
  obtain ⟨m2, hset2, hiff⟩ := hgrow 2 (by decide) (by unfold maxfilesize ndirect nindirect blksize; omega)
  exact ⟨m1, m2, hset, hset2, hiff.mpr fun p hlo hhi hcut => absurd hcut (Nat.not_lt_zero p)⟩

/-- Cut to one byte, the file has the `b` again once it is extended, and a write further on extends it too. -/
theorem truncated_byte_returns : Consistent lettersDisk ∧ IsFile lettersDisk 3072 ∧ size lettersDisk 3072 = 2 ∧
    ∃ m1 m2 m3, fileSetSize 3072 1 lettersDisk = .ok (0, m1) ∧
      fileSetSize 3072 2 m1 = .ok (0, m2) ∧ fileRead (fun _ => false) 3072 1 1 m2 = .ok (1, [(16385, 98)], m2) ∧
      fileWrite (fun _ => false) (fun _ _ => 99) 3072 1 2 m1 = .ok (1, m3) ∧
        fileRead (fun _ => false) 3072 1 1 m3 = .ok (1, [(16385, 98)], m3) := by
  refine ⟨lettersDisk_checked.consistent, lettersDisk_file, rfl, update lettersDisk 3104 1,
    update (update lettersDisk 3104 1) 3104 2, _, rfl, rfl, rfl, rfl, rfl⟩

end Jos.Fs
