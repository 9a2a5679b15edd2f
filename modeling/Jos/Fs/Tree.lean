import Jos.Fs.Dir
import Jos.Base.Ownership

/-!
# The directory tree and the blocks it refers to

The files of a disk are the root and the named entries of the blocks of its
directories. Each of their block numbers is a slot that refers to a block. What
the block functions do to the disk is either to attach a zeroed free block to an
empty slot or to clear a slot and free its block; both are seen here on the whole
tree.
-/

namespace Jos.Fs
open WordMem CInt Ownership

variable {b f i k : Nat} {m : Mem}

def blockAt (m : Mem) (f i : Nat) : Nat :=
  if i < ndirect then m (fDirect f i)
  else if m (fIndirect f) = 0 then 0
  else m (1024 * m (fIndirect f) + (i - ndirect))

inductive IsFile (m : Mem) : Nat → Prop where
  | root : IsFile m Fs.root
  | entry {d i j : Nat} (hd : IsFile m d) (hdir : m (fType d) = ftypeDir) (hi : i < ndirect + nindirect)
      (hb : blockAt m d i ≠ 0) (hj : j < blkfiles) (hname : nameEmpty m (1024 * blockAt m d i + 64 * j) = false) :
      IsFile m (1024 * blockAt m d i + 64 * j)

inductive Slot where
  | block (f i : Nat)
  | indirect (f : Nat)
  deriving DecidableEq

def Refers (m : Mem) : Slot → Nat → Prop
  | .block f i, b => IsFile m f ∧ i < ndirect + nindirect ∧ blockAt m f i = b ∧ b ≠ 0
  | .indirect f, b => IsFile m f ∧ m (fIndirect f) = b ∧ b ≠ 0

structure Owned (m : Mem) : Prop where
  exclusive : Exclusive (Refers m) (fun b => blockIsFree m b = true)
  range : ∀ s b, Refers m s b → reservedEnd m ≤ b ∧ b < sNblocks m
  reserved : ∀ b, b < reservedEnd m → blockIsFree m b = false

structure Agrees (m : Mem) : Prop extends Owned m where
  covers : Covers (fun b => reservedEnd m ≤ b ∧ b < sNblocks m) (Refers m) fun b => blockIsFree m b = true
  tail : ∀ f i, IsFile m f → i < ndirect + nindirect → nblocks (size m f) ≤ i → blockAt m f i = 0

def Blank (lo : Nat) (m : Mem) (f : Nat) : Prop := ∀ k, lo ≤ k → k < 45 → m (f + k) = 0

def UnusedBlank (lo : Nat) (m : Mem) : Prop := ∀ d i c j, Refers m (.block d i) c → m (fType d) = ftypeDir →
  j < blkfiles → nameEmpty m (1024 * c + 64 * j) = true → Blank lo m (1024 * c + 64 * j)

lemma two_le_reservedEnd (m : Mem) : 2 ≤ reservedEnd m := Nat.le_add_right _ _

lemma blockAt_direct (h : i < ndirect) (m : Mem) (f : Nat) : blockAt m f i = m (fDirect f i) := if_pos h

lemma blockAt_indirect (h : ndirect ≤ i) (hind : m (fIndirect f) ≠ 0) :
    blockAt m f i = m (1024 * m (fIndirect f) + (i - ndirect)) := by
  unfold blockAt
  rw [if_neg (by omega), if_neg hind]

lemma blockAt_none (h : ndirect ≤ i) (hind : m (fIndirect f) = 0) : blockAt m f i = 0 := by
  unfold blockAt
  rw [if_neg (by omega), if_pos hind]

lemma blockAt_congr {m' : Mem} (hd : i < ndirect → m' (fDirect f i) = m (fDirect f i))
    (hind : m' (fIndirect f) = m (fIndirect f)) (he : ndirect ≤ i → m (fIndirect f) ≠ 0 →
      m' (1024 * m (fIndirect f) + (i - ndirect)) = m (1024 * m (fIndirect f) + (i - ndirect))) :
    blockAt m' f i = blockAt m f i := by
  by_cases hi : i < ndirect
  · rw [blockAt_direct hi, blockAt_direct hi, hd hi]
  · have hi' : ndirect ≤ i := by omega
    by_cases h0 : m (fIndirect f) = 0
    · rw [blockAt_none hi' h0, blockAt_none hi' (hind.trans h0)]
    · rw [blockAt_indirect hi' h0, blockAt_indirect hi' (by rwa [hind]), hind, he hi' h0]

section
variable {m : Mem} {f g : Nat}

lemma IsFile.block (h : IsFile m f) (hk : k < 64) : (f + k) / 1024 = f / 1024 := by
  cases h with
  | root =>
    unfold Fs.root
    omega
  | entry hd hdir hi hb hj hname =>
    unfold blkfiles at hj
    omega

lemma IsFile.parent (h : IsFile m f) : f = Fs.root ∨ ∃ d i, Refers m (.block d i) (f / 1024) ∧ m (fType d) = ftypeDir ∧
    ∃ j, j < blkfiles ∧ f = 1024 * (f / 1024) + 64 * j := by
  cases h with
  | root => exact .inl rfl
  | @entry d i j hd hdir hi hb hj hname =>
    have hdiv : (1024 * blockAt m d i + 64 * j) / 1024 = blockAt m d i := by
      unfold blkfiles at hj
      omega
    rw [hdiv]
    exact .inr ⟨d, i, ⟨hd, hi, rfl, hb⟩, hdir, j, hj, rfl⟩

lemma IsFile.named (h : IsFile m f) : f = Fs.root ∨ nameEmpty m f = false := by
  cases h with
  | root => exact .inl rfl
  | entry hd hdir hi hb hj hname => exact .inr hname

lemma IsFile.flat (hflat : ∀ i j, i < ndirect + nindirect → j < blkfiles → blockAt m Fs.root i ≠ 0 →
      m (fType (1024 * blockAt m Fs.root i + 64 * j)) ≠ ftypeDir) (h : IsFile m f) :
    f = Fs.root ∨ ∃ i j, i < ndirect + nindirect ∧ j < blkfiles ∧ blockAt m Fs.root i ≠ 0 ∧
      nameEmpty m (1024 * blockAt m Fs.root i + 64 * j) = false ∧ f = 1024 * blockAt m Fs.root i + 64 * j := by
  induction h with
  | root => exact .inl rfl
  | @entry d i j hd hdir hi hb hj hname ih =>
    rcases ih with rfl | ⟨i', j', hi', hj', hb', -, rfl⟩
    · exact .inr ⟨i, j, hi, hj, hb, hname, rfl⟩
    · exact absurd hdir (hflat i' j' hi' hj' hb')

variable (ho : Owned m)
include ho

lemma Owned.file_block (h : IsFile m f) : f / 1024 = 1 ∨ reservedEnd m ≤ f / 1024 ∧ f / 1024 < sNblocks m ∧
    blockIsFree m (f / 1024) = false := by
  rcases h.parent with rfl | ⟨d, i, href, -⟩
  · exact .inl (by decide)
  · have hr := ho.range _ _ href
    exact .inr ⟨hr.1, hr.2, by simpa using ho.exclusive.used _ _ href⟩

section
variable (h : IsFile m f) (hk : k < 64)
include h hk

lemma Owned.file_ne (hb : blockIsFree m b) : (f + k) / 1024 ≠ b := by
  rw [h.block hk]
  rintro rfl
  rcases ho.file_block h with h1 | ⟨-, -, hfree⟩
  · rw [h1, ho.reserved 1 (by have := two_le_reservedEnd m; omega)] at hb
    cases hb
  · rw [hfree] at hb
    cases hb

lemma Owned.file_not_bitmap (hb : b < sNblocks m) : f + k ≠ bitmapWord b := by
  intro heq
  have hres := bitmapWord_reserved hb
  rw [← heq, h.block hk] at hres
  rcases ho.file_block h with h1 | ⟨hle, -⟩ <;> omega

lemma Owned.file_not_super : f + k ≠ 1025 := by
  intro heq
  rcases h.parent with rfl | ⟨d, i, href, -⟩
  · unfold root at heq
    omega
  · have hr := (ho.range _ _ href).1
    have h2 := two_le_reservedEnd m
    have hblk := h.block hk
    omega

end

lemma Owned.file_inj {k' : Nat} (hf : IsFile m f) (hg : IsFile m g) (hk : k < 64) (hk' : k' < 64)
    (h : f + k = g + k') : f = g := by
  have hbf := hf.block hk
  have hbg := hg.block hk'
  have h2 := two_le_reservedEnd m
  rcases hf.parent with rfl | ⟨d, i, href, -, j, hj, hfj⟩
  · rcases hg.parent with rfl | ⟨d', i', href', -⟩
    · rfl
    · have hr := (ho.range _ _ href').1
      unfold root at h hbf
      omega
  · rcases hg.parent with rfl | ⟨d', i', href', -, j', hj', hgj⟩
    · have hr := (ho.range _ _ href).1
      unfold root at h hbg
      omega
    · omega

lemma Owned.indirect_ne (h : IsFile m f) (hg : IsFile m g) (hind : m (fIndirect g) ≠ 0) (hk : k < 64) :
    (f + k) / 1024 ≠ m (fIndirect g) := by
  rw [h.block hk]
  intro heq
  have hig : Refers m (.indirect g) (m (fIndirect g)) := ⟨hg, rfl, hind⟩
  rcases h.parent with rfl | ⟨d, i, href, -⟩
  · have hr := (ho.range _ _ hig).1
    have h2 := two_le_reservedEnd m
    unfold root at heq
    omega
  · rw [heq] at href
    cases ho.exclusive.unique _ _ _ href hig

lemma Owned.indirect_inj (hf : IsFile m f) (hg : IsFile m g) (hind : m (fIndirect f) ≠ 0)
    (h : m (fIndirect f) = m (fIndirect g)) : f = g := by
  have hs := ho.exclusive.unique (.indirect f) (.indirect g) (m (fIndirect f)) ⟨hf, rfl, hind⟩ ⟨hg, h.symm, hind⟩
  cases hs
  rfl

lemma Owned.indirect_block (hf : IsFile m f) (hind : m (fIndirect f) ≠ 0) :
    reservedEnd m ≤ m (fIndirect f) ∧ m (fIndirect f) < sNblocks m ∧ blockIsFree m (m (fIndirect f)) = false := by
  have href : Refers m (.indirect f) (m (fIndirect f)) := ⟨hf, rfl, hind⟩
  have hr := ho.range _ _ href
  exact ⟨hr.1, hr.2, by simpa using ho.exclusive.used _ _ href⟩

end

structure SameDirs (m m' : Mem) : Prop where
  type : ∀ f, IsFile m f → m' (fType f) = m (fType f)
  blocks : ∀ f i, IsFile m f → m (fType f) = ftypeDir → i < ndirect + nindirect → blockAt m f i ≠ 0 →
    blockAt m' f i = blockAt m f i
  fresh : ∀ f i j, IsFile m f → m (fType f) = ftypeDir → i < ndirect + nindirect → blockAt m f i = 0 →
    blockAt m' f i ≠ 0 → j < blkfiles → nameEmpty m' (1024 * blockAt m' f i + 64 * j) = true
  names : ∀ f i j, IsFile m f → m (fType f) = ftypeDir → i < ndirect + nindirect → blockAt m f i ≠ 0 →
    j < blkfiles → nameEmpty m' (1024 * blockAt m f i + 64 * j) = nameEmpty m (1024 * blockAt m f i + 64 * j)

lemma SameDirs.isFile_iff {m' : Mem} (h : SameDirs m m') : IsFile m' f ↔ IsFile m f := by
  constructor
  · intro hf
    induction hf with
    | root => exact .root
    | @entry d i j hd hdir hi hb hj hname ih =>
      rw [h.type d ih] at hdir
      by_cases h0 : blockAt m d i = 0
      · rw [h.fresh d i j ih hdir hi h0 hb hj] at hname
        cases hname
      · rw [h.blocks d i ih hdir hi h0] at hname ⊢
        rw [h.names d i j ih hdir hi h0 hj] at hname
        exact .entry ih hdir hi h0 hj hname
  · intro hf
    induction hf with
    | root => exact .root
    | @entry d i j hd hdir hi hb hj hname ih =>
      have heq := h.blocks d i hd hdir hi hb
      rw [← heq]
      refine .entry ih ((h.type d hd).trans hdir) hi (by rwa [heq]) hj ?_
      rw [heq, h.names d i j hd hdir hi hb hj]
      exact hname

def Slot.word (m : Mem) : Slot → Nat
  | .block f i => if i < ndirect then fDirect f i else 1024 * m (fIndirect f) + (i - ndirect)
  | .indirect f => fIndirect f

def Slot.file : Slot → Nat
  | .block f _ => f
  | .indirect f => f

def Slot.Exists (m : Mem) : Slot → Prop
  | .block f i => IsFile m f ∧ i < ndirect + nindirect ∧ (ndirect ≤ i → m (fIndirect f) ≠ 0)
  | .indirect f => IsFile m f

/-- What a slot holds. -/
def Slot.value (m : Mem) : Slot → Nat
  | .block f i => blockAt m f i
  | .indirect f => m (fIndirect f)

def Slot.InFile : Slot → Prop
  | .block _ i => i < ndirect + nindirect
  | .indirect _ => True

lemma refers_value {m : Mem} {s : Slot} {b : Nat} :
    Refers m s b ↔ (IsFile m s.file ∧ s.InFile) ∧ s.value m = b ∧ b ≠ 0 := by
  cases s with
  | block f i => exact and_assoc.symm
  | indirect f => exact and_congr_left' (and_iff_left trivial).symm

lemma blockAt_word (h : (Slot.block f i).Exists m) : blockAt m f i = m ((Slot.block f i).word m) := by
  obtain ⟨-, -, hind⟩ := h
  simp only [Slot.word]
  by_cases hi : i < ndirect
  · rw [if_pos hi, blockAt_direct hi]
  · have hi' : ndirect ≤ i := by omega
    rw [if_neg hi, blockAt_indirect hi' (hind hi')]

lemma value_word {s : Slot} (h : s.Exists m) : s.value m = m (s.word m) := by
  cases s with
  | block f i => exact blockAt_word h
  | indirect f => rfl

lemma Slot.Exists.inFile {s : Slot} (h : s.Exists m) : IsFile m s.file ∧ s.InFile := by
  cases s with
  | block f i => exact ⟨h.1, h.2.1⟩
  | indirect f => exact ⟨h, trivial⟩

lemma refers_iff {m : Mem} {s : Slot} {b : Nat} : Refers m s b ↔ s.Exists m ∧ m (s.word m) = b ∧ b ≠ 0 := by
  rw [refers_value]
  constructor
  · rintro ⟨hs, hb, h0⟩
    have hex : s.Exists m := by
      cases s with
      | block f i => exact ⟨hs.1, hs.2, fun hle hind => h0 (hb.symm.trans (blockAt_none hle hind))⟩
      | indirect f => exact hs.1
    exact ⟨hex, (value_word hex).symm.trans hb, h0⟩
  · rintro ⟨hex, hb, h0⟩
    exact ⟨hex.inFile, (value_word hex).trans hb, h0⟩

lemma Slot.word_cases {s : Slot} (h : s.Exists m) : IsFile m s.file ∧
    ((∃ k, 34 ≤ k ∧ k < 45 ∧ s.word m = s.file + k ∧ s = if k = 44 then .indirect s.file else .block s.file (k - 34)) ∨
      m (fIndirect s.file) ≠ 0 ∧ s.word m / 1024 = m (fIndirect s.file) ∧
        s = .block s.file (ndirect + s.word m % 1024)) := by
  cases s with
  | block f i =>
    obtain ⟨hf, hi, hind⟩ := h
    refine ⟨hf, ?_⟩
    simp only [Slot.word, Slot.file]
    by_cases hd : i < ndirect
    · rw [if_pos hd]
      unfold ndirect at hd
      refine .inl ⟨34 + i, by omega, by omega, by unfold fDirect; omega, ?_⟩
      rw [if_neg (by omega), Nat.add_sub_cancel_left]
    · rw [if_neg hd]
      refine .inr ⟨hind (by omega), ?_, ?_⟩
      · unfold ndirect nindirect at *
        omega
      · congr 1
        unfold ndirect nindirect at *
        omega
  | indirect f => exact ⟨h, .inl ⟨44, by decide, by decide, rfl, rfl⟩⟩

section
variable {m : Mem} (ho : Owned m)
include ho

section
variable {s : Slot} (h : s.Exists m)
include h

lemma Owned.word_ne_free (hb : blockIsFree m b) : s.word m / 1024 ≠ b := by
  obtain ⟨hf, ⟨k, -, hk, heq, -⟩ | ⟨hind, heq, -⟩⟩ := Slot.word_cases h
  · rw [heq]
    exact ho.file_ne hf (by omega) hb
  · rw [heq]
    rintro rfl
    rw [(ho.indirect_block hf hind).2.2] at hb
    cases hb

lemma Owned.word_ne_bitmap (hb : b < sNblocks m) : s.word m ≠ bitmapWord b := by
  obtain ⟨hf, ⟨k, -, hk, heq, -⟩ | ⟨hind, heq, -⟩⟩ := Slot.word_cases h
  · rw [heq]
    exact ho.file_not_bitmap hf (by omega) hb
  · intro h'
    have hres := bitmapWord_reserved hb
    have hblk := (ho.indirect_block hf hind).1
    rw [h'] at heq
    omega

lemma Owned.word_ne_super : s.word m ≠ 1025 := by
  obtain ⟨hf, ⟨k, -, hk, heq, -⟩ | ⟨hind, heq, -⟩⟩ := Slot.word_cases h
  · rw [heq]
    exact ho.file_not_super hf (by omega)
  · intro h'
    have hblk := (ho.indirect_block hf hind).1
    have h2 := two_le_reservedEnd m
    rw [h'] at heq
    omega

lemma Owned.field_ne_word (hf : IsFile m f) (hk : k < 64) (hne : k < 34 ∨ f ≠ s.file) : f + k ≠ s.word m := by
  intro heq
  obtain ⟨hg, ⟨k', hle, hk', hw, -⟩ | ⟨hind, hw, -⟩⟩ := Slot.word_cases h
  · have hfg := ho.file_inj hf hg hk (show k' < 64 by omega) (heq.trans hw)
    omega
  · rw [← heq] at hw
    exact ho.indirect_ne hf hg hind hk hw

lemma Owned.entry_ne_word {d c j : Nat} (href : Refers m (.block d i) c) (hj : j < blkfiles) (hk : k < 64)
    (hne : k < 34 ∨ 1024 * c + 64 * j ≠ s.file) : 1024 * c + 64 * j + k ≠ s.word m := by
  intro heq
  have hr := ho.range _ _ href
  have h2 := two_le_reservedEnd m
  have hc : (1024 * c + 64 * j + k) / 1024 = c := by
    unfold blkfiles at hj
    omega
  obtain ⟨hg, ⟨k', hle, hk', hw, -⟩ | ⟨hind, hw, -⟩⟩ := Slot.word_cases h
  · have hblk := hg.block (show k' < 64 by omega)
    rcases hg.parent with hroot | ⟨-, -, -, -, j', hj', hgj⟩
    · rw [hroot] at hblk hw
      unfold root at hblk hw
      omega
    · omega
  · rw [← heq, hc] at hw
    have hig : Refers m (.indirect s.file) c := ⟨hg, hw.symm, fun h0 => hind (hw ▸ h0)⟩
    cases ho.exclusive.unique _ _ _ href hig

end

lemma Owned.word_inj {s t : Slot} (hs : s.Exists m) (ht : t.Exists m) (h : s.word m = t.word m) : s = t := by
  obtain ⟨hf, ⟨k, -, hk, hw, hs⟩ | ⟨hind, hw, hs⟩⟩ := Slot.word_cases hs <;>
    obtain ⟨hg, ⟨k', -, hk', hw', ht⟩ | ⟨hind', hw', ht⟩⟩ := Slot.word_cases ht
  · have hfg := ho.file_inj hf hg (show k < 64 by omega) (show k' < 64 by omega) (by omega)
    rw [hs, ht, hfg, show k = k' by omega]
  · refine absurd ?_ (ho.indirect_ne hf hg hind' (show k < 64 by omega))
    rw [← hw, h, hw']
  · refine absurd ?_ (ho.indirect_ne hg hf hind (show k' < 64 by omega))
    rw [← hw', ← h, hw]
  · have hfg := ho.indirect_inj hf hg hind (by rw [← hw, h, hw'])
    rw [hs, ht, hfg, h]

end

structure Rewrites (m m' : Mem) (s : Slot) (v : Nat) : Prop where
  slot : m' (s.word m) = v
  other : ∀ t, t.Exists m → t ≠ s → m' (t.word m) = m (t.word m)
  field : ∀ f k, IsFile m f → k < 34 → m' (f + k) = m (f + k)
  entry : ∀ d i c j k, Refers m (.block d i) c → j < blkfiles → k < 64 → (k < 34 ∨ 1024 * c + 64 * j ≠ s.file) →
    m' (1024 * c + 64 * j + k) = m (1024 * c + 64 * j + k)

section
variable {m m' : Mem} {s : Slot} {v : Nat}

lemma Rewrites.indirect (h : Rewrites m m' s v) (hf : IsFile m f) :
    m' (fIndirect f) = if Slot.indirect f = s then v else m (fIndirect f) := by
  split
  · rename_i hs
    subst hs
    exact h.slot
  · rename_i hs
    exact h.other (.indirect f) hf hs

lemma Rewrites.blockAt (h : Rewrites m m' s v) (hf : IsFile m f) (hi : i < ndirect + nindirect)
    (hind : ndirect ≤ i → m (fIndirect f) ≠ 0 ∧ Slot.indirect f ≠ s) :
    blockAt m' f i = if Slot.block f i = s then v else blockAt m f i := by
  have hex : (Slot.block f i).Exists m := ⟨hf, hi, fun hle => (hind hle).1⟩
  have hword : Fs.blockAt m' f i = m' ((Slot.block f i).word m) := by
    simp only [Slot.word]
    by_cases hd : i < ndirect
    · rw [if_pos hd, blockAt_direct hd]
    · have hle : ndirect ≤ i := by omega
      have hkeep : m' (fIndirect f) = m (fIndirect f) := by rw [h.indirect hf, if_neg (hind hle).2]
      rw [if_neg hd, blockAt_indirect hle (by rw [hkeep]; exact (hind hle).1), hkeep]
  rw [hword]
  split
  · rename_i hs
    rw [hs]
    exact h.slot
  · rename_i hs
    rw [h.other _ hex hs, blockAt_word hex]

end

end Jos.Fs
