import Jos.Fs.Tree

/-!
# Attaching and detaching blocks

An empty slot is given a free block, which is zeroed; a slot gives its block back
to the bitmap. The references of the tree change in that one slot.
-/

namespace Jos.Fs
open WordMem CInt Ownership Function

variable {c d f i j : Nat}

structure Attached (m m' : Mem) (s : Slot) (b : Nat) : Prop where
  free : blockIsFree m b = true
  slot : m' (s.word m) = b
  clear : ∀ w, w / 1024 = b → m' w = 0
  bitmap : m' (bitmapWord b) = takeBlock m b (bitmapWord b)
  other : ∀ w, w ≠ s.word m → w / 1024 ≠ b → w ≠ bitmapWord b → m' w = m w

structure Detached (m m' : Mem) (s : Slot) (b : Nat) : Prop where
  slot : m' (s.word m) = 0
  bitmap : m' (bitmapWord b) = giveBlock m b (bitmapWord b)
  other : ∀ w, w ≠ s.word m → w ≠ bitmapWord b → m' w = m w

section
variable {m m' : Mem} {s : Slot} {b : Nat} (ho : Owned m)
include ho

lemma Owned.free_range (hb : blockIsFree m b) : reservedEnd m ≤ b ∧ b < sNblocks m := by
  refine ⟨?_, (blockIsFree_iff.mp hb).1⟩
  by_contra hlt
  rw [ho.reserved b (by omega)] at hb
  cases hb

lemma Owned.entry_block {k : Nat} (href : Refers m (.block d i) c) (hj : j < blkfiles) (hk : k < 64)
    (hlt : b < sNblocks m) : (1024 * c + 64 * j + k) / 1024 = c ∧ 1024 * c + 64 * j + k ≠ bitmapWord b := by
  have hc : (1024 * c + 64 * j + k) / 1024 = c := by
    unfold blkfiles at hj
    omega
  have hr := ho.range _ _ href
  have hres := bitmapWord_reserved hlt
  refine ⟨hc, fun heq => ?_⟩
  rw [← heq, hc] at hres
  omega

lemma attached_of_alloc (hs : s.Exists m) {m1 : Mem} (h : allocBlock m = some (b, m1)) :
    Attached m (clearBlock (update m1 (s.word m) b) (1024 * b)) s b := by
  obtain ⟨-, hlt, hfree, -, rfl⟩ := allocBlock_some h
  have hword := ho.word_ne_free hs hfree
  have hbm := ho.word_ne_bitmap hs hlt
  have hres := bitmapWord_reserved hlt
  have hr := (ho.free_range hfree).1
  refine ⟨hfree, ?_, fun w hw => clearBlock_self hw, ?_, fun w hw hwb hwm => ?_⟩
  · rw [clearBlock_of_ne hword, update_self]
  · rw [clearBlock_of_ne (by omega), update_of_ne (Ne.symm hbm)]
  · rw [clearBlock_of_ne hwb, update_of_ne hw, takeBlock_of_ne hwm]

end

lemma Rewrites.nameEmpty {m m' : Mem} {s : Slot} {v : Nat} (h : Rewrites m m' s v)
    (href : Refers m (.block d i) c) (hj : j < blkfiles) :
    nameEmpty m' (1024 * c + 64 * j) = nameEmpty m (1024 * c + 64 * j) := by
  unfold Fs.nameEmpty
  rw [getByte_congr]
  rw [Nat.mul_div_cancel_left _ (by decide)]
  exact h.entry d i c j 0 href hj (by decide) (.inl (by decide))

lemma block_ne_of_empty {m : Mem} {s : Slot} (hs : s.Exists m) (hempty : m (s.word m) = 0)
    (h0 : blockAt m f i ≠ 0) : Slot.block f i ≠ s := by
  rintro rfl
  rw [blockAt_word hs] at h0
  exact h0 hempty

namespace Attached
variable {m m' : Mem} {s : Slot} {b : Nat} (h : Attached m m' s b) (ho : Owned m) (hs : s.Exists m)
include h ho hs

lemma rewrites : Rewrites m m' s b := by
  have hlt := (blockIsFree_iff.mp h.free).1
  refine ⟨h.slot, fun t ht hne => ?_, fun f k hf hk => ?_, fun d i c j k href hj hk hne => ?_⟩
  · exact h.other _ (fun heq => hne (ho.word_inj ht hs heq)) (ho.word_ne_free ht h.free) (ho.word_ne_bitmap ht hlt)
  · exact h.other _ (ho.field_ne_word hs hf (by omega) (.inl hk)) (ho.file_ne hf (by omega) h.free)
      (ho.file_not_bitmap hf (by omega) hlt)
  · obtain ⟨hblk, hbm⟩ := ho.entry_block href hj hk hlt
    refine h.other _ (ho.entry_ne_word hs href hj hk hne) ?_ hbm
    rw [hblk]
    rintro rfl
    exact ho.exclusive.used _ _ href h.free

lemma sNblocks_eq : sNblocks m' = sNblocks m := by
  have hr := (ho.free_range h.free).1
  have h2 := two_le_reservedEnd m
  exact h.other 1025 (Ne.symm (ho.word_ne_super hs)) (by omega) (bitmapWord_ne b)

lemma reservedEnd_eq : reservedEnd m' = reservedEnd m := by
  unfold reservedEnd
  rw [h.sNblocks_eq ho hs]

lemma blockIsFree_iff (c : Nat) : blockIsFree m' c ↔ blockIsFree m c ∧ c ≠ b := by
  rw [← blockIsFree_takeBlock, Bool.eq_iff_iff.mp]
  refine blockIsFree_congr ?_ fun hc => ?_
  · rw [h.sNblocks_eq ho hs, sNblocks_takeBlock]
  · rw [sNblocks_takeBlock] at hc
    by_cases hw : bitmapWord c = bitmapWord b
    · rw [hw]
      exact h.bitmap
    · have hres := bitmapWord_reserved hc
      have hr := (ho.free_range h.free).1
      rw [takeBlock_of_ne hw]
      exact h.other _ (Ne.symm (ho.word_ne_bitmap hs hc)) (by omega) hw

lemma size_eq (hf : IsFile m f) : size m' f = size m f := by
  unfold size
  rw [show fSize f = f + 32 from rfl, (h.rewrites ho hs).field f 32 hf (by decide)]

variable (hempty : m (s.word m) = 0)
include hempty

lemma blockAt_eq (hf : IsFile m f) (hi : i < ndirect + nindirect) :
    blockAt m' f i = if Slot.block f i = s then b else blockAt m f i := by
  have hrw := h.rewrites ho hs
  by_cases hd : i < ndirect
  · exact hrw.blockAt hf hi fun hle => absurd hd (by omega)
  have hle : ndirect ≤ i := by omega
  by_cases hind : Slot.indirect f = s
  · -- the new indirect block is empty
    have hb0 : b ≠ 0 := by
      have := ho.free_range h.free
      have := two_le_reservedEnd m
      omega
    have hm' : m' (fIndirect f) = b := by rw [hrw.indirect hf, if_pos hind]
    have h0 : m (fIndirect f) = 0 := by
      rw [← hind] at hempty
      exact hempty
    have hne : Slot.block f i ≠ s := by
      rw [← hind]
      exact nofun
    rw [if_neg hne, blockAt_none hle h0, blockAt_indirect hle (by rwa [hm']), hm']
    refine h.clear _ ?_
    unfold ndirect nindirect at *
    omega
  by_cases h0 : m (fIndirect f) = 0
  · have hne : Slot.block f i ≠ s := by
      rintro rfl
      exact hs.2.2 hle h0
    have hm' : m' (fIndirect f) = 0 := by rw [hrw.indirect hf, if_neg hind, h0]
    rw [if_neg hne, blockAt_none hle h0, blockAt_none hle hm']
  · exact hrw.blockAt hf hi fun _ => ⟨h0, hind⟩

lemma sameDirs : SameDirs m m' := by
  have hrw := h.rewrites ho hs
  refine ⟨fun f hf => hrw.field f 33 hf (by decide), fun f i hf hdir hi h0 => ?_, fun f i j hf hdir hi h0 h0' hj => ?_,
    fun f i j hf hdir hi h0 hj => hrw.nameEmpty ⟨hf, hi, rfl, h0⟩ hj⟩
  · rw [h.blockAt_eq ho hs hempty hf hi, if_neg (block_ne_of_empty hs hempty h0)]
  · rw [h.blockAt_eq ho hs hempty hf hi] at h0' ⊢
    split at h0'
    · rename_i heq
      rw [if_pos heq]
      have hclear : m' (1024 * b + 64 * j) = 0 := by
        apply h.clear
        unfold blkfiles at hj
        omega
      unfold nameEmpty getByte
      rw [Nat.mul_div_cancel_left _ (by decide), hclear]
      simp [byteOf]
    · exact absurd h0 h0'

lemma isFile_iff (f : Nat) : IsFile m' f ↔ IsFile m f := (h.sameDirs ho hs hempty).isFile_iff

lemma refers_iff {t : Slot} {c : Nat} : Refers m' t c ↔ Refers m t c ∨ t = s ∧ c = b := by
  have hr := ho.free_range h.free
  have h2 := two_le_reservedEnd m
  have hvalue : ∀ t : Slot, IsFile m t.file ∧ t.InFile → t.value m' = if t = s then b else t.value m := by
    rintro (⟨f, i⟩ | f) ⟨hf, hi⟩
    · exact h.blockAt_eq ho hs hempty hf hi
    · exact (h.rewrites ho hs).indirect hf
  rw [refers_value, refers_value, h.isFile_iff ho hs hempty]
  constructor
  · rintro ⟨ht, hb, h0⟩
    rw [hvalue t ht] at hb
    split at hb
    · exact .inr ⟨‹_›, hb.symm⟩
    · exact .inl ⟨ht, hb, h0⟩
  · rintro (⟨ht, hb, h0⟩ | ⟨rfl, rfl⟩)
    · refine ⟨ht, ?_, h0⟩
      rw [hvalue t ht, if_neg, hb]
      rintro rfl
      exact h0 (hb.symm.trans ((value_word hs).trans hempty))
    · refine ⟨hs.inFile, ?_, by omega⟩
      rw [hvalue t hs.inFile, if_pos rfl]

lemma owned : Owned m' := by
  have hr := ho.free_range h.free
  constructor
  · refine ho.exclusive.attach (s := s) h.free (fun t c ht => ?_) fun c hc => (h.blockIsFree_iff ho hs c).mp hc
    exact (h.refers_iff ho hs hempty).mp ht
  · intro t c ht
    rw [h.reservedEnd_eq ho hs, h.sNblocks_eq ho hs]
    rcases (h.refers_iff ho hs hempty).mp ht with ht | ⟨-, rfl⟩
    · exact ho.range t c ht
    · exact hr
  · intro c hc
    rw [h.reservedEnd_eq ho hs] at hc
    by_contra hfree
    have hfree' := ((h.blockIsFree_iff ho hs c).mp (by simpa using hfree)).1
    rw [ho.reserved c hc] at hfree'
    cases hfree'

omit ho in
lemma agrees (ha : Agrees m) (htail : ∀ f i, s = .block f i → i < nblocks (size m f)) : Agrees m' := by
  have ho := ha.toOwned
  have hfile := h.isFile_iff ho hs hempty
  refine ⟨h.owned ho hs hempty, ?_, ?_⟩
  · rw [h.reservedEnd_eq ho hs, h.sNblocks_eq ho hs]
    refine ha.covers.attach (s := s) (b := b) (fun t c ht => (h.refers_iff ho hs hempty).mpr (.inl ht))
      ((h.refers_iff ho hs hempty).mpr (.inr ⟨rfl, rfl⟩)) fun c hc => ?_
    by_cases hcb : c = b
    · exact .inr hcb
    · exact .inl ((h.blockIsFree_iff ho hs c).mpr ⟨hc, hcb⟩)
  · intro f i hf hi hle
    have hf := (hfile f).mp hf
    rw [h.size_eq ho hs hf] at hle
    rw [h.blockAt_eq ho hs hempty hf hi]
    split
    · rename_i heq
      have := htail f i heq.symm
      omega
    · exact ha.tail f i hf hi hle

lemma unusedBlank {lo : Nat} (hu : UnusedBlank lo m) : UnusedBlank lo m' := by
  intro d i c j href hdir hj hempty' k hlo hk
  rcases (h.refers_iff ho hs hempty).mp href with hold | ⟨-, rfl⟩
  · have hrw := h.rewrites ho hs
    have hd : IsFile m d := hold.1
    rw [hrw.nameEmpty hold hj] at hempty'
    rw [show fType d = d + 33 from rfl, hrw.field d 33 hd (by decide)] at hdir
    have hne : 1024 * c + 64 * j ≠ s.file := by
      intro heq
      have hr := (ho.range _ _ hold).1
      have h2 := two_le_reservedEnd m
      have hfile := (Slot.word_cases hs).1
      rw [← heq] at hfile
      rcases hfile.named with hroot | hname
      · unfold root at hroot
        unfold blkfiles at hj
        omega
      · rw [hname] at hempty'
        cases hempty'
    rw [hrw.entry d i c j k hold hj (by omega) (.inr hne)]
    exact hu d i c j hold hdir hj hempty' k hlo hk
  · apply h.clear
    unfold blkfiles at hj
    omega

end Attached

namespace Detached
variable {m m' : Mem} {s : Slot} {b : Nat} (h : Detached m m' s b) (ho : Owned m) (href : Refers m s b)
include h ho href

lemma rewrites : Rewrites m m' s 0 := by
  obtain ⟨hs, -, -⟩ := Fs.refers_iff.mp href
  have hlt := (ho.range _ _ href).2
  refine ⟨h.slot, fun t ht hne => ?_, fun f k hf hk => ?_, fun d i c j k hc hj hk hne => ?_⟩
  · exact h.other _ (fun heq => hne (ho.word_inj ht hs heq)) (ho.word_ne_bitmap ht hlt)
  · exact h.other _ (ho.field_ne_word hs hf (by omega) (.inl hk)) (ho.file_not_bitmap hf (by omega) hlt)
  · exact h.other _ (ho.entry_ne_word hs hc hj hk hne) (ho.entry_block hc hj hk hlt).2

lemma sNblocks_eq : sNblocks m' = sNblocks m :=
  h.other 1025 (Ne.symm (ho.word_ne_super (Fs.refers_iff.mp href).1)) (bitmapWord_ne b)

lemma reservedEnd_eq : reservedEnd m' = reservedEnd m := by
  unfold reservedEnd
  rw [h.sNblocks_eq ho href]

lemma blockIsFree_iff (c : Nat) : blockIsFree m' c ↔ blockIsFree m c ∨ c = b := by
  have hgive : blockIsFree m' c = blockIsFree (giveBlock m b) c := by
    refine blockIsFree_congr ?_ fun hc => ?_
    · rw [h.sNblocks_eq ho href, sNblocks_giveBlock]
    · rw [sNblocks_giveBlock] at hc
      by_cases hw : bitmapWord c = bitmapWord b
      · rw [hw]
        exact h.bitmap
      · rw [giveBlock_of_ne hw]
        exact h.other _ (Ne.symm (ho.word_ne_bitmap (Fs.refers_iff.mp href).1 hc)) hw
  have hlt := (ho.range _ _ href).2
  rw [hgive, blockIsFree_giveBlock]
  constructor
  · rintro (hc | ⟨hc, -⟩)
    · exact .inl hc
    · exact .inr hc
  · rintro (hc | rfl)
    · exact .inl hc
    · exact .inr ⟨rfl, hlt⟩

lemma size_eq (hf : IsFile m f) : size m' f = size m f := by
  unfold size
  rw [show fSize f = f + 32 from rfl, (h.rewrites ho href).field f 32 hf (by decide)]

lemma blockAt_eq (hf : IsFile m f) (hi : i < ndirect + nindirect) :
    blockAt m' f i = if Slot.block f i = s ∨ Slot.indirect f = s ∧ ndirect ≤ i then 0 else blockAt m f i := by
  have hrw := h.rewrites ho href
  by_cases hd : i < ndirect
  · rw [hrw.blockAt hf hi fun hle => absurd hd (by omega)]
    have hiff : (Slot.block f i = s ∨ Slot.indirect f = s ∧ ndirect ≤ i) ↔ Slot.block f i = s := by
      constructor
      · rintro (hs | ⟨-, hle⟩)
        · exact hs
        · omega
      · exact .inl
    simp only [hiff]
  have hle : ndirect ≤ i := by omega
  by_cases hind : Slot.indirect f = s
  · have hm' : m' (fIndirect f) = 0 := by rw [hrw.indirect hf, if_pos hind]
    rw [if_pos (.inr ⟨hind, hle⟩), blockAt_none hle hm']
  by_cases h0 : m (fIndirect f) = 0
  · have hm' : m' (fIndirect f) = 0 := by rw [hrw.indirect hf, if_neg hind, h0]
    rw [blockAt_none hle hm', blockAt_none hle h0, ite_self]
  · rw [hrw.blockAt hf hi fun _ => ⟨h0, hind⟩]
    simp only [hind, false_and, or_false]

lemma blockAt_of_ne (hf : IsFile m f) (hi : i < ndirect + nindirect) (hne : blockAt m' f i ≠ 0) :
    blockAt m' f i = blockAt m f i := by
  rw [h.blockAt_eq ho href hf hi] at hne ⊢
  split at hne
  · exact absurd rfl hne
  · rename_i hn
    rw [if_neg hn]

lemma isFile_of (hf : IsFile m' f) : IsFile m f := by
  have hrw := h.rewrites ho href
  induction hf with
  | root => exact .root
  | @entry d i j hd hdir hi hb hj hname ih =>
    have heq := h.blockAt_of_ne ho href ih hi hb
    rw [heq] at hb hname ⊢
    rw [show fType d = d + 33 from rfl, hrw.field d 33 ih (by decide)] at hdir
    rw [hrw.nameEmpty ⟨ih, hi, rfl, hb⟩ hj] at hname
    exact .entry ih hdir hi hb hj hname

lemma refers_of {t : Slot} (ht : Refers m' t c) : Refers m t c ∧ t ≠ s := by
  cases t with
  | block f i =>
    obtain ⟨hf, hi, hb, h0⟩ := ht
    have hf := h.isFile_of ho href hf
    rw [h.blockAt_eq ho href hf hi] at hb
    split at hb
    · exact absurd hb.symm h0
    · rename_i hn
      exact ⟨⟨hf, hi, hb, h0⟩, fun heq => hn (.inl heq)⟩
  | indirect f =>
    obtain ⟨hf, hb, h0⟩ := ht
    have hf := h.isFile_of ho href hf
    rw [(h.rewrites ho href).indirect hf] at hb
    split at hb
    · exact absurd hb.symm h0
    · rename_i hn
      exact ⟨⟨hf, hb, h0⟩, hn⟩

lemma owned : Owned m' := by
  constructor
  · exact ho.exclusive.detach href (fun t c => h.refers_of ho href) fun c hc => (h.blockIsFree_iff ho href c).mp hc
  · intro t c ht
    rw [h.reservedEnd_eq ho href, h.sNblocks_eq ho href]
    exact ho.range t c (h.refers_of ho href ht).1
  · intro c hc
    rw [h.reservedEnd_eq ho href] at hc
    by_contra hfree
    rcases (h.blockIsFree_iff ho href c).mp (by simpa using hfree) with hf | rfl
    · rw [ho.reserved c hc] at hf
      cases hf
    · have := (ho.range _ _ href).1
      omega

lemma isFile_self (hf : IsFile m s.file) : IsFile m' s.file := by
  have hrw := h.rewrites ho href
  have hreach : ∀ g, IsFile m g → IsFile m' g ∨ IsFile m' s.file := by
    intro g hg
    induction hg with
    | root => exact .inl .root
    | @entry d i j hd hdir hi hb hj hname ih =>
      by_cases hds : d = s.file
      · subst hds
        exact .inr (ih.elim id id)
      rcases ih with ih | ih
      · refine .inl ?_
        have heq : blockAt m' d i = blockAt m d i := by
          rw [h.blockAt_eq ho href hd hi, if_neg]
          rintro (hs | ⟨hs, -⟩) <;> exact hds (congrArg Slot.file hs)
        rw [← heq]
        refine .entry ih ((hrw.field d 33 hd (by decide)).trans hdir) hi (by rwa [heq]) hj ?_
        rw [heq, hrw.nameEmpty ⟨hd, hi, rfl, hb⟩ hj]
        exact hname
      · exact .inr ih
  exact (hreach _ hf).elim id id

variable (hreg : m (fType s.file) ≠ ftypeDir)
include hreg

lemma sameDirs : SameDirs m m' := by
  have hrw := h.rewrites ho href
  have hkeep : ∀ f i, IsFile m f → m (fType f) = ftypeDir → i < ndirect + nindirect →
      blockAt m' f i = blockAt m f i := by
    intro f i hf hdir hi
    rw [h.blockAt_eq ho href hf hi, if_neg]
    rintro (hs | ⟨hs, -⟩) <;> exact hreg (congrArg Slot.file hs ▸ hdir)
  refine ⟨fun f hf => hrw.field f 33 hf (by decide), fun f i hf hdir hi _ => hkeep f i hf hdir hi,
    fun f i j hf hdir hi h0 h0' _ => ?_, fun f i j hf hdir hi h0 hj => hrw.nameEmpty ⟨hf, hi, rfl, h0⟩ hj⟩
  exact absurd ((hkeep f i hf hdir hi).trans h0) h0'

lemma isFile_iff (f : Nat) : IsFile m' f ↔ IsFile m f := (h.sameDirs ho href hreg).isFile_iff

omit ho in
lemma agrees (ha : Agrees m) (hzero : ∀ f, s = .indirect f → ∀ i, ndirect ≤ i → i < ndirect + nindirect → blockAt m f i = 0) :
    Agrees m' := by
  have ho := ha.toOwned
  have hfile := h.isFile_iff ho href hreg
  refine ⟨h.owned ho href, ?_, ?_⟩
  · rw [h.reservedEnd_eq ho href, h.sNblocks_eq ho href]
    refine ha.covers.detach (b := b) (fun t c ht => ?_) ((h.blockIsFree_iff ho href b).mpr (.inr rfl))
      fun c hc => (h.blockIsFree_iff ho href c).mpr (.inl hc)
    by_cases hts : t = s
    · subst hts
      obtain ⟨-, hb, -⟩ := Fs.refers_iff.mp href
      obtain ⟨-, hc, -⟩ := Fs.refers_iff.mp ht
      exact .inr (hc.symm.trans hb)
    · refine .inl ?_
      cases t with
      | block f i =>
        obtain ⟨hf, hi, hb, h0⟩ := ht
        refine ⟨(hfile f).mpr hf, hi, ?_, h0⟩
        rw [h.blockAt_eq ho href hf hi, if_neg, hb]
        rintro (heq | ⟨heq, hle⟩)
        · exact hts heq
        · exact h0 (hb.symm.trans (hzero f heq.symm i hle hi))
      | indirect f =>
        obtain ⟨hf, hb, h0⟩ := ht
        refine ⟨(hfile f).mpr hf, ?_, h0⟩
        rw [(h.rewrites ho href).indirect hf, if_neg hts, hb]
  · intro f i hf hi hle
    have hf := (hfile f).mp hf
    rw [h.size_eq ho href hf] at hle
    rw [h.blockAt_eq ho href hf hi, ha.tail f i hf hi hle, ite_self]

end Detached

structure SameTree (m m' : Mem) : Prop where
  slot : ∀ s : Slot, s.Exists m → m' (s.word m) = m (s.word m)
  type : ∀ f, IsFile m f → m' (fType f) = m (fType f)
  names : ∀ d i c j, Refers m (.block d i) c → m (fType d) = ftypeDir → j < blkfiles →
    nameEmpty m' (1024 * c + 64 * j) = nameEmpty m (1024 * c + 64 * j)

namespace SameTree
variable {m m' : Mem} (h : SameTree m m')
include h

lemma blockAt_eq (hf : IsFile m f) (hi : i < ndirect + nindirect) : blockAt m' f i = blockAt m f i := by
  have hword : ∀ (_ : ndirect ≤ i → m (fIndirect f) ≠ 0), m' ((Slot.block f i).word m) = m ((Slot.block f i).word m) :=
    fun hind => h.slot (.block f i) ⟨hf, hi, hind⟩
  refine blockAt_congr (fun hd => ?_) (h.slot (.indirect f) hf) fun hle hind => ?_
  · have heq := hword fun hle => absurd hd (by omega)
    simpa only [Slot.word, if_pos hd] using heq
  · have heq := hword fun _ => hind
    simpa only [Slot.word, if_neg (show ¬ i < ndirect by omega)] using heq

lemma isFile_iff (f : Nat) : IsFile m' f ↔ IsFile m f := by
  refine SameDirs.isFile_iff ⟨h.type, fun f i hf _ hi _ => h.blockAt_eq hf hi, fun f i j hf _ hi h0 h0' _ => ?_,
    fun f i j hf hdir hi h0 hj => h.names f i _ j ⟨hf, hi, rfl, h0⟩ hdir hj⟩
  exact absurd ((h.blockAt_eq hf hi).trans h0) h0'

lemma refers_iff {s : Slot} {b : Nat} : Refers m' s b ↔ Refers m s b := by
  have hvalue : IsFile m s.file ∧ s.InFile → s.value m' = s.value m := by
    rintro ⟨hf, hi⟩
    cases s with
    | block f i => exact h.blockAt_eq hf hi
    | indirect f => exact h.slot (.indirect f) hf
  rw [refers_value, refers_value, h.isFile_iff]
  exact and_congr_right fun hs => by rw [hvalue hs]

variable (hn : sNblocks m' = sNblocks m) (hfree : ∀ c, blockIsFree m' c = blockIsFree m c)
include hn hfree

lemma owned (ho : Owned m) : Owned m' := by
  have hres : reservedEnd m' = reservedEnd m := by
    unfold reservedEnd
    rw [hn]
  refine ⟨?_, fun s b hs => ?_, fun b hb => ?_⟩
  · exact ho.exclusive.mono (fun t c => h.refers_iff.mp) fun c hc => by rwa [hfree] at hc
  · rw [hres, hn]
    exact ho.range s b (h.refers_iff.mp hs)
  · rw [hfree]
    exact ho.reserved b (by rwa [hres] at hb)

lemma agrees (ha : Agrees m)
    (htail : ∀ f i, IsFile m f → i < ndirect + nindirect → nblocks (size m' f) ≤ i → blockAt m f i = 0) : Agrees m' := by
  have hres : reservedEnd m' = reservedEnd m := by
    unfold reservedEnd
    rw [hn]
  refine ⟨h.owned hn hfree ha.toOwned, ?_, ?_⟩
  · rw [hres, hn]
    intro b hb
    rcases ha.covers b hb with hb | ⟨s, hs⟩
    · exact .inl ((hfree b).trans hb)
    · exact .inr ⟨s, h.refers_iff.mpr hs⟩
  · intro f i hf hi hle
    have hf := (h.isFile_iff f).mp hf
    rw [h.blockAt_eq hf hi]
    exact htail f i hf hi hle

end SameTree

section
variable {m : Mem} (ho : Owned m) {f : Nat} (hf : IsFile m f)
include ho hf

lemma Owned.entry_inj {k k' : Nat} (href : Refers m (.block d i) c) (hj : j < blkfiles) (hk : k < 64)
    (hk' : k' < 64) (heq : 1024 * c + 64 * j + k' = f + k) : f = 1024 * c + 64 * j := by
  have hr := ho.range _ _ href
  have h2 := two_le_reservedEnd m
  have hblk := hf.block hk
  rcases hf.parent with rfl | ⟨-, -, -, -, j', hj', hfj⟩
  · unfold root at heq
    unfold blkfiles at hj
    omega
  · omega

lemma sNblocks_resize (v : Nat) : sNblocks (update m (fSize f) v) = sNblocks m :=
  update_of_ne (Ne.symm (ho.file_not_super hf (k := 32) (by decide))) _ _

lemma blockIsFree_resize (v c : Nat) : blockIsFree (update m (fSize f) v) c = blockIsFree m c := by
  refine blockIsFree_congr (sNblocks_resize ho hf v) fun hc => ?_
  exact update_of_ne (Ne.symm (ho.file_not_bitmap hf (k := 32) (by decide) hc)) _ _

lemma sameTree_resize (v : Nat) : SameTree m (update m (fSize f) v) := by
  refine ⟨fun s hs => ?_, fun g hg => ?_, fun d i c j href _ hj => ?_⟩
  · exact update_of_ne (Ne.symm (ho.field_ne_word hs hf (k := 32) (by decide) (.inl (by decide)))) _ _
  · refine update_of_ne (fun heq => ?_) _ _
    have hgf := ho.file_inj hg hf (show 33 < 64 by decide) (show 32 < 64 by decide) heq
    subst hgf
    unfold fType fSize at heq
    omega
  · unfold nameEmpty
    rw [getByte_congr]
    rw [Nat.mul_div_cancel_left _ (by decide)]
    refine update_of_ne (fun heq => ?_) _ _
    have hfe := ho.entry_inj hf href hj (show 32 < 64 by decide) (show 0 < 64 by decide) heq
    unfold fSize at heq
    omega

lemma owned_resize (v : Nat) : Owned (update m (fSize f) v) :=
  (sameTree_resize ho hf v).owned (sNblocks_resize ho hf v) (blockIsFree_resize ho hf v) ho

omit ho in
lemma agrees_resize (ha : Agrees m) {n : Int} (hn0 : -2147483648 ≤ n) (hn1 : n < 2147483648)
    (htail : ∀ i, i < ndirect + nindirect → nblocks n ≤ i → blockAt m f i = 0) :
    Agrees (update m (fSize f) (toU32 n)) := by
  have ho := ha.toOwned
  refine (sameTree_resize ho hf _).agrees (sNblocks_resize ho hf _) (blockIsFree_resize ho hf _) ha fun g i hg hi hle => ?_
  unfold size at hle
  by_cases hgf : g = f
  · subst hgf
    rw [update_self, toI32_toU32, toI32_of_range hn0 hn1] at hle
    exact htail i hi hle
  · have hne : fSize g ≠ fSize f := fun heq =>
      hgf (ho.file_inj hg hf (show 32 < 64 by decide) (show 32 < 64 by decide) heq)
    rw [update_of_ne hne] at hle
    exact ha.tail g i hg hi hle

end

end Jos.Fs
