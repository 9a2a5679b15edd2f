import Jos.Fs.Attach

/-!
# What the block functions do to the tree

On a disk whose references are exclusive `file_get_block` and `file_free_block`
never crash. The first attaches at most the indirect block and the block asked
for; the second detaches at most the block given.
-/

namespace Jos.Fs
open WordMem CInt Ownership Function
open Relation (ReflTransGen)

variable {b f i : Nat} {m : Mem} {s : Slot}

/-- Block `filebno` of `f` cannot be reached: there is no slot for it and none can be made. -/
def NoWalk (m : Mem) (f filebno : Nat) : Prop :=
  ndirect + nindirect ≤ filebno ∨ ndirect ≤ filebno ∧ m (fIndirect f) = 0 ∧ allocBlock m = none

def AttachStep (f filebno : Nat) (m m' : Mem) : Prop :=
  ∃ s b, s.Exists m ∧ m (s.word m) = 0 ∧ Attached m m' s b ∧
    (s = .block f filebno ∨ s = .indirect f ∧ ndirect ≤ filebno ∧ filebno < ndirect + nindirect)

section
variable {m m' : Mem} {f bno : Nat}

section
variable (h : AttachStep f bno m m')
include h

lemma AttachStep.owned (ho : Owned m) : Owned m' := by
  obtain ⟨s, b, hs, hempty, hatt, -⟩ := h
  exact hatt.owned ho hs hempty

lemma AttachStep.isFile_iff (ho : Owned m) (g : Nat) : IsFile m' g ↔ IsFile m g := by
  obtain ⟨s, b, hs, hempty, hatt, -⟩ := h
  exact hatt.isFile_iff ho hs hempty g

lemma AttachStep.field (ho : Owned m) {g k : Nat} (hg : IsFile m g) (hk : k < 34) : m' (g + k) = m (g + k) := by
  obtain ⟨s, b, hs, -, hatt, -⟩ := h
  exact (hatt.rewrites ho hs).field g k hg hk

lemma AttachStep.agrees (ha : Agrees m) (hbno : bno < nblocks (size m f)) : Agrees m' := by
  obtain ⟨s, b, hs, hempty, hatt, hslot⟩ := h
  refine hatt.agrees hs hempty ha fun g i heq => ?_
  rcases hslot with rfl | ⟨rfl, -⟩
  · cases heq
    exact hbno
  · cases heq

lemma AttachStep.refers (ho : Owned m) {t : Slot} {c : Nat} (ht : Refers m t c) : Refers m' t c := by
  obtain ⟨s, b, hs, hempty, hatt, -⟩ := h
  exact (hatt.refers_iff ho hs hempty).mpr (.inl ht)

lemma AttachStep.unusedBlank (ho : Owned m) {lo : Nat} (hu : UnusedBlank lo m) : UnusedBlank lo m' := by
  obtain ⟨s, b, hs, hempty, hatt, -⟩ := h
  exact hatt.unusedBlank ho hs hempty hu

end

structure GrownFrom (m m' : Mem) : Prop where
  owned : Owned m'
  isFile_iff : ∀ g, IsFile m' g ↔ IsFile m g
  field : ∀ g k, IsFile m g → k < 34 → m' (g + k) = m (g + k)
  refers : ∀ t c, Refers m t c → Refers m' t c
  unusedBlank : ∀ lo, UnusedBlank lo m → UnusedBlank lo m'

lemma GrownFrom.refl (ho : Owned m) : GrownFrom m m :=
  ⟨ho, fun _ => Iff.rfl, fun _ _ _ _ => rfl, fun _ _ ht => ht, fun _ hu => hu⟩

lemma GrownFrom.trans {m1 : Mem} (h : GrownFrom m m1) (h' : GrownFrom m1 m') : GrownFrom m m' := by
  refine ⟨h'.owned, fun g => (h'.isFile_iff g).trans (h.isFile_iff g), fun g k hg hk => ?_,
    fun t c ht => h'.refers t c (h.refers t c ht), fun lo hu => h'.unusedBlank lo (h.unusedBlank lo hu)⟩
  rw [h'.field g k ((h.isFile_iff g).mpr hg) hk, h.field g k hg hk]

lemma AttachStep.grownFrom (h : AttachStep f bno m m') (ho : Owned m) : GrownFrom m m' :=
  ⟨h.owned ho, h.isFile_iff ho, fun _ _ => h.field ho, fun _ _ => h.refers ho, fun _ => h.unusedBlank ho⟩

lemma AttachStep.run (h : ReflTransGen (AttachStep f bno) m m') (ho : Owned m) : GrownFrom m m' := by
  induction h with
  | refl => exact .refl ho
  | tail _ hstep ih => exact ih.trans (hstep.grownFrom ih.owned)

lemma GrownFrom.size_eq (h : GrownFrom m m') {g : Nat} (hg : IsFile m g) : size m' g = size m g := by
  unfold size
  rw [show fSize g = g + 32 from rfl, h.field g 32 hg (by decide)]

lemma GrownFrom.type_eq (h : GrownFrom m m') {g : Nat} (hg : IsFile m g) : m' (fType g) = m (fType g) :=
  h.field g 33 hg (by decide)

lemma AttachStep.run_agrees (h : ReflTransGen (AttachStep f bno) m m') (ha : Agrees m) (hf : IsFile m f)
    (hbno : bno < nblocks (size m f)) : Agrees m' := by
  induction h with
  | refl => exact ha
  | tail hrun hstep ih =>
    refine hstep.agrees ih ?_
    rw [(AttachStep.run hrun ha.toOwned).size_eq hf]
    exact hbno

end

lemma diskaddr_refers (ho : Owned m) (hs : Refers m s b) : diskaddr b m = .ok (1024 * b) := by
  have hr := ho.range _ _ hs
  have h2 := two_le_reservedEnd m
  exact diskaddr_eq (by omega) hr.2

lemma alloc_attaches {m1 : Mem} (ho : Owned m) (hs : s.Exists m) {r : Nat}
    (h : allocBlock m = some (r, m1)) : diskaddr r (update m1 (s.word m) r) = .ok (1024 * r) ∧
      Attached m (clearBlock (update m1 (s.word m) r) (1024 * r)) s r ∧
      clearBlock (update m1 (s.word m) r) (1024 * r) (s.word m) = r ∧
      diskaddr r (clearBlock (update m1 (s.word m) r) (1024 * r)) = .ok (1024 * r) ∧ r ≠ 0 := by
  have hatt := attached_of_alloc ho hs h
  obtain ⟨h2, hlt, -, -, rfl⟩ := allocBlock_some h
  have hr0 : r ≠ 0 := by omega
  have hnb : sNblocks (update (takeBlock m r) (s.word m) r) = sNblocks m := by
    unfold sNblocks
    rw [update_of_ne (Ne.symm (ho.word_ne_super hs))]
    exact sNblocks_takeBlock m r
  exact ⟨diskaddr_eq hr0 (by rwa [hnb]), hatt, hatt.slot, diskaddr_eq hr0 (by rwa [hatt.sNblocks_eq ho hs]), hr0⟩

lemma fileGetBlock_present (hi : i < ndirect + nindirect) (hb : blockAt m f i = b) (h0 : b ≠ 0)
    (hlt : b < sNblocks m) (hind : ndirect ≤ i → m (fIndirect f) < sNblocks m) :
    fileGetBlock f i m = .ok (0, some (1024 * b), m) := by
  have hslot : ∃ slot, fileBlockWalk f i true m = .ok (.ok slot, m) ∧ m slot = b := by
    unfold fileBlockWalk
    rw [if_neg (by omega)]
    by_cases hd : i < ndirect
    · rw [if_pos hd]
      rw [blockAt_direct hd] at hb
      exact ⟨_, rfl, hb⟩
    · have hne : m (fIndirect f) ≠ 0 := by
        intro h
        rw [blockAt_none (by omega) h] at hb
        exact h0 hb.symm
      rw [blockAt_indirect (by omega) hne] at hb
      rw [if_neg hd, if_neg hne, diskaddr_eq hne (hind (by omega)), ok_bind]
      refine ⟨_, rfl, ?_⟩
      rw [Nat.add_sub_assoc (by omega)]
      exact hb
  obtain ⟨slot, hwalk, hval⟩ := hslot
  unfold fileGetBlock
  rw [hwalk, ok_bind]
  dsimp only
  rw [hval, if_neg h0, diskaddr_eq h0 hlt]
  rfl

section
variable {m : Mem} {f : Nat} (ho : Owned m) (hf : IsFile m f) (bno : Nat)
include ho hf

lemma fileBlockWalk_spec : ∃ slot m', fileBlockWalk f bno true m = .ok (slot, m') ∧
    ((∃ r, slot = .error r) ∧ m' = m ∧ NoWalk m f bno ∨
      ¬ NoWalk m f bno ∧ slot = .ok ((Slot.block f bno).word m') ∧ (Slot.block f bno).Exists m' ∧
        ReflTransGen (AttachStep f bno) m m' ∧ blockAt m' f bno = blockAt m f bno) := by
  unfold fileBlockWalk
  by_cases hbig : ndirect + nindirect ≤ bno
  · rw [if_pos hbig]
    exact ⟨_, _, rfl, .inl ⟨⟨_, rfl⟩, rfl, .inl hbig⟩⟩
  rw [if_neg hbig]
  by_cases hd : bno < ndirect
  · rw [if_pos hd]
    have hn : ¬ NoWalk m f bno := by
      rintro (h | ⟨h, -⟩) <;> omega
    refine ⟨_, _, rfl, .inr ⟨hn, ?_, ⟨hf, by omega, fun hle => absurd hd (by omega)⟩, .refl, rfl⟩⟩
    simp only [Slot.word, if_pos hd]
  rw [if_neg hd]
  have hword : ∀ m', (1024 * m' (fIndirect f) + bno - ndirect) = (Slot.block f bno).word m' := by
    intro m'
    simp only [Slot.word, if_neg hd]
    omega
  by_cases hind : m (fIndirect f) = 0
  · rw [if_pos hind, if_neg (by decide)]
    cases halloc : allocBlock m with
    | none =>
      have hno : NoWalk m f bno := .inr ⟨by omega, hind, halloc⟩
      exact ⟨_, _, rfl, .inl ⟨⟨_, rfl⟩, rfl, hno⟩⟩
    | some p =>
      obtain ⟨r, m1⟩ := p
      have hn : ¬ NoWalk m f bno := by
        rintro (h | ⟨-, -, h⟩)
        · exact hbig h
        · rw [halloc] at h
          cases h
      have hempty : m ((Slot.indirect f).word m) = 0 := hind
      obtain ⟨haddr, hatt, hslot, haddr', hr0⟩ := alloc_attaches ho (s := .indirect f) hf halloc
      change Attached m (clearBlock (update m1 (fIndirect f) r) (1024 * r)) (.indirect f) r at hatt
      simp only [Slot.word] at haddr hslot haddr'
      refine ⟨.ok ((Slot.block f bno).word (clearBlock (update m1 (fIndirect f) r) (1024 * r))), _, ?_,
        .inr ⟨hn, rfl, ?_, ?_, ?_⟩⟩
      · simp only [haddr, bind, Except.bind, hslot, haddr', ← hword, pure, Except.pure]
      · refine ⟨(hatt.isFile_iff ho hf hempty f).mpr hf, by omega, fun _ => ?_⟩
        rw [hslot]
        exact hr0
      · exact .single ⟨.indirect f, r, hf, hempty, hatt, .inr ⟨rfl, by omega, by omega⟩⟩
      · rw [hatt.blockAt_eq ho hf hempty hf (by omega), if_neg (by simp)]
  · rw [if_neg hind, diskaddr_refers ho (s := .indirect f) ⟨hf, rfl, hind⟩]
    have hn : ¬ NoWalk m f bno := by
      rintro (h | ⟨-, h, -⟩)
      · exact hbig h
      · exact hind h
    refine ⟨_, _, rfl, .inr ⟨hn, ?_, ⟨hf, by omega, fun _ => hind⟩, .refl, rfl⟩⟩
    rw [hword]

lemma fileGetBlock_spec : ∃ r blk m', fileGetBlock f bno m = .ok (r, blk, m') ∧ ReflTransGen (AttachStep f bno) m m' ∧
    (r = 1 ∧ blk = none ∧ m' = m ∧ NoWalk m f bno ∨
      r = -eNoDisk ∧ blk = none ∧ ¬ NoWalk m f bno ∧ blockAt m' f bno = 0 ∧ allocBlock m' = none ∧
        (Slot.block f bno).Exists m' ∨
      r = 0 ∧ blk = some (1024 * blockAt m' f bno) ∧ ¬ NoWalk m f bno ∧ blockAt m' f bno ≠ 0) := by
  obtain ⟨slot, m1, hwalk, ⟨⟨r, rfl⟩, rfl, hno⟩ | ⟨hyes, rfl, hex, hrun, -⟩⟩ := fileBlockWalk_spec ho hf bno
  · refine ⟨1, none, m1, ?_, .refl, .inl ⟨rfl, rfl, rfl, hno⟩⟩
    simp only [fileGetBlock, hwalk, bind, Except.bind, pure, Except.pure]
  have hgrown := AttachStep.run hrun ho
  have hf1 := (hgrown.isFile_iff f).mpr hf
  have hword := blockAt_word hex
  by_cases h0 : m1 ((Slot.block f bno).word m1) = 0
  · cases halloc : allocBlock m1 with
    | none =>
      refine ⟨-eNoDisk, none, m1, ?_, hrun, .inr (.inl ⟨rfl, rfl, hyes, ?_, halloc, hex⟩)⟩
      · simp only [fileGetBlock, hwalk, bind, Except.bind, pure, Except.pure, if_pos h0, halloc]
      · rw [hword, h0]
    | some p =>
      obtain ⟨r, m2⟩ := p
      obtain ⟨haddr, hatt, hslot, haddr', hr0⟩ := alloc_attaches hgrown.owned hex halloc
      have hnew := hatt.blockAt_eq hgrown.owned hex h0 hf1 hex.2.1
      rw [if_pos rfl] at hnew
      refine ⟨0, some (1024 * r), _, ?_, hrun.tail ⟨_, r, hex, h0, hatt, .inl rfl⟩,
        .inr (.inr ⟨rfl, by rw [hnew], hyes, by rwa [hnew]⟩)⟩
      simp only [fileGetBlock, hwalk, bind, Except.bind, pure, Except.pure, if_pos h0, halloc, haddr, hslot, haddr']
  · rw [← hword] at h0
    have href : Refers m1 (.block f bno) (blockAt m1 f bno) := ⟨hf1, hex.2.1, rfl, h0⟩
    refine ⟨0, some (1024 * blockAt m1 f bno), m1, ?_, hrun, .inr (.inr ⟨rfl, rfl, hyes, h0⟩)⟩
    simp only [fileGetBlock, hwalk, bind, Except.bind, pure, Except.pure, ← hword, if_neg h0,
      diskaddr_refers hgrown.owned href]

end

lemma NoWalk.mono {j : Nat} (h : NoWalk m f i) (hij : i ≤ j) : NoWalk m f j :=
  h.imp (fun hi => le_trans hi hij) fun hi => ⟨le_trans hi.1 hij, hi.2⟩

lemma fileGetBlock_noWalk (ho : Owned m) (hf : IsFile m f) (h : NoWalk m f i) :
    fileGetBlock f i m = .ok (1, none, m) := by
  obtain ⟨r, blk, m', hget, -, ⟨rfl, rfl, rfl, -⟩ | ⟨-, -, hno, -⟩ | ⟨-, -, hno, -⟩⟩ := fileGetBlock_spec ho hf i
  · exact hget
  · exact absurd h hno
  · exact absurd h hno

def DetachStep (f : Nat) (m m' : Mem) : Prop := ∃ s b, s.file = f ∧ Refers m s b ∧ Detached m m' s b

structure ShrunkFrom (f : Nat) (m m' : Mem) : Prop where
  owned : Owned m'
  isFile : IsFile m' f
  isFile_of : ∀ g, IsFile m' g → IsFile m g
  field : ∀ g k, IsFile m' g → k < 34 → m' (g + k) = m (g + k)

lemma DetachStep.run {m' : Mem} (h : ReflTransGen (DetachStep f) m m') (ho : Owned m) (hf : IsFile m f) :
    ShrunkFrom f m m' := by
  induction h with
  | refl => exact ⟨ho, hf, fun _ hg => hg, fun _ _ _ _ => rfl⟩
  | tail _ hstep ih =>
    obtain ⟨s, b, hsf, href, hdet⟩ := hstep
    have hof := fun g => hdet.isFile_of ih.owned href (f := g)
    refine ⟨hdet.owned ih.owned href, ?_, fun g hg => ih.isFile_of g (hof g hg), fun g k hg hk => ?_⟩
    · have hself := hdet.isFile_self ih.owned href (by rw [hsf]; exact ih.isFile)
      rwa [hsf] at hself
    · rw [(hdet.rewrites ih.owned href).field g k (hof g hg) hk, ih.field g k (hof g hg) hk]

lemma detached_of_free (ho : Owned m) (href : Refers m s b) :
    Detached m (update (giveBlock m b) (s.word m) 0) s b := by
  have hs := (refers_iff.mp href).1
  have hbm := ho.word_ne_bitmap hs (ho.range _ _ href).2
  refine ⟨update_self _ _ _, update_of_ne (Ne.symm hbm) _ _, fun w hw hwm => ?_⟩
  rw [update_of_ne hw, giveBlock_of_ne hwm]

section
variable {m : Mem} {f : Nat} (ho : Owned m) (hf : IsFile m f)
include ho hf

lemma fileBlockWalk_look (bno : Nat) : ∃ slot, fileBlockWalk f bno false m = .ok (slot, m) ∧
    ((∃ r, slot = .error r) ∧ (bno < ndirect + nindirect → blockAt m f bno = 0) ∨
      slot = .ok ((Slot.block f bno).word m) ∧ (Slot.block f bno).Exists m) := by
  unfold fileBlockWalk
  by_cases hbig : ndirect + nindirect ≤ bno
  · rw [if_pos hbig]
    exact ⟨_, rfl, .inl ⟨⟨_, rfl⟩, fun hlt => absurd hlt (by omega)⟩⟩
  rw [if_neg hbig]
  by_cases hd : bno < ndirect
  · rw [if_pos hd]
    refine ⟨_, rfl, .inr ⟨?_, hf, by omega, fun hle => absurd hd (by omega)⟩⟩
    simp only [Slot.word, if_pos hd]
  rw [if_neg hd]
  by_cases hind : m (fIndirect f) = 0
  · rw [if_pos hind, if_pos rfl]
    exact ⟨_, rfl, .inl ⟨⟨_, rfl⟩, fun _ => blockAt_none (by omega) hind⟩⟩
  · rw [if_neg hind, diskaddr_refers ho (s := .indirect f) ⟨hf, rfl, hind⟩]
    refine ⟨_, rfl, .inr ⟨?_, hf, by omega, fun _ => hind⟩⟩
    simp only [Slot.word, if_neg hd]
    rw [Nat.add_sub_assoc (by omega)]

lemma fileFreeBlock_spec (bno : Nat) : ∃ r m', fileFreeBlock f bno m = .ok (r, m') ∧
    (m' = m ∧ (bno < ndirect + nindirect → blockAt m f bno = 0) ∨
      ∃ b, Refers m (.block f bno) b ∧ Detached m m' (.block f bno) b) := by
  obtain ⟨slot, hwalk, ⟨⟨r, rfl⟩, hzero⟩ | ⟨rfl, hex⟩⟩ := fileBlockWalk_look ho hf bno
  · refine ⟨r, m, ?_, .inl ⟨rfl, hzero⟩⟩
    simp only [fileFreeBlock, hwalk, bind, Except.bind, pure, Except.pure]
  have hword := blockAt_word hex
  by_cases h0 : m ((Slot.block f bno).word m) = 0
  · refine ⟨0, m, ?_, .inl ⟨rfl, fun _ => hword.trans h0⟩⟩
    simp only [fileFreeBlock, hwalk, bind, Except.bind, pure, Except.pure, ne_eq, h0, not_true, if_false]
  · have href : Refers m (.block f bno) (m ((Slot.block f bno).word m)) := ⟨hf, hex.2.1, hword, h0⟩
    refine ⟨0, _, ?_, .inr ⟨_, href, detached_of_free ho href⟩⟩
    simp only [fileFreeBlock, hwalk, bind, Except.bind, pure, Except.pure, ne_eq, h0, not_false_eq_true, if_true,
      freeBlock_eq h0]

end

section
variable (ho : Owned m) (hf : IsFile m f)
include ho hf

lemma freeBlocks_spec (n bno : Nat) :
    ∃ m', freeBlocks f n bno m = .ok m' ∧ ReflTransGen (DetachStep f) m m' ∧ m' (fIndirect f) = m (fIndirect f) ∧
      (∀ i, i < ndirect + nindirect → blockAt m' f i = if bno ≤ i ∧ i < bno + n then 0 else blockAt m f i) ∧
      (m (fType f) ≠ ftypeDir → Agrees m → Agrees m') := by
  induction n generalizing m bno with
  | zero =>
    refine ⟨m, rfl, .refl, rfl, fun i _ => ?_, fun _ ha => ha⟩
    rw [if_neg (by omega)]
  | succ n ih =>
    obtain ⟨r, m1, hfree, ⟨rfl, hzero⟩ | ⟨b, href, hdet⟩⟩ := fileFreeBlock_spec ho hf bno
    · obtain ⟨m', hrest, hrun, hind, hblk, hagr⟩ := ih ho hf (bno + 1)
      refine ⟨m', ?_, hrun, hind, fun i hi => ?_, hagr⟩
      · simp only [freeBlocks, hfree, bind, Except.bind]
        exact hrest
      · rw [hblk i hi]
        by_cases hib : i = bno
        · subst hib
          rw [hzero hi, if_neg (by omega), if_pos (by omega)]
        · have hiff : (bno + 1 ≤ i ∧ i < bno + 1 + n) ↔ (bno ≤ i ∧ i < bno + (n + 1)) := by omega
          simp only [hiff]
    · have hf1 : IsFile m1 f := hdet.isFile_self ho href hf
      have hrw := hdet.rewrites ho href
      obtain ⟨m', hrest, hrun, hind, hblk, hagr⟩ := ih (hdet.owned ho href) hf1 (bno + 1)
      refine ⟨m', ?_, .head ⟨_, b, rfl, href, hdet⟩ hrun, ?_, fun i hi => ?_, fun hreg ha => hagr ?_ ?_⟩
      · simp only [freeBlocks, hfree, bind, Except.bind]
        exact hrest
      · rw [hind, hrw.indirect hf, if_neg (by nofun)]
      · rw [hblk i hi, hdet.blockAt_eq ho href hf hi]
        by_cases hib : i = bno
        · subst hib
          simp
        · have hne : ¬ (Slot.block f i = .block f bno ∨ Slot.indirect f = .block f bno ∧ ndirect ≤ i) := by
            rintro (heq | ⟨heq, -⟩)
            · cases heq
              exact hib rfl
            · cases heq
          have hiff : (bno + 1 ≤ i ∧ i < bno + 1 + n) ↔ (bno ≤ i ∧ i < bno + (n + 1)) := by omega
          simp only [hiff, if_neg hne]
      · rwa [show fType f = f + 33 from rfl, hrw.field f 33 hf (by decide)]
      · exact hdet.agrees href hreg ha fun g heq => by cases heq

lemma fileTruncateBlocks_spec (newsize : Int) :
    ∃ m', fileTruncateBlocks f newsize m = .ok m' ∧ ReflTransGen (DetachStep f) m m' ∧
      (m (fType f) ≠ ftypeDir → Agrees m →
        Agrees m' ∧
          ∀ i, i < ndirect + nindirect → blockAt m' f i = if nblocks newsize ≤ i then 0 else blockAt m f i) := by
  obtain ⟨m1, hfree, hrun, hind, hblk, hagr⟩ :=
    freeBlocks_spec ho hf (nblocks (size m f) - nblocks newsize) (nblocks newsize)
  have hshrunk := DetachStep.run hrun ho hf
  have hblocks : Agrees m → ∀ i, i < ndirect + nindirect →
      blockAt m1 f i = if nblocks newsize ≤ i then 0 else blockAt m f i := by
    intro ha i hi
    rw [hblk i hi]
    by_cases hle : nblocks newsize ≤ i
    · rw [if_pos hle]
      split
      · rfl
      · exact ha.tail f i hf hi (by omega)
    · rw [if_neg hle, if_neg (by omega)]
  have hreg1 : m (fType f) ≠ ftypeDir → m1 (fType f) ≠ ftypeDir := by
    intro hreg
    rwa [show fType f = f + 33 from rfl, hshrunk.field f 33 hshrunk.isFile (by decide)]
  by_cases hcond : nblocks newsize ≤ ndirect ∧ m1 (fIndirect f) ≠ 0
  · have href : Refers m1 (.indirect f) (m1 (fIndirect f)) := ⟨hshrunk.isFile, rfl, hcond.2⟩
    have hdet := detached_of_free hshrunk.owned href
    refine ⟨_, ?_, hrun.tail ⟨_, _, rfl, href, hdet⟩, fun hreg ha => ⟨?_, fun i hi => ?_⟩⟩
    · unfold fileTruncateBlocks
      dsimp only
      rw [hfree, ok_bind, if_pos hcond, freeBlock_eq hcond.2, ok_bind]
      rfl
    · refine hdet.agrees href (hreg1 hreg) (hagr hreg ha) fun g heq i hle hi => ?_
      cases heq
      exact (hblocks ha i hi).trans (if_pos (by omega))
    · rw [hdet.blockAt_eq hshrunk.owned href hshrunk.isFile hi, hblocks ha i hi]
      by_cases hle : nblocks newsize ≤ i
      · rw [if_pos hle, ite_self]
      · rw [if_neg]
        rintro (h | ⟨-, h⟩)
        · cases h
        · exact hle (le_trans hcond.1 h)
  · refine ⟨m1, ?_, hrun, fun hreg ha => ⟨hagr hreg ha, hblocks ha⟩⟩
    unfold fileTruncateBlocks
    dsimp only
    rw [hfree, ok_bind, if_neg hcond]
    rfl

lemma fileSetSize_spec (newsize : Int) :
    ∃ m1, fileSetSize f newsize m = .ok (0, update m1 (fSize f) (toU32 newsize)) ∧
      ReflTransGen (DetachStep f) m m1 ∧ (¬ newsize < size m f → m1 = m) ∧
      (m (fType f) ≠ ftypeDir → newsize < size m f → Agrees m →
        Agrees m1 ∧
          ∀ i, i < ndirect + nindirect → blockAt m1 f i = if nblocks newsize ≤ i then 0 else blockAt m f i) := by
  by_cases hlt : newsize < size m f
  · obtain ⟨m1, htrunc, hrun, hagr⟩ := fileTruncateBlocks_spec ho hf newsize
    refine ⟨m1, ?_, hrun, fun hn => absurd hlt hn, fun hreg _ => hagr hreg⟩
    unfold fileSetSize
    rw [if_pos hlt, htrunc]
    rfl
  · refine ⟨m, ?_, .refl, fun _ => rfl, fun _ hn => absurd hn hlt⟩
    unfold fileSetSize
    rw [if_neg hlt]
    rfl

lemma flushBlocks_ok (n i : Nat) : flushBlocks f m n i = .ok () := by
  induction n generalizing i with
  | zero => rfl
  | succ n ih =>
    obtain ⟨slot, hwalk, ⟨⟨r, rfl⟩, -⟩ | ⟨rfl, hex⟩⟩ := fileBlockWalk_look ho hf i
    · simp only [flushBlocks, hwalk, ok_bind]
      exact ih (i + 1)
    · by_cases h0 : m ((Slot.block f i).word m) = 0
      · simp only [flushBlocks, hwalk, ok_bind, ne_eq, h0, not_true, if_false]
        exact ih (i + 1)
      · have href : Refers m (.block f i) (m ((Slot.block f i).word m)) := ⟨hf, hex.2.1, blockAt_word hex, h0⟩
        simp only [flushBlocks, hwalk, ok_bind, ne_eq, h0, not_false_eq_true, if_true, diskaddr_refers ho href]
        exact ih (i + 1)

lemma fileFlush_ok : fileFlush f m = .ok () := by
  unfold fileFlush
  rw [flushBlocks_ok ho hf, ok_bind]
  by_cases h0 : m (fIndirect f) ≠ 0
  · rw [if_pos h0, diskaddr_refers ho (s := .indirect f) ⟨hf, rfl, h0⟩]
    rfl
  · rw [if_neg h0]
    rfl

end

end Jos.Fs
