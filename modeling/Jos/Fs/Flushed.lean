import Jos.Fs.Crash
import Jos.Fs.Synced

/-!
# A flushed file is on the disk

While files are created and written, the disk has the directories that the memory has.
`file_flush` adds what is missing of a regular file: its entry, its blocks and the numbers of
them. `file_create` writes the directory that it has changed.
-/

namespace Jos.Fs
open Relation WordMem CInt Proc Durable Function

variable {D d f i w : Nat} {m : Mem} {path : List Nat} {β : Type}

/-! ## `file_flush` -/

/-- The blocks that `file_flush` writes. -/
inductive Flushes (m : Mem) (f : Nat) : Nat → Prop where
  | entry {b : Nat} (hb : b = f / 1024) : Flushes m f b
  | data {i b : Nat} (hi : i < nblocks (size m f)) (href : Refers m (.block f i) b) : Flushes m f b
  | indirect {b : Nat} (href : Refers m (.indirect f) b) : Flushes m f b

lemma Store.setMem_mem (g : Mem → Mem) (s : Store) : (s.setMem g).mem = g s.mem := rfl

lemma Store.setMem_disk (g : Mem → Mem) (s : Store) : (s.setMem g).disk = s.disk := rfl

namespace Durable
variable {s : Store} {f : Nat}

lemma run_then {α : Type} {x : Proc α} {g : α → Proc β} {a : α} (h : (x.run s).1 = .ok a) :
    (x >>= g).run s = (g a).run (x.run s).2 := run_bind_ok h

lemma run_poke_bind (k : Mem → Mem) (g : Unit → Proc β) : (poke k >>= g).run s = (g ()).run (s.setMem k) := rfl

lemma run_look_bind {α : Type} {r : Mem → Res α} {a : α} (h : r s.mem = .ok a) (g : α → Proc β) :
    (look r >>= g).run s = (g a).run s := run_bind_ok (x := look r) h

lemma run_flush_bind (b : Nat) (g : Unit → Proc β) : (flushBlock b >>= g).run s = (g ()).run (s.flush b) := rfl

lemma flushBlocks_written (n i : Nat) (ho : Owned s.mem) (hf : IsFile s.mem f) : ∃ d past,
    (flushBlocks f n i).run s = (.ok (), ⟨s.mem, d, past⟩) ∧
      ∀ w, (s.disk w = s.mem w ∨ ∃ j, i ≤ j ∧ j < i + n ∧ Refers s.mem (.block f j) (w / 1024)) → d w = s.mem w := by
  induction n generalizing i s with
  | zero =>
    refine ⟨s.disk, s.past, rfl, fun w hw => hw.resolve_right ?_⟩
    rintro ⟨j, hle, hlt, -⟩
    omega
  | succ n ih =>
    -- rounds without a block leave the rest to the others
    have hrest : blockAt s.mem f i = 0 ∨ ndirect + nindirect ≤ i → ∃ d past,
        (flushBlocks f n (i + 1)).run s = (.ok (), ⟨s.mem, d, past⟩) ∧ ∀ w, (s.disk w = s.mem w ∨
          ∃ j, i ≤ j ∧ j < i + (n + 1) ∧ Refers s.mem (.block f j) (w / 1024)) → d w = s.mem w := by
      intro hnone
      obtain ⟨d, past, hrun, hd⟩ := ih (i + 1) ho hf
      refine ⟨d, past, hrun, fun w hw => hd w (hw.imp_right ?_)⟩
      rintro ⟨j, hle, hlt, href⟩
      refine ⟨j, lt_of_le_of_ne hle ?_, by omega, href⟩
      rintro rfl
      obtain ⟨-, hj, hb, h0⟩ := href
      rcases hnone with hzero | hbig
      · exact h0 (hb.symm.trans hzero)
      · omega
    obtain ⟨slot, hlook, hcases⟩ := fileBlockWalk_look ho hf i
    unfold flushBlocks
    rw [run_peek_bind, run_look_bind hlook]
    rcases hcases with ⟨⟨r, rfl⟩, hnone⟩ | ⟨rfl, hex⟩
    · refine hrest ?_
      by_cases hi : i < ndirect + nindirect
      · exact .inl (hnone hi)
      · exact .inr (Nat.le_of_not_lt hi)
    · dsimp only
      by_cases h0 : s.mem ((Slot.block f i).word s.mem) = 0
      · rw [if_neg (not_not.2 h0)]
        exact hrest (.inl ((blockAt_word hex).trans h0))
      · have href : Refers s.mem (.block f i) (s.mem ((Slot.block f i).word s.mem)) := refers_iff.2 ⟨hex, rfl, h0⟩
        rw [if_pos h0, run_look_bind (diskaddr_refers ho href), run_flush_bind, Nat.mul_div_cancel_left _ (by decide)]
        obtain ⟨d, past, hrun, hd⟩ := ih (s := s.flush (s.mem ((Slot.block f i).word s.mem))) (i + 1) ho hf
        refine ⟨d, past, hrun, fun w hw => hd w ?_⟩
        rcases hw with hsame | ⟨j, hle, hlt, hj⟩
        · exact .inl (written_same hsame)
        · by_cases hji : j = i
          · subst hji
            refine .inl (written_self ?_)
            exact hj.2.2.1.symm.trans href.2.2.1
          · exact .inr ⟨j, by omega, by omega, hj⟩

lemma fileFlush_written (ho : Owned s.mem) (hf : IsFile s.mem f) (h0 : 0 ≤ size s.mem f) (hmax : size s.mem f ≤ maxfilesize) :
    ∃ d past, (fileFlush f).run s = (.ok (), ⟨s.mem, d, past⟩) ∧
      ∀ w, (s.disk w = s.mem w ∨ Flushes s.mem f (w / 1024)) → d w = s.mem w := by
  rw [maxfilesize_eq] at hmax
  have hn : ((toI32 (size s.mem f + blksize - 1)).tdiv blksize).toNat = nblocks (size s.mem f) := by
    have := nblocks_of_fits h0 (by omega)
    rw [blksize_cast, toI32_of_range (by omega) (by omega), Int.tdiv_eq_ediv_of_nonneg (by omega)]
    omega
  obtain ⟨d1, past1, hblocks, hd1⟩ := flushBlocks_written (nblocks (size s.mem f)) 0 ho hf
  have hrun : (fileFlush f).run s = ((do
      if s.mem (fIndirect f) ≠ 0 then
        let a ← look (diskaddr (s.mem (fIndirect f)))
        flushBlock (a / 1024) : Proc Unit).run (Store.flush (f / 1024) ⟨s.mem, d1, past1⟩)) := by
    unfold fileFlush
    rw [run_peek_bind, hn, run_bind_ok (a := ()) (by rw [hblocks]), hblocks]
    rfl
  rw [hrun]
  -- the blocks so far
  have hfirst : ∀ w, (s.disk w = s.mem w ∨ w / 1024 = f / 1024 ∨
      ∃ i, i < nblocks (size s.mem f) ∧ Refers s.mem (.block f i) (w / 1024)) →
      written (f / 1024) s.mem d1 w = s.mem w := by
    intro w hw
    rcases hw with hsame | hentry | ⟨i, hi, href⟩
    · exact written_same (hd1 w (.inl hsame))
    · exact written_self hentry
    · exact written_same (hd1 w (.inr ⟨i, Nat.zero_le i, by omega, href⟩))
  by_cases hind : s.mem (fIndirect f) = 0
  · rw [if_neg (not_not.2 hind)]
    refine ⟨_, _, rfl, fun w hw => hfirst w (hw.imp_right fun hflush => ?_)⟩
    cases hflush with
    | entry hb => exact .inl hb
    | data hi href => exact .inr ⟨_, hi, href⟩
    | indirect href => exact absurd (href.2.1.symm.trans hind) href.2.2
  · have href : Refers s.mem (.indirect f) (s.mem (fIndirect f)) := ⟨hf, rfl, hind⟩
    rw [if_pos hind, run_look_bind (s := Store.flush (f / 1024) ⟨s.mem, d1, past1⟩) (diskaddr_refers ho href), Nat.mul_div_cancel_left _ (by decide)]
    refine ⟨_, _, rfl, fun w hw => ?_⟩
    rcases hw with hsame | hflush
    · exact written_same (hfirst w (.inl hsame))
    · cases hflush with
      | entry hb => exact written_same (hfirst w (.inr (.inl hb)))
      | data hi hdata => exact written_same (hfirst w (.inr (.inr ⟨_, hi, hdata⟩)))
      | indirect hindirect => exact written_self hindirect.2.1.symm

end Durable

/-! ## The file on the disk -/

/-- The disk `d` has the file `f` as the memory `m` has it: under the same paths, with the same entry, the same blocks and
the same data in them. In the bitmap on the disk its blocks are in use. -/
structure OnDisk (m d : Mem) (f : Nat) : Prop where
  opens : ∀ path, Chars path → openResult path m = .ok (.ok f) → openResult path d = .ok (.ok f)
  entry : ∀ k, k < 64 → d (f + k) = m (f + k)
  blocks : ∀ i, i < ndirect + nindirect → blockAt d f i = blockAt m f i
  data : ∀ i b w, Refers m (.block f i) b → w / 1024 = b → d w = m w
  used : ∀ t b, t.file = f → Refers m t b → blockIsFree d b = false

lemma Current.onDisk {d : Mem} (h : Current m d) (hf : IsFile m f)
    (hflush : ∀ w, Flushes m f (w / 1024) → d w = m w) : OnDisk m d f := by
  have hentry : ∀ k, k < 64 → d (f + k) = m (f + k) := fun k hk => hflush _ (.entry (hf.block hk))
  refine ⟨fun path hch hopen => h.dirs.opens h.tidy.toWhole hch hopen, hentry, fun i hi => ?_, fun i b w href hw => ?_,
    fun t b _ href => ?_⟩
  · refine blockAt_congr (fun hd => ?_) (hentry 44 (by decide)) fun hle hind => hflush _ (.indirect ?_)
    · unfold ndirect at hd
      have hword := hentry (34 + i) (by omega)
      rwa [← add_assoc] at hword
    · have hblock : (1024 * m (fIndirect f) + (i - ndirect)) / 1024 = m (fIndirect f) := by
        unfold ndirect nindirect at hi
        unfold ndirect
        omega
      rw [hblock]
      exact ⟨hf, rfl, hind⟩
  · refine hflush w (.data (i := i) (Nat.lt_of_not_le fun hle => ?_) (hw ▸ href))
    obtain ⟨-, hi, hb, h0⟩ := href
    exact h0 (hb.symm.trans (h.tidy.tail f i hf hi hle))
  · rw [← Bool.not_eq_true]
    exact fun hfree => h.tidy.exclusive.used _ _ href (h.behind.free b hfree)

/-! ## `file_create` -/

/-- The word is no empty slot of `f`, and it lies neither in a free block nor in the bitmap. -/
structure Apart (m : Mem) (f w : Nat) : Prop where
  slots : ∀ t : Slot, t.Exists m → t.file = f → m (t.word m) = 0 → w ≠ t.word m
  free : ∀ b, blockIsFree m b = true → w / 1024 ≠ b
  bitmap : ∀ b, b < sNblocks m → w ≠ bitmapWord b

lemma Apart.attach {m' : Mem} {b : Nat} {t : Slot} (h : Apart m f w) (ha : Attached m m' t b) (ho : Owned m)
    (ht : t.Exists m) (hempty : m (t.word m) = 0) : Apart m' f w := by
  refine ⟨fun t' ht' hfile hzero => ?_, fun c hc => h.free c ((ha.blockIsFree_iff ho ht c).1 hc).1, fun c hc => ?_⟩
  · rcases ha.exists_cases ho ht hempty ht' with hnew | ⟨hold, hword⟩
    · exact fun heq => h.free b ha.free (heq ▸ hnew)
    · rw [hword] at hzero ⊢
      by_cases htt : t' = t
      · rw [htt, ha.slot] at hzero
        have hrange := ho.free_range ha.free
        have htwo := two_le_reservedEnd m
        omega
      · exact h.slots t' hold hfile ((ha.rewrites ho ht).other t' hold htt ▸ hzero)
  · rw [ha.sNblocks_eq ho ht] at hc
    exact h.bitmap c hc

def Spared (m : Mem) (d w : Nat) : Prop :=
  DirWord m w ∧ w ≠ fSize d ∧ ∀ t : Slot, t.Exists m → t.file = d → m (t.word m) = 0 → w ≠ t.word m

def Frame (m : Mem) (d : Nat) (m' d' : Mem) : Prop := ∀ w, Spared m d w → m' w = m w ∧ d' w = m w ∧ Apart m' d w

lemma Frame.lag (m : Mem) (d : Nat) : Lag (Frame m d) (fun _ _ => True) fun _ f _ => f = d where
  crash _ := trivial
  flush b h w hw := by
    obtain ⟨hm, hd, hapart⟩ := h w hw
    exact ⟨hm, (written_same (hd.trans hm.symm)).trans hm, hapart⟩
  takes _ _ _ := trivial
  attach := by
    intro m1 m2 d1 f i t b h ho hfd hfi ht hempty ha w hw
    obtain ⟨hm, hd, hapart⟩ := h w hw
    have hfile : t.file = d := by
      rcases hfi with rfl | ⟨rfl, -⟩ <;> exact hfd
    have hbit := hapart.bitmap b (ho.free_range ha.free).2
    have hother := ha.other w (hapart.slots t ht hfile hempty) (hapart.free b ha.free) hbit
    refine ⟨hother.trans hm, ?_, hapart.attach ha ho ht hempty⟩
    rw [written_of_ne (hapart.free b ha.free)]
    by_cases hblock : w / 1024 = bitmapWord b / 1024
    · rw [written_self hblock, takeBlock_of_ne hbit m1, hm]
    · rw [written_of_ne hblock, hd]
  grown hfd _ _ := hfd

lemma Frame.resize {m1 d' : Mem} (h : Frame m d m1 d') (ho : Owned m1) (hd : IsFile m1 d) (v : Nat) :
    Frame m d (update m1 (fSize d) v) d' := by
  intro w hw
  obtain ⟨hmem, hdisk, hapart⟩ := h w hw
  have htree := sameTree_resize ho hd v
  refine ⟨(update_of_ne hw.2.1 _ _).trans hmem, hdisk, fun t ht hfile hzero => ?_, fun b hb => ?_, fun b hb => ?_⟩
  · have hold := htree.exists_iff.1 ht
    rw [htree.word_eq hold] at hzero ⊢
    exact hapart.slots t hold hfile ((htree.slot t hold) ▸ hzero)
  · rw [blockIsFree_resize ho hd] at hb
    exact hapart.free b hb
  · rw [sNblocks_resize ho hd] at hb
    exact hapart.bitmap b hb

lemma SameDirWords.frame {d' : Mem} (h : SameDirWords m d') (ho : Owned m) : Frame m d m d' := fun w hw =>
  ⟨rfl, h w hw.1, hw.2.2, fun _ hb => hw.1.ne_free ho hb, fun _ hb => hw.1.ne_bitmap ho hb⟩

section
variable {m : Mem} (ho : Owned m) {d : Nat} (hd : IsFile m d)
include ho hd

lemma spared_top (hw : w = 1025 ∨ w = root + 33) : Spared m d w := by
  refine ⟨.top hw, ?_, fun t ht _ _ => ?_⟩ <;> rcases hw with rfl | rfl
  · exact (ho.file_not_super hd (by decide)).symm
  · intro heq
    have hroot := ho.file_inj .root hd (by decide) (by decide) (show root + 33 = d + 32 from heq)
    unfold fSize at heq
    omega
  · exact (ho.word_ne_super ht).symm
  · exact ho.field_ne_word ht .root (by decide) (.inl (by decide))

lemma spared_field {k : Nat} (hD : IsFile m D) (hdir : m (fType D) = ftypeDir) (hk : k < 64) (hne : D ≠ d) :
    Spared m d (D + k) :=
  ⟨.field hD hdir hk, fun heq => hne (ho.file_inj hD hd hk (by decide) (show D + k = d + 32 from heq)),
    fun _ ht hfile _ => ho.field_ne_word ht hD hk (.inr (hfile ▸ hne))⟩

lemma spared_slot {t : Slot} (ht : t.Exists m) (hdir : m (fType t.file) = ftypeDir) (hne : t.file ≠ d) :
    Spared m d (t.word m) :=
  ⟨.slot ht hdir, (ho.field_ne_word ht hd (by decide) (.inl (by decide))).symm,
    fun _ ht' hfile _ heq => hne (ho.word_inj ht ht' heq ▸ hfile)⟩

lemma spared_entry {c j k : Nat} (href : Refers m (.block D i) c) (hdir : m (fType D) = ftypeDir) (hj : j < blkfiles)
    (hk : k < 32 ∨ k = 33) : Spared m d (1024 * c + 64 * j + k) := by
  refine ⟨.entry href hdir hj hk, fun heq => ?_, fun t ht _ _ => ho.entry_ne_word ht href hj (by omega) (.inl (by omega))⟩
  have hsame := ho.entry_inj hd href hj (k := 32) (by decide) (by omega) heq
  unfold fSize at heq
  omega

end

section
variable {m m1 d1 : Mem} (ho : Owned m) {d : Nat} (hd : IsFile m d) (hdir : m (fType d) = ftypeDir)
  (hframe : ∀ w, Spared m d w → m1 w = m w ∧ d1 w = m w) (hw : Widened m m1) {e : Nat} (he : e ∈ entries m1 d)
  (hfree : entryName m1 e = []) {name : List Nat} (hname : NameOk name)
include ho hd hdir hframe hw he hfree hname

lemma setName_other (hD : IsFile m D) (hDdir : m (fType D) = ftypeDir) (hne : D ≠ d) :
    (∀ k, k < 64 → setName m1 e name (D + k) = m (D + k)) ∧
      ∀ t : Slot, t.file = D → (t.Exists (setName m1 e name) ↔ t.Exists m) ∧ t.word (setName m1 e name) = t.word m ∧
        (t.Exists m → setName m1 e name (t.word m) = m (t.word m)) := by
  have hd1 := (hw.isFile_iff d).2 hd
  have hdir1 := (hw.type d hd).trans hdir
  have hnamed := hw.whole.isFile_entry hd1 hdir1 he
  have hn := hw.whole.named hw.unused hd1 hdir1 he hfree hname
  obtain ⟨i0, c0, j0, -, href0, hj0, rfl⟩ := hw.whole.entry_refers hd1 hdir1 he
  have hD1 := (hw.isFile_iff D).2 hD
  have hfield : ∀ k, k < 64 → setName m1 (1024 * c0 + 64 * j0) name (D + k) = m (D + k) := by
    intro k hk
    have hDe : D ≠ 1024 * c0 + 64 * j0 := fun heq => hnamed.1 (heq ▸ hD1) hfree
    rw [setName_field hw.whole.toOwned href0 hj0 hname hD1 hk (.inr hDe)]
    exact (hframe _ (spared_field ho hd hD hDdir hk hne)).1
  refine ⟨hfield, ?_⟩
  rintro t rfl
  have hind1 := (hframe _ (spared_field ho hd hD hDdir (k := 44) (by decide) hne)).1
  obtain ⟨hex, hword⟩ := Slot.exists_congr (iff_of_true ((hn.isFile_iff t.file).2 (.inl hD1)) hD) (hfield 44 (by decide))
  obtain ⟨hex1, hword1⟩ := Slot.exists_congr (iff_of_true hD1 hD) hind1
  refine ⟨hex, hword, fun ht => ?_⟩
  have hkept := setName_slot hw.whole.toOwned href0 hj0 hname (hex1.2 ht)
  rw [hword1] at hkept
  rw [hkept]
  exact (hframe _ (spared_slot ho hd ht hDdir hne)).1

/-- A word of a directory is on the disk already, or `file_flush` of the directory writes its block. -/
theorem setName_flushed (hdw : DirWord (setName m1 e name) w) :
    d1 w = setName m1 e name w ∨ Flushes (setName m1 e name) d (w / 1024) := by
  have hd1 := (hw.isFile_iff d).2 hd
  have hdir1 := (hw.type d hd).trans hdir
  have hn := hw.whole.named hw.unused hd1 hdir1 he hfree hname
  have hother := fun D => setName_other ho hd hdir hframe hw he hfree hname (D := D)
  have hd2 := (hn.isFile_old hw d).2 (.inl hd)
  obtain ⟨i0, c0, j0, -, href0, hj0, rfl⟩ := hw.whole.entry_refers hd1 hdir1 he
  cases hdw with
  | top htop =>
    have hspared := hframe _ (spared_top ho hd htop)
    refine .inl ?_
    rw [hspared.2, setName_of_lt hname, hspared.1]
    have hrange := (hw.whole.range _ _ href0).1
    have htwo := two_le_reservedEnd m1
    unfold root at htop
    omega
  | @field D k hD hDdir hk =>
    obtain ⟨hD, hDdir⟩ := hn.dir_old hw hD hDdir
    by_cases hne : D = d
    · subst hne
      exact .inr (.entry (hD.block hk))
    · rw [(hframe _ (spared_field ho hd hD hDdir hk hne)).2, (hother D hD hDdir hne).1 k hk]
      exact .inl rfl
  | @slot t ht htdir =>
    obtain ⟨hfile, hcases⟩ := Slot.word_cases ht
    obtain ⟨hD, hDdir⟩ := hn.dir_old hw hfile htdir
    by_cases hne : t.file = d
    · refine .inr ?_
      rcases hcases with ⟨k, -, hk, hword, -⟩ | ⟨hind, hword, -⟩
      · rw [hword, hne]
        exact .entry (hd.block (by omega))
      · rw [hword, hne]
        exact .indirect ⟨hd2, rfl, hne ▸ hind⟩
    · obtain ⟨hex, hword, hkept⟩ := (hother t.file hD hDdir hne).2 t rfl
      have hold := hex.1 ht
      rw [hword, hkept hold, (hframe _ (spared_slot ho hd hold hDdir hne)).2]
      exact .inl rfl
  | @entry D i c j k href hDdir hj hk =>
    obtain ⟨hD, hDdir⟩ := hn.dir_old hw href.1 hDdir
    by_cases hne : D = d
    · subst hne
      have hblock : (1024 * c + 64 * j + k) / 1024 = c := by
        unfold blkfiles at hj
        omega
      rw [hblock]
      refine .inr (.data (i := i) (Nat.lt_of_not_le fun hle => ?_) href)
      exact href.2.2.2 (href.2.2.1.symm.trans (hn.whole.tail D i href.1 href.2.1 hle))
    · obtain ⟨hex, hword, hkept⟩ := (hother D hD hDdir hne).2 (.block D i) rfl
      obtain ⟨hslot, hval, h0⟩ := refers_iff.1 href
      rw [hword, hkept (hex.1 hslot)] at hval
      have hold : Refers m (.block D i) c := refers_iff.2 ⟨hex.1 hslot, hval, h0⟩
      have hspared := hframe _ (spared_entry ho hd hold hDdir hj hk)
      have href2 : Refers (setName m1 (1024 * c0 + 64 * j0) name) (.block d i0) c0 :=
        ⟨hd2, href0.2.1, (blockAt_setName hw.whole.toOwned href0 hj0 hname hd1 href0.2.1).trans href0.2.2.1, href0.2.2.2⟩
      refine .inl ?_
      rw [hspared.2, setName_entry hname (by omega) (.inr fun heq => hne ?_), hspared.1]
      -- the entry lies in one block only
      have hcc : c = c0 := by
        unfold blkfiles at hj hj0
        omega
      subst hcc
      have hslots := hn.whole.exclusive.unique _ _ _ href href2
      injection hslots

end

lemma Behind.lag_any (P : Nat → Prop) : Lag (Behind P) (fun _ _ => True) fun _ _ _ => True :=
  { (Behind.lag P).toLag with
    crash := fun _ => trivial
    takes := fun _ _ _ => trivial }

/-- Where all blocks are there, none is attached. -/
lemma Current.walkLag : Lag Current (fun _ _ => True) fun m f i => ∃ b, Refers m (.block f i) b where
  crash _ := trivial
  flush b h := Current.lag.flush b h
  takes _ _ _ := trivial
  attach := by
    rintro m m' d f i t b h ho ⟨c, href⟩ hfi ht hempty -
    exfalso
    rcases hfi with rfl | ⟨rfl, hle⟩
    · obtain ⟨-, hc, h0⟩ := refers_iff.1 href
      exact h0 (hc.symm.trans hempty)
    · exact href.2.2.2 (href.2.2.1.symm.trans (blockAt_none hle hempty))
  grown := by
    rintro m m' f i ⟨b, href⟩ - hgrown
    exact ⟨b, hgrown.refers _ _ href⟩

lemma Current.walkable : Walkable Current fun m f i => ∃ b, Refers m (.block f i) b := by
  intro m d dir n j h hf hdir hn hj
  obtain ⟨hcount, hle, -⟩ := h.tidy.nblock hf hdir
  have hn' := Except.ok.inj (hcount.symm.trans hn)
  subst hn'
  exact ⟨_, hf, lt_of_lt_of_le hj hle, rfl, h.tidy.dirBlocks dir j hf hdir hj⟩

lemma Current.setSize {d : Mem} (h : Current m d) (hf : IsFile m f) (hreg : m (fType f) ≠ ftypeDir) {newsize : Int}
    (h0 : 0 ≤ newsize) (hmax : newsize ≤ maxfilesize) {m1 : Mem}
    (htr : (if newsize < size m f then fileTruncateBlocks f newsize m else pure m) = .ok m1)
    (hsteps : ReflTransGen (DetachStep f) m m1) : Current (update m1 (fSize f) (toU32 newsize))
      (written (f / 1024) (update m1 (fSize f) (toU32 newsize)) d) := by
  have ho := h.tidy.toOwned
  have hshrunk := DetachStep.run hsteps ho hf
  have hsame := DetachStep.sameDirWords hsteps ho hf hreg
  have hreg1 : m1 (fType f) ≠ ftypeDir := by rwa [hsame.type_eq hf]
  refine ⟨h.tidy.setSize hf hreg h0 hmax htr hsteps, h.behind.shrink ho hf hreg hsteps _ fun hP => hP.elim, ?_⟩
  exact ((hsame.trans (sameDirWords_resize hshrunk.owned hshrunk.isFile hreg1 _)).symm.trans h.dirs).flush _

namespace Durable
variable {s : Store} (h : Tracks Current (fun _ _ => True) s)
include h

omit h in
lemma nameEntry_ok (d e : Nat) (name : List Nat) : nameEntry d name (.ok e) =
    (poke fun m => setName m e name) >>= fun _ => fileFlush d >>= fun _ => pure (.ok e) := rfl

lemma newEntry_current {name : List Nat} (hd : IsFile s.mem d) (hdir : s.mem (fType d) = ftypeDir) (hname : NameOk name)
    (hroom : (∃ e ∈ entries s.mem d, entryName s.mem e = []) ∨ nblocks (size s.mem d) < ndirect + nindirect ∧
      needed s.mem d (nblocks (size s.mem d)) (nblocks (size s.mem d) + 1) ≤ freeCount s.mem) :
    Tracks Current (fun _ _ => True) ((dirAllocFile d >>= nameEntry d name).run s).2 := by
  obtain ⟨e, m1, halloc, hw, he, hfree⟩ := h.lags.tidy.toWhole.dirAllocFile_ok hd hdir h.lags.tidy.unused hroom
  obtain ⟨hres, hmem⟩ := (dirAllocFile_follows d).ok halloc
  have hframe := (dirAllocFile_keeps (Frame.lag s.mem d) hd (fun _ _ => rfl) (fun _ _ v hframe ho hd => hframe.resize ho hd v)
    ⟨h.owned, h.unused, h.lags.dirs.frame h.owned, h.past⟩).lags
  have hbehind := dirAllocFile_behind (Behind.lag_any _) hd ⟨h.owned, h.unused, h.lags.behind, h.past⟩
  have hrun : (dirAllocFile d >>= nameEntry d name).run s = (nameEntry d name (.ok e)).run ((dirAllocFile d).run s).2 :=
    run_then hres
  rw [hrun]
  generalize ((dirAllocFile d).run s).2 = s1 at hmem hframe hbehind ⊢
  subst hmem
  obtain ⟨i, c, j, -, href, hj, heq⟩ := hw.whole.entry_refers ((hw.isFile_iff d).2 hd) ((hw.type d hd).trans hdir) he
  have hnamed := nameEntry_keeps (Behind.lag_any _) ((hw.type d hd).trans hdir) hname
    (fun e' he' => ⟨i, c, j, href, hj, (Except.ok.inj he').symm.trans heq⟩) hbehind
  have hnext : ∀ s2 : Store, s2.mem = setName s1.mem e name → s2.disk = s1.disk → ∃ d' past,
      (fileFlush d).run s2 = (.ok (), ⟨setName s1.mem e name, d', past⟩) ∧ Tidy (setName s1.mem e name) ∧
        SameDirWords (setName s1.mem e name) d' := by
    intro s2 hmem hdisk
    have hn := hw.whole.named hw.unused ((hw.isFile_iff d).2 hd) ((hw.type d hd).trans hdir) he hfree hname
    have hd2 := (hn.isFile_old hw d).2 (.inl hd)
    have htidy : Tidy (setName s1.mem e name) := ⟨hn.whole, hn.unused⟩
    have hflushed := fun w => setName_flushed h.owned hd hdir (fun w hw => ⟨(hframe w hw).1, (hframe w hw).2.1⟩) hw he hfree hname (w := w)
    rw [← hmem] at hd2 htidy hflushed ⊢
    rw [← hdisk] at hflushed
    obtain ⟨h0, hmax⟩ := htidy.sizes d hd2
    obtain ⟨d', past, hflush, hd'⟩ := fileFlush_written htidy.toOwned hd2 h0 hmax
    exact ⟨d', past, hflush, htidy, fun w hdw => hd' w (hflushed w hdw)⟩
  obtain ⟨d', past, hflush, htidy, hdirs⟩ := hnext (s1.setMem fun m => setName m e name) (Store.setMem_mem _ _) (Store.setMem_disk _ _)
  have hentry : (nameEntry d name (.ok e)).run s1 = (.ok (.ok e), ⟨setName s1.mem e name, d', past⟩) := by
    rw [nameEntry_ok, run_poke_bind, run_then (a := ()) (by rw [hflush]), hflush, run_pure]
  rw [hentry] at hnamed ⊢
  exact ⟨htidy.toOwned, htidy.unused.mono (by decide), ⟨htidy, hnamed.lags, hdirs⟩, fun _ _ => ⟨s.mem, h.owned, trivial⟩⟩

lemma fileCreate_current (hch : Chars path) (henough : EnoughBlocks path s.mem) (hroom : ¬ Crowded path s.mem) :
    Tracks Current (fun _ _ => True) ((fileCreate path).run s).2 := by
  have hwhole := h.lags.tidy.toWhole
  have hwalk : Tracks Current (fun _ _ => True) ((walkPath path).run s).2 :=
    walkLoop_keeps Current.walkLag Current.walkable _ none .root (chars_skipSlash hch) (head_skipSlash path) h
  obtain ⟨hres, hmem⟩ := (walkPath_follows path).ok (hwhole.allocated.walkPath_eq hch)
  have hmissing := fun d name => @missing_iff s.mem path d name
  have hrun : (fileCreate path).run s = (createAt ((nameTree s.mem).resolve (components path) root none)).run
      ((walkPath path).run s).2 := run_bind_ok hres
  rw [hrun]
  generalize (nameTree s.mem).resolve (components path) root none = walked at hmissing ⊢
  generalize ((walkPath path).run s).2 = s1 at hwalk hmem ⊢
  rw [← hmem] at hwhole hmissing henough hroom
  unfold createAt
  by_cases hr : walked.r = 0
  · rw [if_pos hr]
    exact hwalk
  rw [if_neg hr]
  cases hpdir : walked.pdir with
  | none => exact hwalk
  | some d =>
    dsimp only
    by_cases hnot : walked.r ≠ -eNotFound
    · rw [if_pos hnot]
      exact hwalk
    rw [if_neg hnot]
    have hmiss := (hmissing d _).2 ⟨not_not.1 hnot, hpdir, rfl⟩
    obtain ⟨hd, hdir, hname, -⟩ := hwhole.missing_dir hch hmiss
    exact newEntry_current hwalk hd hdir hname (hwhole.missing_room hch hmiss henough hroom)

end Durable

/-! ## Sequences of calls -/

namespace FileOp

def Supplied (m : Mem) : FileOp → Prop
  | create path => EnoughBlocks path m ∧ ¬ Crowded path m
  | _ => True

lemma current {s : Store} {op : FileOp} (hop : op.Allowed s.mem) (hsup : op.Supplied s.mem)
    (h : Tracks Current (fun _ _ => True) s) : Tracks Current (fun _ _ => True) (op.proc.run s).2 := by
  have hreg : ∀ f, IsFile s.mem f ∧ s.mem (fType f) = ftypeReg → s.mem (fType f) ≠ ftypeDir := by
    intro f hf
    rw [hf.2]
    decide
  suffices hkeeps : Proc.Keeps (Tracks Current fun _ _ => True) op.proc s from hkeeps h
  cases op with
  | create path => exact .bind (fun h => fileCreate_current h hop hsup.1 hsup.2) fun _ _ _ => .pure _ _
  | write cached buf f count off =>
    obtain ⟨hf, hmax⟩ := hop
    have hlimit := hmax
    rw [maxfilesize_eq] at hlimit
    obtain ⟨h0, -⟩ := h.lags.tidy.sizes f hf.1
    refine .bind (fileWrite_keeps Current.lag cached buf (by omega) hf.1 (hreg f hf) (fun hlt hcur => ?_)
      fun m _ hm hsize p hp => ⟨hm, ?_⟩) fun _ _ _ => .pure _ _
    · have hgrow : ¬ ((off + count : Nat) : Int) < size s.mem f := by omega
      have hnew := hcur.setSize hf.1 (hreg f hf) (by omega) (by omega) (if_neg hgrow) .refl
      rwa [show toU32 ((off + count : Nat) : Int) = off + count from toU32_stop (by omega)] at hnew
    · rcases hsize with hsize | ⟨hsize, hle⟩
      · unfold size
        rw [hsize, toI32_of_range (by omega) (by omega)]
        omega
      · have hold : size m f = size s.mem f := by
          unfold size
          rw [hsize]
        have hnat := toU32_of_range h0 (lt_trans (toI32_range _).2 (by decide))
        rw [hold]
        generalize size s.mem f = z at hle hnat ⊢
        omega
  | setSize f newsize =>
    obtain ⟨hf, hmax⟩ := hop
    refine .bind (fileSetSize_keeps Current.lag.toLag hf.1 (hreg f hf) fun m1 htr hsteps hcur => ?_) fun _ _ _ => .pure _ _
    exact hcur.setSize hf.1 (hreg f hf) (by omega) (by omega) htr hsteps
  | flush f => exact fileFlush_keeps Current.lag.toLag f

end FileOp

def SuppliedStep (s s' : Store) : Prop := ∃ op : FileOp, op.Allowed s.mem ∧ op.Supplied s.mem ∧ (op.proc.run s).2 = s'

lemma SuppliedStep.run_current (h : Tidy m) {s : Store} (hrun : ReflTransGen SuppliedStep (mounted m) s) :
    Tracks Current (fun _ _ => True) s := by
  induction hrun with
  | refl => exact ⟨h.toOwned, h.unused.mono (by decide), ⟨h, .refl _ m, .refl m⟩, fun _ hd => absurd hd List.not_mem_nil⟩
  | tail _ hstep ih =>
    obtain ⟨op, hop, hsup, rfl⟩ := hstep
    exact FileOp.current hop hsup ih

/-- `file_flush` returns, and the disk has the file. -/
theorem flushed_on_disk {m : Mem} (h : Tidy m) {s : Store} (hrun : ReflTransGen SuppliedStep (mounted m) s) {f : Nat}
    (hf : IsFile s.mem f) :
    ∃ d past, (Durable.fileFlush f).run s = (.ok (), ⟨s.mem, d, past⟩) ∧ OnDisk s.mem d f := by
  have hcur := SuppliedStep.run_current h hrun
  obtain ⟨h0, hmax⟩ := hcur.lags.tidy.sizes f hf
  obtain ⟨d, past, hflush, hdisk⟩ := fileFlush_written hcur.owned hf h0 hmax
  have hkeeps := fileFlush_keeps Current.lag.toLag f hcur
  rw [hflush] at hkeeps
  exact ⟨d, past, hflush, hkeeps.lags.onDisk hf fun w hw => hdisk w (.inr hw)⟩

/-- A byte that is written to an empty file reaches the disk with `file_flush` only. -/
theorem flushed_on_disk_small : ∃ s d past, SuppliedStep (mounted smallDisk) s ∧
    s.disk (1024 * blockAt s.mem 3072 0) ≠ s.mem (1024 * blockAt s.mem 3072 0) ∧
    (Durable.fileFlush 3072).run s = (.ok (), ⟨s.mem, d, past⟩) ∧ OnDisk s.mem d 3072 := by
  have hop : (FileOp.write (fun _ => false) (fun _ _ => 120) 3072 1 0).Allowed smallDisk := by
    refine ⟨⟨smallDisk_file, rfl⟩, ?_⟩
    rw [maxfilesize_eq]
    decide
  have hstep : SuppliedStep (mounted smallDisk) ((FileOp.write (fun _ => false) (fun _ _ => 120) 3072 1 0).proc.run (mounted smallDisk)).2 :=
    ⟨_, hop, trivial, rfl⟩
  have htidy : Tidy smallDisk := ⟨smallDisk_sound.toWhole, smallDisk_sound.unused⟩
  set s := ((FileOp.write (fun _ => false) (fun _ _ => 120) 3072 1 0).proc.run (mounted smallDisk)).2 with hs
  obtain ⟨hfirst, hdirty⟩ : FirstNamed s.mem ∧
      s.disk (1024 * blockAt s.mem 3072 0) ≠ s.mem (1024 * blockAt s.mem 3072 0) := by decide +kernel
  obtain ⟨d, past, hflush, hon⟩ := flushed_on_disk htidy (.single hstep) hfirst.isFile
  exact ⟨s, d, past, hstep, hdirty, hflush, hon⟩

end Jos.Fs
