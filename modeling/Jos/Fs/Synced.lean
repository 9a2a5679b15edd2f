import Mathlib.Data.List.Find
import Jos.Fs.Blocks
import Jos.Fs.Create
import Jos.Fs.Tracks

/-!
# The words that lead to the files

Paths are resolved by the directories: their entries in their parents, their blocks and the
names and types in them. Two memories with the same such words have the same files under the
same paths. What is done to a regular file changes none of them.
-/

namespace Jos.Fs
open Relation WordMem CInt Function

variable {b f : Nat} {t : Slot}

inductive DirWord (m : Mem) : Nat → Prop where
  | top {w : Nat} (hw : w = 1025 ∨ w = root + 33) : DirWord m w
  | field {D k : Nat} (hD : IsFile m D) (hdir : m (fType D) = ftypeDir) (hk : k < 64) : DirWord m (D + k)
  | slot {t : Slot} (ht : t.Exists m) (hdir : m (fType t.file) = ftypeDir) : DirWord m (t.word m)
  | entry {D i c j k : Nat} (href : Refers m (.block D i) c) (hdir : m (fType D) = ftypeDir) (hj : j < blkfiles)
      (hk : k < 32 ∨ k = 33) : DirWord m (1024 * c + 64 * j + k)

lemma Slot.exists_congr {m m' : Mem} (hfile : IsFile m' t.file ↔ IsFile m t.file)
    (hind : m' (fIndirect t.file) = m (fIndirect t.file)) : (t.Exists m' ↔ t.Exists m) ∧ t.word m' = t.word m := by
  cases t with
  | block f i =>
    have hind' : m' (fIndirect f) = m (fIndirect f) := hind
    simp only [Slot.Exists, Slot.word, hind']
    exact ⟨and_congr_left fun _ => hfile, trivial⟩
  | indirect f => exact ⟨hfile, rfl⟩

def SameDirWords (m m' : Mem) : Prop := ∀ w, DirWord m w → m' w = m w

section
variable {m m' : Mem} (h : SameDirWords m m')
include h

lemma SameDirWords.nblocks_eq : sNblocks m' = sNblocks m := h _ (.top (.inl rfl))

lemma SameDirWords.type_eq (hf : IsFile m f) : m' (fType f) = m (fType f) := by
  cases hf with
  | root => exact h _ (.top (.inr rfl))
  | entry hd hdir hi hb hj _ => exact h _ (.entry ⟨hd, hi, rfl, hb⟩ hdir hj (.inr rfl))

section
variable {D : Nat} (hD : IsFile m D) (hdir : m (fType D) = ftypeDir)
include hD hdir

lemma SameDirWords.indirect_eq : m' (fIndirect D) = m (fIndirect D) := h _ (.field hD hdir (by decide))

lemma SameDirWords.size_eq : size m' D = size m D := by
  unfold size
  rw [show fSize D = D + 32 from rfl, h _ (.field hD hdir (by decide))]

lemma SameDirWords.blockAt_eq {i : Nat} (hi : i < ndirect + nindirect) : blockAt m' D i = blockAt m D i := by
  refine blockAt_congr (fun hlt => ?_) (h.indirect_eq hD hdir) fun hle hind => ?_
  · have hword := h _ (.slot (t := .block D i) ⟨hD, hi, fun hle => absurd hlt (Nat.not_lt.2 hle)⟩ hdir)
    rwa [Slot.word, if_pos hlt] at hword
  · have hword := h _ (.slot (t := .block D i) ⟨hD, hi, fun _ => hind⟩ hdir)
    rwa [Slot.word, if_neg (Nat.not_lt.2 hle)] at hword

end

lemma SameDirWords.isFile_iff (f : Nat) : IsFile m' f ↔ IsFile m f := by
  have hdirs : SameDirs m m' := by
    refine ⟨fun f hf => h.type_eq hf, fun D i hD hdir hi _ => h.blockAt_eq hD hdir hi, fun D i j hD hdir hi h0 hne => ?_,
      fun D i j hD hdir hi hne hj => nameEmpty_congr ?_⟩
    · exact absurd ((h.blockAt_eq hD hdir hi).trans h0) hne
    · exact h _ (.entry (k := 0) ⟨hD, hi, rfl, hne⟩ hdir hj (.inl (by decide)))
  exact hdirs.isFile_iff

lemma SameDirWords.dir {D : Nat} (hD : IsFile m' D) (hdir : m' (fType D) = ftypeDir) : IsFile m D ∧ m (fType D) = ftypeDir := by
  have hD' := (h.isFile_iff D).1 hD
  exact ⟨hD', (h.type_eq hD').symm.trans hdir⟩

lemma SameDirWords.of_dirWord {w : Nat} (hw : DirWord m' w) : DirWord m w := by
  cases hw with
  | top hw => exact .top hw
  | field hD hdir hk =>
    obtain ⟨hD, hdir⟩ := h.dir hD hdir
    exact .field hD hdir hk
  | @slot t ht hdir =>
    obtain ⟨hD, hdir⟩ := h.dir (Slot.word_cases ht).1 hdir
    obtain ⟨hex, hword⟩ := Slot.exists_congr (h.isFile_iff t.file) (h.indirect_eq hD hdir)
    rw [hword]
    exact .slot (hex.1 ht) hdir
  | entry href hdir hj hk =>
    obtain ⟨hD, hi, hb, h0⟩ := href
    obtain ⟨hD, hdir⟩ := h.dir hD hdir
    exact .entry ⟨hD, hi, (h.blockAt_eq hD hdir hi).symm.trans hb, h0⟩ hdir hj hk

lemma SameDirWords.symm : SameDirWords m' m := fun w hw => (h w (h.of_dirWord hw)).symm

lemma SameDirWords.trans {d : Mem} (h' : SameDirWords m' d) : SameDirWords m d := fun w hw =>
  (h' w (h.symm.of_dirWord hw)).trans (h w hw)

end

section
variable {m d : Mem} (h : Whole m) (hsame : SameDirWords m d)
include h hsame

lemma SameDirWords.allocated : Allocated d := by
  have hfile : ∀ D, InTree d D → IsFile m D := by
    intro D hD
    refine (hsame.isFile_iff D).1 (hD.isFile fun D i hD hdir hi => ?_)
    obtain ⟨hD, hdir⟩ := hsame.dir hD hdir
    rw [hsame.size_eq hD hdir] at hi
    have hlt := lt_of_lt_of_le hi (h.nblock hD hdir).2.1
    rw [hsame.blockAt_eq hD hdir hlt]
    exact ⟨hlt, h.dirBlocks D i hD hdir hi⟩
  refine ⟨fun D hD hdir => ?_, fun D i hD hdir hi => ?_, fun D hD hdir hi => ?_⟩ <;>
    replace hD := hfile D hD <;> rw [hsame.type_eq hD] at hdir
  · rw [hsame.size_eq hD hdir]
    exact h.allocated.sizes D (h.inTree hD) hdir
  · rw [hsame.size_eq hD hdir] at hi
    rw [hsame.blockAt_eq hD hdir (lt_of_lt_of_le hi (h.nblock hD hdir).2.1), hsame.nblocks_eq]
    exact h.allocated.blocks D i (h.inTree hD) hdir hi
  · rw [hsame.size_eq hD hdir] at hi
    rw [hsame.indirect_eq hD hdir, hsame.nblocks_eq]
    exact h.allocated.indirect D (h.inTree hD) hdir hi

lemma SameDirWords.lookup_eq {D : Nat} {name : List Nat} (hD : IsFile m D) (hdir : m (fType D) = ftypeDir)
    (hname : NameOk name) : lookup d D name = lookup m D name := by
  have hentries : entries d D = entries m D := entries_congr (hsame.size_eq hD hdir) fun i hi =>
    hsame.blockAt_eq hD hdir (lt_of_lt_of_le hi (h.nblock hD hdir).2.1)
  unfold lookup
  rw [hentries]
  refine List.find?_congr fun e he => ?_
  obtain ⟨i, c, j, -, href, hj, rfl⟩ := h.entry_refers hD hdir he
  rw [Bool.eq_iff_iff, nameIs_iff_entryName hname.chars hname.short, nameIs_iff_entryName hname.chars hname.short,
    entryName_congr fun k hk => hsame _ (.entry href hdir hj (.inl hk))]

lemma SameDirWords.opens {path : List Nat} (hch : Chars path) (hopen : openResult path m = .ok (.ok f)) :
    openResult path d = .ok (.ok f) := by
  refine ((hsame.allocated h).openResult_iff hch).2 ?_
  refine (h.follow_kept (fun g hg => hsame.type_eq hg) (fun g n x hg hdir hn hlook => ?_) (components_ok hch)
    ((h.allocated.openResult_iff hch).1 hopen)).2
  rw [hsame.lookup_eq h hg hdir hn]
  exact hlook

end

lemma SameDirWords.refl (m : Mem) : SameDirWords m m := fun _ _ => rfl

lemma SameDirWords.flush {m d : Mem} (h : SameDirWords m d) (b : Nat) : SameDirWords m (written b m d) := fun w hw =>
  written_same (h w hw)

/-! ## What is done to a regular file -/

section
variable {m : Mem} (ho : Owned m) {w : Nat} (hw : DirWord m w)
include ho hw

lemma DirWord.ne_free (hb : blockIsFree m b) : w / 1024 ≠ b := by
  cases hw with
  | top hw =>
    have htwo := two_le_reservedEnd m
    have hrange := ho.free_range hb
    unfold root at hw
    omega
  | field hD _ hk => exact ho.file_ne hD hk hb
  | slot ht _ => exact ho.word_ne_free ht hb
  | entry href _ hj hk =>
    rw [(ho.entry_block href hj (by omega) (ho.free_range hb).2).1]
    exact fun heq => ho.exclusive.used _ _ href (heq ▸ hb)

lemma DirWord.ne_bitmap (hb : b < sNblocks m) : w ≠ bitmapWord b := by
  cases hw with
  | top hw =>
    unfold root at hw
    unfold bitmapWord
    omega
  | field hD _ hk => exact ho.file_not_bitmap hD hk hb
  | slot ht _ => exact ho.word_ne_bitmap ht hb
  | entry href _ hj hk => exact (ho.entry_block href hj (by omega) hb).2

lemma DirWord.ne_word (ht : t.Exists m) (hreg : m (fType t.file) ≠ ftypeDir) : w ≠ t.word m := by
  cases hw with
  | top hw =>
    rcases hw with rfl | rfl
    · exact (ho.word_ne_super ht).symm
    · exact ho.field_ne_word ht .root (by decide) (.inl (by decide))
  | field hD hdir hk => exact ho.field_ne_word ht hD hk (.inr fun heq => hreg (heq ▸ hdir))
  | slot ht' hdir => exact fun heq => hreg (ho.word_inj ht' ht heq ▸ hdir)
  | entry href _ hj hk => exact ho.entry_ne_word ht href hj (by omega) (.inl (by omega))

lemma DirWord.ne_size (hf : IsFile m f) (hreg : m (fType f) ≠ ftypeDir) : w ≠ fSize f := by
  cases hw with
  | top hw =>
    rcases hw with rfl | rfl
    · exact (ho.file_not_super hf (by decide)).symm
    · intro heq
      have hroot := ho.file_inj .root hf (by decide) (by decide) (show root + 33 = f + 32 from heq)
      unfold fSize at heq
      omega
  | @field D k hD hdir hk =>
    intro heq
    exact hreg (ho.file_inj hD hf hk (by decide) (show D + k = f + 32 from heq) ▸ hdir)
  | slot ht _ => exact (ho.field_ne_word ht hf (by decide) (.inl (by decide))).symm
  | @entry D i c j k href hdir hj hk =>
    intro heq
    have hsame := ho.entry_inj hf href hj (k := 32) (by decide) (by omega) heq
    unfold fSize at heq
    omega

end

section
variable {m m' : Mem} {f : Nat}

lemma Attached.sameDirWords (h : Attached m m' t b) (ho : Owned m) (ht : t.Exists m)
    (hreg : m (fType t.file) ≠ ftypeDir) : SameDirWords m m' := fun _ hw =>
  h.other _ (hw.ne_word ho ht hreg) (hw.ne_free ho h.free) (hw.ne_bitmap ho (ho.free_range h.free).2)

lemma DetachStep.sameDirWords (h : ReflTransGen (DetachStep f) m m') (ho : Owned m) (hf : IsFile m f)
    (hreg : m (fType f) ≠ ftypeDir) : SameDirWords m m' := by
  induction h with
  | refl => exact .refl m
  | @tail m1 m2 hrun hstep ih =>
    have hshrunk := DetachStep.run hrun ho hf
    obtain ⟨t, b, rfl, href, hdet⟩ := hstep
    have hreg1 : m1 (fType t.file) ≠ ftypeDir := by rwa [ih.type_eq hf]
    refine ih.trans fun w hw => hdet.other _ ?_ (hw.ne_bitmap hshrunk.owned (hshrunk.owned.range _ _ href).2)
    exact hw.ne_word hshrunk.owned (refers_iff.1 href).1 hreg1

lemma sameDirWords_resize (ho : Owned m) (hf : IsFile m f) (hreg : m (fType f) ≠ ftypeDir) (v : Nat) :
    SameDirWords m (update m (fSize f) v) := fun _ hw => update_of_ne (hw.ne_size ho hf hreg) _ _

lemma SameButData.sameDirWords (h : SameButData f m m') (ho : Owned m) (hreg : m (fType f) ≠ ftypeDir) : SameDirWords m m' := by
  obtain ⟨hdir, hfield, htree⟩ := h.tree ho hreg
  intro w hw
  cases hw with
  | top hw =>
    rcases hw with rfl | rfl
    · exact h.nblocks_eq ho
    · exact hfield root 33 .root (by decide)
  | field hD _ hk => exact hfield _ _ hD hk
  | slot ht _ => exact htree.slot _ ht
  | entry href hD hj hk =>
    refine hdir _ _ _ _ href hD ?_
    unfold blkfiles at hj
    omega

end

/-! ## The disk while regular files are written -/

/-- A consistent image: its directories have all their blocks and what is not used in them is blank. -/
structure Tidy (m : Mem) : Prop extends Whole m where
  unused : UnusedBlank 32 m

section
variable {m m' : Mem} (h : Tidy m)
include h

lemma Tidy.of_same (hsame : SameDirWords m m') (ha : Agrees m') (hu : UnusedBlank 32 m')
    (hsizes : ∀ f, IsFile m' f → 0 ≤ size m' f ∧ size m' f ≤ maxfilesize) : Tidy m' := by
  refine { toAgrees := ha, sizes := hsizes, unused := hu, dirSizes := fun D hD hdir => ?_, dirBlocks := fun D i hD hdir hi => ?_ } <;>
    obtain ⟨hD, hdir⟩ := hsame.dir hD hdir
  · rw [hsame.size_eq hD hdir]
    exact h.dirSizes D hD hdir
  · rw [hsame.size_eq hD hdir] at hi
    rw [hsame.blockAt_eq hD hdir (lt_of_lt_of_le hi (h.nblock hD hdir).2.1)]
    exact h.dirBlocks D i hD hdir hi

variable {f : Nat} (hf : IsFile m f) (hreg : m (fType f) ≠ ftypeDir)

lemma Tidy.attach (ha : Attached m m' t b) (ht : t.Exists m) (hempty : m (t.word m) = 0)
    (hreg : m (fType t.file) ≠ ftypeDir) (htail : ∀ f i, t = .block f i → i < nblocks (size m f)) : Tidy m' := by
  have ho := h.toOwned
  refine h.of_same (ha.sameDirWords ho ht hreg) (ha.agrees ht hempty h.toAgrees htail) (ha.unusedBlank ho ht hempty h.unused)
    fun g hg => ?_
  have hg' := (ha.isFile_iff ho ht hempty g).1 hg
  rw [ha.size_eq ho ht hg']
  exact h.sizes g hg'

include hreg

lemma Tidy.data (hdata : SameButData f m m') : Tidy m' := by
  have ho := h.toOwned
  obtain ⟨-, hfield, htree⟩ := hdata.tree ho hreg
  have hsize : ∀ g, IsFile m g → size m' g = size m g := fun g hg => by
    unfold size
    rw [show fSize g = g + 32 from rfl, hfield g 32 hg (by decide)]
  refine h.of_same (hdata.sameDirWords ho hreg) (htree.agrees (hdata.nblocks_eq ho) (hdata.free_eq ho) h.toAgrees fun g i hg hi hle => ?_)
    (hdata.unusedBlank ho hreg h.unused) fun g hg => ?_
  · rw [hsize g hg] at hle
    exact h.tail g i hg hi hle
  · have hg' := (htree.isFile_iff g).1 hg
    rw [hsize g hg']
    exact h.sizes g hg'

include hf

lemma Tidy.setSize {newsize : Int} (h0 : 0 ≤ newsize) (hmax : newsize ≤ maxfilesize) {m1 : Mem}
    (htr : (if newsize < size m f then fileTruncateBlocks f newsize m else pure m) = .ok m1)
    (hsteps : ReflTransGen (DetachStep f) m m1) : Tidy (update m1 (fSize f) (toU32 newsize)) := by
  rw [maxfilesize_eq] at hmax
  have ho := h.toOwned
  have hshrunk := DetachStep.run hsteps ho hf
  have hset : fileSetSize f newsize m = .ok (0, update m1 (fSize f) (toU32 newsize)) := by
    unfold fileSetSize
    split at htr
    · rename_i hlt
      rw [if_pos hlt, htr]
      rfl
    · rename_i hge
      cases htr
      rw [if_neg hge]
      rfl
  have hreg1 : m1 (fType f) ≠ ftypeDir := by rwa [(DetachStep.sameDirWords hsteps ho hf hreg).type_eq hf]
  have hsame := (DetachStep.sameDirWords hsteps ho hf hreg).trans (sameDirWords_resize hshrunk.owned hshrunk.isFile hreg1 (toU32 newsize))
  refine h.of_same hsame (fileSetSize_agrees h.toAgrees hf hreg h0 (by omega) (h.sizes f hf).1 hset) ?_ fun g hg => ?_
  · exact unusedBlank_resize hshrunk.owned hshrunk.isFile _ ((DetachStep.regular hsteps ho hf hreg).2 32 h.unused)
  · by_cases hgf : g = f
    · subst hgf
      have hsize : size (update m1 (fSize g) (toU32 newsize)) g = newsize := by
        unfold size
        rw [update_self, toI32_toU32, toI32_of_range (by omega) (by omega)]
      rw [hsize, maxfilesize_eq]
      omega
    · have hg' := (hsame.isFile_iff g).1 hg
      have hg1 := ((DetachStep.regular hsteps ho hf hreg).1 g).2 hg'
      have hsize : size (update m1 (fSize f) (toU32 newsize)) g = size m g := by
        unfold size
        rw [show fSize g = g + 32 from rfl, resize_field hshrunk.owned hshrunk.isFile _ hg1 (by decide) (.inl hgf),
          hshrunk.field g 32 hg1 (by decide)]
      rw [hsize]
      exact h.sizes g hg'

end

structure Current (m d : Mem) : Prop where
  tidy : Tidy m
  behind : Behind (fun _ => False) m d
  dirs : SameDirWords m d

def Within (m : Mem) (f i : Nat) : Prop := m (fType f) ≠ ftypeDir ∧ (4096 * i : Nat) < size m f

lemma Current.lag : DataLag Current (fun _ _ => True) Within where
  crash _ := trivial
  flush b h := ⟨h.tidy, h.behind.flush b, h.dirs.flush b⟩
  takes _ _ _ := trivial
  attach := by
    intro m m' d f i t b h ho hA hfi ht hempty ha
    have hfile : t.file = f := by
      rcases hfi with rfl | ⟨rfl, -⟩ <;> rfl
    have hreg : m (fType t.file) ≠ ftypeDir := by
      rw [hfile]
      exact hA.1
    have hlt := (ho.free_range ha.free).2
    refine ⟨h.tidy.attach ha ht hempty hreg ?_, h.behind.attach ho ht hempty ha, ?_⟩
    · rintro g j rfl
      obtain ⟨rfl, rfl⟩ : g = f ∧ j = i := by
        rcases hfi with heq | ⟨heq, -⟩ <;> cases heq
        exact ⟨rfl, rfl⟩
      have hmax := (h.tidy.sizes g ht.1).2
      rw [maxfilesize_eq] at hmax
      have hwithin := hA.2
      have hn := nblocks_of_fits (s := size m g) (by omega) (by omega)
      omega
    · have hsame := ha.sameDirWords ho ht hreg
      refine SameDirWords.flush (hsame.symm.trans fun w hw => ?_) b
      by_cases hblock : w / 1024 = bitmapWord b / 1024
      · rw [written_self hblock]
        exact takeBlock_of_ne (hw.ne_bitmap ho hlt) m
      · rw [written_of_ne hblock]
        exact h.dirs w hw
  grown hA hf hgrown := by
    unfold Within
    rw [hgrown.type_eq hf, hgrown.size_eq hf]
    exact hA
  data h ho hreg hsame :=
    ⟨h.tidy.data hreg hsame, h.behind.data ho hreg hsame, (hsame.sameDirWords ho hreg).symm.trans h.dirs⟩
  same := by
    intro m m' f i hA ho hsame
    unfold Within size
    rw [show fType f = f + 33 from rfl, show fSize f = f + 32 from rfl, hsame.field_eq ho (by decide),
      hsame.field_eq ho (by decide)]
    exact hA

end Jos.Fs
