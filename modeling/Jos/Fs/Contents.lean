import Jos.Fs.Directories
import Jos.Fs.Format
import Jos.Fs.Room

/-!
# The contents of a file

A file is an array of bytes: those of its blocks, with zeros where a block is missing.
Fetching a block changes no byte of any regular file, and copying into a block changes
the bytes at these positions of this file only. So `file_read` and `file_write` are
reads and writes of the array.
-/

namespace Jos.Fs
open WordMem CInt Ownership Function
open Relation (ReflTransGen)

variable {count f g off p stop : Nat} {m : Mem}

def byteAt (m : Mem) (f p : Nat) : Nat :=
  if blockAt m f (p / 4096) = 0 then 0 else getByte m (4096 * blockAt m f (p / 4096) + p % 4096)

section
variable {m : Mem} (ho : Owned m) {g i c : Nat} (href : Refers m (.block g i) c)
include ho href in
lemma Owned.data_ne_file (hreg : m (fType g) ≠ ftypeDir) {k : Nat} (hf : IsFile m f) (hk : k < 64) :
    (f + k) / 1024 ≠ c := by
  rw [hf.block hk]
  rintro rfl
  rcases hf.parent with rfl | ⟨d, i', href', hdir, -⟩
  · have := (ho.range _ _ href).1
    have := two_le_reservedEnd m
    unfold root at *
    omega
  · cases ho.exclusive.unique _ _ _ href href'
    exact hreg hdir

include ho href in
lemma Owned.data_ne_word (hreg : m (fType g) ≠ ftypeDir) {s : Slot} (hs : s.Exists m) : s.word m / 1024 ≠ c := by
  obtain ⟨hfile, ⟨k, -, hk, hw, -⟩ | ⟨hind, hw, -⟩⟩ := Slot.word_cases hs
  · rw [hw]
    exact ho.data_ne_file href hreg hfile (by omega)
  · rintro rfl
    have hind' : Refers m (.indirect s.file) (s.word m / 1024) := ⟨hfile, hw.symm, by rwa [hw]⟩
    cases ho.exclusive.unique _ _ _ href hind'

include ho href in
lemma Owned.data_ne_bitmap {w b : Nat} (hw : w / 1024 = c) (hb : b < sNblocks m) : w ≠ bitmapWord b := by
  rintro rfl
  have := (bitmapWord_reserved hb).2
  have := (ho.range _ _ href).1
  omega

end

lemma byteAt_missing (h : blockAt m f (p / 4096) = 0) : byteAt m f p = 0 := if_pos h

lemma byteAt_present (h : blockAt m f (p / 4096) ≠ 0) :
    byteAt m f p = getByte m (4096 * blockAt m f (p / 4096) + p % 4096) := if_neg h

lemma byteAt_congr {m' : Mem} (hb : blockAt m' f (p / 4096) = blockAt m f (p / 4096))
    (h : ∀ w, blockAt m f (p / 4096) ≠ 0 → w / 1024 = blockAt m f (p / 4096) → m' w = m w) : byteAt m' f p = byteAt m f p := by
  unfold byteAt
  rw [hb]
  split
  · rfl
  · exact getByte_congr (h _ ‹_› (by omega))

section
variable {m m' : Mem} {g p : Nat} (hg : IsFile m g) (hreg : m (fType g) ≠ ftypeDir) (hp : p / 4096 < ndirect + nindirect)
include hg hreg hp in
lemma Attached.byteAt_eq {s : Slot} {b : Nat} (h : Attached m m' s b) (ho : Owned m) (hs : s.Exists m)
    (hempty : m (s.word m) = 0) : byteAt m' g p = byteAt m g p := by
  have hblock := h.blockAt_eq ho hs hempty hg hp
  by_cases hself : Slot.block g (p / 4096) = s
  · subst hself
    rw [if_pos rfl] at hblock
    have hb : b ≠ 0 := by
      have := (ho.free_range h.free).1
      have := two_le_reservedEnd m
      omega
    rw [byteAt_missing ((blockAt_word hs).trans hempty), byteAt_present (by rwa [hblock]), hblock]
    unfold getByte
    rw [h.clear _ (by omega)]
    simp [byteOf]
  · rw [if_neg hself] at hblock
    refine byteAt_congr hblock fun w hne hw => ?_
    have href : Refers m (.block g (p / 4096)) (blockAt m g (p / 4096)) := ⟨hg, hp, rfl, hne⟩
    refine h.other w ?_ ?_ (ho.data_ne_bitmap href hw (ho.free_range h.free).2)
    · rintro rfl
      exact ho.data_ne_word href hreg hs hw
    · rw [hw]
      rintro rfl
      exact ho.exclusive.used _ _ href h.free

include hg hreg hp in
lemma AttachStep.byteAt_eq {i : Nat} (h : ReflTransGen (AttachStep f i) m m') (ho : Owned m) :
    byteAt m' g p = byteAt m g p := by
  induction h with
  | refl => rfl
  | tail hrun hstep ih =>
    have hgrown := AttachStep.run hrun ho
    obtain ⟨s, b, hs, hempty, hatt, -⟩ := hstep
    exact (hatt.byteAt_eq ((hgrown.isFile_iff g).mpr hg) (by rwa [hgrown.type_eq hg]) hp hgrown.owned hs hempty).trans ih

end

section
variable {f : Nat} {m m' : Mem} (h : ReflTransGen (DetachStep f) m m') (ho : Owned m) (hf : IsFile m f)
include h ho hf in
lemma DetachStep.refers_of {t : Slot} {c : Nat} (ht : Refers m' t c) : Refers m t c := by
  induction h with
  | refl => exact ht
  | tail hrun hstep ih =>
    obtain ⟨s, b, -, href, hdet⟩ := hstep
    exact ih (hdet.refers_of (DetachStep.run hrun ho hf).owned href ht).1

include h ho hf in
lemma DetachStep.word_eq {t : Slot} {c : Nat} (ht : Refers m' t c) : t.word m' = t.word m := by
  cases t with
  | indirect g => rfl
  | block g i =>
    by_cases hi : i < ndirect
    · simp only [Slot.word, if_pos hi]
    · have hex := (refers_iff.mp ht).1
      have hind : Refers m' (.indirect g) (m' (fIndirect g)) := ⟨hex.1, rfl, hex.2.2 (by omega)⟩
      simp only [Slot.word, if_neg hi, (DetachStep.refers_of h ho hf hind).2.1]

include h ho hf in
lemma DetachStep.data_eq {i w : Nat} (href : Refers m (.block g i) (w / 1024)) (hreg : m (fType g) ≠ ftypeDir) :
    m' w = m w := by
  induction h with
  | refl => rfl
  | tail hrun hstep ih =>
    obtain ⟨s, b, -, hs, hdet⟩ := hstep
    have hs0 := DetachStep.refers_of hrun ho hf hs
    refine (hdet.other w ?_ (ho.data_ne_bitmap href rfl (ho.range _ _ hs0).2)).trans ih
    rintro rfl
    refine ho.data_ne_word href hreg (refers_iff.mp hs0).1 ?_
    rw [← DetachStep.word_eq hrun ho hf hs]

include h ho hf in
lemma DetachStep.byteAt_eq (hg : IsFile m g) (hreg : m (fType g) ≠ ftypeDir)
    (hp : p / 4096 < ndirect + nindirect) (hb : blockAt m' g (p / 4096) = blockAt m g (p / 4096)) :
    byteAt m' g p = byteAt m g p :=
  byteAt_congr hb fun w hne hw => DetachStep.data_eq h ho hf (show Refers m (.block g (p / 4096)) (w / 1024) from
    ⟨hg, hp, hw.symm, hw ▸ hne⟩) hreg

end

section
variable {m : Mem} (ho : Owned m) {f i o : Nat} (hf : IsFile m f) (hreg : m (fType f) ≠ ftypeDir)
  (hi : i < ndirect + nindirect) (hb : blockAt m f i ≠ 0) {bs : List Nat} (hlen : o + bs.length ≤ 4096)
include hf hi hb hlen in
lemma sameButData_putBytes : SameButData f m (putBytes m (4096 * blockAt m f i + o) bs) :=
  SameButData.putBytes (fun _ _ => rfl) (show Refers m (.block f i) _ from ⟨hf, hi, rfl, hb⟩) hlen

include ho hf hreg hi hb hlen in
lemma byteAt_putBytes (hg : IsFile m g) (hp : p / 4096 < ndirect + nindirect) :
    byteAt (putBytes m (4096 * blockAt m f i + o) bs) g p =
      if g = f ∧ 4096 * i + o ≤ p ∧ p < 4096 * i + o + bs.length then bs[p - (4096 * i + o)]?.getD 0 % 256
      else byteAt m g p := by
  have htree := ((sameButData_putBytes hf hi hb hlen).tree ho hreg).2.2
  have hblock := htree.blockAt_eq hg hp
  by_cases hc : blockAt m g (p / 4096) = 0
  · rw [byteAt_missing (hblock.trans hc), byteAt_missing hc, if_neg]
    rintro ⟨rfl, hlo, hhi⟩
    rw [show p / 4096 = i by omega] at hc
    exact hb hc
  · rw [byteAt_present (by rwa [hblock]), byteAt_present hc, hblock, getByte_putBytes]
    have hiff : (4096 * blockAt m f i + o ≤ 4096 * blockAt m g (p / 4096) + p % 4096 ∧
        4096 * blockAt m g (p / 4096) + p % 4096 < 4096 * blockAt m f i + o + bs.length) ↔
        g = f ∧ 4096 * i + o ≤ p ∧ p < 4096 * i + o + bs.length := by
      constructor
      · intro hin
        have heq : blockAt m g (p / 4096) = blockAt m f i := by omega
        cases ho.exclusive.unique (.block g (p / 4096)) (.block f i) _ ⟨hg, hp, rfl, hc⟩ ⟨hf, hi, heq.symm, hc⟩
        omega
      · rintro ⟨rfl, hlo, hhi⟩
        rw [show p / 4096 = i by omega]
        omega
    by_cases hin : g = f ∧ 4096 * i + o ≤ p ∧ p < 4096 * i + o + bs.length
    · rw [if_pos (hiff.mpr hin), if_pos hin]
      obtain ⟨rfl, hlo, hhi⟩ := hin
      rw [show p / 4096 = i by omega,
        show 4096 * blockAt m g i + p % 4096 - (4096 * blockAt m g i + o) = p - (4096 * i + o) by omega]
    · rw [if_neg fun h => hin (hiff.mp h), if_neg hin]

end

/-- What copying to or from `f`, between positions `off` and `stop`, leaves of the file system `m0`. -/
structure Keeps (f off stop : Nat) (m0 m : Mem) : Prop where
  isFile_iff : ∀ g, IsFile m g ↔ IsFile m0 g
  field : ∀ g k, IsFile m0 g → k < 34 → m (g + k) = m0 (g + k)
  room : ∀ lo hi, lo ≤ off / 4096 → stop ≤ 4096 * hi → hi ≤ ndirect + nindirect →
    needed m0 f lo hi + freeCount m = needed m f lo hi + freeCount m0

section
variable {f off stop : Nat} {m0 m m' : Mem}

lemma Keeps.refl : Keeps f off stop m0 m0 := ⟨fun _ => Iff.rfl, fun _ _ _ _ => rfl, fun _ _ _ _ _ => rfl⟩

lemma Keeps.attach (h : Keeps f off stop m0 m) (ho : Owned m) (hf : IsFile m f) (hp : p < stop) (hoff : off ≤ p)
    (hrun : ReflTransGen (AttachStep f (p / 4096)) m m') : Keeps f off stop m0 m' := by
  have hgrown := AttachStep.run hrun ho
  refine ⟨fun g => (hgrown.isFile_iff g).trans (h.isFile_iff g), fun g k hg hk => ?_, fun lo hi hlo hhi hmax => ?_⟩
  · rw [hgrown.field g k ((h.isFile_iff g).mpr hg) hk, h.field g k hg hk]
  · have h1 := h.room lo hi hlo hhi hmax
    have h2 := AttachStep.spent hrun ho hf (show lo ≤ p / 4096 by omega) (show p / 4096 < hi by omega) hmax
    omega

lemma SameButData.sameBlocks (h : SameButData f m m') (ho : Owned m) (hf : IsFile m f) (hreg : m (fType f) ≠ ftypeDir) :
    SameBlocks f m m' := by
  obtain ⟨-, hfield, htree⟩ := h.tree ho hreg
  have hn : sNblocks m' = sNblocks m := h.meta ho _ (.inl rfl)
  have hfree : ∀ b, blockIsFree m' b = blockIsFree m b := fun b =>
    blockIsFree_congr hn fun hb => h.meta ho _ (.inr (.inl ⟨b, hb, rfl⟩))
  exact ⟨htree.owned hn hfree ho, (htree.isFile_iff f).mpr hf, fun i hi => htree.blockAt_eq hf hi,
    hfield f 44 hf (by decide), freeCount_congr hn hfree⟩

lemma Keeps.copy (h : Keeps f off stop m0 m) (ho : Owned m) (hf : IsFile m f) (hreg : m (fType f) ≠ ftypeDir)
    (hsame : SameButData f m m') : Keeps f off stop m0 m' := by
  obtain ⟨-, hfield, htree⟩ := hsame.tree ho hreg
  have hblocks := hsame.sameBlocks ho hf hreg
  refine ⟨fun g => (htree.isFile_iff g).trans (h.isFile_iff g), fun g k hg hk => ?_, fun lo hi hlo hhi hmax => ?_⟩
  · rw [hfield g k ((h.isFile_iff g).mpr hg) (by omega), h.field g k hg hk]
  · rw [hblocks.free, needed_congr hmax hblocks.blocks hblocks.indirect]
    exact h.room lo hi hlo hhi hmax

lemma Keeps.size_eq (h : Keeps f off stop m0 m) (hg : IsFile m0 g) : Fs.size m g = Fs.size m0 g := by
  unfold Fs.size
  rw [show m (fSize g) = m0 (fSize g) from h.field g 32 hg (by decide)]

lemma Keeps.enough (h : Keeps f off stop m0 m) {lo hi : Nat} (hlo : lo ≤ off / 4096) (hhi : stop ≤ 4096 * hi)
    (hroom : Enough m0 f lo hi) (hlt : lo < hi) : Enough m f lo hi := by
  have := h.room lo hi hlo hhi (hroom.1 hlt)
  exact ⟨hroom.1, by have := hroom.2; omega⟩

end

section
variable {m : Mem} (ho : Owned m) {f : Nat} (hf : IsFile m f) (hreg : m (fType f) ≠ ftypeDir)

/-- The state of the loop of `file_read` at position `p`. -/
structure ReadTo (f off stop : Nat) (m0 : Mem) (p : Nat) (out : List (Nat × Nat)) (m mr : Mem) : Prop where
  real : mr = m
  from_le : off ≤ p
  keeps : Keeps f off stop m0 m
  bytes : ∀ g q, IsFile m0 g → m0 (fType g) ≠ ftypeDir → q / 4096 < ndirect + nindirect → byteAt m g q = byteAt m0 g q
  copied : out.map Prod.snd = (List.range (p - off)).map fun j => byteAt m0 f (off + j)

include ho hf hreg in
lemma moveBlocks_reads (cached : Nat → Bool) (hstop : stop < 2147483648) (hoff : off ≤ stop) (n : Nat)
    (hn : stop ≤ off + n) (hroom : Enough m f (off / 4096) (blockEnd off stop)) :
    ∃ out m', moveBlocks (readMove cached) f stop n off none [] m = .ok (none, out, m') ∧ Owned m' ∧
      ReadTo f off stop m stop out m' m' := by
  have hinit : ReadTo f off stop m off [] m m := ⟨rfl, le_rfl, .refl, fun _ _ _ _ _ => rfl, by simp⟩
  have hloop := @moveBlocks_fetch _ (readMove cached) f stop (ReadTo f off stop m) (by omega)
    (fun p out m1 mr m2 mr2 ho1 hf1 hp hrun hkept h => ?_) (fun p k out m1 mr ho1 hf1 hsame hi hb hk hfit hend h => ?_)
    n off [] m m ho hf (fun _ _ => rfl) hoff (by omega) hn hinit
  · rcases hloop with ⟨out, m', mr', hrun, hread, ho', -⟩ | ⟨q, out, m', mr', -, -, -, -, -, -, -, hout⟩ |
      ⟨k, q, blk, out, m', mr', -, -, -, -, -, -, -, -, -, hfails⟩
    · obtain rfl := hread.real
      exact ⟨out, mr', hrun, ho', hread⟩
    · exact absurd hout hroom.not_runsOut
    · exact absurd hfails hroom.not_walkFails
  · obtain rfl := h.real
    refine ⟨funext fun w => hkept w rfl, h.from_le, h.keeps.attach ho1 hf1 hp h.from_le hrun, fun g q hg hgreg hq => ?_,
      h.copied⟩
    have htype : mr (fType g) = m (fType g) := h.keeps.field g 33 hg (by decide)
    rw [AttachStep.byteAt_eq ((h.keeps.isFile_iff g).mpr hg) (by rwa [htype]) hq hrun ho1, h.bytes g q hg hgreg hq]
  · obtain rfl := h.real
    have href : Refers mr (.block f (p / 4096)) (blockAt mr f (p / 4096)) := ⟨hf1, hi, rfl, hb⟩
    refine ⟨_, mr, mr, readMove_used (c := blockAt mr f (p / 4096)) (Bool.eq_false_iff.mpr (ho1.exclusive.used _ _ href))
      (ho1.range _ _ href).2 (by omega) (by omega) hk out, .refl ho1 hf1, hsame, rfl, by have := h.from_le; omega,
      h.keeps, h.bytes, ?_⟩
    have hle := h.from_le
    rw [List.map_append, h.copied, show p + k - off = (p - off) + k by omega, List.range_add, List.map_append,
      List.map_map, List.map_map]
    congr 1
    refine List.map_congr_left fun j hj => ?_
    have hj' := List.mem_range.mp hj
    have hpos : (off + (p - off + j)) / 4096 = p / 4096 := by omega
    simp only [Function.comp]
    rw [← h.bytes f _ hf hreg (by rw [hpos]; exact hi), byteAt_present (by rw [hpos]; exact hb), hpos]
    congr 1
    omega

include ho hf hreg in
lemma fileRead_contents (cached : Nat → Bool) (count off : Nat) (hsize : size m f ≤ maxfilesize)
    (hroom : Enough m f (off / 4096) (blockEnd off (off + readCount m f count off))) :
    ∃ out m', fileRead cached f count off m = .ok (readCount m f count off, out, m') ∧ Owned m' ∧
      out.map Prod.snd = (List.range (readCount m f count off)).map (fun j => byteAt m f (off + j)) ∧
      Keeps f off (off + readCount m f count off) m m' ∧
      ∀ g q, IsFile m g → m (fType g) ≠ ftypeDir → q / 4096 < ndirect + nindirect → byteAt m' g q = byteAt m g q := by
  have hmax : size m f ≤ 4235264 := hsize
  by_cases hlt : (off : Int) < size m f
  · have hcount : off + readCount m f count off ≤ 4235264 := by
      unfold readCount
      omega
    have hstop : toU32 (off + readCount m f count off) = off + readCount m f count off := by
      have := toU32_of_range (i := (off : Int) + readCount m f count off) (by omega) (by omega)
      omega
    obtain ⟨out, m', hrun, ho', hread⟩ := moveBlocks_reads ho hf hreg cached (by omega) (by omega) _ le_rfl hroom
    refine ⟨out, m', ?_, ho', ?_, hread.keeps, hread.bytes⟩
    · rw [fileRead_eq hlt (by omega), hstop, hrun, toI32_of_range (by omega) (by omega)]
      rfl
    · rw [hread.copied, Nat.add_sub_cancel_left]
  · have hzero : readCount m f count off = 0 := by
      unfold readCount
      omega
    rw [hzero]
    refine ⟨[], m, ?_, ho, rfl, .refl, fun _ _ _ _ _ => rfl⟩
    unfold fileRead
    rw [if_pos (by omega)]
    rfl

end

section
variable {m : Mem} (ho : Owned m) {f : Nat} (hf : IsFile m f) (v : Nat)
include ho hf in
lemma byteAt_resize (hg : IsFile m g) (hreg : m (fType g) ≠ ftypeDir) (hp : p / 4096 < ndirect + nindirect) :
    byteAt (update m (fSize f) v) g p = byteAt m g p := by
  refine byteAt_congr ((sameTree_resize ho hf v).blockAt_eq hg hp) fun w hne hw => update_of_ne ?_ _ _
  rintro rfl
  exact ho.data_ne_file (show Refers m (.block g (p / 4096)) _ from ⟨hg, hp, rfl, hne⟩) hreg hf (show 32 < 64 by decide) hw

include ho hf in
lemma sameBlocks_resize : SameBlocks f m (update m (fSize f) v) :=
  ⟨owned_resize ho hf v, ((sameTree_resize ho hf v).isFile_iff f).mpr hf,
    fun _ hi => (sameTree_resize ho hf v).blockAt_eq hf hi, resize_field ho hf v hf (show 44 < 64 by decide) (.inr (by decide)),
    freeCount_congr (sNblocks_resize ho hf v) (blockIsFree_resize ho hf v)⟩

end

lemma SameBlocks.enough {lo hi : Nat} {m' : Mem} (h : SameBlocks f m m') (hroom : Enough m f lo hi) :
    Enough m' f lo hi := by
  refine ⟨hroom.1, ?_⟩
  rcases lt_or_ge lo hi with hlt | hge
  · rw [needed_congr (hroom.1 hlt) h.blocks h.indirect, h.free]
    exact hroom.2
  · rw [needed_empty m' f hge]
    exact Nat.zero_le _

/-- The file system when `file_write` starts to copy. -/
def extended (m : Mem) (f stop : Nat) : Mem :=
  if size m f < stop then update m (fSize f) stop else m

section
variable {m : Mem} (ho : Owned m) {f : Nat} (hf : IsFile m f)
include ho hf in
lemma fileExtend_extended (hsize : 0 ≤ size m f) (hmax : off + count < 2147483648) :
    fileExtend f count off m = .ok (0, extended m f (off + count)) := by
  have hrange := toI32_range (m (fSize f))
  have hold := toU32_of_range (i := size m f) hsize (lt_trans hrange.2 (by decide))
  have hnew : toU32 ((off : Int) + count) = off + count := by
    have := toU32_of_range (i := (off : Int) + count) (by omega) (by omega)
    omega
  have hto : toI32 ((off : Int) + count) = (off + count : Nat) := toI32_of_range (by omega) (by omega)
  unfold fileExtend extended
  rw [hnew, hto]
  by_cases hlt : size m f < (off + count : Nat)
  · obtain ⟨m2, hset, -, hsame, -⟩ := fileSetSize_spec ho hf (off + count : Nat)
    rw [hsame (by omega)] at hset
    have hword : toU32 ((off + count : Nat) : Int) = off + count := by
      have := toU32_of_range (i := ((off + count : Nat) : Int)) (by omega) (by omega)
      omega
    rw [if_pos (by omega), if_pos hlt, hset, hword]
  · rw [if_neg (by omega), if_neg hlt]
    rfl

include ho hf in
lemma fileWriteBy_extended {σ : Type} (move : Nat → Nat → σ → Mem → Res (σ × Mem)) (acc : σ)
    (hsize : 0 ≤ size m f) (hmax : off + count < 2147483648) : fileWriteBy move acc f count off m =
      (fun out => (out.1.getD (count : Int), out.2.2)) <$>
        moveBlocks move f (off + count) count off none acc (extended m f (off + count)) := by
  obtain ⟨m1, -, hext, -, heq⟩ := fileWriteBy_eq ho hf count off
  have hm : m1 = extended m f (off + count) :=
    (Prod.mk.inj (Except.ok.inj (hext.symm.trans (fileExtend_extended ho hf hsize hmax)))).2
  have hstop : toU32 ((off : Int) + count) = off + count := by
    have := toU32_of_range (i := (off : Int) + count) (by omega) (by omega)
    omega
  rw [heq, hm, hstop, toI32_of_range (i := (count : Int)) (by omega) (by omega)]

include ho hf in
lemma extended_spec (stop : Nat) : SameBlocks f m (extended m f stop) ∧
    (∀ g, IsFile (extended m f stop) g ↔ IsFile m g) ∧
    (∀ g k, IsFile m g → k < 34 → (g ≠ f ∨ k ≠ 32) → extended m f stop (g + k) = m (g + k)) ∧
    ∀ g p, IsFile m g → m (fType g) ≠ ftypeDir → p / 4096 < ndirect + nindirect →
      byteAt (extended m f stop) g p = byteAt m g p := by
  unfold extended
  split
  · exact ⟨sameBlocks_resize ho hf stop, (sameTree_resize ho hf stop).isFile_iff,
      fun g k hg hk hne => resize_field ho hf stop hg (by omega) hne, fun g p hg => byteAt_resize ho hf stop hg⟩
  · exact ⟨.refl ho hf, fun _ => Iff.rfl, fun _ _ _ _ _ => rfl, fun _ _ _ _ _ => rfl⟩

lemma extended_size (m : Mem) (f : Nat) (hstop : stop < 2147483648) :
    size (extended m f stop) f = max (size m f) stop := by
  unfold extended
  split
  · unfold size
    rw [update_self, toI32_of_range (by omega) (by omega)]
    unfold size at *
    omega
  · omega

/-- The state of the loop of `file_write` at position `p`. -/
structure WroteTo (f off stop : Nat) (buf : Nat → Nat) (m0 : Mem) (p done : Nat) (m mr : Mem) : Prop where
  real : mr = m
  pos : p = off + done
  keeps : Keeps f off stop m0 m
  bytes : ∀ g q, IsFile m0 g → m0 (fType g) ≠ ftypeDir → q / 4096 < ndirect + nindirect →
    byteAt m g q = if g = f ∧ off ≤ q ∧ q < p then buf (q - off) % 256 else byteAt m0 g q

include ho hf in
lemma moveBlocks_writes (hreg : m (fType f) ≠ ftypeDir) (cached : Nat → Bool) (buf : Nat → Nat)
    (hstop : stop < 2147483648) (hoff : off ≤ stop) (n : Nat) (hn : stop ≤ off + n)
    (hroom : Enough m f (off / 4096) (blockEnd off stop)) :
    ∃ done m', moveBlocks (writeMove cached fun _ => buf) f stop n off none 0 m = .ok (none, done, m') ∧ Owned m' ∧
      WroteTo f off stop buf m stop done m' m' := by
  have hinit : WroteTo f off stop buf m off 0 m m := ⟨rfl, rfl, .refl, fun g q _ _ _ => (if_neg (by omega)).symm⟩
  have hloop := @moveBlocks_fetch _ (writeMove cached fun _ => buf) f stop (WroteTo f off stop buf m) (by omega)
    (fun p done m1 mr m2 mr2 ho1 hf1 hp hrun hkept h => ?_) (fun p k done m1 mr ho1 hf1 hsame hi hb hk hfit hend h => ?_)
    n off 0 m m ho hf (fun _ _ => rfl) hoff (by omega) hn hinit
  · rcases hloop with ⟨done, m', mr', hrun, hwrote, ho', -⟩ | ⟨q, done, m', mr', -, -, -, -, -, -, -, hout⟩ |
      ⟨k, q, blk, done, m', mr', -, -, -, -, -, -, -, -, -, hfails⟩
    · obtain rfl := hwrote.real
      exact ⟨done, mr', hrun, ho', hwrote⟩
    · exact absurd hout hroom.not_runsOut
    · exact absurd hfails hroom.not_walkFails
  · obtain rfl := h.real
    refine ⟨funext fun w => hkept w rfl, h.pos, h.keeps.attach ho1 hf1 hp (by have := h.pos; omega) hrun,
      fun g q hg hgreg hq => ?_⟩
    have htype : mr (fType g) = m (fType g) := h.keeps.field g 33 hg (by decide)
    rw [AttachStep.byteAt_eq ((h.keeps.isFile_iff g).mpr hg) (by rwa [htype]) hq hrun ho1, h.bytes g q hg hgreg hq]
  · obtain rfl := h.real
    have href : Refers mr (.block f (p / 4096)) (blockAt mr f (p / 4096)) := ⟨hf1, hi, rfl, hb⟩
    have hreg1 : mr (fType f) ≠ ftypeDir := by
      rwa [show mr (fType f) = m (fType f) from h.keeps.field f 33 hf (by decide)]
    have hlen : p % 4096 + ((List.range k).map fun i => buf (done + i)).length ≤ 4096 := by simpa using hfit
    have hdata := sameButData_putBytes hf1 hi hb hlen
    refine ⟨_, _, _, writeMove_used (c := blockAt mr f (p / 4096)) (Bool.eq_false_iff.mpr (ho1.exclusive.used _ _ href))
      (ho1.range _ _ href).2 (by omega) (by omega) hk _ done, hdata.sameBlocks ho1 hf1 hreg1, fun _ _ => rfl, rfl,
      by have := h.pos; omega, h.keeps.copy ho1 hf1 hreg1 hdata, fun g q hg hgreg hq => ?_⟩
    have hpos := h.pos
    rw [byteAt_putBytes ho1 hf1 hreg1 hi hb hlen ((h.keeps.isFile_iff g).mpr hg) hq,
      show 4096 * (p / 4096) + p % 4096 = p by omega, List.length_map, List.length_range, h.bytes g q hg hgreg hq]
    by_cases hin : g = f ∧ p ≤ q ∧ q < p + k
    · have hget : ((List.range k).map fun i => buf (done + i))[q - p]? = some (buf (q - off)) := by
        rw [List.getElem?_map, List.getElem?_range (by omega), Option.map_some, show done + (q - p) = q - off by omega]
      rw [if_pos hin, hget, if_pos (by omega)]
      rfl
    · rw [if_neg hin]
      exact if_congr (by omega) rfl rfl

lemma moveBlocks_writeMove_congr (cached : Nat → Bool) {buf buf' : Mem → Nat → Nat}
    (h : ∀ m i, i < count → buf m i = buf' m i) (f : Nat) (hstop : stop < 2147483648) (n : Nat) {done : Nat}
    (blk : Option Nat) (m : Mem) (hp : p ≤ stop) (hdone : done + (stop - p) ≤ count) :
    moveBlocks (writeMove cached buf) f stop n p blk done m = moveBlocks (writeMove cached buf') f stop n p blk done m := by
  induction n generalizing p done blk m with
  | zero => rfl
  | succ n ih =>
    rcases Nat.eq_or_lt_of_le hp with rfl | hlt
    · have hend : p ≤ toU32 p := by
        have := toU32_of_range (i := (p : Int)) (by omega) (by omega)
        omega
      rw [moveBlocks_end _ _ _ _ _ _ hend, moveBlocks_end _ _ _ _ _ _ hend]
    · have hmove : ∀ a m', writeMove cached buf a (min (4096 - p % 4096) (stop - p)) done m' =
          writeMove cached buf' a (min (4096 - p % 4096) (stop - p)) done m' := by
        intro a m'
        have hmap : ((List.range (min (4096 - p % 4096) (stop - p))).map fun i => buf m' (done + i)) =
            (List.range (min (4096 - p % 4096) (stop - p))).map fun i => buf' m' (done + i) :=
          List.map_congr_left fun i hi => h _ _ (by have := List.mem_range.mp hi; omega)
        unfold writeMove
        rw [hmap]
      rw [moveBlocks_at _ _ _ _ _ _ hlt (by omega), moveBlocks_at _ _ _ _ _ _ hlt (by omega), toI32_next (by omega)]
      refine congrArg _ (funext fun out => ?_)
      dsimp only
      split
      · rfl
      · cases out.2.1.or blk with
        | none => rfl
        | some a =>
          dsimp only
          rw [hmove]
          unfold writeMove
          cases touchBytes cached out.2.2 (4 * a + p % 4096) (min (4096 - p % 4096) (stop - p)) with
          | error e => rfl
          | ok u => exact ih _ _ (by omega) (by omega)

lemma fileWrite_congr {m : Mem} (ho : Owned m) {f : Nat} (hf : IsFile m f) (cached : Nat → Bool) {buf buf' : Mem → Nat → Nat}
    (hsize : 0 ≤ size m f) (hmax : off + count < 2147483648) (h : ∀ m i, i < count → buf m i = buf' m i) :
    fileWrite cached buf f count off m = fileWrite cached buf' f count off m := by
  unfold fileWrite
  rw [fileWriteBy_extended ho hf _ _ hsize hmax, fileWriteBy_extended ho hf _ _ hsize hmax,
    moveBlocks_writeMove_congr cached h f hmax count none _ (Nat.le_add_right _ _) (by omega)]

/-- What a complete `file_write` has done. -/
structure FileWritten (f off count : Nat) (buf : Nat → Nat) (m m' : Mem) : Prop where
  owned : Owned m'
  isFile_iff : ∀ g, IsFile m' g ↔ IsFile m g
  size : size m' f = max (size m f) (off + count : Nat)
  field : ∀ g k, IsFile m g → k < 34 → (g ≠ f ∨ k ≠ 32) → m' (g + k) = m (g + k)
  bytes : ∀ g q, IsFile m g → m (fType g) ≠ ftypeDir → q / 4096 < ndirect + nindirect →
    byteAt m' g q = if g = f ∧ off ≤ q ∧ q < off + count then buf (q - off) % 256 else byteAt m g q

include ho hf in
lemma fileWrite_contents (hreg : m (fType f) ≠ ftypeDir) (cached : Nat → Bool) (buf : Nat → Nat)
    (hsize : 0 ≤ size m f) (hmax : off + count ≤ maxfilesize)
    (hroom : Enough m f (off / 4096) (blockEnd off (off + count))) :
    ∃ m', fileWrite cached (fun _ => buf) f count off m = .ok (count, m') ∧ FileWritten f off count buf m m' := by
  have hmax' : off + count ≤ 4235264 := hmax
  obtain ⟨hblocks, hfiles, hfield, hbytes⟩ := extended_spec ho hf (off + count)
  have htype : ∀ g, IsFile m g → extended m f (off + count) (fType g) = m (fType g) := fun g hg =>
    hfield g 33 hg (by decide) (.inr (by decide))
  obtain ⟨done, m', hrun, ho', hwrote⟩ := moveBlocks_writes hblocks.owned hblocks.isFile (by rwa [htype f hf]) cached buf
    (show off + count < 2147483648 by omega) (Nat.le_add_right off count) count le_rfl (hblocks.enough hroom)
  refine ⟨m', ?_, ho', fun g => (hwrote.keeps.isFile_iff g).trans (hfiles g), ?_, fun g k hg hk hne => ?_,
    fun g q hg hgreg hq => ?_⟩
  · unfold fileWrite
    rw [fileWriteBy_extended ho hf _ _ hsize (by omega), hrun]
    rfl
  · rw [hwrote.keeps.size_eq hblocks.isFile, extended_size m f (by omega)]
  · rw [hwrote.keeps.field g k ((hfiles g).mpr hg) hk, hfield g k hg hk hne]
  · rw [hwrote.bytes g q ((hfiles g).mpr hg) (by rwa [htype g hg]) hq, hbytes g q hg hgreg hq]

end

/-- A state without damage: the blocks are accounted for, and every file fits into the blocks it can have. -/
structure Consistent (m : Mem) : Prop extends Agrees m where
  sizes : ∀ f, IsFile m f → 0 ≤ size m f ∧ size m f ≤ maxfilesize

lemma Checked.consistent (h : Checked m) : Consistent m := ⟨h.agrees, fun _ => h.sizes⟩

/-- Every `file_read` that can fetch the blocks it needs returns the bytes that `content` has at these positions, as
many as asked for and as there are. -/
def ReadsAs (m : Mem) (f : Nat) (content : Nat → Nat) : Prop :=
  ∀ cached n o, Enough m f (o / 4096) (blockEnd o (o + readCount m f n o)) →
    ∃ out m', fileRead cached f n o m = .ok (readCount m f n o, out, m') ∧
      out.map Prod.snd = (List.range (readCount m f n o)).map fun j => content (o + j)

lemma readsAs_byteAt (ho : Owned m) (hf : IsFile m f) (hreg : m (fType f) ≠ ftypeDir)
    (hsize : size m f ≤ maxfilesize) : ReadsAs m f (byteAt m f) := by
  intro cached n o hroom
  obtain ⟨out, m', hrun, -, hout, -⟩ := fileRead_contents ho hf hreg cached n o hsize hroom
  exact ⟨out, m', hrun, hout⟩

lemma ReadsAs.congr {c c' : Nat → Nat} (h : ReadsAs m f c) (hsize : size m f ≤ maxfilesize)
    (heq : ∀ p, p / 4096 < ndirect + nindirect → c p = c' p) : ReadsAs m f c' := by
  intro cached n o hroom
  obtain ⟨out, m', hrun, hout⟩ := h cached n o hroom
  refine ⟨out, m', hrun, hout.trans (List.map_congr_left fun j hj => heq _ ?_)⟩
  have hj' := List.mem_range.mp hj
  have hmax : size m f ≤ 4235264 := hsize
  unfold readCount at hj'
  unfold ndirect nindirect
  omega

/-- `file_write` and `file_read` are a write and a read of an array of bytes, one for each regular file. -/
theorem file_write_byte_array {m : Mem} (hc : Consistent m) {f : Nat} (hf : IsFile m f) (hreg : m (fType f) = ftypeReg)
    {off count : Nat} (hmax : off + count ≤ maxfilesize) (hroom : Enough m f (off / 4096) (blockEnd off (off + count)))
    (cached : Nat → Bool) (buf : Nat → Nat) :
    (∀ g, IsFile m g → m (fType g) = ftypeReg → ReadsAs m g (byteAt m g)) ∧
      ∃ m', fileWrite cached (fun _ => buf) f count off m = .ok (count, m') ∧
        size m' f = max (size m f) (off + count : Nat) ∧
        ReadsAs m' f (fun p => if off ≤ p ∧ p < off + count then buf (p - off) % 256 else byteAt m f p) ∧
        ∀ g, IsFile m g → m (fType g) = ftypeReg → g ≠ f →
          IsFile m' g ∧ size m' g = size m g ∧ ReadsAs m' g (byteAt m g) := by
  have hnotdir : ∀ {g : Nat}, m (fType g) = ftypeReg → m (fType g) ≠ ftypeDir := by
    intro g hg
    rw [hg]
    decide
  refine ⟨fun g hg hgreg => readsAs_byteAt hc.toOwned hg (hnotdir hgreg) (hc.sizes g hg).2, ?_⟩
  obtain ⟨m', hrun, hw⟩ := fileWrite_contents hc.toOwned hf (hnotdir hreg) cached buf (hc.sizes f hf).1 hmax hroom
  have htype : ∀ g, IsFile m g → m' (fType g) = m (fType g) := fun g hg => hw.field g 33 hg (by decide) (.inr (by decide))
  have hsize : size m' f ≤ maxfilesize := by
    have := (hc.sizes f hf).2
    rw [hw.size]
    omega
  refine ⟨m', hrun, hw.size, ?_, fun g hg hgreg hne => ?_⟩
  · refine (readsAs_byteAt hw.owned ((hw.isFile_iff f).mpr hf) (by rw [htype f hf]; exact hnotdir hreg) hsize).congr hsize
      fun p hp => ?_
    rw [hw.bytes f p hf (hnotdir hreg) hp]
    exact if_congr (and_iff_right rfl) rfl rfl
  · have hsame : size m' g = size m g := by
      unfold size
      rw [show m' (fSize g) = m (fSize g) from hw.field g 32 hg (by decide) (.inl hne)]
    have hsize' : size m' g ≤ maxfilesize := by
      rw [hsame]
      exact (hc.sizes g hg).2
    refine ⟨(hw.isFile_iff g).mpr hg, hsame, ?_⟩
    refine (readsAs_byteAt hw.owned ((hw.isFile_iff g).mpr hg) (by rw [htype g hg]; exact hnotdir hgreg) hsize').congr
      hsize' fun p hp => ?_
    rw [hw.bytes g p hg (hnotdir hgreg) hp, if_neg fun h => hne h.1]

lemma smallDisk_enough : Enough smallDisk 3072 (0 / 4096) (blockEnd 0 (0 + 3)) := by
  unfold Enough
  decide

/-- Three bytes written to an empty file. -/
theorem file_write_byte_array_small : ∃ m', fileWrite (fun _ => false) (fun _ j => j + 7) 3072 3 (0 : Nat) smallDisk =
    .ok (3, m') ∧ size m' 3072 = 3 ∧
      ReadsAs m' 3072 fun p => if 0 ≤ p ∧ p < 0 + 3 then (p - 0 + 7) % 256 else byteAt smallDisk 3072 p := by
  obtain ⟨-, m', hrun, hsize, hreads, -⟩ := file_write_byte_array smallDisk_checked.consistent smallDisk_file rfl
    (Nat.le_of_ble_eq_true rfl) smallDisk_enough (fun _ => false) fun j => j + 7
  exact ⟨m', hrun, hsize, hreads⟩

end Jos.Fs
