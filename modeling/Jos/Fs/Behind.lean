import Jos.Fs.Directories
import Jos.Fs.Durable

/-!
# How far the disk is behind the memory of the server

A pointer on the disk is the one that the server has, or it is not there yet. A block that
is free on the disk is free for the server. The two survive every `flush_block`, and what
the functions do to the memory in between.
-/

namespace Jos.Fs
open Relation WordMem Function

/-- The slots of directories and of the files in `P` are not older on the disk `d` than that. -/
structure Behind (P : Nat → Prop) (m d : Mem) : Prop where
  nblocks : sNblocks d = sNblocks m
  free : ∀ b, blockIsFree d b = true → blockIsFree m b = true
  slot : ∀ t : Slot, t.Exists m → P t.file ∨ m (fType t.file) = ftypeDir → d (t.word m) = 0 ∨ d (t.word m) = m (t.word m)
  type : ∀ f, IsFile m f → d (fType f) = m (fType f)
  unnamed : ∀ D i c j, Refers m (.block D i) c → m (fType D) = ftypeDir → j < blkfiles →
    nameEmpty m (1024 * c + 64 * j) = true → nameEmpty d (1024 * c + 64 * j) = true
  unused : ∀ D i c j k, Refers m (.block D i) c → m (fType D) = ftypeDir → j < blkfiles →
    nameEmpty m (1024 * c + 64 * j) = true → 33 ≤ k → k < 45 → d (1024 * c + 64 * j + k) = m (1024 * c + 64 * j + k)

lemma nameEmpty_congr {m m' : Mem} {e : Nat} (h : m' e = m e) : nameEmpty m' e = nameEmpty m e := by
  unfold nameEmpty
  rw [getByte_congr]
  rwa [Nat.mul_div_cancel_left e (by decide)]

section
variable {P : Nat → Prop} {m d : Mem} (h : Behind P m d)
include h

lemma Behind.blockAt {f i : Nat} (hf : IsFile m f) (hP : P f ∨ m (fType f) = ftypeDir) (hi : i < ndirect + nindirect) :
    Fs.blockAt d f i = 0 ∨ Fs.blockAt d f i = Fs.blockAt m f i := by
  by_cases hd : i < ndirect
  · have hslot := h.slot (.block f i) ⟨hf, hi, fun hle => absurd hd (Nat.not_lt.mpr hle)⟩ hP
    rw [blockAt_direct hd, blockAt_direct hd]
    simpa only [Slot.word, if_pos hd] using hslot
  · have hle := Nat.le_of_not_lt hd
    rcases h.slot (.indirect f) hf hP with hzero | hsame
    · exact .inl (blockAt_none hle hzero)
    · simp only [Slot.word] at hsame
      by_cases hind : m (fIndirect f) = 0
      · exact .inl (blockAt_none hle (hsame.trans hind))
      · have hslot := h.slot (.block f i) ⟨hf, hi, fun _ => hind⟩ hP
        rw [blockAt_indirect hle hind, blockAt_indirect hle (by rwa [hsame]), hsame]
        simpa only [Slot.word, if_neg hd] using hslot

lemma Behind.isFile {f : Nat} (hf : IsFile d f) : IsFile m f := by
  induction hf with
  | root => exact .root
  | @entry D i j _ hdir hi hb hj hname ih =>
    rw [h.type D ih] at hdir
    have heq := (h.blockAt ih (.inr hdir) hi).resolve_left hb
    rw [heq] at hb hname ⊢
    refine .entry ih hdir hi hb hj ?_
    cases hm : nameEmpty m (1024 * Fs.blockAt m D i + 64 * j) with
    | false => rfl
    | true =>
      rw [h.unnamed D i _ j ⟨ih, hi, rfl, hb⟩ hdir hj hm] at hname
      cases hname

lemma Behind.refers {t : Slot} {b : Nat} (ht : Refers d t b) (hP : P t.file ∨ m (fType t.file) = ftypeDir) : Refers m t b := by
  cases t with
  | block f i =>
    obtain ⟨hf, hi, rfl, h0⟩ := ht
    have hf := h.isFile hf
    exact ⟨hf, hi, ((h.blockAt hf hP hi).resolve_left h0).symm, h0⟩
  | indirect f =>
    obtain ⟨hf, rfl, h0⟩ := ht
    have hf := h.isFile hf
    exact ⟨hf, ((h.slot (.indirect f) hf hP).resolve_left h0).symm, h0⟩

end

def NoStale (d : Mem) : Prop := ∀ t b, Refers d t b → blockIsFree d b = false

lemma Behind.noStale {m d : Mem} (h : Behind (fun _ => True) m d) (ho : Owned m) : NoStale d := by
  intro t b ht
  have hused := ho.exclusive.used t b (h.refers ht (.inl trivial))
  cases hfree : blockIsFree d b with
  | false => rfl
  | true => exact absurd (h.free b hfree) hused

lemma Behind.refl (P : Nat → Prop) (m : Mem) : Behind P m m where
  nblocks := rfl
  free := fun _ hb => hb
  slot := fun _ _ _ => .inr rfl
  type := fun _ _ => rfl
  unnamed := fun _ _ _ _ _ _ _ hm => hm
  unused := fun _ _ _ _ _ _ _ _ _ _ _ => rfl

def written (b : Nat) (m d : Mem) : Mem := fun w => if w / 1024 = b then m w else d w

section
variable {m d : Mem} {b w : Nat}

lemma written_cases (b w : Nat) (m d : Mem) : written b m d w = m w ∨ written b m d w = d w := by
  unfold written
  split
  · exact .inl rfl
  · exact .inr rfl

lemma written_of_ne (h : w / 1024 ≠ b) : written b m d w = d w := if_neg h

lemma written_self (h : w / 1024 = b) : written b m d w = m w := if_pos h

lemma written_same (h : d w = m w) : written b m d w = m w := by
  rcases written_cases b w m d with heq | heq
  · exact heq
  · exact heq.trans h

end

lemma Behind.flush {P : Nat → Prop} {m d : Mem} (h : Behind P m d) (b : Nat) : Behind P m (written b m d) where
  nblocks := written_same h.nblocks
  free := by
    intro c hc
    have hn : sNblocks (written b m d) = sNblocks m := written_same h.nblocks
    obtain ⟨hlt, hbit⟩ := blockIsFree_iff.mp hc
    rw [hn] at hlt
    rcases written_cases b (bitmapWord c) m d with heq | heq
    · rw [heq] at hbit
      exact blockIsFree_iff.mpr ⟨hlt, hbit⟩
    · rw [heq] at hbit
      exact h.free c (blockIsFree_iff.mpr ⟨by rwa [h.nblocks], hbit⟩)
  slot := by
    intro t ht hP
    rcases written_cases b (t.word m) m d with heq | heq
    · exact .inr heq
    · rw [heq]
      exact h.slot t ht hP
  type := fun f hf => written_same (h.type f hf)
  unnamed := by
    intro D i c j href hdir hj hm
    rcases written_cases b (1024 * c + 64 * j) m d with heq | heq
    · rwa [nameEmpty_congr heq]
    · rw [nameEmpty_congr heq]
      exact h.unnamed D i c j href hdir hj hm
  unused := fun D i c j k href hdir hj hm hlo hk => written_same (h.unused D i c j k href hdir hj hm hlo hk)

section
variable {m m' : Mem} (ht : SameTree m m')
include ht

lemma SameTree.exists_iff {t : Slot} : t.Exists m' ↔ t.Exists m := by
  have hind : ∀ f, IsFile m f → m' (fIndirect f) = m (fIndirect f) := fun f hf => ht.slot (.indirect f) hf
  cases t with
  | block f i =>
    constructor
    · rintro ⟨hf, hi, hle⟩
      have hf := (ht.isFile_iff f).mp hf
      rw [hind f hf] at hle
      exact ⟨hf, hi, hle⟩
    · rintro ⟨hf, hi, hle⟩
      rw [← hind f hf] at hle
      exact ⟨(ht.isFile_iff f).mpr hf, hi, hle⟩
  | indirect f => exact ht.isFile_iff f

lemma SameTree.word_eq {t : Slot} (hs : t.Exists m) : t.word m' = t.word m := by
  cases t with
  | block f i =>
    have hind : m' (fIndirect f) = m (fIndirect f) := ht.slot (.indirect f) hs.1
    simp only [Slot.word, hind]
  | indirect f => rfl

end

lemma Behind.sameTree {P : Nat → Prop} {m m' d : Mem} (h : Behind P m d) (ht : SameTree m m') (hn : sNblocks m' = sNblocks m)
    (hfree : ∀ c, blockIsFree m' c = blockIsFree m c)
    (hentry : ∀ D i c j k, Refers m (.block D i) c → m (fType D) = ftypeDir → j < blkfiles →
      nameEmpty m (1024 * c + 64 * j) → 33 ≤ k → k < 45 → m' (1024 * c + 64 * j + k) = m (1024 * c + 64 * j + k)) :
    Behind P m' d := by
  have hdirs : ∀ {D i c : Nat}, Refers m' (.block D i) c → m' (fType D) = ftypeDir → Refers m (.block D i) c ∧ m (fType D) = ftypeDir := by
    intro D i c href hdir
    have href := ht.refers_iff.mp href
    exact ⟨href, (ht.type D href.1).symm.trans hdir⟩
  constructor
  · exact h.nblocks.trans hn.symm
  · intro b hb
    rw [hfree]
    exact h.free b hb
  · intro t hs hP
    have hs := ht.exists_iff.mp hs
    have hfile : IsFile m t.file := (Slot.word_cases hs).1
    rw [ht.type t.file hfile] at hP
    rw [ht.word_eq hs, ht.slot t hs]
    exact h.slot t hs hP
  · intro f hf
    have hf := (ht.isFile_iff f).mp hf
    rw [ht.type f hf]
    exact h.type f hf
  · intro D i c j href hdir hj hm
    obtain ⟨href, hdir⟩ := hdirs href hdir
    rw [ht.names D i c j href hdir hj] at hm
    exact h.unnamed D i c j href hdir hj hm
  · intro D i c j k href hdir hj hm hlo hk
    obtain ⟨href, hdir⟩ := hdirs href hdir
    rw [ht.names D i c j href hdir hj] at hm
    rw [hentry D i c j k href hdir hj hm hlo hk]
    exact h.unused D i c j k href hdir hj hm hlo hk

/-! ## Attaching a block -/

section
variable {m : Mem} (ho : Owned m) {q : Nat} (hlo : 2 ≤ q) (hhi : q < reservedEnd m)
include ho hlo hhi

lemma Owned.file_ne_bitmap {f k : Nat} (hf : IsFile m f) (hk : k < 64) : (f + k) / 1024 ≠ q := by
  rw [hf.block hk]
  rcases ho.file_block hf with hone | ⟨hle, -⟩
  · omega
  · omega

lemma Owned.word_ne_bitmapBlock {t : Slot} (ht : t.Exists m) : t.word m / 1024 ≠ q := by
  obtain ⟨hf, ⟨k, -, hk, heq, -⟩ | ⟨hind, heq, -⟩⟩ := Slot.word_cases ht
  · rw [heq]
    exact ho.file_ne_bitmap hlo hhi hf (by omega)
  · have := (ho.indirect_block hf hind).1
    omega

omit hlo in
lemma Owned.entry_ne_bitmap {D i c j k : Nat} (href : Refers m (.block D i) c) (hj : j < blkfiles) (hk : k < 64) :
    (1024 * c + 64 * j + k) / 1024 ≠ q := by
  have := (ho.range _ _ href).1
  unfold blkfiles at hj
  omega

end

section
variable {P : Nat → Prop} {m m' d : Mem} {t : Slot} {b : Nat}

lemma Behind.takes (h : Behind P m d) (ho : Owned m) (hb : blockIsFree m b) :
    Behind P m (written (bitmapWord b / 1024) (takeBlock m b) d) ∧
      blockIsFree (written (bitmapWord b / 1024) (takeBlock m b) d) b = false := by
  obtain ⟨hlo, hhi⟩ := bitmapWord_reserved (blockIsFree_iff.mp hb).1
  have hn : sNblocks (written (bitmapWord b / 1024) (takeBlock m b) d) = sNblocks m := by
    unfold sNblocks
    rw [written_of_ne (by omega)]
    exact h.nblocks
  have hfree : ∀ c, blockIsFree (written (bitmapWord b / 1024) (takeBlock m b) d) c →
      blockIsFree (takeBlock m b) c ∨ bitmapWord c / 1024 ≠ bitmapWord b / 1024 ∧ blockIsFree d c := by
    intro c hc
    obtain ⟨hlt, hbit⟩ := blockIsFree_iff.mp hc
    rw [hn] at hlt
    by_cases hq : bitmapWord c / 1024 = bitmapWord b / 1024
    · rw [written_self hq] at hbit
      exact .inl (blockIsFree_iff.mpr ⟨by rwa [sNblocks_takeBlock], hbit⟩)
    · rw [written_of_ne hq] at hbit
      exact .inr ⟨hq, blockIsFree_iff.mpr ⟨by rwa [h.nblocks], hbit⟩⟩
  refine ⟨⟨hn, fun c hc => ?_, fun t ht hP => ?_, fun f hf => ?_, fun D i c j href hdir hj hm => ?_,
    fun D i c j k href hdir hj hm hk0 hk => ?_⟩, ?_⟩
  · rcases hfree c hc with hc | ⟨-, hc⟩
    · exact ((blockIsFree_takeBlock m b c).mp hc).1
    · exact h.free c hc
  · rw [written_of_ne (ho.word_ne_bitmapBlock hlo hhi ht)]
    exact h.slot t ht hP
  · rw [fType, written_of_ne (ho.file_ne_bitmap hlo hhi hf (by decide))]
    exact h.type f hf
  · have hword : (1024 * c + 64 * j) / 1024 ≠ bitmapWord b / 1024 := ho.entry_ne_bitmap hhi href hj (show 0 < 64 by decide)
    rw [nameEmpty_congr (written_of_ne hword)]
    exact h.unnamed D i c j href hdir hj hm
  · rw [written_of_ne (ho.entry_ne_bitmap hhi href hj (by omega))]
    exact h.unused D i c j k href hdir hj hm hk0 hk
  · cases hc : blockIsFree (written (bitmapWord b / 1024) (takeBlock m b) d) b with
    | false => rfl
    | true =>
      rcases hfree b hc with hc | ⟨hne, -⟩
      · exact absurd rfl ((blockIsFree_takeBlock m b b).mp hc).2
      · exact absurd rfl hne

lemma Attached.exists_cases (ha : Attached m m' t b) (ho : Owned m) (ht : t.Exists m) (hempty : m (t.word m) = 0) {t' : Slot}
    (h' : t'.Exists m') : t'.word m' / 1024 = b ∨ t'.Exists m ∧ t'.word m' = t'.word m := by
  have hrew := ha.rewrites ho ht
  cases t' with
  | indirect f => exact .inr ⟨(ha.isFile_iff ho ht hempty f).mp h', rfl⟩
  | block f i =>
    obtain ⟨hf, hi, hle⟩ := h'
    have hf := (ha.isFile_iff ho ht hempty f).mp hf
    have hind := hrew.indirect hf
    by_cases hd : i < ndirect
    · refine .inr ⟨⟨hf, hi, fun hge => absurd hd (Nat.not_lt.mpr hge)⟩, ?_⟩
      simp only [Slot.word, if_pos hd]
    · by_cases hnew : Slot.indirect f = t
      · rw [if_pos hnew] at hind
        refine .inl ?_
        simp only [Slot.word, if_neg hd, hind]
        unfold ndirect nindirect at hi
        unfold ndirect at hd ⊢
        omega
      · rw [if_neg hnew] at hind
        refine .inr ⟨⟨hf, hi, fun hge => ?_⟩, ?_⟩
        · rw [← hind]
          exact hle hge
        · simp only [Slot.word, hind]

lemma Behind.attach (h : Behind P m d) (ho : Owned m) (ht : t.Exists m) (hempty : m (t.word m) = 0) (ha : Attached m m' t b) :
    Behind P m' (written b m' (written (bitmapWord b / 1024) (takeBlock m b) d)) := by
  obtain ⟨h1, hused⟩ := h.takes ho ha.free
  generalize written (bitmapWord b / 1024) (takeBlock m b) d = d1 at h1 hused
  have hrew := ha.rewrites ho ht
  have hblk := (ho.free_range ha.free).1
  have h2 := two_le_reservedEnd m
  have hiff := ha.isFile_iff ho ht hempty
  have htype : ∀ f, IsFile m f → m' (fType f) = m (fType f) := fun f hf => hrew.field f 33 hf (by decide)
  have hsuper : sNblocks (written b m' d1) = sNblocks m := by
    unfold sNblocks
    rw [written_of_ne (by omega)]
    exact h1.nblocks
  refine ⟨hsuper.trans (ha.sNblocks_eq ho ht).symm, fun c hc => ?_, fun t' ht' hP => ?_, fun f hf => ?_,
    fun D i c j href hdir hj hm => ?_, fun D i c j k href hdir hj hm hk0 hk => ?_⟩
  · have hc1 : blockIsFree d1 c := by
      obtain ⟨hlt, hbit⟩ := blockIsFree_iff.mp hc
      rw [hsuper] at hlt
      have := bitmapWord_reserved hlt
      rw [written_of_ne (by omega)] at hbit
      exact blockIsFree_iff.mpr ⟨by rwa [h1.nblocks], hbit⟩
    refine (ha.blockIsFree_iff ho ht c).mpr ⟨h1.free c hc1, ?_⟩
    rintro rfl
    rw [hused] at hc1
    cases hc1
  · rcases ha.exists_cases ho ht hempty ht' with hnew | ⟨hold, hword⟩
    · rw [written_self hnew]
      exact .inr rfl
    · have hfile := (Slot.word_cases hold).1
      rw [htype _ hfile] at hP
      rw [hword, written_of_ne (ho.word_ne_free hold ha.free)]
      rcases h1.slot t' hold hP with hzero | hsame
      · exact .inl hzero
      · by_cases hself : t' = t
        · subst hself
          exact .inl (hsame.trans hempty)
        · rw [hrew.other t' hold hself]
          exact .inr hsame
  · have hf := (hiff f).mp hf
    rw [fType, written_of_ne (ho.file_ne hf (by decide) ha.free), ← fType, htype f hf]
    exact h1.type f hf
  · have hin : (1024 * c + 64 * j) / 1024 = c := by
      unfold blkfiles at hj
      omega
    rcases (ha.refers_iff ho ht hempty).mp href with hold | ⟨-, rfl⟩
    · rw [htype D hold.1] at hdir
      rw [hrew.nameEmpty hold hj] at hm
      have hne : c ≠ b := by
        rintro rfl
        exact ho.exclusive.used _ _ hold ha.free
      rw [nameEmpty_congr (written_of_ne (by rwa [hin]))]
      exact h1.unnamed D i c j hold hdir hj hm
    · rwa [nameEmpty_congr (written_self hin)]
  · have hin : (1024 * c + 64 * j + k) / 1024 = c := by
      unfold blkfiles at hj
      omega
    rcases (ha.refers_iff ho ht hempty).mp href with hold | ⟨-, rfl⟩
    · rw [htype D hold.1] at hdir
      rw [hrew.nameEmpty hold hj] at hm
      have hne : c ≠ b := by
        rintro rfl
        exact ho.exclusive.used _ _ hold ha.free
      rw [written_of_ne (by rwa [hin]), h1.unused D i c j k hold hdir hj hm hk0 hk]
      have hfile := ho.unnamed_ne (Slot.word_cases ht).1 hold hm
      exact (hrew.entry D i c j k hold hj (by omega) (.inr hfile)).symm
    · exact written_self hin

end

/-! ## Naming an entry -/

lemma Behind.names {P : Nat → Prop} {m d : Mem} (h : Behind P m d) (ho : Owned m) (hu : UnusedBlank 34 m) {D i c j : Nat}
    {name : List Nat} (href : Refers m (.block D i) c) (hdir : m (fType D) = ftypeDir) (hj : j < blkfiles) (hname : NameOk name) :
    Behind P (setName m (1024 * c + 64 * j) name) d := by
  have hblank := hu D i c j href hdir hj
  have hiff := isFile_setName ho href hj hname hdir hblank
  have hrefers := fun (t : Slot) b => refers_setName (t := t) (b := b) ho href hj hname hdir hblank
  have hfield : ∀ g k, IsFile m g → 32 ≤ k → k < 64 → setName m (1024 * c + 64 * j) name (g + k) = m (g + k) :=
    fun g k hg hlo hk => setName_field ho href hj hname hg hk (.inl hlo)
  have hentry : ∀ k, 32 ≤ k → k < 64 → setName m (1024 * c + 64 * j) name (1024 * c + 64 * j + k) = m (1024 * c + 64 * j + k) :=
    fun k hlo hk => setName_entry hname hk (.inl hlo)
  -- an entry that was no file had no name
  have hnew : ∀ g, IsFile (setName m (1024 * c + 64 * j) name) g → ¬ IsFile m g →
      g = 1024 * c + 64 * j ∧ nameEmpty m (1024 * c + 64 * j) := by
    intro g hg hno
    cases ((hiff g).mp hg).resolve_left hno
    refine ⟨rfl, ?_⟩
    cases hm : nameEmpty m (1024 * c + 64 * j) with
    | true => rfl
    | false => exact absurd (EntryOf.isFile ⟨i, c, j, href, hj, rfl⟩ hdir hm) hno
  have hunnamed : ∀ c' j', nameEmpty (setName m (1024 * c + 64 * j) name) (1024 * c' + 64 * j') →
      nameEmpty m (1024 * c' + 64 * j') := by
    intro c' j' hm
    by_cases heq : 1024 * c' + 64 * j' = 1024 * c + 64 * j
    · rw [heq, nameEmpty_setName hname] at hm
      cases hm
    · rwa [nameEmpty_setName_ne hname heq] at hm
  refine ⟨h.nblocks.trans (sNblocks_setName ho href hname).symm, fun b hb => ?_, fun t ht hP => ?_, fun g hg => ?_,
    fun D' i' c' j' hD hdir' hj' hm => ?_, fun D' i' c' j' k hD hdir' hj' hm hlo hk => ?_⟩
  · rw [blockIsFree_setName ho href hname]
    exact h.free b hb
  · have hfile := (Slot.word_cases ht).1
    by_cases hold : IsFile m t.file
    · have hind := hfield t.file 44 hold (by decide) (by decide)
      have hkept : t.Exists m ∧ t.word (setName m (1024 * c + 64 * j) name) = t.word m := by
        cases t with
        | block g i' =>
          simp only [Slot.file] at hind
          refine ⟨⟨hold, ht.2.1, fun hle => ?_⟩, by simp only [Slot.word, fIndirect, hind]⟩
          rw [fIndirect, ← hind]
          exact ht.2.2 hle
        | indirect g => exact ⟨hold, rfl⟩
      rw [hkept.2, setName_slot ho href hj hname hkept.1]
      rw [fType, hfield t.file 33 hold (by decide) (by decide)] at hP
      exact h.slot t hkept.1 hP
    · obtain ⟨heq, hm⟩ := hnew _ hfile hold
      have hblank := hblank hm
      have hzero : ∀ k, 34 ≤ k → k < 45 → d (1024 * c + 64 * j + k) = 0 := by
        intro k hlo hk
        rw [h.unused D i c j k href hdir hj hm (by omega) hk]
        exact hblank k hlo hk
      left
      cases t with
      | block g i' =>
        obtain rfl : g = 1024 * c + 64 * j := heq
        by_cases hd : i' < ndirect
        · simp only [Slot.word, if_pos hd, fDirect]
          unfold ndirect at hd
          rw [add_assoc]
          exact hzero (34 + i') (by omega) (by omega)
        · refine absurd ?_ (ht.2.2 (Nat.le_of_not_lt hd))
          rw [fIndirect, hentry 44 (by decide) (by decide)]
          exact hblank 44 (by decide) (by decide)
      | indirect g =>
        obtain rfl : g = 1024 * c + 64 * j := heq
        exact hzero 44 (by decide) (by decide)
  · by_cases hold : IsFile m g
    · rw [fType, hfield g 33 hold (by decide) (by decide)]
      exact h.type g hold
    · obtain ⟨rfl, hm⟩ := hnew g hg hold
      rw [fType, hentry 33 (by decide) (by decide)]
      exact h.unused D i c j 33 href hdir hj hm (by decide) (by decide)
  · have hD := (hrefers _ _).mp hD
    rw [fType, hfield D' 33 hD.1 (by decide) (by decide)] at hdir'
    exact h.unnamed D' i' c' j' hD hdir' hj' (hunnamed c' j' hm)
  · have hD := (hrefers _ _).mp hD
    rw [fType, hfield D' 33 hD.1 (by decide) (by decide)] at hdir'
    rw [setName_entry hname (by omega) (.inl (by omega))]
    exact h.unused D' i' c' j' k hD hdir' hj' (hunnamed c' j' hm) hlo hk

/-! ## Taking blocks away -/

section
variable {P : Nat → Prop} {m m' d : Mem} {f : Nat}

section
variable (h : Behind P m d)
include h

lemma Behind.detach (ho : Owned m) {s : Slot} {b : Nat} (href : Refers m s b) (hdet : Detached m m' s b)
    (hreg : m (fType s.file) ≠ ftypeDir) (hP : ¬ P s.file) : Behind P m' d := by
  have hrew := hdet.rewrites ho href
  have hiff := hdet.isFile_iff ho href hreg
  have htype : ∀ g, IsFile m g → m' (fType g) = m (fType g) := fun g hg => hrew.field g 33 hg (by decide)
  refine ⟨h.nblocks.trans (hdet.sNblocks_eq ho href).symm, fun c hc => ?_, fun t ht hPt => ?_, fun g hg => ?_,
    fun D i c j hD hdir hj hm => ?_, fun D i c j k hD hdir hj hm hlo hk => ?_⟩
  · exact (hdet.blockIsFree_iff ho href c).mpr (.inl (h.free c hc))
  · have hfile := (hiff t.file).mp (Slot.word_cases ht).1
    rw [htype _ hfile] at hPt
    have hne : t.file ≠ s.file := by
      intro heq
      rw [heq] at hPt
      exact hPt.elim hP hreg
    have hind : m' (fIndirect t.file) = m (fIndirect t.file) := by
      rw [hrew.indirect hfile, if_neg]
      rintro rfl
      exact hne rfl
    have hold : t.Exists m ∧ t.word m' = t.word m := by
      cases t with
      | block g i =>
        simp only [Slot.file] at hind
        exact ⟨⟨hfile, ht.2.1, fun hle => hind ▸ ht.2.2 hle⟩, by simp only [Slot.word, hind]⟩
      | indirect g => exact ⟨hfile, rfl⟩
    rw [hold.2, hrew.other t hold.1 (by rintro rfl; exact hne rfl)]
    exact h.slot t hold.1 hPt
  · have hg := (hiff g).mp hg
    rw [htype g hg]
    exact h.type g hg
  · have hD := (hdet.refers_of ho href hD).1
    rw [htype D hD.1] at hdir
    rw [hrew.nameEmpty hD hj] at hm
    exact h.unnamed D i c j hD hdir hj hm
  · have hD := (hdet.refers_of ho href hD).1
    rw [htype D hD.1] at hdir
    rw [hrew.nameEmpty hD hj] at hm
    rw [hrew.entry D i c j k hD hj (by omega) (.inr (ho.unnamed_ne (Slot.word_cases (refers_iff.mp href).1).1 hD hm))]
    exact h.unused D i c j k hD hdir hj hm hlo hk

lemma Behind.detaches (ho : Owned m) (hf : IsFile m f) (hreg : m (fType f) ≠ ftypeDir) (hP : ¬ P f)
    (hrun : ReflTransGen (DetachStep f) m m') : Behind P m' d := by
  induction hrun with
  | refl => exact h
  | tail hprev hstep ih =>
    have hshrunk := DetachStep.run hprev ho hf
    obtain ⟨s, b, rfl, href, hdet⟩ := hstep
    refine ih.detach hshrunk.owned href hdet ?_ hP
    rwa [fType, hshrunk.field _ 33 hshrunk.isFile (by decide)]

lemma Behind.mono {Q : Nat → Prop} (hQ : ∀ g, Q g → P g) : Behind Q m d :=
  ⟨h.nblocks, h.free, fun t ht hP => h.slot t ht (hP.imp (hQ _) id), h.type, h.unnamed, h.unused⟩

lemma Behind.resize (ho : Owned m) (hf : IsFile m f) (v : Nat) : Behind P (update m (fSize f) v) d := by
  refine h.sameTree (sameTree_resize ho hf v) (sNblocks_resize ho hf v) (blockIsFree_resize ho hf v)
    fun D i c j k href hdir hj hm hlo hk => ?_
  refine update_of_ne (fun heq => ?_) _ _
  have hfile := ho.entry_inj hf href hj (show 32 < 64 by decide) (by omega) heq
  rw [hfile, fSize] at heq
  omega

/-- A file is made shorter and its entry written back. Its slots in an indirect block that it keeps are as before. -/
theorem Behind.shrink (ho : Owned m) (hf : IsFile m f) (hreg : m (fType f) ≠ ftypeDir)
    (hrun : ReflTransGen (DetachStep f) m m') (v : Nat)
    (hkeep : P f → m' (fIndirect f) ≠ 0 → m' (fIndirect f) = m (fIndirect f) ∧
      ∀ i, ndirect ≤ i → i < ndirect + nindirect → Fs.blockAt m' f i = Fs.blockAt m f i) :
    Behind P (update m' (fSize f) v) (written (f / 1024) (update m' (fSize f) v) d) := by
  have hshrunk := DetachStep.run hrun ho hf
  have hothers : Behind (fun g => P g ∧ g ≠ f) m' d :=
    (h.mono fun g hg => hg.1).detaches ho hf hreg (fun hP => hP.2 rfl) hrun
  have hresized := (hothers.resize hshrunk.owned hshrunk.isFile v).flush (f / 1024)
  have htree := sameTree_resize hshrunk.owned hshrunk.isFile v
  refine { hresized with slot := fun t ht hP => ?_ }
  by_cases hfile : t.file = f
  · -- the words of the entry have been written back, those of the indirect block are as before
    have hentry : ∀ k, k < 64 → written (f / 1024) (update m' (fSize f) v) d (f + k) =
        update m' (fSize f) v (f + k) := fun k hk => written_self (hf.block hk)
    cases t with
    | indirect g =>
      obtain rfl : g = f := hfile
      exact .inr (hentry 44 (by decide))
    | block g i =>
      obtain rfl : g = f := hfile
      by_cases hd : i < ndirect
      · unfold ndirect at hd
        simp only [Slot.word, if_pos (show i < ndirect from hd), fDirect, add_assoc]
        exact .inr (hentry (34 + i) (by omega))
      have hPf : P g := by
        refine hP.resolve_right fun hdir => hreg ?_
        rwa [Slot.file, htree.type g hshrunk.isFile, fType, hshrunk.field g 33 hshrunk.isFile (by decide)] at hdir
      have ht' := htree.exists_iff.mp ht
      have hle := Nat.le_of_not_lt hd
      obtain ⟨hind, hblk⟩ := hkeep hPf (ht'.2.2 hle)
      have hex : (Slot.block g i).Exists m := ⟨hf, ht'.2.1, fun _ => hind ▸ ht'.2.2 hle⟩
      have hword : (Slot.block g i).word m' = (Slot.block g i).word m := by simp only [Slot.word, hind]
      have hval : m' ((Slot.block g i).word m) = m ((Slot.block g i).word m) := by
        rw [← hword, ← blockAt_word ht', hblk i hle ht'.2.1, blockAt_word hex, hword]
      rw [htree.word_eq ht', hword, ← hword, htree.slot _ ht', hword, hval]
      rcases written_cases (g / 1024) ((Slot.block g i).word m) (update m' (fSize g) v) d with hsame | hold
      · right
        rw [hsame, ← hword, htree.slot _ ht', hword, hval]
      · rw [hold]
        exact h.slot _ hex (.inl hPf)
  · exact hresized.slot t ht (hP.imp (fun hP => ⟨hP, hfile⟩) id)

end

end

end Jos.Fs
