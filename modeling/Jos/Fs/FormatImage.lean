import Jos.Fs.FormatRead

/-!
# The image of `fsformat` is well formed

`Placed` says which block slot names which block by the layout alone. The slots that
`fsformat` leaves unset and the empty list are where the image can differ from it.
-/

namespace Jos.Fs
open CInt WordMem

variable {F : HostFile} {b k : Nat} {s : Slot}

def UniqueNames (m : Mem) : Prop := ∀ i j i' j', i < ndirect + nindirect → i' < ndirect + nindirect →
  j < blkfiles → j' < blkfiles → blockAt m root i ≠ 0 → blockAt m root i' ≠ 0 →
  nameEmpty m (1024 * blockAt m root i + 64 * j) = false → nameEmpty m (1024 * blockAt m root i' + 64 * j') = false →
  entryName m (1024 * blockAt m root i + 64 * j) = entryName m (1024 * blockAt m root i' + 64 * j') → i = i' ∧ j = j'

def Placed (files : List HostFile) : Slot → Nat → Prop
  | .block f i, b => f = root ∧ i < rootBlocks files.length ∧ b = dirStart files + i ∨
    ∃ k F, files[k]? = some F ∧ f = entryAt files k ∧ i < F.blocks ∧ b = startOf files k + i
  | .indirect f, b => ∃ k F, files[k]? = some F ∧ f = entryAt files k ∧ ndirect ≤ F.blocks ∧ b = startOf files k + F.blocks

def SlotsBlank (garbage : Mem) (files : List HostFile) : Prop :=
  ∀ k F j, files[k]? = some F → F.Spare j → named 0 files garbage (heap + 64 * k + 34 + j) = 0

section
variable {files : List HostFile}

lemma entryAt_inj {k' : Nat} (h : entryAt files k = entryAt files k') : k = k' := by
  unfold entryAt at h
  omega

lemma startOf_inj {k' : Nat} {F' : HostFile} (hF : files[k]? = some F) (hF' : files[k']? = some F')
    (hlo : startOf files k ≤ b) (hhi : b < startOf files k + F.span) (hlo' : startOf files k' ≤ b)
    (hhi' : b < startOf files k' + F'.span) : k = k' := by
  rcases lt_trichotomy k k' with hlt | heq | hlt
  · have hmono : startOf files (k + 1) ≤ startOf files k' := startOf_mono hlt
    rw [startOf_succ hF] at hmono
    omega
  · exact heq
  · have hmono : startOf files (k' + 1) ≤ startOf files k := startOf_mono hlt
    rw [startOf_succ hF'] at hmono
    omega

lemma exists_file_at {n : Nat} (hn : n ≤ files.length) (hlo : 3 ≤ b) (hhi : b < startOf files n) :
    ∃ k F, files[k]? = some F ∧ startOf files k ≤ b ∧ b < startOf files k + F.span := by
  induction n with
  | zero =>
    unfold startOf at hhi
    simp only [List.take_zero, List.map_nil, List.sum_nil] at hhi
    omega
  | succ n ih =>
    have hF := List.getElem?_eq_getElem (show n < files.length by omega)
    rw [startOf_succ hF] at hhi
    rcases lt_or_ge b (startOf files n) with hlt | hge
    · exact ih (by omega) hlt
    · exact ⟨n, _, hF, hge, hhi⟩

lemma exists_placed (hlo : 3 ≤ b) (hhi : b < dirStart files + rootBlocks files.length) : ∃ s, Placed files s b := by
  rcases lt_or_ge b (dirStart files) with hlt | hge
  · obtain ⟨k, F, hF, hstart, hend⟩ := exists_file_at le_rfl hlo hlt
    rcases lt_or_ge b (startOf files k + F.blocks) with hb | hb
    · exact ⟨.block (entryAt files k) (b - startOf files k), .inr ⟨k, F, hF, rfl, by omega, by omega⟩⟩
    · unfold HostFile.span at hend
      by_cases hind : ndirect ≤ F.blocks
      · rw [if_pos hind] at hend
        exact ⟨.indirect (entryAt files k), k, F, hF, rfl, hind, by omega⟩
      · rw [if_neg hind] at hend
        omega
  · exact ⟨.block root (b - dirStart files), .inl ⟨rfl, by omega, by omega⟩⟩

lemma Placed.where (h : Placed files s b) :
    (s.file = root ∧ dirStart files ≤ b ∧ b < dirStart files + rootBlocks files.length ∧ s = .block root (b - dirStart files)) ∨
    ∃ k F, files[k]? = some F ∧ startOf files k ≤ b ∧ b < startOf files k + F.span ∧
      s = if b < startOf files k + F.blocks then .block (entryAt files k) (b - startOf files k)
        else .indirect (entryAt files k) := by
  cases s with
  | block f i =>
    rcases h with ⟨rfl, hi, rfl⟩ | ⟨k, F, hF, rfl, hi, rfl⟩
    · exact .inl ⟨rfl, by omega, by omega, by rw [Nat.add_sub_cancel_left]⟩
    · have hspan := F.blocks_le_span
      exact .inr ⟨k, F, hF, by omega, by omega, by rw [if_pos (by omega), Nat.add_sub_cancel_left]⟩
  | indirect f =>
    obtain ⟨k, F, hF, rfl, hind, rfl⟩ := h
    have hspan : F.span = F.blocks + 1 := by
      unfold HostFile.span
      rw [if_pos hind]
    exact .inr ⟨k, F, hF, by omega, by omega, by rw [if_neg (by omega)]⟩

lemma Placed.inj {t : Slot} (hs : Placed files s b) (ht : Placed files t b) : s = t := by
  rcases hs.where with ⟨-, hlo, -, rfl⟩ | ⟨k, F, hF, hlo, hhi, rfl⟩ <;>
    rcases ht.where with ⟨-, hlo', -, rfl⟩ | ⟨k', F', hF', hlo', hhi', rfl⟩
  · rfl
  · have := startOf_end hF'
    omega
  · have := startOf_end hF
    omega
  · obtain rfl := startOf_inj hF hF' hlo hhi hlo' hhi'
    rw [hF] at hF'
    cases hF'
    rfl

lemma Placed.range (h : Placed files s b) : 3 ≤ b ∧ b < dirStart files + rootBlocks files.length := by
  rcases h.where with ⟨-, hlo, hhi, -⟩ | ⟨k, F, hF, hlo, hhi, -⟩
  · have h3 : 3 ≤ dirStart files := Nat.le_add_right _ _
    omega
  · have hend := startOf_end hF
    have h3 : 3 ≤ startOf files k := Nat.le_add_right _ _
    omega

end

section
variable {nb : Nat} {garbage : Mem} {files : List HostFile} {m : Mem} (h : Image nb garbage files m)
include h

lemma Image.named_entry (hk : k < 16 * rootBlocks files.length) :
    nameEmpty m (entryAt files k) = false ↔ k < files.length := by
  rcases hF : files[k]? with _ | F
  · have hlen := List.getElem?_eq_none_iff.mp hF
    rw [h.unused_entry hlen hk]
    exact ⟨fun hfalse => (nomatch hfalse), fun hlt => absurd hlt (Nat.not_lt.mpr hlen)⟩
  · rw [Bool.eq_false_iff, ne_eq, nameEmpty_iff, h.entryName_eq hF, List.take_eq_nil_iff, not_or]
    exact ⟨fun _ => (List.getElem?_eq_some_iff.mp hF).1, fun _ => ⟨by decide, F.base⟩⟩

variable (hfit : Fit nb files)
include hfit

lemma Image.reservedEnd_eq : reservedEnd m = 3 := by
  have hroom := hfit.room
  have hdisk := hfit.disk
  unfold reservedEnd blkbitsize
  rw [h.nblocks]
  omega

lemma Image.entry_iff {i j : Nat} (hj : j < blkfiles) : (blockAt m root i ≠ 0 ∧
    nameEmpty m (1024 * blockAt m root i + 64 * j) = false) ↔ 16 * i + j < files.length := by
  have hj' : j < 16 := hj
  have hroot := le_rootBlocks files.length
  have h3 : 3 ≤ dirStart files := Nat.le_add_right _ _
  by_cases hi : i < rootBlocks files.length
  · rw [h.entry_eq hfit hi, h.named_entry (by omega), h.blockAt_root hfit, if_pos hi]
    exact ⟨fun hb => hb.2, fun hlt => ⟨by omega, hlt⟩⟩
  · rw [h.blockAt_root hfit, if_neg hi]
    exact ⟨fun hb => absurd rfl hb.1, fun hlt => by omega⟩

lemma Image.isFile_iff {f : Nat} : IsFile m f ↔ f = root ∨ ∃ k, k < files.length ∧ f = entryAt files k := by
  constructor
  · intro hf
    have hflat := hf.flat fun i j hi hj hb => ?_
    · rcases hflat with rfl | ⟨i, j, hi, hj, hb, hname, rfl⟩
      · exact .inl rfl
      · have hk := (h.entry_iff hfit hj).mp ⟨hb, hname⟩
        have hroot := le_rootBlocks files.length
        exact .inr ⟨_, hk, h.entry_eq hfit (by omega) j⟩
    · have hi' : i < rootBlocks files.length := by
        by_contra hge
        rw [h.blockAt_root hfit, if_neg hge] at hb
        exact hb rfl
      have hj' : j < 16 := hj
      rw [h.entry_eq hfit hi', h.type_entry (by omega)]
      decide
  · rintro (rfl | ⟨k, hk, rfl⟩)
    · exact .root
    · have hroot := le_rootBlocks files.length
      have hn : ndirect + nindirect = 1034 := rfl
      have hsmall := rootBlocks_le hfit.count
      have hj : k % 16 < blkfiles := Nat.mod_lt _ (by decide)
      have hentry := (h.entry_iff hfit hj).mpr (show 16 * (k / 16) + k % 16 < files.length by omega)
      have hfile := IsFile.entry .root h.type (show k / 16 < ndirect + nindirect by omega) hentry.1 hj hentry.2
      rwa [h.entry_eq hfit (by omega), Nat.div_add_mod] at hfile

lemma Image.refers_of_placed (hs : Placed files s b) : Refers m s b := by
  have h3 := hs.range.1
  have hn : ndirect + nindirect = 1034 := rfl
  cases s with
  | block f i =>
    rcases hs with ⟨rfl, hi, rfl⟩ | ⟨k, F, hF, rfl, hi, rfl⟩
    · have hsmall := rootBlocks_le hfit.count
      exact ⟨.root, by omega, by rw [h.blockAt_root hfit, if_pos hi], by omega⟩
    · have hsize := hfit.sizes F (List.mem_of_getElem? hF)
      have hmax := HostFile.blocks_le hsize
      exact ⟨(h.isFile_iff hfit).mpr (.inr ⟨k, (List.getElem?_eq_some_iff.mp hF).1, rfl⟩), by omega,
        (h.laid k F hF).blockAt hsize hi, by omega⟩
  | indirect f =>
    obtain ⟨k, F, hF, rfl, hind, rfl⟩ := hs
    exact ⟨(h.isFile_iff hfit).mpr (.inr ⟨k, (List.getElem?_eq_some_iff.mp hF).1, rfl⟩),
      (h.laid k F hF).indirect hind, by omega⟩

lemma Image.nblocks_entry (hF : files[k]? = some F) : Fs.nblocks (Fs.size m (entryAt files k)) = F.blocks := by
  have hsize := hfit.sizes F (List.mem_of_getElem? hF)
  have hlt : F.data.length < 4235264 := hsize
  have heq : Fs.size m (entryAt files k) = F.data.length := (h.laid k F hF).size_eq hsize
  have := nblocks_of_fits (s := (F.data.length : Int)) (by omega) (by omega)
  rw [heq]
  unfold HostFile.blocks
  omega

section
variable (hblank : SlotsBlank garbage files)
include hblank

omit hfit in
lemma Image.spare_zero (hF : files[k]? = some F) {j : Nat} (hj : F.Spare j) :
    m (fDirect (entryAt files k) j) = 0 := (h.spare k F j hF hj).trans (hblank k F j hF hj)

omit hfit in
lemma Image.blockAt_beyond (hF : files[k]? = some F) {i : Nat} (hi : F.blocks ≤ i)
    (hlt : i < ndirect + nindirect) : blockAt m (entryAt files k) i = 0 := by
  by_cases hd : i < ndirect
  · rw [blockAt_direct hd]
    exact h.spare_zero hblank hF ⟨by omega, hi, by omega⟩
  · by_cases hind : ndirect ≤ F.blocks
    · have hlaid : m (fIndirect (entryAt files k)) = startOf files k + F.blocks := (h.laid k F hF).indirect hind
      have h3 : 3 ≤ startOf files k := Nat.le_add_right _ _
      have hn : nindirect = 1024 := rfl
      rw [blockAt_indirect (by omega) (by omega), hlaid, (h.laid k F hF).entries hind _ (by omega), if_neg (by omega)]
    · exact blockAt_none (by omega) (h.spare_zero hblank hF ⟨le_rfl, by omega, by omega⟩)

lemma Image.refers_iff {s : Slot} {b : Nat} : Refers m s b ↔ Placed files s b := by
  refine ⟨fun href => ?_, h.refers_of_placed hfit⟩
  cases s with
  | block f i =>
    obtain ⟨hf, hi, hb, h0⟩ := href
    rcases (h.isFile_iff hfit).mp hf with rfl | ⟨k, hk, rfl⟩
    · rw [h.blockAt_root hfit] at hb
      split at hb
      · exact .inl ⟨rfl, ‹_›, hb.symm⟩
      · exact absurd hb.symm h0
    · have hF := List.getElem?_eq_getElem hk
      rcases lt_or_ge i files[k].blocks with hlt | hge
      · have hat := (h.laid k _ hF).blockAt (hfit.sizes _ (List.mem_of_getElem? hF)) hlt
        exact .inr ⟨k, _, hF, rfl, hlt, hb.symm.trans hat⟩
      · exact absurd (hb.symm.trans (h.blockAt_beyond hblank hF hge hi)) h0
  | indirect f =>
    obtain ⟨hf, hb, h0⟩ := href
    rcases (h.isFile_iff hfit).mp hf with rfl | ⟨k, hk, rfl⟩
    · have hsmall := rootBlocks_le hfit.count
      have hn : ndirect = 10 := rfl
      exact absurd (hb.symm.trans (h.beyond ndirect (by omega) le_rfl)) h0
    · have hF := List.getElem?_eq_getElem hk
      by_cases hind : ndirect ≤ files[k].blocks
      · exact ⟨k, _, hF, rfl, hind, hb.symm.trans ((h.laid k _ hF).indirect hind)⟩
      · exact absurd (hb.symm.trans (h.spare_zero hblank hF ⟨le_rfl, by omega, by omega⟩)) h0

lemma Image.agrees (hne : files ≠ []) : Agrees m := by
  have hlen : files.length ≠ 0 := fun h0 => hne (List.eq_nil_of_length_eq_zero h0)
  have hblocks : rootBlocks files.length = dirBlocks files := if_neg hlen
  have hroom := hfit.room
  have href := @Image.refers_iff _ _ _ _ h hfit hblank
  refine ⟨⟨⟨?_, ?_⟩, ?_, ?_⟩, ?_, ?_⟩
  · intro s t b hs ht
    exact (href.mp hs).inj (href.mp ht)
  · intro s b hs hfree
    have hrange := (href.mp hs).range
    rw [h.free] at hfree
    omega
  · intro s b hs
    have hrange := (href.mp hs).range
    rw [h.reservedEnd_eq hfit, h.nblocks]
    omega
  · intro b hb
    rw [h.reservedEnd_eq hfit] at hb
    have h3 : 3 ≤ dirStart files := Nat.le_add_right _ _
    rw [Bool.eq_false_iff, ne_eq, h.free]
    omega
  · rintro b ⟨hlo, hhi⟩
    rw [h.reservedEnd_eq hfit] at hlo
    rw [h.nblocks] at hhi
    rcases lt_or_ge b (dirStart files + dirBlocks files) with hlt | hge
    · obtain ⟨s, hs⟩ := exists_placed hlo (show b < dirStart files + rootBlocks files.length by omega)
      exact .inr ⟨s, href.mpr hs⟩
    · exact .inl ((h.free b).mpr ⟨hge, hhi⟩)
  · intro f i hf hi hle
    rcases (h.isFile_iff hfit).mp hf with rfl | ⟨k, hk, rfl⟩
    · rw [h.nblocks_root hfit] at hle
      rw [h.blockAt_root hfit, if_neg (by omega)]
    · have hF := List.getElem?_eq_getElem hk
      rw [h.nblocks_entry hfit hF] at hle
      exact h.blockAt_beyond hblank hF hle hi

end

section
variable (ha : Agrees m)
include ha

lemma Image.ne_nil_of_agrees : files ≠ [] := by
  rintro rfl
  have hplaced : Placed [] (.block root 0) (dirStart []) := .inl ⟨rfl, by decide, rfl⟩
  exact ha.exclusive.used _ _ (h.refers_of_placed hfit hplaced) ((h.free _).mpr ⟨le_rfl, hfit.room⟩)

/-- A block number left in a slot would lie beyond the size, or name a block that another slot names. -/
theorem Image.blank_of_agrees : SlotsBlank garbage files := by
  intro k F j hF hj
  have hfile : IsFile m (entryAt files k) :=
    (h.isFile_iff hfit).mpr (.inr ⟨k, (List.getElem?_eq_some_iff.mp hF).1, rfl⟩)
  have hval : m (fDirect (entryAt files k) j) = named 0 files garbage (heap + 64 * k + 34 + j) := h.spare k F j hF hj
  rw [← hval]
  obtain ⟨hle, hblocks, hlt⟩ := hj
  rcases Nat.lt_or_eq_of_le hle with hd | rfl
  · rw [← blockAt_direct hd m]
    exact ha.tail _ j hfile (by omega) (by rw [h.nblocks_entry hfit hF]; omega)
  · by_contra hne
    have href : Refers m (.indirect (entryAt files k)) (m (fIndirect (entryAt files k))) := ⟨hfile, rfl, hne⟩
    have hused := ha.exclusive.used _ _ href
    have hrange := ha.range _ _ href
    rw [h.reservedEnd_eq hfit, h.nblocks] at hrange
    rw [h.free] at hused
    have hroot : dirBlocks files ≤ rootBlocks files.length := by
      unfold dirBlocks rootBlocks
      split <;> omega
    obtain ⟨s, hs⟩ := exists_placed hrange.1
      (show m (fIndirect (entryAt files k)) < dirStart files + rootBlocks files.length by omega)
    obtain rfl := ha.exclusive.unique _ _ _ href (h.refers_of_placed hfit hs)
    obtain ⟨k', F', hF', hk', hind, -⟩ := hs
    obtain rfl := entryAt_inj hk'
    rw [hF] at hF'
    cases hF'
    omega

end

lemma Image.uniqueNames_iff : UniqueNames m ↔ (files.map fun F => F.name.take maxnamelen).Nodup := by
  have hroot := le_rootBlocks files.length
  have hsmall := rootBlocks_le hfit.count
  have hn : ndirect + nindirect = 1034 := rfl
  have hname : ∀ k, k < files.length →
      (files.map fun F => F.name.take maxnamelen)[k]? = some (entryName m (entryAt files k)) := fun k hk => by
    rw [List.getElem?_map, List.getElem?_eq_getElem hk, h.entryName_eq (List.getElem?_eq_getElem hk)]
    rfl
  constructor
  · intro hu
    rw [List.nodup_iff_getElem?_ne_getElem?]
    intro k k' hlt hk' heq
    rw [List.length_map] at hk'
    rw [hname k (by omega), hname k' hk'] at heq
    have hat : ∀ l, l < files.length → ∃ i j, i < ndirect + nindirect ∧ j < blkfiles ∧ l = 16 * i + j ∧
        (blockAt m root i ≠ 0 ∧ nameEmpty m (1024 * blockAt m root i + 64 * j) = false) ∧
        1024 * blockAt m root i + 64 * j = entryAt files l := fun l hl => by
      have hj : l % 16 < blkfiles := Nat.mod_lt _ (by decide)
      refine ⟨l / 16, l % 16, by omega, hj, by omega, (h.entry_iff hfit hj).mpr (by omega), ?_⟩
      rw [h.entry_eq hfit (by omega), Nat.div_add_mod]
    obtain ⟨i, j, hi, hj, hk, hsome, hentry⟩ := hat k (by omega)
    obtain ⟨i', j', hi', hj', hk', hsome', hentry'⟩ := hat k' hk'
    have := hu i j i' j' hi hi' hj hj' hsome.1 hsome'.1 hsome.2 hsome'.2
      (by rw [hentry, hentry']; exact Option.some.inj heq)
    omega
  · intro hnodup i j i' j' hi hi' hj hj' hb hb' hsome hsome' heq
    have hk := (h.entry_iff hfit hj).mp ⟨hb, hsome⟩
    have hk' := (h.entry_iff hfit hj').mp ⟨hb', hsome'⟩
    rw [h.entry_eq hfit (by omega), h.entry_eq hfit (by omega)] at heq
    have hsame := (List.getElem?_inj (by rw [List.length_map]; exact hk) hnodup).mp
      ((hname _ hk).trans ((congrArg some heq).trans (hname _ hk').symm))
    have hj1 : j < 16 := hj
    have hj2 : j' < 16 := hj'
    omega

end

/-- The image is well formed if there is a file, the unset slots were zero and the names differ. -/
theorem image_well_formed_iff {nb : Nat} {garbage : Mem} {files : List HostFile} {m : Mem}
    (hm : fsformat nb garbage files = .ok m) : (Agrees m ∧ UniqueNames m) ↔
      files ≠ [] ∧ SlotsBlank garbage files ∧ (files.map fun F => F.name.take maxnamelen).Nodup := by
  obtain ⟨hfit, rfl⟩ := fsformat_ok.mp hm
  have himage : Image nb garbage files _ := hfit.image
  rw [himage.uniqueNames_iff hfit]
  constructor
  · rintro ⟨ha, hnames⟩
    exact ⟨himage.ne_nil_of_agrees hfit ha, himage.blank_of_agrees hfit ha, hnames⟩
  · rintro ⟨hne, hblank, hnames⟩
    exact ⟨himage.agrees hfit hblank hne, hnames⟩

theorem smallFile_image : ∃ m, fsformat 6 (fun _ => 0) [smallFile] = .ok m ∧ Agrees m ∧ UniqueNames m := by
  have hfit : Fit 6 [smallFile] := by
    refine ⟨by decide, by decide, fun k F hF => ?_, by decide, by decide⟩
    obtain rfl | hk : k = 0 ∨ 0 < k := Nat.eq_zero_or_pos k
    · cases hF
      decide
    · rw [List.getElem?_eq_none (by exact hk)] at hF
      cases hF
  have hm : fsformat 6 (fun _ => 0) [smallFile] = _ := fsformat_ok.mpr ⟨hfit, rfl⟩
  refine ⟨_, hm, (image_well_formed_iff hm).mpr ⟨by decide, fun k F j hF hj => ?_, by decide⟩⟩
  obtain rfl | hk : k = 0 ∨ 0 < k := Nat.eq_zero_or_pos k
  · cases hF
    obtain ⟨hle, hlo, -⟩ := hj
    have hj : j ≤ 10 := hle
    interval_cases j <;> decide
  · rw [List.getElem?_eq_none (by exact hk)] at hF
    cases hF

/-- An empty list: the root has block 3, and block 3 is free. -/
theorem empty_image_misses_block : ∃ m, fsformat 4 (fun _ => 0) [] = .ok m ∧ Refers m (.block root 0) 3 ∧
    blockIsFree m 3 = true := by
  have hfit : Fit 4 [] := ⟨by decide, by decide, fun k F hF => absurd hF (by simp), by decide, by decide⟩
  have himage : Image 4 (fun _ => 0) [] _ := hfit.image
  exact ⟨_, fsformat_ok.mpr ⟨hfit, rfl⟩, himage.refers_of_placed hfit (.inl ⟨rfl, by decide, rfl⟩),
    (himage.free 3).mpr ⟨by decide, by decide⟩⟩

end Jos.Fs
