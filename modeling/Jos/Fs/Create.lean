import Jos.Fs.Failing
import Mathlib.Data.Set.Card

/-!
# Directories as functions from names to files

`file_create` looks for the name and for a free entry in two searches of the directory. As
long as the directory can take another block, it adds one name to one directory, and the
names in a directory stay distinct.
-/

namespace Jos.Fs
open WordMem CInt Relation

variable {d e f g i : Nat} {m m' : Mem} {name : List Nat}

def DistinctNames (m : Mem) : Prop := ∀ d, IsFile m d → m (fType d) = ftypeDir → ∀ e ∈ entries m d, ∀ e' ∈ entries m d,
  entryName m e ≠ [] → entryName m e' = entryName m e → e' = e

structure Sound (m : Mem) : Prop extends Whole m where
  unused : UnusedBlank 32 m
  unique : DistinctNames m

/-! ## Names -/

lemma entryName_congr {f' : Nat} (h : ∀ k, k < 32 → m' (f' + k) = m (f + k)) : entryName m' f' = entryName m f := by
  have hbytes : bytesAt m' (4 * f') maxnamelen = bytesAt m (4 * f) maxnamelen := by
    unfold bytesAt
    refine List.map_congr_left fun i hi => ?_
    have hlt : i < 128 := List.mem_range.1 hi
    have hword : ∀ g : Nat, (4 * g + i) / 4 = g + i / 4 ∧ (4 * g + i) % 4 = i % 4 := by
      intro g
      omega
    unfold getByte
    rw [(hword f').1, (hword f').2, (hword f).1, (hword f).2, h (i / 4) (by omega)]
  unfold entryName
  rw [hbytes]

/-! ## Directories without holes -/

section
variable {m : Mem} (h : Whole m) {d e : Nat} (hd : IsFile m d) (hdir : m (fType d) = ftypeDir)
include h hd hdir

lemma Whole.entry_refers (he : e ∈ entries m d) :
    ∃ i c j, i < nblocks (size m d) ∧ Refers m (.block d i) c ∧ j < blkfiles ∧ e = 1024 * c + 64 * j := by
  obtain ⟨i, j, hi, hj, rfl⟩ := mem_entries.1 he
  exact ⟨i, _, j, hi, ⟨hd, lt_of_lt_of_le hi (h.nblock hd hdir).2.1, rfl, h.dirBlocks d i hd hdir hi⟩, hj, rfl⟩

lemma Whole.entry_unique {d' : Nat} (hd' : IsFile m d') (hdir' : m (fType d') = ftypeDir) (he : e ∈ entries m d)
    (he' : e ∈ entries m d') : d' = d := by
  obtain ⟨i, c, j, -, href, hj, rfl⟩ := h.entry_refers hd hdir he
  obtain ⟨i', c', j', -, href', hj', heq⟩ := h.entry_refers hd' hdir' he'
  obtain rfl : c' = c := by
    unfold blkfiles at hj hj'
    omega
  cases h.exclusive.unique _ _ _ href href'
  rfl

lemma Whole.isFile_entry (he : e ∈ entries m d) : IsFile m e ↔ entryName m e ≠ [] := by
  obtain ⟨i, c, j, -, href, hj, rfl⟩ := h.entry_refers hd hdir he
  rw [Ne, ← nameEmpty_iff, Bool.not_eq_true]
  constructor
  · intro hfile
    refine hfile.named.resolve_left fun hroot => ?_
    have hrange := (h.range _ _ href).1
    have htwo := two_le_reservedEnd m
    unfold root at hroot
    omega
  · intro hname
    obtain ⟨hd, hi, rfl, hb⟩ := href
    exact .entry hd hdir hi hb hj hname

end

/-! ## A further block for a directory -/

lemma AttachStep.run_blockAt {bno : Nat} (h : ReflTransGen (AttachStep f bno) m m') (ho : Owned m)
    (hg : IsFile m g) (hi : i < ndirect + nindirect) (hne : g ≠ f ∨ i ≠ bno) : blockAt m' g i = blockAt m g i := by
  induction h with
  | refl => rfl
  | @tail m1 m2 hrun hstep ih =>
    have hgrown := AttachStep.run hrun ho
    obtain ⟨s, b, hex, hempty, hatt, hs⟩ := hstep
    rw [hatt.blockAt_eq hgrown.owned hex hempty ((hgrown.isFile_iff g).2 hg) hi, if_neg, ih]
    rintro rfl
    rcases hs with hs | ⟨hs, -⟩
    · cases hs
      exact hne.elim (fun hgf => hgf rfl) fun hib => hib rfl
    · cases hs

/-- From `m` to `m'` directories may get blocks of unused entries; files and names are the same. -/
structure Widened (m m' : Mem) : Prop where
  whole : Whole m'
  unused : UnusedBlank 32 m'
  isFile_iff : ∀ g, IsFile m' g ↔ IsFile m g
  type : ∀ g, IsFile m g → m' (fType g) = m (fType g)
  entries : ∀ g, IsFile m g → m (fType g) = ftypeDir →
    ∃ new, Fs.entries m' g = Fs.entries m g ++ new ∧ ∀ e ∈ new, entryName m' e = []
  names : ∀ g, IsFile m g → m (fType g) = ftypeDir → ∀ e ∈ Fs.entries m g, entryName m' e = entryName m e

lemma Widened.refl (h : Whole m) (hu : UnusedBlank 32 m) : Widened m m :=
  ⟨h, hu, fun _ => Iff.rfl, fun _ _ => rfl, fun _ _ _ => ⟨[], by rw [List.append_nil], by simp⟩,
    fun _ _ _ _ _ => rfl⟩

structure Took (m m' : Mem) (d : Nat) : Prop where
  agrees : Agrees m'
  unused : UnusedBlank 32 m'
  isFile_iff : ∀ g, IsFile m' g ↔ IsFile m g
  field : ∀ g k, IsFile m g → k < 34 → (g ≠ d ∨ k ≠ 32) → m' (g + k) = m (g + k)
  size : Fs.size m' d = Fs.size m d + 4096
  blocks : ∀ g i, IsFile m g → i < ndirect + nindirect → (g ≠ d ∨ i ≠ nblocks (Fs.size m d)) → blockAt m' g i = blockAt m g i
  block : blockAt m' d (nblocks (Fs.size m d)) ≠ 0

section
variable {m : Mem} (h : Whole m) {d : Nat} (hd : IsFile m d) (hdir : m (fType d) = ftypeDir)
include h hd hdir

lemma Whole.nblocks_enlarged : nblocks (size m d + 4096) = nblocks (size m d) + 1 := by
  obtain ⟨h0, h1⟩ := h.sizes d hd
  have hmax : size m d ≤ 4235264 := h1
  have hmod : (size m d).tmod blksize = 0 := Int.tmod_eq_zero_of_dvd (h.dirSizes d hd hdir).2
  exact (dirNblock_eq h0 (by omega) hmod).2

lemma Whole.took (hu : UnusedBlank 32 m) (hrun : ReflTransGen (AttachStep d (nblocks (size m d))) (enlarged m d) m')
    (hblock : blockAt m' d (nblocks (size m d)) ≠ 0) : Took m m' d := by
  have ho := owned_resize h.toOwned hd (toU32 (size m d + blksize))
  have hsame := sameTree_resize h.toOwned hd (toU32 (size m d + blksize))
  have hgrown := AttachStep.run hrun ho
  have hsize := h.size_enlarged hd
  have hd' : IsFile (enlarged m d) d := (hsame.isFile_iff d).2 hd
  have hagrees : Agrees (enlarged m d) := by
    obtain ⟨h0, h1⟩ := h.sizes d hd
    have hmax : size m d ≤ 4235264 := h1
    unfold enlarged
    rw [blksize_cast]
    refine agrees_resize hd h.toAgrees (by omega) (by omega) fun i hi hle => ?_
    rw [h.nblocks_enlarged hd hdir] at hle
    exact h.tail d i hd hi (by omega)
  refine ⟨AttachStep.run_agrees hrun hagrees hd' ?_, ?_, fun g => (hgrown.isFile_iff g).trans (hsame.isFile_iff g), ?_, ?_, ?_, hblock⟩
  · rw [hsize, h.nblocks_enlarged hd hdir]
    omega
  · exact hgrown.unusedBlank 32 (unusedBlank_resize h.toOwned hd _ hu)
  · intro g k hg hk hne
    rw [hgrown.field g k ((hsame.isFile_iff g).2 hg) hk]
    exact resize_field h.toOwned hd _ hg (by omega) hne
  · rw [hgrown.size_eq hd', hsize]
  · intro g i hg hi hne
    rw [AttachStep.run_blockAt hrun ho ((hsame.isFile_iff g).2 hg) hi hne]
    exact hsame.blockAt_eq hg hi

end

section
variable {m m' : Mem} (h : Whole m) {d : Nat} (hd : IsFile m d) (hdir : m (fType d) = ftypeDir) (ht : Took m m' d)
  (hroom : nblocks (Fs.size m d) < ndirect + nindirect)
include ht

lemma Took.type_eq (hg : IsFile m g) : m' (fType g) = m (fType g) :=
  ht.field g 33 hg (by decide) (.inr (by decide))

lemma Took.size_of_ne (hg : IsFile m g) (hne : g ≠ d) : Fs.size m' g = Fs.size m g := by
  unfold Fs.size
  rw [show fSize g = g + 32 from rfl, ht.field g 32 hg (by decide) (.inl hne)]

include h hd hdir hroom

lemma Took.whole : Whole m' := by
  have hn := h.nblocks_enlarged hd hdir
  refine { toAgrees := ht.agrees, sizes := fun g hg => ?_, dirSizes := fun g hg hgdir => ?_, dirBlocks := fun g i hg hgdir hi => ?_ } <;>
    replace hg := (ht.isFile_iff g).1 hg
  · by_cases hgd : g = d
    · subst hgd
      obtain ⟨h0, h1⟩ := h.sizes g hg
      obtain ⟨-, -, hsize⟩ := h.nblock hd hdir
      rw [ht.size, maxfilesize_eq]
      unfold ndirect nindirect at hroom
      omega
    · rw [ht.size_of_ne hg hgd]
      exact h.sizes g hg
  · rw [ht.type_eq hg] at hgdir
    obtain ⟨h0, hdvd⟩ := h.dirSizes g hg hgdir
    by_cases hgd : g = d
    · subst hgd
      rw [ht.size]
      exact ⟨by omega, Int.dvd_add hdvd (Int.dvd_refl _)⟩
    · rw [ht.size_of_ne hg hgd]
      exact ⟨h0, hdvd⟩
  · rw [ht.type_eq hg] at hgdir
    by_cases hgd : g = d
    · subst hgd
      rw [ht.size, hn] at hi
      by_cases hlast : i = nblocks (Fs.size m g)
      · rw [hlast]
        exact ht.block
      · rw [ht.blocks g i hg (by omega) (.inr hlast)]
        exact h.dirBlocks g i hg hgdir (by omega)
    · rw [ht.size_of_ne hg hgd] at hi
      rw [ht.blocks g i hg (lt_of_lt_of_le hi (h.nblock hg hgdir).2.1) (.inl hgd)]
      exact h.dirBlocks g i hg hgdir hi

omit hd hdir hroom in
lemma Took.entries_other (hg : IsFile m g) (hgdir : m (fType g) = ftypeDir) (hne : g ≠ d) :
    entries m' g = entries m g :=
  entries_congr (ht.size_of_ne hg hne) fun i hi =>
    ht.blocks g i hg (lt_of_lt_of_le hi (h.nblock hg hgdir).2.1) (.inl hne)

lemma Took.entries_self : entries m' d = entries m d ++
    (List.range blkfiles).map fun j => 1024 * blockAt m' d (nblocks (Fs.size m d)) + 64 * j := by
  have hold : entriesFrom m' d 0 (nblocks (Fs.size m d)) = entriesFrom m d 0 (nblocks (Fs.size m d)) := by
    unfold entriesFrom
    refine List.flatMap_congr fun i hi => ?_
    obtain ⟨-, hlt⟩ := List.mem_range'_1.1 hi
    rw [ht.blocks d i hd (by omega) (.inr (by omega))]
  unfold entries
  rw [ht.size, h.nblocks_enlarged hd hdir, ← hold]
  unfold entriesFrom
  rw [List.range'_concat, List.flatMap_append, List.flatMap_singleton, zero_add, one_mul]

lemma Took.new_unnamed {j : Nat} (hj : j < blkfiles) :
    entryName m' (1024 * blockAt m' d (nblocks (Fs.size m d)) + 64 * j) = [] := by
  rw [← nameEmpty_iff]
  by_contra hnamed
  have hd' := (ht.isFile_iff d).2 hd
  have hfile := IsFile.entry hd' ((ht.type_eq hd).trans hdir) hroom ht.block hj (Bool.eq_false_iff.2 hnamed)
  have hblock : (1024 * blockAt m' d (nblocks (Fs.size m d)) + 64 * j) / 1024 = blockAt m' d (nblocks (Fs.size m d)) := by
    unfold blkfiles at hj
    omega
  -- such a file would lie in a block that a directory had before
  rcases ((ht.isFile_iff _).1 hfile).parent with hroot | ⟨g, i, ⟨hg, hi, hb, hb0⟩, -, -⟩
  · have hrange := (ht.agrees.range (.block d (nblocks (Fs.size m d))) _ ⟨hd', hroom, rfl, ht.block⟩).1
    have htwo := two_le_reservedEnd m'
    unfold root at hroot
    omega
  · rw [hblock] at hb
    have htail := h.tail d _ hd hroom le_rfl
    by_cases hsame : g = d ∧ i = nblocks (Fs.size m d)
    · rw [hsame.1, hsame.2, htail] at hb
      exact ht.block hb.symm
    · have hne : g ≠ d ∨ i ≠ nblocks (Fs.size m d) := by
        by_contra hnot
        exact hsame ⟨by_contra fun hgd => hnot (.inl hgd), by_contra fun hin => hnot (.inr hin)⟩
      have href : Refers m' (.block g i) (blockAt m' d (nblocks (Fs.size m d))) :=
        ⟨(ht.isFile_iff g).2 hg, hi, (ht.blocks g i hg hi hne).trans hb, ht.block⟩
      have hnew : Refers m' (.block d (nblocks (Fs.size m d))) (blockAt m' d (nblocks (Fs.size m d))) :=
        ⟨hd', hroom, rfl, ht.block⟩
      have heq := ht.agrees.exclusive.unique _ _ _ href hnew
      injection heq with hgd hin
      exact hsame ⟨hgd, hin⟩

lemma Took.names (hg : IsFile m g) (hgdir : m (fType g) = ftypeDir) (he : e ∈ entries m g) :
    entryName m' e = entryName m e := by
  have hwhole := ht.whole h hd hdir hroom
  have hg' := (ht.isFile_iff g).2 hg
  have he' : e ∈ entries m' g := by
    by_cases hgd : g = d
    · subst hgd
      rw [ht.entries_self h hd hdir hroom]
      exact List.mem_append_left _ he
    · rwa [ht.entries_other h hg hgdir hgd]
  have hiff : entryName m' e ≠ [] ↔ entryName m e ≠ [] := by
    rw [← hwhole.isFile_entry hg' ((ht.type_eq hg).trans hgdir) he', ← h.isFile_entry hg hgdir he]
    exact ht.isFile_iff e
  by_cases hnamed : entryName m e = []
  · rw [hnamed]
    exact Classical.not_not.1 fun hne => hiff.1 hne hnamed
  · have hfile := (h.isFile_entry hg hgdir he).2 hnamed
    exact entryName_congr fun k hk => ht.field e k hfile (by omega) (.inr (by omega))

lemma Took.widened : Widened m m' where
  whole := ht.whole h hd hdir hroom
  unused := ht.unused
  isFile_iff := ht.isFile_iff
  type _ hg := ht.type_eq hg
  entries g hg hgdir := by
    by_cases hgd : g = d
    · subst hgd
      refine ⟨_, ht.entries_self h hd hdir hroom, fun e he => ?_⟩
      obtain ⟨j, hj, rfl⟩ := List.mem_map.1 he
      exact ht.new_unnamed h hd hdir hroom (List.mem_range.1 hj)
    · exact ⟨[], by rw [ht.entries_other h hg hgdir hgd, List.append_nil], by simp⟩
  names _ hg hgdir _ he := ht.names h hd hdir hroom hg hgdir he

end

/-! ## The free entry -/

section
variable {m : Mem} (h : Whole m) {d : Nat} (hd : IsFile m d) (hdir : m (fType d) = ftypeDir)
include h hd hdir

lemma Whole.dirAllocFile_ok (hu : UnusedBlank 32 m)
    (hroom : (∃ e ∈ entries m d, entryName m e = []) ∨ nblocks (size m d) < ndirect + nindirect ∧
      needed m d (nblocks (size m d)) (nblocks (size m d) + 1) ≤ freeCount m) :
    ∃ e m1, dirAllocFile d m = .ok (.ok e, m1) ∧ Widened m m1 ∧ e ∈ entries m1 d ∧ entryName m1 e = [] := by
  obtain ⟨hnblock, -, -⟩ := h.nblock hd hdir
  unfold dirAllocFile
  rw [hnblock, ok_bind, h.search_free hd hdir, ok_bind]
  cases hfind : (entries m d).find? (nameEmpty m) with
  | some e => exact ⟨e, m, rfl, .refl h hu, List.mem_of_find?_eq_some hfind, nameEmpty_iff.1 (List.find?_some hfind)⟩
  | none =>
    have hlast := hroom.resolve_left fun ⟨e, he, hfree⟩ => List.find?_eq_none.1 hfind e he (nameEmpty_iff.2 hfree)
    have hblocks := sameBlocks_resize h.toOwned hd (toU32 (size m d + blksize))
    obtain ⟨r, blk, m1, hget, hsteps, hcases⟩ := fileGetBlock_room hblocks.owned hblocks.isFile hlast.1
    rw [needed_congr (show nblocks (size m d) + 1 ≤ ndirect + nindirect from hlast.1) hblocks.blocks hblocks.indirect, hblocks.free] at hcases
    dsimp only [Option.elim]
    rw [hget, ok_bind]
    dsimp only
    rcases hcases with ⟨-, rfl, rfl, hblock, -⟩ | ⟨hout, -⟩ | ⟨hout, -⟩
    · have ht := h.took hd hdir hu hsteps hblock
      have hentries := ht.entries_self h hd hdir hlast.1
      have hunnamed := ht.new_unnamed h hd hdir hlast.1 (j := 0) (by decide)
      rw [mul_zero, add_zero] at hunnamed
      refine ⟨1024 * blockAt m1 d (nblocks (size m d)), m1, rfl, ht.widened h hd hdir hlast.1, ?_, hunnamed⟩
      rw [hentries]
      refine List.mem_append_right _ (List.mem_map.2 ⟨0, List.mem_range.2 (by decide), ?_⟩)
      rw [mul_zero, add_zero]
    · omega
    · omega

lemma Whole.dirAllocFile_full (hnames : ∀ e ∈ entries m d, entryName m e ≠ []) (hlast : nblocks (size m d) = ndirect + nindirect) :
    dirAllocFile d m = .ok (.ok (1024 * blockAt m d 1033), enlarged m d) := by
  obtain ⟨hnblock, -, -⟩ := h.nblock hd hdir
  have hfind : (entries m d).find? (nameEmpty m) = none :=
    List.find?_eq_none.2 fun e he hempty => hnames e he (nameEmpty_iff.1 hempty)
  have hblocks := sameBlocks_resize h.toOwned hd (toU32 (size m d + blksize))
  unfold dirAllocFile
  rw [hnblock, ok_bind, h.search_free hd hdir, ok_bind, hfind, hlast]
  dsimp only [Option.elim]
  rw [fileGetBlock_noWalk hblocks.owned hblocks.isFile (.inl le_rfl), ok_bind]
  rfl

end

/-! ## The new name -/

lemma entryName_setName (hname : NameOk name) : entryName (setName m e name) e = name := by
  rw [← nameIs_iff_entryName hname.chars hname.short]
  unfold nameIs setName
  rw [beq_iff_eq, ← List.length_singleton (a := 0), ← List.length_append]
  refine bytesAt_putBytes m (4 * e) fun b hb => ?_
  rcases List.mem_append.1 hb with hb | hb
  · exact (hname.chars b hb).2
  · rw [List.mem_singleton.1 hb]
    decide

lemma lookup_some (hname : NameOk name) (h : lookup m d name = some e) : e ∈ entries m d ∧ entryName m e = name := by
  unfold lookup at h
  exact ⟨List.mem_of_find?_eq_some h, (nameIs_iff_entryName hname.chars hname.short).1 (List.find?_some h)⟩

lemma Sound.lookup_iff (h : Sound m) (hd : IsFile m d)
    (hdir : m (fType d) = ftypeDir) (hname : NameOk name) : lookup m d name = some e ↔ e ∈ entries m d ∧ entryName m e = name := by
  refine ⟨lookup_some hname, ?_⟩
  rintro ⟨he, rfl⟩
  unfold lookup
  have hsome : ((entries m d).find? (nameIs (entryName m e) m)).isSome :=
    List.find?_isSome.2 ⟨e, he, (nameIs_iff_entryName hname.chars hname.short).2 rfl⟩
  obtain ⟨e', hfind⟩ := Option.isSome_iff_exists.1 hsome
  have hsame := (nameIs_iff_entryName hname.chars hname.short).1 (List.find?_some hfind)
  rw [hfind, h.unique d hd hdir e he e' (List.mem_of_find?_eq_some hfind) hname.ne hsame]

structure Named (m m' : Mem) (e : Nat) (name : List Nat) : Prop where
  whole : Whole m'
  unused : UnusedBlank 32 m'
  isFile_iff : ∀ g, IsFile m' g ↔ IsFile m g ∨ g = e
  type : ∀ g, IsFile m g → m' (fType g) = m (fType g)
  entries : ∀ g, IsFile m g → m (fType g) = ftypeDir → Fs.entries m' g = Fs.entries m g
  names : ∀ g, IsFile m g → m (fType g) = ftypeDir → ∀ x ∈ Fs.entries m g, x ≠ e → entryName m' x = entryName m x
  name : entryName m' e = name
  blank : Blank 32 m' e

section
variable {m : Mem} (h : Whole m) (hu : UnusedBlank 32 m) {d e : Nat} (hd : IsFile m d) (hdir : m (fType d) = ftypeDir)
  (he : e ∈ entries m d) (hfree : entryName m e = []) {name : List Nat} (hname : NameOk name)
include h hu hd hdir he hfree hname

lemma Whole.named : Named m (setName m e name) e name := by
  obtain ⟨i, c, j, -, href, hj, rfl⟩ := h.entry_refers hd hdir he
  have ho := h.toOwned
  have hempty := nameEmpty_iff.2 hfree
  have hblank : Blank 32 m (1024 * c + 64 * j) := hu d i c j href hdir hj hempty
  have hblank34 : nameEmpty m (1024 * c + 64 * j) → Blank 34 m (1024 * c + 64 * j) := fun _ k hk hk' =>
    hblank k (by omega) hk'
  have hfile := isFile_setName ho href hj hname hdir hblank34
  have hfield : ∀ g k, IsFile m g → 32 ≤ k → k < 64 → setName m (1024 * c + 64 * j) name (g + k) = m (g + k) :=
    fun g k hg hlo hk => setName_field ho href hj hname hg hk (.inl hlo)
  have hsize : ∀ g, IsFile m g → size (setName m (1024 * c + 64 * j) name) g = size m g := fun g hg => by
    unfold size
    rw [show fSize g = g + 32 from rfl, hfield g 32 hg (by decide) (by decide)]
  have hnew : Blank 32 (setName m (1024 * c + 64 * j) name) (1024 * c + 64 * j) := fun k hk hk' => by
    rw [setName_of_lt hname (.inr (by omega)), hblank k hk hk']
  have hnewSize : size (setName m (1024 * c + 64 * j) name) (1024 * c + 64 * j) = 0 := by
    unfold size
    rw [show fSize (1024 * c + 64 * j) = 1024 * c + 64 * j + 32 from rfl, hnew 32 (by decide) (by decide)]
    decide
  have hnewType : setName m (1024 * c + 64 * j) name (fType (1024 * c + 64 * j)) ≠ ftypeDir := by
    rw [show fType (1024 * c + 64 * j) = 1024 * c + 64 * j + 33 from rfl, hnew 33 (by decide) (by decide)]
    decide
  have hold : ∀ g, IsFile (setName m (1024 * c + 64 * j) name) g →
      setName m (1024 * c + 64 * j) name (fType g) = ftypeDir → IsFile m g ∧ m (fType g) = ftypeDir := by
    intro g hg hgdir
    rcases (hfile g).1 hg with hg | rfl
    · exact ⟨hg, (hfield g 33 hg (by decide) (by decide)).symm.trans hgdir⟩
    · exact absurd hgdir hnewType
  have hblocks : ∀ g k, IsFile m g → k < ndirect + nindirect →
      blockAt (setName m (1024 * c + 64 * j) name) g k = blockAt m g k := fun g k hg hk =>
    blockAt_setName ho href hj hname hg hk
  refine ⟨?_, unusedBlank_setName ho href hj hname hdir hblank34 hu, hfile, fun g hg => hfield g 33 hg (by decide) (by decide),
    fun g hg hgdir => ?_, fun g hg hgdir x hx hne => ?_, entryName_setName hname, hnew⟩
  · refine { toAgrees := agrees_setName ho href hj hname hdir hblank34 h.toAgrees, sizes := fun g hg => ?_,
             dirSizes := fun g hg hgdir => ?_, dirBlocks := fun g k hg hgdir hk => ?_ }
    · rcases (hfile g).1 hg with hg | rfl
      · rw [hsize g hg]
        exact h.sizes g hg
      · rw [hnewSize]
        decide
    · obtain ⟨hg, hgdir⟩ := hold g hg hgdir
      rw [hsize g hg]
      exact h.dirSizes g hg hgdir
    · obtain ⟨hg, hgdir⟩ := hold g hg hgdir
      rw [hsize g hg] at hk
      rw [hblocks g k hg (lt_of_lt_of_le hk (h.nblock hg hgdir).2.1)]
      exact h.dirBlocks g k hg hgdir hk
  · exact entries_congr (hsize g hg) fun k hk => hblocks g k hg (lt_of_lt_of_le hk (h.nblock hg hgdir).2.1)
  · obtain ⟨i', c', j', -, -, -, rfl⟩ := h.entry_refers hg hgdir hx
    exact entryName_congr fun k hk => setName_entry hname (by omega) (.inr hne)

end

/-- Directory `d` has got the entry `e` under a name that it did not have, a file without data. -/
structure Adds (m m' : Mem) (d e : Nat) (name : List Nat) : Prop where
  sound : Sound m'
  fresh : ¬ IsFile m e
  isFile_iff : ∀ g, IsFile m' g ↔ IsFile m g ∨ g = e
  type : ∀ g, IsFile m g → m' (fType g) = m (fType g)
  blank : Blank 32 m' e
  added : lookup m' d name = some e
  kept : ∀ g n x, IsFile m g → m (fType g) = ftypeDir → NameOk n → lookup m g n = some x → lookup m' g n = some x

section
variable {m m1 m' : Mem} (h : Sound m) (hw : Widened m m1) {d e : Nat} (hd : IsFile m d) (hdir : m (fType d) = ftypeDir)
  (he : e ∈ Fs.entries m1 d) (hfree : entryName m1 e = []) {name : List Nat} (hn : Named m1 m' e name)
include hw hn

lemma Named.isFile_old (g : Nat) : IsFile m' g ↔ IsFile m g ∨ g = e := by
  rw [hn.isFile_iff, hw.isFile_iff]

lemma Named.type_old (hg : IsFile m g) : m' (fType g) = m (fType g) := by
  rw [hn.type g ((hw.isFile_iff g).2 hg), hw.type g hg]

lemma Named.dir_old (hg : IsFile m' g) (hgdir : m' (fType g) = ftypeDir) : IsFile m g ∧ m (fType g) = ftypeDir := by
  rcases (hn.isFile_old hw g).1 hg with hg | rfl
  · exact ⟨hg, (hn.type_old hw hg).symm.trans hgdir⟩
  · have hreg : m' (fType g) = 0 := hn.blank 33 (by decide) (by decide)
    rw [hreg] at hgdir
    exact absurd hgdir (by decide)

include hfree

lemma Named.entry_kept {x : Nat} (hg : IsFile m g) (hgdir : m (fType g) = ftypeDir) (hx : x ∈ Fs.entries m g)
    (hnamed : entryName m x ≠ []) : x ∈ Fs.entries m' g ∧ entryName m' x = entryName m x := by
  have hg1 := (hw.isFile_iff g).2 hg
  have hgdir1 := (hw.type g hg).trans hgdir
  obtain ⟨new, hentries, -⟩ := hw.entries g hg hgdir
  have hx1 : x ∈ Fs.entries m1 g := by
    rw [hentries]
    exact List.mem_append_left _ hx
  have hname := hw.names g hg hgdir x hx
  have hne : x ≠ e := fun heq => hnamed (by rw [← hname, heq, hfree])
  refine ⟨?_, (hn.names g hg1 hgdir1 x hx1 hne).trans hname⟩
  rwa [hn.entries g hg1 hgdir1]

include hd hdir he

lemma Named.entry_cases {x : Nat} (hg : IsFile m g) (hgdir : m (fType g) = ftypeDir) (hx : x ∈ Fs.entries m' g)
    (hnamed : entryName m' x ≠ []) : x ∈ Fs.entries m g ∧ entryName m' x = entryName m x ∨ x = e ∧ g = d := by
  have hg1 := (hw.isFile_iff g).2 hg
  have hgdir1 := (hw.type g hg).trans hgdir
  have hx1 : x ∈ Fs.entries m1 g := by rwa [hn.entries g hg1 hgdir1] at hx
  by_cases hxe : x = e
  · subst hxe
    exact .inr ⟨rfl, hw.whole.entry_unique ((hw.isFile_iff d).2 hd) ((hw.type d hd).trans hdir) hg1 hgdir1 he hx1⟩
  · have hname := hn.names g hg1 hgdir1 x hx1 hxe
    obtain ⟨new, hentries, hblank⟩ := hw.entries g hg hgdir
    have hold : x ∈ Fs.entries m g := by
      rw [hentries] at hx1
      refine (List.mem_append.1 hx1).resolve_right fun hin => hnamed ?_
      rw [hname, hblank x hin]
    exact .inl ⟨hold, hname.trans (hw.names g hg hgdir x hold)⟩

variable (hname : NameOk name) (hnew : lookup m d name = none)
include h hname hnew

lemma Named.unique : DistinctNames m' := by
  intro g hg hgdir x hx x' hx' hnamed hsame
  obtain ⟨hg, hgdir⟩ := hn.dir_old hw hg hgdir
  have hnamed' : entryName m' x' ≠ [] := by rwa [hsame]
  -- an old entry of this name would have been found
  have hmissing : ∀ y ∈ Fs.entries m d, entryName m y ≠ name := fun y hy hyname =>
    nomatch hnew.symm.trans ((h.lookup_iff hd hdir hname).2 ⟨hy, hyname⟩)
  rcases hn.entry_cases hw hd hdir he hfree hg hgdir hx hnamed with ⟨hold, hkeep⟩ | ⟨rfl, hgd⟩ <;>
    rcases hn.entry_cases hw hd hdir he hfree hg hgdir hx' hnamed' with ⟨hold', hkeep'⟩ | ⟨rfl, hgd'⟩
  · rw [hkeep] at hnamed hsame
    rw [hkeep'] at hsame
    exact h.unique g hg hgdir x hold x' hold' hnamed hsame
  · rw [hkeep, hn.name] at hsame
    exact absurd hsame.symm (hmissing x (hgd' ▸ hold))
  · rw [hkeep', hn.name] at hsame
    exact absurd hsame (hmissing x' (hgd ▸ hold'))
  · rfl

lemma Named.adds : Adds m m' d e name := by
  have hd1 := (hw.isFile_iff d).2 hd
  have hdir1 := (hw.type d hd).trans hdir
  have hsound : Sound m' := ⟨hn.whole, hn.unused, hn.unique h hw hd hdir he hfree hname hnew⟩
  have hd' := (hn.isFile_old hw d).2 (.inl hd)
  have hdir' := (hn.type_old hw hd).trans hdir
  refine ⟨hsound, fun hold => ?_, hn.isFile_old hw, fun g hg => hn.type_old hw hg, hn.blank, ?_, fun g n x hg hgdir hok hlook => ?_⟩
  · exact (hw.whole.isFile_entry hd1 hdir1 he).1 ((hw.isFile_iff e).2 hold) hfree
  · refine (hsound.lookup_iff hd' hdir' hname).2 ⟨?_, hn.name⟩
    rwa [hn.entries d hd1 hdir1]
  · obtain ⟨hx, rfl⟩ := (h.lookup_iff hg hgdir hok).1 hlook
    have hg' := (hn.isFile_old hw g).2 (.inl hg)
    refine (hsound.lookup_iff hg' ((hn.type_old hw hg).trans hgdir) hok).2 ?_
    exact hn.entry_kept hw hfree hg hgdir hx hok.ne

end

/-! ## Paths -/

/-- All names of the path but the last lead to the directory `d`, which has no entry `name`. -/
def Missing (m : Mem) (path : List Nat) (d : Nat) (name : List Nat) : Prop :=
  ∃ init, components path = init ++ [name] ∧ (nameTree m).follow init root = some d ∧ m (fType d) = ftypeDir ∧
    name.length < maxnamelen ∧ lookup m d name = none

lemma missing_iff {m : Mem} {path : List Nat} {d : Nat} {name : List Nat} : Missing m path d name ↔
    ((nameTree m).resolve (components path) root none).r = -eNotFound ∧
      ((nameTree m).resolve (components path) root none).pdir = some d ∧
      ((nameTree m).resolve (components path) root none).lastelem = name := by
  rw [NameTree.resolve_missing]
  unfold Missing
  simp only [isDir_true, nameTree_look]

section
variable {m : Mem} (h : Allocated m) {path : List Nat} (hch : Chars path)
include h hch

lemma Allocated.openResult_iff :
    openResult path m = .ok (.ok f) ↔ (nameTree m).follow (components path) root = some f := by
  have hpf := NameTree.resolve_pf (t := nameTree m) (components path) root none
  unfold openResult fileOpen
  rw [h.walkPath_eq hch, ok_bind]
  dsimp only
  rw [hpf]
  cases (nameTree m).follow (components path) root with
  | none => exact ⟨fun heq => (nomatch heq), fun heq => (nomatch heq)⟩
  | some g =>
    constructor
    · intro heq
      cases heq
      rfl
    · intro heq
      cases heq
      rfl

lemma Allocated.fileCreate_exists (hfollow : (nameTree m).follow (components path) root = some f) :
    fileCreate path m = .ok (.error (-eFileExists), m) := by
  obtain ⟨hr, -⟩ := ((NameTree.resolve_found (t := nameTree m) (components path) root none).1 f).2 hfollow
  unfold fileCreate
  rw [h.walkPath_eq hch, ok_bind]
  dsimp only
  rw [if_pos hr]
  rfl

lemma Allocated.fileCreate_missing {m1 : Mem} (hmiss : Missing m path d name)
    (halloc : dirAllocFile d m = .ok (.ok e, m1)) (hflush : fileFlush d (setName m1 e name) = .ok ()) :
    fileCreate path m = .ok (.ok e, setName m1 e name) := by
  obtain ⟨hr, hpdir, hlast⟩ := missing_iff.1 hmiss
  unfold fileCreate
  rw [h.walkPath_eq hch, ok_bind]
  dsimp only
  rw [hr, if_neg (by decide), hpdir]
  dsimp only
  rw [if_neg (fun hne => hne rfl), halloc, ok_bind, hlast]
  dsimp only
  rw [hflush, ok_bind]
  rfl

lemma Allocated.fileCreate_refused (hfollow : (nameTree m).follow (components path) root = none)
    (hmiss : ∀ d name, ¬ Missing m path d name) : ∃ r, r ≠ -eFileExists ∧ fileCreate path m = .ok (.error r, m) := by
  have hpf := NameTree.resolve_pf (t := nameTree m) (components path) root none
  unfold fileCreate
  rw [h.walkPath_eq hch, ok_bind]
  rcases NameTree.resolve_r (t := nameTree m) (components path) root none with hsome | ⟨hr, hpdir⟩ | hr
  · rw [hpf, hfollow] at hsome
    cases hsome
  · refine ⟨-eBadPath, by decide, ?_⟩
    dsimp only
    rw [hr, if_neg (by decide), hpdir]
    rfl
  · refine ⟨-eNotFound, by decide, ?_⟩
    dsimp only
    rw [hr, if_neg (by decide)]
    cases hpdir : ((nameTree m).resolve (components path) root none).pdir with
    | none => rfl
    | some d => exact absurd (missing_iff.2 ⟨hr, hpdir, rfl⟩) (hmiss d _)

end

/-! ## What `file_create` does -/

def namedEntries (m : Mem) : Set Nat := {e | IsFile m e ∧ e ≠ root}

structure Creates (path : List Nat) (m m' : Mem) (e : Nat) : Prop where
  opens : openResult path m' = .ok (.ok e)
  regular : m' (fType e) = ftypeReg
  empty : size m' e = 0
  blocks : ∀ i, i < ndirect + nindirect → blockAt m' e i = 0
  indirect : m' (fIndirect e) = 0
  kept : ∀ path', Chars path' → ∀ f, openResult path' m = .ok (.ok f) → openResult path' m' = .ok (.ok f)
  count : (namedEntries m').ncard = (namedEntries m).ncard + 1

def CreateRight (path : List Nat) (m : Mem) : Prop := ∃ r m', fileCreate path m = .ok (r, m') ∧
  (r = .error (-eFileExists) ↔ ∃ f, openResult path m = .ok (.ok f)) ∧ ∀ e, r = .ok e → Creates path m m' e

/-- `file_create` does not run out of disk blocks: there are as many free ones as the directory needs for its next block. -/
def EnoughBlocks (path : List Nat) (m : Mem) : Prop := ∀ d name, Missing m path d name → (∀ e ∈ entries m d, entryName m e ≠ []) →
  nblocks (size m d) < ndirect + nindirect → needed m d (nblocks (size m d)) (nblocks (size m d) + 1) ≤ freeCount m

/-- The directory of the new name has all the blocks it can have, with a name in every entry. -/
def Crowded (path : List Nat) (m : Mem) : Prop := ∃ d name, Missing m path d name ∧ (∀ e ∈ entries m d, entryName m e ≠ []) ∧
  nblocks (size m d) = ndirect + nindirect

lemma Owned.finite_files (h : Owned m) : {f | IsFile m f}.Finite := by
  refine (Set.finite_lt_nat (1024 * (sNblocks m + 2))).subset fun f hf => ?_
  rw [Set.mem_ofPred_eq]
  rcases h.file_block hf with hone | ⟨-, hlt, -⟩ <;> omega

section
variable {m : Mem} (h : Whole m)
include h

lemma Whole.isFile_lookup (hd : IsFile m d) (hdir : m (fType d) = ftypeDir) (hname : NameOk name)
    (hlook : Fs.lookup m d name = some f) : IsFile m f := by
  obtain ⟨hf, rfl⟩ := lookup_some hname hlook
  exact (h.isFile_entry hd hdir hf).2 hname.ne

lemma Whole.follow_kept (htype : ∀ g, IsFile m g → m' (fType g) = m (fType g))
    (hkept : ∀ g n x, IsFile m g → m (fType g) = ftypeDir → NameOk n → Fs.lookup m g n = some x → Fs.lookup m' g n = some x)
    {names : List (List Nat)} (hnames : ∀ n ∈ names, n ≠ [] ∧ Chars n)
    (hfollow : (nameTree m).follow names root = some f) : IsFile m f ∧ (nameTree m').follow names root = some f := by
  refine NameTree.follow_mono (P := IsFile m) (fun d n g hd hn hshort hdir hlook => ?_) names hnames .root hfollow
  rw [isDir_true] at hdir
  rw [nameTree_look] at hlook
  have hok : NameOk n := ⟨hn.1, hn.2, hshort⟩
  rw [isDir_true, nameTree_look, htype d hd]
  exact ⟨h.isFile_lookup hd hdir hok hlook, hdir, hkept d n g hd hdir hok hlook⟩

variable {path : List Nat} (hch : Chars path) {d : Nat} {name : List Nat} (hmiss : Missing m path d name)
include hch

omit h in
lemma components_ok : ∀ n ∈ components path, n ≠ [] ∧ Chars n := fun _ hn =>
  ⟨ne_nil_of_mem_pieces _ hn, chars_components hch hn⟩

include hmiss

lemma Whole.missing_dir : IsFile m d ∧ m (fType d) = ftypeDir ∧ NameOk name ∧ Fs.lookup m d name = none := by
  obtain ⟨init, hcomp, hfollow, hdir, hshort, hlook⟩ := hmiss
  have hok := components_ok hch
  rw [hcomp] at hok
  have hlast := hok name (List.mem_append_right _ List.mem_cons_self)
  refine ⟨?_, hdir, ⟨hlast.1, hlast.2, hshort⟩, hlook⟩
  exact (h.follow_kept (fun _ _ => rfl) (fun _ _ _ _ _ _ hl => hl) (fun n hn => hok n (List.mem_append_left _ hn)) hfollow).1

lemma Whole.missing_room (henough : EnoughBlocks path m) (hroom : ¬ Crowded path m) :
    (∃ e ∈ entries m d, entryName m e = []) ∨ nblocks (size m d) < ndirect + nindirect ∧
      needed m d (nblocks (size m d)) (nblocks (size m d) + 1) ≤ freeCount m := by
  obtain ⟨hd, hdir, -, -⟩ := h.missing_dir hch hmiss
  by_cases hall : ∀ e ∈ entries m d, entryName m e ≠ []
  · have hlt : nblocks (size m d) < ndirect + nindirect :=
      lt_of_le_of_ne (h.nblock hd hdir).2.1 fun heq => hroom ⟨d, name, hmiss, hall, heq⟩
    exact .inr ⟨hlt, henough d name hmiss hall hlt⟩
  · push Not at hall
    exact .inl hall

end

section
variable {m : Mem} (h : Sound m) {path : List Nat} (hch : Chars path) {d : Nat} {name : List Nat} (hmiss : Missing m path d name)
include h hch hmiss

lemma Adds.creates (ha : Adds m m' d e name) : Creates path m m' e := by
  have hroot : e ≠ root := fun heq => ha.fresh (heq ▸ .root)
  have hzero : ∀ k, 32 ≤ k → k < 45 → m' (e + k) = 0 := ha.blank
  have hfollow : ∀ names f, (∀ n ∈ names, n ≠ [] ∧ Chars n) → (nameTree m).follow names root = some f →
      IsFile m f ∧ (nameTree m').follow names root = some f := fun names f hnames =>
    h.follow_kept ha.type ha.kept hnames
  refine ⟨(ha.sound.toWhole.allocated.openResult_iff hch).2 ?_, hzero 33 (by decide) (by decide), ?_, fun i hi => ?_,
    hzero 44 (by decide) (by decide), fun path' hch' f hopen => ?_, ?_⟩
  · obtain ⟨hd, hdir, hok, -⟩ := h.missing_dir hch hmiss
    obtain ⟨init, hcomp, hinit, -, hshort, -⟩ := hmiss
    have hnames := components_ok hch
    rw [hcomp] at hnames ⊢
    rw [NameTree.follow_append, (hfollow init d (fun n hn => hnames n (List.mem_append_left _ hn)) hinit).2, Option.bind_some,
      NameTree.follow, nameTree_look, ha.added, if_neg]
    · rfl
    · rw [isDir_false, ha.type d hd]
      exact not_or.2 ⟨Nat.not_le.2 hshort, fun hne => hne hdir⟩
  · unfold size
    rw [show fSize e = e + 32 from rfl, hzero 32 (by decide) (by decide)]
    decide
  · by_cases hi10 : i < ndirect
    · rw [blockAt_direct hi10]
      unfold ndirect at hi10
      exact (congrArg m' (add_assoc e 34 i)).trans (hzero (34 + i) (by omega) (by omega))
    · exact blockAt_none (Nat.le_of_not_lt hi10) (hzero 44 (by decide) (by decide))
  · refine (ha.sound.toWhole.allocated.openResult_iff hch').2 ?_
    exact (hfollow _ f (components_ok hch') ((h.toWhole.allocated.openResult_iff hch').1 hopen)).2
  · have hinsert : namedEntries m' = insert e (namedEntries m) := by
      ext g
      unfold namedEntries
      rw [Set.mem_insert_iff, Set.mem_ofPred_eq, Set.mem_ofPred_eq, ha.isFile_iff]
      constructor
      · rintro ⟨hg | rfl, hne⟩
        · exact .inr ⟨hg, hne⟩
        · exact .inl rfl
      · rintro (rfl | ⟨hg, hne⟩)
        · exact ⟨.inr rfl, hroot⟩
        · exact ⟨.inl hg, hne⟩
    rw [hinsert, Set.ncard_insert_of_notMem (fun he => ha.fresh he.1) (h.finite_files.subset fun g hg => hg.1)]

lemma Sound.fileCreate_adds (henough : EnoughBlocks path m) (hroom : ¬ Crowded path m) :
    ∃ e m', fileCreate path m = .ok (.ok e, m') ∧ Adds m m' d e name := by
  obtain ⟨hd, hdir, hname, hnew⟩ := h.missing_dir hch hmiss
  obtain ⟨e, m1, halloc, hw, he, hunnamed⟩ := h.dirAllocFile_ok hd hdir h.unused (h.missing_room hch hmiss henough hroom)
  have hn := hw.whole.named hw.unused ((hw.isFile_iff d).2 hd) ((hw.type d hd).trans hdir) he hunnamed hname
  have ha := hn.adds h hw hd hdir he hunnamed hname hnew
  refine ⟨e, setName m1 e name, h.toWhole.allocated.fileCreate_missing hch hmiss halloc ?_, ha⟩
  exact fileFlush_ok ha.sound.toOwned ((ha.isFile_iff d).2 (.inl hd))

lemma Sound.fileCreate_crowded (hnames : ∀ e ∈ entries m d, entryName m e ≠ []) (hlast : nblocks (size m d) = ndirect + nindirect) :
    ∃ m', fileCreate path m = .ok (.ok (1024 * blockAt m d 1033), m') ∧ m' = setName (enlarged m d) (1024 * blockAt m d 1033) name ∧
      IsFile m (1024 * blockAt m d 1033) ∧ namedEntries m' = namedEntries m := by
  obtain ⟨hd, hdir, hname, -⟩ := h.missing_dir hch hmiss
  have hi : 1033 < nblocks (size m d) := by
    rw [hlast]
    decide
  have href : Refers m (.block d 1033) (blockAt m d 1033) := ⟨hd, by decide, rfl, h.dirBlocks d 1033 hd hdir hi⟩
  have he : 1024 * blockAt m d 1033 + 64 * 0 ∈ entries m d := mem_entries.2 ⟨1033, 0, hi, by decide, rfl⟩
  have hfile := (h.toWhole.isFile_entry hd hdir he).2 (hnames _ he)
  have hsame := sameTree_resize h.toOwned hd (toU32 (size m d + blksize))
  have ho := owned_resize h.toOwned hd (toU32 (size m d + blksize))
  have hused : nameEmpty (enlarged m d) (1024 * blockAt m d 1033 + 64 * 0) = false := by
    rw [enlarged, hsame.names d 1033 _ 0 href hdir (by decide), ← Bool.not_eq_true, nameEmpty_iff]
    exact hnames _ he
  have hdir' : enlarged m d (fType d) = ftypeDir := (hsame.type d hd).trans hdir
  have hset := isFile_setName ho (hsame.refers_iff.2 href) (show 0 < blkfiles by decide) hname hdir'
    (fun hempty => (nomatch hused.symm.trans hempty))
  have howned := owned_setName ho (hsame.refers_iff.2 href) (show 0 < blkfiles by decide) hname hdir'
    (fun hempty => (nomatch hused.symm.trans hempty))
  rw [mul_zero, add_zero] at hfile hset howned
  refine ⟨_, h.toWhole.allocated.fileCreate_missing hch hmiss (h.dirAllocFile_full hd hdir hnames hlast) ?_, rfl, hfile, ?_⟩
  · exact fileFlush_ok howned ((hset d).2 (.inl ((hsame.isFile_iff d).2 hd)))
  · ext g
    unfold namedEntries
    rw [Set.mem_ofPred_eq, Set.mem_ofPred_eq]
    refine and_congr_left fun _ => (hset g).trans ?_
    rw [show IsFile (Function.update m (fSize d) (toU32 (size m d + blksize))) g ↔ IsFile m g from hsame.isFile_iff g]
    exact or_iff_left_of_imp fun heq => heq ▸ hfile

omit hmiss in
lemma Sound.fileCreate_cases (henough : EnoughBlocks path m) (hroom : ¬ Crowded path m) :
    (∃ f, openResult path m = .ok (.ok f) ∧ fileCreate path m = .ok (.error (-eFileExists), m)) ∨
    (¬ ∃ f, openResult path m = .ok (.ok f)) ∧
      ((∃ d name e m', Missing m path d name ∧ fileCreate path m = .ok (.ok e, m') ∧ Adds m m' d e name) ∨
        ∃ r, r ≠ -eFileExists ∧ fileCreate path m = .ok (.error r, m)) := by
  have hopen := fun f => h.toWhole.allocated.openResult_iff hch (f := f)
  cases hfollow : (nameTree m).follow (components path) root with
  | some f => exact .inl ⟨f, (hopen f).2 hfollow, h.toWhole.allocated.fileCreate_exists hch hfollow⟩
  | none =>
    refine .inr ⟨fun ⟨f, hf⟩ => (nomatch hfollow.symm.trans ((hopen f).1 hf)), ?_⟩
    by_cases hmiss : ∃ d name, Missing m path d name
    · obtain ⟨d, name, hmiss⟩ := hmiss
      obtain ⟨e, m', hrun, ha⟩ := h.fileCreate_adds hch hmiss henough hroom
      exact .inl ⟨d, name, e, m', hmiss, hrun, ha⟩
    · push Not at hmiss
      exact .inr (h.toWhole.allocated.fileCreate_refused hch hfollow hmiss)

omit hmiss in
lemma Sound.createRight_iff (henough : EnoughBlocks path m) : CreateRight path m ↔ ¬ Crowded path m := by
  constructor
  · rintro ⟨r, m', hrun, -, hright⟩ ⟨d, name, hmiss, hnames, hlast⟩
    obtain ⟨m'', hrun', -, -, hsame⟩ := h.fileCreate_crowded hch hmiss hnames hlast
    cases hrun.symm.trans hrun'
    have hcount := (hright _ rfl).count
    rw [hsame] at hcount
    omega
  · intro hroom
    rcases h.fileCreate_cases hch henough hroom with ⟨f, hopen, hrun⟩ |
      ⟨hclosed, ⟨d, name, e, m', hmiss, hrun, ha⟩ | ⟨r, hr, hrun⟩⟩
    · exact ⟨_, m, hrun, iff_of_true rfl ⟨f, hopen⟩, fun e he => (nomatch he)⟩
    · refine ⟨_, m', hrun, iff_of_false (fun heq => (nomatch heq)) hclosed, fun e' he' => ?_⟩
      cases he'
      exact ha.creates h hch hmiss
    · refine ⟨_, m, hrun, iff_of_false (fun heq => hr ?_) hclosed, fun e he => (nomatch he)⟩
      injection heq

omit hmiss in
lemma Sound.fileCreate_sound (henough : EnoughBlocks path m) (hroom : ¬ Crowded path m) {r : Except Int Nat}
    (hrun : fileCreate path m = .ok (r, m')) : Sound m' := by
  rcases h.fileCreate_cases hch henough hroom with ⟨f, -, hrun'⟩ | ⟨-, ⟨d, name, e, m'', -, hrun', ha⟩ | ⟨r', -, hrun'⟩⟩ <;>
    cases hrun.symm.trans hrun'
  · exact h
  · exact ha.sound
  · exact h

end

/-- One call of `file_create` that has the disk blocks it needs, in a directory that is not crowded. -/
def CreateStep (m m' : Mem) : Prop :=
  ∃ path r, Chars path ∧ EnoughBlocks path m ∧ ¬ Crowded path m ∧ fileCreate path m = .ok (r, m')

lemma CreateStep.run_sound (h : Sound m) (hrun : ReflTransGen CreateStep m m') : Sound m' := by
  induction hrun with
  | refl => exact h
  | tail _ hstep ih =>
    obtain ⟨path, r, hch, henough, hroom, hcall⟩ := hstep
    exact ih.fileCreate_sound hch henough hroom hcall

theorem fileCreate_functional_iff {m0 m : Mem} (h : Sound m0) (hrun : ReflTransGen CreateStep m0 m) :
    DistinctNames m ∧ ∀ path, Chars path → EnoughBlocks path m → (CreateRight path m ↔ ¬ Crowded path m) := by
  have hsound := CreateStep.run_sound h hrun
  exact ⟨hsound.unique, fun path hch henough => hsound.createRight_iff hch henough⟩

lemma smallDisk_sound : Sound smallDisk := by
  have hblocks : ∀ i < nblocks (size smallDisk root), blockAt smallDisk root i ≠ 0 := by decide
  have hnames : ∀ e ∈ entries smallDisk root, ∀ e' ∈ entries smallDisk root, entryName smallDisk e ≠ [] →
      entryName smallDisk e' = entryName smallDisk e → e' = e := by decide +kernel
  refine ⟨⟨smallDisk_checked.consistent, smallDisk_good.sizes, fun d i hd hdir hi => ?_⟩, smallDisk_good.unused,
    fun d hd hdir => ?_⟩
  · obtain rfl := smallDisk_checked.eq_root hd hdir
    exact hblocks i hi
  · obtain rfl := smallDisk_checked.eq_root hd hdir
    exact hnames

lemma smallDisk_enoughBlocks {path : List Nat} (hch : Chars path) : EnoughBlocks path smallDisk ∧ ¬ Crowded path smallDisk := by
  have hfree : ∀ d name, Missing smallDisk path d name → ¬ ∀ e ∈ entries smallDisk d, entryName smallDisk e ≠ [] := by
    intro d name hmiss hall
    obtain ⟨hd, hdir, -, -⟩ := smallDisk_sound.missing_dir hch hmiss
    cases smallDisk_checked.eq_root hd hdir
    exact hall 3136 (mem_entries.2 ⟨0, 1, by decide, by decide, by decide⟩) (nameEmpty_iff.1 (by decide))
  exact ⟨fun d name hmiss hall => absurd hall (hfree d name hmiss), fun ⟨d, name, hmiss, hall, _⟩ => hfree d name hmiss hall⟩

theorem fileCreate_functional_small : CreateRight [98] smallDisk ∧ ∃ r m', fileCreate [98] smallDisk = .ok (r, m') ∧ DistinctNames m' := by
  have hch : Chars [98] := chars_singleton (by decide) (by decide)
  obtain ⟨henough, hroom⟩ := smallDisk_enoughBlocks hch
  have hright := ((fileCreate_functional_iff smallDisk_sound .refl).2 [98] hch henough).2 hroom
  obtain ⟨r, m', hrun, -, -⟩ := id hright
  exact ⟨hright, r, m', hrun, (fileCreate_functional_iff smallDisk_sound (.single ⟨[98], r, hch, henough, hroom, hrun⟩)).1⟩

/-- A disk of 1039 blocks: the root has all the 1034 blocks that a file can have, block 13 is its indirect block, and
every entry has a name of two letters. Block 1038 is free. -/
def crowdedDisk : Mem := fun w =>
  if w = 1025 then 1039
  else if w = 1058 then 4235264
  else if w = 1059 then ftypeDir
  else if 1060 ≤ w ∧ w < 1070 then w - 1057
  else if w = 1070 then 13
  else if w = 2080 then 16384
  else if 13312 ≤ w ∧ w < 14336 then w - 13298
  else if 3072 ≤ w ∧ w < 1062912 ∧ w % 64 = 0 then 48 + w / 64 % 128 + 256 * (48 + w / 64 / 128)
  else 0

def crowdedBlock (i : Nat) : Nat := if i < 10 then 3 + i else 4 + i

section

lemma crowdedBlock_range (hi : i < 1034) : 3 ≤ crowdedBlock i ∧ crowdedBlock i < 1038 ∧ crowdedBlock i ≠ 13 := by
  unfold crowdedBlock
  split <;> omega

lemma crowdedBlock_inj {i' : Nat} (h : crowdedBlock i = crowdedBlock i') : i = i' := by
  unfold crowdedBlock at h
  split at h <;> split at h <;> omega

lemma crowdedDisk_blockAt (hi : i < 1034) : blockAt crowdedDisk root i = crowdedBlock i := by
  unfold crowdedBlock
  by_cases hi10 : i < 10
  · rw [if_pos hi10, blockAt_direct hi10]
    unfold crowdedDisk fDirect root
    repeat rw [if_neg (by omega)]
    rw [if_pos (by omega)]
    omega
  · rw [if_neg hi10, blockAt_indirect (Nat.le_of_not_lt hi10) (by decide)]
    rw [show crowdedDisk (fIndirect root) = 13 from rfl]
    unfold crowdedDisk ndirect
    repeat rw [if_neg (by omega)]
    rw [if_pos (by omega)]
    omega

section
variable {i j : Nat} (hi : i < 1034) (hj : j < 16)
include hi hj

lemma crowdedDisk_field {k : Nat} (hk0 : 0 < k) (hk : k < 64) : crowdedDisk (1024 * crowdedBlock i + 64 * j + k) = 0 := by
  obtain ⟨h3, hlt, h13⟩ := crowdedBlock_range hi
  unfold crowdedDisk
  repeat rw [if_neg (by omega)]

lemma crowdedDisk_name : crowdedDisk (1024 * crowdedBlock i + 64 * j) =
    48 + (16 * crowdedBlock i + j) % 128 + 256 * (48 + (16 * crowdedBlock i + j) / 128) := by
  obtain ⟨h3, hlt, h13⟩ := crowdedBlock_range hi
  unfold crowdedDisk
  repeat rw [if_neg (by omega)]
  rw [if_pos (by omega), show (1024 * crowdedBlock i + 64 * j) / 64 = 16 * crowdedBlock i + j by omega]

lemma crowdedDisk_entryName : entryName crowdedDisk (1024 * crowdedBlock i + 64 * j) =
    [48 + (16 * crowdedBlock i + j) % 128, 48 + (16 * crowdedBlock i + j) / 128] := by
  obtain ⟨h3, hlt, -⟩ := crowdedBlock_range hi
  have hword := crowdedDisk_name hi hj
  generalize hidx : 16 * crowdedBlock i + j = idx at hword
  generalize 1024 * crowdedBlock i + 64 * j = e at hword
  have hbound : idx / 128 < 130 := by omega
  refine (nameIs_iff_entryName ?_ ?_).1 ?_
  rotate_left 2
  · unfold nameIs bytesAt getByte
    have hplace : ∀ n, n < 4 → (4 * e + n) / 4 = e ∧ (4 * e + n) % 4 = n := by
      intro n hn
      omega
    simp only [List.length_cons, List.length_nil, zero_add, Nat.reduceAdd, List.range_succ, List.range_zero, List.nil_append,
      List.cons_append, List.map_cons, List.map_nil, beq_iff_eq]
    rw [(hplace 0 (by decide)).1, (hplace 0 (by decide)).2, (hplace 1 (by decide)).1, (hplace 1 (by decide)).2,
      (hplace 2 (by decide)).1, (hplace 2 (by decide)).2, hword]
    unfold byteOf
    simp only [List.cons.injEq, and_true]
    omega
  · intro c hc
    rcases List.mem_cons.1 hc with rfl | hc
    · omega
    · rw [List.mem_singleton.1 hc]
      omega
  · exact lt_of_lt_of_le (show 2 < 128 by decide) le_rfl

end

lemma crowdedDisk_isFile (h : IsFile crowdedDisk f) :
    f = root ∨ ∃ i j, i < 1034 ∧ j < 16 ∧ f = 1024 * crowdedBlock i + 64 * j := by
  have hregular : ∀ i j, i < ndirect + nindirect → j < blkfiles → blockAt crowdedDisk root i ≠ 0 →
      crowdedDisk (fType (1024 * blockAt crowdedDisk root i + 64 * j)) ≠ ftypeDir := by
    intro i j hi hj _
    rw [crowdedDisk_blockAt hi, fType, crowdedDisk_field hi hj (by decide) (by decide)]
    decide
  rcases IsFile.flat hregular h with rfl | ⟨i, j, hi, hj, -, -, rfl⟩
  · exact .inl rfl
  · refine .inr ⟨i, j, hi, hj, ?_⟩
    rw [crowdedDisk_blockAt hi]

lemma crowdedDisk_refers {t : Slot} {b : Nat} : Refers crowdedDisk t b ↔
    (∃ i, i < 1034 ∧ t = .block root i ∧ b = crowdedBlock i) ∨ t = .indirect root ∧ b = 13 := by
  constructor
  · intro h
    cases t with
    | block f k =>
      obtain ⟨hf, hk, hb, h0⟩ := h
      rcases crowdedDisk_isFile hf with rfl | ⟨i, j, hi, hj, rfl⟩
      · exact .inl ⟨k, hk, rfl, hb.symm.trans (crowdedDisk_blockAt hk)⟩
      · refine absurd (hb.symm.trans ?_) h0
        by_cases hk10 : k < ndirect
        · rw [blockAt_direct hk10, fDirect, add_assoc]
          unfold ndirect at hk10
          exact crowdedDisk_field hi hj (by omega) (by omega)
        · exact blockAt_none (Nat.le_of_not_lt hk10) (crowdedDisk_field hi hj (by decide) (by decide))
    | indirect f =>
      obtain ⟨hf, hb, h0⟩ := h
      rcases crowdedDisk_isFile hf with rfl | ⟨i, j, hi, hj, rfl⟩
      · exact .inr ⟨rfl, hb.symm⟩
      · exact absurd (hb.symm.trans (crowdedDisk_field hi hj (by decide) (by decide))) h0
  · rintro (⟨i, hi, rfl, rfl⟩ | ⟨rfl, rfl⟩)
    · have hrange := crowdedBlock_range hi
      exact ⟨.root, hi, crowdedDisk_blockAt hi, by omega⟩
    · exact ⟨.root, rfl, by decide⟩

lemma crowdedDisk_free (b : Nat) : blockIsFree crowdedDisk b ↔ b = 1038 := by
  rw [blockIsFree_iff, show sNblocks crowdedDisk = 1039 from rfl]
  constructor
  · rintro ⟨hb, hbit⟩
    have hword : crowdedDisk (bitmapWord b) = if b / 32 = 32 then 16384 else 0 := by
      unfold crowdedDisk bitmapWord
      repeat rw [if_neg (by omega)]
      split
      · rw [if_pos (by omega)]
      · rw [if_neg (by omega)]
        repeat rw [if_neg (by omega)]
    rw [hword] at hbit
    split at hbit
    · rw [show 16384 = 2 ^ 14 from rfl, Nat.testBit_two_pow] at hbit
      have h14 := of_decide_eq_true hbit
      omega
    · simp at hbit
  · rintro rfl
    decide

lemma crowdedDisk_nblocks : nblocks (size crowdedDisk root) = 1034 := by decide

lemma crowdedDisk_agrees : Agrees crowdedDisk := by
  have hres : reservedEnd crowdedDisk = 3 := by
    unfold reservedEnd
    rw [show sNblocks crowdedDisk = 1039 from rfl]
    decide
  have hn : sNblocks crowdedDisk = 1039 := rfl
  refine ⟨⟨⟨fun s t b hs ht => ?_, fun s b hs hb => ?_⟩, fun s b hs => ?_, fun b hb => ?_⟩, fun b hb => ?_, fun f i hf hi hle => ?_⟩
  · rcases crowdedDisk_refers.1 hs with ⟨i, hi, rfl, rfl⟩ | ⟨rfl, rfl⟩ <;>
      rcases crowdedDisk_refers.1 ht with ⟨i', hi', rfl, hb⟩ | ⟨rfl, hb⟩
    · rw [crowdedBlock_inj hb]
    · exact absurd hb (crowdedBlock_range hi).2.2
    · exact absurd hb.symm (crowdedBlock_range hi').2.2
    · rfl
  · have heq := (crowdedDisk_free b).1 hb
    rcases crowdedDisk_refers.1 hs with ⟨i, hi, -, hb⟩ | ⟨-, hb⟩
    · have hrange := crowdedBlock_range hi
      omega
    · omega
  · rw [hres, hn]
    rcases crowdedDisk_refers.1 hs with ⟨i, hi, -, rfl⟩ | ⟨-, rfl⟩
    · have hrange := crowdedBlock_range hi
      omega
    · omega
  · rw [hres] at hb
    rw [← Bool.not_eq_true, crowdedDisk_free]
    omega
  · rw [hres, hn] at hb
    by_cases hlast : b = 1038
    · exact .inl ((crowdedDisk_free b).2 hlast)
    · refine .inr ?_
      by_cases h13 : b = 13
      · exact ⟨.indirect root, crowdedDisk_refers.2 (.inr ⟨rfl, h13⟩)⟩
      · refine ⟨.block root (if b < 13 then b - 3 else b - 4), crowdedDisk_refers.2 (.inl ⟨_, ?_, rfl, ?_⟩)⟩
        · split <;> omega
        · unfold crowdedBlock
          split <;> split <;> omega
  · by_contra h0
    rcases crowdedDisk_refers.1 (show Refers crowdedDisk (.block f i) _ from ⟨hf, hi, rfl, h0⟩) with ⟨k, hk, ht, -⟩ | ⟨ht, -⟩
    · injection ht with hroot hik
      rw [hroot, crowdedDisk_nblocks] at hle
      omega
    · cases ht

lemma crowdedDisk_dir (hd : IsFile crowdedDisk d) (hdir : crowdedDisk (fType d) = ftypeDir) : d = root := by
  rcases crowdedDisk_isFile hd with rfl | ⟨i, j, hi, hj, rfl⟩
  · rfl
  · rw [fType, crowdedDisk_field hi hj (by decide) (by decide)] at hdir
    exact absurd hdir (by decide)

lemma crowdedDisk_entries : e ∈ entries crowdedDisk root ↔ ∃ i j, i < 1034 ∧ j < 16 ∧ e = 1024 * crowdedBlock i + 64 * j := by
  rw [mem_entries, crowdedDisk_nblocks]
  constructor
  · rintro ⟨i, j, hi, hj, rfl⟩
    exact ⟨i, j, hi, hj, by rw [crowdedDisk_blockAt hi]⟩
  · rintro ⟨i, j, hi, hj, rfl⟩
    exact ⟨i, j, hi, hj, by rw [crowdedDisk_blockAt hi]⟩

lemma crowdedDisk_named (he : e ∈ entries crowdedDisk root) : (entryName crowdedDisk e).length = 2 := by
  obtain ⟨i, j, hi, hj, rfl⟩ := crowdedDisk_entries.1 he
  rw [crowdedDisk_entryName hi hj]
  rfl

lemma crowdedDisk_sound : Sound crowdedDisk := by
  have hsize : size crowdedDisk root = 4235264 := rfl
  have hzero : ∀ i j, i < 1034 → j < 16 → size crowdedDisk (1024 * crowdedBlock i + 64 * j) = 0 := by
    intro i j hi hj
    unfold size
    rw [fSize, crowdedDisk_field hi hj (by decide) (by decide)]
    decide
  have hwhole : Whole crowdedDisk := by
    refine { toAgrees := crowdedDisk_agrees, sizes := fun f hf => ?_, dirSizes := fun d hd hdir => ?_,
             dirBlocks := fun d i hd hdir hi => ?_ }
    · rcases crowdedDisk_isFile hf with rfl | ⟨i, j, hi, hj, rfl⟩
      · rw [hsize, maxfilesize_eq]
        decide
      · rw [hzero i j hi hj, maxfilesize_eq]
        decide
    · cases crowdedDisk_dir hd hdir
      rw [hsize]
      exact ⟨by decide, by decide⟩
    · cases crowdedDisk_dir hd hdir
      rw [crowdedDisk_nblocks] at hi
      have hrange := crowdedBlock_range hi
      rw [crowdedDisk_blockAt hi]
      omega
  refine ⟨hwhole, fun d i c j href hdir hj hempty => ?_, fun d hd hdir e he e' he' _ hsame => ?_⟩
  · -- no entry is unused
    cases crowdedDisk_dir href.1 hdir
    obtain ⟨-, hi, hc, -⟩ := href
    rw [crowdedDisk_blockAt hi] at hc
    have hlength := crowdedDisk_named (crowdedDisk_entries.2 ⟨i, j, hi, hj, rfl⟩)
    rw [hc, nameEmpty_iff.1 hempty] at hlength
    cases hlength
  · cases crowdedDisk_dir hd hdir
    obtain ⟨i, j, hi, hj, rfl⟩ := crowdedDisk_entries.1 he
    obtain ⟨i', j', hi', hj', rfl⟩ := crowdedDisk_entries.1 he'
    rw [crowdedDisk_entryName hi hj, crowdedDisk_entryName hi' hj'] at hsame
    simp only [List.cons.injEq, and_true] at hsame
    omega

end

lemma crowdedDisk_last : openResult [128, 177] crowdedDisk = .ok (.ok 1061888) := by
  have hch : Chars [128, 177] := by
    unfold Chars
    decide
  have hname : NameOk [128, 177] := ⟨by decide, hch, by decide⟩
  have hentry : 1061888 ∈ entries crowdedDisk root := crowdedDisk_entries.2 ⟨1033, 0, by decide, by decide, by decide⟩
  have hlook : lookup crowdedDisk root [128, 177] = some 1061888 :=
    (crowdedDisk_sound.lookup_iff .root rfl hname).2 ⟨hentry, crowdedDisk_entryName (i := 1033) (j := 0) (by decide) (by decide)⟩
  refine (crowdedDisk_sound.toWhole.allocated.openResult_iff hch).2 ?_
  rw [show components [128, 177] = [[128, 177]] from rfl, NameTree.follow, nameTree_look, hlook, if_neg]
  · rfl
  · rw [isDir_false]
    exact not_or.2 ⟨by decide, fun hne => hne rfl⟩

theorem fileCreate_renames : Sound crowdedDisk ∧ Chars [255] ∧ EnoughBlocks [255] crowdedDisk ∧ Crowded [255] crowdedDisk ∧
    openResult [128, 177] crowdedDisk = .ok (.ok 1061888) ∧
    (∃ m', fileCreate [255] crowdedDisk = .ok (.ok 1061888, m') ∧ entryName m' 1061888 = [255] ∧
      (namedEntries m').ncard = (namedEntries crowdedDisk).ncard) ∧
    ¬ CreateRight [255] crowdedDisk := by
  have hch : Chars [255] := chars_singleton (by decide) (by decide)
  have hshort : ([255] : List Nat).length < maxnamelen := by decide
  have hlook : lookup crowdedDisk root [255] = none := by
    unfold lookup
    refine List.find?_eq_none.2 fun e he hyes => ?_
    have hlength := crowdedDisk_named he
    rw [(nameIs_iff_entryName hch hshort).1 hyes] at hlength
    cases hlength
  have hmiss : Missing crowdedDisk [255] root [255] := ⟨[], rfl, rfl, rfl, hshort, hlook⟩
  have hnames : ∀ e ∈ entries crowdedDisk root, entryName crowdedDisk e ≠ [] := by
    intro e he hempty
    have hlength := crowdedDisk_named he
    rw [hempty] at hlength
    cases hlength
  have hcrowded : Crowded [255] crowdedDisk := ⟨root, [255], hmiss, hnames, crowdedDisk_nblocks⟩
  have henough : EnoughBlocks [255] crowdedDisk := by
    intro d name hmiss' _ hlt
    obtain ⟨hd, hdir, -⟩ := crowdedDisk_sound.missing_dir hch hmiss'
    cases crowdedDisk_dir hd hdir
    rw [crowdedDisk_nblocks] at hlt
    exact absurd hlt (by decide)
  have hblock : 1024 * blockAt crowdedDisk root 1033 = 1061888 := by
    rw [crowdedDisk_blockAt (by decide)]
    decide
  have hwrong : ¬ CreateRight [255] crowdedDisk := fun hright =>
    (crowdedDisk_sound.createRight_iff hch henough).1 hright hcrowded
  obtain ⟨m', hrun, rfl, -, hsame⟩ := crowdedDisk_sound.fileCreate_crowded hch hmiss hnames crowdedDisk_nblocks
  rw [hblock] at hrun hsame
  refine ⟨crowdedDisk_sound, hch, henough, hcrowded, crowdedDisk_last, ⟨_, hrun, ?_, ?_⟩, hwrong⟩
  · exact entryName_setName ⟨by decide, hch, hshort⟩
  · rw [hsame]

end Jos.Fs
