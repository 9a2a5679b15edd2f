import Jos.Fs.Confined
import Jos.Fs.DirSpec
import Mathlib.Data.List.TakeWhile

/-!
# The sizes of directories

`dir_lookup` and `dir_alloc_file` assert that the size of a directory is a
multiple of the block size. Nothing keeps a client from opening a directory and
setting its size. As long as clients set sizes of and write to regular files only,
and no directory reaches the largest size, the assertions hold in every run of the
server.
-/

namespace Jos.Fs
open WordMem CInt Ownership Bits Function
open Relation (ReflTransGen)

variable {f : Nat} {m m' : Mem} {s : Server}

def DirSizes (m : Mem) : Prop := ∀ d, IsFile m d → m (fType d) = ftypeDir → 0 ≤ size m d ∧ (blksize : Int) ∣ size m d

structure Good (m : Mem) : Prop where
  owned : Owned m
  sizes : DirSizes m
  unused : UnusedBlank 32 m

structure Kept (m m' : Mem) : Prop where
  good : Good m'
  isFile_iff : ∀ g, IsFile m' g ↔ IsFile m g
  type : ∀ g, IsFile m g → m' (fType g) = m (fType g)

lemma Kept.trans {m1 : Mem} (h : Kept m m1) (h' : Kept m1 m') : Kept m m' :=
  ⟨h'.good, fun g => (h'.isFile_iff g).trans (h.isFile_iff g),
    fun g hg => (h'.type g ((h.isFile_iff g).mpr hg)).trans (h.type g hg)⟩

lemma UnusedBlank.mono {lo hi : Nat} (h : UnusedBlank lo m) (hle : lo ≤ hi) : UnusedBlank hi m :=
  fun d i c j href hdir hj hempty k hk => h d i c j href hdir hj hempty k (le_trans hle hk)

lemma Good.not_badDir (h : Good m) : ¬ BadDir m := by
  rintro ⟨d, hd, hdir, hsize⟩
  exact hsize (Int.tmod_eq_zero_of_dvd (h.sizes d hd hdir).2)

lemma GrownFrom.kept (h : GrownFrom m m') (hg : Good m) : Kept m m' := by
  refine ⟨⟨h.owned, fun d hd hdir => ?_, h.unusedBlank 32 hg.unused⟩, h.isFile_iff, fun g hg => h.type_eq hg⟩
  have hd := (h.isFile_iff d).mp hd
  rw [h.type_eq hd] at hdir
  rw [h.size_eq hd]
  exact hg.sizes d hd hdir

lemma Created.dir {m m' : Mem} (h : Created m m') (hg : Good m) {d : Nat} (hd : IsFile m' d) (hdir : m' (fType d) = ftypeDir) :
    IsFile m d ∧ m (fType d) = ftypeDir ∧ (Fs.size m' d = Fs.size m d ∨ Fs.size m' d = toI32 (Fs.size m d + 4096)) := by
  rcases h.fresh 32 (Nat.le_refl 32) hg.unused d hd with hold | hblank
  · rw [h.type d hold] at hdir
    refine ⟨hold, hdir, ?_⟩
    rcases h.size d hold with hsize | ⟨-, hsize⟩
    · exact .inl (by rw [Fs.size, hsize]; rfl)
    · exact .inr (by rw [Fs.size, hsize, toI32_toU32])
  · rw [fType, hblank 33 (by decide) (by decide)] at hdir
    cases hdir

lemma Created.good (h : Created m m') (hg : Good m) (hfit : Fits m) : Good m' := by
  refine ⟨h.owned, fun d hd hdir => ?_, h.unusedBlank 32 hg.unused⟩
  obtain ⟨hold, hdir, hsize⟩ := h.dir hg hd hdir
  have hmul := hg.sizes d hold hdir
  have hroom := hfit d hold hdir
  rcases hsize with hsize | hsize
  · rwa [hsize]
  · rw [hsize, toI32_of_range (by omega) hroom.2]
    exact ⟨by omega, Int.dvd_add hmul.2 (by decide)⟩

lemma Created.not_badDir (h : Created m m') (hg : Good m) : ¬ BadDir m' := by
  rintro ⟨d, hd, hdir, hbad⟩
  refine hbad (Int.tmod_eq_zero_of_dvd ?_)
  obtain ⟨hold, hdir, hsize⟩ := h.dir hg hd hdir
  have hmul := (hg.sizes d hold hdir).2
  rcases hsize with hsize | hsize
  · rwa [hsize]
  · rw [hsize]
    have hmod := toI32_mod (Fs.size m d + 4096)
    rw [blksize_cast] at hmul ⊢
    omega

section
variable {f : Nat} {m m' : Mem}

lemma Owned.unnamed_ne {d i c j : Nat} (ho : Owned m) (hf : IsFile m f) (href : Refers m (.block d i) c)
    (hempty : nameEmpty m (1024 * c + 64 * j)) : 1024 * c + 64 * j ≠ f := by
  rintro rfl
  rcases hf.named with hroot | hname
  · have hr := (ho.range _ _ href).1
    have h2 := two_le_reservedEnd m
    unfold root at hroot
    omega
  · rw [hname] at hempty
    cases hempty

lemma DetachStep.regular (h : ReflTransGen (DetachStep f) m m') (ho : Owned m) (hf : IsFile m f)
    (hreg : m (fType f) ≠ ftypeDir) :
    (∀ g, IsFile m' g ↔ IsFile m g) ∧ ∀ lo, UnusedBlank lo m → UnusedBlank lo m' := by
  induction h with
  | refl => exact ⟨fun _ => Iff.rfl, fun _ hu => hu⟩
  | @tail m1 m2 hrun hstep ih =>
    have hshrunk := DetachStep.run hrun ho hf
    have hreg1 : m1 (fType f) ≠ ftypeDir := by
      rwa [fType, hshrunk.field f 33 hshrunk.isFile (by decide)]
    obtain ⟨s, b, rfl, href, hdet⟩ := hstep
    have hrew := hdet.rewrites hshrunk.owned href
    have hiff := hdet.isFile_iff hshrunk.owned href hreg1
    refine ⟨fun g => (hiff g).trans (ih.1 g), fun lo hu d i c j hd hdir hj hempty k hlo hk => ?_⟩
    have hd1 := (hdet.refers_of hshrunk.owned href hd).1
    rw [fType, hrew.field d 33 hd1.1 (by decide)] at hdir
    rw [hrew.nameEmpty hd1 hj] at hempty
    have hne := hshrunk.owned.unnamed_ne hshrunk.isFile hd1 hempty
    rw [hrew.entry d i c j k hd1 hj (by omega) (.inr hne)]
    exact ih.2 lo hu d i c j hd1 hdir hj hempty k hlo hk

lemma Resized.kept (h : Resized f m m') (hg : Good m) (hf : IsFile m f) (hreg : m (fType f) ≠ ftypeDir) : Kept m m' := by
  rcases h with rfl | ⟨m1, v, hrun, rfl⟩
  · exact ⟨hg, fun _ => Iff.rfl, fun _ _ => rfl⟩
  · have hshrunk := DetachStep.run hrun hg.owned hf
    obtain ⟨hiff, hunused⟩ := DetachStep.regular hrun hg.owned hf hreg
    have htree := sameTree_resize hshrunk.owned hshrunk.isFile v
    have htype : ∀ g, IsFile m g → update m1 (fSize f) v (fType g) = m (fType g) := fun g hg =>
      (htree.type g ((hiff g).mpr hg)).trans (hshrunk.field g 33 ((hiff g).mpr hg) (by decide))
    refine ⟨⟨owned_resize hshrunk.owned hshrunk.isFile v, fun d hd hdir => ?_,
      unusedBlank_resize hshrunk.owned hshrunk.isFile v (hunused 32 hg.unused)⟩,
      fun g => (htree.isFile_iff g).trans (hiff g), htype⟩
    have hd1 := (htree.isFile_iff d).mp hd
    rw [htype d ((hiff d).mp hd1)] at hdir
    have hne : d ≠ f := by
      rintro rfl
      exact hreg hdir
    have hword : update m1 (fSize f) v (fSize d) = m (fSize d) :=
      (resize_field hshrunk.owned hshrunk.isFile v hd1 (by decide) (.inl hne)).trans (hshrunk.field d 32 hd1 (by decide))
    have hsize : size (update m1 (fSize f) v) d = size m d := by rw [size, hword]; rfl
    rw [hsize]
    exact hg.sizes d ((hiff d).mp hd1) hdir

section
variable (h : SameButData f m m') (ho : Owned m) (hreg : m (fType f) ≠ ftypeDir)
include h ho hreg

lemma SameButData.tree :
    (∀ d i c w, Refers m (.block d i) c → m (fType d) = ftypeDir → w / 1024 = c → m' w = m w) ∧
      (∀ g k, IsFile m g → k < 64 → m' (g + k) = m (g + k)) ∧ SameTree m m' := by
  have hdir : ∀ d i c w, Refers m (.block d i) c → m (fType d) = ftypeDir → w / 1024 = c → m' w = m w := by
    rintro d i c w href hdir rfl
    refine h w ?_
    rintro ⟨i', hdata⟩
    cases ho.exclusive.unique _ _ _ href hdata
    exact hreg hdir
  have hfield : ∀ g k, IsFile m g → k < 64 → m' (g + k) = m (g + k) := by
    intro g k hg hk
    have hblk := hg.block hk
    rcases hg.parent with rfl | ⟨d, i, href, hd, -⟩
    · refine h _ ?_
      rintro ⟨i, hdata⟩
      have hr := (ho.range _ _ hdata).1
      have h2 := two_le_reservedEnd m
      rw [hblk] at hr
      unfold root at hr
      omega
    · exact hdir d i _ _ href hd hblk
  refine ⟨hdir, hfield, fun s hs => ?_, fun g hg => hfield g 33 hg (by decide), fun d i c j href hd hj => ?_⟩
  · obtain ⟨hfile, ⟨k, -, hk, hw, -⟩ | ⟨hind, hw, -⟩⟩ := Slot.word_cases hs
    · rw [hw]
      exact hfield _ k hfile (by omega)
    · refine h _ ?_
      rintro ⟨i, hdata⟩
      have href : Refers m (.indirect s.file) (s.word m / 1024) := ⟨hfile, hw.symm, by rwa [hw]⟩
      cases ho.exclusive.unique _ _ _ href hdata
  · unfold nameEmpty
    rw [getByte_congr]
    refine hdir d i c _ href hd ?_
    unfold blkfiles at hj
    omega

lemma SameButData.unusedBlank {lo : Nat} (hu : UnusedBlank lo m) : UnusedBlank lo m' := by
  intro d i c j href hd hj hempty k hlo hk
  obtain ⟨hdir, -, htree⟩ := h.tree ho hreg
  have href := htree.refers_iff.mp href
  rw [htree.type d href.1] at hd
  rw [htree.names d i c j href hd hj] at hempty
  rw [hdir d i c _ href hd (by unfold blkfiles at hj; omega)]
  exact hu d i c j href hd hj hempty k hlo hk

end

lemma SameButData.kept (h : SameButData f m m') (hg : Good m) (hreg : m (fType f) ≠ ftypeDir) : Kept m m' := by
  obtain ⟨-, hfield, htree⟩ := h.tree hg.owned hreg
  have hn : sNblocks m' = sNblocks m := h.meta hg.owned _ (.inl rfl)
  have hfree : ∀ b, blockIsFree m' b = blockIsFree m b := fun b =>
    blockIsFree_congr hn fun hb => h.meta hg.owned _ (.inr (.inl ⟨b, hb, rfl⟩))
  refine ⟨⟨htree.owned hn hfree hg.owned, fun d hd hdirty => ?_, h.unusedBlank hg.owned hreg hg.unused⟩, htree.isFile_iff,
    htree.type⟩
  have hd := (htree.isFile_iff d).mp hd
  have hsize : size m' d = size m d := by
    unfold size
    rw [show m' (fSize d) = m (fSize d) from hfield d 32 hd (by decide)]
  rw [htree.type d hd] at hdirty
  rw [hsize]
  exact hg.sizes d hd hdirty

end

def NoAssert (c : Crash) : Prop := ∀ text, c ≠ .assertion text

lemma IsPanic.noAssert {c : Crash} (h : IsPanic c) : NoAssert c := by
  obtain ⟨msg, rfl⟩ := h
  exact fun _ => nofun

lemma LookupError.noAssert {c : Crash} (h : LookupError m c) (hbad : ¬ BadDir m) : NoAssert c := by
  rcases h with rfl | ⟨-, h⟩
  · exact fun _ => nofun
  · exact absurd h hbad

lemma fileRead_growth (ho : Owned m) (hf : IsFile m f) (cached : Nat → Bool) (count : Nat) (off : Int) :
    Post NoAssert (fun res => ReflTransGen (Growth f) m res.2.2) (fileRead cached f count off m) := by
  unfold fileRead
  split
  · exact .pure .refl
  · refine (moveBlocks_rule (I := fun _ m' => ReflTransGen (Growth f) m m') (fun _ => nofun) (fun i out m1 h => ?_)
      (fun a n out m1 h => ?_) _ _ _ _ .refl).bind fun res hres => ?_
    · have hgrown := Growth.grownFrom h ho
      obtain ⟨r, b, m2, hget, hrun, -⟩ := fileGetBlock_spec hgrown.owned ((hgrown.isFile_iff f).mpr hf) i
      rw [hget]
      exact .pure (h.trans (Growth.of_run hrun))
    · refine (readMove_post cached m1 a n out).mono (fun _ h => h.noAssert) fun res hres => ?_
      subst hres
      exact h
    · obtain ⟨r, out, m'⟩ := res
      cases r <;> exact .pure hres.1

lemma fileRead_grown (ho : Owned m) (hf : IsFile m f) (cached : Nat → Bool) (count : Nat) (off : Int) :
    Post NoAssert (fun res => GrownFrom m res.2.2) (fileRead cached f count off m) :=
  (fileRead_growth ho hf cached count off).mono (fun _ h => h) fun _ h => Growth.grownFrom h ho

/-- A write to a regular file at an offset that is not in front of it, and whose first block can be reached if
anything is copied. -/
def WriteFine (m : Mem) (f count : Nat) (off : Int) : Prop :=
  count = 0 ∨ off < 0 ∧ 0 ≤ off + count ∨ 0 ≤ off ∧ ¬ NoWalk m f (off / 4096).toNat

lemma fileWrite_kept {count : Nat} {off : Int} (hg : Good m) (hf : IsFile m f)
    (hreg : m (fType f) ≠ ftypeDir) (hcount : count ≤ 4096) (hoff : -2147483648 ≤ off ∧ off < 2147483648)
    (hfine : WriteFine m f count off) (cached : Nat → Bool) (buf : Mem → Nat → Nat) :
    Post IsPanic (fun out => Kept m out.2) (fileWrite cached buf f count off m) := by
  by_cases hcopy : 0 ≤ off ∧ ¬ NoWalk m f (off / 4096).toNat
  · refine (fileWrite_spec hg.owned hf cached buf hcopy.1 hcopy.2 hcount).mono (fun _ h => h) ?_
    rintro out ⟨m1, m', r, hres, hgrow, hsame, -⟩
    have hk1 := hres.kept hg hf hreg
    have hk := hk1.trans ((Growth.grownFrom hgrow hk1.good.owned).kept hk1.good)
    exact hk.trans (hsame.kept hk.good (by rwa [hk.type f hf]))
  · have hnone : count = 0 ∨ -2147483648 ≤ off ∧ off < 0 ∧ 0 ≤ off + count := by
      rcases hfine with h | ⟨h, h'⟩ | h
      · exact .inl h
      · exact .inr ⟨hoff.1, h, h'⟩
      · exact absurd h hcopy
    obtain ⟨r, m1, hrun, hres⟩ := fileWrite_nothing hg.owned hf cached buf hoff.2 hcount hnone
    rw [hrun]
    exact .pure (hres.kept hg hf hreg)

lemma fileSetSize_kept (hg : Good m) (hf : IsFile m f) (hreg : m (fType f) ≠ ftypeDir) (newsize : Int) :
    ∃ m', fileSetSize f newsize m = .ok (0, m') ∧ Kept m m' := by
  obtain ⟨m1, hset, hrun, -⟩ := fileSetSize_spec hg.owned hf newsize
  exact ⟨_, hset, Resized.kept (.inr ⟨m1, _, hrun, rfl⟩) hg hf hreg⟩

lemma fileSetSize_zero (ho : Owned m) (hf : IsFile m f) (hbad : ¬ BadDir m) :
    ∃ m', fileSetSize f 0 m = .ok (0, m') ∧ Owned m' ∧ ¬ BadDir m' := by
  obtain ⟨m1, hset, hrun, -⟩ := fileSetSize_spec ho hf 0
  have hshrunk := DetachStep.run hrun ho hf
  have htree := sameTree_resize hshrunk.owned hshrunk.isFile (toU32 0)
  refine ⟨_, hset, owned_resize hshrunk.owned hshrunk.isFile _, ?_⟩
  rintro ⟨d, hd, hdir, hsize⟩
  have hd1 := (htree.isFile_iff d).mp hd
  rw [htree.type d hd1, fType, hshrunk.field d 33 hd1 (by decide)] at hdir
  by_cases hdf : d = f
  · subst hdf
    have hzero : size (update m1 (fSize d) (toU32 0)) d = 0 := by
      unfold size
      rw [update_self]
      decide
    rw [hzero] at hsize
    exact hsize (Int.zero_tmod _)
  · refine hbad ⟨d, hshrunk.isFile_of d hd1, hdir, ?_⟩
    have hword : update m1 (fSize f) (toU32 0) (fSize d) = m (fSize d) :=
      (resize_field hshrunk.owned hshrunk.isFile _ hd1 (by decide) (.inl hdf)).trans (hshrunk.field d 32 hd1 (by decide))
    have hsame : size (update m1 (fSize f) (toU32 0)) d = size m d := by
      unfold size
      rw [hword]
    exact fun hmod => hsize ((congrArg (Int.tmod · blksize) hsame).trans hmod)

structure Running (s : Server) : Prop where
  good : Good s.disk
  files : ∀ i, 1 < s.pageref i → IsFile s.disk (s.opentab i).oFile

lemma Running.withDisk (h : Running s) (hg : Good m) (hkeep : ∀ g, IsFile s.disk g → IsFile m g) :
    Running { s with disk := m } :=
  ⟨hg, fun i hi => hkeep _ (h.files i hi)⟩

lemma Kept.running (h : Kept s.disk m) (hs : Running s) : Running { s with disk := m } :=
  hs.withDisk h.good fun g hg => (h.isFile_iff g).mpr hg

lemma chars_cString (m : Mem) (a n : Nat) : Chars (cString m a n) := by
  intro c hc
  refine ⟨by simpa using List.mem_takeWhile_imp hc, ?_⟩
  obtain ⟨i, -, rfl⟩ := List.mem_map.mp ((List.takeWhile_sublist _).subset hc)
  exact getByte_lt _ _

lemma openfileAlloc_spec (nomem : Bool) (s : Server) : (openfileAlloc nomem s).2.2.disk = s.disk ∧
    (∀ j, 1 < (openfileAlloc nomem s).2.2.pageref j → 1 < s.pageref j ∧
      (openfileAlloc nomem s).2.2.opentab j = s.opentab j) ∧
    ∀ i, (openfileAlloc nomem s).2.1 = some i → (openfileAlloc nomem s).2.2.pageref i = 1 := by
  unfold openfileAlloc
  split
  · exact ⟨rfl, fun j hj => ⟨hj, rfl⟩, nofun⟩
  split
  · exact ⟨rfl, fun j hj => ⟨hj, rfl⟩, nofun⟩
  · rename_i i _ _
    refine ⟨rfl, fun j hj => ?_, fun k hk => ?_⟩
    · have hne : j ≠ i := by
        rintro rfl
        simp at hj
      simp only [update_of_ne hne] at hj ⊢
      exact ⟨hj, trivial⟩
    · cases hk
      exact update_self _ _ _

lemma openfileAlloc_running (nomem : Bool) (hs : Running s) : Running (openfileAlloc nomem s).2.2 := by
  obtain ⟨hdisk, hopen, -⟩ := openfileAlloc_spec nomem s
  refine ⟨by rw [hdisk]; exact hs.good, fun i hi => ?_⟩
  obtain ⟨hi', htab⟩ := hopen i hi
  rw [hdisk, htab]
  exact hs.files i hi'

lemma openPath_spec (hg : Good m) {path : List Nat} (hch : Chars path) (omode : Nat) :
    Post NoAssert (fun out => Owned out.2 ∧ ¬ BadDir out.2 ∧ (∀ f, out.1 = .ok f → IsFile out.2 f) ∧
      ((flag omode oCreat → Fits m) → Good out.2 ∧ ∀ g, IsFile m g → IsFile out.2 g)) (openPath path omode m) := by
  unfold openPath
  split
  · rename_i hcreat
    refine ((fileCreate_spec hg.owned hch (hg.unused.mono (by decide))).mono
      (fun _ h => h.noAssert hg.not_badDir) fun _ h => h).bind fun out hout => ?_
    obtain ⟨res, m1⟩ := out
    obtain ⟨hcreated, hfile⟩ := hout
    have hbad := hcreated.not_badDir hg
    have hgood : (flag omode oCreat → Fits m) → Good m1 ∧ ∀ g, IsFile m g → IsFile m1 g :=
      fun hfit => ⟨hcreated.good hg (hfit hcreat), hcreated.isFile⟩
    cases res with
    | ok f => exact .pure ⟨hcreated.owned, hbad, hfile, hgood⟩
    | error r =>
      dsimp only
      split
      · refine (fileOpen_spec hcreated.owned hch).mono (fun _ h => h.noAssert hbad) ?_
        rintro out ⟨hgrows, hfile⟩
        refine ⟨hgrows.owned, fun h => hbad (hgrows.badDir h), hfile, fun hfit => ?_⟩
        obtain ⟨hg1, hkeep⟩ := hgood hfit
        have hkept := hgrows.toGrownFrom.kept hg1
        exact ⟨hkept.good, fun g hg => (hkept.isFile_iff g).mpr (hkeep g hg)⟩
      · exact .pure ⟨hcreated.owned, hbad, nofun, hgood⟩
  · refine (fileOpen_spec hg.owned hch).mono (fun _ h => h.noAssert hg.not_badDir) ?_
    rintro out ⟨hgrows, hfile⟩
    have hkept := hgrows.toGrownFrom.kept hg
    exact ⟨hgrows.owned, fun h => hg.not_badDir (hgrows.badDir h), hfile,
      fun _ => ⟨hkept.good, fun g hg => (hkept.isFile_iff g).mpr hg⟩⟩

/-- `serve_open` creates a file only if the directories have room, and truncates regular files only. -/
def CarefulOpen (page : Mem) (s : Server) : Prop :=
  (flag (page (maxpathlen / 4)) oCreat = true → Fits s.disk) ∧
    (flag (page (maxpathlen / 4)) oTrunc = true → ∀ f m,
      openPath (cString page 0 (maxpathlen - 1)) (page (maxpathlen / 4)) s.disk = .ok (.ok f, m) → m (fType f) ≠ ftypeDir)

lemma openTrunc_spec (ho : Owned m) (hf : IsFile m f) (hbad : ¬ BadDir m) (omode : Nat) :
    ∃ m', openTrunc f omode m = .ok (0, m') ∧ Owned m' ∧ ¬ BadDir m' ∧
      ((flag omode oTrunc → m (fType f) ≠ ftypeDir) → Good m → Kept m m') := by
  unfold openTrunc
  split
  · rename_i htrunc
    obtain ⟨m1, hset, ho1, hbad1⟩ := fileSetSize_zero ho hf hbad
    refine ⟨m1, hset, ho1, hbad1, fun hreg hg => ?_⟩
    obtain ⟨m2, hset', hkept⟩ := fileSetSize_kept hg hf (hreg htrunc) 0
    cases hset.symm.trans hset'
    exact hkept
  · exact ⟨m, rfl, ho, hbad, fun _ hg => ⟨hg, fun _ => Iff.rfl, fun _ _ => rfl⟩⟩

lemma serveOpen_running (nomem : Bool) (page : Mem) (hs : Running s) :
    Post NoAssert (fun out => CarefulOpen page s → Running out.2.2 ∧
      ∀ i, out.2.1 = some i → IsFile out.2.2.disk (out.2.2.opentab i).oFile) (serveOpen nomem page s) := by
  have hch := chars_cString page 0 (maxpathlen - 1)
  obtain ⟨hdisk, -, hslot⟩ := openfileAlloc_spec nomem s
  have hs1 := openfileAlloc_running nomem hs
  unfold serveOpen CarefulOpen
  generalize openfileAlloc nomem s = res at hdisk hslot hs1 ⊢
  obtain ⟨r, o, s1⟩ := res
  dsimp only at hdisk hslot hs1 ⊢
  rw [← hdisk]
  generalize cString page 0 (maxpathlen - 1) = path at hch ⊢
  generalize page (maxpathlen / 4) = omode
  cases o with
  | none => exact .pure fun _ => ⟨hs1, nofun⟩
  | some i =>
    have hone := hslot i rfl
    dsimp only
    split
    · exact .pure fun _ => ⟨hs1, nofun⟩
    cases hpath : openPath path omode s1.disk with
    | error c => exact .throw ((openPath_spec hs1.good hch omode).error c hpath)
    | ok res =>
      obtain ⟨f, m1⟩ := res
      obtain ⟨ho1, hbad1, hfile1, hgood1⟩ := (openPath_spec hs1.good hch omode).ok _ hpath
      rw [ok_bind]
      cases f with
      | error r =>
        refine .pure fun hcare => ⟨?_, nofun⟩
        obtain ⟨hg, hkeep⟩ := hgood1 hcare.1
        exact hs1.withDisk hg hkeep
      | ok f =>
        dsimp only at ho1 hbad1 hfile1 hgood1 ⊢
        obtain ⟨m2, hset, ho2, hbad2, hkept2⟩ := openTrunc_spec ho1 (hfile1 f rfl) hbad1 omode
        rw [hset, ok_bind]
        dsimp only
        refine ((fileOpen_spec ho2 hch).mono (fun _ h => h.noAssert hbad2) fun _ h => h).bind fun out hout => ?_
        obtain ⟨f', m3⟩ := out
        obtain ⟨hgrows, hfile3⟩ := hout
        have hfinal : (flag omode oCreat → Fits s1.disk) → (flag omode oTrunc → m1 (fType f) ≠ ftypeDir) →
            Good m3 ∧ ∀ g, IsFile s1.disk g → IsFile m3 g := by
          intro hfit hreg
          obtain ⟨hg1, hkeep⟩ := hgood1 hfit
          have hk := hkept2 hreg hg1
          have hk' := hk.trans (hgrows.toGrownFrom.kept hk.good)
          exact ⟨hk'.good, fun g hg => (hk'.isFile_iff g).mpr (hkeep g hg)⟩
        cases f' with
        | error r =>
          refine .pure fun hcare => ⟨?_, nofun⟩
          obtain ⟨hg, hkeep⟩ := hfinal hcare.1 fun ht => hcare.2 ht f m1 rfl
          exact hs1.withDisk hg hkeep
        | ok f' =>
          refine .pure fun hcare => ?_
          obtain ⟨hg, hkeep⟩ := hfinal hcare.1 fun ht => hcare.2 ht f m1 rfl
          refine ⟨⟨hg, fun j hj => ?_⟩, fun j hj => ?_⟩
          · have hne : j ≠ i := by
              rintro rfl
              exact absurd hj (by rw [hone]; decide)
            simp only [update_of_ne hne]
            exact hkeep _ (hs1.files j hj)
          · cases hj
            simp only [update_self]
            exact hfile3 f' rfl

section

lemma diskaddr_noAssert (b : Nat) (m : Mem) : Post NoAssert (fun _ => True) (diskaddr b m) := by
  unfold diskaddr
  split
  · exact .throw fun _ => nofun
  · exact .pure trivial

lemma fileBlockWalk_noAssert (f i : Nat) (alloc : Bool) (m : Mem) :
    Post NoAssert (fun _ => True) (fileBlockWalk f i alloc m) := by
  unfold fileBlockWalk
  split
  · exact .pure trivial
  split
  · exact .pure trivial
  split
  · split
    · exact .pure trivial
    split
    · exact .pure trivial
    · exact (diskaddr_noAssert _ _).bind fun _ _ => (diskaddr_noAssert _ _).bind fun _ _ => .pure trivial
  · exact (diskaddr_noAssert _ _).bind fun _ _ => .pure trivial

lemma fileGetBlock_noAssert (f i : Nat) (m : Mem) : Post NoAssert (fun _ => True) (fileGetBlock f i m) := by
  unfold fileGetBlock
  refine (fileBlockWalk_noAssert f i true m).bind fun out _ => ?_
  obtain ⟨slot, m1⟩ := out
  cases slot with
  | error r => exact .pure trivial
  | ok slot =>
    dsimp only
    split
    · split
      · exact .pure trivial
      · exact (diskaddr_noAssert _ _).bind fun _ _ => (diskaddr_noAssert _ _).bind fun _ _ => .pure trivial
    · exact (diskaddr_noAssert _ _).bind fun _ _ => .pure trivial

lemma fileWrite_noAssert (ho : Owned m) (hf : IsFile m f) (cached : Nat → Bool)
    (buf : Mem → Nat → Nat) (count : Nat) (off : Int) :
    Post NoAssert (fun _ => True) (fileWrite cached buf f count off m) := by
  obtain ⟨m1, -, -, -, heq⟩ := fileWriteBy_eq ho hf count off
  unfold fileWrite
  rw [heq]
  refine Post.map ((moveBlocks_rule (I := fun _ _ => True) (fun _ => nofun) (fun i _ m _ => fileGetBlock_noAssert f i m)
    (fun a n done m _ => ?_) _ _ _ _ trivial).mono (fun _ h => h) fun _ _ => trivial)
  exact (writeMove_post cached m a n buf done).mono (fun _ h => h.noAssert) fun _ _ => trivial

end

def Careful (req : Nat) (page : Mem) (s : Server) : Prop :=
  (req = fsreqOpen → CarefulOpen page s) ∧
  (req = fsreqSetSize → ∀ i, openfileLookup s (page 0) = some i → s.disk (fType (s.opentab i).oFile) ≠ ftypeDir) ∧
  (req = fsreqWrite → ∀ i, openfileLookup s (page 0) = some i → s.disk (fType (s.opentab i).oFile) ≠ ftypeDir ∧
    WriteFine s.disk (s.opentab i).oFile (min (page 1) pgsize) (toI32 (s.fdOffset i)))

def Delivered (ans : Answer) (s s' : Server) : Prop :=
  s' = s ∨ ∃ i n, ans = .fd i ∧ s' = { s with pageref := update s.pageref i n }

/-- A request is served, or clients map and unmap the pages that they have and write to them. -/
inductive ServStep (allowed : Nat → Mem → Server → Prop) (s : Server) : Server → Prop where
  | clients (pageref fdOffset : Nat → Nat) (hnone : ∀ i, s.pageref i ≤ 1 → pageref i = s.pageref i) :
      ServStep allowed s { s with pageref := pageref, fdOffset := fdOffset }
  | request (cached : Nat → Bool) (nomem : Bool) (req : Nat) (page : Mem) (hallowed : allowed req page s) {r : Int}
      {ans : Answer} {s1 s' : Server} (h : serve cached nomem req page s = .ok (r, ans, s1)) (hsent : Delivered ans s1 s') :
      ServStep allowed s s'

lemma Running.delivered {s' : Server} {ans : Answer} (hs : Running s)
    (hfd : ∀ i, ans = .fd i → IsFile s.disk (s.opentab i).oFile) (h : Delivered ans s s') : Running s' := by
  rcases h with rfl | ⟨i, n, rfl, rfl⟩
  · exact hs
  · refine ⟨hs.good, fun j hj => ?_⟩
    by_cases hji : j = i
    · subst hji
      exact hfd j rfl
    · simp only [update_of_ne hji] at hj
      exact hs.files j hj

section
variable (cached : Nat → Bool) (page : Mem) {s : Server} (hs : Running s)
include hs

lemma Running.open_isFile {fileid i : Nat} (h : openfileLookup s fileid = some i) : IsFile s.disk (s.opentab i).oFile :=
  hs.files i (openfileLookup_some h).2

lemma serveRead_running : Post NoAssert (fun out => Running out.2.2) (serveRead cached page s) := by
  unfold serveRead
  cases hlook : openfileLookup s (page 0) with
  | none => exact .pure hs
  | some i =>
    refine (fileRead_grown hs.good.owned (hs.open_isFile hlook) cached _ _).bind fun out hout => .pure ?_
    have hkept := hout.kept hs.good
    exact ⟨hkept.good, fun j hj => (hkept.isFile_iff _).mpr (hs.files j hj)⟩

lemma serveFlush_ok : ∃ r, serveFlush page s = .ok r := by
  unfold serveFlush
  cases hlook : openfileLookup s (page 0) with
  | none => exact ⟨_, rfl⟩
  | some i =>
    dsimp only
    rw [fileFlush_ok hs.good.owned (hs.open_isFile hlook)]
    exact ⟨_, rfl⟩

lemma serveWrite_running : Post NoAssert (fun out => Careful fsreqWrite page s → Running out.2) (serveWrite cached page s) := by
  unfold serveWrite
  cases hlook : openfileLookup s (page 0) with
  | none => exact .pure fun _ => hs
  | some i =>
    have hf := hs.open_isFile hlook
    have hmin : (if pgsize < page 1 then pgsize else page 1) = min (page 1) pgsize := by
      split <;> omega
    dsimp only
    rw [hmin]
    cases hrun : fileWrite cached (reqBuf page) (s.opentab i).oFile (min (page 1) pgsize) (toI32 (s.fdOffset i)) s.disk with
    | error c => exact .throw ((fileWrite_noAssert hs.good.owned hf _ _ _ _).error c hrun)
    | ok out =>
      refine .pure fun hcare => ?_
      obtain ⟨hreg, hfine⟩ := hcare.2.2 rfl i hlook
      have hkept := (fileWrite_kept hs.good hf hreg (min_le_right _ _) (toI32_range _) hfine _ _).ok out hrun
      exact ⟨hkept.good, fun j hj => (hkept.isFile_iff _).mpr (hs.files j hj)⟩

lemma serveSetSize_running : Post NoAssert (fun out => Careful fsreqSetSize page s → Running out.2) (serveSetSize page s) := by
  unfold serveSetSize
  cases hlook : openfileLookup s (page 0) with
  | none => exact .pure fun _ => hs
  | some i =>
    have hf := hs.open_isFile hlook
    obtain ⟨m1, hset, -⟩ := fileSetSize_spec hs.good.owned hf (toI32 (page 1))
    dsimp only
    rw [hset, ok_bind]
    refine .pure fun hcare => ?_
    obtain ⟨m', hset', hkept⟩ := fileSetSize_kept hs.good hf (hcare.2.1 rfl i hlook) (toI32 (page 1))
    cases hset.symm.trans hset'
    exact hkept.running hs

lemma serve_running (nomem : Bool) (req : Nat) :
    Post NoAssert (fun out => Careful req page s → ∀ s', Delivered out.2.1 out.2.2 s' → Running s')
      (serve cached nomem req page s) := by
  unfold serve
  split
  · rename_i hreq
    refine (serveOpen_running nomem page hs).bind fun out hout => .pure fun hcare s' hsent => ?_
    obtain ⟨hrun, hfd⟩ := hout (hcare.1 hreq)
    refine hrun.delivered (fun i hi => hfd i ?_) hsent
    obtain ⟨r, o, s1⟩ := out
    cases o with
    | none => cases hi
    | some j =>
      cases hi
      rfl
  split
  · exact (serveRead_running cached page hs).bind fun out hout => .pure fun _ s' hsent =>
      hout.delivered (fun i hi => by cases hi) hsent
  split
  · refine .pure fun _ s' hsent => hs.delivered (fun i hi => ?_) hsent
    have hstat : ∀ st : Option Stat, st.elim Answer.none Answer.stat ≠ .fd i := by
      intro st
      cases st <;> nofun
    exact absurd hi (hstat _)
  split
  · obtain ⟨r, hflush⟩ := serveFlush_ok page hs
    rw [hflush, ok_bind]
    exact .pure fun _ s' hsent => hs.delivered (fun i hi => by cases hi) hsent
  split
  · rename_i hreq
    subst hreq
    exact (serveWrite_running cached page hs).bind fun out hout => .pure fun hcare s' hsent =>
      (hout hcare).delivered (fun i hi => by cases hi) hsent
  split
  · rename_i hreq
    subst hreq
    exact (serveSetSize_running page hs).bind fun out hout => .pure fun hcare s' hsent =>
      (hout hcare).delivered (fun i hi => by cases hi) hsent
  split
  · exact .pure fun _ s' hsent => hs.delivered (fun i hi => by cases hi) hsent
  · exact .pure fun _ s' hsent => hs.delivered (fun i hi => by cases hi) hsent

end

lemma ServStep.running {s' : Server} (h : ServStep Careful s s') (hs : Running s) : Running s' := by
  cases h with
  | clients pageref fdOffset hnone =>
    refine ⟨hs.good, fun i hi => hs.files i ?_⟩
    by_contra hle
    dsimp only at hi
    rw [hnone i (Nat.not_lt.mp hle)] at hi
    exact hle hi
  | request cached nomem req page hallowed h hsent =>
    exact (serve_running cached page hs nomem req).ok _ h hallowed _ hsent

def bootServer : Server := ⟨smallDisk, fun i => ⟨i, 0, 0⟩, fun _ => 0, fun _ => 0⟩

lemma smallDisk_good : Good smallDisk := by
  refine ⟨smallDisk_checked.agrees.toOwned, fun d hd hdir => ?_, smallDisk_checked.unusedBlank le_rfl⟩
  obtain rfl := smallDisk_checked.eq_root hd hdir
  exact ⟨by decide, by decide⟩

lemma bootServer_running : Running bootServer := ⟨smallDisk_good, fun _ h => absurd h (by decide : ¬ 1 < 0)⟩

/-- A request to open the path whose first four bytes are `path`, with `O_RDWR`. -/
def openReq (path : Nat) : Mem := fun w => if w = 0 then path else if w = 256 then 2 else 0

def openedServer (f refs : Nat) : Server :=
  { bootServer with
    opentab := update (update bootServer.opentab 0 ⟨1024, 0, 0⟩) 0 ⟨1024, f, 2⟩
    pageref := update bootServer.pageref 0 refs
    fdOffset := update bootServer.fdOffset 0 0 }

lemma cString_short {m : Mem} {a n : Nat} {s : List Nat} (h : cString m a (s.length + 1) = s) (hlt : s.length < n) :
    cString m a n = s := by
  unfold cString at *
  rw [← List.take_append_drop (s.length + 1) (bytesAt m a n), take_bytesAt m a hlt, List.takeWhile_append, h, if_neg]
  rw [length_bytesAt]
  omega

lemma openReq_root : cString (openReq 47) 0 (maxpathlen - 1) = [47] := cString_short rfl (by decide)

lemma openReq_file : cString (openReq 24879) 0 (maxpathlen - 1) = [47, 97] := cString_short rfl (by decide)

lemma bootServer_alloc : openfileAlloc false bootServer = (1024, some 0, { bootServer with
      opentab := update bootServer.opentab 0 ⟨1024, 0, 0⟩
      pageref := update bootServer.pageref 0 1
      fdOffset := update bootServer.fdOffset 0 0 }) := by
  have hfirst : (List.range maxopen).find? (fun i => bootServer.pageref i ≤ 1) = some 0 := by
    rw [show maxopen = 1023 + 1 from rfl, List.range_succ_eq_map, List.find?_cons_of_pos (by decide)]
  have hid : toI32 (1024 : Nat) = 1024 := by decide
  unfold openfileAlloc
  rw [hfirst]
  dsimp only
  rw [if_neg (by decide), show ((bootServer.opentab 0).oFileid + maxopen) % 4294967296 = 1024 from rfl, hid]
  rfl

lemma open_root : serve (fun _ => true) false fsreqOpen (openReq 47) bootServer = .ok (0, .fd 0, openedServer root 1) := by
  unfold serve serveOpen
  rw [if_pos rfl, openReq_root, bootServer_alloc]
  rfl

lemma open_file :
    serve (fun _ => true) false fsreqOpen (openReq 24879) bootServer = .ok (0, .fd 0, openedServer 3072 1) := by
  unfold serve serveOpen
  rw [if_pos rfl, openReq_file, bootServer_alloc]
  rfl

lemma openedServer_delivered (f : Nat) : Delivered (.fd 0) (openedServer f 1) (openedServer f 2) := by
  have hrefs : update (openedServer f 1).pageref 0 2 = (openedServer f 2).pageref :=
    update_idem ..
  refine .inr ⟨0, 2, rfl, ?_⟩
  rw [hrefs]
  rfl

/-- In every state that careful requests lead to, the sizes of the directories are as `dir_lookup` asserts, and no
request fails an assertion. -/
theorem directories_block_multiples {s0 s : Server} (hs : Running s0) (hrun : ReflTransGen (ServStep Careful) s0 s) :
    DirSizes s.disk ∧
      ∀ cached nomem req page text, serve cached nomem req page s ≠ .error (.assertion text) := by
  have hrunning : Running s := by
    induction hrun with
    | refl => exact hs
    | tail _ hstep ih => exact hstep.running ih
  refine ⟨hrunning.good.sizes, fun cached nomem req page text hfail => ?_⟩
  exact (serve_running cached page hrunning nomem req).error _ hfail text rfl

theorem directories_small : ServStep Careful bootServer (openedServer 3072 2) ∧ DirSizes (openedServer 3072 2).disk := by
  have hcare : Careful fsreqOpen (openReq 24879) bootServer :=
    ⟨fun _ => ⟨fun h => absurd h (by decide), fun h => absurd h (by decide)⟩, fun h => absurd h (by decide),
      fun h => absurd h (by decide)⟩
  have hstep := ServStep.request _ _ _ _ hcare open_file (openedServer_delivered 3072)
  exact ⟨hstep, (directories_block_multiples bootServer_running (.single hstep)).1⟩

def setSizeReq : Mem := fun w => if w = 0 then 1024 else if w = 1 then 1 else 0

lemma set_size_root : serve (fun _ => true) false fsreqSetSize setSizeReq (openedServer root 2) =
    .ok (0, .none, { openedServer root 2 with disk := update smallDisk 1058 1 }) := rfl

/-- A client opens the root directory and sets its size to 1; the next request to open a file takes the server
down. -/
theorem root_set_size_asserts : ∃ s, Running bootServer ∧ ReflTransGen (ServStep fun _ _ _ => True) bootServer s ∧
    ¬ DirSizes s.disk ∧ serve (fun _ => true) false fsreqOpen (openReq 24879) s =
      .error (.assertion "(dir->f_size % BLKSIZE) == 0") := by
  refine ⟨{ openedServer root 2 with disk := update smallDisk 1058 1 }, bootServer_running,
    .tail (.single (.request _ _ _ _ trivial open_root (openedServer_delivered root)))
      (.request _ _ _ _ trivial set_size_root (.inl rfl)),
    fun h => ?_, ?_⟩
  · exact absurd (h root .root (by decide)).2 (by decide)
  · have hsecond : (List.range maxopen).find? (fun i => (openedServer root 2).pageref i ≤ 1) = some 1 := by
      rw [show maxopen = 1022 + 1 + 1 from rfl, List.range_succ_eq_map, List.find?_cons_of_neg (by decide),
        List.range_succ_eq_map, List.map_cons, List.find?_cons_of_pos (by decide)]
    unfold serve serveOpen openfileAlloc
    rw [if_pos rfl, openReq_file, hsecond]
    rfl

end Jos.Fs
