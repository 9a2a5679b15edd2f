import Jos.Fs.Path
import Jos.Fs.Reported

/-!
# File operations that fail

`file_create` and `file_write` enlarge a size before they fetch the blocks for it. If
the disk runs out of blocks in between, the call returns an error and the size stays.
Nothing else that makes these calls fail leaves a trace.
-/

namespace Jos.Fs
open WordMem CInt Ownership Function
open Relation (ReflTransGen)

section
variable {m : Mem} (ho : Owned m) {f : Nat} (hf : IsFile m f) (cached : Nat → Bool) (buf : Mem → Nat → Nat)

/-- Where the loop of `file_write` over positions from `off` can end. -/
inductive WriteEnd (m : Mem) (f off stop : Nat) : Option Int → Mem → Prop where
  | done {mr : Mem} (hsize : mr (fSize f) = m (fSize f)) (h : ¬ RunsOut m f (off / 4096) (blockEnd off stop)) :
      WriteEnd m f off stop none mr
  | noDisk {mr : Mem} (hsize : mr (fSize f) = m (fSize f)) (h : RunsOut m f (off / 4096) (blockEnd off stop)) :
      WriteEnd m f off stop (some (-eNoDisk)) mr

include ho hf in
lemma moveBlocks_ends {off stop : Nat} (hstop : stop < 4294967296) (hoff : off ≤ stop) (hpos : off < 2147483648) (n : Nat)
    (hn : stop ≤ off + n) (done : Nat) : Post (fun _ => True) (fun out => WriteEnd m f off stop out.1 out.2.2)
      (moveBlocks (writeMove cached buf) f stop n off none done m) := by
  have hsize : ∀ {m' mr : Mem}, Owned m' → SameButData f m' mr → m' (fSize f) = m (fSize f) → mr (fSize f) = m (fSize f) :=
    fun ho' hsame h => (hsame.meta ho' _ (.inr (.inr (.inl ⟨32, by decide, rfl⟩)))).trans h
  have hloop := @moveBlocks_fetch _ (writeMove cached buf) f stop (fun _ _ m' _ => m' (fSize f) = m (fSize f)) hstop
    (fun p acc m1 mr m2 mr2 ho1 hf1 hp hrun hkept h => ((AttachStep.run hrun ho1).field f 32 hf1 (by decide)).trans h)
    (fun p k acc m1 mr ho1 hf1 hsame hi hb hk hfit hend h => ?_) n off done m m ho hf (fun _ _ => rfl) hoff hpos
    hn rfl
  · rcases hloop with ⟨acc', m', mr', hrun, h, ho', -, hsame, hroom⟩ | ⟨q, acc', m', mr', hrun, -, -, h, hsame, ho', -, hout⟩ |
      ⟨k, q, blk, acc', m', mr', hrun, hq, hlow, h, ho', hf', hsame, hno, hblk, hfails⟩
    · rw [hrun]
      exact .pure (.done (hsize ho' hsame h) hroom.not_runsOut)
    · rw [hrun]
      exact .pure (.noDisk (hsize ho' hsame h) hout)
    · rw [hrun]
      cases hb : blk with
      | none =>
        obtain ⟨r, b, m1, m1', hget, hget', -⟩ := fileGetBlock_congr ho' (hsame.meta ho') hf' (q / 4096)
        rw [fileGetBlock_noWalk ho' hf' hno] at hget
        cases hget
        rw [moveBlocks_at _ f k none acc' mr' hq hstop, hget', ok_bind]
        exact .throw trivial
      | some a =>
        obtain ⟨i, c, href, rfl⟩ := hblk a hb
        have hstuck : ∀ j, q / 4096 ≤ j → NoWalk m' f j := fun j hj => hno.mono hj
        refine (moveBlocks_stuck hstop ho' hf' (fun i c o n acc mr href hsame hn hfit => ?_) hstuck (k + 1)
          (.inl (by omega)) ⟨by omega, by omega⟩ href hsame).mono (fun _ _ => trivial) fun out hout => ?_
        · obtain ⟨acc'', mr'', hmoved, -, hsame'⟩ := writeMove_checks cached buf i c o n acc m' mr ho' href hsame hn hfit
          rw [hmoved]
          exact .pure hsame'
        · rw [hout.1]
          exact .done (hsize ho' hout.2 h) fun hout' => hout'.not_walkFails hfails
  · obtain ⟨acc', mr', hrun, -, hsame'⟩ := writeMove_checks cached buf (p / 4096) (blockAt m1 f (p / 4096)) (p % 4096) k acc
      m1 mr ho1 ⟨hf1, hi, rfl, hb⟩ hsame hk hfit
    exact ⟨acc', m1, mr', hrun, .refl ho1 hf1, hsame', h⟩

variable {count : Nat} {off : Int} (hcount : count < 4294967296) (hoff : -2147483648 ≤ off ∧ off < 2147483648)
include ho hf hcount hoff in
lemma fileWrite_failed_size {r1 : Int} {m1 : Mem} (hext : fileExtend f count off m = .ok (r1, m1)) {r : Int} {m' : Mem}
    (hrun : fileWrite cached buf f count off m = .ok (r, m')) (hneg : r < 0) : m' (fSize f) = m1 (fSize f) := by
  obtain ⟨m2, hres, hext', -, heq⟩ := fileWriteBy_eq ho hf count off
  cases hext'.symm.trans hext
  obtain ⟨ho1, hf1⟩ := hres.owned ho hf
  unfold fileWrite at hrun
  rw [heq] at hrun
  obtain ⟨out, hloop, hout⟩ := map_ok hrun
  cases hout
  have hcast := toU32_cast (off + count)
  have hcast' := toU32_cast off
  by_cases hskip : toU32 (off + count) ≤ toU32 off
  · rw [moveBlocks_end _ _ _ _ _ _ hskip] at hloop
    cases hloop
    rfl
  rcases Int.lt_or_le off 0 with hless | hge
  · -- the loop runs only if the last position is negative too
    have hsum : off + count < 0 := by omega
    by_cases hfar : off ≤ -4096
    · rw [moveBlocks_unreachable ho1 hf1 _ _ (by omega) (by omega) hoff (.inl hsum) (.inl hfar)] at hloop
      cases hloop
    · rw [moveBlocks_before _ _ _ _ (by omega) (by omega) (by omega) hsum] at hloop
      obtain ⟨r', b, m3, hget, hsteps, -⟩ := fileGetBlock_spec ho1 hf1 0
      rw [hget, ok_bind] at hloop
      dsimp only at hloop
      split at hloop
      · cases hloop
        exact (AttachStep.run hsteps ho1).field f 32 hf1 (by decide)
      · have hnone : out.1 = none := by
          cases b with
          | none => cases hloop
          | some a =>
            dsimp only at hloop
            cases hmv : writeMove cached buf (4 * a + off).toNat count 0 m3 with
            | error e =>
              rw [hmv] at hloop
              cases hloop
            | ok res =>
              rw [hmv, ok_bind] at hloop
              cases hloop
              rfl
        rw [hnone, Option.getD_none, toI32_of_range (by omega) (by omega)] at hneg
        omega
  · obtain ⟨p, rfl⟩ := Int.eq_ofNat_of_zero_le hge
    have hstop : toU32 ((p : Int) + count) = p + count := by omega
    rw [hstop] at hloop
    have hend := (moveBlocks_ends ho1 hf1 cached buf (by omega) (by omega) (by omega) count le_rfl 0).ok _ hloop
    generalize out.1 = r at hend
    cases hend with
    | done hsize _ => exact hsize
    | noDisk hsize _ => exact hsize

def WriteKeepsSize (cached : Nat → Bool) (buf : Mem → Nat → Nat) (f count : Nat) (off : Int) (m : Mem) : Prop :=
  ∀ r m', fileWrite cached buf f count off m = .ok (r, m') → r < 0 → size m' f = size m f

def ExtendsInVain (cached : Nat → Bool) (buf : Mem → Nat → Nat) (f count : Nat) (off : Int) (m : Mem) : Prop :=
  toU32 (size m f) < toU32 (off + count) ∧ ∃ r m', fileWrite cached buf f count off m = .ok (r, m') ∧ r < 0

include ho hf hcount hoff in
lemma writeKeepsSize_iff : WriteKeepsSize cached buf f count off m ↔ ¬ ExtendsInVain cached buf f count off m := by
  obtain ⟨m1, -, hext, -⟩ := fileWriteBy_eq ho hf count off
  have hkept : ∀ {r m'}, fileWrite cached buf f count off m = .ok (r, m') → r < 0 → m' (fSize f) = m1 (fSize f) :=
    fun hrun hneg => fileWrite_failed_size ho hf cached buf hcount hoff hext hrun hneg
  constructor
  · rintro hkeeps ⟨hlt, r, m', hrun, hneg⟩
    have hsize := hkeeps r m' hrun hneg
    unfold size at hsize
    rw [hkept hrun hneg] at hsize
    unfold fileExtend at hext
    rw [if_pos hlt] at hext
    obtain ⟨m2, hset, -⟩ := fileSetSize_spec ho hf (toI32 (off + count))
    cases hset.symm.trans hext
    rw [update_self, toI32_toU32, toI32_of_range (toI32_range _).1 (toI32_range _).2] at hsize
    rw [size, ← hsize, toU32_toI32] at hlt
    exact lt_irrefl _ hlt
  · intro hnot r m' hrun hneg
    have hle : ¬ toU32 (size m f) < toU32 (off + count) := fun hlt => hnot ⟨hlt, r, m', hrun, hneg⟩
    unfold fileExtend at hext
    rw [if_neg hle] at hext
    cases hext
    unfold size
    rw [hkept hrun hneg]

include ho hf in
/-- Within the range of `off_t` a write fails exactly when the disk runs out of blocks for its data. -/
theorem fileWrite_fails_iff {off : Nat} (hsize : 0 ≤ size m f) (hmax : off + count < 2147483648) :
    (∃ r m', fileWrite cached buf f count off m = .ok (r, m') ∧ r < 0) ↔
      RunsOut m f (off / 4096) (blockEnd off (off + count)) := by
  have hblocks := (extended_spec ho hf (off + count)).1
  have hsame : RunsOut (extended m f (off + count)) f (off / 4096) (blockEnd off (off + count)) ↔
      RunsOut m f (off / 4096) (blockEnd off (off + count)) := by
    unfold RunsOut
    rw [hblocks.free]
    refine exists_congr fun i => and_congr_right fun _ => and_congr_right fun _ => and_congr_right fun hi => ?_
    rw [needed_congr hi hblocks.blocks hblocks.indirect]
  rw [← hsame]
  unfold fileWrite
  rw [fileWriteBy_extended ho hf _ _ hsize hmax]
  have hpost := moveBlocks_ends hblocks.owned hblocks.isFile cached buf (show off + count < 4294967296 by omega) (by omega)
    (by omega) count le_rfl 0
  constructor
  · rintro ⟨r, m', hrun, hneg⟩
    obtain ⟨out, hloop, hout⟩ := map_ok hrun
    cases hout
    have hend := hpost.ok _ hloop
    generalize out.1 = r at hend hneg
    cases hend with
    | done _ _ =>
      rw [Option.getD_none] at hneg
      omega
    | noDisk _ h => exact h
  · intro hout
    obtain ⟨hgood, -⟩ := moveBlocks_checked (writeMove_checks cached buf) hblocks.owned hblocks.isFile
      (show off + count < 4294967296 by omega) (Nat.le_add_right off count) (by omega) count le_rfl 0 rfl
    obtain ⟨r, done, m', hrun, -⟩ := hgood hout.not_walkFails
    have hplain := (moveBlocks_of_checked _ _ _ _ _).ok _ hrun
    have hend := hpost.ok _ hplain
    cases hend with
    | done _ h => exact absurd hout h
    | noDisk _ _ =>
      rw [hplain]
      exact ⟨-eNoDisk, m', rfl, by decide⟩

end

structure Whole (m : Mem) : Prop extends Consistent m where
  dirSizes : DirSizes m
  dirBlocks : ∀ d i, IsFile m d → m (fType d) = ftypeDir → i < nblocks (size m d) → blockAt m d i ≠ 0

section
variable {m : Mem} (h : Whole m) {d : Nat} (hd : IsFile m d) (hdir : m (fType d) = ftypeDir)
include h hd hdir in
lemma Whole.nblock : dirNblock d m = .ok (nblocks (size m d)) ∧ nblocks (size m d) ≤ ndirect + nindirect ∧
    size m d = 4096 * nblocks (size m d) := by
  obtain ⟨h0, h1⟩ := h.sizes d hd
  obtain ⟨-, hdvd⟩ := h.dirSizes d hd hdir
  have hmax : size m d ≤ 4235264 := h1
  have hmod : (size m d).tmod blksize = 0 := Int.tmod_eq_zero_of_dvd hdvd
  have hn := nblocks_of_fits h0 (by omega)
  rw [blksize_cast] at hdvd
  refine ⟨?_, ?_, by omega⟩
  · unfold dirNblock
    rw [if_pos hmod, (dirNblock_eq h0 (by omega) hmod).1]
  · unfold ndirect nindirect
    omega

lemma Whole.isFile_of_inTree {m : Mem} (h : Whole m) {f : Nat} (hf : InTree m f) : IsFile m f := by
  refine hf.isFile fun d i hd hdir hi => ⟨?_, h.dirBlocks d i hd hdir hi⟩
  exact lt_of_lt_of_le hi (h.nblock hd hdir).2.1

lemma Whole.inTree {m : Mem} (h : Whole m) {f : Nat} (hf : IsFile m f) : InTree m f := by
  induction hf with
  | root => exact .root
  | @entry d i j hd hdir hi hb hj hname ih =>
    refine .entry ih hdir (Nat.lt_of_not_le fun hle => hb ?_) hj hname
    exact h.tail d i hd hi hle

lemma Whole.allocated {m : Mem} (h : Whole m) : Allocated m := by
  refine ⟨fun d hd hdir => ?_, fun d i hd hdir hi => ?_, fun d hd hdir hi => ?_⟩ <;>
    have hfile := h.isFile_of_inTree hd
  · obtain ⟨h₀, hdvd⟩ := h.dirSizes d hfile hdir
    exact ⟨h₀, hdvd, (h.nblock hfile hdir).2.1⟩
  · have hne := h.dirBlocks d i hfile hdir hi
    exact ⟨hne, (h.range (.block d i) _ ⟨hfile, lt_of_lt_of_le hi (h.nblock hfile hdir).2.1, rfl, hne⟩).2⟩
  · have hne := h.dirBlocks d ndirect hfile hdir hi
    have hind : m (fIndirect d) ≠ 0 := fun h0 => hne (blockAt_none le_rfl h0)
    exact (h.range (.indirect d) _ ⟨hfile, rfl, hind⟩).2

def enlarged (m : Mem) (d : Nat) : Mem := update m (fSize d) (toU32 (size m d + blksize))

include h hd in
lemma Whole.size_enlarged : size (enlarged m d) d = size m d + 4096 := by
  obtain ⟨h0, h1⟩ := h.sizes d hd
  have hmax : size m d ≤ 4235264 := h1
  change toI32 (update m (fSize d) (toU32 (size m d + blksize)) (fSize d)) = _
  rw [update_self, toI32_toU32, blksize_cast]
  exact toI32_of_range (by omega) (by omega)

include h hd hdir in
lemma Whole.search_free : dirSearch nameEmpty d (nblocks (size m d)) 0 none m =
    .ok (((entries m d).find? (nameEmpty m)).elim
      (.missed (if nblocks (size m d) = 0 then none else some (1024 * blockAt m d (nblocks (size m d) - 1)))) .found, m) := by
  have hsearch := h.allocated.search (h.inTree hd) hdir nameEmpty (nblocks (size m d)) (i := 0) none
    (le_of_eq (zero_add _))
  rwa [zero_add] at hsearch

def NoRoom (m : Mem) (d : Nat) : Prop :=
  (∀ i j, i < nblocks (size m d) → j < blkfiles → nameEmpty m (1024 * blockAt m d i + 64 * j) = false) ∧
    nblocks (size m d) < ndirect + nindirect ∧
    needed m d (nblocks (size m d)) (nblocks (size m d) + 1) = freeCount m + 1

include h hd hdir in
lemma Whole.allocFile : ∃ r m', dirAllocFile d m = .ok (r, m') ∧
    ((∃ g, r = .ok g) ∧ ¬ NoRoom m d ∨ r = .error (-eNoDisk) ∧ NoRoom m d ∧ size m' d = size m d + 4096) := by
  obtain ⟨hnblock, hmax, hsize⟩ := h.nblock hd hdir
  unfold dirAllocFile
  rw [hnblock, ok_bind, h.search_free hd hdir, ok_bind]
  cases hfind : (entries m d).find? (nameEmpty m) with
  | some g =>
    refine ⟨_, _, rfl, .inl ⟨⟨g, rfl⟩, fun hroom => ?_⟩⟩
    obtain ⟨i, j, hi, hj, rfl⟩ := mem_entries.1 (List.mem_of_find?_eq_some hfind)
    exact nomatch (List.find?_some hfind).symm.trans (hroom.1 i j hi hj)
  | none =>
    have hfull : ∀ i j, i < nblocks (size m d) → j < blkfiles → nameEmpty m (1024 * blockAt m d i + 64 * j) = false :=
      fun i j hi hj => Bool.eq_false_iff.mpr (List.find?_eq_none.1 hfind _ (mem_entries.2 ⟨i, j, hi, hj, rfl⟩))
    dsimp only [Option.elim]
    have hblocks := sameBlocks_resize h.toOwned hd (toU32 (size m d + blksize))
    have hgrown := h.size_enlarged hd
    unfold enlarged at hgrown
    generalize update m (fSize d) (toU32 (size m d + blksize)) = m1 at hblocks hgrown ⊢
    -- what is left of the search when the walk for the new block fails
    have hstale : NoWalk m1 d (nblocks (size m d)) → nblocks (size m d) ≠ 0 := by
      rintro (hle | ⟨hle, -⟩)
      · exact ne_of_gt (lt_of_lt_of_le (by decide) hle)
      · exact ne_of_gt (lt_of_lt_of_le (by decide) hle)
    by_cases hlast : nblocks (size m d) < ndirect + nindirect
    · obtain ⟨r, blk, m2, hget, hsteps, hcases⟩ := fileGetBlock_room hblocks.owned hblocks.isFile hlast
      rw [needed_congr (show nblocks (size m d) + 1 ≤ ndirect + nindirect from hlast) hblocks.blocks hblocks.indirect,
        hblocks.free] at hcases
      rw [hget, ok_bind]
      dsimp only
      rcases hcases with ⟨hfit, rfl, rfl, -, -⟩ | ⟨hout, rfl, rfl, -⟩ | ⟨hno, rfl, rfl, rfl, hnw⟩
      · refine ⟨.ok (1024 * blockAt m2 d (nblocks (size m d))), m2, rfl, .inl ⟨⟨_, rfl⟩, ?_⟩⟩
        rintro ⟨-, -, hneed⟩
        omega
      · refine ⟨.error (-eNoDisk), m2, rfl, .inr ⟨rfl, ⟨hfull, hlast, hout⟩, ?_⟩⟩
        have hfield := (AttachStep.run hsteps hblocks.owned).size_eq hblocks.isFile
        rw [hfield, hgrown]
      · rw [if_neg (hstale hnw)]
        refine ⟨.ok _, m2, rfl, .inl ⟨⟨_, rfl⟩, ?_⟩⟩
        rintro ⟨-, -, hneed⟩
        omega
    · have hno : NoWalk m1 d (nblocks (size m d)) := .inl (by omega)
      rw [fileGetBlock_noWalk hblocks.owned hblocks.isFile hno, ok_bind, if_neg (hstale hno)]
      exact ⟨.ok _, m1, rfl, .inl ⟨⟨_, rfl⟩, fun hroom => hlast hroom.2.1⟩⟩

end

lemma Whole.walkPath {m : Mem} (h : Whole m) {path : List Nat} (hch : Chars path) :
    ∃ w, Fs.walkPath path m = .ok (w, m) ∧ WalkedRight m w :=
  ⟨_, h.allocated.walkPath_eq hch, ((walkPath_spec h.toOwned hch).ok _ (h.allocated.walkPath_eq hch)).2⟩

def SameDirectories (m m' : Mem) : Prop := ∀ d, IsFile m d → m (fType d) = ftypeDir → size m' d = size m d ∧
  ∀ i j k, i < nblocks (size m d) → j < blkfiles → k < 64 → blockAt m' d i = blockAt m d i ∧
    m' (1024 * blockAt m d i + 64 * j + k) = m (1024 * blockAt m d i + 64 * j + k)

/-- What `file_open` returns. -/
def openResult (path : List Nat) (m : Mem) : Res (Except Int Nat) := (fun out => out.1) <$> fileOpen path m

/-- A `file_create` that fails leaves all directories as they were. -/
def CreateKeeps (path : List Nat) (m : Mem) : Prop := ∀ r m', fileCreate path m = .ok (.error r, m') → r < 0 →
  SameDirectories m m' ∧ ∀ path', Chars path' → openResult path' m' = openResult path' m

/-- The file is to go into a directory that is full, and there is no room for a further block of it. -/
def CreatesInVain (path : List Nat) (m : Mem) : Prop :=
  ∃ w d, walkPath path m = .ok (w, m) ∧ w.r = -eNotFound ∧ w.pdir = some d ∧ NoRoom m d

lemma Whole.createKeeps_iff {m : Mem} (h : Whole m) {path : List Nat} (hch : Chars path) :
    CreateKeeps path m ↔ ¬ CreatesInVain path m := by
  obtain ⟨w, hwalk, hright⟩ := h.walkPath hch
  constructor
  · rintro hkeeps ⟨w', d, hwalk', hr, hpdir, hroom⟩
    cases hwalk.symm.trans hwalk'
    have hne : w.r ≠ 0 := by
      rw [hr]
      decide
    obtain ⟨hd, hdir, -⟩ := hright.dir d hpdir hne
    obtain ⟨r, m', halloc, ⟨-, hnot⟩ | ⟨rfl, -, hsize⟩⟩ := h.allocFile hd hdir
    · exact hnot hroom
    have hrun : fileCreate path m = .ok (.error (-eNoDisk), m') := by
      unfold fileCreate
      rw [hwalk, ok_bind]
      dsimp only
      rw [if_neg hne, hpdir]
      dsimp only
      rw [if_neg (not_not.mpr hr), halloc, ok_bind]
      rfl
    have hsame := ((hkeeps _ _ hrun (by decide)).1 d hd hdir).1
    omega
  · intro hnot r m' hrun _
    have hsame : m' = m := by
      unfold fileCreate at hrun
      rw [hwalk, ok_bind] at hrun
      dsimp only at hrun
      split at hrun
      · cases hrun
        rfl
      · rename_i hne
        cases hpdir : w.pdir with
        | none =>
          rw [hpdir] at hrun
          cases hrun
          rfl
        | some d =>
          rw [hpdir] at hrun
          dsimp only at hrun
          split at hrun
          · cases hrun
            rfl
          · rename_i hr
            obtain ⟨hd, hdir, -⟩ := hright.dir d hpdir hne
            obtain ⟨r', m1, halloc, ⟨⟨g, rfl⟩, -⟩ | ⟨rfl, hroom, -⟩⟩ := h.allocFile hd hdir
            · rw [halloc, ok_bind] at hrun
              dsimp only at hrun
              cases hflush : fileFlush d (setName m1 g w.lastelem) with
              | error e =>
                rw [hflush] at hrun
                cases hrun
              | ok u =>
                rw [hflush] at hrun
                cases hrun
            · exact absurd ⟨w, d, hwalk, not_not.mp hr, hpdir, hroom⟩ hnot
    subst hsame
    exact ⟨fun d _ _ => ⟨rfl, fun _ _ _ _ _ _ => ⟨rfl, rfl⟩⟩, fun _ _ => rfl⟩

/-- A disk of 4 blocks, none of them free: the root has one block, full of empty files `a` to `p`. -/
def packedDisk : Mem := fun w =>
  if w = 1025 then 4
  else if w = 1058 then 4096
  else if w = 1059 then ftypeDir
  else if w = 1060 then 3
  else if 3072 ≤ w ∧ w < 4096 ∧ w % 64 = 0 then 97 + (w - 3072) / 64
  else 0

lemma packedDisk_checked : Checked packedDisk := by decide +kernel

lemma packedDisk_whole : Whole packedDisk := by
  have hblocks : ∀ i < nblocks (size packedDisk root), blockAt packedDisk root i ≠ 0 := by decide
  refine ⟨packedDisk_checked.consistent, fun d hd hdir => ?_, fun d i hd hdir hi => ?_⟩
  · obtain rfl := packedDisk_checked.eq_root hd hdir
    exact ⟨by decide, by decide⟩
  · obtain rfl := packedDisk_checked.eq_root hd hdir
    exact hblocks i hi

/-- A failed `file_create` leaves the directories as they were unless it ran out of blocks for a further block of a full
directory. A failed `file_write` leaves the size as it was unless the call went past the end of the file, and it fails
when the disk runs out of blocks for the data. -/
theorem failed_calls_iff {m : Mem} (h : Whole m) :
    (∀ path, Chars path → (CreateKeeps path m ↔ ¬ CreatesInVain path m)) ∧
    ∀ f, IsFile m f → ∀ cached buf count off, count < 4294967296 → -2147483648 ≤ off ∧ off < 2147483648 →
      (WriteKeepsSize cached buf f count off m ↔ ¬ ExtendsInVain cached buf f count off m) ∧
      ∀ p : Nat, off = p → p + count < 2147483648 →
        ((∃ r m', fileWrite cached buf f count off m = .ok (r, m') ∧ r < 0) ↔
          RunsOut m f (p / 4096) (blockEnd p (p + count))) := by
  refine ⟨fun path hch => h.createKeeps_iff hch, fun f hf cached buf count off hcount hoff =>
    ⟨writeKeepsSize_iff h.toOwned hf cached buf hcount hoff, ?_⟩⟩
  rintro p rfl hmax
  exact fileWrite_fails_iff h.toOwned hf cached buf (h.sizes f hf).1 hmax

theorem failed_calls_packed : CreatesInVain [113] packedDisk ∧ ¬ CreateKeeps [113] packedDisk ∧
    CreateKeeps [97] packedDisk := by
  have hiff := (failed_calls_iff packedDisk_whole).1
  have hvain : CreatesInVain [113] packedDisk := by
    refine ⟨⟨-eNotFound, some root, none, [113]⟩, root, rfl, rfl, rfl, fun i j hi hj => ?_, by decide, by decide⟩
    obtain rfl : i = 0 := by
      change i < 1 at hi
      omega
    revert j
    decide
  refine ⟨hvain, fun h => (hiff _ (by simp [Chars])).mp h hvain, (hiff _ (by simp [Chars])).mpr ?_⟩
  rintro ⟨w, d, hwalk, hr, -⟩
  cases hwalk
  cases hr

/-- On `packedDisk` the call to create `q` fails, and from then on a look at a name that is not there fails too. A write
of one byte to `a` fails as well, and the file is then one byte long. -/
theorem failed_calls_grow : Whole packedDisk ∧ Chars [113] ∧ IsFile packedDisk 3072 ∧
    openResult [113] packedDisk = .ok (.error (-eNotFound)) ∧
    (∃ m', fileCreate [113] packedDisk = .ok (.error (-eNoDisk), m') ∧ size packedDisk root = 4096 ∧ size m' root = 8192 ∧
      openResult [113] m' = .ok (.error (-eNoDisk))) ∧
    ∀ cached buf, ∃ m', fileWrite cached buf 3072 1 0 packedDisk = .ok (-eNoDisk, m') ∧ size packedDisk 3072 = 0 ∧
      size m' 3072 = 1 := by
  refine ⟨packedDisk_whole, by simp [Chars],
    FirstNamed.isFile (by decide), rfl,
    ⟨update packedDisk (fSize root) 8192, rfl, rfl, rfl, rfl⟩,
    fun cached buf => ⟨update packedDisk (fSize 3072) 1, rfl, rfl, rfl⟩⟩

end Jos.Fs
