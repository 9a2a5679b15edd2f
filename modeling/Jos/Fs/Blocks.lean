import Jos.Fs.DirSpec
import Jos.Fs.Image

/-!
# Runs of the file operations keep the bitmap right

`file_create`, `file_set_size` on regular files and `file_get_block` below the
size keep bitmap and references in agreement as long as no size overflows and
`file_create` does not give a name to an entry that still has block numbers.
Without the first condition a full disk on which files are created over and over
ends with a root directory whose size has wrapped around to less than its blocks.
-/

namespace Jos.Fs
open WordMem CInt Ownership
open Relation (ReflTransGen)

inductive Op where
  | create (path : List Nat)
  | setSize (f : Nat) (newsize : Int)
  | getBlock (f bno : Nat)

def Op.Allowed (m : Mem) : Op → Prop
  | .create path => Chars path
  | .setSize f newsize => IsFile m f ∧ m (fType f) ≠ ftypeDir ∧ 0 ≤ newsize ∧ newsize < 2147483648
  | .getBlock f bno => IsFile m f ∧ bno < nblocks (size m f)

def Op.run : Op → Mem → Res Mem
  | .create path, m => (fun out => out.2) <$> fileCreate path m
  | .setSize f newsize, m => (fun out => out.2) <$> fileSetSize f newsize m
  | .getBlock f bno, m => (fun out => out.2.2) <$> fileGetBlock f bno m

/-- No size is negative or overflows, and an unused directory entry has no block numbers. -/
def Op.Careful (m : Mem) : Op → Prop
  | .create _ => Fits m ∧ UnusedBlank 34 m
  | .setSize f _ => 0 ≤ size m f
  | .getBlock _ _ => True

def Step (m m' : Mem) : Prop := ∃ op : Op, op.Allowed m ∧ op.run m = .ok m'

def CarefulStep (m m' : Mem) : Prop := ∃ op : Op, op.Allowed m ∧ op.Careful m ∧ op.run m = .ok m'

lemma fileSetSize_agrees {m : Mem} {f : Nat} {newsize : Int} (ha : Agrees m) (hf : IsFile m f)
    (hreg : m (fType f) ≠ ftypeDir) (h0 : 0 ≤ newsize) (h1 : newsize < 2147483648) (hsize : 0 ≤ size m f)
    {out : Int × Mem} (h : fileSetSize f newsize m = .ok out) : Agrees out.2 := by
  obtain ⟨m1, hset, hrun, hsame, htrunc⟩ := fileSetSize_spec ha.toOwned hf newsize
  cases hset.symm.trans h
  have hlow : -2147483648 ≤ newsize := le_trans (by decide) h0
  by_cases hlt : newsize < size m f
  · obtain ⟨ha1, hblocks⟩ := htrunc hreg hlt ha
    exact agrees_resize (DetachStep.run hrun ha.toOwned hf).isFile ha1 hlow h1 fun i hi hle =>
      (hblocks i hi).trans (if_pos hle)
  · cases hsame hlt
    refine agrees_resize hf ha hlow h1 fun i hi hle => ha.tail f i hf hi ?_
    exact le_trans (nblocks_mono hsize (Int.not_lt.mp hlt) h1) hle

lemma CarefulStep.agrees {m m' : Mem} (h : CarefulStep m m') (ha : Agrees m) : Agrees m' := by
  obtain ⟨op, hallowed, hcareful, hrun⟩ := h
  cases op with
  | create path =>
    obtain ⟨out, hcall, rfl⟩ := map_ok hrun
    obtain ⟨hfit, hu⟩ := hcareful
    exact ((fileCreate_spec ha.toOwned hallowed hu).ok _ hcall).1.agrees hfit ha
  | setSize f newsize =>
    obtain ⟨out, hcall, rfl⟩ := map_ok hrun
    obtain ⟨hf, hreg, h0, h1⟩ := hallowed
    exact fileSetSize_agrees ha hf hreg h0 h1 hcareful hcall
  | getBlock f bno =>
    obtain ⟨out, hcall, rfl⟩ := map_ok hrun
    obtain ⟨hf, hbno⟩ := hallowed
    obtain ⟨r, blk, m1, hget, hsteps, -⟩ := fileGetBlock_spec ha.toOwned hf bno
    cases hget.symm.trans hcall
    exact AttachStep.run_agrees hsteps ha hf hbno

/-- A full disk of 13 blocks: the root has ten blocks of 16 empty files named `a`, but the first file of the
last block is named `c`. `s` is the size of the root. -/
def fullDisk (s c : Nat) : Mem := fun w =>
  if 1070 ≤ w ∧ w % 64 ≠ 0 then 0
  else if w = 1025 then 13
  else if w = 1058 then s
  else if w = 1059 then ftypeDir
  else if 1060 ≤ w ∧ w < 1070 then w - 1057
  else if w = 12288 then c
  else if 3072 ≤ w ∧ w < 13312 ∧ w % 64 = 0 then 97
  else 0

lemma fullDisk_checked : Checked (fullDisk 40960 98) := by decide +kernel

lemma fullDisk_careful (path : List Nat) : (Op.create path).Careful (fullDisk 40960 98) := by
  refine ⟨fun d hd hdir => ?_, fullDisk_checked.unusedBlank (by decide)⟩
  rw [fullDisk_checked.eq_root hd hdir]
  decide

section
variable (s c : Nat)

lemma fullDisk_resize (v : Nat) : Function.update (fullDisk s c) (fSize root) v = fullDisk v c := by
  funext w
  by_cases hw : w = 1058
  · subst hw
    rfl
  · rw [Function.update_of_ne (show w ≠ fSize root from hw)]
    unfold fullDisk
    rw [if_neg hw, if_neg hw]

lemma fullDisk_free (b : Nat) : blockIsFree (fullDisk s c) b = false := by
  by_cases hb : b < 13
  · have hword : bitmapWord b = 2048 := by
      unfold bitmapWord
      omega
    have hbit : fullDisk s c 2048 = 0 := by
      unfold fullDisk
      repeat rw [if_neg (by omega)]
    simp [blockIsFree, hword, hbit, Bits.flag]
  · have hn : sNblocks (fullDisk s c) = 13 := rfl
    simp [blockIsFree, hn, hb]

lemma fullDisk_alloc : allocBlock (fullDisk s c) = none := by
  cases h : allocBlock (fullDisk s c) with
  | none => rfl
  | some p =>
    obtain ⟨b, m'⟩ := p
    have hfree := (allocBlock_some h).2.2.1
    rw [fullDisk_free] at hfree
    cases hfree

lemma fullDisk_byte {i j : Nat} (hc : c < 256) (hi : i < 10) (hj : j < 16) :
    getByte (fullDisk s c) (4 * (1024 * (3 + i) + 64 * j)) = 97 ∨
      getByte (fullDisk s c) (4 * (1024 * (3 + i) + 64 * j)) = c := by
  have hword : fullDisk s c (1024 * (3 + i) + 64 * j) = 97 ∨ fullDisk s c (1024 * (3 + i) + 64 * j) = c := by
    unfold fullDisk
    rw [if_neg (by omega), if_neg (by omega), if_neg (by omega), if_neg (by omega), if_neg (by omega)]
    split
    · exact .inr rfl
    · rw [if_pos (by omega)]
      exact .inl rfl
  unfold getByte byteOf
  rw [Nat.mul_div_cancel_left _ (by decide), Nat.mul_mod_right, Nat.pow_zero, Nat.div_one]
  rcases hword with h | h
  · exact .inl (by rw [h])
  · exact .inr (by rw [h, Nat.mod_eq_of_lt hc])

variable {s c} {n x : Nat}

lemma fullDisk_rename (hc : c < 256) (hx : x < 256) : setName (fullDisk s c) 12288 [x] = fullDisk s x := by
  funext w
  by_cases hw : w = 12288
  · subst hw
    have hword : setName (fullDisk s c) 12288 [x] 12288 = setByte (setByte c 0 x) 1 0 := rfl
    rw [hword, show fullDisk s x 12288 = x from rfl]
    simp only [setByte, byteOf]
    omega
  · rw [setName, putBytes_word _ _ _ (by simp; omega)]
    unfold fullDisk
    rw [if_neg hw, if_neg hw]

section
variable (hc : c = 98 ∨ c = 99)
include hc

lemma fullDisk_owned : Owned (fullDisk s c) := by
  have hlast : Refers (fullDisk 40960 98) (.block root 9) 12 := ⟨.root, by decide, rfl, by decide⟩
  have hname : NameOk [c] := ⟨List.cons_ne_nil _ _, chars_singleton (by omega) (by omega), show 1 < maxnamelen by decide⟩
  have hnamed := owned_setName (j := 0) fullDisk_checked.agrees.toOwned hlast (by decide) hname rfl fun h => absurd h (by decide)
  rw [fullDisk_rename (by decide) (by omega)] at hnamed
  have hsized := owned_resize hnamed .root s
  rwa [fullDisk_resize] at hsized

lemma fullDisk_getBlock (i : Nat) : fileGetBlock root i (fullDisk s c) =
    .ok (if i < 10 then (0, some (1024 * (3 + i)), fullDisk s c) else (1, none, fullDisk s c)) := by
  by_cases hi : i < ndirect
  · have hblock : blockAt (fullDisk s c) root i = 3 + i := by
      rw [blockAt_direct hi]
      unfold ndirect at hi
      unfold fullDisk fDirect root
      rw [if_neg (by omega), if_neg (by omega), if_neg (by omega), if_neg (by omega), if_pos (by omega)]
      omega
    have hn : sNblocks (fullDisk s c) = 13 := rfl
    have h10 : i < 10 := hi
    rw [if_pos h10]
    exact fileGetBlock_present (Nat.lt_add_right _ hi) hblock (by omega) (by omega) fun hle => absurd hi (Nat.not_lt.mpr hle)
  · rw [if_neg (show ¬ i < 10 from hi)]
    exact fileGetBlock_noWalk (fullDisk_owned hc) .root (.inr ⟨Nat.le_of_not_lt hi, rfl, fullDisk_alloc s c⟩)

lemma fullDisk_search {cond : Mem → Nat → Bool}
    (hcond : ∀ i j, i < 10 → j < 16 → cond (fullDisk s c) (1024 * (3 + i) + 64 * j) = false) (hn : 10 ≤ n) :
    dirSearch cond root n 0 none (fullDisk s c) = .ok (.missed (some 12288), fullDisk s c) := by
  have hfind : ∀ i, i < 10 → (List.range blkfiles).find? (fun j => cond (fullDisk s c) (1024 * (3 + i) + 64 * j)) = none := by
    intro i hi
    rw [List.find?_eq_none]
    intro j hj
    simp [hcond i j hi (List.mem_range.mp hj)]
  -- beyond the tenth block every round looks at the last block again
  have hrest : ∀ n i, 10 ≤ i → dirSearch cond root n i (some 12288) (fullDisk s c) =
      .ok (.missed (some 12288), fullDisk s c) := by
    intro n
    induction n with
    | zero => exact fun _ _ => rfl
    | succ n ih =>
      intro i hi
      simp only [dirSearch, fullDisk_getBlock hc, if_neg (show ¬ i < 10 by omega), ok_bind,
        if_neg (show ¬ (1 : Int) < 0 by decide), Option.none_or]
      rw [hfind 9 (by decide)]
      exact ih (i + 1) (by omega)
  have hround : ∀ n i blk, i < 10 → dirSearch cond root (n + 1) i blk (fullDisk s c) =
      dirSearch cond root n (i + 1) (some (1024 * (3 + i))) (fullDisk s c) := by
    intro n i blk hi
    simp only [dirSearch, fullDisk_getBlock hc, if_pos hi, ok_bind, if_neg (show ¬ (0 : Int) < 0 by decide), Option.some_or]
    rw [hfind i hi]
  obtain ⟨n, rfl⟩ := Nat.exists_eq_add_of_le' hn
  rw [hround _ 0 _ (by decide), hround _ 1 _ (by decide), hround _ 2 _ (by decide), hround _ 3 _ (by decide),
    hround _ 4 _ (by decide), hround _ 5 _ (by decide), hround _ 6 _ (by decide), hround _ 7 _ (by decide),
    hround _ 8 _ (by decide), hround _ 9 _ (by decide)]
  exact hrest n 10 (Nat.le_refl 10)

section
variable (hnblock : dirNblock root (fullDisk s c) = .ok n) (hn : 10 ≤ n)
include hnblock hn

lemma fullDisk_walk (hx : x = 98 ∨ x = 99) (hxc : x ≠ c) :
    walkPath [x] (fullDisk s c) = .ok (⟨-eNotFound, some root, none, [x]⟩, fullDisk s c) := by
  have hother : ∀ i j, i < 10 → j < 16 → nameIs [x] (fullDisk s c) (1024 * (3 + i) + 64 * j) = false := by
    intro i j hi hj
    rw [nameIs, beq_eq_false_iff_ne]
    intro heq
    have hfirst : getByte (fullDisk s c) (4 * (1024 * (3 + i) + 64 * j)) = x :=
      (List.cons.inj heq).1
    have := fullDisk_byte s c (by omega) hi hj
    omega
  have hlookup : dirLookup root [x] (fullDisk s c) = .ok (.error (-eNotFound), fullDisk s c) := by
    unfold dirLookup
    rw [hnblock, ok_bind, fullDisk_search hc hother hn]
    rfl
  have hb : (x == slash) = false := beq_eq_false_iff_ne.mpr (by unfold slash; omega)
  have hskip : skipSlash [x] = [x] := by simp [skipSlash, hb]
  have htake : [x].takeWhile (· != slash) = [x] := by simp [bne, hb]
  have hdrop : [x].dropWhile (· != slash) = [] := by simp [bne, hb]
  have htype : ¬ fullDisk s c (fType root) ≠ ftypeDir := fun h => h rfl
  unfold walkPath
  rw [hskip, List.length_singleton]
  unfold walkLoop
  dsimp only
  rw [htake, hdrop, if_neg (List.cons_ne_nil _ _), if_neg (by simp [maxnamelen]), if_neg htype, hlookup, ok_bind]
  rfl

lemma fullDisk_allocFile :
    dirAllocFile root (fullDisk s c) = .ok (.ok 12288, fullDisk (toU32 (toI32 s + blksize)) c) := by
  have hused : ∀ i j, i < 10 → j < 16 → nameEmpty (fullDisk s c) (1024 * (3 + i) + 64 * j) = false := by
    intro i j hi hj
    rw [nameEmpty, beq_eq_false_iff_ne]
    have := fullDisk_byte s c (by omega) hi hj
    omega
  unfold dirAllocFile
  rw [hnblock, ok_bind, fullDisk_search hc hused hn, ok_bind]
  dsimp only
  rw [fullDisk_resize, fullDisk_getBlock hc, if_neg (by omega), ok_bind]
  rfl

/-- `file_create` in the full root gives the first file of its last block another name and adds a block to
the size. -/
theorem fullDisk_create (hx : x = 98 ∨ x = 99) (hxc : x ≠ c) :
    fileCreate [x] (fullDisk s c) = .ok (.ok 12288, fullDisk (toU32 (toI32 s + blksize)) x) := by
  unfold fileCreate
  rw [fullDisk_walk hc hnblock hn hx hxc, ok_bind]
  dsimp only
  rw [if_neg (by decide), if_neg (fun h => h rfl), fullDisk_allocFile hc hnblock hn, ok_bind]
  dsimp only
  rw [fullDisk_rename (by omega) (by omega), fileFlush_ok (fullDisk_owned hx) .root]
  rfl

end

end

/-- The number of blocks that the directory functions find for a size of `q` blocks, as a signed number. -/
theorem fullDisk_rounds {q : Nat} (hq0 : 10 ≤ q) (hq : q < 1048576) (c : Nat) :
    ∃ n, dirNblock root (fullDisk (4096 * q) c) = .ok n ∧ 10 ≤ n := by
  have hwrap : ∃ z : Int, toI32 (4096 * q : Nat) = 4096 * z ∧ (z = q ∨ z = q - 1048576) := by
    rw [toI32_eq]
    split
    · exact ⟨q, by omega, .inl rfl⟩
    · exact ⟨q - 1048576, by omega, .inr rfl⟩
  obtain ⟨z, hz, hzq⟩ := hwrap
  refine ⟨toU32 z, ?_, ?_⟩
  · have hsize : size (fullDisk (4096 * q) c) root = toI32 (4096 * q : Nat) := rfl
    rw [dirNblock, hsize, hz, blksize_cast, if_pos (Int.mul_tmod_right ..), Int.mul_tdiv_cancel_left _ (by decide)]
  · have hcast := toU32_cast z
    omega

lemma fullDisk_op {q : Nat} (hq0 : 10 ≤ q) (hq : q + 1 < 1048576) (hc : c = 98 ∨ c = 99) (hx : x = 98 ∨ x = 99)
    (hxc : x ≠ c) : (Op.create [x]).run (fullDisk (4096 * q) c) = .ok (fullDisk (4096 * (q + 1)) x) := by
  obtain ⟨n, hnblock, hn⟩ := fullDisk_rounds hq0 (by omega) c
  have hsize : toU32 (toI32 (4096 * q : Nat) + blksize) = 4096 * (q + 1) := by
    have hmod := toI32_mod (4096 * q : Nat)
    have hcast := toU32_cast (toI32 (4096 * q : Nat) + blksize)
    rw [blksize_cast] at hcast ⊢
    omega
  have hcreate := fullDisk_create hc hnblock hn hx hxc
  rw [hsize] at hcreate
  simp only [Op.run, hcreate]
  rfl

/-- Creating `c` and `b` in turn, the size of the root reaches every number of blocks below `2^20`. -/
theorem fullDisk_run {q : Nat} (hq0 : 10 ≤ q) (hq : q < 1048576) :
    ReflTransGen Step (fullDisk 40960 98) (fullDisk (4096 * q) (98 + q % 2)) := by
  induction q, hq0 using Nat.le_induction with
  | base => exact .refl
  | succ q hq0 ih =>
    exact (ih (by omega)).tail ⟨.create [98 + (q + 1) % 2], chars_singleton (by omega) (by omega),
      fullDisk_op hq0 hq (by omega) (by omega) (by omega)⟩

end

/-- Bitmap and references agree after every run of careful operations. -/
theorem blocks_owned {m0 m : Mem} (ha : Agrees m0) (hrun : ReflTransGen CarefulStep m0 m) : Agrees m := by
  induction hrun with
  | refl => exact ha
  | tail _ hstep ih => exact hstep.agrees ih

theorem blocks_owned_create : Agrees (fullDisk 40960 98) ∧ CarefulStep (fullDisk 40960 98) (fullDisk 45056 99) ∧
    Agrees (fullDisk 45056 99) := by
  have hstep : CarefulStep (fullDisk 40960 98) (fullDisk 45056 99) :=
    ⟨.create [99], chars_singleton (by decide) (by decide), fullDisk_careful _,
      fullDisk_op (q := 10) (by decide) (by decide) (.inl rfl) (.inr rfl) (by decide)⟩
  exact ⟨fullDisk_checked.agrees, hstep, blocks_owned fullDisk_checked.agrees (.single hstep)⟩

/-- The size of the root wraps around: it has no block by its size, but ten block numbers. -/
theorem root_size_wraps : ∃ m, Agrees (fullDisk 40960 98) ∧ ReflTransGen Step (fullDisk 40960 98) m ∧
    size m root = -4096 ∧ nblocks (size m root) = 0 ∧ blockAt m root 0 = 3 ∧ ¬ Agrees m := by
  have hsize : size (fullDisk (4096 * 1048575) 99) root = -4096 := by
    rw [show size (fullDisk (4096 * 1048575) 99) root = toI32 (4096 * 1048575 : Nat) from rfl]
    decide
  have hnone : nblocks (-4096) = 0 := by decide
  have hblock : blockAt (fullDisk (4096 * 1048575) 99) root 0 = 3 := rfl
  refine ⟨fullDisk (4096 * 1048575) 99, fullDisk_checked.agrees,
    fullDisk_run (by decide) (by decide), hsize, by rw [hsize, hnone], hblock, fun ha => ?_⟩
  have htail := ha.tail root 0 .root (by decide) (by rw [hsize, hnone])
  rw [hblock] at htail
  cases htail

end Jos.Fs
