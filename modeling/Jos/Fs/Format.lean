import Jos.Fs.Tree

/-!
# Formatting a disk

`fsformat` lays out a disk image in one pass over its input files. Its memory is one word
memory: the mapped disk from word 0, and from word `heap` on the directory entries that
`startdir` has got from `malloc`, with whatever was there before.
-/

namespace Jos.Fs
open CInt WordMem Function

variable {b n nb w : Nat} {m : Mem}

def maxDirEnts : Nat := 128
def fsMagic : Nat := 0x4A0530AE

/-- The macro `ROUNDUP(n, BLKSIZE)` at type `uint32_t`, and at type `int`. -/
def roundupU32 (n : Nat) : Nat := toU32 (toU32 (n - 1) + blksize - (toU32 (n - 1) % blksize : Nat))
def roundupInt (n : Int) : Int := toI32 (n - 1 + blksize - (n - 1).tmod blksize)

def baseName (path : List Nat) : List Nat := (path.reverse.takeWhile (· != slash)).reverse

structure HostFile where
  path : List Nat
  data : List Nat
  chars : ∀ c ∈ path, c ≠ 0 ∧ c < 256
  base : baseName path ≠ []
  bytes : ∀ b ∈ data, b < 256

def HostFile.name (F : HostFile) : List Nat := baseName F.path

def heap : Nat := 0x100000

structure Fmt where
  mem : Mem
  diskpos : Nat
  nblocks : Nat

def alloc (bytes : Nat) (s : Fmt) : Res (Nat × Fmt) :=
  let pos := s.diskpos + roundupU32 bytes
  if s.nblocks ≤ pos / blksize then .error (.panic "out of disk blocks")
  else .ok (s.diskpos, { s with diskpos := pos })

def strcpy (m : Mem) (a : Nat) (str : List Nat) : Mem := putBytes m a (str ++ [0])

def opendisk (nblocks : Nat) (garbage : Mem) : Res Fmt := do
  let s : Fmt := ⟨fun w => if w < heap then 0 else garbage w, 0, nblocks⟩
  let (_, s) ← alloc blksize s
  let (super, s) ← alloc blksize s
  let m := update s.mem (super / 4) fsMagic
  let m := update m (super / 4 + 1) nblocks
  let m := update m (fType (super / 4 + 2)) ftypeDir
  let m := strcpy m (super + 8) [slash]
  let nbitblocks := (nblocks + blkbitsize - 1) / blkbitsize
  let (bitmap, s) ← alloc (nbitblocks * blksize) s
  return { s with mem := fun w => if bitmap / 4 ≤ w ∧ w < bitmap / 4 + 1024 * nbitblocks then 0xFFFFFFFF else m w }

/-- `a[i] = v + i` for `i < n`. -/
def storeRun (a v : Nat) : Nat → Mem → Mem
  | 0, m => m
  | n + 1, m => storeRun (a + 1) (v + 1) n (update m a v)

def finishfile (f start len : Nat) (s : Fmt) : Res Fmt := do
  let m := update s.mem (fSize f) len
  let n := roundupU32 len / blksize
  let m := storeRun (fDirect f 0) start (min n ndirect) m
  let s := { s with mem := m }
  if min n ndirect = ndirect then
    let (ind, s) ← alloc blksize s
    let m := update s.mem (fIndirect f) (ind / blksize)
    return { s with mem := storeRun (ind / 4) (start + ndirect) (n - ndirect) m }
  else return s

def diradd (n type : Nat) (name : List Nat) (s : Fmt) : Res (Nat × Fmt) :=
  if maxDirEnts < n + 1 then .error (.panic "too many directory entries")
  else if maxDirEnts * 256 < 256 * n + name.length + 1 then .error .wild
  else
    let out := heap + 64 * n
    let m := strcpy s.mem (4 * out) name
    .ok (out, { s with mem := update m (fType out) type })

def writefile (n : Nat) (F : HostFile) (s : Fmt) : Res Fmt := do
  if maxfilesize ≤ F.data.length then .error (.panic "too large")
  else
    let (f, s) ← diradd n ftypeReg F.name s
    let (start, s) ← alloc F.data.length s
    let s := { s with mem := putBytes s.mem start F.data }
    finishfile f (start / blksize) F.data.length s

def writefiles : Nat → List HostFile → Fmt → Res Fmt
  | _, [], s => .ok s
  | n, F :: files, s => do
    let s ← writefile n F s
    writefiles (n + 1) files s

def finishdir (n : Nat) (s : Fmt) : Res Fmt := do
  let size := n * 256
  let (start, s) ← alloc size s
  let m : Mem := fun w => if start / 4 ≤ w ∧ w < start / 4 + size / 4 then s.mem (heap + (w - start / 4)) else s.mem w
  finishfile root (start / blksize) (toU32 (roundupInt size)) { s with mem := m }

def finishdisk (s : Fmt) : Mem := (List.range (s.diskpos / blksize)).foldl takeBlock s.mem

/-- The image written for a disk of `nblocks` blocks; `main` refuses other numbers than 2 to 1024. -/
def fsformat (nblocks : Nat) (garbage : Mem) (files : List HostFile) : Res Mem := do
  if nblocks < 2 ∨ 1024 < nblocks then .error (.panic "Usage: fsformat fs.img NBLOCKS files...")
  else
    let s ← opendisk nblocks garbage
    let s ← writefiles 0 files s
    let s ← finishdir files.length s
    let m := finishdisk s
    return fun w => if w < 1024 * nblocks then m w else 0

/-! ## Where everything goes -/

def HostFile.blocks (F : HostFile) : Nat := (F.data.length + 4095) / 4096

/-- The blocks of the file and its indirect block; a file of ten blocks has one, with no entries. -/
def HostFile.span (F : HostFile) : Nat := F.blocks + if ndirect ≤ F.blocks then 1 else 0

def startOf (files : List HostFile) (k : Nat) : Nat := 3 + ((files.take k).map HostFile.span).sum

def dirStart (files : List HostFile) : Nat := startOf files files.length

def dirBlocks (files : List HostFile) : Nat := (files.length + 15) / 16

def named : Nat → List HostFile → Mem → Mem
  | _, [], m => m
  | n, F :: files, m => named (n + 1) files (strcpy m (4 * (heap + 64 * n)) F.name)

/-- The slots `f_direct[j]`, and with `j = NDIRECT` the field `f_indirect`, that `finishfile` does not set. -/
def HostFile.Spare (F : HostFile) (j : Nat) : Prop := j ≤ ndirect ∧ F.blocks ≤ j ∧ F.blocks < ndirect

structure FileLaid (m : Mem) (f b : Nat) (F : HostFile) : Prop where
  size : m (fSize f) = F.data.length
  type : m (fType f) = ftypeReg
  direct : ∀ i, i < F.blocks → i < ndirect → m (fDirect f i) = b + i
  indirect : ndirect ≤ F.blocks → m (fIndirect f) = b + F.blocks
  entries : ndirect ≤ F.blocks → ∀ j, j < 1024 →
    m (1024 * (b + F.blocks) + j) = if ndirect + j < F.blocks then b + ndirect + j else 0
  data : ∀ j, j < F.data.length → getByte m (4096 * b + j) = F.data[j]?.getD 0
  name : ∀ j, j < maxnamelen → j ≤ F.name.length → getByte m (4 * f + j) = (F.name ++ [0])[j]?.getD 0

section

lemma roundupU32_eq (h : n < 2 ^ 31) : roundupU32 n = 4096 * ((n + 4095) / 4096) := by
  unfold roundupU32 toU32 blksize
  omega

lemma roundupInt_eq (h : n ≤ 128) :
    toU32 (roundupInt (n * 256 : Nat)) = 4096 * if n = 0 then 1 else (n + 15) / 16 := by
  interval_cases n <;> decide

lemma storeRun_apply (a v n : Nat) (m : Mem) (w : Nat) :
    storeRun a v n m w = if a ≤ w ∧ w < a + n then v + (w - a) else m w := by
  induction n generalizing a v m with
  | zero =>
    rw [if_neg (by omega)]
    rfl
  | succ n ih =>
    rw [storeRun, ih]
    by_cases hw : w = a
    · subst hw
      rw [if_neg (by omega), if_pos (by omega), update_self]
      omega
    · rw [update_of_ne hw]
      by_cases h : a + 1 ≤ w ∧ w < a + 1 + n
      · rw [if_pos h, if_pos (by omega)]
        omega
      · rw [if_neg h, if_neg (by omega)]

lemma putBytes_congr {m' : Mem} (h : m' w = m w) (a : Nat) (bs : List Nat) :
    putBytes m' a bs w = putBytes m a bs w := by
  induction bs generalizing a m m' with
  | nil => exact h
  | cons b bs ih =>
    refine ih ?_ (a + 1)
    unfold putByte
    by_cases hw : w = a / 4
    · subst hw
      rw [update_self, update_self, h]
    · rw [update_of_ne hw, update_of_ne hw, h]

lemma alloc_eq (m : Mem) (b nb : Nat) {bytes : Nat} (hbytes : bytes < 2 ^ 31) :
    alloc bytes ⟨m, blksize * b, nb⟩ = if nb ≤ b + (bytes + 4095) / 4096 then .error (.panic "out of disk blocks")
      else .ok (blksize * b, ⟨m, blksize * (b + (bytes + 4095) / 4096), nb⟩) := by
  unfold alloc
  have hr : blksize * b + roundupU32 bytes = blksize * (b + (bytes + 4095) / 4096) := by
    rw [roundupU32_eq hbytes]
    unfold blksize
    omega
  dsimp only
  rw [hr, Nat.mul_div_cancel_left _ (show 0 < blksize by decide)]

def fileMem (n : Nat) (F : HostFile) (b : Nat) (m : Mem) : Mem :=
  let f := heap + 64 * n
  let m := update (strcpy m (4 * f) F.name) (fType f) ftypeReg
  let m := update (putBytes m (blksize * b) F.data) (fSize f) F.data.length
  let m := storeRun (fDirect f 0) b (min F.blocks ndirect) m
  if ndirect ≤ F.blocks then
    storeRun (1024 * (b + F.blocks)) (b + ndirect) (F.blocks - ndirect) (update m (fIndirect f) (b + F.blocks))
  else m

lemma finishfile_eq (m : Mem) (b nb f start : Nat) {len : Nat} (hlen : len < 2 ^ 31) :
    finishfile f start len ⟨m, blksize * b, nb⟩ =
      let n := (len + 4095) / 4096
      let m := storeRun (fDirect f 0) start (min n ndirect) (update m (fSize f) len)
      if ndirect ≤ n then
        if nb ≤ b + 1 then .error (.panic "out of disk blocks")
        else .ok ⟨storeRun (1024 * b) (start + ndirect) (n - ndirect) (update m (fIndirect f) b),
          blksize * (b + 1), nb⟩
      else .ok ⟨m, blksize * b, nb⟩ := by
  have hn : roundupU32 len / blksize = (len + 4095) / 4096 := by
    rw [roundupU32_eq hlen]
    exact Nat.mul_div_cancel_left _ (by decide)
  unfold finishfile
  rw [hn]
  dsimp only
  by_cases hind : ndirect ≤ (len + 4095) / 4096
  · rw [if_pos (min_eq_right hind), if_pos hind, alloc_eq _ _ _ (by decide)]
    have hone : (blksize + 4095) / 4096 = 1 := by decide
    rw [hone]
    by_cases hfull : nb ≤ b + 1
    · rw [if_pos hfull, if_pos hfull]
      rfl
    · rw [if_neg hfull, if_neg hfull, ok_bind]
      have h1 : blksize * b / blksize = b := Nat.mul_div_cancel_left _ (by decide)
      have h2 : blksize * b / 4 = 1024 * b := by
        unfold blksize
        omega
      simp only [h1, h2]
      rfl
  · rw [if_neg (by omega), if_neg hind]
    rfl

lemma writefile_ok {F : HostFile} {s' : Fmt} :
    writefile n F ⟨m, blksize * b, nb⟩ = .ok s' ↔ F.data.length < maxfilesize ∧ n < maxDirEnts ∧
      256 * n + F.name.length + 1 ≤ maxDirEnts * 256 ∧ b + F.span < nb ∧
      s' = ⟨fileMem n F b m, blksize * (b + F.span), nb⟩ := by
  unfold writefile diradd
  by_cases hsize : maxfilesize ≤ F.data.length
  · rw [if_pos hsize]
    constructor
    · intro h
      cases h
    · rintro ⟨h, -⟩
      omega
  rw [if_neg hsize]
  by_cases hn : maxDirEnts < n + 1
  · rw [if_pos hn]
    constructor
    · intro h
      cases h
    · rintro ⟨-, h, -⟩
      omega
  rw [if_neg hn]
  by_cases hname : maxDirEnts * 256 < 256 * n + F.name.length + 1
  · rw [if_pos hname]
    constructor
    · intro h
      cases h
    · rintro ⟨-, -, h, -⟩
      omega
  rw [if_neg hname, ok_bind]
  dsimp only
  have hmax : maxfilesize < 2 ^ 31 := by decide
  rw [alloc_eq _ _ _ (by omega)]
  have hblocks : (F.data.length + 4095) / 4096 = F.blocks := rfl
  have hb : blksize * b / blksize = b := Nat.mul_div_cancel_left _ (by decide)
  rw [hblocks]
  by_cases hfull : nb ≤ b + F.blocks
  · rw [if_pos hfull]
    constructor
    · intro h
      cases h
    · rintro ⟨-, -, -, h, -⟩
      unfold HostFile.span at h
      omega
  rw [if_neg hfull, ok_bind]
  dsimp only
  rw [hb, finishfile_eq _ _ _ _ _ (by omega), hblocks]
  dsimp only
  unfold fileMem HostFile.span
  by_cases hind : ndirect ≤ F.blocks
  · simp only [if_pos hind]
    by_cases hfull' : nb ≤ b + F.blocks + 1
    · rw [if_pos hfull']
      constructor
      · intro h
        cases h
      · rintro ⟨-, -, -, h, -⟩
        omega
    · rw [if_neg hfull']
      constructor
      · intro h
        cases h
        exact ⟨by omega, by omega, by omega, by omega, rfl⟩
      · rintro ⟨-, -, -, -, rfl⟩
        rfl
  · simp only [if_neg hind]
    constructor
    · intro h
      cases h
      exact ⟨by omega, by omega, by omega, by omega, rfl⟩
    · rintro ⟨-, -, -, -, rfl⟩
      rfl

lemma fileMem_disk {F : HostFile} (hw : w < heap) (m : Mem) : fileMem n F b m w =
      if ndirect ≤ F.blocks ∧ 1024 * (b + F.blocks) ≤ w ∧ w < 1024 * (b + F.blocks) + (F.blocks - ndirect)
      then b + ndirect + (w - 1024 * (b + F.blocks)) else putBytes m (blksize * b) F.data w := by
  have hm : storeRun (fDirect (heap + 64 * n) 0) b (min F.blocks ndirect)
      (update (putBytes (update (strcpy m (4 * (heap + 64 * n)) F.name) (fType (heap + 64 * n)) ftypeReg)
        (blksize * b) F.data) (fSize (heap + 64 * n)) F.data.length) w = putBytes m (blksize * b) F.data w := by
    rw [storeRun_apply, if_neg (by unfold fDirect; omega), update_of_ne (by unfold fSize; omega)]
    refine putBytes_congr ?_ _ _
    rw [update_of_ne (by unfold fType; omega)]
    exact putBytes_word _ _ _ (.inl (by omega))
  unfold fileMem
  by_cases hind : ndirect ≤ F.blocks
  · rw [if_pos hind, storeRun_apply]
    by_cases h : 1024 * (b + F.blocks) ≤ w ∧ w < 1024 * (b + F.blocks) + (F.blocks - ndirect)
    · rw [if_pos h, if_pos ⟨hind, h⟩]
    · rw [if_neg h, if_neg (fun h' => h h'.2), update_of_ne (by unfold fIndirect; omega), hm]
  · rw [if_neg hind, if_neg (fun h' => hind h'.1), hm]

lemma HostFile.blocks_le_span (F : HostFile) : F.blocks ≤ F.span := Nat.le_add_right _ _

lemma HostFile.length_le (F : HostFile) : F.data.length ≤ 4096 * F.blocks := by
  unfold HostFile.blocks
  omega

lemma fileMem_heap {F : HostFile} (hb : b + F.span ≤ 1024) (hw : heap ≤ w) (m : Mem) : fileMem n F b m w =
      let f := heap + 64 * n
      if ndirect ≤ F.blocks ∧ w = fIndirect f then b + F.blocks
      else if fDirect f 0 ≤ w ∧ w < fDirect f 0 + min F.blocks ndirect then b + (w - fDirect f 0)
      else if w = fSize f then F.data.length
      else if w = fType f then ftypeReg
      else strcpy m (4 * f) F.name w := by
  have hspan := F.blocks_le_span
  have hlen := F.length_le
  have hm : ∀ m' : Mem, putBytes m' (blksize * b) F.data w = m' w := by
    intro m'
    refine putBytes_word _ _ _ (.inr ?_)
    have : heap = 1024 * 1024 := rfl
    unfold blksize
    omega
  have hrest : storeRun (fDirect (heap + 64 * n) 0) b (min F.blocks ndirect)
      (update (putBytes (update (strcpy m (4 * (heap + 64 * n)) F.name) (fType (heap + 64 * n)) ftypeReg)
        (blksize * b) F.data) (fSize (heap + 64 * n)) F.data.length) w =
      if fDirect (heap + 64 * n) 0 ≤ w ∧ w < fDirect (heap + 64 * n) 0 + min F.blocks ndirect
      then b + (w - fDirect (heap + 64 * n) 0)
      else if w = fSize (heap + 64 * n) then F.data.length
      else if w = fType (heap + 64 * n) then ftypeReg
      else strcpy m (4 * (heap + 64 * n)) F.name w := by
    rw [storeRun_apply, update_apply, hm, update_apply]
  unfold fileMem
  dsimp only
  by_cases hind : ndirect ≤ F.blocks
  · have hone : F.span = F.blocks + 1 := by
      unfold HostFile.span
      rw [if_pos hind]
    have hbound : F.blocks ≤ 1024 := by omega
    have : heap = 1024 * 1024 := rfl
    rw [if_pos hind, storeRun_apply, if_neg (by omega), update_apply]
    by_cases h : w = fIndirect (heap + 64 * n)
    · rw [if_pos h, if_pos ⟨hind, h⟩]
    · rw [if_neg h, if_neg (fun h' => h h'.2), hrest]
  · rw [if_neg hind, if_neg (fun h' => hind h'.1), hrest]

end

section
variable {n b : Nat} {F : HostFile} {m m' : Mem}

lemma getByte_strcpy {f j : Nat} (hj : j ≤ F.name.length) (m : Mem) :
    getByte (strcpy m (4 * f) F.name) (4 * f + j) = (F.name ++ [0])[j]?.getD 0 := by
  unfold strcpy
  have hlen : (F.name ++ [0]).length = F.name.length + 1 := by simp
  rw [getByte_putBytes, if_pos ⟨by omega, by omega⟩, Nat.add_sub_cancel_left]
  refine Nat.mod_eq_of_lt ?_
  have hmem : ∀ c ∈ F.name ++ [0], c < 256 := by
    intro c hc
    rcases List.mem_append.mp hc with hc | hc
    · refine (F.chars c ?_).2
      exact List.mem_reverse.mp ((List.takeWhile_sublist _).subset (List.mem_reverse.mp hc))
    · rw [List.mem_singleton.mp hc]
      decide
  rw [List.getElem?_eq_getElem (by omega), Option.getD_some]
  exact hmem _ (List.getElem_mem _)

lemma FileLaid.of_fileMem (hb : b + F.span ≤ 1024) (hfresh : ∀ w, 1024 * b ≤ w → w < heap → m w = 0) :
    FileLaid (fileMem n F b m) (heap + 64 * n) b F := by
  have hspan := F.blocks_le_span
  have hlen := F.length_le
  have hheap : heap = 1024 * 1024 := rfl
  refine ⟨?_, ?_, fun i hi hi' => ?_, fun hind => ?_, fun hind j hj => ?_, fun j hj => ?_, fun j hj hj' => ?_⟩
  · rw [fileMem_heap hb (by unfold fSize; omega)]
    dsimp only
    rw [if_neg (by unfold fSize fIndirect; omega), if_neg (by unfold fSize fDirect; omega), if_pos rfl]
  · rw [fileMem_heap hb (by unfold fType; omega)]
    dsimp only
    rw [if_neg (by unfold fType fIndirect; omega), if_neg (by unfold fType fDirect; omega),
      if_neg (by unfold fType fSize; omega), if_pos rfl]
  · rw [fileMem_heap hb (by unfold fDirect; omega)]
    dsimp only
    have : ndirect = 10 := rfl
    rw [if_neg (by unfold fDirect fIndirect; omega), if_pos (by unfold fDirect; omega)]
    unfold fDirect
    omega
  · rw [fileMem_heap hb (by unfold fIndirect; omega)]
    dsimp only
    rw [if_pos ⟨hind, rfl⟩]
  · have hone : F.span = F.blocks + 1 := by
      unfold HostFile.span
      rw [if_pos hind]
    rw [fileMem_disk (by omega)]
    by_cases h : ndirect + j < F.blocks
    · rw [if_pos (by omega), if_pos h]
      omega
    · rw [if_neg (by omega), if_neg h]
      have hfull : blksize * b + F.data.length ≤ 4 * (1024 * (b + F.blocks) + j) := by
        unfold blksize
        omega
      rw [putBytes_word _ _ _ (.inr hfull)]
      exact hfresh _ (by omega) (by omega)
  · have hw : (4096 * b + j) / 4 < 1024 * (b + F.blocks) := by omega
    have hword : fileMem n F b m ((4096 * b + j) / 4) = putBytes m (blksize * b) F.data ((4096 * b + j) / 4) := by
      rw [fileMem_disk (by omega), if_neg (by omega)]
    rw [getByte_congr hword, getByte_putBytes, if_pos (by unfold blksize; omega)]
    have hj' : 4096 * b + j - blksize * b = j := Nat.add_sub_cancel_left ..
    rw [hj', List.getElem?_eq_getElem hj, Option.getD_some]
    exact Nat.mod_eq_of_lt (F.bytes _ (List.getElem_mem _))
  · have hword : fileMem n F b m ((4 * (heap + 64 * n) + j) / 4) =
        strcpy m (4 * (heap + 64 * n)) F.name ((4 * (heap + 64 * n) + j) / 4) := by
      have : maxnamelen = 128 := rfl
      rw [fileMem_heap hb (by omega)]
      dsimp only
      rw [if_neg (by unfold fIndirect; omega), if_neg (by unfold fDirect; omega), if_neg (by unfold fSize; omega),
        if_neg (by unfold fType; omega)]
    rw [getByte_congr hword]
    exact getByte_strcpy hj' m

lemma FileLaid.congr {f f' : Nat} (h : FileLaid m f b F) (hentry : ∀ k, k < 45 → m' (f' + k) = m (f + k))
    (hblocks : ∀ w, 1024 * b ≤ w → w < 1024 * (b + F.span) → m' w = m w) : FileLaid m' f' b F := by
  have hspan := F.blocks_le_span
  have hlen := F.length_le
  refine ⟨?_, ?_, fun i hi hi' => ?_, fun hind => ?_, fun hind j hj => ?_, fun j hj => ?_, fun j hj hj' => ?_⟩
  · exact (hentry 32 (by decide)).trans h.size
  · exact (hentry 33 (by decide)).trans h.type
  · have : ndirect = 10 := rfl
    have hd := h.direct i hi hi'
    unfold fDirect at hd ⊢
    rw [add_assoc, hentry (34 + i) (by omega), ← add_assoc]
    exact hd
  · exact (hentry 44 (by decide)).trans (h.indirect hind)
  · have hone : F.span = F.blocks + 1 := by
      unfold HostFile.span
      rw [if_pos hind]
    rw [hblocks _ (by omega) (by omega)]
    exact h.entries hind j hj
  · rw [getByte_congr (hblocks _ (by omega) (by omega))]
    exact h.data j hj
  · have hbyte : getByte m' (4 * f' + j) = getByte m (4 * f + j) := by
      have : maxnamelen = 128 := rfl
      unfold getByte
      rw [Nat.mul_add_div (by decide), Nat.mul_add_div (by decide), Nat.mul_add_mod, Nat.mul_add_mod,
        hentry (j / 4) (by omega)]
    rw [hbyte]
    exact h.name j hj hj'

end

section
variable {files rest : List HostFile} {F : HostFile} {k : Nat}

lemma startOf_append (h : k ≤ files.length) : startOf (files ++ rest) k = startOf files k := by
  unfold startOf
  rw [List.take_append_of_le_length h]

lemma startOf_succ (h : files[k]? = some F) : startOf files (k + 1) = startOf files k + F.span := by
  unfold startOf
  rw [List.take_add_one, h, List.map_append, List.sum_append]
  simp [add_assoc]

lemma startOf_mono {k' : Nat} (h : k ≤ k') : startOf files k ≤ startOf files k' := by
  induction h with
  | refl => exact le_rfl
  | @step k' _ ih =>
    refine ih.trans ?_
    unfold startOf
    rw [List.take_add_one, List.map_append, List.sum_append]
    omega

lemma startOf_end (h : files[k]? = some F) : startOf files k + F.span ≤ dirStart files := by
  rw [← startOf_succ h]
  exact startOf_mono (List.getElem?_eq_some_iff.mp h).1

lemma dirStart_snoc (files : List HostFile) (F : HostFile) : dirStart (files ++ [F]) = dirStart files + F.span := by
  have hF : (files ++ [F])[files.length]? = some F := by simp
  unfold dirStart
  rw [List.length_append, List.length_singleton, startOf_succ hF, startOf_append le_rfl]

lemma named_snoc (n : Nat) (files : List HostFile) (F : HostFile) (m : Mem) :
    named n (files ++ [F]) m = strcpy (named n files m) (4 * (heap + 64 * (n + files.length))) F.name := by
  induction files generalizing n m with
  | nil => rfl
  | cons G files ih =>
    rw [List.cons_append, named, ih, named, List.length_cons]
    rw [show n + 1 + files.length = n + (files.length + 1) by omega]

lemma strcpy_below {a : Nat} (h : w < a) (m : Mem) (str : List Nat) : strcpy m (4 * a) str w = m w :=
  putBytes_word _ _ _ (.inl (by omega))

end

def openMem (nblocks : Nat) (garbage : Mem) : Mem :=
  let m : Mem := fun w => if w < heap then 0 else garbage w
  let m := update (update (update m 1024 fsMagic) 1025 nblocks) (fType root) ftypeDir
  let m := strcpy m (4 * root) [slash]
  fun w => if 2048 ≤ w ∧ w < 3072 then 0xFFFFFFFF else m w

lemma opendisk_eq (h2 : 2 ≤ nb) (h1024 : nb ≤ 1024) (garbage : Mem) :
    opendisk nb garbage = if nb < 4 then .error (.panic "out of disk blocks")
      else .ok ⟨openMem nb garbage, blksize * 3, nb⟩ := by
  have hone : (blksize + 4095) / 4096 = 1 := by decide
  have hbits : (nb + blkbitsize - 1) / blkbitsize = 1 := by
    unfold blkbitsize
    omega
  have hb0 : (⟨fun w => if w < heap then 0 else garbage w, 0, nb⟩ : Fmt) =
    ⟨fun w => if w < heap then 0 else garbage w, blksize * 0, nb⟩ := rfl
  unfold opendisk
  rw [hb0, hbits]
  dsimp only
  rw [one_mul, alloc_eq _ _ _ (by decide), hone, if_neg (by omega), ok_bind]
  dsimp only
  rw [alloc_eq _ _ _ (by decide), hone]
  by_cases h3 : nb ≤ 2
  · rw [if_pos h3, if_pos (by omega)]
    rfl
  rw [if_neg h3, ok_bind]
  dsimp only
  rw [alloc_eq _ _ _ (by decide), hone]
  by_cases h4 : nb ≤ 3
  · rw [if_pos h4, if_pos (by omega)]
    rfl
  · have hsuper : blksize * (0 + 1) / 4 = 1024 := by decide
    have hname : blksize * (0 + 1) + 8 = 4 * root := by decide
    have hbitmap : blksize * (0 + 1 + 1) / 4 = 2048 := by decide
    rw [if_neg h4, if_neg (by omega), ok_bind]
    dsimp only
    rw [hsuper, hname, hbitmap]
    rfl

structure Writing (nb : Nat) (garbage : Mem) (done : List HostFile) (m : Mem) : Prop where
  fixed : ∀ w, w < 3072 → m w = openMem nb garbage w
  fresh : ∀ w, 1024 * dirStart done ≤ w → w < heap → m w = 0
  entries : ∀ w, heap + 64 * done.length ≤ w → m w = named 0 done garbage w
  laid : ∀ k F, done[k]? = some F → FileLaid m (heap + 64 * k) (startOf done k) F
  spare : ∀ k F j, done[k]? = some F → F.Spare j → m (heap + 64 * k + 34 + j) = named 0 done garbage (heap + 64 * k + 34 + j)

section
variable {nb : Nat} {garbage : Mem} {done : List HostFile} {m : Mem}

lemma Writing.nil (nb : Nat) (garbage : Mem) : Writing nb garbage [] (openMem nb garbage) := by
  have hheap : heap = 1024 * 1024 := rfl
  have hstr : ∀ (m : Mem) (w : Nat), 3072 ≤ w → strcpy m (4 * root) [slash] w = m w := fun m w hw =>
    putBytes_word _ _ _ (.inr (by unfold root; simp; omega))
  have hbase : ∀ w, 3072 ≤ w → openMem nb garbage w = if w < heap then 0 else garbage w := by
    intro w hw
    unfold openMem
    rw [if_neg (by omega), hstr _ w hw, update_of_ne (by unfold fType root; omega), update_of_ne (by omega),
      update_of_ne (by omega)]
  refine ⟨fun _ _ => rfl, fun w hw hw' => ?_, fun w hw => ?_, fun k F h => by simp at h, fun k F j h => by simp at h⟩
  · rw [hbase w hw, if_pos hw']
  · rw [hbase w (by omega), if_neg (by omega)]
    rfl

lemma strcpy_congr {m m' : Mem} (h : m' w = m w) (a : Nat) (str : List Nat) :
    strcpy m' a str w = strcpy m a str w := putBytes_congr h a _

lemma Writing.snoc (h : Writing nb garbage done m) {F : HostFile} (hend : dirStart done + F.span ≤ 1024) :
    Writing nb garbage (done ++ [F]) (fileMem done.length F (dirStart done) m) := by
  have hheap : heap = 1024 * 1024 := rfl
  have hspan := F.blocks_le_span
  have hlen := F.length_le
  have hstart : 3 ≤ dirStart done := Nat.le_add_right _ _
  -- the disk before the file, and the entries before its entry
  have hbefore : ∀ w, w < 1024 * dirStart done → fileMem done.length F (dirStart done) m w = m w := by
    intro w hw
    rw [fileMem_disk (by omega), if_neg (by omega), putBytes_word _ _ _ (.inl (by unfold blksize; omega))]
  have hentries : ∀ w, heap ≤ w → w < heap + 64 * done.length → fileMem done.length F (dirStart done) m w = m w := by
    intro w hw hw'
    rw [fileMem_heap hend hw]
    dsimp only
    rw [if_neg (by unfold fIndirect; omega), if_neg (by unfold fDirect; omega), if_neg (by unfold fSize; omega),
      if_neg (by unfold fType; omega)]
    exact strcpy_below hw' m _
  have hnamed : ∀ w, named 0 (done ++ [F]) garbage w =
      strcpy (named 0 done garbage) (4 * (heap + 64 * done.length)) F.name w := by
    intro w
    rw [named_snoc, zero_add]
  refine ⟨fun w hw => ?_, fun w hw hw' => ?_, fun w hw => ?_, fun k G hG => ?_, fun k G j hG hj => ?_⟩
  · rw [hbefore w (by omega)]
    exact h.fixed w hw
  · rw [dirStart_snoc] at hw
    have hind : ndirect ≤ F.blocks → F.span = F.blocks + 1 := fun hind => by
      unfold HostFile.span
      rw [if_pos hind]
    have hblocks : F.blocks ≤ 1024 := by omega
    rw [fileMem_disk hw', if_neg (by omega), putBytes_word _ _ _ (.inr (by unfold blksize; omega))]
    exact h.fresh w (by omega) hw'
  · rw [List.length_append, List.length_singleton] at hw
    rw [fileMem_heap hend (by omega)]
    dsimp only
    have : ndirect = 10 := rfl
    rw [if_neg (by unfold fIndirect; omega), if_neg (by unfold fDirect; omega), if_neg (by unfold fSize; omega),
      if_neg (by unfold fType; omega), hnamed]
    exact strcpy_congr (h.entries w (by omega)) _ _
  · by_cases hk : k < done.length
    · rw [List.getElem?_append_left hk] at hG
      rw [startOf_append (le_of_lt hk)]
      have hG' := startOf_end hG
      refine (h.laid k G hG).congr (fun i hi => hentries _ (by omega) (by omega)) fun w _ hw => hbefore w ?_
      omega
    · have hlt := (List.getElem?_eq_some_iff.mp hG).1
      rw [List.length_append, List.length_singleton] at hlt
      obtain rfl : k = done.length := by omega
      obtain rfl : F = G := by simpa using hG
      rw [startOf_append le_rfl]
      exact .of_fileMem hend h.fresh
  · rw [hnamed]
    have hj10 : j ≤ 10 := hj.1
    by_cases hk : k < done.length
    · rw [List.getElem?_append_left hk] at hG
      rw [hentries _ (by omega) (by omega), strcpy_below (by omega)]
      exact h.spare k G j hG hj
    · have hlt := (List.getElem?_eq_some_iff.mp hG).1
      rw [List.length_append, List.length_singleton] at hlt
      obtain rfl : k = done.length := by omega
      obtain rfl : F = G := by simpa using hG
      obtain ⟨-, hj', hj''⟩ := hj
      have : ndirect = 10 := rfl
      rw [fileMem_heap hend (by omega)]
      dsimp only
      rw [if_neg (by omega), if_neg (by unfold fDirect; omega), if_neg (by unfold fSize; omega),
        if_neg (by unfold fType; omega)]
      exact strcpy_congr (h.entries _ (by omega)) _ _

end

structure Fit (nb : Nat) (files : List HostFile) : Prop where
  sizes : ∀ F ∈ files, F.data.length < maxfilesize
  count : files.length ≤ maxDirEnts
  names : ∀ k F, files[k]? = some F → 256 * k + F.name.length + 1 ≤ maxDirEnts * 256
  room : dirStart files + dirBlocks files < nb
  disk : nb ≤ 1024

def wroteMem : List HostFile → List HostFile → Mem → Mem
  | _, [], m => m
  | done, F :: files, m => wroteMem (done ++ [F]) files (fileMem done.length F (dirStart done) m)

section
variable {nb : Nat} {garbage : Mem} {m : Mem}

def Admits (nb : Nat) (files : List HostFile) (k : Nat) (F : HostFile) : Prop :=
  F.data.length < maxfilesize ∧ k < maxDirEnts ∧ 256 * k + F.name.length + 1 ≤ maxDirEnts * 256 ∧
    startOf files k + F.span < nb

lemma writefiles_ok {done files : List HostFile} {s : Fmt} :
    writefiles done.length files ⟨m, blksize * dirStart done, nb⟩ = .ok s ↔
      (∀ k F, done.length ≤ k → (done ++ files)[k]? = some F → Admits nb (done ++ files) k F) ∧
      s = ⟨wroteMem done files m, blksize * dirStart (done ++ files), nb⟩ := by
  induction files generalizing done m with
  | nil =>
    rw [writefiles, wroteMem, List.append_nil]
    constructor
    · intro h
      cases h
      refine ⟨fun k F hk hF => ?_, rfl⟩
      have := (List.getElem?_eq_some_iff.mp hF).1
      omega
    · rintro ⟨-, rfl⟩
      rfl
  | cons F files ih =>
    have happend : done ++ F :: files = (done ++ [F]) ++ files := by simp
    have hlen : (done ++ [F]).length = done.length + 1 := by simp
    have hF : (done ++ F :: files)[done.length]? = some F := by simp
    have hstart : startOf (done ++ F :: files) done.length = dirStart done := startOf_append le_rfl
    rw [writefiles, wroteMem]
    have hstep : ∀ s', writefile done.length F ⟨m, blksize * dirStart done, nb⟩ = .ok s' ↔
        Admits nb (done ++ F :: files) done.length F ∧
          s' = ⟨fileMem done.length F (dirStart done) m, blksize * dirStart (done ++ [F]), nb⟩ := by
      intro s'
      rw [writefile_ok, dirStart_snoc]
      unfold Admits
      rw [hstart]
      constructor
      · rintro ⟨h1, h2, h3, h4, h5⟩
        exact ⟨⟨h1, h2, h3, h4⟩, h5⟩
      · rintro ⟨⟨h1, h2, h3, h4⟩, h5⟩
        exact ⟨h1, h2, h3, h4, h5⟩
    constructor
    · intro h
      cases hw : writefile done.length F ⟨m, blksize * dirStart done, nb⟩ with
      | error c =>
        rw [hw] at h
        cases h
      | ok s' =>
        obtain ⟨hvalid, rfl⟩ := (hstep s').mp hw
        rw [hw, ok_bind, ← hlen] at h
        obtain ⟨hrest, hs⟩ := ih.mp h
        rw [happend]
        refine ⟨fun k G hk hG => ?_, hs⟩
        by_cases hk' : k = done.length
        · subst hk'
          rw [← happend, hF] at hG
          cases hG
          rw [← happend]
          exact hvalid
        · exact hrest k G (by omega) hG
    · rintro ⟨hall, rfl⟩
      rw [(hstep _).mpr ⟨hall _ F le_rfl hF, rfl⟩, ok_bind, ← hlen]
      rw [happend] at hall
      exact ih.mpr ⟨fun k G hk hG => hall k G (by omega) hG, by rw [happend]⟩

lemma Writing.wrote {done files : List HostFile} (h : Writing nb garbage done m)
    (hend : dirStart (done ++ files) ≤ 1024) : Writing nb garbage (done ++ files) (wroteMem done files m) := by
  induction files generalizing done m with
  | nil =>
    rw [List.append_nil]
    exact h
  | cons F files ih =>
    have happend : done ++ F :: files = (done ++ [F]) ++ files := by simp
    have hF : (done ++ F :: files)[done.length]? = some F := by simp
    have hspan := startOf_end hF
    rw [startOf_append le_rfl] at hspan
    rw [happend] at hend ⊢
    refine ih (h.snoc ?_) hend
    rw [happend] at hspan
    exact hspan.trans hend

/-- The number of blocks that the root gets; none are allocated for an empty directory, but one is entered. -/
def rootBlocks (n : Nat) : Nat := if n = 0 then 1 else (n + 15) / 16

def dirMem (n b : Nat) (m : Mem) : Mem :=
  storeRun (fDirect root 0) b (rootBlocks n)
    (update (fun w => if 1024 * b ≤ w ∧ w < 1024 * b + 64 * n then m (heap + (w - 1024 * b)) else m w)
      (fSize root) (4096 * rootBlocks n))

lemma finishdir_ok (hn : n ≤ maxDirEnts) {s : Fmt} :
    finishdir n ⟨m, blksize * b, nb⟩ = .ok s ↔ b + (n + 15) / 16 < nb ∧
      s = ⟨dirMem n b m, blksize * (b + (n + 15) / 16), nb⟩ := by
  have hn' : n ≤ 128 := hn
  have hblocks : (n * 256 + 4095) / 4096 = (n + 15) / 16 := by omega
  have hroot : (4096 * rootBlocks n + 4095) / 4096 = rootBlocks n := by omega
  have hsmall : rootBlocks n < 10 := by
    unfold rootBlocks
    split <;> omega
  have hb : blksize * b / blksize = b := Nat.mul_div_cancel_left _ (by decide)
  have hb4 : blksize * b / 4 = 1024 * b := by
    unfold blksize
    omega
  have h64 : n * 256 / 4 = 64 * n := by
    rw [show n * 256 = 4 * (64 * n) by ring, Nat.mul_div_cancel_left _ (by decide)]
  have hlen : toU32 (roundupInt (n * 256 : Nat)) = 4096 * rootBlocks n := roundupInt_eq hn'
  unfold finishdir
  dsimp only
  rw [alloc_eq _ _ _ (by omega), hblocks]
  by_cases hfull : nb ≤ b + (n + 15) / 16
  · rw [if_pos hfull]
    constructor
    · intro h
      cases h
    · rintro ⟨h, -⟩
      omega
  · rw [if_neg hfull, ok_bind]
    dsimp only
    rw [hb, hb4, h64, hlen, finishfile_eq _ _ _ _ _ (by omega), hroot]
    dsimp only
    rw [if_neg (by unfold ndirect; omega), min_eq_left (by unfold ndirect; omega)]
    constructor
    · intro h
      cases h
      exact ⟨by omega, rfl⟩
    · rintro ⟨-, rfl⟩
      rfl

lemma takeBlocks_word (h : ∀ b, b < n → w ≠ bitmapWord b) (m : Mem) : (List.range n).foldl takeBlock m w = m w := by
  induction n with
  | zero => rfl
  | succ n ih =>
    rw [List.range_succ, List.foldl_append, List.foldl_cons, List.foldl_nil,
      takeBlock_of_ne (h n (Nat.lt_succ_self n)), ih fun b hb => h b (by omega)]

lemma blockIsFree_takeBlocks (n : Nat) (m : Mem) (c : Nat) :
    blockIsFree ((List.range n).foldl takeBlock m) c ↔ blockIsFree m c ∧ n ≤ c := by
  induction n with
  | zero => simp
  | succ n ih =>
    rw [List.range_succ, List.foldl_append, List.foldl_cons, List.foldl_nil, blockIsFree_takeBlock, ih]
    constructor
    · rintro ⟨⟨hfree, hle⟩, hne⟩
      exact ⟨hfree, by omega⟩
    · rintro ⟨hfree, hlt⟩
      exact ⟨⟨hfree, by omega⟩, by omega⟩

end

structure Image (nb : Nat) (garbage : Mem) (files : List HostFile) (m : Mem) : Prop where
  nblocks : sNblocks m = nb
  type : m (fType root) = ftypeDir
  size : m (fSize root) = 4096 * rootBlocks files.length
  direct : ∀ i, i < rootBlocks files.length → m (fDirect root i) = dirStart files + i
  beyond : ∀ i, rootBlocks files.length ≤ i → i ≤ ndirect → m (fDirect root i) = 0
  free : ∀ c, blockIsFree m c = true ↔ dirStart files + dirBlocks files ≤ c ∧ c < nb
  laid : ∀ k F, files[k]? = some F → FileLaid m (1024 * dirStart files + 64 * k) (startOf files k) F
  spare : ∀ k F j, files[k]? = some F → F.Spare j →
    m (1024 * dirStart files + 64 * k + 34 + j) = named 0 files garbage (heap + 64 * k + 34 + j)
  unused : ∀ w, 64 * files.length ≤ w → w < 1024 * rootBlocks files.length → m (1024 * dirStart files + w) = 0

def imageMem (nb : Nat) (garbage : Mem) (files : List HostFile) : Mem := fun w =>
  if w < 1024 * nb then
    (List.range (dirStart files + dirBlocks files)).foldl takeBlock
      (dirMem files.length (dirStart files) (wroteMem [] files (openMem nb garbage))) w
  else 0

lemma Fit.admits {files : List HostFile} (h : Fit nb files) {k : Nat} {F : HostFile}
    (hF : files[k]? = some F) : Admits nb files k F := by
  have hk := (List.getElem?_eq_some_iff.mp hF).1
  have hend := startOf_end hF
  have hroom := h.room
  have hcount := h.count
  exact ⟨h.sizes F (List.mem_of_getElem? hF), by omega, h.names k F hF, by omega⟩

lemma length_le_of_admits {files : List HostFile}
    (h : ∀ k F, files[k]? = some F → Admits nb files k F) : files.length ≤ maxDirEnts := by
  by_contra hlt
  have hlast : maxDirEnts < files.length := by omega
  exact absurd (h maxDirEnts _ (List.getElem?_eq_getElem hlast)).2.1 (lt_irrefl _)

lemma fit_of_admits {files : List HostFile} (hdisk : nb ≤ 1024)
    (h : ∀ k F, files[k]? = some F → Admits nb files k F) (hroom : dirStart files + dirBlocks files < nb) :
    Fit nb files := by
  refine ⟨fun F hF => ?_, length_le_of_admits h, fun k F hF => (h k F hF).2.2.1, hroom, hdisk⟩
  obtain ⟨k, hk⟩ := List.mem_iff_getElem?.mp hF
  exact (h k F hk).1

lemma fsformat_ok {garbage : Mem} {files : List HostFile} :
    fsformat nb garbage files = .ok m ↔ Fit nb files ∧ m = imageMem nb garbage files := by
  have h3 : 3 ≤ dirStart files := Nat.le_add_right _ _
  unfold fsformat
  by_cases hnb : nb < 2 ∨ 1024 < nb
  · rw [if_pos hnb]
    constructor
    · intro h
      cases h
    · rintro ⟨h, -⟩
      have := h.room
      have := h.disk
      omega
  rw [if_neg hnb, opendisk_eq (by omega) (by omega)]
  by_cases h4 : nb < 4
  · rw [if_pos h4]
    constructor
    · intro h
      cases h
    · rintro ⟨h, -⟩
      have := h.room
      omega
  rw [if_neg h4, ok_bind]
  have hbase : (3 : Nat) = dirStart [] := rfl
  have hwrite : ∀ s, writefiles 0 files ⟨openMem nb garbage, blksize * dirStart [], nb⟩ = .ok s ↔
      (∀ k F, files[k]? = some F → Admits nb files k F) ∧
        s = ⟨wroteMem [] files (openMem nb garbage), blksize * dirStart files, nb⟩ := by
    intro s
    have h := @writefiles_ok nb (openMem nb garbage) [] files s
    rw [List.nil_append] at h
    refine h.trans (and_congr_left fun _ => ⟨fun h k F => h k F (Nat.zero_le k), fun h k F _ => h k F⟩)
  have himage : blksize * (dirStart files + (files.length + 15) / 16) / blksize = dirStart files + dirBlocks files :=
    Nat.mul_div_cancel_left _ (by decide)
  rw [hbase]
  constructor
  · intro h
    cases hw : writefiles 0 files ⟨openMem nb garbage, blksize * dirStart [], nb⟩ with
    | error c =>
      rw [hw] at h
      cases h
    | ok s =>
      obtain ⟨hadmits, rfl⟩ := (hwrite s).mp hw
      rw [hw, ok_bind] at h
      have hcount := length_le_of_admits hadmits
      cases hd : finishdir files.length ⟨wroteMem [] files (openMem nb garbage), blksize * dirStart files, nb⟩ with
      | error c =>
        rw [hd] at h
        cases h
      | ok s' =>
        obtain ⟨hroom, rfl⟩ := (finishdir_ok hcount).mp hd
        rw [hd, ok_bind] at h
        cases h
        refine ⟨fit_of_admits (by omega) hadmits hroom, ?_⟩
        unfold imageMem finishdisk
        dsimp only
        rw [himage]
  · rintro ⟨hfit, rfl⟩
    rw [(hwrite _).mpr ⟨fun k F hF => hfit.admits hF, rfl⟩, ok_bind,
      (finishdir_ok hfit.count).mpr ⟨hfit.room, rfl⟩, ok_bind]
    unfold imageMem finishdisk
    dsimp only
    rw [himage]
    rfl

section
variable {nb : Nat} {garbage : Mem} {files : List HostFile}

lemma rootBlocks_le (h : n ≤ maxDirEnts) : rootBlocks n ≤ 8 := by
  have h' : n ≤ 128 := h
  unfold rootBlocks
  split <;> omega

lemma le_rootBlocks (n : Nat) : n ≤ 16 * rootBlocks n := by
  unfold rootBlocks
  split <;> omega

lemma Fit.dir_room (h : Fit nb files) : dirStart files + rootBlocks files.length ≤ nb := by
  have hroom := h.room
  unfold dirBlocks at hroom
  unfold rootBlocks
  split <;> omega

lemma openMem_super (nb : Nat) (garbage : Mem) (h : w < 2048) (h' : w ≠ root) :
    openMem nb garbage w = if w = fType root then ftypeDir else if w = 1025 then nb else if w = 1024 then fsMagic else 0 := by
  have hstr : ∀ m : Mem, strcpy m (4 * root) [slash] w = m w := by
    intro m
    refine putBytes_word _ _ _ ?_
    have hlen : ([slash] ++ [0] : List Nat).length = 2 := rfl
    rw [hlen]
    omega
  unfold openMem
  rw [if_neg (by omega), hstr, update_apply, update_apply, update_apply,
    if_pos (show w < heap by unfold heap; omega)]

lemma openMem_bits (nb : Nat) (garbage : Mem) {c : Nat} (h : c < 1024) : openMem nb garbage (bitmapWord c) = 0xFFFFFFFF := by
  unfold openMem
  rw [if_pos]
  unfold bitmapWord
  omega

lemma dirMem_of_lt (h : w < 1024 * b) (hsize : w ≠ fSize root)
    (hdirect : ¬ (fDirect root 0 ≤ w ∧ w < fDirect root 0 + rootBlocks n)) : dirMem n b m w = m w := by
  unfold dirMem
  rw [storeRun_apply, if_neg hdirect, update_of_ne hsize, if_neg (by omega)]

lemma dirMem_entry (h : w < 64 * n) (hb : 3 ≤ b) (hn : rootBlocks n ≤ 8) :
    dirMem n b m (1024 * b + w) = m (heap + w) := by
  unfold dirMem
  rw [storeRun_apply, if_neg (by unfold fDirect root; omega), update_of_ne (by unfold fSize root; omega),
    if_pos (by omega), Nat.add_sub_cancel_left]

lemma dirMem_after (h : 1024 * b + 64 * n ≤ w) (hb : 3 ≤ b) (hn : rootBlocks n ≤ 8) : dirMem n b m w = m w := by
  unfold dirMem
  rw [storeRun_apply, if_neg (by unfold fDirect root; omega), update_of_ne (by unfold fSize root; omega),
    if_neg (by omega)]

section
variable (h : Fit nb files)
include h

lemma imageMem_word {w : Nat} (hw : w < 1024 * nb) (hbit : w < 2048 ∨ 3072 ≤ w) : imageMem nb garbage files w =
      dirMem files.length (dirStart files) (wroteMem [] files (openMem nb garbage)) w := by
  have hroom := h.room
  have hdisk := h.disk
  unfold imageMem
  rw [if_pos hw]
  refine takeBlocks_word (fun b hb => ?_) _
  unfold bitmapWord
  omega

lemma Fit.wrote (garbage : Mem) : Writing nb garbage files (wroteMem [] files (openMem nb garbage)) := by
  have hroom := h.room
  have hdisk := h.disk
  have hw := @Writing.wrote nb garbage _ [] files (Writing.nil nb garbage)
  rw [List.nil_append] at hw
  exact hw (by omega)

lemma Fit.image_super (hw : w < 2048) (hsize : w ≠ fSize root)
    (hdirect : ¬ (fDirect root 0 ≤ w ∧ w < fDirect root 0 + rootBlocks files.length)) :
    imageMem nb garbage files w = openMem nb garbage w := by
  have h3 : 3 ≤ dirStart files := Nat.le_add_right _ _
  have hroom := h.room
  rw [imageMem_word h (by omega) (.inl hw), dirMem_of_lt (by omega) hsize hdirect]
  exact (h.wrote garbage).fixed w (by omega)

lemma Fit.image_nblocks : sNblocks (imageMem nb garbage files) = nb := by
  unfold sNblocks
  rw [h.image_super (by decide) (by decide) (by unfold fDirect root; omega), openMem_super _ _ (by decide) (by decide)]
  rfl

lemma Fit.image_free (c : Nat) : blockIsFree (imageMem nb garbage files) c ↔
    dirStart files + dirBlocks files ≤ c ∧ c < nb := by
  have h3 : 3 ≤ dirStart files := Nat.le_add_right _ _
  have hroom := h.room
  have hdisk := h.disk
  have hsmall := rootBlocks_le h.count
  generalize hD : dirMem files.length (dirStart files) (wroteMem [] files (openMem nb garbage)) = D
  have hfixed : ∀ w, 2048 ≤ w → w < 3072 → D w = openMem nb garbage w := by
    intro w hw hw'
    rw [← hD, dirMem_of_lt (by omega) (by unfold fSize root; omega) (by unfold fDirect root; omega)]
    exact (h.wrote garbage).fixed w hw'
  have hn : sNblocks D = nb := by
    have hword := @imageMem_word nb garbage files h 1025 (by omega) (.inl (by decide))
    rw [hD] at hword
    exact hword.symm.trans h.image_nblocks
  have hbit : blockIsFree D c ↔ c < nb := by
    rw [blockIsFree_iff, hn]
    refine ⟨And.left, fun hc => ⟨hc, ?_⟩⟩
    rw [hfixed _ (by unfold bitmapWord; omega) (by unfold bitmapWord; omega), openMem_bits _ _ (by omega)]
    rw [show (0xFFFFFFFF : Nat) = 2 ^ 32 - 1 by decide, Nat.testBit_two_pow_sub_one]
    exact decide_eq_true (Nat.mod_lt _ (by decide))
  have hn' : sNblocks ((List.range (dirStart files + dirBlocks files)).foldl takeBlock D) = nb :=
    (takeBlocks_word (fun b _ => bitmapWord_ne b) D).trans hn
  have hcongr : blockIsFree (imageMem nb garbage files) c =
      blockIsFree ((List.range (dirStart files + dirBlocks files)).foldl takeBlock D) c := by
    refine blockIsFree_congr (h.image_nblocks.trans hn'.symm) fun hc => ?_
    rw [hn'] at hc
    unfold imageMem
    rw [if_pos (by unfold bitmapWord; omega), hD]
  rw [hcongr, blockIsFree_takeBlocks, hbit, and_comm]

lemma Fit.image : Image nb garbage files (imageMem nb garbage files) := by
  have hwrote := h.wrote garbage
  have h3 : 3 ≤ dirStart files := Nat.le_add_right _ _
  have hroom := h.room
  have hdisk := h.disk
  have hdir := h.dir_room
  have hsmall := rootBlocks_le h.count
  have hheap : heap = 1024 * 1024 := rfl
  -- the root, whose fields `finishfile` sets after the directory has been copied
  have hroot : ∀ k, k < 64 → imageMem nb garbage files (root + k) =
      dirMem files.length (dirStart files) (wroteMem [] files (openMem nb garbage)) (root + k) := fun k hk =>
    imageMem_word h (by unfold root; omega) (.inl (by unfold root; omega))
  have hentry : ∀ w, w < 64 * files.length → imageMem nb garbage files (1024 * dirStart files + w) =
      wroteMem [] files (openMem nb garbage) (heap + w) := by
    intro w hw
    unfold dirBlocks at hroom
    rw [imageMem_word h (by omega) (.inr (by omega)), dirMem_entry hw h3 hsmall]
  refine ⟨h.image_nblocks, ?_, ?_, fun i hi => ?_, fun i hi hi' => ?_, h.image_free, fun k F hF => ?_, fun k F j hF hj => ?_,
    fun w hw hw' => ?_⟩
  · rw [h.image_super (by decide) (by decide) (by unfold fType fDirect; omega), openMem_super _ _ (by decide) (by decide)]
    rfl
  · have := hroot 32 (by decide)
    unfold fSize
    rw [this]
    unfold dirMem
    rw [storeRun_apply, if_neg (by unfold fDirect; omega)]
    exact update_self ..
  · have := hroot (34 + i) (by omega)
    unfold fDirect
    rw [add_assoc, this]
    unfold dirMem
    rw [storeRun_apply, if_pos (by unfold fDirect; omega)]
    unfold fDirect
    omega
  · have : ndirect = 10 := rfl
    rw [h.image_super (by unfold fDirect root; omega) (by unfold fDirect fSize; omega) (by unfold fDirect; omega),
      openMem_super _ _ (by unfold fDirect root; omega) (by unfold fDirect; omega),
      if_neg (by unfold fDirect fType; omega), if_neg (by unfold fDirect root; omega),
      if_neg (by unfold fDirect root; omega)]
  · have hk := (List.getElem?_eq_some_iff.mp hF).1
    have hend := startOf_end hF
    have hstart : 3 ≤ startOf files k := Nat.le_add_right _ _
    refine (hwrote.laid k F hF).congr (fun j hj => ?_) fun w hw hw' => ?_
    · rw [add_assoc, hentry _ (by omega), add_assoc]
    · rw [imageMem_word h (by omega) (.inr (by omega)), dirMem_of_lt (by omega) (by unfold fSize root; omega)
        (by unfold fDirect root; omega)]
  · have hk := (List.getElem?_eq_some_iff.mp hF).1
    have hj10 : j ≤ 10 := hj.1
    rw [← hwrote.spare k F j hF hj, add_assoc, add_assoc, hentry _ (by omega)]
    congr 1
    omega
  · rw [imageMem_word h (by omega) (.inr (by omega)), dirMem_after (by omega) h3 hsmall]
    exact hwrote.fresh _ (by omega) (by omega)

end

end

end Jos.Fs
