import Jos.Base.WordMem
import Jos.Base.CInt
import Jos.Mmu

/-!
# The disk as the file server sees it

`fs/fs.c` reads and writes the disk through the block cache, which maps block `b`
at a fixed address. Here the disk is one word-addressed memory: block `b` is words
`1024 * b` up to `1024 * b + 1023`, and a pointer into the disk map is a word
address. Block 1 is the super block; the bitmap starts at block 2.
-/

namespace Jos.Fs
open WordMem CInt Bits Function

variable {b w : Nat} {m : Mem}

def blksize : Nat := 4096
def blkbitsize : Nat := 32768
def maxnamelen : Nat := 128
def ndirect : Nat := 10
def nindirect : Nat := 1024
def maxfilesize : Nat := (ndirect + nindirect) * blksize
def blkfiles : Nat := 16
def ftypeReg : Nat := 0
def ftypeDir : Nat := 1

def eNoDisk : Int := 9
def eMaxOpen : Int := 10
def eNotFound : Int := 11
def eBadPath : Int := 12
def eFileExists : Int := 13

lemma blksize_cast : (blksize : Int) = 4096 := rfl
lemma maxfilesize_eq : maxfilesize = 4235264 := rfl

inductive Crash where
  | panic (msg : String)
  | assertion (text : String)
  /-- An access through a pointer that was never set. -/
  | wild
  deriving Repr, DecidableEq

abbrev Res (α : Type) := Except Crash α

lemma ok_bind {α β : Type} (a : α) (f : α → Res β) : (Except.ok a >>= f) = f a := rfl

lemma map_ok {α β : Type} {g : α → β} {x : Res α} {b : β} (h : g <$> x = .ok b) : ∃ a, x = .ok a ∧ g a = b := by
  cases x with
  | error c => cases h
  | ok a =>
    cases h
    exact ⟨a, rfl, rfl⟩

/-- `super->s_nblocks`. -/
def sNblocks (m : Mem) : Nat := m 1025

/-- `&super->s_root`. -/
def root : Nat := 1026

/-! The fields of the `struct File` at word `f`. -/

def fSize (f : Nat) : Nat := f + 32
def fType (f : Nat) : Nat := f + 33
def fDirect (f i : Nat) : Nat := f + 34 + i
def fIndirect (f : Nat) : Nat := f + 44

/-- `f->f_size`, an `off_t`. -/
def size (m : Mem) (f : Nat) : Int := toI32 (m (fSize f))

def bitmapWord (blockno : Nat) : Nat := 2048 + blockno / 32

def diskaddr (blockno : Nat) (m : Mem) : Res Nat :=
  if blockno = 0 ∨ sNblocks m ≤ blockno then .error (.panic "bad block number in diskaddr")
  else .ok (1024 * blockno)

/-- `memset(a, 0, BLKSIZE)`. -/
def clearBlock (m : Mem) (a : Nat) : Mem := fun w => if a ≤ w ∧ w < a + 1024 then 0 else m w

def blockIsFree (m : Mem) (blockno : Nat) : Bool :=
  decide (blockno < sNblocks m) && flag (m (bitmapWord blockno)) (2 ^ (blockno % 32))

def freeBlock (blockno : Nat) (m : Mem) : Res Mem :=
  if blockno = 0 then .error (.panic "attempt to free zero block")
  else .ok (update m (bitmapWord blockno) (m (bitmapWord blockno) ||| 2 ^ (blockno % 32)))

/-- `bitmap[blockno / 32] &= ~(1 << (blockno % 32))`. -/
def takeBlock (m : Mem) (blockno : Nat) : Mem :=
  update m (bitmapWord blockno) (m (bitmapWord blockno) &&& (0xFFFFFFFF ^^^ 2 ^ (blockno % 32)))

/-- The first free block, taken; none means `-E_NO_DISK`. -/
def allocBlock (m : Mem) : Option (Nat × Mem) :=
  match (List.range' 2 (sNblocks m - 2)).find? (blockIsFree m) with
  | none => none
  | some blockno => some (blockno, takeBlock m blockno)

/-- The blocks that a size needs, as `file_truncate_blocks` computes it. -/
def nblocks (size : Int) : Nat := toU32 ((toI32 (size + blksize - 1)).tdiv blksize)

lemma nblocks_of_fits {s : Int} (h0 : 0 ≤ s) (h1 : s + 4095 < 2147483648) : (nblocks s : Int) = (s + 4095) / 4096 := by
  unfold nblocks blksize
  rw [show s + (4096 : Nat) - 1 = s + 4095 by omega, toI32_of_range (by omega) h1,
    Int.tdiv_eq_ediv_of_nonneg (by omega), toU32_of_range] <;> omega

lemma nblocks_of_overflow {s : Int} (h0 : 2147483648 ≤ s + 4095) (h1 : s < 2147483648) :
    (nblocks s : Int) = 4294967296 - (4294967296 - (s + 4095)) / 4096 := by
  have hneg : toI32 (s + 4095) = -(4294967296 - (s + 4095)) := by
    rw [toI32_eq]
    split <;> omega
  unfold nblocks blksize
  rw [show s + (4096 : Nat) - 1 = s + 4095 by omega, hneg, Int.neg_tdiv, Int.tdiv_eq_ediv_of_nonneg (by omega),
    toU32_of_neg] <;> omega

lemma nblocks_mono {a b : Int} (h0 : 0 ≤ a) (hab : a ≤ b) (hb : b < 2147483648) : nblocks a ≤ nblocks b := by
  by_cases ha' : a + 4095 < 2147483648
  · have hna := nblocks_of_fits h0 ha'
    by_cases hb' : b + 4095 < 2147483648
    · have hnb := nblocks_of_fits (by omega) hb'
      omega
    · have hnb := nblocks_of_overflow (by omega) hb
      omega
  · have hna := nblocks_of_overflow (by omega) (show a < 2147483648 by omega)
    have hnb := nblocks_of_overflow (by omega) hb
    omega

def reservedEnd (m : Mem) : Nat := 2 + (sNblocks m + blkbitsize - 1) / blkbitsize

lemma blockIsFree_iff : blockIsFree m b ↔ b < sNblocks m ∧ (m (bitmapWord b)).testBit (b % 32) := by
  simp [blockIsFree, flag_two_pow]

lemma bitmapWord_ne (b : Nat) : 1025 ≠ bitmapWord b := by
  unfold bitmapWord
  omega

lemma bitmapWord_reserved (h : b < sNblocks m) : 2 ≤ bitmapWord b / 1024 ∧ bitmapWord b / 1024 < reservedEnd m := by
  unfold bitmapWord reservedEnd blkbitsize
  omega

lemma takeBlock_of_ne (h : w ≠ bitmapWord b) (m : Mem) : takeBlock m b w = m w :=
  update_of_ne h _ _

def giveBlock (m : Mem) (b : Nat) : Mem :=
  update m (bitmapWord b) (m (bitmapWord b) ||| 2 ^ (b % 32))

lemma freeBlock_eq (h : b ≠ 0) (m : Mem) : freeBlock b m = .ok (giveBlock m b) := if_neg h

lemma giveBlock_of_ne (h : w ≠ bitmapWord b) (m : Mem) : giveBlock m b w = m w :=
  update_of_ne h _ _

@[simp] lemma sNblocks_takeBlock (m : Mem) (b : Nat) : sNblocks (takeBlock m b) = sNblocks m :=
  takeBlock_of_ne (bitmapWord_ne b) m

@[simp] lemma sNblocks_giveBlock (m : Mem) (b : Nat) : sNblocks (giveBlock m b) = sNblocks m :=
  giveBlock_of_ne (bitmapWord_ne b) m

lemma bit_eq_iff {c : Nat} (h : bitmapWord c = bitmapWord b) : c % 32 = b % 32 ↔ c = b := by
  unfold bitmapWord at h
  omega

lemma testBit_mask {i k : Nat} (hi : i < 32) : (0xFFFFFFFF ^^^ 2 ^ k).testBit i = decide (i ≠ k) := by
  have hall : (0xFFFFFFFF : Nat).testBit i := by
    have := Nat.testBit_two_pow_sub_one 32 i
    simpa [hi] using this
  rw [Nat.testBit_xor, hall, Nat.testBit_two_pow]
  by_cases hk : k = i
  · simp [hk]
  · simp [hk, Ne.symm hk]

lemma testBit_takeBlock (m : Mem) (b c : Nat) :
    (takeBlock m b (bitmapWord c)).testBit (c % 32) = ((m (bitmapWord c)).testBit (c % 32) && decide (c ≠ b)) := by
  by_cases hw : bitmapWord c = bitmapWord b
  · rw [takeBlock, hw, update_self, Nat.testBit_and, testBit_mask (Nat.mod_lt _ (by decide))]
    simp only [ne_eq, bit_eq_iff hw]
  · have hne : c ≠ b := fun h => hw (h ▸ rfl)
    rw [takeBlock_of_ne hw]
    simp [hne]

lemma testBit_giveBlock (m : Mem) (b c : Nat) :
    (giveBlock m b (bitmapWord c)).testBit (c % 32) = ((m (bitmapWord c)).testBit (c % 32) || decide (c = b)) := by
  by_cases hw : bitmapWord c = bitmapWord b
  · rw [giveBlock, hw, update_self, Nat.testBit_or, Nat.testBit_two_pow]
    have hbit := bit_eq_iff hw
    by_cases hc : c = b
    · simp [hc]
    · have hne : ¬ b % 32 = c % 32 := fun h => hc (hbit.mp h.symm)
      simp [hc, hne]
  · have hne : c ≠ b := fun h => hw (h ▸ rfl)
    rw [giveBlock_of_ne hw]
    simp [hne]

lemma blockIsFree_takeBlock (m : Mem) (b c : Nat) :
    blockIsFree (takeBlock m b) c ↔ blockIsFree m c ∧ c ≠ b := by
  simp only [blockIsFree_iff, sNblocks_takeBlock, testBit_takeBlock, Bool.and_eq_true, decide_eq_true_eq]
  tauto

lemma blockIsFree_giveBlock (m : Mem) (b c : Nat) :
    blockIsFree (giveBlock m b) c ↔ blockIsFree m c ∨ c = b ∧ c < sNblocks m := by
  simp only [blockIsFree_iff, sNblocks_giveBlock, testBit_giveBlock, Bool.or_eq_true, decide_eq_true_eq]
  tauto

lemma blockIsFree_congr {m' : Mem} {c : Nat} (hn : sNblocks m' = sNblocks m)
    (h : c < sNblocks m → m' (bitmapWord c) = m (bitmapWord c)) : blockIsFree m' c = blockIsFree m c := by
  unfold blockIsFree
  rw [hn]
  by_cases hc : c < sNblocks m
  · rw [h hc]
  · simp [hc]

lemma allocBlock_some {m' : Mem} (h : allocBlock m = some (b, m')) :
    2 ≤ b ∧ b < sNblocks m ∧ blockIsFree m b ∧ (∀ c, 2 ≤ c → c < b → blockIsFree m c = false) ∧
      m' = takeBlock m b := by
  unfold allocBlock at h
  split at h
  · cases h
  rename_i c hfind
  cases h
  obtain ⟨hfree, i, hi, hget, hbefore⟩ := List.find?_eq_some_iff_getElem.mp hfind
  rw [List.length_range'] at hi
  rw [List.getElem_range'] at hget
  refine ⟨by omega, (blockIsFree_iff.mp hfree).1, hfree, fun c hc hlt => ?_, rfl⟩
  have hb := hbefore (c - 2) (by omega)
  rw [List.getElem_range', show 2 + 1 * (c - 2) = c by omega] at hb
  simpa using hb

lemma allocBlock_none (h : allocBlock m = none) (hb : 2 ≤ b) : blockIsFree m b = false := by
  unfold allocBlock at h
  split at h
  · rename_i hfind
    by_cases hlt : b < sNblocks m
    · have hmem : b ∈ List.range' 2 (sNblocks m - 2) := List.mem_range'_1.mpr ⟨hb, by omega⟩
      simpa using List.find?_eq_none.mp hfind b hmem
    · simp [blockIsFree, hlt]
  · cases h

lemma diskaddr_eq (h0 : b ≠ 0) (h : b < sNblocks m) : diskaddr b m = .ok (1024 * b) :=
  if_neg (by omega)

lemma clearBlock_of_ne (h : w / 1024 ≠ b) : clearBlock m (1024 * b) w = m w := by
  unfold clearBlock
  rw [if_neg]
  omega

lemma clearBlock_self (h : w / 1024 = b) : clearBlock m (1024 * b) w = 0 := by
  unfold clearBlock
  rw [if_pos]
  omega

end Jos.Fs
