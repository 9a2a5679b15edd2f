import Jos.Fs.Disk

/-!
# Files

The block functions and the file operations of `fs/fs.c`. A file is the word
address of its `struct File`. An out-parameter that a call may leave alone is an
option; the loops of `file_read` and `file_write` keep the last `blk` they were
given, as the C variable does, and a `blk` that was never set is `none`.
-/

namespace Jos.Fs
open WordMem CInt Function

def fileBlockWalk (f filebno : Nat) (alloc : Bool) (m : Mem) : Res (Except Int Nat × Mem) :=
  if ndirect + nindirect ≤ filebno then .ok (.error (-eInval), m)
  else if filebno < ndirect then .ok (.ok (fDirect f filebno), m)
  else if m (fIndirect f) = 0 then
    if alloc = false then .ok (.error (-eNotFound), m)
    else
      match allocBlock m with
      | none => .ok (.error (-eNoDisk), m)
      | some (r, m) => do
        let m := update m (fIndirect f) r
        let a ← diskaddr r m
        let m := clearBlock m a
        let ind ← diskaddr (m (fIndirect f)) m
        return (.ok (ind + filebno - ndirect), m)
  else do
    let ind ← diskaddr (m (fIndirect f)) m
    return (.ok (ind + filebno - ndirect), m)

/-- The value returned and `*blk`. `r` is assigned the truth value of
`file_block_walk(..) < 0`, so a failed walk returns 1 and leaves `*blk` alone. -/
def fileGetBlock (f filebno : Nat) (m : Mem) : Res (Int × Option Nat × Mem) := do
  let (slot, m) ← fileBlockWalk f filebno true m
  match slot with
  | .error _ => return (1, none, m)
  | .ok slot =>
    if m slot = 0 then
      match allocBlock m with
      | none => return (-eNoDisk, none, m)
      | some (r, m) =>
        let m := update m slot r
        let a ← diskaddr r m
        let m := clearBlock m a
        let blk ← diskaddr (m slot) m
        return (0, some blk, m)
    else
      let blk ← diskaddr (m slot) m
      return (0, some blk, m)

def fileFreeBlock (f filebno : Nat) (m : Mem) : Res (Int × Mem) := do
  let (slot, m) ← fileBlockWalk f filebno false m
  match slot with
  | .error r => return (r, m)
  | .ok slot =>
    if m slot ≠ 0 then
      let m ← freeBlock (m slot) m
      return (0, update m slot 0)
    else return (0, m)

def freeBlocks (f : Nat) : Nat → Nat → Mem → Res Mem
  | 0, _, m => .ok m
  | n + 1, bno, m => do
    let (_, m) ← fileFreeBlock f bno m
    freeBlocks f n (bno + 1) m

def fileTruncateBlocks (f : Nat) (newsize : Int) (m : Mem) : Res Mem := do
  let oldNblocks := nblocks (size m f)
  let newNblocks := nblocks newsize
  let m ← freeBlocks f (oldNblocks - newNblocks) newNblocks m
  if newNblocks ≤ ndirect ∧ m (fIndirect f) ≠ 0 then
    let m ← freeBlock (m (fIndirect f)) m
    return update m (fIndirect f) 0
  else return m

def fileSetSize (f : Nat) (newsize : Int) (m : Mem) : Res (Int × Mem) := do
  let m ← if newsize < size m f then fileTruncateBlocks f newsize m else pure m
  return (0, update m (fSize f) (toU32 newsize))

/-- `n` rounds of the loop of `file_flush`; writing a block back changes nothing here. -/
def flushBlocks (f : Nat) (m : Mem) : Nat → Nat → Res Unit
  | 0, _ => .ok ()
  | n + 1, i => do
    let (slot, _) ← fileBlockWalk f i false m
    match slot with
    | .error _ => flushBlocks f m n (i + 1)
    | .ok slot =>
      if m slot ≠ 0 then
        let _ ← diskaddr (m slot) m
        flushBlocks f m n (i + 1)
      else flushBlocks f m n (i + 1)

def fileFlush (f : Nat) (m : Mem) : Res Unit := do
  flushBlocks f m ((toI32 (size m f + blksize - 1)).tdiv blksize).toNat 0
  if m (fIndirect f) ≠ 0 then
    let _ ← diskaddr (m (fIndirect f)) m
    return ()
  else return ()

def touch (cached : Nat → Bool) (m : Mem) (blockno : Nat) : Res Unit :=
  if cached blockno = true then .ok ()
  else if sNblocks m ≤ blockno then .error (.panic "reading non-existent block")
  else if blockIsFree m blockno = true then .error (.panic "reading free block")
  else .ok ()

def touchBytes (cached : Nat → Bool) (m : Mem) (a n : Nat) : Res Unit :=
  (List.range' (a / blksize) ((a + n - 1) / blksize + 1 - a / blksize)).forM (touch cached m)

/-- The loop of `file_read` and `file_write` from `pos` to `stop`, where `move` copies `bn` bytes at an
address of the disk map. Every round copies at least one byte. -/
def moveBlocks {σ : Type} (move : Nat → Nat → σ → Mem → Res (σ × Mem)) (f stop : Nat) :
    Nat → Int → Option Nat → σ → Mem → Res (Option Int × σ × Mem)
  | 0, _, _, acc, m => .ok (none, acc, m)
  | n + 1, pos, blk, acc, m =>
    if toU32 pos < stop then do
      let (r, b, m) ← fileGetBlock f (toU32 (pos.tdiv blksize)) m
      if r < 0 then return (some r, acc, m)
      else
        match b.or blk with
        | none => .error .wild
        | some a =>
          let bn := min (toU32 (blksize - pos.tmod blksize)) (toU32 (stop - pos))
          let (acc, m) ← move (4 * a + pos.tmod blksize).toNat bn acc m
          moveBlocks move f stop n (toI32 (pos + bn)) (some a) acc m
    else .ok (none, acc, m)

/-- `memmove(buf, a, n)`: the bytes read, each with the address it comes from. -/
def readMove (cached : Nat → Bool) (a n : Nat) (out : List (Nat × Nat)) (m : Mem) :
    Res (List (Nat × Nat) × Mem) := do
  touchBytes cached m a n
  return (out ++ (List.range n).map fun i => (a + i, getByte m (a + i)), m)

def fileRead (cached : Nat → Bool) (f count : Nat) (offset : Int) (m : Mem) :
    Res (Int × List (Nat × Nat) × Mem) := do
  if size m f ≤ offset then return (0, [], m)
  else
    let count := min count (toU32 (size m f - offset))
    let (r, out, m) ← moveBlocks (readMove cached) f (toU32 (offset + count)) count offset none [] m
    match r with
    | some r => return (r, out, m)
    | none => return (toI32 count, out, m)

/-- `memmove(a, buf, n)` with `done` bytes of the buffer already written; `buf m i` is byte `i` of it. -/
def writeMove (cached : Nat → Bool) (buf : Mem → Nat → Nat) (a n done : Nat) (m : Mem) :
    Res (Nat × Mem) := do
  touchBytes cached m a n
  return (done + n, putBytes m a ((List.range n).map fun i => buf m (done + i)))

/-- `file_write`, with `move` for its `memmove`. -/
def fileWriteBy {σ : Type} (move : Nat → Nat → σ → Mem → Res (σ × Mem)) (acc : σ) (f count : Nat) (offset : Int)
    (m : Mem) : Res (Int × Mem) := do
  let (_, m) ← if toU32 (size m f) < toU32 (offset + count) then fileSetSize f (toI32 (offset + count)) m
    else pure (0, m)
  let (r, _, m) ← moveBlocks move f (toU32 (offset + count)) count offset none acc m
  match r with
  | some r => return (r, m)
  | none => return (toI32 count, m)

def fileWrite (cached : Nat → Bool) (buf : Mem → Nat → Nat) (f count : Nat) (offset : Int) (m : Mem) :
    Res (Int × Mem) :=
  fileWriteBy (writeMove cached buf) 0 f count offset m

end Jos.Fs
