import Jos.Base.Proc
import Jos.Fs.Bc
import Jos.Fs.Copy

/-!
# The file system with its disk

The functions of `fs/fs.c` once more, now with what `flush_block` puts on the disk. The
functions that write no block back are taken over as they are. `Follows` shows that
nothing else differs.
-/

namespace Jos.Fs
open CInt WordMem Function

/-- What the server sees, what is on the disk, and what was on it before, the latest first. -/
structure Store where
  mem : Mem
  disk : Mem
  past : List Mem

namespace Store

def setMem (g : Mem → Mem) (s : Store) : Store := { s with mem := g s.mem }

/-- `flush_block` of an address in block `b`. -/
def flush (b : Nat) (s : Store) : Store where
  mem := s.mem
  disk w := if w / 1024 = b then s.mem w else s.disk w
  past := s.disk :: s.past

lemma flush_of_flushed {b : Nat} {s s' : Bc} (h : Bc.Flushed b s s') (past : List Mem) :
    (⟨s'.view, s'.disk, s.disk :: past⟩ : Store) = Store.flush b ⟨s.view, s.disk, past⟩ := by
  unfold flush
  rw [h.view, h.disk]

/-- `n` rounds of `fs_sync`, from block `i` on. -/
def syncFrom : Nat → Nat → Store → Store
  | 0, _, s => s
  | n + 1, i, s => if i < sNblocks s.mem then syncFrom n (i + 1) (s.flush i) else s

/-- What an operation of the block cache does to memory and disk. -/
def event (s : Store) : Bc.Event → Store
  | .read _ _ => s
  | .write w v => s.setMem fun m => update m w v
  | .flush va => s.flush (pageOf va)
  | .sync => syncFrom (sNblocks s.mem) 1 s

/-- The cache as memory and disk. -/
def of (s : Bc) (past : List Mem) : Store := ⟨s.view, s.disk, past⟩

section
variable {s s' : Bc} (hc : Bc.Coherent s)
include hc

lemma flushed_of_ok {va : Nat} (h : Bc.flushBlock va s = .ok s') : Bc.Flushed (pageOf va) s s' := by
  by_cases hout : va < diskmap ∨ diskmap + disksize ≤ va
  · unfold Bc.flushBlock at h
    rw [if_pos hout] at h
    cases h
  · obtain ⟨s1, hs1, hspec⟩ := @Bc.flushBlock_spec s hc va (by omega) (by omega)
    rw [hs1] at h
    cases h
    exact hspec

lemma syncFrom_of (n : Nat) {i : Nat} (hi : 1 ≤ i) (h : Bc.syncLoop n i s = .ok s') (past : List Mem) :
    ∃ past', of s' past' = syncFrom n i (of s past) := by
  induction n generalizing i s past with
  | zero =>
    cases h
    exact ⟨past, rfl⟩
  | succ n ih =>
    rw [Bc.syncLoop, Bc.load_super hc.super, ok_bind] at h
    dsimp only at h
    by_cases hlt : i < sNblocks s.view
    · rw [if_pos hlt, if_neg (by omega)] at h
      cases hflush : Bc.flushBlock (diskmap + i * blksize) s with
      | error => rw [hflush] at h; cases h
      | ok s1 =>
        have hs1 := flushed_of_ok hc hflush
        rw [show pageOf (diskmap + i * blksize) = i by unfold pageOf pgnum diskmap blksize; omega] at hs1
        rw [hflush, ok_bind] at h
        rw [syncFrom, if_pos (by exact hlt), of, ← flush_of_flushed hs1 past]
        exact ih hs1.coherent (by omega) h _
    · rw [if_neg hlt] at h
      cases h
      exact ⟨past, (if_neg hlt).symm⟩

lemma event_of {e : Bc.Event} (h : Bc.Step s e s') (past : List Mem) : ∃ past', of s' past' = (of s past).event e := by
  cases h with
  | read _ h =>
    have hs := ((Bc.load_spec _ _ hc).ok _ h).2
    exact ⟨past, by rw [of, hs.view, hs.disk]; rfl⟩
  | write _ h =>
    have hs := (Bc.store_spec _ _ _ hc).ok _ h
    exact ⟨past, by rw [of, hs.view, hs.disk]; rfl⟩
  | flush h => exact ⟨_, flush_of_flushed (flushed_of_ok hc h) past⟩
  | sync h =>
    rw [Bc.fsSync_eq hc] at h
    exact syncFrom_of hc _ (Nat.le_refl 1) h past

end

end Store

/-- The block cache with its faults and dirty bits does to memory and disk what the operations do to two plain memories. -/
theorem cache_refines_store {s0 s : Bc} {h : List Bc.Event} (h0 : Bc.Booted s0) (hrun : Bc.Run s0 h s) :
    ∃ past, ⟨s.view, s.disk, past⟩ = h.foldl Store.event ⟨s0.disk, s0.disk, []⟩ := by
  induction hrun with
  | nil => exact ⟨[], by rw [h0.view_eq]; rfl⟩
  | snoc hrun hstep ih =>
    obtain ⟨past, hpast⟩ := ih
    rw [List.foldl_append, ← hpast]
    exact Store.event_of (hrun.kept h0).1 hstep past

theorem cache_refines_store_write : ∃ s past, Bc.Run Bc.smallCache [.write 3072 42] s ∧
    ⟨s.view, s.disk, past⟩ = Store.event ⟨Bc.smallCache.disk, Bc.smallCache.disk, []⟩ (.write 3072 42) := by
  obtain ⟨s, hs⟩ := Bc.store_returns Bc.smallCache_booted.coherent (w := 3072) Bc.smallCache_inUse (by decide) 42
  have hrun : Bc.Run Bc.smallCache [.write 3072 42] s := .snoc .nil (.write Bc.smallCache_inUse hs)
  obtain ⟨past, h⟩ := cache_refines_store Bc.smallCache_booted hrun
  exact ⟨s, past, hrun, h⟩

namespace Durable

abbrev Proc (α : Type) := Jos.Proc Store Crash α

def look {α : Type} (f : Mem → Res α) : Proc α := .read fun s => f s.mem

def peek : Proc Mem := look .ok

def poke (g : Mem → Mem) : Proc Unit := .modify (Store.setMem g)

def flushBlock (b : Nat) : Proc Unit := .modify (Store.flush b)

def onMem {α : Type} (f : Mem → Res (α × Mem)) : Proc α where
  run s :=
    match f s.mem with
    | .ok (a, m) => (.ok a, s.setMem fun _ => m)
    | .error e => (.error e, s)

def allocBlock : Proc (Option Nat) := do
  let m ← peek
  match Fs.allocBlock m with
  | none => return none
  | some (blockno, m) =>
    poke fun _ => m
    flushBlock (bitmapWord blockno / 1024)
    return some blockno

/-- The lines of `file_block_walk` and `file_get_block` that put a fresh block into the slot at word `w`. -/
def fillSlot (w : Nat) : Proc Bool := do
  match ← allocBlock with
  | none => return false
  | some r =>
    poke fun m => update m w r
    let a ← look (diskaddr r)
    poke fun m => clearBlock m a
    flushBlock (a / 1024)
    return true

def fileBlockWalk (f filebno : Nat) : Proc (Except Int Nat) := do
  if ndirect + nindirect ≤ filebno then return .error (-eInval)
  else if filebno < ndirect then return .ok (fDirect f filebno)
  else
    let m ← peek
    if m (fIndirect f) = 0 then
      if ← fillSlot (fIndirect f) then
        let ind ← look fun m => diskaddr (m (fIndirect f)) m
        return .ok (ind + filebno - ndirect)
      else return .error (-eNoDisk)
    else
      let ind ← look fun m => diskaddr (m (fIndirect f)) m
      return .ok (ind + filebno - ndirect)

def fileGetBlock (f filebno : Nat) : Proc (Int × Option Nat) := do
  match ← fileBlockWalk f filebno with
  | .error _ => return (1, none)
  | .ok slot =>
    let m ← peek
    if m slot = 0 then
      if ← fillSlot slot then
        let blk ← look fun m => diskaddr (m slot) m
        return (0, some blk)
      else return (-eNoDisk, none)
    else
      let blk ← look fun m => diskaddr (m slot) m
      return (0, some blk)

def fileSetSize (f : Nat) (newsize : Int) : Proc Int := do
  onMem fun m => (fun m => ((), m)) <$> if newsize < size m f then fileTruncateBlocks f newsize m else pure m
  poke fun m => update m (fSize f) (toU32 newsize)
  flushBlock (f / 1024)
  return 0

def moveBlocks {σ : Type} (move : Nat → Nat → σ → Mem → Res (σ × Mem)) (f stop : Nat) :
    Nat → Int → Option Nat → σ → Proc (Option Int × σ)
  | 0, _, _, acc => return (none, acc)
  | n + 1, pos, blk, acc =>
    if toU32 pos < stop then do
      let (r, b) ← fileGetBlock f (toU32 (pos.tdiv blksize))
      if r < 0 then return (some r, acc)
      else
        match b.or blk with
        | none => look fun _ => .error .wild
        | some a =>
          let bn := min (toU32 (blksize - pos.tmod blksize)) (toU32 (stop - pos))
          let acc ← onMem (move (4 * a + pos.tmod blksize).toNat bn acc)
          moveBlocks move f stop n (toI32 (pos + bn)) (some a) acc
    else return (none, acc)

/-- The lines of `file_write` that extend the file if necessary. -/
def extendTo (f : Nat) (stop : Int) : Proc Int := do
  let m ← peek
  if toU32 (size m f) < toU32 stop then fileSetSize f (toI32 stop)
  else return 0

def fileWrite (cached : Nat → Bool) (buf : Mem → Nat → Nat) (f count : Nat) (offset : Int) : Proc Int := do
  let _ ← extendTo f (offset + count)
  let out ← moveBlocks (writeMove cached buf) f (toU32 (offset + count)) count offset none 0
  return out.1.getD (toI32 count)

/-- `n` rounds of the loop of `file_flush`. -/
def flushBlocks (f : Nat) : Nat → Nat → Proc Unit
  | 0, _ => return ()
  | n + 1, i => do
    let m ← peek
    let out ← look (Fs.fileBlockWalk f i false)
    match out.1 with
    | .error _ => flushBlocks f n (i + 1)
    | .ok slot =>
      if m slot ≠ 0 then
        let a ← look (diskaddr (m slot))
        flushBlock (a / 1024)
        flushBlocks f n (i + 1)
      else flushBlocks f n (i + 1)

def fileFlush (f : Nat) : Proc Unit := do
  let m ← peek
  flushBlocks f ((toI32 (size m f + blksize - 1)).tdiv blksize).toNat 0
  flushBlock (f / 1024)
  if m (fIndirect f) ≠ 0 then
    let a ← look (diskaddr (m (fIndirect f)))
    flushBlock (a / 1024)

def dirSearch (cond : Mem → Nat → Bool) (dir : Nat) : Nat → Nat → Option Nat → Proc Search
  | 0, _, blk => return .missed blk
  | n + 1, i, blk => do
    let (r, b) ← fileGetBlock dir i
    if r < 0 then return .failed r
    else
      match b.or blk with
      | none => look fun _ => .error .wild
      | some a =>
        let m ← peek
        match (List.range blkfiles).find? fun j => cond m (a + 64 * j) with
        | some j => return .found (a + 64 * j)
        | none => dirSearch cond dir n (i + 1) (some a)

def dirLookup (dir : Nat) (name : List Nat) : Proc (Except Int Nat) := do
  let nblock ← look (dirNblock dir)
  match ← dirSearch (nameIs name) dir nblock 0 none with
  | .found f => return .ok f
  | .failed r => return .error r
  | .missed _ => return .error (-eNotFound)

def dirAllocFile (dir : Nat) : Proc (Except Int Nat) := do
  let nblock ← look (dirNblock dir)
  match ← dirSearch nameEmpty dir nblock 0 none with
  | .found f => return .ok f
  | .failed r => return .error r
  | .missed blk =>
    poke fun m => update m (fSize dir) (toU32 (size m dir + blksize))
    let (r, b) ← fileGetBlock dir nblock
    if r < 0 then return .error r
    else
      match b.or blk with
      | none => look fun _ => .error .wild
      | some a => return .ok a

def walkLoop : Nat → List Nat → Nat → Option Nat → Proc Walked
  | 0, _, f, dir => return ⟨0, dir, some f, []⟩
  | n + 1, path, f, dir =>
    if path = [] then return ⟨0, dir, some f, []⟩
    else
      let name := path.takeWhile (· != slash)
      let rest := skipSlash (path.dropWhile (· != slash))
      if maxnamelen ≤ name.length then return ⟨-eBadPath, none, none, []⟩
      else do
        let m ← peek
        if m (fType f) ≠ ftypeDir then return ⟨-eNotFound, none, none, []⟩
        else
          match ← dirLookup f name with
          | .ok g => walkLoop n rest g (some f)
          | .error r =>
            if r = -eNotFound ∧ rest = [] then return ⟨r, some f, none, name⟩
            else return ⟨r, none, none, []⟩

def walkPath (path : List Nat) : Proc Walked := walkLoop (skipSlash path).length (skipSlash path) root none

/-- `file_create` once `dir_alloc_file` has returned `r`. -/
def nameEntry (dir : Nat) (name : List Nat) (r : Except Int Nat) : Proc (Except Int Nat) :=
  match r with
  | .error r => return .error r
  | .ok f => do
    poke fun m => setName m f name
    fileFlush dir
    return .ok f

/-- `file_create` once `walk_path` has returned `w`. -/
def createAt (w : Walked) : Proc (Except Int Nat) :=
  if w.r = 0 then return .error (-eFileExists)
  else
    match w.pdir with
    | none => return .error w.r
    | some dir => if w.r ≠ -eNotFound then return .error w.r else dirAllocFile dir >>= nameEntry dir w.lastelem

def fileCreate (path : List Nat) : Proc (Except Int Nat) := walkPath path >>= createAt

/-! ## What the server sees -/

section

lemma look_follows {α : Type} (g : Mem → Res α) : (look g).Follows Store.mem fun m => (·, m) <$> g m := .read g

lemma poke_follows (g : Mem → Mem) : (poke g).Follows Store.mem fun m => .ok ((), g m) := .modify fun _ => rfl

lemma flushBlock_follows (b : Nat) : (flushBlock b).Follows Store.mem fun m => .ok ((), m) := .modify fun _ => rfl

lemma onMem_follows {α : Type} (f : Mem → Res (α × Mem)) : (onMem f).Follows Store.mem f := by
  intro s
  unfold onMem
  dsimp only
  cases f s.mem with
  | ok out => rfl
  | error e => rfl

lemma allocBlock_follows : allocBlock.Follows Store.mem fun m =>
    match Fs.allocBlock m with
    | none => .ok (none, m)
    | some (b, m) => .ok (some b, m) := by
  intro s
  unfold allocBlock
  simp only [Jos.Proc.run_bind, peek, look, Jos.Proc.run_read]
  cases Fs.allocBlock s.mem with
  | none => rfl
  | some out => rfl

lemma fillSlot_follows (w : Nat) : (fillSlot w).Follows Store.mem fun m =>
    match Fs.allocBlock m with
    | none => .ok (false, m)
    | some (r, m) => do
      let a ← diskaddr r (update m w r)
      return (true, clearBlock (update m w r) a) := by
  unfold fillSlot
  refine (allocBlock_follows.bind (k := fun r m => match r with
    | none => .ok (false, m)
    | some r => do
      let a ← diskaddr r (update m w r)
      return (true, clearBlock (update m w r) a)) fun r => ?_).congr fun m => ?_
  · cases r with
    | none => exact .pure false
    | some r =>
      intro s
      simp only [Jos.Proc.run_bind, poke, look, flushBlock, Jos.Proc.run_modify, Jos.Proc.run_read, Jos.Proc.run_pure,
        Store.setMem]
      cases diskaddr r (update s.mem w r) <;> rfl
  · cases Fs.allocBlock m <;> rfl

lemma peek_bind_follows {α : Type} {g : Mem → Proc α} {k : Mem → Mem → Res (α × Mem)}
    (h : ∀ m, (g m).Follows Store.mem (k m)) : (peek >>= g).Follows Store.mem fun m => k m m :=
  ((look_follows Except.ok).bind h).congr fun _ => rfl

lemma diskaddr_follows {α : Type} (w : Nat) (g : Nat → α) : (do
      let a ← look fun m => diskaddr (m w) m
      return g a : Proc α).Follows Store.mem fun m => (fun a => (g a, m)) <$> diskaddr (m w) m := by
  refine ((look_follows _).bind fun a => .pure (g a)).congr fun m => ?_
  cases diskaddr (m w) m <;> rfl

def slotBlock {α : Type} (w : Nat) (g : Nat → α) (full : α) (m : Mem) : Res (α × Mem) :=
  if m w = 0 then
    match Fs.allocBlock m with
    | none => .ok (full, m)
    | some (r, m) => do
      let a ← diskaddr r (update m w r)
      (fun b => (g b, clearBlock (update m w r) a)) <$>
        diskaddr (clearBlock (update m w r) a w) (clearBlock (update m w r) a)
  else (fun a => (g a, m)) <$> diskaddr (m w) m

lemma slot_follows {α : Type} (w : Nat) (g : Nat → α) (full : α) : (do
      let m ← peek
      if m w = 0 then
        if ← fillSlot w then
          let a ← look fun m => diskaddr (m w) m
          return g a
        else return full
      else
        let a ← look fun m => diskaddr (m w) m
        return g a : Proc α).Follows Store.mem (slotBlock w g full) := by
  refine (peek_bind_follows (k := fun m0 m => if m0 w = 0 then _ else _) fun m0 =>
    .ite ((fillSlot_follows w).bind (k := fun b m => if b = true then _ else _) fun b =>
      .ite (diskaddr_follows w g) (.pure full)) (diskaddr_follows w g)).congr fun m => ?_
  unfold slotBlock
  split
  · cases Fs.allocBlock m with
    | none => rfl
    | some out =>
      obtain ⟨r, m'⟩ := out
      dsimp only
      cases diskaddr r (update m' w r) <;> rfl
  · rfl

lemma fileBlockWalk_follows (f i : Nat) : (fileBlockWalk f i).Follows Store.mem (Fs.fileBlockWalk f i true) := by
  refine (Jos.Proc.Follows.ite (.pure _) (.ite (.pure _) (slot_follows (fIndirect f) _ _))).congr fun m => ?_
  unfold Fs.fileBlockWalk slotBlock
  split
  · rfl
  split
  · rfl
  split
  · rw [if_neg (by decide)]
    cases Fs.allocBlock m with
    | none => rfl
    | some out =>
      obtain ⟨r, m'⟩ := out
      dsimp only
      cases diskaddr r (update m' (fIndirect f) r) with
      | error e => rfl
      | ok a =>
        rw [ok_bind, ok_bind]
        cases diskaddr (clearBlock (update m' (fIndirect f) r) a (fIndirect f)) (clearBlock (update m' (fIndirect f) r) a) <;> rfl
  · cases diskaddr (m (fIndirect f)) m <;> rfl

lemma fileGetBlock_follows (f i : Nat) : (fileGetBlock f i).Follows Store.mem fun m =>
    (fun out => ((out.1, out.2.1), out.2.2)) <$> Fs.fileGetBlock f i m := by
  refine ((fileBlockWalk_follows f i).bind (k := fun slot m => match slot with
    | .error _ => .ok ((1, none), m)
    | .ok slot => slotBlock slot (fun blk => (0, some blk)) (-eNoDisk, none) m) fun slot => ?_).congr fun m => ?_
  · cases slot with
    | error r => exact .pure _
    | ok slot => exact slot_follows slot _ _
  · unfold Fs.fileGetBlock
    cases Fs.fileBlockWalk f i true m with
    | error e => rfl
    | ok out =>
      obtain ⟨slot, m'⟩ := out
      cases slot with
      | error r => rfl
      | ok slot =>
        rw [ok_bind, ok_bind]
        dsimp only
        unfold slotBlock
        split
        · cases Fs.allocBlock m' with
          | none => rfl
          | some out =>
            obtain ⟨r, m1⟩ := out
            dsimp only
            cases diskaddr r (update m1 slot r) with
            | error e => rfl
            | ok a =>
              rw [ok_bind, ok_bind]
              cases diskaddr (clearBlock (update m1 slot r) a slot) (clearBlock (update m1 slot r) a) <;> rfl
        · cases diskaddr (m' slot) m' <;> rfl

lemma fileSetSize_follows (f : Nat) (n : Int) : (fileSetSize f n).Follows Store.mem (Fs.fileSetSize f n) := by
  refine ((onMem_follows _).bind fun _ => (poke_follows _).bind fun _ =>
    (flushBlock_follows _).bind fun _ => .pure 0).congr fun m => ?_
  unfold Fs.fileSetSize
  split
  · cases fileTruncateBlocks f n m <;> rfl
  · rfl

lemma extendTo_follows (f : Nat) (stop : Int) : (extendTo f stop).Follows Store.mem fun m =>
    if toU32 (size m f) < toU32 stop then Fs.fileSetSize f (toI32 stop) m else .ok (0, m) := by
  unfold extendTo
  exact peek_bind_follows (k := fun m0 m => if toU32 (size m0 f) < toU32 stop then Fs.fileSetSize f (toI32 stop) m
    else .ok (0, m)) fun m0 => .ite (fileSetSize_follows f _) (.pure 0)

lemma dirSearch_follows (cond : Mem → Nat → Bool) (dir n i : Nat) (blk : Option Nat) :
    (dirSearch cond dir n i blk).Follows Store.mem (Fs.dirSearch cond dir n i blk) := by
  induction n generalizing i blk with
  | zero => exact .pure _
  | succ n ih =>
    unfold dirSearch
    refine ((fileGetBlock_follows dir i).bind (k := fun out m => if out.1 < 0 then .ok (.failed out.1, m) else
      match out.2.or blk with
      | none => .error .wild
      | some a => match (List.range blkfiles).find? fun j => cond m (a + 64 * j) with
        | some j => .ok (.found (a + 64 * j), m)
        | none => Fs.dirSearch cond dir n (i + 1) (some a) m) fun out => .ite (.pure _) ?_).congr fun m => ?_
    · cases out.2.or blk with
      | none => exact look_follows _
      | some a =>
        refine peek_bind_follows (k := fun m0 m => match (List.range blkfiles).find? fun j => cond m0 (a + 64 * j) with
          | some j => .ok (.found (a + 64 * j), m)
          | none => Fs.dirSearch cond dir n (i + 1) (some a) m) fun m0 => ?_
        cases (List.range blkfiles).find? fun j => cond m0 (a + 64 * j) with
        | none => exact ih _ _
        | some j => exact .pure _
    · conv_rhs => unfold Fs.dirSearch
      cases Fs.fileGetBlock dir i m <;> rfl

lemma dirLookup_follows (dir : Nat) (name : List Nat) :
    (dirLookup dir name).Follows Store.mem (Fs.dirLookup dir name) := by
  refine ((look_follows _).bind fun nblock => (dirSearch_follows (nameIs name) dir nblock 0 none).bind
    (k := fun found m => match found with
      | .found f => .ok (.ok f, m)
      | .failed r => .ok (.error r, m)
      | .missed _ => .ok (.error (-eNotFound), m)) fun found => ?_).congr fun m => ?_
  · cases found <;> exact .pure _
  · unfold Fs.dirLookup
    cases dirNblock dir m <;> rfl

lemma dirAllocFile_follows (dir : Nat) : (dirAllocFile dir).Follows Store.mem (Fs.dirAllocFile dir) := by
  refine ((look_follows _).bind fun nblock => (dirSearch_follows nameEmpty dir nblock 0 none).bind
    (k := fun found m => match found with
      | .found f => .ok (.ok f, m)
      | .failed r => .ok (.error r, m)
      | .missed blk => do
        let out ← Fs.fileGetBlock dir nblock (update m (fSize dir) (toU32 (size m dir + blksize)))
        if out.1 < 0 then return (.error out.1, out.2.2)
        else
          match out.2.1.or blk with
          | none => .error .wild
          | some a => return (.ok a, out.2.2)) fun found => ?_).congr fun m => ?_
  · cases found with
    | found f => exact .pure _
    | failed r => exact .pure _
    | missed blk =>
      refine ((poke_follows _).bind fun _ => (fileGetBlock_follows dir nblock).bind (k := fun out m =>
        if out.1 < 0 then .ok (.error out.1, m) else
        match out.2.or blk with
        | none => .error .wild
        | some a => .ok (.ok a, m)) fun out => .ite (.pure _) ?_).congr fun m => ?_
      · cases out.2.or blk with
        | none => exact look_follows _
        | some a => exact .pure _
      · rw [ok_bind]
        cases Fs.fileGetBlock dir nblock (update m (fSize dir) (toU32 (size m dir + blksize))) <;> rfl
  · unfold Fs.dirAllocFile
    cases dirNblock dir m <;> rfl

lemma walkLoop_follows (n : Nat) (path : List Nat) (f : Nat) (dir : Option Nat) :
    (walkLoop n path f dir).Follows Store.mem (Fs.walkLoop n path f dir) := by
  induction n generalizing path f dir with
  | zero => exact .pure _
  | succ n ih =>
    have hnext : ∀ (name rest : List Nat) (r : Except Int Nat), (match r with
        | .ok g => walkLoop n rest g (some f)
        | .error r =>
          if r = -eNotFound ∧ rest = [] then pure ⟨r, some f, none, name⟩
          else pure ⟨r, none, none, []⟩ : Proc Walked).Follows Store.mem fun m => match r with
        | .ok g => Fs.walkLoop n rest g (some f) m
        | .error r =>
          if r = -eNotFound ∧ rest = [] then .ok (⟨r, some f, none, name⟩, m) else .ok (⟨r, none, none, []⟩, m) := by
      intro name rest r
      cases r with
      | ok g => exact ih rest g (some f)
      | error r => exact .ite (.pure _) (.pure _)
    have hlook := fun name rest : List Nat => (dirLookup_follows f name).bind (hnext name rest)
    have htype := fun (name rest : List Nat) (m0 : Mem) => Jos.Proc.Follows.ite (c := m0 (fType f) ≠ ftypeDir)
      (.pure (⟨-eNotFound, none, none, []⟩ : Walked)) (hlook name rest)
    unfold walkLoop
    exact (Jos.Proc.Follows.ite (.pure _) (.ite (.pure _) (peek_bind_follows (htype _ _)))).congr fun m => rfl

lemma walkPath_follows (path : List Nat) : (walkPath path).Follows Store.mem (Fs.walkPath path) :=
  walkLoop_follows _ _ root none

end

end Durable

end Jos.Fs
