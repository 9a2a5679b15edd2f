import Jos.Base.Post
import Jos.Fs.Disk
import Jos.Kern.WriteRuns

/-!
# The block cache

`fs/bc.c` maps block `b` at `DISKMAP + b * BLKSIZE` and reads it in at the first access.
Whether a block has to be written back is kept in the dirty bit of its page table entry.
The state is the server's once `fs_init` has set `super` and `bitmap`. The disk transfers the
blocks it is asked for.
-/

namespace Jos.Fs
open CInt WordMem Bits Function

variable {b n p va w : Nat} {free : List Nat}

def diskmap : Nat := 0x10000000
def disksize : Nat := 0xC0000000
def blksects : Nat := 8

def pageOf (va : Nat) : Nat := pgnum va - pgnum diskmap

/-- `uvpt` holds the page table entries of the disk map, 0 where there is no page table, and `mem`
what is in its pages; `free` are the pages that `sys_page_alloc` hands out next. -/
structure Bc where
  uvpt : Nat → Nat
  mem : Mem
  disk : Mem
  free : List Nat

namespace Bc

def vaIsMapped (s : Bc) (va : Nat) : Bool := present (s.uvpt (pageOf va))

def vaIsDirty (s : Bc) (va : Nat) : Bool := flag (s.uvpt (pageOf va)) pteD

/-- `sys_page_alloc(0, va, perm)`, or the negative value returned. A page that was mapped there goes back
to the free list. -/
def sysPageAlloc (va perm : Nat) (s : Bc) : Except Int Bc :=
  if badPerm perm then .error (-eInval)
  else
    match s.free with
    | [] => .error (-eNoMem)
    | p :: free =>
      .ok { s with
        uvpt := update s.uvpt (pageOf va) (entry p (pteP ||| perm))
        mem := clearBlock s.mem (1024 * pageOf va)
        free := if present (s.uvpt (pageOf va)) then ppn (s.uvpt (pageOf va)) :: free else free }

/-- `sys_page_map(0, va, 0, va, perm)` of a page that is mapped. -/
def sysPageMap (va perm : Nat) (s : Bc) : Except Int Bc :=
  if badPerm perm then .error (-eInval)
  else .ok { s with
    uvpt := update s.uvpt (pageOf va) (entry (ppn (s.uvpt (pageOf va))) (pteP ||| perm)) }

def ideRead (secno va nsecs : Nat) (s : Bc) : Bc :=
  let a := (va - diskmap) / 4
  { s with
    uvpt := update s.uvpt (pageOf va) (s.uvpt (pageOf va) ||| pteD)
    mem := fun w => if a ≤ w ∧ w < a + 128 * nsecs then s.disk (128 * secno + (w - a)) else s.mem w }

def ideWrite (secno va nsecs : Nat) (s : Bc) : Bc :=
  let a := (va - diskmap) / 4
  { s with disk := fun w =>
      if 128 * secno ≤ w ∧ w < 128 * secno + 128 * nsecs then s.mem (a + (w - 128 * secno)) else s.disk w }

/-- `block_is_free`, where `load` reads a word of the disk map. -/
def blockIsFree (load : Nat → Bc → Res (Nat × Bc)) (blockno : Nat) (s : Bc) : Res (Bool × Bc) := do
  let (n, s) ← load 1025 s
  if n ≤ blockno then return (false, s)
  else
    let (bits, s) ← load (bitmapWord blockno) s
    return (flag bits (2 ^ (blockno % 32)), s)

/-- `sys_page_map` with the permission bits that the page has, which clears its dirty bit. -/
def remap (addr : Nat) (s : Bc) : Except Int Bc := s.sysPageMap addr (s.uvpt (pageOf addr) &&& pteSyscall)

/-- `if ((r = call) < 0) panic(msg)`. -/
def orPanic {α : Type} (msg : String) : Except Int α → Res α
  | .ok a => .ok a
  | .error _ => .error (.panic msg)

/-- The calls of `bc_pgfault` that read the block into a fresh page at `addr`. -/
def readIn (blockno addr : Nat) (s : Bc) : Res Bc := do
  let s ← orPanic "sys_page_alloc error in bc_pgfault" (s.sysPageAlloc addr (pteU ||| pteW ||| pteP))
  orPanic "sys_page_map error in bc_pgfault" ((s.ideRead (blockno * 8) addr blksects).remap addr)

/-- `bc_pgfault` for a fault at `va`. Its own accesses to the super block and the bitmap can fault. -/
def bcPgfault (load : Nat → Bc → Res (Nat × Bc)) (va : Nat) (s : Bc) : Res Bc := do
  let blockno := toU32 (va - diskmap) / blksize
  if va < diskmap ∨ diskmap + disksize ≤ va then .error (.panic "page fault in FS")
  else
    let (n, s) ← load 1025 s
    if n ≤ blockno then .error (.panic "reading non-existent block")
    else
      let s ← readIn blockno (rounddown va) s
      let (free, s) ← blockIsFree load blockno s
      if free = true then .error (.panic "reading free block") else return s

/-- A read of word `w` of the disk map, with room on the exception stack for `n` nested faults. -/
def load : Nat → Nat → Bc → Res (Nat × Bc)
  | 0, w, s => if present (s.uvpt (w / 1024)) then .ok (s.mem w, s) else .error .wild
  | n + 1, w, s =>
    if present (s.uvpt (w / 1024)) then .ok (s.mem w, s)
    else do
      let s ← bcPgfault (load n) (diskmap + 4 * w) s
      if present (s.uvpt (w / 1024)) then .ok (s.mem w, s) else .error .wild

def write (w v : Nat) (s : Bc) : Bc :=
  { s with
    uvpt := update s.uvpt (w / 1024) (s.uvpt (w / 1024) ||| pteD)
    mem := update s.mem w v }

def store (n w v : Nat) (s : Bc) : Res Bc :=
  if present (s.uvpt (w / 1024)) && writable (s.uvpt (w / 1024)) then .ok (s.write w v)
  else do
    let s ← bcPgfault (load n) (diskmap + 4 * w) s
    if present (s.uvpt (w / 1024)) && writable (s.uvpt (w / 1024)) then .ok (s.write w v) else .error .wild

/-- The handler faults for the bitmap block of a block, and then for the bitmap block of that one. -/
def nesting : Nat := 2

def flushBlock (va : Nat) (s : Bc) : Res Bc := do
  let blockno := toU32 (va - diskmap) / blksize
  if va < diskmap ∨ diskmap + disksize ≤ va then .error (.panic "flush_block of bad va")
  else
    let addr := rounddown va
    if vaIsMapped s addr = false then return s
    else if vaIsDirty s addr = false then return s
    else orPanic "sys_page_map error in flush_block" ((s.ideWrite (blockno * 8) addr 8).remap addr)

/-- `n` rounds of the loop of `fs_sync`. -/
def syncLoop : Nat → Nat → Bc → Res Bc
  | 0, _, s => .ok s
  | n + 1, i, s => do
    let (nblocks, s) ← load (nesting + 1) 1025 s
    if i < nblocks then
      if i = 0 ∨ nblocks ≤ i then .error (.panic "bad block number in diskaddr")
      else
        let s ← flushBlock (diskmap + i * blksize) s
        syncLoop n (i + 1) s
    else return s

/-- Nothing that the loop does changes `s_nblocks`, so it has at most that many rounds. -/
def fsSync (s : Bc) : Res Bc := do
  let (nblocks, s) ← load (nesting + 1) 1025 s
  syncLoop nblocks 1 s

/-! ## What the server sees -/

/-- The disk as the server sees it: the page of a block that is mapped, the disk otherwise. -/
def view (s : Bc) : Mem := fun w => if present (s.uvpt (w / 1024)) then s.mem w else s.disk w

structure Coherent (s : Bc) : Prop where
  usable : ∀ b, present (s.uvpt b) = true → writable (s.uvpt b) = true ∧ flag (s.uvpt b) pteU = true
  clean : ∀ w, present (s.uvpt (w / 1024)) = true → flag (s.uvpt (w / 1024)) pteD = false → s.mem w = s.disk w
  super : present (s.uvpt 1) = true

structure Faulted (s s' : Bc) : Prop where
  disk : s'.disk = s.disk
  kept : ∀ b, present (s.uvpt b) = true → s'.uvpt b = s.uvpt b
  view : s'.view = s.view
  coherent : Coherent s'

section

/-- The entry that `sys_page_map` makes of `w` with the permission bits of `w`. -/
def remapped (w : Nat) : Nat := entry (ppn w) (pteP ||| (w &&& pteSyscall))

lemma present_remapped (w : Nat) : present (remapped w) := present_entry _ _

lemma writable_remapped (w : Nat) : writable (remapped w) = writable w := by
  rw [remapped, writable_entry, writable, flag_and]
  rfl

lemma user_remapped (w : Nat) : flag (remapped w) pteU = flag w pteU := by
  rw [remapped, flag_entry (by decide), flag_or, flag_and]
  rfl

lemma clean_remapped (w : Nat) : flag (remapped w) pteD = false := by
  rw [remapped, flag_entry (by decide), flag_or, flag_and]
  exact congrArg (· != 0) (Nat.and_zero w)

lemma badPerm_syscall (hp : present w) (hu : flag w pteU) : badPerm (w &&& pteSyscall) = false := by
  have hup : w &&& (pteU ||| pteP) = pteU ||| pteP := by
    rw [Nat.and_or_distrib_left]
    exact congrArg₂ (· ||| ·) (and_of_flag (i := 2) hu) (and_of_flag (i := 0) hp)
  have hmask : (w &&& pteSyscall) &&& (pteU ||| pteP) = pteU ||| pteP := by
    rw [Nat.and_assoc, show pteSyscall &&& (pteU ||| pteP) = pteU ||| pteP by decide, hup]
  have hrest : (w &&& pteSyscall) &&& (0xFFFFFFFF ^^^ pteSyscall) = 0 := by
    rw [Nat.and_assoc, show pteSyscall &&& (0xFFFFFFFF ^^^ pteSyscall) = 0 by decide, Nat.and_zero]
  unfold badPerm flag
  rw [hmask, hrest]
  rfl

lemma present_or_dirty (w : Nat) : present (w ||| pteD) = present w :=
  (flag_or w pteD pteP).trans (Bool.or_false _)

lemma writable_or_dirty (w : Nat) : writable (w ||| pteD) = writable w :=
  (flag_or w pteD pteW).trans (Bool.or_false _)

lemma user_or_dirty (w : Nat) : flag (w ||| pteD) pteU = flag w pteU :=
  (flag_or w pteD pteU).trans (Bool.or_false _)

lemma dirty_or_dirty (w : Nat) : flag (w ||| pteD) pteD :=
  (flag_or w pteD pteD).trans (Bool.or_true _)

end

section
variable {va : Nat}

lemma pageOf_rounddown (hlo : diskmap ≤ va) : pageOf (rounddown va) = pageOf va := by
  unfold pageOf pgnum rounddown
  omega

lemma blockno_eq (hlo : diskmap ≤ va) (hhi : va < diskmap + disksize) :
    toU32 ((va : Int) - diskmap) / blksize = pageOf va := by
  have hu := toU32_of_range (i := (va : Int) - diskmap) (by omega) (by unfold diskmap disksize at *; omega)
  unfold pageOf pgnum blksize
  unfold diskmap disksize at *
  omega

lemma rounddown_words (hlo : diskmap ≤ va) : (rounddown va - diskmap) / 4 = 1024 * pageOf va := by
  unfold pageOf pgnum rounddown
  unfold diskmap at *
  omega

lemma pageOf_word (w : Nat) : pageOf (diskmap + 4 * w) = w / 1024 := by
  unfold pageOf pgnum diskmap
  omega

end

def faultIn (b p : Nat) (free : List Nat) (s : Bc) : Bc :=
  { s with
    uvpt := update s.uvpt b (remapped (entry p (pteP ||| (pteU ||| pteW ||| pteP)) ||| pteD))
    mem := fun w => if w / 1024 = b then s.disk w else s.mem w
    free := free }

section
variable {s : Bc}

lemma sysPageAlloc_eq (hb : pageOf va = b) (hnew : present (s.uvpt b) = false)
    (hfree : s.free = p :: free) : s.sysPageAlloc va (pteU ||| pteW ||| pteP) =
      .ok { s with
        uvpt := update s.uvpt b (entry p (pteP ||| (pteU ||| pteW ||| pteP)))
        mem := clearBlock s.mem (1024 * b)
        free := free } := by
  unfold sysPageAlloc
  rw [if_neg (by decide), hfree]
  dsimp only
  rw [hb, hnew]
  rfl

lemma remap_eq (hb : pageOf va = b) (hp : present (s.uvpt b)) (hu : flag (s.uvpt b) pteU) :
    s.remap va = .ok { s with uvpt := update s.uvpt b (remapped (s.uvpt b)) } := by
  unfold remap sysPageMap
  rw [hb, badPerm_syscall hp hu, if_neg Bool.false_ne_true]
  rfl

lemma user_alloc (p : Nat) : flag (entry p (pteP ||| (pteU ||| pteW ||| pteP)) ||| pteD) pteU := by
  rw [user_or_dirty, flag_entry (by decide)]
  rfl

lemma writable_alloc (p : Nat) : writable (entry p (pteP ||| (pteU ||| pteW ||| pteP)) ||| pteD) := by
  rw [writable_or_dirty, writable_entry]
  rfl

lemma present_alloc (p : Nat) : present (entry p (pteP ||| (pteU ||| pteW ||| pteP)) ||| pteD) := by
  rw [present_or_dirty, present_entry]

lemma ideRead_eq (hb : pageOf va = b) (hwords : (va - diskmap) / 4 = 1024 * b) : s.ideRead (b * 8) va blksects =
      { s with
        uvpt := update s.uvpt b (s.uvpt b ||| pteD)
        mem := fun w => if w / 1024 = b then s.disk w else s.mem w } := by
  have hmem : (fun w => if 1024 * b ≤ w ∧ w < 1024 * b + 128 * blksects then s.disk (128 * (b * 8) + (w - 1024 * b))
      else s.mem w) = fun w => if w / 1024 = b then s.disk w else s.mem w := by
    funext w
    have hin : (1024 * b ≤ w ∧ w < 1024 * b + 128 * blksects) ↔ w / 1024 = b := by
      unfold blksects
      omega
    by_cases hw : w / 1024 = b
    · rw [if_pos (hin.mpr hw), if_pos hw, show 128 * (b * 8) + (w - 1024 * b) = w by omega]
    · rw [if_neg (fun h => hw (hin.mp h)), if_neg hw]
  unfold ideRead
  rw [hb, hwords]
  dsimp only
  rw [hmem]

lemma readIn_eq (hlo : diskmap ≤ va) (hb : pageOf va = b)
    (hnew : present (s.uvpt b) = false) (hfree : s.free = p :: free) :
    readIn b (rounddown va) s = .ok (s.faultIn b p free) := by
  have hb' : pageOf (rounddown va) = b := (pageOf_rounddown hlo).trans hb
  have hwords : (rounddown va - diskmap) / 4 = 1024 * b := by rw [rounddown_words hlo, hb]
  have hmem : (fun w => if w / 1024 = b then s.disk w else clearBlock s.mem (1024 * b) w) =
      fun w => if w / 1024 = b then s.disk w else s.mem w := by
    funext w
    by_cases hw : w / 1024 = b
    · rw [if_pos hw, if_pos hw]
    · rw [if_neg hw, if_neg hw]
      exact if_neg (by omega)
  have halloc := sysPageAlloc_eq hb' hnew hfree
  generalize hs1 : ({ s with
    uvpt := update s.uvpt b (entry p (pteP ||| (pteU ||| pteW ||| pteP)))
    mem := clearBlock s.mem (1024 * b)
    free := free } : Bc) = s1 at halloc
  have hread : s1.ideRead (b * 8) (rounddown va) blksects = _ := ideRead_eq hb' hwords
  generalize hs2 : ({ s1 with
    uvpt := update s1.uvpt b (s1.uvpt b ||| pteD)
    mem := fun w => if w / 1024 = b then s1.disk w else s1.mem w } : Bc) = s2 at hread
  have hword : s2.uvpt b = entry p (pteP ||| (pteU ||| pteW ||| pteP)) ||| pteD := by
    rw [← hs2, ← hs1]
    dsimp only
    rw [update_self, update_self]
  have hmap : s2.remap (rounddown va) = _ :=
    remap_eq hb' (by rw [hword]; exact present_alloc p) (by rw [hword]; exact user_alloc p)
  unfold readIn
  rw [halloc, orPanic, ok_bind, hread, hmap, orPanic]
  rw [hword, ← hs2, ← hs1]
  dsimp only
  rw [hmem, update_idem, update_idem]
  rfl

lemma readIn_full {addr : Nat} (hfree : s.free = []) :
    readIn b addr s = .error (.panic "sys_page_alloc error in bc_pgfault") := by
  have halloc : s.sysPageAlloc addr (pteU ||| pteW ||| pteP) = .error (-eNoMem) := by
    unfold sysPageAlloc
    rw [if_neg (by decide), hfree]
  unfold readIn
  rw [halloc]
  rfl

lemma faultIn_faulted (h : Coherent s) (hnew : present (s.uvpt b) = false) (p : Nat) (free : List Nat) :
    Faulted s (s.faultIn b p free) := by
  have hentry : ∀ c, c ≠ b → (s.faultIn b p free).uvpt c = s.uvpt c := fun c hc => update_of_ne hc _ _
  have hself : (s.faultIn b p free).uvpt b = remapped (entry p (pteP ||| (pteU ||| pteW ||| pteP)) ||| pteD) :=
    update_self ..
  have hne : ∀ c, present (s.uvpt c) → c ≠ b := by
    rintro c hc rfl
    rw [hnew] at hc
    cases hc
  refine ⟨rfl, fun c hc => hentry c (hne c hc), funext fun w => ?_, ?_, fun w hw hclean => ?_, ?_⟩
  · unfold view
    by_cases hw : w / 1024 = b
    · rw [hw, hself, present_remapped, hnew, if_pos rfl, if_neg Bool.false_ne_true]
      exact if_pos hw
    · rw [hentry _ hw]
      split
      · exact if_neg hw
      · rfl
  · intro c hc
    by_cases hcb : c = b
    · rw [hcb, hself, writable_remapped, user_remapped]
      exact ⟨writable_alloc p, user_alloc p⟩
    · rw [hentry c hcb] at hc ⊢
      exact h.usable c hc
  · by_cases hwb : w / 1024 = b
    · exact if_pos hwb
    · rw [hentry _ hwb] at hw hclean
      exact (if_neg hwb).trans (h.clean w hw hclean)
  · rw [hentry 1 (hne 1 h.super)]
    exact h.super

lemma Faulted.refl (h : Coherent s) : Faulted s s := ⟨rfl, fun _ _ => rfl, rfl, h⟩

lemma Faulted.trans {s1 s2 : Bc} (h : Faulted s s1) (h' : Faulted s1 s2) : Faulted s s2 := by
  refine ⟨h'.disk.trans h.disk, fun b hb => ?_, h'.view.trans h.view, h'.coherent⟩
  have hb' := h.kept b hb
  rw [h'.kept b (by rwa [hb']), hb']

lemma Faulted.present {s' : Bc} (h : Faulted s s') (hb : Jos.present (s.uvpt b)) :
    Jos.present (s'.uvpt b) := by
  rwa [h.kept b hb]

lemma load_mapped (hw : present (s.uvpt (w / 1024))) (n : Nat) : load n w s = .ok (s.view w, s) := by
  have hview : s.view w = s.mem w := if_pos hw
  rw [hview]
  cases n with
  | zero =>
    unfold load
    rw [if_pos hw]
  | succ n =>
    unfold load
    rw [if_pos hw]

lemma load_super (hs : present (s.uvpt 1)) (n : Nat) : load n 1025 s = .ok (sNblocks s.view, s) :=
  load_mapped hs n

lemma bcPgfault_eq (h : Coherent s) (n : Nat) (hlo : diskmap ≤ va) (hhi : va < diskmap + disksize)
    (hb : pageOf va = b) (hnew : present (s.uvpt b) = false) : bcPgfault (load n) va s =
      if sNblocks s.view ≤ b then .error (.panic "reading non-existent block")
      else
        match s.free with
        | [] => .error (.panic "sys_page_alloc error in bc_pgfault")
        | p :: free => do
          let (bits, s) ← load n (bitmapWord b) (s.faultIn b p free)
          if flag bits (2 ^ (b % 32)) then .error (.panic "reading free block") else return s := by
  unfold bcPgfault
  rw [if_neg (by omega), load_super h.super, ok_bind, blockno_eq hlo hhi, hb]
  dsimp only
  by_cases hn : sNblocks s.view ≤ b
  · rw [if_pos hn, if_pos hn]
  · rw [if_neg hn, if_neg hn]
    cases hfree : s.free with
    | nil =>
      rw [readIn_full hfree]
      rfl
    | cons p free =>
      have hfault := faultIn_faulted h hnew p free
      rw [readIn_eq hlo hb hnew hfree, ok_bind]
      unfold blockIsFree
      rw [load_super (hfault.present h.super), ok_bind, hfault.view]
      dsimp only
      rw [if_neg hn]
      cases load n (bitmapWord b) (s.faultIn b p free) <;> rfl

lemma bcPgfault_spec (h : Coherent s) (hnew : present (s.uvpt (pageOf va)) = false)
    (hload : ∀ w s, Coherent s → Post (fun _ => True) (fun out => Faulted s out.2) (load n w s)) :
    Post (fun _ => True) (fun s' => Faulted s s' ∧ present (s'.uvpt (pageOf va))) (bcPgfault (load n) va s) := by
  by_cases hout : va < diskmap ∨ diskmap + disksize ≤ va
  · unfold bcPgfault
    rw [if_pos hout]
    exact .throw trivial
  · rw [bcPgfault_eq h n (by omega) (by omega) rfl hnew]
    split
    · exact .throw trivial
    · split
      · exact .throw trivial
      · rename_i p free _
        have hfault := faultIn_faulted h hnew p free
        have hpresent : present ((s.faultIn (pageOf va) p free).uvpt (pageOf va)) := by
          unfold faultIn
          dsimp only
          rw [update_self]
          exact present_remapped _
        refine (hload _ _ hfault.coherent).bind fun out hout => ?_
        dsimp only
        split
        · exact .throw trivial
        · exact .pure ⟨hfault.trans hout, hout.present hpresent⟩

lemma load_spec (n w : Nat) (h : Coherent s) : Post (fun _ => True)
    (fun out => out.1 = s.view w ∧ Faulted s out.2) (load n w s) := by
  induction n generalizing w s with
  | zero =>
    by_cases hw : present (s.uvpt (w / 1024))
    · rw [load_mapped hw]
      exact .pure ⟨rfl, .refl h⟩
    · unfold load
      rw [if_neg hw]
      exact .throw trivial
  | succ n ih =>
    by_cases hw : present (s.uvpt (w / 1024))
    · rw [load_mapped hw]
      exact .pure ⟨rfl, .refl h⟩
    · unfold load
      rw [if_neg hw]
      have hnew : present (s.uvpt (pageOf (diskmap + 4 * w))) = false := by
        rw [pageOf_word]
        exact Bool.eq_false_iff.mpr hw
      refine (bcPgfault_spec h hnew fun w s h => (ih w h).mono (fun _ _ => trivial) fun _ hout => hout.2).bind
        fun s' hs' => ?_
      rw [pageOf_word] at hs'
      rw [if_pos hs'.2]
      refine .pure ⟨?_, hs'.1⟩
      rw [← hs'.1.view]
      exact (if_pos hs'.2).symm

structure Wrote (w v : Nat) (s s' : Bc) : Prop where
  disk : s'.disk = s.disk
  view : s'.view = update s.view w v
  coherent : Coherent s'

lemma write_spec (h : Coherent s) (hw : present (s.uvpt (w / 1024))) (v : Nat) :
    Wrote w v s (s.write w v) := by
  have hpresent : ∀ b, present ((s.write w v).uvpt b) = present (s.uvpt b) := by
    intro b
    by_cases hb : b = w / 1024
    · rw [hb]
      unfold write
      dsimp only
      rw [update_self, present_or_dirty]
    · exact congrArg present (update_of_ne hb _ _)
  refine ⟨rfl, funext fun w' => ?_, fun b hb => ?_, fun w' hw' hclean => ?_, ?_⟩
  · unfold view
    rw [hpresent]
    by_cases heq : w' = w
    · rw [heq, hw, if_pos rfl, update_self]
      exact update_self ..
    · rw [update_of_ne heq]
      have hmem : (s.write w v).mem w' = s.mem w' := update_of_ne heq _ _
      rw [hmem]
      rfl
  · rw [hpresent] at hb
    by_cases heq : b = w / 1024
    · have hself : (s.write w v).uvpt b = s.uvpt b ||| pteD := by
        rw [heq]
        exact update_self ..
      rw [hself, writable_or_dirty, user_or_dirty]
      exact h.usable b hb
    · have hother : (s.write w v).uvpt b = s.uvpt b := update_of_ne heq _ _
      rw [hother]
      exact h.usable b hb
  · rw [hpresent] at hw'
    by_cases heq : w' / 1024 = w / 1024
    · have hself : (s.write w v).uvpt (w' / 1024) = s.uvpt (w' / 1024) ||| pteD := by
        rw [heq]
        exact update_self ..
      rw [hself, dirty_or_dirty] at hclean
      cases hclean
    · have hother : (s.write w v).uvpt (w' / 1024) = s.uvpt (w' / 1024) := update_of_ne heq _ _
      have hmem : (s.write w v).mem w' = s.mem w' := update_of_ne (fun hww => heq (by rw [hww])) _ _
      rw [hother] at hclean
      rw [hmem]
      exact h.clean w' hw' hclean
  · rw [hpresent]
    exact h.super

lemma store_mapped (h : Coherent s) (hw : present (s.uvpt (w / 1024))) (n v : Nat) :
    store n w v s = .ok (s.write w v) := by
  unfold store
  rw [hw, (h.usable _ hw).1]
  rfl

lemma store_unmapped (h : Coherent s) (hw : present (s.uvpt (w / 1024)) = false) (n v : Nat) : store n w v s = (do
      let s ← bcPgfault (load n) (diskmap + 4 * w) s
      .ok (s.write w v)) := by
  have hnew : present (s.uvpt (pageOf (diskmap + 4 * w))) = false := by rwa [pageOf_word]
  have hspec := bcPgfault_spec (n := n) h hnew fun w s h => (load_spec n w h).mono (fun _ _ => trivial) fun _ hout => hout.2
  rw [pageOf_word] at hspec
  unfold store
  rw [hw]
  cases hcase : bcPgfault (load n) (diskmap + 4 * w) s with
  | error e => rfl
  | ok s' =>
    obtain ⟨hfault, hp⟩ := hspec.ok s' hcase
    rw [Bool.false_and, if_neg Bool.false_ne_true, ok_bind, ok_bind, hp, (hfault.coherent.usable _ hp).1]
    rfl

lemma store_spec (n w v : Nat) (h : Coherent s) : Post (fun _ => True) (Wrote w v s) (store n w v s) := by
  cases hw : present (s.uvpt (w / 1024)) with
  | true =>
    rw [store_mapped h hw]
    exact .pure (write_spec h hw v)
  | false =>
    have hnew : present (s.uvpt (pageOf (diskmap + 4 * w))) = false := by rwa [pageOf_word]
    have hspec := bcPgfault_spec (n := n) h hnew fun w s h =>
      (load_spec n w h).mono (fun _ _ => trivial) fun _ hout => hout.2
    rw [pageOf_word] at hspec
    rw [store_unmapped h hw]
    refine hspec.bind fun s' hs' => .pure ?_
    have hwrite := write_spec hs'.1.coherent hs'.2 v
    exact ⟨hwrite.disk.trans hs'.1.disk, by rw [hwrite.view, hs'.1.view], hwrite.coherent⟩

end

section
variable {s : Bc}

/-- What `flush_block` does for block `b`. -/
structure Flushed (b : Nat) (s s' : Bc) : Prop where
  disk : s'.disk = fun w => if w / 1024 = b then s.view w else s.disk w
  mem : s'.mem = s.mem
  present : ∀ c, Jos.present (s'.uvpt c) = Jos.present (s.uvpt c)
  clean : Jos.present (s.uvpt b) = true → flag (s'.uvpt b) pteD = false
  coherent : Coherent s'

lemma Flushed.view {s' : Bc} (h : Flushed b s s') : s'.view = s.view := by
  funext w
  unfold Bc.view
  rw [h.present, h.mem, h.disk]
  dsimp only
  by_cases hp : Jos.present (s.uvpt (w / 1024))
  · rw [if_pos hp, if_pos hp]
  · rw [if_neg hp, if_neg hp]
    split
    · exact if_neg hp
    · rfl

lemma Flushed.same (h : Coherent s)
    (hb : Jos.present (s.uvpt b) → flag (s.uvpt b) pteD = false) : Flushed b s s := by
  refine ⟨funext fun w => ?_, rfl, fun _ => rfl, hb, h⟩
  split
  · rename_i hw
    subst hw
    unfold Bc.view
    by_cases hp : Jos.present (s.uvpt (w / 1024))
    · rw [if_pos hp]
      exact (h.clean w hp (hb hp)).symm
    · rw [if_neg hp]
  · rfl

lemma ideWrite_eq (hwords : (va - diskmap) / 4 = 1024 * b) :
    s.ideWrite (b * 8) va 8 = { s with disk := fun w => if w / 1024 = b then s.mem w else s.disk w } := by
  have hdisk : (fun w => if 128 * (b * 8) ≤ w ∧ w < 128 * (b * 8) + 128 * 8 then s.mem (1024 * b + (w - 128 * (b * 8)))
      else s.disk w) = fun w => if w / 1024 = b then s.mem w else s.disk w := by
    funext w
    have hin : (128 * (b * 8) ≤ w ∧ w < 128 * (b * 8) + 128 * 8) ↔ w / 1024 = b := by omega
    by_cases hw : w / 1024 = b
    · rw [if_pos (hin.mpr hw), if_pos hw, show 1024 * b + (w - 128 * (b * 8)) = w by omega]
    · rw [if_neg (fun h => hw (hin.mp h)), if_neg hw]
  unfold ideWrite
  rw [hwords]
  dsimp only
  rw [hdisk]

lemma flushed_of_dirty (h : Coherent s) (hp : present (s.uvpt b)) : Flushed b s { s with
      disk := fun w => if w / 1024 = b then s.mem w else s.disk w
      uvpt := update s.uvpt b (remapped (s.uvpt b)) } := by
  have hpresent : ∀ c, present (update s.uvpt b (remapped (s.uvpt b)) c) = present (s.uvpt c) := by
    intro c
    by_cases hc : c = b
    · rw [hc, update_self, present_remapped, hp]
    · rw [update_of_ne hc]
  refine ⟨funext fun w => ?_, rfl, hpresent, fun _ => ?_, fun c hc => ?_, fun w hw hclean => ?_, ?_⟩
  · dsimp only
    by_cases hw : w / 1024 = b
    · rw [if_pos hw, if_pos hw]
      unfold Bc.view
      rw [hw, if_pos hp]
    · rw [if_neg hw, if_neg hw]
  · dsimp only
    rw [update_self]
    exact clean_remapped _
  · dsimp only at hc ⊢
    rw [hpresent] at hc
    by_cases hcb : c = b
    · rw [hcb, update_self, writable_remapped, user_remapped]
      exact h.usable b hp
    · rw [update_of_ne hcb]
      exact h.usable c hc
  · dsimp only at hw hclean ⊢
    rw [hpresent] at hw
    by_cases hwb : w / 1024 = b
    · rw [if_pos hwb]
    · rw [update_of_ne hwb] at hclean
      rw [if_neg hwb]
      exact h.clean w hw hclean
  · exact (hpresent 1).trans h.super

lemma flushBlock_spec (h : Coherent s) {va : Nat} (hlo : diskmap ≤ va) (hhi : va < diskmap + disksize) :
    ∃ s', flushBlock va s = .ok s' ∧ Flushed (pageOf va) s s' := by
  have hpage := pageOf_rounddown hlo
  unfold flushBlock
  rw [if_neg (by omega), blockno_eq hlo hhi]
  dsimp only
  by_cases hp : vaIsMapped s (rounddown va) = false
  · rw [if_pos hp]
    unfold vaIsMapped at hp
    rw [hpage] at hp
    refine ⟨s, rfl, .same h fun hp' => ?_⟩
    rw [hp] at hp'
    cases hp'
  · rw [if_neg hp]
    by_cases hd : vaIsDirty s (rounddown va) = false
    · rw [if_pos hd]
      unfold vaIsDirty at hd
      rw [hpage] at hd
      exact ⟨s, rfl, .same h fun _ => hd⟩
    · rw [if_neg hd]
      unfold vaIsMapped at hp
      rw [hpage, Bool.not_eq_false] at hp
      rw [ideWrite_eq (rounddown_words hlo), remap_eq hpage (by exact hp) (by exact (h.usable _ hp).2)]
      exact ⟨_, rfl, flushed_of_dirty h hp⟩

lemma syncLoop_spec (n : Nat) {i : Nat} (h : Coherent s) (hi : 1 ≤ i) (hsmall : sNblocks s.view ≤ 786432)
    (hend : sNblocks s.view ≤ i + n) :
    ∃ s', syncLoop n i s = .ok s' ∧ Coherent s' ∧ s'.view = s.view ∧ s'.mem = s.mem ∧
      (∀ c, present (s'.uvpt c) = present (s.uvpt c)) ∧
      s'.disk = fun w => if i ≤ w / 1024 ∧ w / 1024 < sNblocks s.view then s.view w else s.disk w := by
  have hdone : sNblocks s.view ≤ i →
      s.disk = fun w => if i ≤ w / 1024 ∧ w / 1024 < sNblocks s.view then s.view w else s.disk w := by
    intro hle
    funext w
    rw [if_neg (by omega)]
  induction n generalizing i s with
  | zero => exact ⟨s, rfl, h, rfl, rfl, fun _ => rfl, hdone (by omega)⟩
  | succ n ih =>
    unfold syncLoop
    rw [load_super h.super, ok_bind]
    dsimp only
    by_cases hlt : i < sNblocks s.view
    · have hpage : pageOf (diskmap + i * blksize) = i := by
        unfold pageOf pgnum diskmap blksize
        omega
      obtain ⟨s1, hflush, hs1⟩ := @flushBlock_spec s h (diskmap + i * blksize) (Nat.le_add_right _ _)
        (by unfold disksize blksize; omega)
      rw [hpage] at hs1
      have hview := hs1.view
      obtain ⟨s', hloop, hc, hv, hm, hp, hd⟩ := ih (i := i + 1) hs1.coherent (by omega) (by rw [hview]; exact hsmall)
        (by rw [hview]; omega) (fun hle => by
          funext w
          rw [hview] at hle ⊢
          rw [if_neg (by omega)])
      rw [if_pos hlt, if_neg (by omega), hflush, ok_bind]
      refine ⟨s', hloop, hc, hv.trans hview, hm.trans hs1.mem, fun c => (hp c).trans (hs1.present c), ?_⟩
      rw [hd, hview, hs1.disk]
      funext w
      dsimp only
      by_cases hw : w / 1024 = i
      · rw [if_neg (by omega), if_pos hw, if_pos (by omega)]
      · rw [if_neg hw]
        by_cases hw' : i ≤ w / 1024 ∧ w / 1024 < sNblocks s.view
        · rw [if_pos hw', if_pos (by omega)]
        · rw [if_neg hw', if_neg (by omega)]
    · rw [if_neg hlt]
      exact ⟨s, rfl, h, rfl, rfl, fun _ => rfl, hdone (by omega)⟩

end

structure InUse (m : Mem) (b : Nat) : Prop where
  inRange : b < sNblocks m
  small : sNblocks m ≤ 786432
  used : Fs.blockIsFree m b = false
  bitmap : reservedEnd m ≤ sNblocks m
  reserved : ∀ c, c < reservedEnd m → Fs.blockIsFree m c = false

def depth (b : Nat) : Nat := if b = 2 then 1 else if b < 32768 then 2 else 3

lemma depth_le (b : Nat) : depth b ≤ nesting + 1 := by
  unfold depth nesting
  split
  · omega
  · split <;> omega

section
variable {s : Bc}

lemma InUse.bit {m : Mem} (h : InUse m b) : flag (m (bitmapWord b)) (2 ^ (b % 32)) = false := by
  have hused := h.used
  unfold Fs.blockIsFree at hused
  rwa [decide_eq_true h.inRange, Bool.true_and] at hused

lemma InUse.bitmapBlock {m : Mem} (h : InUse m b) :
    InUse m (bitmapWord b / 1024) ∧ (b ≠ 2 → depth (bitmapWord b / 1024) < depth b) ∧ bitmapWord 2 / 1024 = 2 := by
  have hrange := h.inRange
  have hsmall := h.small
  have hmap := h.bitmap
  have hres : bitmapWord b / 1024 < reservedEnd m := by
    unfold bitmapWord reservedEnd blkbitsize
    omega
  refine ⟨⟨by omega, h.small, h.reserved _ hres, h.bitmap, h.reserved⟩, fun hne => ?_, rfl⟩
  unfold depth bitmapWord
  rw [if_neg hne]
  split_ifs <;> omega

section
variable (h : Coherent s) (hnew : present (s.uvpt (w / 1024)) = false) (huse : InUse s.view (w / 1024))
include h hnew huse

lemma bcPgfault_returns (hfree : s.free = p :: free)
    (hload : ∃ out, load n (bitmapWord (w / 1024)) (s.faultIn (w / 1024) p free) = .ok out) :
    ∃ s', bcPgfault (load n) (diskmap + 4 * w) s = .ok s' := by
  have hrange := huse.inRange
  have hsmall := huse.small
  have hfault := faultIn_faulted h hnew p free
  obtain ⟨⟨v, s'⟩, hout⟩ := hload
  have hv := ((load_spec n _ hfault.coherent).ok _ hout).1
  rw [hfault.view] at hv
  rw [bcPgfault_eq h n (Nat.le_add_right _ _) (by unfold disksize; omega) (pageOf_word w) hnew, if_neg (by omega), hfree]
  dsimp only
  rw [hout, ok_bind]
  dsimp only at hv ⊢
  rw [hv, huse.bit]
  exact ⟨s', rfl⟩

lemma fault_returns (hfree : n + 1 ≤ s.free.length) (hdepth : depth (w / 1024) ≤ n + 1)
    (hload : ∀ {w : Nat} {s : Bc}, Coherent s → InUse s.view (w / 1024) → n ≤ s.free.length → depth (w / 1024) ≤ n →
      ∃ out, load n w s = .ok out) : ∃ s', bcPgfault (load n) (diskmap + 4 * w) s = .ok s' := by
  obtain ⟨p, free, hcons⟩ := List.exists_cons_of_length_pos (show 0 < s.free.length by omega)
  have hfault := faultIn_faulted h hnew p free
  have hlen : (s.faultIn (w / 1024) p free).free.length + 1 = s.free.length := by
    rw [hcons]
    rfl
  obtain ⟨huse', hless, htwo⟩ := huse.bitmapBlock
  refine bcPgfault_returns h hnew huse hcons ?_
  by_cases h2 : w / 1024 = 2
  · refine ⟨_, load_mapped ?_ n⟩
    rw [h2, htwo]
    unfold faultIn
    dsimp only
    rw [update_self]
    exact present_remapped _
  · have hlt := hless h2
    exact hload hfault.coherent (by rw [hfault.view]; exact huse') (by omega) (by omega)

end

lemma load_returns (n : Nat) (h : Coherent s) (huse : InUse s.view (w / 1024)) (hfree : n ≤ s.free.length)
    (hdepth : depth (w / 1024) ≤ n) : ∃ out, load n w s = .ok out := by
  induction n generalizing w s with
  | zero =>
    unfold depth at hdepth
    split_ifs at hdepth <;> omega
  | succ n ih =>
    cases hw : present (s.uvpt (w / 1024)) with
    | true => exact ⟨_, load_mapped hw _⟩
    | false =>
      obtain ⟨s', hs'⟩ := fault_returns h hw huse hfree hdepth ih
      have hnew : present (s.uvpt (pageOf (diskmap + 4 * w))) = false := by rwa [pageOf_word]
      have hp := ((bcPgfault_spec h hnew fun w s h =>
        (load_spec n w h).mono (fun _ _ => trivial) fun _ hout => hout.2).ok _ hs').2
      rw [pageOf_word] at hp
      unfold load
      rw [if_neg (by rw [hw]; exact Bool.false_ne_true), hs', ok_bind, if_pos hp]
      exact ⟨_, rfl⟩

lemma store_returns (h : Coherent s) (huse : InUse s.view (w / 1024)) (hfree : nesting + 1 ≤ s.free.length)
    (v : Nat) : ∃ s', store nesting w v s = .ok s' := by
  cases hw : present (s.uvpt (w / 1024)) with
  | true => exact ⟨_, store_mapped h hw _ _⟩
  | false =>
    obtain ⟨s', hs'⟩ := fault_returns h hw huse hfree (depth_le _) (load_returns nesting)
    rw [store_unmapped h hw, hs']
    exact ⟨_, rfl⟩

end

/-! ## Runs -/

inductive Event where
  | read (w v : Nat)
  | write (w v : Nat)
  | flush (va : Nat)
  | sync

inductive Step : Bc → Event → Bc → Prop where
  | read {s s' : Bc} {w v : Nat} (huse : InUse s.view (w / 1024)) (h : load (nesting + 1) w s = .ok (v, s')) :
      Step s (.read w v) s'
  | write {s s' : Bc} {w v : Nat} (huse : InUse s.view (w / 1024)) (h : store nesting w v s = .ok s') :
      Step s (.write w v) s'
  | flush {s s' : Bc} {va : Nat} (h : flushBlock va s = .ok s') : Step s (.flush va) s'
  | sync {s s' : Bc} (h : fsSync s = .ok s') : Step s .sync s'

inductive Run (s0 : Bc) : List Event → Bc → Prop where
  | nil : Run s0 [] s0
  | snoc {h : List Event} {e : Event} {s s' : Bc} (hrun : Run s0 h s) (hstep : Step s e s') : Run s0 (h ++ [e]) s'

def Event.apply (m : Mem) : Event → Mem
  | .write w v => update m w v
  | _ => m

/-- The memory `m` after the writes of a history: at every word the last value written, or else `m`. -/
def written (m : Mem) (h : List Event) : Mem := h.foldl Event.apply m

/-- As `fs_init` leaves the server: what is in the cache is clean. -/
structure Booted (s : Bc) : Prop where
  coherent : Coherent s
  clean : ∀ b, flag (s.uvpt b) pteD = false

section
variable {s0 s s' : Bc} {e : Event} {h : List Event}

lemma Booted.view_eq (h0 : Booted s0) : s0.view = s0.disk := by
  funext w
  unfold view
  split
  · rename_i hp
    exact h0.coherent.clean w hp (h0.clean _)
  · rfl

lemma fsSync_eq (hc : Coherent s) : fsSync s = syncLoop (sNblocks s.view) 1 s := by
  unfold fsSync
  rw [load_super hc.super, ok_bind]

lemma syncLoop_post (n : Nat) {i : Nat} (hc : Coherent s) (hi : 1 ≤ i) :
    Post (fun _ => True) (fun s' => Coherent s' ∧ s'.view = s.view) (syncLoop n i s) := by
  induction n generalizing i s with
  | zero => exact .pure ⟨hc, rfl⟩
  | succ n ih =>
    unfold syncLoop
    rw [load_super hc.super, ok_bind]
    dsimp only
    by_cases hlt : i < sNblocks s.view
    · rw [if_pos hlt, if_neg (by omega)]
      by_cases hin : diskmap + i * blksize < diskmap + disksize
      · obtain ⟨s1, hflush, hs1⟩ := flushBlock_spec hc (Nat.le_add_right diskmap (i * blksize)) hin
        rw [hflush, ok_bind]
        refine (ih hs1.coherent (by omega)).mono (fun _ _ => trivial) fun s' hs' => ?_
        exact ⟨hs'.1, hs'.2.trans hs1.view⟩
      · have hpanic : flushBlock (diskmap + i * blksize) s = .error (.panic "flush_block of bad va") := by
          unfold flushBlock
          rw [if_pos (by omega)]
        rw [hpanic]
        exact .throw trivial
    · rw [if_neg hlt]
      exact .pure ⟨hc, rfl⟩

lemma Step.kept (hstep : Step s e s') (hc : Coherent s) : Coherent s' ∧ s'.view = e.apply s.view := by
  cases hstep with
  | @read _ w v huse hread =>
    have := ((load_spec _ w hc).ok _ hread).2
    exact ⟨this.coherent, this.view⟩
  | @write _ w v huse hwrite =>
    have := (store_spec nesting w v hc).ok _ hwrite
    exact ⟨this.coherent, this.view⟩
  | @flush _ va hflush =>
    by_cases hout : va < diskmap ∨ diskmap + disksize ≤ va
    · unfold flushBlock at hflush
      rw [if_pos hout] at hflush
      cases hflush
    · obtain ⟨s1, hs1, hspec⟩ := @flushBlock_spec s hc va (by omega) (by omega)
      rw [hs1] at hflush
      cases hflush
      exact ⟨hspec.coherent, hspec.view⟩
  | sync hsync =>
    rw [fsSync_eq hc] at hsync
    exact (syncLoop_post _ hc (Nat.le_refl 1)).ok _ hsync

lemma Run.kept (hrun : Run s0 h s) (h0 : Booted s0) : Coherent s ∧ s.view = written s0.disk h := by
  induction hrun with
  | nil => exact ⟨h0.coherent, h0.view_eq⟩
  | @snoc h e s s' hrun hstep ih =>
    obtain ⟨hc, hv⟩ := hstep.kept ih.1
    refine ⟨hc, hv.trans ?_⟩
    unfold written
    rw [List.foldl_append, ih.2]
    rfl

lemma Run.reads (hrun : Run s0 h s) (h0 : Booted s0) (pre : List Event) (w v : Nat) (post : List Event)
    (heq : h = pre ++ .read w v :: post) : v = written s0.disk pre w := by
  induction hrun generalizing post with
  | nil => exact absurd heq (by simp)
  | @snoc h e s s' hrun hstep ih =>
    rcases List.eq_nil_or_concat post with rfl | ⟨post, e', rfl⟩
    · obtain ⟨rfl, he⟩ := List.append_inj' heq rfl
      cases he
      obtain ⟨hc, hview⟩ := hrun.kept h0
      cases hstep with
      | read huse hread =>
        rw [← hview]
        exact ((load_spec _ w hc).ok _ hread).1
    · rw [List.concat_eq_append, ← List.cons_append, ← List.append_assoc] at heq
      exact ih post (List.append_inj' heq rfl).1

end

/-- Memory, dirty bits and disk stay in step, whatever is read, written and flushed. A read, and a write, of a
block in use returns as long as the kernel has pages for the blocks that are not in the cache yet. -/
theorem block_cache_coherent {s0 s : Bc} {h : List Event} (h0 : Booted s0) (hrun : Run s0 h s) :
    (∀ w, present (s.uvpt (w / 1024)) = true → flag (s.uvpt (w / 1024)) pteD = false → s.mem w = s.disk w) ∧
    (∀ w, InUse s.view (w / 1024) → nesting + 1 ≤ s.free.length →
      (∃ s', load (nesting + 1) w s = .ok (written s0.disk h w, s')) ∧ ∀ v, ∃ s', store nesting w v s = .ok s') ∧
    (∀ pre w v post, h = pre ++ .read w v :: post → v = written s0.disk pre w) ∧
    (∀ va, diskmap ≤ va → va < diskmap + disksize → ∃ s', flushBlock va s = .ok s' ∧ s'.mem = s.mem ∧
      (∀ w, w / 1024 ≠ pageOf va → s'.disk w = s.disk w) ∧
      (present (s.uvpt (pageOf va)) = true → flag (s'.uvpt (pageOf va)) pteD = false)) ∧
    (sNblocks s.view ≤ 786432 → ∃ s', fsSync s = .ok s' ∧ s'.mem = s.mem ∧
      ∀ w, 1 ≤ w / 1024 → w / 1024 < sNblocks s.view → present (s'.uvpt (w / 1024)) = true → s'.disk w = s'.mem w) := by
  obtain ⟨hc, hview⟩ := hrun.kept h0
  refine ⟨hc.clean, fun w huse hfree => ⟨?_, fun v => store_returns hc huse hfree v⟩, ?_, fun va hlo hhi => ?_, fun hsmall => ?_⟩
  · obtain ⟨⟨v, s'⟩, hload⟩ := load_returns (nesting + 1) hc huse hfree (depth_le _)
    have hv : v = s.view w := ((load_spec _ w hc).ok _ hload).1
    rw [hview] at hv
    exact ⟨s', hv ▸ hload⟩
  · exact hrun.reads h0
  · obtain ⟨s', hflush, hs'⟩ := flushBlock_spec hc hlo hhi
    refine ⟨s', hflush, hs'.mem, fun w hw => ?_, hs'.clean⟩
    rw [hs'.disk]
    exact if_neg hw
  · obtain ⟨s', hloop, -, hv, hm, hp, hd⟩ := syncLoop_spec (sNblocks s.view) hc (Nat.le_refl 1) hsmall (by omega)
    refine ⟨s', (fsSync_eq hc).trans hloop, hm, fun w hlo hhi hpw => ?_⟩
    rw [hp] at hpw
    rw [hd, hm]
    dsimp only
    rw [if_pos ⟨hlo, hhi⟩]
    exact if_pos hpw

def smallCache : Bc :=
  let m : Mem := fun w => if w = 1025 then 4 else 0
  ⟨fun b => if b = 1 then entry 9 7 else 0, m, m, [10, 11, 12, 13]⟩

lemma smallCache_booted : Booted smallCache := by
  have huvpt : ∀ b, smallCache.uvpt b = if b = 1 then entry 9 7 else 0 := fun _ => rfl
  refine ⟨⟨fun b hb => ?_, fun _ _ _ => rfl, by decide⟩, fun b => ?_⟩
  · rw [huvpt] at hb ⊢
    split at hb
    · rw [if_pos ‹_›]
      decide
    · exact absurd hb (by decide)
  · rw [huvpt]
    split <;> decide

lemma smallCache_inUse : InUse smallCache.view 3 :=
  ⟨by decide, by decide, by decide, by decide, by decide⟩

theorem block_cache_coherent_write : ∃ s s', Run smallCache [.write 3072 42] s ∧ fsSync s = .ok s' ∧ s'.mem = s.mem := by
  obtain ⟨s, hs⟩ := store_returns smallCache_booted.coherent (w := 3072) smallCache_inUse (by decide) 42
  have hrun : Run smallCache [.write 3072 42] s := .snoc .nil (.write smallCache_inUse hs)
  have hview := (hrun.kept smallCache_booted).2
  obtain ⟨s', hsync, hmem, -⟩ := (block_cache_coherent smallCache_booted hrun).2.2.2.2 (by rw [hview]; decide)
  exact ⟨s, s', hrun, hsync, hmem⟩

end Bc

end Jos.Fs
