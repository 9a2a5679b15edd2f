import Jos.Fs.Behind

/-!
# The functions of the server keep the disk behind the memory

Every state of the disk that a crash could leave is behind some consistent memory: the one
the server had when the block was written, or the one before the blocks of the running
function were written.
-/

namespace Jos.Fs
open Relation WordMem CInt Proc Function

variable {P : Nat → Prop} {count f off : Nat} {m m' : Mem} {newsize : Int} {α β : Type}

/-- The disk `d` is behind the memory `m` by no more than `B m d`. That remains so when a block is written and when a
block `i` of a file `f` with `A m f i` is fetched. A crash may also come between the two blocks that are then written. -/
structure Lag (B C : Mem → Mem → Prop) (A : Mem → Nat → Nat → Prop) : Prop where
  crash : ∀ {m d : Mem}, B m d → C m d
  flush : ∀ {m d : Mem} (b : Nat), B m d → B m (written b m d)
  takes : ∀ {m d : Mem} {b : Nat}, B m d → Owned m → blockIsFree m b = true →
    C m (written (bitmapWord b / 1024) (takeBlock m b) d)
  attach : ∀ {m m' d : Mem} {f i : Nat} {t : Slot} {b : Nat}, B m d → Owned m → A m f i →
    t = .block f i ∨ t = .indirect f ∧ ndirect ≤ i → t.Exists m → m (t.word m) = 0 → Attached m m' t b →
    B m' (written b m' (written (bitmapWord b / 1024) (takeBlock m b) d))
  grown : ∀ {m m' : Mem} {f i : Nat}, A m f i → IsFile m f → GrownFrom m m' → A m' f i

structure DataLag (B C : Mem → Mem → Prop) (A : Mem → Nat → Nat → Prop) : Prop extends Lag B C A where
  data : ∀ {m m' d : Mem} {f : Nat}, B m d → Owned m → m (fType f) ≠ ftypeDir → SameButData f m m' → B m' d
  same : ∀ {m m' : Mem} {f i : Nat}, A m f i → Owned m → SameButData f m m' → A m' f i

section
variable (h : SameButData f m m') (ho : Owned m)
include h ho

lemma SameButData.nblocks_eq : sNblocks m' = sNblocks m :=
  h.meta ho _ (.inl rfl)

lemma SameButData.free_eq (b : Nat) : blockIsFree m' b = blockIsFree m b :=
  blockIsFree_congr (h.nblocks_eq ho) fun hb => h.meta ho _ (.inr (.inl ⟨b, hb, rfl⟩))

lemma SameButData.owned (hreg : m (fType f) ≠ ftypeDir) : Owned m' := by
  obtain ⟨-, -, htree⟩ := h.tree ho hreg
  exact htree.owned (h.nblocks_eq ho) (h.free_eq ho) ho

end

lemma Behind.data {d : Mem} (h : Behind P m d) (ho : Owned m) (hreg : m (fType f) ≠ ftypeDir)
    (hsame : SameButData f m m') : Behind P m' d := by
  obtain ⟨hdir, -, htree⟩ := hsame.tree ho hreg
  refine h.sameTree htree (hsame.nblocks_eq ho) (hsame.free_eq ho) fun D i c j k href hD hj _ _ hk => hdir D i c _ href hD ?_
  unfold blkfiles at hj
  omega

lemma Behind.lag (P : Nat → Prop) : DataLag (Behind P) (Behind P) fun _ _ _ => True where
  crash h := h
  flush b h := h.flush b
  takes h ho hb := (h.takes ho hb).1
  attach h ho _ _ ht hempty ha := h.attach ho ht hempty ha
  grown _ _ _ := trivial
  data h ho hreg hsame := h.data ho hreg hsame
  same _ _ _ := trivial

structure Tracks (B C : Mem → Mem → Prop) (s : Store) : Prop where
  owned : Owned s.mem
  unused : UnusedBlank 34 s.mem
  lags : B s.mem s.disk
  past : ∀ d ∈ s.past, ∃ m, Owned m ∧ C m d

section
variable {B C : Mem → Mem → Prop} {A : Mem → Nat → Nat → Prop} {s : Store}

lemma Tracks.past_cons (h : Tracks B C s) (lag : Lag B C A) : ∀ d ∈ s.disk :: s.past, ∃ m, Owned m ∧ C m d := by
  intro d hd
  rcases List.mem_cons.1 hd with rfl | hd
  · exact ⟨s.mem, h.owned, lag.crash h.lags⟩
  · exact h.past d hd

lemma Tracks.flush (h : Tracks B C s) (lag : Lag B C A) (b : Nat) : Tracks B C (s.flush b) :=
  ⟨h.owned, h.unused, lag.flush b h.lags, h.past_cons lag⟩

lemma Tracks.setMem (h : Tracks B C s) {g : Mem → Mem} (ho : Owned (g s.mem)) (hu : UnusedBlank 34 (g s.mem))
    (hb : B (g s.mem) s.disk) : Tracks B C (s.setMem g) := ⟨ho, hu, hb, h.past⟩

end

namespace Durable
variable {B C : Mem → Mem → Prop} {A : Mem → Nat → Nat → Prop} {s : Store}

lemma run_peek_bind (g : Mem → Proc α) (s : Store) : (peek >>= g).run s = (g s.mem).run s := rfl

lemma keeps_peek {I : Store → Prop} {g : Mem → Proc α} (h : Proc.Keeps I (g s.mem) s) : Proc.Keeps I (peek >>= g) s := h

lemma keeps_look {I : Store → Prop} (r : Mem → Res α) {g : α → Proc β} (h : ∀ a, r s.mem = .ok a → Proc.Keeps I (g a) s) :
    Proc.Keeps I (look r >>= g) s :=
  Proc.Keeps.bind (.read _ s) fun a _ ha => h a ha

lemma keeps_bind {I : Store → Prop} {x : Proc α} {k : Mem → Res (α × Mem)} {E : Crash → Prop}
    {Q : α × Mem → Prop} {g : α → Proc β} (hx : Proc.Keeps I x s) (hk : x.Follows Store.mem k) (hpost : Post E Q (k s.mem))
    (hg : ∀ a s', I s' → Q (a, s'.mem) → Proc.Keeps I (g a) s') : Proc.Keeps I (x >>= g) s :=
  .bind hx fun a hI ha => hg a _ hI (hpost.ok _ (hk.of_ok ha))

lemma fillSlot_run {t : Slot} (ho : Owned s.mem) (ht : t.Exists s.mem) : ((fillSlot (t.word s.mem)).run s).2 = s ∨
    ∃ b m', Attached s.mem m' t b ∧ ((fillSlot (t.word s.mem)).run s).2 = Store.flush b (Store.setMem (fun _ => m')
      (Store.flush (bitmapWord b / 1024) (s.setMem fun _ => takeBlock s.mem b))) := by
  cases halloc : Fs.allocBlock s.mem with
  | none =>
    refine .inl ?_
    simp only [fillSlot, allocBlock, peek, look, run_bind, run_read, halloc]
    rfl
  | some p =>
    obtain ⟨b, m1⟩ := p
    obtain ⟨haddr, hatt, -, -, -⟩ := alloc_attaches ho ht halloc
    obtain ⟨-, -, -, -, rfl⟩ := allocBlock_some halloc
    refine .inr ⟨b, _, hatt, ?_⟩
    have hblock : 1024 * b / 1024 = b := Nat.mul_div_cancel_left b (by decide)
    simp only [fillSlot, allocBlock, peek, look, poke, flushBlock, run_bind, run_read, run_modify, run_pure, halloc,
      Store.setMem, Store.flush, haddr, hblock]

section
variable (lag : Lag B C A)
include lag

lemma flushBlock_keeps (b : Nat) : Proc.Keeps (Tracks B C) (flushBlock b) s := .modify fun h => h.flush lag b

/-- A slot that is empty gets a block: the bitmap reaches the disk first, the cleared block second. -/
theorem fillSlot_keeps {i : Nat} {t : Slot} (hA : A s.mem f i) (hfi : t = .block f i ∨ t = .indirect f ∧ ndirect ≤ i)
    (ht : t.Exists s.mem) (hempty : s.mem (t.word s.mem) = 0) : Proc.Keeps (Tracks B C) (fillSlot (t.word s.mem)) s := by
  intro h
  rcases fillSlot_run h.owned ht with hrun | ⟨b, m', hatt, hrun⟩
  · rw [hrun]
    exact h
  · rw [hrun]
    refine ⟨hatt.owned h.owned ht hempty, hatt.unusedBlank h.owned ht hempty h.unused,
      lag.attach h.lags h.owned hA hfi ht hempty hatt, fun d hd => ?_⟩
    rcases List.mem_cons.1 hd with rfl | hd
    · exact ⟨s.mem, h.owned, lag.takes h.lags h.owned hatt.free⟩
    · exact h.past_cons lag d hd

section
variable {f i : Nat} (hf : IsFile s.mem f) (hA : A s.mem f i)
include hf hA

lemma fileBlockWalk_keeps : Proc.Keeps (Tracks B C) (fileBlockWalk f i) s := by
  unfold fileBlockWalk
  refine .ite (fun _ => .pure _ s) fun _ => .ite (fun _ => .pure _ s) fun hd => keeps_peek (.ite (fun h0 => ?_) fun _ => ?_)
  · refine .bind (fillSlot_keeps lag (t := .indirect f) hA (.inr ⟨rfl, Nat.le_of_not_lt hd⟩) hf h0) fun filled _ _ =>
      .ite (fun _ => ?_) fun _ => .pure _ _
    exact keeps_look _ fun _ _ => .pure _ _
  · exact keeps_look _ fun _ _ => .pure _ _

lemma fileGetBlock_keeps : Proc.Keeps (Tracks B C) (fileGetBlock f i) s := by
  intro h
  refine (Proc.Keeps.bind (fileBlockWalk_keeps lag hf hA) fun slot _ hslot => ?_) h
  cases slot with
  | error r => exact .pure _ _
  | ok w =>
    obtain ⟨slot, m', hwalk, hcases⟩ := fileBlockWalk_spec h.owned hf i
    cases hwalk.symm.trans ((fileBlockWalk_follows f i).of_ok hslot)
    rcases hcases with ⟨⟨r, hr⟩, -⟩ | ⟨-, hw, hex, hsteps, -⟩
    · cases hr
    · injection hw with hw
      subst hw
      refine keeps_peek (.ite (fun h0 => ?_) fun _ => ?_)
      · have hA' := lag.grown hA hf (AttachStep.run hsteps h.owned)
        refine .bind (fillSlot_keeps lag hA' (.inl rfl) hex h0) fun filled _ _ => .ite (fun _ => ?_) fun _ => .pure _ _
        exact keeps_look _ fun _ _ => .pure _ _
      · exact keeps_look _ fun _ _ => .pure _ _

lemma fileGetBlock_bind {g : Int × Option Nat → Proc α} (h : Tracks B C s)
    (hg : ∀ r b s', Tracks B C s' → GrownFrom s.mem s'.mem →
      (∀ a, b = some a → ∃ c, Refers s'.mem (.block f i) c ∧ a = 1024 * c) → Proc.Keeps (Tracks B C) (g (r, b)) s') :
    Proc.Keeps (Tracks B C) (fileGetBlock f i >>= g) s := by
  refine keeps_bind (E := fun _ => False) (Q := fun out => GrownFrom s.mem out.2 ∧
    ∀ a, out.1.2 = some a → ∃ c, Refers out.2 (.block f i) c ∧ a = 1024 * c)
    (fileGetBlock_keeps lag hf hA) (fileGetBlock_follows f i) ?_ fun out s' htr hQ => hg out.1 out.2 s' htr hQ.1 hQ.2
  obtain ⟨r, blk, m', hget, hsteps, hcases⟩ := fileGetBlock_spec h.owned hf i
  have hgrown := AttachStep.run hsteps h.owned
  rw [hget]
  refine .pure ⟨hgrown, fun a ha => ?_⟩
  rcases hcases with ⟨-, rfl, -⟩ | ⟨-, rfl, -⟩ | ⟨-, rfl, hno, hne⟩
  · cases ha
  · cases ha
  · cases ha
    exact ⟨_, ⟨(hgrown.isFile_iff f).2 hf, Nat.lt_of_not_le fun hle => hno (.inl hle), rfl, hne⟩, rfl⟩

end

lemma flushBlocks_keeps (f n i : Nat) : Proc.Keeps (Tracks B C) (flushBlocks f n i) s := by
  induction n generalizing i s with
  | zero => exact .pure _ s
  | succ n ih =>
    unfold flushBlocks
    refine keeps_peek (keeps_look _ fun out _ => ?_)
    cases out.1 with
    | error r => exact ih (i + 1)
    | ok w =>
      refine .ite (fun _ => keeps_look _ fun a _ => .bind (flushBlock_keeps lag _) fun _ _ _ => ih (i + 1)) fun _ => ih (i + 1)

lemma fileFlush_keeps (f : Nat) : Proc.Keeps (Tracks B C) (fileFlush f) s := by
  unfold fileFlush
  refine keeps_peek (.bind (flushBlocks_keeps lag f _ 0) fun _ _ _ => .bind (flushBlock_keeps lag _) fun _ _ _ => ?_)
  exact .ite (fun _ => keeps_look _ fun a _ => flushBlock_keeps lag _) fun _ => .pure _ _

end

/-- The blocks of a directory may be fetched. -/
def Walkable (B : Mem → Mem → Prop) (A : Mem → Nat → Nat → Prop) : Prop :=
  ∀ m d dir n j, B m d → IsFile m dir → m (fType dir) = ftypeDir → dirNblock dir m = .ok n → j < n → A m dir j

section
variable (lag : Lag B C A) {dir : Nat}
include lag

lemma dirSearch_keeps (cond : Mem → Nat → Bool) (hdir : IsFile s.mem dir) (n i : Nat) (blk : Option Nat)
    (hA : ∀ j, j < i + n → A s.mem dir j) : Proc.Keeps (Tracks B C) (dirSearch cond dir n i blk) s := by
  induction n generalizing i blk s with
  | zero => exact .pure _ s
  | succ n ih =>
    intro h
    unfold dirSearch
    refine fileGetBlock_bind lag hdir (hA i (by omega)) h (fun r b s' _ hgrown _ => ?_) h
    refine .ite (fun _ => .pure _ _) fun _ => ?_
    cases b.or blk with
    | none => exact .read _ _
    | some a =>
      refine keeps_peek ?_
      cases (List.range blkfiles).find? fun j => cond s'.mem (a + 64 * j) with
      | some j => exact .pure _ _
      | none => exact ih ((hgrown.isFile_iff dir).2 hdir) (i + 1) (some a) fun j hj => lag.grown (hA j (by omega)) hdir hgrown

lemma dirLookup_keeps (hdir : IsFile s.mem dir) (hA : ∀ n, dirNblock dir s.mem = .ok n → ∀ j, j < n → A s.mem dir j)
    (name : List Nat) : Proc.Keeps (Tracks B C) (dirLookup dir name) s := by
  unfold dirLookup
  refine keeps_look _ fun n hn => .bind (dirSearch_keeps lag _ hdir n 0 none fun j hj => hA n hn j (by omega)) fun res _ _ => ?_
  cases res <;> exact .pure _ _

lemma dirAllocFile_keeps (hdir : IsFile s.mem dir) (hA : ∀ m j, A m dir j) (hB : ∀ m d v, B m d → Owned m → IsFile m dir →
    B (update m (fSize dir) v) d) : Proc.Keeps (Tracks B C) (dirAllocFile dir) s := by
  intro h
  suffices hkeeps : Proc.Keeps (Tracks B C) (dirAllocFile dir) s from hkeeps h
  unfold dirAllocFile
  refine keeps_look _ fun n _ => ?_
  refine keeps_bind (dirSearch_keeps lag _ hdir n 0 none fun j _ => hA _ j) (dirSearch_follows _ _ _ _ _)
    (dirSearch_spec nameEmpty dir n none h.owned hdir fun a ha => nomatch ha) fun res s1 _ hres => ?_
  have hdir1 := (hres.1.isFile_iff dir).2 hdir
  cases res with
  | found e => exact .pure _ _
  | failed r => exact .pure _ _
  | missed blk =>
    refine .bind (.modify fun h1 => ?_) fun _ h2 _ => ?_
    · exact h1.setMem (owned_resize h1.owned hdir1 _) (unusedBlank_resize h1.owned hdir1 _ h1.unused)
        (hB _ _ _ h1.lags h1.owned hdir1)
    have hdir2 := ((sameTree_resize hres.1.owned hdir1 (toU32 (size s1.mem dir + blksize))).isFile_iff dir).2 hdir1
    refine fileGetBlock_bind lag hdir2 (hA _ n) h2 fun r b s3 _ _ _ => ?_
    refine .ite (fun _ => .pure _ _) fun _ => ?_
    cases b.or blk with
    | none => exact .read _ _
    | some a => exact .pure _ _

lemma walkLoop_keeps (hwalk : Walkable B A) (n : Nat) {path : List Nat} (dir : Option Nat) (hf : IsFile s.mem f)
    (hch : Chars path) (hhead : path.head? ≠ some slash) : Proc.Keeps (Tracks B C) (walkLoop n path f dir) s := by
  induction n generalizing path f dir s with
  | zero => exact .pure _ s
  | succ n ih =>
    intro h
    unfold walkLoop
    refine Proc.Keeps.ite (fun _ => .pure _ s) (fun hne => .ite (fun _ => .pure _ s) fun _ => ?_) h
    refine keeps_peek (.ite (fun _ => .pure _ s) fun htype => ?_)
    have hname : Chars (path.takeWhile (· != slash)) := fun c hc => hch c (List.takeWhile_subset _ hc)
    have hA := fun n hn j => hwalk s.mem s.disk f n j h.lags hf (not_not.1 htype) hn
    refine keeps_bind (dirLookup_keeps lag hf hA _) (dirLookup_follows _ _)
      (dirLookup_spec h.owned hf (not_not.1 htype) (takeWhile_ne_nil hne hhead) hname) fun res s' _ hres => ?_
    cases res with
    | ok g =>
      refine ih (some f) (hres.2.1 g rfl) (chars_skipSlash fun c hc => hch c ?_) (head_skipSlash _)
      exact (List.dropWhile_suffix _).subset hc
    | error r => exact .ite (fun _ => .pure _ _) fun _ => .pure _ _

end

section
variable {P : Nat → Prop} (lag : Lag (Behind P) C fun _ _ _ => True) {dir : Nat}
include lag

lemma nameEntry_keeps {name : List Nat} {r : Except Int Nat} (htype : s.mem (fType dir) = ftypeDir) (hname : NameOk name)
    (hentry : ∀ e, r = .ok e → EntryOf s.mem dir e) : Proc.Keeps (Tracks (Behind P) C) (nameEntry dir name r) s := by
  cases r with
  | error r => exact .pure _ s
  | ok e =>
    obtain ⟨i, c, j, href, hj, rfl⟩ := hentry e rfl
    refine .bind (.modify fun h => ?_) fun _ _ _ => .bind (fileFlush_keeps lag dir) fun _ _ _ => .pure _ _
    have hblank := h.unused dir i c j href htype hj
    exact h.setMem (owned_setName h.owned href hj hname htype hblank) (unusedBlank_setName h.owned href hj hname htype hblank h.unused)
      (h.lags.names h.owned h.unused href htype hj hname)

lemma dirAllocFile_behind (hdir : IsFile s.mem dir) : Proc.Keeps (Tracks (Behind P) C) (dirAllocFile dir) s :=
  dirAllocFile_keeps lag hdir (fun _ _ => trivial) fun _ _ v h ho hdir => h.resize ho hdir v

lemma fileCreate_keeps {path : List Nat} (hch : Chars path) : Proc.Keeps (Tracks (Behind P) C) (fileCreate path) s := by
  intro h
  unfold fileCreate
  have hwalk : Walkable (Behind P) fun _ _ _ => True := fun _ _ _ _ _ _ _ _ _ _ => trivial
  refine keeps_bind (walkLoop_keeps lag hwalk _ none .root (chars_skipSlash hch) (head_skipSlash path))
    (walkPath_follows path) (walkPath_spec h.owned hch) (fun w s1 h1 hright => ?_) h
  unfold createAt
  refine .ite (fun _ => .pure _ _) fun hr => ?_
  cases hpdir : w.pdir with
  | none => exact .pure _ _
  | some dir =>
    obtain ⟨hd, hdir, hname⟩ := hright.2.dir dir hpdir hr
    refine .ite (fun _ => .pure _ _) fun _ => ?_
    refine keeps_bind (dirAllocFile_behind lag hd) (dirAllocFile_follows dir) (dirAllocFile_spec h1.owned hd hdir)
      fun res s2 _ hres => nameEntry_keeps lag ?_ hname hres.2
    exact (hres.1.field dir 33 hd (by decide) (.inr (by decide))).trans hdir

end

/-! ## Sizes and data -/

lemma run_change {g : Mem → Res (Unit × Mem)} {k : Mem → Mem} {b : Nat} {a : Int} (h : g s.mem = .ok ((), m)) : ((do
      onMem g
      poke k
      flushBlock b
      return a : Proc Int).run s).2 = Store.flush b (s.setMem fun _ => k m) := by
  simp only [onMem, poke, flushBlock, run_bind, run_modify, run_pure, h, Store.setMem]

section
variable {f : Nat}

/-- Shortening `f` to `newsize` frees no block through an indirect block that `f` keeps. -/
def KeepsIndirect (m : Mem) (f : Nat) (newsize : Int) : Prop := newsize < size m f → ndirect < nblocks newsize →
  ∀ i, nblocks newsize ≤ i → i < nblocks (size m f) → i < ndirect + nindirect → blockAt m f i = 0

lemma fileTruncateBlocks_indirect (ho : Owned m) (hf : IsFile m f) (hlt : newsize < size m f)
    (hkeep : KeepsIndirect m f newsize) (hrun : fileTruncateBlocks f newsize m = .ok m') (hind : m' (fIndirect f) ≠ 0) :
    m' (fIndirect f) = m (fIndirect f) ∧
      ∀ i, ndirect ≤ i → i < ndirect + nindirect → blockAt m' f i = blockAt m f i := by
  obtain ⟨m1, hfree, -, hsame, hblk, -⟩ := freeBlocks_spec ho hf (nblocks (size m f) - nblocks newsize) (nblocks newsize)
  unfold fileTruncateBlocks at hrun
  dsimp only at hrun
  rw [hfree, ok_bind] at hrun
  by_cases hcond : nblocks newsize ≤ ndirect ∧ m1 (fIndirect f) ≠ 0
  · rw [if_pos hcond, freeBlock_eq hcond.2, ok_bind] at hrun
    cases hrun
    exact absurd (update_self _ _ _) hind
  · rw [if_neg hcond] at hrun
    cases hrun
    have hmany : ndirect < nblocks newsize := Nat.lt_of_not_le fun hle => hcond ⟨hle, hind⟩
    refine ⟨hsame, fun i _ hi => ?_⟩
    rw [hblk i hi]
    split
    · rename_i hin
      exact (hkeep hlt hmany i hin.1 (by omega) hi).symm
    · rfl

lemma fileSetSize_keeps (lag : Lag B C A) (hf : IsFile s.mem f) (hreg : s.mem (fType f) ≠ ftypeDir)
    (hB : ∀ m1, (if newsize < size s.mem f then fileTruncateBlocks f newsize s.mem else pure s.mem) = .ok m1 →
      ReflTransGen (DetachStep f) s.mem m1 → B s.mem s.disk → B (update m1 (fSize f) (toU32 newsize))
        (written (f / 1024) (update m1 (fSize f) (toU32 newsize)) s.disk)) :
    Proc.Keeps (Tracks B C) (fileSetSize f newsize) s := by
  intro h
  have htrunc : ∃ m1, (if newsize < size s.mem f then fileTruncateBlocks f newsize s.mem else pure s.mem) = .ok m1 ∧
      ReflTransGen (DetachStep f) s.mem m1 := by
    split
    · obtain ⟨m1, hrun, hsteps, -⟩ := fileTruncateBlocks_spec h.owned hf newsize
      exact ⟨m1, hrun, hsteps⟩
    · exact ⟨s.mem, rfl, .refl⟩
  obtain ⟨m1, htr, hsteps⟩ := htrunc
  have hshrunk := DetachStep.run hsteps h.owned hf
  have hrun : ((fileSetSize f newsize).run s).2 =
      Store.flush (f / 1024) (s.setMem fun _ => update m1 (fSize f) (toU32 newsize)) := by
    have hmem : (fun m => ((), m)) <$> (if newsize < size s.mem f then fileTruncateBlocks f newsize s.mem else pure s.mem) =
        Except.ok ((), m1) := by
      rw [htr]
      rfl
    unfold fileSetSize
    refine run_change ?_
    exact hmem
  rw [hrun]
  refine ⟨owned_resize hshrunk.owned hshrunk.isFile _, ?_, hB m1 htr hsteps h.lags, h.past_cons lag⟩
  exact unusedBlank_resize hshrunk.owned hshrunk.isFile _ ((DetachStep.regular hsteps h.owned hf hreg).2 34 h.unused)

/-- Pointers of directories and of files in `P`: the indirect block is not written after it has changed. -/
theorem fileSetSize_behind (hf : IsFile s.mem f) (hreg : s.mem (fType f) ≠ ftypeDir)
    (hkeep : P f → KeepsIndirect s.mem f newsize) : Proc.Keeps (Tracks (Behind P) (Behind P)) (fileSetSize f newsize) s := by
  intro h
  refine fileSetSize_keeps (Behind.lag P).toLag hf hreg (fun m1 htr hsteps hbehind => hbehind.shrink h.owned hf hreg hsteps _ fun hP => ?_) h
  split at htr
  · rename_i hlt
    exact fileTruncateBlocks_indirect h.owned hf hlt (hkeep hP) htr
  · cases htr
    exact fun _ => ⟨rfl, fun _ _ _ => rfl⟩

lemma onMem_bind {g : Mem → Res (α × Mem)} {k : α → Proc β}
    (hk : ∀ a m', g s.mem = .ok (a, m') → Tracks B C (s.setMem fun _ => m') ∧ Proc.Keeps (Tracks B C) (k a) (s.setMem fun _ => m')) :
    Proc.Keeps (Tracks B C) (onMem g >>= k) s := by
  intro h
  cases hg : g s.mem with
  | error e =>
    have hrun : ((onMem g >>= k).run s).2 = s := by simp only [run_bind, onMem, hg]
    rwa [hrun]
  | ok out =>
    obtain ⟨hnext, hkeeps⟩ := hk out.1 out.2 hg
    have hrun : ((onMem g >>= k).run s).2 = ((k out.1).run (s.setMem fun _ => out.2)).2 := by simp only [run_bind, onMem, hg]
    rw [hrun]
    exact hkeeps hnext

lemma writeMove_mem {cached : Nat → Bool} {buf : Mem → Nat → Nat} {a n done : Nat} {out : Nat × Mem}
    (h : writeMove cached buf a n done m = .ok out) : out.2 = putBytes m a ((List.range n).map fun i => buf m (done + i)) := by
  unfold writeMove at h
  cases htouch : touchBytes cached m a n with
  | error e =>
    rw [htouch] at h
    cases h
  | ok u =>
    rw [htouch, ok_bind] at h
    cases h
    rfl

lemma moveBlocks_keeps (lag : DataLag B C A) (cached : Nat → Bool) (buf : Mem → Nat → Nat) {stop : Nat} (hstop : stop < 2147483648) (n : Nat)
    {p : Nat} (hle : p ≤ stop) {blk : Option Nat} {acc : Nat} (hf : IsFile s.mem f) (hreg : s.mem (fType f) ≠ ftypeDir)
    (hA : ∀ p, p < stop → A s.mem f (p / 4096)) (hblk : ∀ a, blk = some a → ∃ i c, Refers s.mem (.block f i) c ∧ a = 1024 * c) :
    Proc.Keeps (Tracks B C) (moveBlocks (writeMove cached buf) f stop n p blk acc) s := by
  induction n generalizing p blk acc s with
  | zero => exact .pure _ s
  | succ n ih =>
    intro h
    suffices hkeeps : Proc.Keeps (Tracks B C) (moveBlocks (writeMove cached buf) f stop (n + 1) p blk acc) s from hkeeps h
    by_cases hp : p < stop
    · obtain ⟨hpos, hblock, hrest, hroom, hleft⟩ := position_at hp (by omega)
      unfold moveBlocks
      rw [hpos, if_pos hp, hblock, hrest, hroom, hleft]
      refine fileGetBlock_bind lag.toLag hf (hA p hp) h fun r b s1 h1 hgrown hb => .ite (fun _ => .pure _ _) fun _ => ?_
      cases hor : b.or blk with
      | none => exact .read _ _
      | some a =>
        -- the block is the new one, or the one of the round before
        have hat : ∃ i c, Refers s1.mem (.block f i) c ∧ a = 1024 * c := by
          rcases Option.or_eq_some_iff.1 hor with hsome | ⟨-, hsome⟩
          · exact ⟨_, hb a hsome⟩
          · obtain ⟨i, c, href, rfl⟩ := hblk a hsome
            exact ⟨i, c, hgrown.refers _ _ href, rfl⟩
        obtain ⟨i, c, href, rfl⟩ := hat
        have hreg1 : s1.mem (fType f) ≠ ftypeDir := by rwa [hgrown.type_eq hf]
        refine onMem_bind fun acc' m' hmove => ?_
        have hsame : SameButData f s1.mem m' := by
          have hm' := writeMove_mem hmove
          rw [show (4 * (1024 * c : Nat) + (p % 4096 : Nat) : Int).toNat = 4096 * c + p % 4096 by omega] at hm'
          dsimp only at hm'
          rw [hm']
          refine SameButData.putBytes (fun _ _ => rfl) href ?_
          rw [List.length_map, List.length_range]
          omega
        obtain ⟨-, -, htree⟩ := hsame.tree h1.owned hreg1
        refine ⟨h1.setMem (hsame.owned h1.owned hreg1) (hsame.unusedBlank h1.owned hreg1 h1.unused)
          (lag.data h1.lags h1.owned hreg1 hsame), ?_⟩
        rw [toI32_of_range (by omega) (by omega)]
        refine ih (p := p + min (4096 - p % 4096) (stop - p)) (by omega) ((htree.isFile_iff f).2 href.1) ?_ (fun q hq => ?_) fun a ha => ?_
        · exact fun hdir => hreg1 ((htree.type f href.1).symm.trans hdir)
        · exact lag.same (lag.grown (hA q hq) hf hgrown) h1.owned hsame
        · cases ha
          exact ⟨i, c, htree.refers_iff.2 href, rfl⟩
    · unfold moveBlocks
      rw [if_neg]
      · exact .pure _ _
      · have hpos := toU32_of_range (i := p) (by omega) (by omega)
        omega

lemma fileSetSize_file (ho : Owned m) (hf : IsFile m f) (hreg : m (fType f) ≠ ftypeDir) (newsize : Int) :
    Post (fun _ => False) (fun out => (IsFile out.2 f ∧ out.2 (fType f) ≠ ftypeDir) ∧ out.2 (fSize f) = toU32 newsize)
      (Fs.fileSetSize f newsize m) := by
  obtain ⟨m1, hrun, hsteps, -⟩ := fileSetSize_spec ho hf newsize
  have hshrunk := DetachStep.run hsteps ho hf
  have htree := sameTree_resize hshrunk.owned hshrunk.isFile (toU32 newsize)
  rw [hrun]
  refine .pure ⟨⟨(htree.isFile_iff f).2 hshrunk.isFile, fun hdir => hreg ?_⟩, update_self _ _ _⟩
  exact (hshrunk.field f 33 hshrunk.isFile (by decide)).symm.trans ((htree.type f hshrunk.isFile).symm.trans hdir)

lemma toU32_stop (hmax : off + count < 2147483648) : toU32 ((off : Int) + count) = off + count := by
  have := toU32_of_range (i := (off : Int) + count) (by omega) (by omega)
  omega

lemma size_lt_stop {stop : Nat} (hlt : toU32 (size m f) < stop) : size m f < stop := by
  have hrange := toI32_range (m (fSize f))
  have hsize : size m f = toI32 (m (fSize f)) := rfl
  by_cases hneg : size m f < 0
  · omega
  · have := toU32_of_range (i := size m f) (by omega) (by omega)
    omega

lemma extendTo_keeps (lag : Lag B C A) (hmax : off + count < 2147483648) (hf : IsFile s.mem f) (hreg : s.mem (fType f) ≠ ftypeDir)
    (hB : size s.mem f < (off + count : Nat) → B s.mem s.disk → B (update s.mem (fSize f) (off + count))
      (written (f / 1024) (update s.mem (fSize f) (off + count)) s.disk)) :
    Proc.Keeps (Tracks B C) (extendTo f (off + count)) s := by
  unfold extendTo
  refine keeps_peek (.ite (fun hlt => fileSetSize_keeps lag hf hreg fun m1 htr _ hlags => ?_) fun _ => .pure _ _)
  rw [toU32_stop hmax] at hlt
  have hless := size_lt_stop hlt
  rw [toI32_of_range (by omega) (by omega)] at htr ⊢
  rw [if_neg (by omega)] at htr
  cases htr
  rw [toU32_stop hmax]
  exact hB hless hlags

lemma fileWrite_keeps (lag : DataLag B C A) (cached : Nat → Bool) (buf : Mem → Nat → Nat)
    (hmax : off + count < 2147483648) (hf : IsFile s.mem f) (hreg : s.mem (fType f) ≠ ftypeDir)
    (hB : size s.mem f < (off + count : Nat) → B s.mem s.disk → B (update s.mem (fSize f) (off + count))
      (written (f / 1024) (update s.mem (fSize f) (off + count)) s.disk))
    (hA : ∀ m, IsFile m f → m (fType f) ≠ ftypeDir →
      m (fSize f) = off + count ∨ m (fSize f) = s.mem (fSize f) ∧ off + count ≤ toU32 (size s.mem f) →
      ∀ p, p < off + count → A m f (p / 4096)) : Proc.Keeps (Tracks B C) (fileWrite cached buf f count off) s := by
  intro h
  suffices hkeeps : Proc.Keeps (Tracks B C) (fileWrite cached buf f count off) s from hkeeps h
  unfold fileWrite
  refine keeps_bind (extendTo_keeps lag.toLag hmax hf hreg hB) (extendTo_follows f _) (E := fun _ => False)
    (Q := fun out => (IsFile out.2 f ∧ out.2 (fType f) ≠ ftypeDir) ∧ (out.2 (fSize f) = off + count ∨
      out.2 (fSize f) = s.mem (fSize f) ∧ off + count ≤ toU32 (size s.mem f))) ?_ fun _ s1 _ hfile => ?_
  · split
    · refine (fileSetSize_file h.owned hf hreg _).mono (fun _ he => he) fun out hout => ⟨hout.1, .inl ?_⟩
      rw [hout.2, toI32_of_range (by omega) (by omega), toU32_stop hmax]
    · rename_i hle
      rw [toU32_stop hmax] at hle
      exact .pure ⟨⟨hf, hreg⟩, .inr ⟨rfl, Nat.le_of_not_lt hle⟩⟩
  · rw [toU32_stop hmax]
    refine .bind (moveBlocks_keeps lag cached buf hmax count (Nat.le_add_right _ _) hfile.1.1 hfile.1.2
      (hA _ hfile.1.1 hfile.1.2 hfile.2) fun a ha => nomatch ha) fun _ _ _ => .pure _ _

end

end Durable

end Jos.Fs
