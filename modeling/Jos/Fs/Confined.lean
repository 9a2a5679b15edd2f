import Jos.Fs.Copy
import Jos.Fs.Image
import Jos.Fs.Serv

/-!
# Requests stay inside the file they name

What `FSREQ_READ` returns and what `FSREQ_WRITE` changes, for every offset that a
client may leave in its `Fd` page. An offset in the block before the file reads
and writes the end of whatever block lies in front of the first block of the file,
and an offset at which `file_block_walk` fails makes the copy use a pointer that
was never set.
-/

namespace Jos.Fs
open WordMem CInt Ownership Function
open Relation (ReflTransGen)

variable {b count f : Nat} {m : Mem} {off : Int} {σ : Type}

def Owns (m : Mem) (f b : Nat) : Prop := ∃ t : Slot, t.file = f ∧ Refers m t b

/-- Bit `k` of word `w` lies in one of the blocks `S`, in the `struct File` of `f`, or in the bitmap where it
stands for one of the blocks `S`. -/
def MayChange (f : Nat) (S : Nat → Prop) (w k : Nat) : Prop :=
  S (w / 1024) ∨ (f ≤ w ∧ w < f + 64) ∨ ∃ b, S b ∧ w = bitmapWord b ∧ k = b % 32

def Confined (f : Nat) (S : Nat → Prop) (m m' : Mem) : Prop :=
  ∀ w k, k < 32 → (m' w).testBit k ≠ (m w).testBit k → MayChange f S w k

section
variable {f : Nat} {S : Nat → Prop} {m m' m1 : Mem}

lemma Confined.refl : Confined f S m m := fun _ _ _ h => absurd rfl h

lemma Confined.trans (h : Confined f S m m1) (h' : Confined f S m1 m') : Confined f S m m' := by
  intro w k hk hne
  by_cases heq : (m' w).testBit k = (m1 w).testBit k
  · exact h w k hk (heq ▸ hne)
  · exact h' w k hk heq

lemma confined_of_word (h : ∀ w, m' w ≠ m w → S (w / 1024) ∨ (f ≤ w ∧ w < f + 64)) : Confined f S m m' := by
  intro w k _ hne
  rcases h w fun heq => hne (by rw [heq]) with hS | hf
  · exact .inl hS
  · exact .inr (.inl hf)

lemma Slot.word_mayChange {s : Slot} (hs : s.Exists m) (hfile : s.file = f) (hS : ∀ b, Owns m f b → S b) (k : Nat) :
    MayChange f S (s.word m) k := by
  obtain ⟨hf, ⟨j, hj, hj', hw, -⟩ | ⟨hind, hw, -⟩⟩ := Slot.word_cases hs
  · rw [hw, hfile]
    exact .inr (.inl ⟨by omega, by omega⟩)
  · rw [hfile] at hf hind hw
    exact .inl (hS _ ⟨.indirect f, rfl, hf, hw.symm, by rwa [hw]⟩)

lemma bitmap_bit {w k : Nat} (hw : w = bitmapWord b) (hk : k < 32) :
    ∃ c, w = bitmapWord c ∧ k = c % 32 ∧ (c = b ↔ k = b % 32) := by
  unfold bitmapWord at hw
  refine ⟨32 * (b / 32) + k, ?_, by omega, by omega⟩
  unfold bitmapWord
  omega

lemma AttachStep.confined {bno : Nat} (h : AttachStep f bno m m') (ho : Owned m) (hS : ∀ b, Owns m' f b → S b) :
    Confined f S m m' := by
  have hgrown := h.grownFrom ho
  obtain ⟨s, b, hs, hempty, hatt, hslot⟩ := h
  have hfile : s.file = f := by
    rcases hslot with rfl | ⟨rfl, -⟩ <;> rfl
  have hb : S b := hS b ⟨s, hfile, (hatt.refers_iff ho hs hempty).mpr (.inr ⟨rfl, rfl⟩)⟩
  intro w k hk hne
  by_cases hword : w = s.word m
  · subst hword
    exact Slot.word_mayChange hs hfile (fun c ⟨t, ht, hc⟩ => hS c ⟨t, ht, hgrown.refers _ _ hc⟩) k
  by_cases hblk : w / 1024 = b
  · exact .inl (hblk ▸ hb)
  by_cases hbm : w = bitmapWord b
  · obtain ⟨c, hc, rfl, hiff⟩ := bitmap_bit hbm hk
    refine .inr (.inr ⟨b, hb, hbm, hiff.mp ?_⟩)
    by_contra hcb
    rw [hbm, hatt.bitmap, ← hbm, hc, testBit_takeBlock, decide_eq_true hcb, Bool.and_true] at hne
    exact hne rfl
  · exact absurd (by rw [hatt.other w hword hblk hbm]) hne

lemma Growth.confined (h : ReflTransGen (Growth f) m m') (ho : Owned m) (hS : ∀ b, Owns m' f b → S b) :
    Confined f S m m' := by
  induction h with
  | refl => exact .refl
  | tail hrun hstep ih =>
    obtain ⟨bno, hstep⟩ := hstep
    have ho1 := (Growth.grownFrom hrun ho).owned
    refine (ih fun b hb => ?_).trans (hstep.confined ho1 hS)
    obtain ⟨t, ht, href⟩ := hb
    exact hS b ⟨t, ht, hstep.refers ho1 href⟩

section
variable (h : ReflTransGen (DetachStep f) m m') (ho : Owned m) (hf : IsFile m f)
include h ho hf

lemma DetachStep.owns (hb : Owns m' f b) : Owns m f b := by
  induction h with
  | refl => exact hb
  | tail hrun hstep ih =>
    obtain ⟨t, ht, href⟩ := hb
    obtain ⟨s, c, -, hs, hdet⟩ := hstep
    exact ih ⟨t, ht, (hdet.refers_of (DetachStep.run hrun ho hf).owned hs href).1⟩

lemma DetachStep.confined (hS : ∀ b, Owns m f b → S b) : Confined f S m m' := by
  induction h with
  | refl => exact .refl
  | @tail m1 m2 hrun hstep ih =>
    refine ih.trans fun w k hk hne => ?_
    have hS1 := fun b hb => hS b (DetachStep.owns hrun ho hf hb)
    obtain ⟨s, b, hfile, hs, hdet⟩ := hstep
    by_cases hword : w = s.word m1
    · subst hword
      exact Slot.word_mayChange (refers_iff.mp hs).1 hfile hS1 k
    by_cases hbm : w = bitmapWord b
    · obtain ⟨c, hc, rfl, hiff⟩ := bitmap_bit hbm hk
      refine .inr (.inr ⟨b, hS1 b ⟨s, hfile, hs⟩, hbm, hiff.mp ?_⟩)
      by_contra hcb
      rw [hbm, hdet.bitmap, ← hbm, hc, testBit_giveBlock, decide_eq_false hcb, Bool.or_false] at hne
      exact hne rfl
    · exact absurd (by rw [hdet.other w hword hbm]) hne

end

lemma Resized.confined (h : Resized f m m') (ho : Owned m) (hf : IsFile m f) (hS : ∀ b, Owns m f b → S b) :
    Confined f S m m' := by
  rcases h with rfl | ⟨m1, v, hrun, rfl⟩
  · exact .refl
  · refine (DetachStep.confined hrun ho hf hS).trans (confined_of_word fun w hw => .inr ?_)
    have hword : w = fSize f := by
      by_contra hne
      exact hw (update_of_ne hne _ _)
    unfold fSize at hword
    omega

end

/-- The blocks of `f` before the call and those that are allocated to it during the call. -/
def WriteBlocks (m : Mem) (f count : Nat) (offset : Int) (b : Nat) : Prop :=
  Owns m f b ∨ ∃ r m', fileAllocate f count offset m = .ok (r, m') ∧ Owns m' f b

/-- The first `n` of `bytes`, stored from byte `a` of `m` up, change only bits that may change. -/
def StoreWithin (f : Nat) (S : Nat → Prop) (m : Mem) (a n : Nat) (bytes : Nat → Nat) : Prop :=
  ∀ j k, j < n → k < 8 → (bytes j).testBit k ≠ (getByte m (a + j)).testBit k →
    MayChange f S ((a + j) / 4) (8 * ((a + j) % 4) + k)

lemma confined_putBytes {S : Nat → Prop} {m' : Mem} (h : Confined f S m m') (a n : Nat) (bytes : Nat → Nat) :
    Confined f S m (putBytes m' a ((List.range n).map bytes)) ↔ StoreWithin f S m a n bytes := by
  have hbit : ∀ (m : Mem) (c k : Nat), k < 8 → (getByte m c).testBit k = (m (c / 4)).testBit (8 * (c % 4) + k) :=
    fun m c k hk => testBit_byteOf _ _ hk
  have hstored : ∀ j k, j < n → k < 8 →
      (getByte (putBytes m' a ((List.range n).map bytes)) (a + j)).testBit k = (bytes j).testBit k := by
    intro j k hj hk
    have hget : ((List.range n).map bytes)[j]?.getD 0 = bytes j := by simp [hj]
    rw [getByte_putBytes, if_pos (by simp [hj]), Nat.add_sub_cancel_left, hget, show 256 = 2 ^ 8 from rfl,
      Nat.testBit_mod_two_pow, decide_eq_true hk, Bool.true_and]
  constructor
  · intro hc j k hj hk hne
    refine hc _ _ (by omega) ?_
    rw [← hbit _ _ _ hk, ← hbit _ _ _ hk, hstored j k hj hk]
    exact hne
  · intro hall w k hk hne
    -- byte `c` has the bit
    obtain ⟨c, i, hi, rfl, rfl⟩ : ∃ c i, i < 8 ∧ w = c / 4 ∧ k = 8 * (c % 4) + i :=
      ⟨4 * w + k / 8, k % 8, by omega, by omega, by omega⟩
    rw [← hbit _ _ _ hi, ← hbit _ _ _ hi] at hne
    by_cases hin : a ≤ c ∧ c < a + n
    · obtain ⟨j, rfl⟩ := Nat.exists_eq_add_of_le hin.1
      rw [hstored j i (by omega) hi] at hne
      exact hall j i (by omega) hi hne
    · rw [getByte_putBytes, if_neg (by simpa using hin), hbit _ _ _ hi, hbit _ _ _ hi] at hne
      exact h _ _ hk hne

/-- Without a block for the first byte a positive count goes through a pointer that was never set. -/
theorem moveBlocks_unreachable (ho : Owned m) (hf : IsFile m f)
    (move : Nat → Nat → σ → Mem → Res (σ × Mem)) (acc : σ) (h0 : 0 < count)
    (h1 : count ≤ 2147483648) (hoff : -2147483648 ≤ off ∧ off < 2147483648)
    (hcase : off + count < 0 ∨ 0 ≤ off) (hbad : off ≤ -4096 ∨ 0 ≤ off ∧ NoWalk m f (off / 4096).toNat) :
    moveBlocks move f (toU32 (off + count)) count off none acc m = .error .wild := by
  have hwalk : NoWalk m f (toU32 (off.tdiv blksize)) := by
    rw [blksize_cast]
    rcases hbad with hneg | ⟨hpos, hno⟩
    · have hdiv := Int.mul_tdiv_add_tmod off 4096
      have hmod := Int.lt_tmod_of_pos off (show (0 : Int) < 4096 by decide)
      have hmod' := Int.tmod_lt_of_pos off (show (0 : Int) < 4096 by decide)
      have hcast := toU32_of_neg (i := off.tdiv 4096) (by omega) (by omega)
      exact .inl (show 1034 ≤ _ by omega)
    · have hcast := toU32_of_range (i := off / 4096) (by omega) (by omega)
      rwa [Int.tdiv_eq_ediv_of_nonneg hpos, show toU32 (off / 4096) = (off / 4096).toNat by omega]
  have hstart : toU32 off < toU32 (off + count) := by
    have hcast := toU32_cast off
    have hcast' := toU32_cast (off + count)
    omega
  obtain ⟨n, rfl⟩ := Nat.exists_eq_succ_of_ne_zero (Nat.pos_iff_ne_zero.mp h0)
  exact moveBlocks_wild _ n _ hstart (fileGetBlock_noWalk ho hf hwalk)

section
variable {m : Mem} (ho : Owned m) {f : Nat} (hf : IsFile m f) {count : Nat} {off : Int}
include ho hf

lemma fileWrite_nonneg (cached : Nat → Bool) (buf : Mem → Nat → Nat) (hoff : 0 ≤ off) (hcount : count ≤ 4096)
    (hwalk : ¬ NoWalk m f (off / 4096).toNat) :
    Post IsPanic (fun out => Confined f (WriteBlocks m f count off) m out.2) (fileWrite cached buf f count off m) := by
  refine (fileWrite_spec ho hf cached buf hoff hwalk hcount).mono (fun _ h => h) ?_
  rintro out ⟨m1, m', r, hres, hgrow, hsame, hallocate⟩
  have hS : ∀ b, Owns m' f b → WriteBlocks m f count off b := fun b hb => .inr ⟨r, m', hallocate, hb⟩
  refine ((hres.confined ho hf fun b hb => .inl hb).trans (Growth.confined hgrow (hres.owned ho hf).1 hS)).trans
    (confined_of_word fun w hw => .inl ?_)
  by_contra hS'
  exact hw (hsame w fun ⟨i, href⟩ => hS' (hS _ ⟨_, rfl, href⟩))

lemma fileWrite_wild (cached : Nat → Bool) (buf : Mem → Nat → Nat) (h0 : 0 < count) (h1 : count ≤ 4096)
    (hoff : -2147483648 ≤ off ∧ off < 2147483648) (hcase : off + count < 0 ∨ 0 ≤ off)
    (hbad : off ≤ -4096 ∨ 0 ≤ off ∧ NoWalk m f (off / 4096).toNat) : fileWrite cached buf f count off m = .error .wild := by
  obtain ⟨m1, hres, -, hno, heq⟩ := fileWriteBy_eq ho hf count off
  obtain ⟨ho1, hf1⟩ := hres.owned ho hf
  have hbad1 : off ≤ -4096 ∨ 0 ≤ off ∧ NoWalk m1 f (off / 4096).toNat := by
    refine hbad.imp_right fun ⟨hpos, hbad⟩ => ⟨hpos, ?_⟩
    by_cases hend : off + count < 2147483648
    · exact (hno hpos hend _).mpr hbad
    · exact .inl (show 1034 ≤ _ by omega)
  unfold fileWrite
  rw [heq, moveBlocks_unreachable ho1 hf1 _ _ h0 (by omega) hoff hcase hbad1]
  rfl

lemma fileWrite_before (buf : Mem → Nat → Nat) (hoff : -4096 < off) (h₀ : 0 < count) (h1 : count ≤ 4096)
    (hneg : off + count < 0) : ∃ r m', fileAllocate f count off m = .ok (r, m') ∧
      Confined f (WriteBlocks m f count off) m m' ∧
      (blockAt m' f 0 = 0 ∧ (∀ cached, fileWrite cached buf f count off m = .ok (r, m')) ∨
        2 ≤ blockAt m' f 0 ∧
          (∀ cached, Post IsPanic
            (fun out => out.2 = putBytes m' (4096 * blockAt m' f 0 + off).toNat ((List.range count).map (buf m')))
            (fileWrite cached buf f count off m)) ∧
          ∃ r', fileWrite (fun _ => true) buf f count off m =
            .ok (r', putBytes m' (4096 * blockAt m' f 0 + off).toNat ((List.range count).map (buf m')))) := by
  obtain ⟨m1, hres, -, -, heq⟩ := fileWriteBy_eq ho hf count off
  obtain ⟨ho1, hf1⟩ := hres.owned ho hf
  obtain ⟨r, blk, m', hget, hrun, hcases⟩ := fileGetBlock_spec ho1 hf1 0
  have hgrown := AttachStep.run hrun ho1
  have hno : ¬ NoWalk m1 f 0 := by
    rintro (h | ⟨h, -⟩)
    · exact absurd h (by decide)
    · exact absurd h (by decide)
  have hallocate : ∀ r, fileAllocate f count off m = .ok (r, m') → Confined f (WriteBlocks m f count off) m m' :=
    fun r hr => (hres.confined ho hf fun b hb => .inl hb).trans
      (Growth.confined (Growth.of_run hrun) ho1 fun b hb => .inr ⟨r, m', hr, hb⟩)
  rcases hcases with ⟨-, -, -, h⟩ | ⟨rfl, rfl, -, h0, hnone⟩ | ⟨rfl, rfl, -, h0⟩
  · exact absurd h hno
  · have hfail : ∀ {σ : Type} (move : Nat → Nat → σ → Mem → Res (σ × Mem)) (acc : σ),
        fileWriteBy move acc f count off m = .ok (-eNoDisk, m') := by
      intro σ move acc
      rw [heq, moveBlocks_before_fails hoff h₀ h1 hneg hget (by decide)]
      exact loop_fails _ _ acc m'
    exact ⟨_, m', hfail _ _, hallocate _ (hfail _ _), .inl ⟨h0, fun cached => hfail _ _⟩⟩
  · have hok : fileAllocate f count off m = .ok (toI32 count, m') := by
      rw [fileAllocate, heq, moveBlocks_before_moves hoff h₀ h1 hneg hget]
      exact loop_returns _ () m'
    have hrange := hgrown.owned.range (.block f 0) _ ⟨(hgrown.isFile_iff f).mpr hf1, by decide, rfl, h0⟩
    have h2 := two_le_reservedEnd m'
    have haddr : (4 * (1024 * blockAt m' f 0 : Nat) + off).toNat = (4096 * blockAt m' f 0 + off).toNat := by omega
    refine ⟨_, m', hok, hallocate _ hok, .inr ⟨by omega, fun cached => ?_, toI32 count, ?_⟩⟩
    · unfold fileWrite
      rw [heq, moveBlocks_before_moves hoff h₀ h1 hneg hget]
      refine Post.map ((writeMove_post cached m' _ count buf 0).bind fun out hout => ?_)
      subst hout
      refine .pure ?_
      simp only [haddr, zero_add]
    · unfold fileWrite
      rw [heq, moveBlocks_before_moves hoff h₀ h1 hneg hget, haddr, writeMove, touchBytes_cached]
      simp only [zero_add]
      exact loop_returns _ count _

end

/-- A write of `count` bytes at `off` stays inside `f`: it copies nothing, or its first block can be reached, or it
begins in the block before the file and what it stores there may be changed. -/
def WriteSafe (m : Mem) (f count : Nat) (off : Int) (buf : Mem → Nat → Nat) : Prop :=
  count = 0 ∨ off < 0 ∧ 0 ≤ off + count ∨ 0 ≤ off ∧ ¬ NoWalk m f (off / 4096).toNat ∨
    -4096 < off ∧ off + count < 0 ∧ ∀ r m', fileAllocate f count off m = .ok (r, m') →
      blockAt m' f 0 = 0 ∨
        StoreWithin f (WriteBlocks m f count off) m (4096 * blockAt m' f 0 + off).toNat count (buf m')

lemma fileWrite_confined_iff (ho : Owned m) (hf : IsFile m f) (hcount : count ≤ 4096)
    (hoff : -2147483648 ≤ off ∧ off < 2147483648) (buf : Mem → Nat → Nat) :
    (∀ cached, Post (· ≠ Crash.wild) (fun out => Confined f (WriteBlocks m f count off) m out.2)
      (fileWrite cached buf f count off m)) ↔ WriteSafe m f count off buf := by
  by_cases hzero : 0 < count ∧ (off + count < 0 ∨ 0 ≤ off)
  · obtain ⟨h₀, hcase⟩ := hzero
    by_cases hbefore : -4096 < off ∧ off + count < 0
    · obtain ⟨hlow, hneg⟩ := hbefore
      obtain ⟨r, m', hallocate, hconf, hwrite⟩ := fileWrite_before ho hf buf hlow h₀ hcount hneg
      have hsafe : WriteSafe m f count off buf ↔ (blockAt m' f 0 = 0 ∨
          StoreWithin f (WriteBlocks m f count off) m (4096 * blockAt m' f 0 + off).toNat count (buf m')) := by
        constructor
        · rintro (h | ⟨-, h⟩ | ⟨h, -⟩ | ⟨-, -, h⟩)
          · omega
          · omega
          · omega
          · exact h r m' hallocate
        · intro h
          refine .inr (.inr (.inr ⟨hlow, hneg, fun r1 m1 h1 => ?_⟩))
          cases hallocate.symm.trans h1
          exact h
      rw [hsafe, ← confined_putBytes hconf]
      rcases hwrite with ⟨h0, hwrite⟩ | ⟨h2, hwrite, r', hcached⟩
      · refine ⟨fun _ => .inl h0, fun _ cached => ?_⟩
        rw [hwrite]
        exact .pure hconf
      · constructor
        · intro h
          exact .inr ((h _).ok _ hcached)
        · rintro (h0 | h) cached
          · omega
          · refine (hwrite cached).mono (fun _ h => h.ne_wild) fun out hout => ?_
            rwa [hout]
    · have hsafe : WriteSafe m f count off buf ↔ 0 ≤ off ∧ ¬ NoWalk m f (off / 4096).toNat := by
        constructor
        · rintro (h | ⟨hlt, h⟩ | h | ⟨hlow, hneg, -⟩)
          · omega
          · omega
          · exact h
          · exact absurd ⟨hlow, hneg⟩ hbefore
        · exact fun h => .inr (.inr (.inl h))
      rw [hsafe]
      constructor
      · intro h
        by_contra hbad
        refine (h fun _ => true).error _ (fileWrite_wild ho hf _ buf h₀ hcount hoff hcase ?_) rfl
        rw [not_and, not_not] at hbad
        by_cases hpos : 0 ≤ off
        · exact .inr ⟨hpos, hbad hpos⟩
        · exact .inl (by omega)
      · rintro ⟨hpos, hwalk⟩ cached
        exact (fileWrite_nonneg ho hf cached buf hpos hcount hwalk).mono (fun _ h => h.ne_wild) fun _ h => h
  · -- the loop copies nothing
    have hsafe : WriteSafe m f count off buf := by
      by_cases h0 : count = 0
      · exact .inl h0
      · exact .inr (.inl (by omega))
    refine ⟨fun _ => hsafe, fun _ cached => ?_⟩
    obtain ⟨r, m1, hrun, hres⟩ := fileWrite_nothing ho hf cached buf hoff.2 hcount (by omega)
    rw [hrun]
    exact .pure (hres.confined ho hf fun b hb => .inl hb)

def AtPos (m : Mem) (f p : Nat) (q : Nat × Nat) : Prop :=
  ∃ b, Refers m (.block f (p / 4096)) b ∧ q = (4096 * b + p % 4096, getByte m (4096 * b + p % 4096))

/-- A read that returns a count has copied that many bytes of `f`, from positions below `sz`. -/
def ReadWithin (f : Nat) (sz : Int) (out : Int × List (Nat × Nat) × Mem) : Prop :=
  0 < out.1 → (out.2.1.length : Int) = out.1 ∧ ∀ q ∈ out.2.1, ∃ p : Nat, p < sz ∧ AtPos out.2.2 f p q

lemma readWithin_of_nonpos {sz r : Int} (h : r ≤ 0) (out : List (Nat × Nat)) (m : Mem) : ReadWithin f sz (r, out, m) :=
  fun hpos => absurd hpos (Int.not_lt.mpr h)

/-- The number of bytes that `file_read` sets out to copy. -/
def readCount (m : Mem) (f count : Nat) (off : Int) : Nat := min count (size m f - off).toNat

lemma AtPos.growth {m' : Mem} (ho : Owned m) (h : ReflTransGen (Growth f) m m') {p : Nat} {q : Nat × Nat}
    (hq : AtPos m f p q) : AtPos m' f p q := by
  obtain ⟨b, href, rfl⟩ := hq
  refine ⟨b, (Growth.grownFrom h ho).refers _ _ href, ?_⟩
  have hdata : InData m f ((4096 * b + p % 4096) / 4) := ⟨p / 4096, by
    rwa [show (4096 * b + p % 4096) / 4 / 1024 = b by omega]⟩
  rw [getByte_congr (Growth.data h ho hdata)]

/-- `file_read` with another way to move the bytes. -/
def fileReadBy {σ : Type} (move : Nat → Nat → σ → Mem → Res (σ × Mem)) (acc : σ) (f count : Nat) (offset : Int) (m : Mem) :
    Res (Int × σ × Mem) := do
  if size m f ≤ offset then return (0, acc, m)
  else
    let count := min count (toU32 (size m f - offset))
    let (r, out, m) ← moveBlocks move f (toU32 (offset + count)) count offset none acc m
    match r with
    | some r => return (r, out, m)
    | none => return (toI32 count, out, m)

lemma fileReadBy_readMove (cached : Nat → Bool) (f count : Nat) (off : Int) (m : Mem) :
    fileReadBy (readMove cached) [] f count off m = fileRead cached f count off m := rfl

lemma read_result (x : Res (Option Int × σ × Mem)) (c : Int) : (do
    let (r, out, m) ← x
    match r with
    | some r => return (r, out, m)
    | none => return (c, out, m) : Res (Int × σ × Mem)) =
      (fun out => (out.1.getD c, out.2.1, out.2.2)) <$> x := by
  cases x with
  | error e => rfl
  | ok out =>
    obtain ⟨r, acc, m⟩ := out
    cases r <;> rfl

lemma fileReadBy_eq (move : Nat → Nat → σ → Mem → Res (σ × Mem)) (acc : σ)
    (hsize : off < size m f) (hoff : -2147483648 ≤ off) (count : Nat) : fileReadBy move acc f count off m =
      (fun out => (out.1.getD (toI32 (readCount m f count off)), out.2.1, out.2.2)) <$>
        moveBlocks move f (toU32 (off + readCount m f count off)) (readCount m f count off) off none acc m := by
  have hrange := toI32_range (m (fSize f))
  have hcount : min count (toU32 (size m f - off)) = readCount m f count off := by
    have hcast := toU32_of_range (i := size m f - off) (by omega) (by unfold size at hsize ⊢; omega)
    unfold readCount
    omega
  unfold fileReadBy
  rw [if_neg (Int.not_le.mpr hsize), hcount]
  exact read_result _ _

lemma fileRead_eq (hsize : off < size m f) (hoff : -2147483648 ≤ off) (cached : Nat → Bool)
    (count : Nat) : fileRead cached f count off m =
      (fun out => (out.1.getD (toI32 (readCount m f count off)), out.2.1, out.2.2)) <$>
        moveBlocks (readMove cached) f (toU32 (off + readCount m f count off)) (readCount m f count off) off none [] m :=
  fileReadBy_eq (readMove cached) [] hsize hoff count

section
variable {m : Mem} (ho : Owned m) {f : Nat} (hf : IsFile m f) {count : Nat} {off : Int} (hsize : off < size m f)
include ho hf hsize

lemma fileRead_nonneg (cached : Nat → Bool) (hoff : 0 ≤ off) (hwalk : ¬ NoWalk m f (off / 4096).toNat) :
    Post IsPanic (ReadWithin f (size m f)) (fileRead cached f count off m) := by
  rw [fileRead_eq hsize (by omega)]
  have hmax : (readCount m f count off : Int) ≤ size m f - off := by
    unfold readCount
    omega
  have hrange := (toI32_range (m (fSize f))).2
  change size m f < 2147483648 at hrange
  generalize readCount m f count off = c at hmax ⊢
  generalize size m f = sz at hmax hrange ⊢
  obtain ⟨p, rfl⟩ := Int.eq_ofNat_of_zero_le hoff
  have hstop : toU32 (p + c) = p + c := by
    have := toU32_of_range (i := (p : Int) + c) (by omega) (by omega)
    omega
  have hblock : ((p : Int) / 4096).toNat = p / 4096 := by omega
  rw [hblock] at hwalk
  rw [hstop]
  refine Post.map ?_
  refine (moveBlocks_spec (Q := fun k out m mr => mr = m ∧ out.length = k ∧ ∀ q ∈ out, ∃ p : Nat, p < sz ∧ AtPos m f p q)
    (by omega) ?_ ?_ c ho hf (fun _ _ => rfl) (by omega) (by omega) ?_ ?_ ?_ (k := 0)).mono (fun _ h => h) ?_
  · rintro k out m mr m1 mr1 ho hgrow hkept ⟨rfl, hlen, hall⟩
    refine ⟨funext fun w => hkept w rfl, hlen, fun q hq => ?_⟩
    obtain ⟨p, hp, hat⟩ := hall q hq
    exact ⟨p, hp, hat.growth ho hgrow⟩
  · rintro k i b o n out m mr ho href hsame hlen hstop' ⟨rfl, hk, hall⟩
    refine (readMove_post cached mr _ n out).mono (fun _ h => h) fun res hres => ?_
    subst hres
    refine ⟨hsame, rfl, by simp [hk], fun q hq => ?_⟩
    rcases List.mem_append.mp hq with hq | hq
    · exact hall q hq
    · obtain ⟨j, hj, rfl⟩ := List.mem_map.mp hq
      rw [List.mem_range] at hj
      refine ⟨4096 * i + o + j, by omega, b, ?_, ?_⟩
      · rwa [show (4096 * i + o + j) / 4096 = i by omega]
      · rw [show (4096 * i + o + j) % 4096 = o + j by omega, add_assoc]
  · exact fun _ _ => hwalk
  · intro a ha
    cases ha
  · exact ⟨rfl, rfl, by simp⟩
  · rintro out ⟨m', -, -, -, hdone, hneg⟩ hpos
    dsimp only at hpos ⊢
    cases hr : out.1 with
    | none =>
      obtain ⟨rfl, hlen, hall⟩ := hdone hr
      rw [Option.getD_none, toI32_of_range (by omega) (by omega)]
      exact ⟨by omega, hall⟩
    | some r =>
      rw [hr, Option.getD_some] at hpos
      have := hneg r hr
      omega

lemma fileRead_wild (cached : Nat → Bool) (h0 : 0 < readCount m f count off) (h1 : count ≤ 4096)
    (hoff : -2147483648 ≤ off) (hcase : off + readCount m f count off < 0 ∨ 0 ≤ off)
    (hbad : off ≤ -4096 ∨ 0 ≤ off ∧ NoWalk m f (off / 4096).toNat) : fileRead cached f count off m = .error .wild := by
  have hrange := toI32_range (m (fSize f))
  have hle : readCount m f count off ≤ count := min_le_left _ _
  rw [fileRead_eq hsize hoff,
    moveBlocks_unreachable ho hf _ _ h0 (by omega) ⟨hoff, lt_trans hsize hrange.2⟩ hcase hbad]
  rfl

lemma fileRead_before (hoff : -4096 < off) (h₀ : 0 < readCount m f count off)
    (hneg : off + readCount m f count off < 0) : ∃ r blk m', fileGetBlock f 0 m = .ok (r, blk, m') ∧ IsFile m' f ∧
      (blockAt m' f 0 = 0 ∧ (∀ cached, fileRead cached f count off m = .ok (-eNoDisk, [], m')) ∨
        2 ≤ blockAt m' f 0 ∧ ∃ out, out = (List.range (readCount m f count off)).map (fun j =>
            ((4096 * blockAt m' f 0 + off).toNat + j, getByte m' ((4096 * blockAt m' f 0 + off).toNat + j))) ∧
          (∀ cached, Post IsPanic (fun res => res = ((readCount m f count off : Int), out, m'))
            (fileRead cached f count off m)) ∧
          fileRead (fun _ => true) f count off m = .ok (readCount m f count off, out, m')) := by
  have hle : readCount m f count off ≤ count := min_le_left _ _
  have heq := fun cached => fileRead_eq hsize (show -2147483648 ≤ off by omega) cached count
  have hcount : toI32 (readCount m f count off) = readCount m f count off := toI32_of_range (by omega) (by omega)
  rw [hcount] at heq
  generalize readCount m f count off = c at *
  obtain ⟨r, blk, m', hget, hrun, hcases⟩ := fileGetBlock_spec ho hf 0
  have hgrown := AttachStep.run hrun ho
  have hf' := (hgrown.isFile_iff f).mpr hf
  refine ⟨r, blk, m', hget, hf', ?_⟩
  have hle' : c ≤ 4096 := by omega
  rcases hcases with ⟨-, -, -, h | ⟨h, -⟩⟩ | ⟨rfl, rfl, -, h0, -⟩ | ⟨rfl, rfl, -, h0⟩
  · exact absurd h (by decide)
  · exact absurd h (by decide)
  · refine .inl ⟨h0, fun cached => ?_⟩
    rw [heq, moveBlocks_before_fails hoff h₀ hle' hneg hget (by decide)]
    rfl
  · have hrange := hgrown.owned.range (.block f 0) _ ⟨hf', by decide, rfl, h0⟩
    have h2 := two_le_reservedEnd m'
    have haddr : (4 * (1024 * blockAt m' f 0 : Nat) + off).toNat = (4096 * blockAt m' f 0 + off).toNat := by omega
    refine .inr ⟨by omega, _, rfl, fun cached => ?_, ?_⟩
    · rw [heq, moveBlocks_before_moves hoff h₀ hle' hneg hget]
      refine Post.map ((readMove_post cached m' _ c []).bind fun out hout => ?_)
      subst hout
      refine .pure ?_
      simp only [haddr, List.nil_append, Option.getD_none]
    · rw [heq, moveBlocks_before_moves hoff h₀ hle' hneg hget, haddr, readMove, touchBytes_cached]
      rfl

end

/-- A read of `count` bytes at `off` returns data of `f`: it copies nothing, or its first block can be reached, or
it ends in the block before the file and that is a block of the file too. -/
def ReadSafe (m : Mem) (f count : Nat) (off : Int) : Prop :=
  size m f ≤ off ∨ count = 0 ∨ 0 ≤ off ∧ ¬ NoWalk m f (off / 4096).toNat ∨
    -4096 < off ∧ off + readCount m f count off < 0 ∧ ∀ r blk m', fileGetBlock f 0 m = .ok (r, blk, m') →
      blockAt m' f 0 = 0 ∨ ∃ i, i < ndirect + nindirect ∧ blockAt m' f i + 1 = blockAt m' f 0 ∧
        4096 * i + 4096 + off + readCount m f count off ≤ size m f

lemma readWithin_before {c : Nat} (hf : IsFile m f) {sz : Int} (hlow : -4096 < off)
    (hc : 0 < c) (hneg : off + c < 0) (h2 : 2 ≤ blockAt m f 0) : ReadWithin f sz (c, (List.range c).map (fun j =>
      ((4096 * blockAt m f 0 + off).toNat + j, getByte m ((4096 * blockAt m f 0 + off).toNat + j))), m) ↔
      ∃ i, i < ndirect + nindirect ∧ blockAt m f i + 1 = blockAt m f 0 ∧ 4096 * i + 4096 + off + c ≤ sz := by
  generalize hstart : (4096 * blockAt m f 0 + off).toNat = a
  constructor
  · intro h
    obtain ⟨-, hall⟩ := h (by simpa using hc)
    have hpos : ∀ j, j < c → ∃ p : Nat, p < sz ∧ AtPos m f p (a + j, getByte m (a + j)) := fun j hj =>
      hall _ (List.mem_map.mpr ⟨j, List.mem_range.mpr hj, rfl⟩)
    -- the last byte has the largest position
    obtain ⟨p, hp, b, href, hq⟩ := hpos (c - 1) (by omega)
    have haddr := (Prod.mk.inj hq).1
    obtain ⟨-, hi, hb, -⟩ := href
    exact ⟨p / 4096, hi, by omega, by omega⟩
  · rintro ⟨i, hi, hblk, hle⟩ -
    refine ⟨by simp, fun q hq => ?_⟩
    obtain ⟨j, hj, rfl⟩ := List.mem_map.mp hq
    rw [List.mem_range] at hj
    have hp : ∃ p : Nat, (p : Int) = 4096 * i + 4096 + off + j := ⟨(4096 * i + 4096 + off + j).toNat, by omega⟩
    obtain ⟨p, hp⟩ := hp
    refine ⟨p, by omega, blockAt m f i, ?_, ?_⟩
    · rw [show p / 4096 = i by omega]
      exact ⟨hf, hi, rfl, by omega⟩
    · rw [show 4096 * blockAt m f i + p % 4096 = a + j by omega]

lemma fileRead_confined_iff (ho : Owned m) (hf : IsFile m f) (hcount : count ≤ 4096) (hoff : -2147483648 ≤ off) :
    (∀ cached, Post (· ≠ Crash.wild) (ReadWithin f (size m f)) (fileRead cached f count off m)) ↔
      ReadSafe m f count off := by
  by_cases hsize : size m f ≤ off
  · refine ⟨fun _ => .inl hsize, fun _ cached => ?_⟩
    unfold fileRead
    rw [if_pos hsize]
    exact .pure (readWithin_of_nonpos (Int.le_refl 0) _ _)
  rw [not_le] at hsize
  by_cases hzero : count = 0
  · refine ⟨fun _ => .inr (.inl hzero), fun _ cached => ?_⟩
    have hnone : readCount m f count off = 0 := by
      unfold readCount
      omega
    rw [fileRead_eq hsize hoff, hnone, show toI32 (0 : Nat) = 0 from rfl]
    exact .pure (readWithin_of_nonpos (Int.le_refl 0) _ _)
  have h₀ : 0 < readCount m f count off := by
    unfold readCount
    omega
  have hle : readCount m f count off ≤ count := min_le_left _ _
  by_cases hbefore : -4096 < off ∧ off + readCount m f count off < 0
  · obtain ⟨hlow, hneg⟩ := hbefore
    obtain ⟨r, blk, m', hget, hf', hread⟩ := fileRead_before ho hf hsize hlow h₀ hneg
    have hsafe : ReadSafe m f count off ↔ (blockAt m' f 0 = 0 ∨ ∃ i, i < ndirect + nindirect ∧
        blockAt m' f i + 1 = blockAt m' f 0 ∧ 4096 * i + 4096 + off + readCount m f count off ≤ size m f) := by
      constructor
      · rintro (h | h | ⟨h, -⟩ | ⟨-, -, h⟩)
        · omega
        · exact absurd h hzero
        · omega
        · exact h r blk m' hget
      · intro h
        refine .inr (.inr (.inr ⟨hlow, hneg, fun r1 blk1 m1 h1 => ?_⟩))
        cases hget.symm.trans h1
        exact h
    rw [hsafe]
    rcases hread with ⟨h0, hread⟩ | ⟨h2, out, rfl, hread, hcached⟩
    · refine ⟨fun _ => .inl h0, fun _ cached => ?_⟩
      rw [hread]
      exact .pure (readWithin_of_nonpos (by decide) _ _)
    · rw [← readWithin_before hf' hlow h₀ hneg h2]
      constructor
      · intro h
        exact .inr ((h _).ok _ hcached)
      · rintro (h0 | h) cached
        · omega
        · refine (hread cached).mono (fun _ h => h.ne_wild) fun res hres => ?_
          rwa [hres]
  · have hsafe : ReadSafe m f count off ↔ 0 ≤ off ∧ ¬ NoWalk m f (off / 4096).toNat := by
      constructor
      · rintro (h | h | h | ⟨hlow, hneg, -⟩)
        · omega
        · exact absurd h hzero
        · exact h
        · exact absurd ⟨hlow, hneg⟩ hbefore
      · exact fun h => .inr (.inr (.inl h))
    rw [hsafe]
    constructor
    · intro h
      by_cases hpos : 0 ≤ off
      · refine ⟨hpos, fun hno => ?_⟩
        exact (h fun _ => true).error _ (fileRead_wild ho hf hsize _ h₀ hcount hoff (.inr hpos) (.inr ⟨hpos, hno⟩)) rfl
      by_cases hneg : off + readCount m f count off < 0
      · exact absurd rfl ((h fun _ => true).error _
          (fileRead_wild ho hf hsize _ h₀ hcount hoff (.inl hneg) (.inl (by omega))))
      · -- the loop ends at once, but the count is returned
        have hcast := toU32_cast off
        have hcast' := toU32_cast (off + readCount m f count off)
        have hrun : fileRead (fun _ => true) f count off m = .ok ((readCount m f count off : Int), [], m) := by
          rw [fileRead_eq hsize hoff, moveBlocks_end _ _ _ _ _ _ (by omega), toI32_of_range (by omega) (by omega)]
          rfl
        have hlen := ((h fun _ => true).ok _ hrun (by simpa using h₀)).1
        simp only [List.length_nil] at hlen
        omega
    · rintro ⟨hpos, hwalk⟩ cached
      exact (fileRead_nonneg ho hf hsize cached hpos hwalk).mono (fun _ h => h.ne_wild) fun _ h => h

def reqFile (page : Mem) (s : Server) : Nat := (s.opentab (page 0 % maxopen)).oFile

/-- `fd_offset` of the file that a request names. -/
def reqOffset (page : Mem) (s : Server) : Int := toI32 (s.fdOffset (page 0 % maxopen))

def ReadConfined (page : Mem) (s : Server) : Prop :=
  ∀ cached, Post (· ≠ Crash.wild)
    (fun out => ReadWithin (reqFile page s) (size s.disk (reqFile page s)) (out.1, out.2.1, out.2.2.disk))
    (serveRead cached page s)

def WriteConfined (page : Mem) (s : Server) : Prop :=
  ∀ cached, Post (· ≠ Crash.wild)
    (fun out => Confined (reqFile page s)
      (WriteBlocks s.disk (reqFile page s) (min (page 1) pgsize) (reqOffset page s)) s.disk out.2.disk)
    (serveWrite cached page s)

lemma openfileLookup_some {s : Server} {fileid i : Nat} (h : openfileLookup s fileid = some i) :
    i = fileid % maxopen ∧ 1 < s.pageref i := by
  unfold openfileLookup at h
  split at h
  · cases h
  · rename_i hno
    rw [not_or, not_le] at hno
    cases h
    exact ⟨rfl, hno.1⟩

lemma open_confined_iff {s : Server} (ho : Owned s.disk) (page : Mem) (hf : IsFile s.disk (reqFile page s))
    (hlook : openfileLookup s (page 0) = some (page 0 % maxopen)) :
    (ReadConfined page s ↔ ReadSafe s.disk (reqFile page s) (min (page 1) pgsize) (reqOffset page s)) ∧
    (WriteConfined page s ↔ WriteSafe s.disk (reqFile page s) (min (page 1) pgsize) (reqOffset page s) (reqBuf page)) := by
  have hcount : min (page 1) pgsize ≤ 4096 := min_le_right _ _
  have hoff : -2147483648 ≤ reqOffset page s ∧ reqOffset page s < 2147483648 := toI32_range _
  rw [← fileRead_confined_iff ho hf hcount hoff.1, ← fileWrite_confined_iff ho hf hcount hoff]
  have hmin : (if page 1 ≤ pgsize then page 1 else pgsize) = min (page 1) pgsize := rfl
  have hmin' : (if pgsize < page 1 then pgsize else page 1) = min (page 1) pgsize := by
    split <;> omega
  refine ⟨forall_congr' fun cached => ?_, forall_congr' fun cached => ?_⟩
  · unfold serveRead
    rw [hlook, hmin]
    exact Post.bind_ok_iff fun a => Iff.rfl
  · unfold serveWrite
    rw [hlook, hmin']
    exact Post.bind_ok_iff fun a => Iff.rfl

/-- A disk of 5 blocks: the root has one block, in which there is an empty file `a`, and block 4 is free. -/
def smallDisk : Mem := fun w =>
  if w = 1025 then 5
  else if w = 1058 then 4096
  else if w = 1059 then ftypeDir
  else if w = 1060 then 3
  else if w = 2048 then 16
  else if w = 3072 then 97
  else 0

section

lemma smallDisk_entry {k : Nat} (h0 : 3072 < k) : smallDisk k = 0 := by
  unfold smallDisk
  repeat rw [if_neg (by omega)]

lemma smallDisk_checked : Checked smallDisk := by decide +kernel

lemma smallDisk_refers {t : Slot} (h : Refers smallDisk t b) : t = .block root 0 ∧ b = 3 := by
  have hslots : slotList smallDisk = [(.block root 0, 3)] := by decide
  rw [smallDisk_checked.refers_iff, hslots, List.mem_singleton] at h
  exact Prod.mk.inj h

lemma smallDisk_file : IsFile smallDisk 3072 := FirstNamed.isFile (by decide)

end

def smallServer (off : Nat) : Server := ⟨smallDisk, fun _ => ⟨1024, 3072, 2⟩, fun _ => 2, fun _ => off⟩

def smallReq : Mem := fun w => if w = 0 then 1024 else if w = 1 then 5 else 0xFFFFFFFF

/-- When serving a request to read or to write touches nothing but the file that it names. -/
theorem requests_confined_iff {s : Server} (ho : Owned s.disk)
    (hopen : ∀ i, 1 < s.pageref i → IsFile s.disk (s.opentab i).oFile) (page : Mem) :
    (ReadConfined page s ↔ ((openfileLookup s (page 0)).isSome →
      ReadSafe s.disk (reqFile page s) (min (page 1) pgsize) (reqOffset page s))) ∧
    (WriteConfined page s ↔ ((openfileLookup s (page 0)).isSome →
      WriteSafe s.disk (reqFile page s) (min (page 1) pgsize) (reqOffset page s) (reqBuf page))) := by
  cases hlook : openfileLookup s (page 0) with
  | none =>
    refine ⟨⟨fun _ h => (nomatch h), fun _ cached => ?_⟩, ⟨fun _ h => (nomatch h), fun _ cached => ?_⟩⟩
    · unfold serveRead
      rw [hlook]
      exact .pure (readWithin_of_nonpos (show -eInval ≤ 0 by decide) _ _)
    · unfold serveWrite
      rw [hlook]
      exact .pure .refl
  | some i =>
    obtain ⟨rfl, href⟩ := openfileLookup_some hlook
    simp only [Option.isSome_some, forall_const]
    exact open_confined_iff ho page (hopen _ href) hlook

theorem requests_confined_small : ReadConfined smallReq (smallServer 0) ∧ WriteConfined smallReq (smallServer 0) := by
  have hblock : (reqOffset smallReq (smallServer 0) / 4096).toNat = 0 := by decide
  have hwalk : ¬ NoWalk smallDisk 3072 0 := by
    rintro (h | ⟨h, -⟩)
    · exact absurd h (by decide)
    · exact absurd h (by decide)
  have hiff := requests_confined_iff (s := smallServer 0) smallDisk_checked.agrees.toOwned (fun _ _ => smallDisk_file) smallReq
  rw [hblock.symm] at hwalk
  exact ⟨hiff.1.mpr fun _ => .inl (by decide), hiff.2.mpr fun _ => .inr (.inr (.inl ⟨by decide, hwalk⟩))⟩

/-- The small disk after block 4 is allocated to the empty file for a write of 5 bytes at -10. -/
def smallDiskGrown : Mem :=
  clearBlock (update (takeBlock (update smallDisk 3104 4294967291) 4) 3106 4) 4096

lemma smallDisk_allocate : fileAllocate 3072 5 (-10) smallDisk = .ok (5, smallDiskGrown) := rfl

lemma smallDisk_getBlock : fileGetBlock 3072 0 smallDisk =
    .ok (0, some 4096, clearBlock (update (takeBlock smallDisk 4) 3106 4) 4096) := rfl

lemma smallDisk_writeBlocks (h : WriteBlocks smallDisk 3072 5 (-10) b) : b = 4 := by
  have hzero : ∀ w, 3106 < w → smallDiskGrown w = 0 := by
    intro w hw
    unfold smallDiskGrown clearBlock
    split
    · rfl
    · rw [update_of_ne (by omega), takeBlock_of_ne (show w ≠ 2048 by omega), update_of_ne (by omega),
        smallDisk_entry (by omega)]
  rcases h with ⟨t, ht, href⟩ | ⟨r, m', hrun, t, ht, href⟩
  · rw [(smallDisk_refers href).1] at ht
    exact absurd ht (by decide)
  · cases smallDisk_allocate.symm.trans hrun
    cases t with
    | block f i =>
      obtain rfl : f = 3072 := ht
      obtain ⟨-, -, hb, h0⟩ := href
      by_cases hi : i = 0
      · subst hi
        exact hb.symm
      · refine absurd hb.symm ?_
        by_cases hd : i < ndirect
        · rw [blockAt_direct hd, hzero _ (by unfold fDirect; omega)]
          exact h0
        · rw [blockAt_none (by omega) (hzero _ (by decide))]
          exact h0
    | indirect f =>
      obtain rfl : f = 3072 := ht
      obtain ⟨-, hb, h0⟩ := href
      rw [hzero _ (by decide)] at hb
      exact absurd hb.symm h0

/-- At the offset -10 a read returns bytes of the root directory, and a write changes them. -/
theorem negative_offset_escapes : Agrees (smallServer 4294967286).disk ∧ IsFile (smallServer 4294967286).disk 3072 ∧
    ¬ ReadConfined smallReq (smallServer 4294967286) ∧ ¬ WriteConfined smallReq (smallServer 4294967286) := by
  have hiff := open_confined_iff (s := smallServer 4294967286) smallDisk_checked.agrees.toOwned smallReq smallDisk_file rfl
  have hfile : reqFile smallReq (smallServer 4294967286) = 3072 := rfl
  have hoff : reqOffset smallReq (smallServer 4294967286) = -10 := by decide
  have hcount : min (smallReq 1) pgsize = 5 := rfl
  rw [hfile, hoff, hcount] at hiff
  refine ⟨smallDisk_checked.agrees, smallDisk_file, fun h => ?_, fun h => ?_⟩
  · rcases hiff.1.mp h with h | h | ⟨h, -⟩ | ⟨-, -, h⟩
    · exact absurd h (by decide)
    · exact absurd h (by decide)
    · exact absurd h (by decide)
    · rcases h _ _ _ smallDisk_getBlock with h | ⟨i, -, -, h⟩
      · exact absurd h (by decide)
      · have hsize : size (smallServer 4294967286).disk 3072 = 0 := by decide
        omega
  · rcases hiff.2.mp h with h | ⟨-, h⟩ | ⟨h, -⟩ | ⟨-, -, h⟩
    · exact absurd h (by decide)
    · exact absurd h (by decide)
    · exact absurd h (by decide)
    · rcases h _ _ smallDisk_allocate with h | h
      · exact absurd h (by decide)
      · have hstart : (4096 * (blockAt smallDiskGrown 3072 0 : Int) + -10).toNat = 16374 := by decide
        rw [hstart] at h
        rcases h 0 0 (by decide) (by decide) (by decide) with hS | hfile | ⟨b, hS, hw, -⟩
        · exact absurd (smallDisk_writeBlocks hS) (by decide)
        · exact absurd hfile (by decide)
        · rw [smallDisk_writeBlocks hS] at hw
          exact absurd hw (by decide)

end Jos.Fs
