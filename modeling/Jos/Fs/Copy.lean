import Jos.Fs.FileSpec
import Jos.Base.Post

/-!
# Copying into and out of a file

The blocks that `file_get_block` finds do not depend on the data of the file, so a
call that copies data attaches the same blocks as one that copies nothing. This
gives one rule for the loops of `file_read` and `file_write`.
-/

namespace Jos.Fs
open WordMem CInt Ownership Function
open Relation (ReflTransGen)

variable {b f p stop w : Nat} {m m' : Mem} {pos : Int} {s : Slot} {σ : Type}

def IsPanic (c : Crash) : Prop := ∃ msg, c = .panic msg

lemma IsPanic.ne_wild {c : Crash} (h : IsPanic c) : c ≠ .wild := by
  obtain ⟨msg, rfl⟩ := h
  nofun

def InData (m : Mem) (f w : Nat) : Prop := ∃ i, Refers m (.block f i) (w / 1024)

def InMeta (m : Mem) (f w : Nat) : Prop :=
  w = 1025 ∨ (∃ b, b < sNblocks m ∧ w = bitmapWord b) ∨ (∃ k, k < 64 ∧ w = f + k) ∨ Refers m (.indirect f) (w / 1024)

lemma Owned.not_own_parent (ho : Owned m) (hf : IsFile m f) (i : Nat) : ¬ Refers m (.block f i) (f / 1024) := by
  induction hf generalizing i with
  | root =>
    intro h
    have hr := (ho.range _ _ h).1
    have h2 := two_le_reservedEnd m
    unfold root at hr
    omega
  | @entry d k j hd hdir hk hb hj hname ih =>
    intro h
    have hblk : (1024 * blockAt m d k + 64 * j) / 1024 = blockAt m d k := by
      unfold blkfiles at hj
      omega
    rw [hblk] at h
    have hparent : Refers m (.block d k) (blockAt m d k) := ⟨hd, hk, rfl, hb⟩
    have hslot := ho.exclusive.unique _ _ _ h hparent
    have hself : 1024 * blockAt m d k + 64 * j = d := (Slot.block.inj hslot).1
    refine ih k ⟨hd, hk, ?_, ?_⟩
    · rw [← hself, hblk, hself]
    · rw [← hself, hblk]
      exact hb

lemma Owned.data_not_meta (ho : Owned m) (hd : InData m f w) : ¬ InMeta m f w := by
  obtain ⟨i, href⟩ := hd
  have hr := (ho.range _ _ href).1
  have h2 := two_le_reservedEnd m
  rintro (rfl | ⟨b, hb, rfl⟩ | ⟨k, hk, rfl⟩ | hind)
  · omega
  · have := bitmapWord_reserved hb
    omega
  · rw [href.1.block hk] at href
    exact ho.not_own_parent href.1 i href
  · cases ho.exclusive.unique _ _ _ href hind

lemma diskaddr_congr (h : sNblocks m' = sNblocks m) (b : Nat) : diskaddr b m' = diskaddr b m := by
  unfold diskaddr
  rw [h]

lemma allocBlock_congr (hn : sNblocks m' = sNblocks m)
    (hb : ∀ b, b < sNblocks m → m' (bitmapWord b) = m (bitmapWord b)) :
    allocBlock m' = (allocBlock m).map fun p => (p.1, takeBlock m' p.1) := by
  have hfree : blockIsFree m' = blockIsFree m := funext fun b => blockIsFree_congr hn (hb b)
  unfold allocBlock
  rw [hn, hfree]
  split <;> rfl

section
variable {m m' : Mem} {f : Nat} (ho : Owned m) (hsame : ∀ w, InMeta m f w → m' w = m w)
include hsame in
lemma sNblocks_congr : sNblocks m' = sNblocks m := hsame 1025 (.inl rfl)

include hsame in
lemma allocBlock_of_meta : allocBlock m' = (allocBlock m).map fun p => (p.1, takeBlock m' p.1) :=
  allocBlock_congr (sNblocks_congr hsame) fun b hb => hsame _ (.inr (.inl ⟨b, hb, rfl⟩))

lemma Slot.word_meta (hs : s.Exists m) (hfile : s.file = f) : InMeta m f (s.word m) := by
  obtain ⟨hf, ⟨k, -, hk, hw, -⟩ | ⟨hind, hw, -⟩⟩ := Slot.word_cases hs
  · rw [hw, hfile]
    exact .inr (.inr (.inl ⟨k, by omega, rfl⟩))
  · rw [hfile] at hf hind hw
    exact .inr (.inr (.inr ⟨hf, hw.symm, by rwa [hw]⟩))

include ho hsame in
lemma attach_congr (hs : s.Exists m) {m₁ : Mem} (h : allocBlock m = some (b, m₁)) :
    diskaddr b (update (takeBlock m' b) (s.word m) b) = .ok (1024 * b) ∧
      clearBlock (update (takeBlock m' b) (s.word m) b) (1024 * b) (s.word m) = b ∧
      diskaddr b (clearBlock (update (takeBlock m' b) (s.word m) b) (1024 * b)) = .ok (1024 * b) ∧
      ∀ w, m' w = m w → clearBlock (update (takeBlock m' b) (s.word m) b) (1024 * b) w =
        clearBlock (update m₁ (s.word m) b) (1024 * b) w := by
  obtain ⟨-, hlt, hfree, -, rfl⟩ := allocBlock_some h
  have hr := (ho.free_range hfree).1
  have h2 := two_le_reservedEnd m
  have hn : sNblocks (update (takeBlock m' b) (s.word m) b) = sNblocks m := by
    unfold sNblocks
    rw [update_of_ne (Ne.symm (ho.word_ne_super hs))]
    exact (sNblocks_takeBlock m' b).trans (sNblocks_congr hsame)
  refine ⟨diskaddr_eq (by omega) (by rwa [hn]), ?_, diskaddr_eq (by omega) ?_, fun w hw => ?_⟩
  · rw [clearBlock_of_ne (ho.word_ne_free hs hfree), update_self]
  · unfold sNblocks at hn ⊢
    rwa [clearBlock_of_ne (by omega), hn]
  · by_cases hb : w / 1024 = b
    · rw [clearBlock_self hb, clearBlock_self hb]
    · rw [clearBlock_of_ne hb, clearBlock_of_ne hb]
      by_cases hs' : w = s.word m
      · rw [hs', update_self, update_self]
      · rw [update_of_ne hs', update_of_ne hs']
        by_cases hbm : w = bitmapWord b
        · subst hbm
          unfold takeBlock
          rw [update_self, update_self, hw]
        · rw [takeBlock_of_ne hbm, takeBlock_of_ne hbm, hw]

lemma Attached.meta_congr {m₁ m1' : Mem} (hatt : Attached m m₁ s b) (ho : Owned m) (hs : s.Exists m)
    (hempty : m (s.word m) = 0) (hsame : ∀ w, InMeta m f w → m' w = m w) (hkept : ∀ w, m' w = m w → m1' w = m₁ w)
    (hclear : ∀ w, w / 1024 = b → m1' w = 0) (hw : InMeta m₁ f w) : m1' w = m₁ w := by
  have hfresh : w / 1024 = b → m1' w = m₁ w := fun hb => by rw [hclear w hb, hatt.clear w hb]
  rcases hw with rfl | ⟨c, hc, rfl⟩ | ⟨k, hk, rfl⟩ | hind
  · exact hkept _ (hsame _ (.inl rfl))
  · rw [hatt.sNblocks_eq ho hs] at hc
    exact hkept _ (hsame _ (.inr (.inl ⟨c, hc, rfl⟩)))
  · exact hkept _ (hsame _ (.inr (.inr (.inl ⟨k, hk, rfl⟩))))
  · rcases (hatt.refers_iff ho hs hempty).mp hind with hold | ⟨-, hb⟩
    · exact hkept _ (hsame _ (.inr (.inr (.inr hold))))
    · exact hfresh hb

include ho hsame in
lemma fileBlockWalk_congr (hf : IsFile m f) (i : Nat) :
    ∃ slot m₁ m1', fileBlockWalk f i true m = .ok (slot, m₁) ∧ fileBlockWalk f i true m' = .ok (slot, m1') ∧
      (∀ w, m' w = m w → m1' w = m₁ w) ∧ ∀ w, InMeta m₁ f w → m1' w = m₁ w := by
  have hind : m' (fIndirect f) = m (fIndirect f) := hsame _ (.inr (.inr (.inl ⟨44, by decide, rfl⟩)))
  unfold fileBlockWalk
  rw [hind, allocBlock_of_meta hsame]
  split
  · exact ⟨_, _, _, rfl, rfl, fun _ h => h, hsame⟩
  split
  · exact ⟨_, _, _, rfl, rfl, fun _ h => h, hsame⟩
  split
  · rename_i hzero
    cases halloc : allocBlock m with
    | none => exact ⟨_, _, _, rfl, rfl, fun _ h => h, hsame⟩
    | some p =>
      obtain ⟨b, m₁⟩ := p
      obtain ⟨haddr, hatt, hslot, haddr', -⟩ := alloc_attaches ho (s := .indirect f) hf halloc
      obtain ⟨haddr1, hslot1, haddr1', hkept⟩ := attach_congr ho hsame (s := .indirect f) hf halloc
      simp only [Slot.word] at haddr hatt hslot haddr' haddr1 hslot1 haddr1' hkept
      refine ⟨.ok (1024 * b + i - ndirect), clearBlock (update m₁ (fIndirect f) b) (1024 * b),
        clearBlock (update (takeBlock m' b) (fIndirect f) b) (1024 * b), ?_, ?_, hkept, fun w hw => ?_⟩
      · simp only [haddr, bind, Except.bind, hslot, haddr', pure, Except.pure, reduceCtorEq, if_false]
      · simp only [Option.map_some, haddr1, bind, Except.bind, hslot1, haddr1', pure, Except.pure, reduceCtorEq, if_false]
      · exact hatt.meta_congr ho hf hzero hsame hkept (fun w hb => clearBlock_self hb) hw
  · rename_i hzero
    have hn : diskaddr (m (fIndirect f)) m' = diskaddr (m (fIndirect f)) m := diskaddr_congr (sNblocks_congr hsame) _
    rw [hn, diskaddr_refers ho (s := .indirect f) ⟨hf, rfl, hzero⟩]
    exact ⟨_, _, _, rfl, rfl, fun _ h => h, hsame⟩

include ho hsame in
lemma fileGetBlock_congr (hf : IsFile m f) (i : Nat) :
    ∃ r blk m₁ m1', fileGetBlock f i m = .ok (r, blk, m₁) ∧ fileGetBlock f i m' = .ok (r, blk, m1') ∧
      ∀ w, m' w = m w → m1' w = m₁ w := by
  obtain ⟨slot, m₁, m1', hwalk, hwalk', hkept, hsame1⟩ := fileBlockWalk_congr ho hsame hf i
  unfold fileGetBlock
  rw [hwalk, hwalk', ok_bind, ok_bind]
  obtain ⟨slot', m2, hspec, hcases⟩ := fileBlockWalk_spec ho hf i
  cases hwalk.symm.trans hspec
  rcases hcases with ⟨⟨r, rfl⟩, -, -⟩ | ⟨-, rfl, hex, hrun, -⟩
  · exact ⟨_, _, _, _, rfl, rfl, hkept⟩
  dsimp only
  have ho1 := (AttachStep.run hrun ho).owned
  have hword : m1' ((Slot.block f i).word m₁) = m₁ ((Slot.block f i).word m₁) :=
    hsame1 _ (Slot.word_meta hex rfl)
  rw [hword, allocBlock_of_meta hsame1]
  split
  · cases halloc : allocBlock m₁ with
    | none => exact ⟨_, _, _, _, rfl, rfl, hkept⟩
    | some p =>
      obtain ⟨b, m2⟩ := p
      obtain ⟨haddr, -, hslot, haddr', -⟩ := alloc_attaches ho1 hex halloc
      obtain ⟨haddr1, hslot1, haddr1', hkept1⟩ := attach_congr ho1 hsame1 hex halloc
      refine ⟨0, some (1024 * b), clearBlock (update m2 ((Slot.block f i).word m₁) b) (1024 * b),
        clearBlock (update (takeBlock m1' b) ((Slot.block f i).word m₁) b) (1024 * b), ?_, ?_,
        fun w hw => hkept1 w (hkept w hw)⟩
      · simp only [haddr, bind, Except.bind, hslot, haddr', pure, Except.pure]
      · simp only [Option.map_some, haddr1, bind, Except.bind, hslot1, haddr1', pure, Except.pure]
  · rename_i hzero
    rw [diskaddr_congr (sNblocks_congr hsame1), diskaddr_refers ho1 (refers_iff.mpr ⟨hex, rfl, hzero⟩)]
    exact ⟨_, _, _, _, rfl, rfl, hkept⟩

end

def Growth (f : Nat) (m m' : Mem) : Prop := ∃ bno, AttachStep f bno m m'

lemma Growth.of_run {bno : Nat} (h : ReflTransGen (AttachStep f bno) m m') :
    ReflTransGen (Growth f) m m' := ReflTransGen.mono (fun _ _ hstep => ⟨bno, hstep⟩) _ _ h

lemma Growth.grownFrom (h : ReflTransGen (Growth f) m m') (ho : Owned m) : GrownFrom m m' := by
  induction h with
  | refl => exact .refl ho
  | tail _ hstep ih =>
    obtain ⟨bno, hstep⟩ := hstep
    exact ih.trans (hstep.grownFrom ih.owned)

def SameButData (f : Nat) (m m' : Mem) : Prop := ∀ w, ¬ InData m f w → m' w = m w

lemma SameButData.meta (h : SameButData f m m') (ho : Owned m) (w : Nat) (hw : InMeta m f w) :
    m' w = m w := h w fun hd => ho.data_not_meta hd hw

section
variable {m mr : Mem} {f : Nat} (h : SameButData f m mr) (ho : Owned m)
include h ho

lemma SameButData.field_eq {k : Nat} (hk : k < 64) : mr (f + k) = m (f + k) :=
  h.meta ho _ (.inr (.inr (.inl ⟨k, hk, rfl⟩)))

lemma SameButData.blockAt_eq (hf : IsFile m f) (i : Nat) (hi : i < ndirect + nindirect) : blockAt mr f i = blockAt m f i := by
  refine blockAt_congr (fun hd => ?_) (h.field_eq ho (by decide)) fun hge hind => ?_
  · unfold ndirect at hd
    have := h.field_eq ho (show 34 + i < 64 by omega)
    unfold fDirect
    rwa [← add_assoc] at this
  · have hs : (Slot.block f i).Exists m := ⟨hf, hi, fun _ => hind⟩
    have hw := h.meta ho _ (Slot.word_meta hs rfl)
    rwa [Slot.word, if_neg (Nat.not_lt.mpr hge)] at hw

end

def noMove (_ _ : Nat) (u : Unit) (m : Mem) : Res (Unit × Mem) := .ok (u, m)

lemma position_at (hp : p < stop) (hstop : stop < 4294967296) : toU32 p = p ∧
    toU32 ((p : Int).tdiv blksize) = p / 4096 ∧ (p : Int).tmod blksize = (p % 4096 : Nat) ∧
    toU32 (blksize - (p % 4096 : Nat)) = 4096 - p % 4096 ∧ toU32 (stop - p) = stop - p := by
  have hpos : toU32 p = p := by
    have := toU32_of_range (i := p) (by omega) (by omega)
    omega
  have hblock : toU32 ((p : Int).tdiv blksize) = p / 4096 := by
    rw [Int.tdiv_eq_ediv_of_nonneg (by omega), blksize_cast]
    have := toU32_of_range (i := (p : Int) / 4096) (by omega) (by omega)
    omega
  have hrest : (p : Int).tmod blksize = (p % 4096 : Nat) := by
    rw [Int.tmod_eq_emod_of_nonneg (by omega), blksize_cast]
    omega
  have hroom : toU32 (blksize - (p % 4096 : Nat)) = 4096 - p % 4096 := by
    have := toU32_of_range (i := 4096 - (p % 4096 : Nat)) (by omega) (by omega)
    rw [blksize_cast]
    omega
  have hleft : toU32 (stop - p) = stop - p := by
    have := toU32_of_range (i := (stop : Int) - p) (by omega) (by omega)
    omega
  exact ⟨hpos, hblock, hrest, hroom, hleft⟩

lemma moveBlocks_at (move : Nat → Nat → σ → Mem → Res (σ × Mem)) (f : Nat) (n : Nat)
    (blk : Option Nat) (acc : σ) (m : Mem) (hp : p < stop) (hstop : stop < 4294967296) :
    moveBlocks move f stop (n + 1) p blk acc m = (do
      let (r, b, m) ← fileGetBlock f (p / 4096) m
      if r < 0 then return (some r, acc, m)
      else
        match b.or blk with
        | none => .error .wild
        | some a =>
          let (acc, m) ← move (4 * a + p % 4096) (min (4096 - p % 4096) (stop - p)) acc m
          moveBlocks move f stop n (toI32 (p + (min (4096 - p % 4096) (stop - p) : Nat))) (some a) acc m) := by
  obtain ⟨hpos, hblock, hrest, hroom, hleft⟩ := position_at hp hstop
  have haddr : ∀ a : Nat, (4 * a + (p % 4096 : Nat) : Int).toNat = 4 * a + p % 4096 := by
    intro a
    omega
  conv => lhs; unfold moveBlocks
  rw [hpos, if_pos hp, hblock, hrest, hroom, hleft]
  refine bind_congr fun out => ?_
  obtain ⟨r, b, m1⟩ := out
  dsimp only
  cases b.or blk with
  | none => rfl
  | some a =>
    dsimp only
    rw [haddr a]

lemma toI32_next {stop p : Nat} (h : p + min (4096 - p % 4096) (stop - p) < 2147483648) :
    toI32 (p + (min (4096 - p % 4096) (stop - p) : Nat)) = (p + min (4096 - p % 4096) (stop - p) : Nat) := by
  rw [toI32_of_range] <;> omega

section
variable {σ : Type} {move : Nat → Nat → σ → Mem → Res (σ × Mem)} {f stop : Nat} {Q : Nat → σ → Mem → Mem → Prop}
  (hstop : stop < 2147483648)
  (hgrow : ∀ k acc m mr m₁ mr1, Owned m → ReflTransGen (Growth f) m m₁ → (∀ w, mr w = m w → mr1 w = m₁ w) →
    Q k acc m mr → Q k acc m₁ mr1)
  (hmove : ∀ k i b o n acc m mr, Owned m → Refers m (.block f i) b → SameButData f m mr → o + n ≤ 4096 →
    4096 * i + o + n ≤ stop → Q k acc m mr →
    Post IsPanic (fun out => SameButData f m out.2 ∧ Q (k + n) out.1 m out.2) (move (4096 * b + o) n acc mr))
include hstop hgrow hmove

/-- The loop of `file_read` and `file_write`. `k` bytes are copied so far; `mr` is the disk and `m` the disk without the data
that the loop has copied. A `blk` from an earlier round is a block of the file that ends before `p`. -/
theorem moveBlocks_spec (n : Nat) {p k : Nat} {blk : Option Nat} {acc : σ} {m mr : Mem} (ho : Owned m) (hf : IsFile m f)
    (hsame : SameButData f m mr) (hp : p ≤ stop) (hn : stop ≤ p + n)
    (hfirst : blk = none → p < stop → ¬ NoWalk m f (p / 4096))
    (hstale : ∀ a, blk = some a → p < stop → ∃ i b, Refers m (.block f i) b ∧ a = 1024 * b ∧ 4096 * i + 4096 ≤ p)
    (hQ : Q k acc m mr) : Post IsPanic (fun out => ∃ m', moveBlocks noMove f stop n p blk () m = .ok (out.1, (), m') ∧
      ReflTransGen (Growth f) m m' ∧ SameButData f m' out.2.2 ∧ (out.1 = none → Q (k + (stop - p)) out.2.1 m' out.2.2) ∧
      ∀ x, out.1 = some x → x < 0) (moveBlocks move f stop n p blk acc mr) := by
  induction n generalizing p k blk acc m mr with
  | zero =>
    have hend : stop - p = 0 := by omega
    exact .pure ⟨m, rfl, .refl, hsame, fun _ => by rwa [hend], nofun⟩
  | succ n ih =>
    by_cases hlt : p < stop
    · rw [moveBlocks_at move f n blk acc mr hlt (by omega), moveBlocks_at noMove f n blk () m hlt (by omega),
        toI32_next (by omega)]
      obtain ⟨r, b, m₁, m1', hget, hget', hkept⟩ := fileGetBlock_congr ho (hsame.meta ho) hf (p / 4096)
      obtain ⟨r', b', m1'', hspec, hrun, hcases⟩ := fileGetBlock_spec ho hf (p / 4096)
      cases hget.symm.trans hspec
      have hgrown := AttachStep.run hrun ho
      have hsame1 : SameButData f m₁ m1' := fun w hw =>
        hkept w (hsame w fun ⟨i, hd⟩ => hw ⟨i, hgrown.refers _ _ hd⟩)
      rw [hget, hget', ok_bind, ok_bind]
      dsimp only
      by_cases hr : r < 0
      · rw [if_pos hr, if_pos hr]
        exact .pure ⟨m₁, rfl, Growth.of_run hrun, hsame1, nofun, fun x hx => by cases hx; exact hr⟩
      rw [if_neg hr, if_neg hr]
      -- the block found, or the one of the round before
      have hblock : ∃ i c, Refers m₁ (.block f i) c ∧ b.or blk = some (1024 * c) ∧
          (i = p / 4096 ∨ 4096 * i + 4096 ≤ p) := by
        rcases hcases with ⟨-, rfl, rfl, hno⟩ | ⟨rfl, -⟩ | ⟨-, rfl, hyes, h0⟩
        · cases blk with
          | none => exact absurd hno (hfirst rfl hlt)
          | some a =>
            obtain ⟨i, c, href, rfl, hi⟩ := hstale a rfl hlt
            exact ⟨i, c, href, rfl, .inr hi⟩
        · exact absurd (by decide) hr
        · refine ⟨p / 4096, _, ⟨(hgrown.isFile_iff f).mpr hf, ?_, rfl, h0⟩, rfl, .inl rfl⟩
          by_contra hbig
          exact hyes (.inl (by omega))
      obtain ⟨i, c, href, hor, hi⟩ := hblock
      rw [hor]
      dsimp only
      have hpos : 0 < min (4096 - p % 4096) (stop - p) := by
        rw [Nat.lt_min]
        omega
      rw [show 4 * (1024 * c) + p % 4096 = 4096 * c + p % 4096 by omega]
      generalize hbn : min (4096 - p % 4096) (stop - p) = bn at hpos ⊢
      have hm := hmove k i c (p % 4096) bn acc m₁ m1' hgrown.owned href hsame1 (by omega) (by omega)
        (hgrow _ _ _ _ _ _ ho (Growth.of_run hrun) hkept hQ)
      refine hm.bind fun out hout => ?_
      obtain ⟨acc1, m2'⟩ := out
      obtain ⟨hsame2, hQ2⟩ := hout
      rw [noMove, ok_bind]
      dsimp only at hsame2 hQ2 ⊢
      have hrest := @ih (p + bn) _ (some (1024 * c)) _ _ _ hgrown.owned ((hgrown.isFile_iff f).mpr hf) hsame2 (by omega)
        (by omega) nofun (fun a ha hlt' => by
          cases ha
          exact ⟨i, c, href, rfl, by omega⟩) hQ2
      refine hrest.mono (fun _ h => h) fun out hout => ?_
      obtain ⟨m', hno, hrun', hsame', hQ', hneg⟩ := hout
      refine ⟨m', hno, (Growth.of_run hrun).trans hrun', hsame', fun hnone => ?_, hneg⟩
      rw [show k + (stop - p) = k + bn + (stop - (p + bn)) by omega]
      exact hQ' hnone
    · have hstopped : ∀ {τ : Type} (move : Nat → Nat → τ → Mem → Res (τ × Mem)) (acc : τ) (m : Mem),
          moveBlocks move f stop (n + 1) p blk acc m = .ok (none, acc, m) := by
        intro τ move acc m
        unfold moveBlocks
        have hpos := toU32_of_range (i := p) (by omega) (by omega)
        rw [if_neg (by omega)]
      rw [hstopped, hstopped]
      have hend : stop - p = 0 := by omega
      exact .pure ⟨m, rfl, .refl, hsame, fun _ => by rwa [hend], nofun⟩

end

lemma moveBlocks_wild (move : Nat → Nat → σ → Mem → Res (σ × Mem)) (n : Nat) (acc : σ)
    (hpos : toU32 pos < stop) (h : fileGetBlock f (toU32 (pos.tdiv blksize)) m = .ok (1, none, m')) :
    moveBlocks move f stop (n + 1) pos none acc m = .error .wild := by
  unfold moveBlocks
  rw [if_pos hpos, h]
  rfl

lemma moveBlocks_end (move : Nat → Nat → σ → Mem → Res (σ × Mem)) (f : Nat) (n : Nat)
    (blk : Option Nat) (acc : σ) (m : Mem) (hpos : stop ≤ toU32 pos) :
    moveBlocks move f stop n pos blk acc m = .ok (none, acc, m) := by
  cases n with
  | zero => rfl
  | succ n =>
    unfold moveBlocks
    rw [if_neg (Nat.not_lt.mpr hpos)]

/-- An invariant of the moves and of the allocation of blocks is kept by the loop, which returns only negative errors. -/
theorem moveBlocks_rule {move : Nat → Nat → σ → Mem → Res (σ × Mem)} {E : Crash → Prop} {I : σ → Mem → Prop} (hwild : E .wild)
    (hget : ∀ i acc m, I acc m → Post E (fun out => I acc out.2.2) (fileGetBlock f i m))
    (hmove : ∀ a n acc m, I acc m → Post E (fun out => I out.1 out.2) (move a n acc m)) (stop n : Nat) (pos : Int)
    (blk : Option Nat) {acc : σ} {m : Mem} (h : I acc m) :
    Post E (fun out => I out.2.1 out.2.2 ∧ ∀ r, out.1 = some r → r < 0) (moveBlocks move f stop n pos blk acc m) := by
  induction n generalizing pos blk acc m with
  | zero => exact .pure ⟨h, nofun⟩
  | succ n ih =>
    unfold moveBlocks
    split
    · refine (hget _ acc m h).bind fun out hout => ?_
      dsimp only
      split
      · rename_i hneg
        refine .pure ⟨hout, fun r hr => ?_⟩
        cases hr
        exact hneg
      · cases out.2.1.or blk with
        | none => exact .throw hwild
        | some a => exact (hmove _ _ _ _ hout).bind fun out hout => ih _ _ hout
    · exact .pure ⟨h, nofun⟩

/-- A loop whose moves are moves of another one, with `g` for what they carry along. -/
theorem moveBlocks_simulates {τ : Type} {move : Nat → Nat → σ → Mem → Res (σ × Mem)}
    {move' : Nat → Nat → τ → Mem → Res (τ × Mem)} {g : τ → σ}
    (h : ∀ a n acc m out, move' a n acc m = .ok out → move a n (g acc) m = .ok (g out.1, out.2)) (f stop n : Nat) (pos : Int)
    (blk : Option Nat) (acc : τ) (m : Mem) : Post (fun _ => True)
      (fun out => moveBlocks move f stop n pos blk (g acc) m = .ok (out.1, g out.2.1, out.2.2))
      (moveBlocks move' f stop n pos blk acc m) := by
  induction n generalizing pos blk acc m with
  | zero => exact .pure rfl
  | succ n ih =>
    unfold moveBlocks
    split
    · cases fileGetBlock f (toU32 (pos.tdiv blksize)) m with
      | error e => exact .throw trivial
      | ok out =>
        obtain ⟨r, b, m1⟩ := out
        rw [ok_bind, ok_bind]
        dsimp only
        split
        · exact .pure rfl
        · cases b.or blk with
          | none => exact .throw trivial
          | some a =>
            dsimp only
            generalize min (toU32 (blksize - pos.tmod blksize)) (toU32 (stop - pos)) = bn
            cases hx : move' (4 * a + pos.tmod blksize).toNat bn acc m1 with
            | error e => exact .throw trivial
            | ok out =>
              rw [h _ _ _ _ _ hx, ok_bind, ok_bind]
              exact ih _ _ _ _
    · exact .pure rfl

lemma moveBlocks_before (move : Nat → Nat → σ → Mem → Res (σ × Mem)) (f : Nat) {count : Nat} (acc : σ)
    (m : Mem) (hpos : -4096 < pos) (h0 : 0 < count) (h1 : count ≤ 4096) (hneg : pos + count < 0) :
    moveBlocks move f (toU32 (pos + count)) count pos none acc m = (do
      let (r, b, m) ← fileGetBlock f 0 m
      if r < 0 then return (some r, acc, m)
      else
        match b with
        | none => .error .wild
        | some a =>
          let (acc, m) ← move (4 * a + pos).toNat count acc m
          return (none, acc, m)) := by
  have hstop := toU32_of_neg (i := pos + count) (by omega) hneg
  have hstart := toU32_of_neg (i := pos) (by omega) (by omega)
  have hblock : toU32 (pos.tdiv blksize) = 0 := by
    have hneg' := Int.neg_tdiv (-pos) blksize
    rw [Int.neg_neg, Int.tdiv_eq_zero_of_lt (a := -pos) (by omega) (by rw [blksize_cast]; omega)] at hneg'
    rw [hneg']
    rfl
  have hrest : pos.tmod blksize = pos := by
    have hneg' := Int.neg_tmod (-pos) blksize
    rw [Int.neg_neg, Int.tmod_eq_of_lt (a := -pos) (by omega) (by rw [blksize_cast]; omega), Int.neg_neg] at hneg'
    exact hneg'
  have hroom : (toU32 (blksize - pos) : Int) = 4096 - pos := by
    rw [blksize_cast]
    exact toU32_of_range (by omega) (by omega)
  have hleft : (toU32 ((toU32 (pos + count) : Int) - pos) : Int) = count := by
    rw [toU32_cast, hstop]
    omega
  have hbn : min (toU32 (blksize - pos)) (toU32 ((toU32 (pos + count) : Int) - pos)) = count := by
    omega
  obtain ⟨n, rfl⟩ := Nat.exists_eq_succ_of_ne_zero (Nat.pos_iff_ne_zero.mp h0)
  conv => lhs; unfold moveBlocks
  rw [if_pos (by omega), hblock, hrest, hbn]
  have hend : ∀ (blk : Option Nat) (acc : σ) (m : Mem), moveBlocks move f (toU32 (pos + (n.succ : Nat))) n
      (toI32 (pos + (n.succ : Nat))) blk acc m = .ok (none, acc, m) := fun blk acc m =>
    moveBlocks_end move f n blk acc m (by rw [toU32_toI32])
  simp only [hend, Option.or_none]
  rfl

section
variable {move : Nat → Nat → σ → Mem → Res (σ × Mem)} {count : Nat} {acc : σ} (hpos : -4096 < pos) (h0 : 0 < count)
  (h1 : count ≤ 4096) (hneg : pos + count < 0)
include hpos h0 h1 hneg

lemma moveBlocks_before_fails {r : Int} {blk : Option Nat} (hget : fileGetBlock f 0 m = .ok (r, blk, m'))
    (hr : r < 0) : moveBlocks move f (toU32 (pos + count)) count pos none acc m = .ok (some r, acc, m') := by
  rw [moveBlocks_before move f acc m hpos h0 h1 hneg, hget]
  exact if_pos hr

lemma moveBlocks_before_moves {a : Nat} (hget : fileGetBlock f 0 m = .ok (0, some a, m')) :
    moveBlocks move f (toU32 (pos + count)) count pos none acc m =
      move (4 * a + pos).toNat count acc m' >>= fun out => .ok (none, out) := by
  rw [moveBlocks_before move f acc m hpos h0 h1 hneg, hget]
  rfl

end

section
variable (cached : Nat → Bool) (m : Mem) (a n : Nat)

lemma touch_post : Post IsPanic (fun _ => True) (touch cached m a) := by
  unfold touch
  split
  · exact .pure trivial
  split
  · exact .throw ⟨_, rfl⟩
  split
  · exact .throw ⟨_, rfl⟩
  · exact .pure trivial

lemma touchBytes_post : Post IsPanic (fun _ => True) (touchBytes cached m a n) := by
  unfold touchBytes
  generalize List.range' _ _ = bs
  induction bs with
  | nil => exact .pure trivial
  | cons b bs ih => exact (touch_post cached m b).bind fun _ _ => ih

lemma touchBytes_cached : touchBytes (fun _ => true) m a n = .ok () := by
  unfold touchBytes
  generalize List.range' _ _ = bs
  induction bs with
  | nil => rfl
  | cons b bs ih => exact ih

section
variable {cached : Nat → Bool} {m : Mem} {a n c : Nat} (hfree : blockIsFree m c = false) (hc : c < sNblocks m)
  (hlo : 4096 * c ≤ a) (hhi : a + n ≤ 4096 * c + 4096) (hn : 0 < n)
include hfree hc hlo hhi hn

lemma touchBytes_used : touchBytes cached m a n = .ok () := by
  have hrange : List.range' (a / blksize) ((a + n - 1) / blksize + 1 - a / blksize) = [c] := by
    have h1 : a / blksize = c := by
      unfold blksize
      omega
    have h2 : (a + n - 1) / blksize + 1 - a / blksize = 1 := by
      rw [h1]
      unfold blksize
      omega
    rw [h1, ← h1, h2, h1]
    rfl
  have htouch : touch cached m c = .ok () := by
    unfold touch
    split
    · rfl
    · rw [if_neg (by omega), hfree]
      rfl
  unfold touchBytes
  rw [hrange]
  change (touch cached m c >>= fun _ => [].forM (touch cached m)) = _
  rw [htouch]
  rfl

lemma readMove_used (out : List (Nat × Nat)) :
    readMove cached a n out m = .ok (out ++ (List.range n).map (fun i => (a + i, getByte m (a + i))), m) := by
  unfold readMove
  rw [touchBytes_used hfree hc hlo hhi hn]
  rfl

lemma writeMove_used (buf : Mem → Nat → Nat) (done : Nat) :
    writeMove cached buf a n done m = .ok (done + n, putBytes m a ((List.range n).map fun i => buf m (done + i))) := by
  unfold writeMove
  rw [touchBytes_used hfree hc hlo hhi hn]
  rfl

end

lemma readMove_post (out : List (Nat × Nat)) : Post IsPanic
    (fun res => res = (out ++ (List.range n).map fun i => (a + i, getByte m (a + i)), m)) (readMove cached a n out m) :=
  (touchBytes_post cached m a n).bind fun _ _ => .pure rfl

lemma writeMove_post (buf : Mem → Nat → Nat) (done : Nat) : Post IsPanic
    (fun res => res = (done + n, putBytes m a ((List.range n).map fun i => buf m (done + i))))
    (writeMove cached buf a n done m) :=
  (touchBytes_post cached m a n).bind fun _ _ => .pure rfl

end

lemma putBytes_of_block {o : Nat} {bs : List Nat} (hlen : o + bs.length ≤ 4096) (hw : w / 1024 ≠ b) :
    putBytes m (4096 * b + o) bs w = m w :=
  putBytes_word _ _ _ (by omega)

lemma SameButData.putBytes {mr : Mem} {i o : Nat} {bs : List Nat} (h : SameButData f m mr)
    (href : Refers m (.block f i) b) (hlen : o + bs.length ≤ 4096) : SameButData f m (putBytes mr (4096 * b + o) bs) := by
  intro w hw
  rw [putBytes_of_block hlen]
  · exact h w hw
  · rintro rfl
    exact hw ⟨i, href⟩

lemma Growth.data (h : ReflTransGen (Growth f) m m') (ho : Owned m) (hw : InData m f w) : m' w = m w := by
  induction h with
  | refl => rfl
  | @tail m₁ m2 hrun hstep ih =>
    have hgrown := Growth.grownFrom hrun ho
    obtain ⟨i, href⟩ := hw
    have href1 := hgrown.refers _ _ href
    obtain ⟨bno, s, b, hs, hempty, hatt, hslot⟩ := hstep
    have hfile : s.file = f := by
      rcases hslot with rfl | ⟨rfl, -⟩ <;> rfl
    rw [← ih]
    refine hatt.other w ?_ ?_ ?_
    · rintro rfl
      exact hgrown.owned.data_not_meta ⟨i, href1⟩ (Slot.word_meta hs hfile)
    · rintro rfl
      exact hgrown.owned.exclusive.used _ _ href1 hatt.free
    · rintro rfl
      exact hgrown.owned.data_not_meta ⟨i, href1⟩ (.inr (.inl ⟨b, (blockIsFree_iff.mp hatt.free).1, rfl⟩))

lemma noWalk_resize (ho : Owned m) (hf : IsFile m f) (v i : Nat) :
    NoWalk (update m (fSize f) v) f i ↔ NoWalk m f i := by
  have hind : update m (fSize f) v (fIndirect f) = m (fIndirect f) :=
    update_of_ne (by unfold fIndirect fSize; omega) _ _
  have hbm : ∀ b, b < sNblocks m → update m (fSize f) v (bitmapWord b) = m (bitmapWord b) := fun b hb =>
    update_of_ne (show bitmapWord b ≠ fSize f from Ne.symm (ho.file_not_bitmap hf (by decide) hb)) v m
  have halloc := allocBlock_congr (sNblocks_resize ho hf v) hbm
  unfold NoWalk
  rw [hind, halloc, Option.map_eq_none_iff]

/-- `file_set_size` was called on `f`, or not. -/
def Resized (f : Nat) (m m' : Mem) : Prop :=
  m' = m ∨ ∃ m₁ v, ReflTransGen (DetachStep f) m m₁ ∧ m' = update m₁ (fSize f) v

lemma Resized.owned (h : Resized f m m') (ho : Owned m) (hf : IsFile m f) : Owned m' ∧ IsFile m' f := by
  rcases h with rfl | ⟨m₁, v, hrun, rfl⟩
  · exact ⟨ho, hf⟩
  · have hshrunk := DetachStep.run hrun ho hf
    exact ⟨owned_resize hshrunk.owned hshrunk.isFile v,
      ((sameTree_resize hshrunk.owned hshrunk.isFile v).isFile_iff f).mpr hshrunk.isFile⟩

lemma loop_result (x : Res (Option Int × σ × Mem)) (c : Int) : (do
    let (r, _, m) ← x
    match r with
    | some r => return (r, m)
    | none => return (c, m) : Res (Int × Mem)) = (fun out => (out.1.getD c, out.2.2)) <$> x := by
  cases x with
  | error e => rfl
  | ok out =>
    obtain ⟨r, acc, m⟩ := out
    cases r <;> rfl

lemma loop_fails (c r : Int) (acc : σ) (m : Mem) :
    (fun out : Option Int × σ × Mem => (out.1.getD c, out.2.2)) <$> (.ok (some r, acc, m) : Res _) = .ok (r, m) := rfl

lemma loop_returns (c : Int) (acc : σ) (m : Mem) :
    (fun out : Option Int × σ × Mem => (out.1.getD c, out.2.2)) <$> (.ok (none, acc, m) : Res _) = .ok (c, m) := rfl

/-- The lines of `file_write` that extend the file if necessary. -/
def fileExtend (f count : Nat) (offset : Int) (m : Mem) : Res (Int × Mem) :=
  if toU32 (size m f) < toU32 (offset + count) then fileSetSize f (toI32 (offset + count)) m else pure (0, m)

/-- `file_write` without the copying. -/
def fileAllocate (f count : Nat) (offset : Int) (m : Mem) : Res (Int × Mem) := fileWriteBy noMove () f count offset m

section
variable {m : Mem} (ho : Owned m) {f : Nat} (hf : IsFile m f) {count : Nat} {off : Int}
include ho hf

lemma fileWriteBy_eq (count : Nat) (off : Int) : ∃ m₁, Resized f m m₁ ∧ fileExtend f count off m = .ok (0, m₁) ∧
    (0 ≤ off → off + count < 2147483648 → ∀ i, NoWalk m₁ f i ↔ NoWalk m f i) ∧
    ∀ {σ : Type} (move : Nat → Nat → σ → Mem → Res (σ × Mem)) (acc : σ), fileWriteBy move acc f count off m =
      (fun out => (out.1.getD (toI32 count), out.2.2)) <$>
        moveBlocks move f (toU32 (off + count)) count off none acc m₁ := by
  by_cases hlt : toU32 (size m f) < toU32 (off + count)
  · obtain ⟨m2, hset, hrun, hsame, -⟩ := fileSetSize_spec ho hf (toI32 (off + count))
    refine ⟨_, .inr ⟨m2, toU32 (toI32 (off + count)), hrun, rfl⟩, (if_pos hlt).trans hset, fun h0 h1 i => ?_,
      fun move acc => ?_⟩
    · have hrange := toI32_range (m (fSize f))
      have hnew : toI32 (off + count) = off + count := toI32_of_range (by omega) h1
      have hnew' := toU32_of_range (i := off + count) (by omega) (by omega)
      have hgrow : ¬ toI32 (off + count) < size m f := by
        intro hless
        have hold := toU32_of_range (i := size m f) (by omega) (lt_trans hrange.2 (by decide))
        omega
      rw [hsame hgrow]
      exact noWalk_resize ho hf _ i
    · unfold fileWriteBy
      rw [if_pos hlt, hset, ok_bind]
      exact loop_result _ _
  · refine ⟨m, .inl rfl, if_neg hlt, fun _ _ _ => Iff.rfl, fun move acc => ?_⟩
    unfold fileWriteBy
    rw [if_neg hlt]
    exact loop_result _ _

/-- A write whose first block can be reached: the size is set, blocks are attached, and data is stored. -/
theorem fileWrite_spec (cached : Nat → Bool) (buf : Mem → Nat → Nat) (hoff : 0 ≤ off)
    (hwalk : ¬ NoWalk m f (off / 4096).toNat) (hcount : count ≤ 4096) :
    Post IsPanic (fun out => ∃ m₁ m' r, Resized f m m₁ ∧ ReflTransGen (Growth f) m₁ m' ∧ SameButData f m' out.2 ∧
      fileAllocate f count off m = .ok (r, m')) (fileWrite cached buf f count off m) := by
  obtain ⟨m₁, hres, -, hno, heq⟩ := fileWriteBy_eq ho hf count off
  obtain ⟨ho1, hf1⟩ := hres.owned ho hf
  have hsmall : ¬ 1034 ≤ (off / 4096).toNat := fun h => hwalk (.inl h)
  obtain ⟨p, rfl⟩ := Int.eq_ofNat_of_zero_le hoff
  have hstop : toU32 (p + count) = p + count := by
    have := toU32_of_range (i := (p : Int) + count) (by omega) (by omega)
    omega
  have hblock : ((p : Int) / 4096).toNat = p / 4096 := by omega
  rw [hblock] at hwalk
  unfold fileWrite
  rw [heq]
  rw [hstop] at heq ⊢
  refine Post.map ?_
  refine (moveBlocks_spec (Q := fun _ _ _ _ => True) (by omega) (fun _ _ _ _ _ _ _ _ _ _ => trivial) ?_ count ho1 hf1
    (fun _ _ => rfl) (by omega) (by omega) ?_ ?_ trivial (k := 0)).mono (fun _ h => h) ?_
  · intro k i b o n acc m mr ho href hsame hlen _ _
    refine (writeMove_post cached mr _ n buf acc).mono (fun _ h => h) fun out hout => ?_
    subst hout
    exact ⟨hsame.putBytes href (by simpa using hlen), trivial⟩
  · intro _ hlt
    rw [hno (by omega) (by omega)]
    exact hwalk
  · intro a ha
    cases ha
  · rintro out ⟨m', hrun, hgrow, hsame, -, -⟩
    exact ⟨m₁, m', _, hres, hgrow, hsame, by rw [fileAllocate, heq, hrun]; rfl⟩

lemma fileWrite_nothing (cached : Nat → Bool) (buf : Mem → Nat → Nat) (hoff : off < 2147483648) (hcount : count ≤ 4096)
    (h : count = 0 ∨ -2147483648 ≤ off ∧ off < 0 ∧ 0 ≤ off + count) :
    ∃ r m₁, fileWrite cached buf f count off m = .ok (r, m₁) ∧ Resized f m m₁ := by
  obtain ⟨m₁, hres, -, -, heq⟩ := fileWriteBy_eq ho hf count off
  have hcast := toU32_cast off
  have hcast' := toU32_cast (off + count)
  refine ⟨toI32 count, m₁, ?_, hres⟩
  unfold fileWrite
  rw [heq, moveBlocks_end _ _ _ _ _ _ (by omega), loop_returns]

end

end Jos.Fs
