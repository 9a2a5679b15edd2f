import Jos.Fs.Copy
import Mathlib.Algebra.Order.Interval.Finset.SuccPred
import Mathlib.Data.Nat.SuccPred
import Mathlib.Order.Interval.Finset.Nat

/-!
# Room on the disk

How far a loop over the blocks of a file gets is decided by two numbers: the blocks
that are free, and the blocks that have to be allocated, of which the indirect block
is one. The loop comes to its end, or `alloc_block` fails for a data block and
`file_get_block` says so, or `file_block_walk` fails, which `file_get_block` does not
report as an error.
-/

namespace Jos.Fs
open WordMem CInt Ownership
open Relation (ReflTransGen)

variable {hi lo : Nat}

def freeCount (m : Mem) : Nat := ((Finset.range (sNblocks m)).filter fun b => blockIsFree m b = true).card

def needed (m : Mem) (f lo hi : Nat) : Nat :=
  ((Finset.Ico lo hi).filter fun i => blockAt m f i = 0).card +
    if lo < hi ∧ ndirect < hi ∧ m (fIndirect f) = 0 then 1 else 0

section
variable {m m' : Mem} {f : Nat}

lemma freeCount_congr (hn : sNblocks m' = sNblocks m) (hfree : ∀ b, blockIsFree m' b = blockIsFree m b) :
    freeCount m' = freeCount m := by
  unfold freeCount
  simp only [hn, hfree]

lemma Attached.freeCount_eq {s : Slot} {b : Nat} (h : Attached m m' s b) (ho : Owned m) (hs : s.Exists m) :
    freeCount m = freeCount m' + 1 := by
  have hmem : b ∈ (Finset.range (sNblocks m)).filter fun c => blockIsFree m c :=
    Finset.mem_filter.mpr ⟨Finset.mem_range.mpr (ho.free_range h.free).2, h.free⟩
  have herase : (Finset.range (sNblocks m')).filter (fun c => blockIsFree m' c) =
      ((Finset.range (sNblocks m)).filter fun c => blockIsFree m c).erase b := by
    ext c
    simp only [Finset.mem_filter, Finset.mem_range, Finset.mem_erase, h.blockIsFree_iff ho hs, h.sNblocks_eq ho hs]
    tauto
  unfold freeCount
  rw [herase, Finset.card_erase_add_one hmem]

lemma allocBlock_none_iff (ho : Owned m) : allocBlock m = none ↔ freeCount m = 0 := by
  have hzero : freeCount m = 0 ↔ ∀ b, b < sNblocks m → blockIsFree m b = false := by
    simp [freeCount, Finset.filter_eq_empty_iff]
  rw [hzero]
  constructor
  · intro hnone b _
    by_cases hb : 2 ≤ b
    · exact allocBlock_none hnone hb
    · exact ho.reserved b (lt_of_lt_of_le (by omega) (two_le_reservedEnd m))
  · intro hall
    cases halloc : allocBlock m with
    | none => rfl
    | some p =>
      obtain ⟨-, hlt, hfree, -⟩ := allocBlock_some (show allocBlock m = some (p.1, p.2) from halloc)
      exact nomatch hfree.symm.trans (hall _ hlt)

lemma needed_empty (m : Mem) (f : Nat) (h : hi ≤ lo) : needed m f lo hi = 0 := by
  simp [needed, Finset.Ico_eq_empty_of_le h, Nat.not_lt.mpr h]

lemma needed_congr (hhi : hi ≤ ndirect + nindirect)
    (hblocks : ∀ i, i < ndirect + nindirect → blockAt m' f i = blockAt m f i)
    (hind : m' (fIndirect f) = m (fIndirect f)) : needed m' f lo hi = needed m f lo hi := by
  unfold needed
  rw [hind, Finset.filter_congr fun i hi' => by rw [hblocks i (lt_of_lt_of_le (Finset.mem_Ico.mp hi').2 hhi)]]

lemma needed_subrange (m : Mem) (f : Nat) {lo' hi' : Nat} (hlo : lo ≤ lo') (hhi : hi' ≤ hi) :
    needed m f lo' hi' ≤ needed m f lo hi := by
  refine Nat.add_le_add (Finset.card_le_card (Finset.filter_subset_filter _ (Finset.Ico_subset_Ico hlo hhi))) ?_
  split <;> split <;> omega

lemma needed_succ (m : Mem) (f : Nat) (h : lo ≤ hi) : needed m f lo (hi + 1) = needed m f lo hi +
    ((if blockAt m f hi = 0 then 1 else 0) +
      if ndirect ≤ hi ∧ m (fIndirect f) = 0 ∧ (lo = hi ∨ hi = ndirect) then 1 else 0) := by
  have hcard : ((Finset.Ico lo (hi + 1)).filter fun i => blockAt m f i = 0).card =
      ((Finset.Ico lo hi).filter fun i => blockAt m f i = 0).card + if blockAt m f hi = 0 then 1 else 0 := by
    rw [← Finset.insert_Ico_right_eq_Ico_add_one h, Finset.filter_insert]
    split
    · exact Finset.card_insert_of_notMem (by simp)
    · rfl
  unfold needed
  rw [hcard]
  split <;> split <;> split <;> split <;> omega

lemma needed_present (h : lo < hi) (hb : blockAt m f lo ≠ 0) (hind : ndirect ≤ lo → m (fIndirect f) ≠ 0) :
    needed m f lo hi = needed m f (lo + 1) hi := by
  unfold needed
  rw [← Finset.insert_Ico_add_one_left_eq_Ico h, Finset.filter_insert, if_neg hb]
  congr 1
  refine if_congr (and_congr_left fun hrest => ?_) rfl rfl
  refine ⟨fun _ => ?_, fun _ => h⟩
  by_contra hend
  exact hind (by omega) hrest.2

end

section
variable {m m' : Mem} {f i : Nat}

lemma AttachStep.needed_eq (h : AttachStep f i m m') (ho : Owned m) (hf : IsFile m f) (hlo : lo ≤ i)
    (hlt : i < hi) (hhi : hi ≤ ndirect + nindirect) : needed m f lo hi = needed m' f lo hi + 1 := by
  obtain ⟨s, b, hs, hempty, hatt, hslot⟩ := h
  have hb : b ≠ 0 := by
    have := (ho.free_range hatt.free).1
    have := two_le_reservedEnd m
    omega
  have hblocks := fun j hj => hatt.blockAt_eq ho hs hempty hf (i := j) hj
  have hind := (hatt.rewrites ho hs).indirect hf
  unfold needed
  rcases hslot with rfl | ⟨rfl, hdirect, -⟩
  · have hzero : blockAt m f i = 0 := (blockAt_word hs).trans hempty
    have hset : (Finset.Ico lo hi).filter (fun j => blockAt m f j = 0) =
        insert i ((Finset.Ico lo hi).filter fun j => blockAt m' f j = 0) := by
      ext j
      simp only [Finset.mem_filter, Finset.mem_Ico, Finset.mem_insert]
      by_cases hj : j = i
      · subst hj
        exact ⟨fun _ => .inl rfl, fun _ => ⟨⟨hlo, hlt⟩, hzero⟩⟩
      · refine ⟨fun ⟨hin, hz⟩ => .inr ⟨hin, ?_⟩, fun hor => ?_⟩
        · rw [hblocks j (by omega), if_neg fun heq => hj (by cases heq; rfl), hz]
        · obtain ⟨hin, hz⟩ := hor.resolve_left hj
          rw [hblocks j (by omega), if_neg fun heq => hj (by cases heq; rfl)] at hz
          exact ⟨hin, hz⟩
    rw [hset, Finset.card_insert_of_notMem, hind, if_neg (nofun : ¬ Slot.indirect f = Slot.block f i)]
    · omega
    · intro hmem
      have hz := (Finset.mem_filter.mp hmem).2
      rw [hblocks i (by omega), if_pos rfl] at hz
      exact hb hz
  · rw [if_pos rfl] at hind
    have hset : (Finset.Ico lo hi).filter (fun j => blockAt m' f j = 0) =
        (Finset.Ico lo hi).filter fun j => blockAt m f j = 0 := by
      refine Finset.filter_congr fun j hj => ?_
      rw [hblocks j (lt_of_lt_of_le (Finset.mem_Ico.mp hj).2 hhi), if_neg nofun]
    rw [hind, hset, if_pos ⟨by omega, by omega, hempty⟩, if_neg fun h => hb h.2.2]

lemma AttachStep.freeCount_eq (h : AttachStep f i m m') (ho : Owned m) : freeCount m = freeCount m' + 1 := by
  obtain ⟨s, b, hs, -, hatt, -⟩ := h
  exact hatt.freeCount_eq ho hs

lemma AttachStep.spent (h : ReflTransGen (AttachStep f i) m m') (ho : Owned m) (hf : IsFile m f)
    (hlo : lo ≤ i) (hlt : i < hi) (hhi : hi ≤ ndirect + nindirect) :
    needed m f lo hi + freeCount m' = needed m' f lo hi + freeCount m := by
  induction h with
  | refl => rfl
  | tail hrun hstep ih =>
    have hgrown := AttachStep.run hrun ho
    have h1 := hstep.needed_eq hgrown.owned ((hgrown.isFile_iff f).mpr hf) hlo hlt hhi
    have h2 := hstep.freeCount_eq hgrown.owned
    omega

lemma fileGetBlock_room (ho : Owned m) (hf : IsFile m f) (hi : i < ndirect + nindirect) :
    ∃ r blk m', fileGetBlock f i m = .ok (r, blk, m') ∧ ReflTransGen (AttachStep f i) m m' ∧
      (needed m f i (i + 1) ≤ freeCount m ∧ r = 0 ∧ blk = some (1024 * blockAt m' f i) ∧ blockAt m' f i ≠ 0 ∧
          (∀ hi, i < hi → hi ≤ ndirect + nindirect →
            needed m f i hi + freeCount m' = needed m' f (i + 1) hi + freeCount m) ∨
        needed m f i (i + 1) = freeCount m + 1 ∧ r = -eNoDisk ∧ blk = none ∧ blockAt m' f i = 0 ∨
        needed m f i (i + 1) = freeCount m + 2 ∧ r = 1 ∧ blk = none ∧ m' = m ∧ NoWalk m f i) := by
  obtain ⟨r, blk, m', hget, hrun, hcases⟩ := fileGetBlock_spec ho hf i
  refine ⟨r, blk, m', hget, hrun, ?_⟩
  have hgrown := AttachStep.run hrun ho
  have hspent := AttachStep.spent hrun ho hf (Nat.le_refl i) (show i < i + 1 by omega) hi
  have hone := needed_succ m' f (Nat.le_refl i)
  rw [needed_empty m' f (Nat.le_refl i)] at hone
  rcases hcases with ⟨rfl, rfl, rfl, hno⟩ | ⟨rfl, rfl, -, hzero, hnone, hex⟩ | ⟨rfl, rfl, -, hne⟩
  · obtain ⟨hdirect, hind, hnone⟩ := hno.resolve_left (by omega)
    rw [if_pos (blockAt_none hdirect hind), if_pos ⟨hdirect, hind, .inl rfl⟩] at hone
    have := (allocBlock_none_iff ho).mp hnone
    exact .inr (.inr ⟨by omega, rfl, rfl, rfl, hno⟩)
  · rw [if_pos hzero, if_neg fun h => hex.2.2 h.1 h.2.1] at hone
    have := (allocBlock_none_iff hgrown.owned).mp hnone
    exact .inr (.inl ⟨by omega, rfl, rfl, hzero⟩)
  · have hind : ndirect ≤ i → m' (fIndirect f) ≠ 0 := fun hle h0 => hne (blockAt_none hle h0)
    rw [if_neg hne, if_neg fun h => hind h.1 h.2.1] at hone
    refine .inl ⟨by omega, rfl, rfl, hne, fun hi' hlt hhi => ?_⟩
    rw [← needed_present hlt hne hind]
    exact AttachStep.spent hrun ho hf (Nat.le_refl i) hlt hhi

end

def blockEnd (off stop : Nat) : Nat := if off < stop then (stop + 4095) / 4096 else off / 4096

/-- `alloc_block` fails for a data block among `lo ≤ i < hi`. -/
def RunsOut (m : Mem) (f lo hi : Nat) : Prop :=
  ∃ i, lo < i ∧ i ≤ hi ∧ i ≤ ndirect + nindirect ∧ needed m f lo i = freeCount m + 1

/-- `file_block_walk` fails for a block among `lo ≤ i < hi`: one past the last that a file can have, or the first
that needs the indirect block. -/
def WalkFails (m : Mem) (f lo hi : Nat) : Prop :=
  lo < hi ∧ (ndirect + nindirect < hi ∧ needed m f lo (ndirect + nindirect) ≤ freeCount m ∨
    lo < ndirect + nindirect ∧ ndirect < hi ∧ m (fIndirect f) = 0 ∧ needed m f lo (max lo ndirect) = freeCount m)

def Enough (m : Mem) (f lo hi : Nat) : Prop :=
  (lo < hi → hi ≤ ndirect + nindirect) ∧ needed m f lo hi ≤ freeCount m

section
variable {m : Mem} {f lo hi : Nat}

lemma needed_first_indirect (lo : Nat) (hind : m (fIndirect f) = 0) :
    needed m f lo (max lo ndirect + 1) = needed m f lo (max lo ndirect) + 2 := by
  rw [needed_succ m f (Nat.le_max_left _ _), if_pos (blockAt_none (Nat.le_max_right _ _) hind),
    if_pos ⟨Nat.le_max_right _ _, hind, by omega⟩]

lemma Enough.not_walkFails (h : Enough m f lo hi) : ¬ WalkFails m f lo hi := by
  rintro ⟨hlt, ⟨hbig, -⟩ | ⟨hlo, hdirect, hind, heq⟩⟩
  · exact absurd (h.1 hlt) (by omega)
  · have hjump := needed_first_indirect lo hind
    have hmono := needed_subrange m f (Nat.le_refl lo) (show max lo ndirect + 1 ≤ hi by omega)
    have := h.2
    omega

lemma RunsOut.not_walkFails (h : RunsOut m f lo hi) : ¬ WalkFails m f lo hi := by
  obtain ⟨i, hlo, hhi, hmax, hi⟩ := h
  rintro ⟨hlt, ⟨hbig, hroom⟩ | ⟨hlo', hdirect, hind, heq⟩⟩
  · have := needed_subrange m f (Nat.le_refl lo) hmax
    omega
  · have hjump := needed_first_indirect lo hind
    rcases lt_or_ge (max lo ndirect) i with hlt' | hge
    · have := needed_subrange m f (Nat.le_refl lo) (show max lo ndirect + 1 ≤ i by omega)
      omega
    · have := needed_subrange m f (Nat.le_refl lo) hge
      omega

lemma Enough.subrange {lo' hi' : Nat} (h : Enough m f lo hi) (hlo : lo ≤ lo') (hhi : hi' ≤ hi) : Enough m f lo' hi' :=
  ⟨fun hlt => le_trans hhi (h.1 (by omega)), le_trans (needed_subrange m f hlo hhi) h.2⟩

lemma Enough.not_runsOut (h : Enough m f lo hi) : ¬ RunsOut m f lo hi := by
  rintro ⟨i, -, hhi, -, hi⟩
  have := needed_subrange m f (Nat.le_refl lo) hhi
  have := h.2
  omega

end

structure SameBlocks (f : Nat) (m m' : Mem) : Prop where
  owned : Owned m'
  isFile : IsFile m' f
  blocks : ∀ i, i < ndirect + nindirect → blockAt m' f i = blockAt m f i
  indirect : m' (fIndirect f) = m (fIndirect f)
  free : freeCount m' = freeCount m

lemma SameBlocks.refl {f : Nat} {m : Mem} (ho : Owned m) (hf : IsFile m f) : SameBlocks f m m :=
  ⟨ho, hf, fun _ _ => rfl, rfl, rfl⟩

section
variable {σ : Type} {move : Nat → Nat → σ → Mem → Res (σ × Mem)} {f stop : Nat} {J : Nat → σ → Mem → Mem → Prop}
  (hstop : stop < 4294967296)
  (hgrow : ∀ p acc m mr m1 mr1, Owned m → IsFile m f → p < stop → ReflTransGen (AttachStep f (p / 4096)) m m1 →
    (∀ w, mr w = m w → mr1 w = m1 w) → J p acc m mr → J p acc m1 mr1)
  (hmove : ∀ p n acc m mr, Owned m → IsFile m f → SameButData f m mr → p / 4096 < ndirect + nindirect →
    blockAt m f (p / 4096) ≠ 0 → 0 < n → p % 4096 + n ≤ 4096 → p + n ≤ stop → J p acc m mr →
    ∃ acc' m' mr', move (4096 * blockAt m f (p / 4096) + p % 4096) n acc mr = .ok (acc', mr') ∧ SameBlocks f m m' ∧
      SameButData f m' mr' ∧ J (p + n) acc' m' mr')

/-- How the loop goes: all blocks are there, the disk is full, or it goes on where a block has no place. -/
def FetchEnds (move : Nat → Nat → σ → Mem → Res (σ × Mem)) (J : Nat → σ → Mem → Mem → Prop) (f stop p lo hi : Nat) (m0 : Mem)
    (run : Res (Option Int × σ × Mem)) : Prop :=
  (∃ acc' m' mr', run = .ok (none, acc', mr') ∧ J stop acc' m' mr' ∧ Owned m' ∧ IsFile m' f ∧ SameButData f m' mr' ∧
      Enough m0 f lo hi) ∨
    (∃ q acc' m' mr', run = .ok (some (-eNoDisk), acc', mr') ∧ p ≤ q ∧ q < stop ∧ J q acc' m' mr' ∧ SameButData f m' mr' ∧
      Owned m' ∧ blockAt m' f (q / 4096) = 0 ∧ RunsOut m0 f lo hi) ∨
    ∃ (k q : Nat) (blk' : Option Nat) (acc' : σ) (m' mr' : Mem), run = moveBlocks move f stop (k + 1) q blk' acc' mr' ∧
      q < stop ∧ q < 2147483648 ∧ J q acc' m' mr' ∧ Owned m' ∧ IsFile m' f ∧ SameButData f m' mr' ∧ NoWalk m' f (q / 4096) ∧
      (∀ a, blk' = some a → ∃ i c, Refers m' (.block f i) c ∧ a = 1024 * c) ∧ WalkFails m0 f lo hi

include hstop hgrow hmove in
/-- The loop after the blocks `lo ≤ i < nb` have been fetched. `m` follows the blocks of `f` and `mr` is the memory
itself, which may differ from it in the data of `f`. -/
theorem moveBlocks_fetch_from (n : Nat) {lo hi nb p : Nat} {blk : Option Nat} {acc : σ} {m0 m mr : Mem} (ho : Owned m)
    (hf : IsFile m f) (hsame : SameButData f m mr) (hp : p ≤ stop) (hlow : p < 2147483648) (hn : stop ≤ p + n) (hJ : J p acc m mr)
    (hlo : lo ≤ nb) (hnext : p < stop → nb = p / 4096 ∧ hi = (stop + 4095) / 4096) (hend : ¬ p < stop → nb = hi)
    (hmax : lo < nb → nb ≤ ndirect + nindirect)
    (hblk : ∀ a, blk = some a → ∃ i c, Refers m (.block f i) c ∧ a = 1024 * c)
    (hpaid : needed m0 f lo nb + freeCount m = freeCount m0)
    (hroom : ∀ h, nb < h → h ≤ ndirect + nindirect → needed m0 f lo h + freeCount m = needed m f nb h + freeCount m0) :
    FetchEnds move J f stop p lo hi m0 (moveBlocks move f stop n p blk acc mr) := by
  induction n generalizing p nb blk acc m mr with
  | zero =>
    have hstop' : p = stop := by omega
    subst hstop'
    obtain rfl := hend (lt_irrefl p)
    exact .inl ⟨acc, m, mr, rfl, hJ, ho, hf, hsame, hmax, by omega⟩
  | succ n ih =>
    by_cases hlt : p < stop
    swap
    · have hstop' : p = stop := by omega
      subst hstop'
      obtain rfl := hend hlt
      have hpos : p ≤ toU32 p := by
        have := toU32_of_range (i := p) (by omega) (by omega)
        omega
      exact .inl ⟨acc, m, mr, moveBlocks_end move f _ blk acc mr hpos, hJ, ho, hf, hsame, hmax, by omega⟩
    obtain ⟨rfl, rfl⟩ := hnext hlt
    by_cases hbig : ndirect + nindirect ≤ p / 4096
    · -- past the last block a file can have
      refine .inr (.inr ⟨n, p, blk, acc, m, mr, rfl, hlt, hlow, hJ, ho, hf, hsame, .inl hbig, hblk, ?_,
        .inl ⟨by omega, ?_⟩⟩)
      · omega
      · rcases lt_or_ge lo (p / 4096) with hlt' | hge
        · have heq : p / 4096 = ndirect + nindirect := Nat.le_antisymm (hmax hlt') hbig
          rw [heq] at hpaid
          omega
        · rw [needed_empty m0 f (by omega)]
          exact Nat.zero_le _
    have hi : p / 4096 < ndirect + nindirect := Nat.lt_of_not_le hbig
    have hpmax : p < 4235264 := by
      unfold ndirect nindirect at hi
      omega
    obtain ⟨r, b, m1, m1', hget, hget', hkept⟩ := fileGetBlock_congr ho (hsame.meta ho) hf (p / 4096)
    obtain ⟨r', b', m1'', hspec, hrun, hcases⟩ := fileGetBlock_room ho hf hi
    cases hget.symm.trans hspec
    have hgrown := AttachStep.run hrun ho
    have hf1 := (hgrown.isFile_iff f).mpr hf
    have hsame1 : SameButData f m1 m1' := fun w hw =>
      hkept w (hsame w fun ⟨i, hd⟩ => hw ⟨i, hgrown.refers _ _ hd⟩)
    have hJ1 := hgrow p acc m mr m1 m1' ho hf hlt hrun hkept hJ
    have hone := hroom (p / 4096 + 1) (Nat.lt_succ_self _) hi
    rw [moveBlocks_at move f n blk acc mr hlt hstop, toI32_next (by omega), hget', ok_bind]
    dsimp only
    rcases hcases with ⟨hfit, rfl, rfl, hne, hspent⟩ | ⟨hout, rfl, rfl, hzero⟩ | ⟨hno, rfl, rfl, rfl, hnw⟩
    · -- the block is there
      rw [if_neg (by decide), show (some (1024 * blockAt m1 f (p / 4096))).or blk = some (1024 * blockAt m1 f (p / 4096)) from rfl]
      dsimp only
      rw [show 4 * (1024 * blockAt m1 f (p / 4096)) + p % 4096 = 4096 * blockAt m1 f (p / 4096) + p % 4096 by omega]
      have hpos : 0 < min (4096 - p % 4096) (stop - p) := by
        rw [Nat.lt_min]
        omega
      generalize hbn : min (4096 - p % 4096) (stop - p) = bn at hpos ⊢
      obtain ⟨acc2, m2, m2', hmoved, hblocks, hsame2, hJ2⟩ :=
        hmove p bn acc m1 m1' hgrown.owned hf1 hsame1 hi hne hpos (by omega) (by omega) hJ1
      rw [hmoved, ok_bind]
      dsimp only
      have hpaid1 := hspent (p / 4096 + 1) (Nat.lt_succ_self _) hi
      rw [needed_empty m1 f le_rfl] at hpaid1
      have hrest := @ih (p / 4096 + 1) (p + bn) (some (1024 * blockAt m1 f (p / 4096))) acc2 m2 m2' hblocks.owned
        hblocks.isFile hsame2 (by omega) (by omega) (by omega) hJ2 (by omega) (fun h => ⟨by omega, rfl⟩) (fun h => by omega)
        (fun _ => hi) (fun a ha => ?_) (by rw [hblocks.free]; omega) fun h hlt' hle => ?_
      · rcases hrest with hrest | ⟨q, acc', m', mr', hrun', hle, hrest⟩ | hrest
        · exact .inl hrest
        · exact .inr (.inl ⟨q, acc', m', mr', hrun', by omega, hrest⟩)
        · exact .inr (.inr hrest)
      · cases ha
        exact ⟨p / 4096, _, ⟨hblocks.isFile, hi, hblocks.blocks _ hi, hne⟩, rfl⟩
      · have h1 := hroom h (by omega) hle
        have h2 := hspent h (by omega) hle
        rw [hblocks.free, needed_congr hle hblocks.blocks hblocks.indirect]
        omega
    · -- no block is left for the data
      rw [if_pos (by decide)]
      exact .inr (.inl ⟨p, acc, m1, m1', rfl, le_rfl, hlt, hJ1, hsame1, hgrown.owned, hzero, p / 4096 + 1, by omega,
        by omega, hi, by omega⟩)
    · -- no block is left for the indirect block
      rw [needed_succ m0 f hlo] at hone
      have hfirst : ndirect ≤ p / 4096 ∧ m0 (fIndirect f) = 0 ∧ (lo = p / 4096 ∨ p / 4096 = ndirect) := by
        by_contra hnot
        rw [if_neg hnot] at hone
        split at hone <;> omega
      rw [if_pos hfirst] at hone
      have hmaxeq : max lo ndirect = p / 4096 := by omega
      refine .inr (.inr ⟨n, p, blk, acc, m1, mr, ?_, hlt, hlow, hJ, ho, hf, hsame, hnw, hblk, by omega,
        .inr ⟨by omega, by omega, hfirst.2.1, ?_⟩⟩)
      · rw [moveBlocks_at move f n blk acc mr hlt hstop, toI32_next (by omega), hget', ok_bind]
      · rw [hmaxeq]
        split at hone <;> omega

include hstop hgrow hmove in
lemma moveBlocks_fetch (n : Nat) {off : Nat} {acc : σ} {m mr : Mem} (ho : Owned m) (hf : IsFile m f)
    (hsame : SameButData f m mr) (hoff : off ≤ stop) (hlow : off < 2147483648) (hn : stop ≤ off + n) (hJ : J off acc m mr) :
    FetchEnds move J f stop off (off / 4096) (blockEnd off stop) m (moveBlocks move f stop n off none acc mr) := by
  refine moveBlocks_fetch_from hstop hgrow hmove n ho hf hsame hoff hlow hn hJ le_rfl (fun hlt => ⟨rfl, if_pos hlt⟩)
    (fun hnot => (if_neg hnot).symm) (fun h => absurd h (lt_irrefl _)) nofun ?_ fun h _ _ => rfl
  rw [needed_empty m f le_rfl, zero_add]

end

lemma moveBlocks_stuck {σ : Type} {move : Nat → Nat → σ → Mem → Res (σ × Mem)} {f stop : Nat} (hstop : stop < 4294967296)
    {m : Mem} (ho : Owned m) (hf : IsFile m f)
    (hmove : ∀ i c o n acc mr, Refers m (.block f i) c → SameButData f m mr → 0 < n → o + n ≤ 4096 →
      Post (fun _ => True) (fun out => SameButData f m out.2) (move (4096 * c + o) n acc mr))
    {i0 : Nat} (hno : ∀ i, i0 ≤ i → NoWalk m f i) (n : Nat) {pos : Int} (hpos : 4096 * (i0 : Int) ≤ pos ∨ pos < 0 ∧ 4096 ∣ pos)
    (hrange : -2147483648 ≤ pos ∧ pos < 2147483648) {i c : Nat} (href : Refers m (.block f i) c) {acc : σ} {mr : Mem}
    (hsame : SameButData f m mr) : Post (fun _ => True) (fun out => out.1 = none ∧ SameButData f m out.2.2)
      (moveBlocks move f stop n pos (some (1024 * c)) acc mr) := by
  induction n generalizing pos acc mr with
  | zero => exact .pure ⟨rfl, hsame⟩
  | succ n ih =>
    unfold moveBlocks
    split
    case isFalse => exact .pure ⟨rfl, hsame⟩
    case isTrue hlt =>
      have hcast := toU32_cast pos
      have hmod : 0 ≤ pos.tmod blksize ∧ pos.tmod blksize < 4096 ∧ (4096 : Int) ∣ pos - pos.tmod blksize := by
        rw [blksize_cast]
        rcases hpos with hpos | ⟨-, hdvd⟩
        · rw [Int.tmod_eq_emod_of_nonneg (by omega)]
          omega
        · rw [Int.tmod_eq_zero_of_dvd hdvd]
          omega
      have hwalk : NoWalk m f (toU32 (pos.tdiv blksize)) := by
        have hindex := toU32_cast (pos.tdiv blksize)
        rw [blksize_cast] at hindex ⊢
        rcases hpos with hpos | ⟨hneg, hdvd⟩
        · rw [Int.tdiv_eq_ediv_of_nonneg (by omega)] at hindex ⊢
          exact hno _ (by omega)
        · obtain ⟨k, rfl⟩ := hdvd
          rw [Int.mul_tdiv_cancel_left k (by decide)] at hindex ⊢
          refine .inl ?_
          unfold ndirect nindirect
          omega
      obtain ⟨r, b, m1, m1', hget, hget', hkept⟩ := fileGetBlock_congr ho (hsame.meta ho) hf (toU32 (pos.tdiv blksize))
      rw [fileGetBlock_noWalk ho hf hwalk] at hget
      cases hget
      have hsame1 : SameButData f m m1' := fun w hw => hkept w (hsame w hw)
      rw [hget', ok_bind]
      dsimp only [Option.or]
      rw [if_neg (by decide)]
      obtain ⟨o, ho'⟩ := Int.eq_ofNat_of_zero_le hmod.1
      rw [ho'] at hmod ⊢
      have hfull : toU32 (blksize - (o : Int)) = 4096 - o := by
        have := toU32_of_range (i := 4096 - (o : Int)) (by omega) (by omega)
        rw [blksize_cast]
        omega
      have hleft : (toU32 (stop - pos) : Int) = (stop - pos) % 4294967296 := toU32_cast _
      have hbn : 0 < min (4096 - o) (toU32 (stop - pos)) := by omega
      have hfit : o + min (4096 - o) (toU32 (stop - pos)) ≤ 4096 := by omega
      have hle : min (4096 - o) (toU32 (stop - pos)) ≤ toU32 (stop - pos) := min_le_right _ _
      have hcut : min (4096 - o) (toU32 (stop - pos)) = 4096 - o ∨
          min (4096 - o) (toU32 (stop - pos)) = toU32 (stop - pos) := by omega
      rw [hfull, show (4 * (1024 * c : Nat) + (o : Int)).toNat = 4096 * c + o by omega]
      generalize min (4096 - o) (toU32 (stop - pos)) = bn at hbn hfit hle hcut ⊢
      refine (hmove i c o bn acc m1' href hsame1 hbn hfit).bind fun out hout => ?_
      by_cases hend : stop ≤ toU32 (toI32 (pos + bn))
      · rw [moveBlocks_end move f n _ _ _ hend]
        exact .pure ⟨rfl, hout⟩
      · have hnext := toU32_cast (pos + bn)
        rw [toU32_toI32] at hend
        refine ih ?_ (toI32_range _) hout
        rw [toI32_eq]
        split <;> omega

end Jos.Fs
