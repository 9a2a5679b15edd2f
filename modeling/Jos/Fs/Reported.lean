import Jos.Fs.Contents

/-!
# Errors of the block lookup

The comment of `file_get_block` promises 0 or a negative value. A misplaced
parenthesis makes it return 1 when `file_block_walk` fails, and the copy loops of
`file_read` and `file_write` take that for success: they go on with the block of the
round before, or with a pointer that was never set.
-/

namespace Jos.Fs
open WordMem CInt Ownership
open Relation (ReflTransGen)

/-- What `file_get_block` is to return. -/
def GetBlockRight (m : Mem) (f i : Nat) : Prop :=
  ∃ r blk m', fileGetBlock f i m = .ok (r, blk, m') ∧
    (r = 0 ∧ i < ndirect + nindirect ∧ blockAt m' f i ≠ 0 ∧ blk = some (1024 * blockAt m' f i) ∨
      r = -eInval ∧ ndirect + nindirect ≤ i ∨
      r = -eNoDisk ∧ i < ndirect + nindirect ∧ blockAt m f i = 0 ∧ allocBlock m' = none)

def Stands (m : Mem) (f p x : Nat) : Prop :=
  p / 4096 < ndirect + nindirect ∧ blockAt m f (p / 4096) ≠ 0 ∧ x = 4096 * blockAt m f (p / 4096) + p % 4096

instance (m : Mem) (f p x : Nat) : Decidable (Stands m f p x) := inferInstanceAs (Decidable (_ ∧ _ ∧ _))

/-- A `memmove` of the copy loops with a check that every byte is at the place of its position. -/
def checkedMove {σ : Type} (f off : Nat) (done : σ → Nat) (move : Nat → Nat → σ → Mem → Res (σ × Mem)) (a n : Nat) (acc : σ)
    (m : Mem) : Res (σ × Mem) :=
  if ∀ j, j < n → Stands m f (off + done acc + j) (a + j) then move a n acc m
  else .error (.assertion "copy at the place of the position")

def Lacks (m : Mem) (f off stop : Nat) : Prop :=
  ∃ p, off ≤ p ∧ p < stop ∧ (ndirect + nindirect ≤ p / 4096 ∨ blockAt m f (p / 4096) = 0)

def ReadRight (cached : Nat → Bool) (f count off : Nat) (m : Mem) : Prop :=
  ∃ r out m', fileRead cached f count off m = .ok (r, out, m') ∧
    fileReadBy (checkedMove f off List.length (readMove cached)) [] f count off m = .ok (r, out, m') ∧
    (Lacks m' f off (off + readCount m f count off) → r < 0)

def WriteRight (cached : Nat → Bool) (buf : Mem → Nat → Nat) (f count off : Nat) (m : Mem) : Prop :=
  ∃ r m', fileWrite cached buf f count off m = .ok (r, m') ∧
    fileWriteBy (checkedMove f off id (writeMove cached buf)) 0 f count off m = .ok (r, m') ∧
    (Lacks m' f off (off + count) → r < 0)

lemma getBlockRight_iff {m : Mem} (ho : Owned m) {f : Nat} (hf : IsFile m f) (i : Nat) :
    GetBlockRight m f i ↔ ¬ NoWalk m f i := by
  obtain ⟨r, blk, m', hget, hrun, hcases⟩ := fileGetBlock_spec ho hf i
  have hgrown := AttachStep.run hrun ho
  have hbound : ¬ NoWalk m f i → i < ndirect + nindirect := fun h => Nat.lt_of_not_le fun hle => h (.inl hle)
  constructor
  · rintro ⟨r', blk', m'', hget', hright⟩ hno
    cases hget.symm.trans hget'
    rcases hcases with ⟨rfl, -⟩ | ⟨-, -, hyes, -⟩ | ⟨-, -, hyes, -⟩
    · rcases hright with ⟨h1, -⟩ | ⟨h1, -⟩ | ⟨h1, -⟩
      · exact absurd h1 (by decide)
      · exact absurd h1 (by decide)
      · exact absurd h1 (by decide)
    · exact hyes hno
    · exact hyes hno
  · intro hyes
    refine ⟨r, blk, m', hget, ?_⟩
    rcases hcases with ⟨-, -, -, hno⟩ | ⟨rfl, -, -, hzero, hnone, -⟩ | ⟨rfl, rfl, -, hne⟩
    · exact absurd hno hyes
    · refine .inr (.inr ⟨rfl, hbound hyes, ?_, hnone⟩)
      by_contra hne
      obtain ⟨-, -, hb, h0⟩ := hgrown.refers (.block f i) _ ⟨hf, hbound hyes, rfl, hne⟩
      exact h0 (hb.symm.trans hzero)
    · exact .inl ⟨rfl, hbound hyes, hne, rfl⟩

section
variable {m mr : Mem} {f : Nat} (h : SameButData f m mr) (ho : Owned m) (hf : IsFile m f)
include h ho in
lemma SameButData.used {i c : Nat} (href : Refers m (.block f i) c) : blockIsFree mr c = false ∧ c < sNblocks mr := by
  have hn : sNblocks mr = sNblocks m := h.meta ho _ (.inl rfl)
  have hlt := (ho.range _ _ href).2
  refine ⟨?_, by rwa [hn]⟩
  rw [blockIsFree_congr hn fun hb => h.meta ho _ (.inr (.inl ⟨c, hb, rfl⟩))]
  exact Bool.eq_false_iff.mpr (ho.exclusive.used _ _ href)

end

section
variable {σ : Type} {move : Nat → Nat → σ → Mem → Res (σ × Mem)} {f off stop : Nat} {done : σ → Nat}

lemma checkedMove_ok (a n : Nat) (acc : σ) (m : Mem) (out : σ × Mem) (h : checkedMove f off done move a n acc m = .ok out) :
    move a n acc m = .ok out := by
  unfold checkedMove at h
  split at h
  · exact h
  · cases h

lemma moveBlocks_of_checked (n : Nat) (pos : Int) (blk : Option Nat) (acc : σ) (m : Mem) :
    Post (fun _ => True) (fun out => moveBlocks move f stop n pos blk acc m = .ok out)
      (moveBlocks (checkedMove f off done move) f stop n pos blk acc m) :=
  moveBlocks_simulates (g := id) checkedMove_ok f stop n pos blk acc m

structure CheckedTo (f off : Nat) (done : σ → Nat) (p : Nat) (acc : σ) (m mr : Mem) : Prop where
  pos : p = off + done acc
  present : ∀ q, off ≤ q → q < p → q / 4096 < ndirect + nindirect ∧ blockAt m f (q / 4096) ≠ 0

variable (hmove : ∀ i c o n acc m mr, Owned m → Refers m (.block f i) c → SameButData f m mr → 0 < n → o + n ≤ 4096 →
    ∃ acc' mr', move (4096 * c + o) n acc mr = .ok (acc', mr') ∧ done acc' = done acc + n ∧ SameButData f m mr')
  {m : Mem} (ho : Owned m) (hf : IsFile m f)
include hmove ho hf in
lemma moveBlocks_checked (hstop : stop < 4294967296) (hoff : off ≤ stop) (hlow : off < 2147483648) (n : Nat)
    (hn : stop ≤ off + n) (acc : σ) (hacc : done acc = 0) :
    (¬ WalkFails m f (off / 4096) (blockEnd off stop) → ∃ r acc' m',
      moveBlocks (checkedMove f off done move) f stop n off none acc m = .ok (r, acc', m') ∧
        (r = some (-eNoDisk) ∨ r = none ∧ ¬ Lacks m' f off stop)) ∧
    (WalkFails m f (off / 4096) (blockEnd off stop) → ∀ out,
      moveBlocks (checkedMove f off done move) f stop n off none acc m ≠ .ok out) := by
  have hinit : CheckedTo f off done off acc m m := ⟨by omega, fun q h1 h2 => by omega⟩
  have hloop := @moveBlocks_fetch _ (checkedMove f off done move) f stop (CheckedTo f off done) hstop
    (fun p acc m1 mr m2 mr2 ho1 hf1 hp hrun hkept h => ?_)
    (fun p k acc m1 mr ho1 hf1 hsame hi hb hk hfit hend h => ?_) n off acc m m ho hf (fun _ _ => rfl) hoff hlow hn
    hinit
  · rcases hloop with ⟨acc', m', mr', hrun, hdone, ho', hf', hsame, hroom⟩ |
      ⟨q, acc', m', mr', hrun, -, -, -, -, -, -, hout⟩ | ⟨k, q, blk, acc', m', mr', hrun, hq, -, hdone, ho', hf', hsame, hno, -,
      hfails⟩
    · refine ⟨fun _ => ⟨none, acc', mr', hrun, .inr ⟨rfl, ?_⟩⟩, fun hfails => absurd hfails hroom.not_walkFails⟩
      rintro ⟨p, hlo, hhi, hbig | hzero⟩
      · exact absurd (hdone.present p hlo hhi).1 (by omega)
      · obtain ⟨hi, hne⟩ := hdone.present p hlo hhi
        rw [hsame.blockAt_eq ho' hf' _ hi] at hzero
        exact hne hzero
    · exact ⟨fun _ => ⟨_, acc', mr', hrun, .inl rfl⟩, fun hfails => absurd hfails hout.not_walkFails⟩
    · refine ⟨fun h => absurd hfails h, fun _ out hok => ?_⟩
      obtain ⟨r, b, m1, m1', hget, hget', hkept⟩ := fileGetBlock_congr ho' (hsame.meta ho') hf' (q / 4096)
      rw [fileGetBlock_noWalk ho' hf' hno] at hget
      cases hget
      rw [hrun, moveBlocks_at _ f k blk acc' mr' hq hstop, hget', ok_bind] at hok
      dsimp only at hok
      rw [if_neg (by decide)] at hok
      cases blk with
      | none => cases hok
      | some a =>
        have hcheck : ¬ ∀ j, j < min (4096 - q % 4096) (stop - q) → Stands m1' f (off + done acc' + j) (4 * a + q % 4096 + j) := by
          intro hall
          obtain ⟨hi, hne, -⟩ := hall 0 (by omega)
          have hpos := hdone.pos
          rw [add_zero, ← hpos] at hi hne
          obtain ⟨hdirect, hind, -⟩ := hno.resolve_left (by omega)
          have hsame' : mr' (fIndirect f) = m' (fIndirect f) := hsame.meta ho' _ (.inr (.inr (.inl ⟨44, by decide, rfl⟩)))
          exact hne (blockAt_none hdirect ((hkept _ hsame').trans hind))
        dsimp only [Option.or] at hok
        unfold checkedMove at hok
        rw [if_neg hcheck] at hok
        cases hok
  · refine ⟨h.pos, fun q hlo hhi => ?_⟩
    obtain ⟨hi, hne⟩ := h.present q hlo hhi
    obtain ⟨-, -, hb, h0⟩ := (AttachStep.run hrun ho1).refers (.block f (q / 4096)) _ ⟨hf1, hi, rfl, hne⟩
    exact ⟨hi, by rwa [hb]⟩
  · obtain ⟨acc', mr', hrun, hdone, hsame'⟩ := hmove (p / 4096) (blockAt m1 f (p / 4096)) (p % 4096) k acc m1 mr ho1
      ⟨hf1, hi, rfl, hb⟩ hsame hk hfit
    refine ⟨acc', m1, mr', ?_, .refl ho1 hf1, hsame', by have := h.pos; omega, fun q hlo hhi => ?_⟩
    · unfold checkedMove
      rw [if_pos, hrun]
      intro j hj
      have hpos : (off + done acc + j) / 4096 = p / 4096 := by
        have := h.pos
        omega
      refine ⟨by rwa [hpos], by rwa [hpos, hsame.blockAt_eq ho1 hf1 _ hi], ?_⟩
      rw [hpos, hsame.blockAt_eq ho1 hf1 _ hi]
      have := h.pos
      omega
    · by_cases hlt : q < p
      · exact h.present q hlo hlt
      · rw [show q / 4096 = p / 4096 by omega]
        exact ⟨hi, hb⟩

end

section
variable {m : Mem} (ho : Owned m) {f : Nat} (hf : IsFile m f)

lemma readMove_checks (cached : Nat → Bool) (i c o n : Nat) (out : List (Nat × Nat)) (m mr : Mem) (ho : Owned m)
    (href : Refers m (.block f i) c) (hsame : SameButData f m mr) (hn : 0 < n) (hfit : o + n ≤ 4096) :
    ∃ out' mr', readMove cached (4096 * c + o) n out mr = .ok (out', mr') ∧ out'.length = out.length + n ∧
      SameButData f m mr' := by
  obtain ⟨hused, hlt⟩ := hsame.used ho href
  exact ⟨_, _, readMove_used hused hlt (by omega) (by omega) hn out, by simp, hsame⟩

lemma writeMove_checks (cached : Nat → Bool) (buf : Mem → Nat → Nat) (i c o n done : Nat) (m mr : Mem) (ho : Owned m)
    (href : Refers m (.block f i) c) (hsame : SameButData f m mr) (hn : 0 < n) (hfit : o + n ≤ 4096) :
    ∃ done' mr', writeMove cached buf (4096 * c + o) n done mr = .ok (done', mr') ∧ id done' = id done + n ∧
      SameButData f m mr' := by
  obtain ⟨hused, hlt⟩ := hsame.used ho href
  exact ⟨_, _, writeMove_used hused hlt (by omega) (by omega) hn buf done, rfl, hsame.putBytes href (by simpa using hfit)⟩

include ho hf in
lemma readRight_iff (cached : Nat → Bool) (count off : Nat) : ReadRight cached f count off m ↔
    ¬ WalkFails m f (off / 4096) (blockEnd off (off + readCount m f count off)) := by
  by_cases hlt : (off : Int) < size m f
  · have hrange := (toI32_range (m (fSize f))).2
    change size m f < 2147483648 at hrange
    have hmax : off + readCount m f count off < 2147483648 := by
      unfold readCount
      omega
    have hstop : toU32 ((off : Int) + readCount m f count off) = off + readCount m f count off := by
      have := toU32_of_range (i := (off : Int) + readCount m f count off) (by omega) (by omega)
      omega
    obtain ⟨hgood, hbad⟩ := moveBlocks_checked (readMove_checks cached) ho hf
      (show off + readCount m f count off < 4294967296 by omega) (Nat.le_add_right off _) (by omega) _ le_rfl [] rfl
    have heq := fileReadBy_eq (checkedMove f off List.length (readMove cached)) [] hlt (by omega) count
    rw [hstop] at heq
    constructor
    · rintro ⟨r, out, m', -, hrun, -⟩ hfails
      rw [heq] at hrun
      obtain ⟨res, hres, -⟩ := map_ok hrun
      exact hbad hfails res hres
    · intro hok
      obtain ⟨r, out, m', hrun, hres⟩ := hgood hok
      have hplain := (moveBlocks_of_checked _ _ _ _ _).ok _ hrun
      refine ⟨r.getD (toI32 (readCount m f count off)), out, m', ?_, ?_, fun hlacks => ?_⟩
      · rw [fileRead_eq hlt (by omega), hstop, hplain]
        rfl
      · rw [heq, hrun]
        rfl
      · rcases hres with rfl | ⟨-, hnot⟩
        · exact (by decide : -eNoDisk < 0)
        · exact absurd hlacks hnot
  · have hzero : readCount m f count off = 0 := by
      unfold readCount
      omega
    have hrun : ∀ {σ : Type} (move : Nat → Nat → σ → Mem → Res (σ × Mem)) (acc : σ),
        fileReadBy move acc f count off m = .ok (0, acc, m) := by
      intro σ move acc
      unfold fileReadBy
      rw [if_pos (by omega)]
      rfl
    rw [hzero]
    refine iff_of_true ⟨0, [], m, hrun _ _, hrun _ _, ?_⟩ ?_
    · rw [hzero]
      rintro ⟨p, hlo, hhi, -⟩
      omega
    · rintro ⟨hless, -⟩
      unfold blockEnd at hless
      rw [if_neg (by omega)] at hless
      omega

def WriteFails (m : Mem) (f count off : Nat) : Prop :=
  off + count < 4294967296 ∧ ∃ r m1, fileExtend f count off m = .ok (r, m1) ∧
    WalkFails m1 f (off / 4096) (blockEnd off (off + count))

include ho hf in
lemma writeRight_iff (cached : Nat → Bool) (buf : Mem → Nat → Nat) {count off : Nat} (hcount : count < 4294967296)
    (hoff : off < 2147483648) : WriteRight cached buf f count off m ↔ ¬ WriteFails m f count off := by
  obtain ⟨m1, hres, hext, -, heq⟩ := fileWriteBy_eq ho hf count off
  obtain ⟨ho1, hf1⟩ := hres.owned ho hf
  have hfails : WriteFails m f count off ↔
      off + count < 4294967296 ∧ WalkFails m1 f (off / 4096) (blockEnd off (off + count)) := by
    refine and_congr_right fun _ => ⟨fun ⟨r, m2, hext', h⟩ => ?_, fun h => ⟨0, m1, hext, h⟩⟩
    cases hext.symm.trans hext'
    exact h
  rw [hfails]
  by_cases hwrap : off + count < 4294967296
  · have hstop : toU32 ((off : Int) + count) = off + count := by
      have := toU32_of_range (i := (off : Int) + count) (by omega) (by omega)
      omega
    rw [hstop] at heq
    obtain ⟨hgood, hbad⟩ := moveBlocks_checked (writeMove_checks cached buf) ho1 hf1 hwrap (by omega) hoff count
      le_rfl 0 rfl
    constructor
    · rintro ⟨r, m', -, hrun, -⟩ ⟨-, hno⟩
      rw [heq] at hrun
      obtain ⟨res, hres', -⟩ := map_ok hrun
      exact hbad hno res hres'
    · intro hok
      obtain ⟨r, done, m', hrun, hout⟩ := hgood fun h => hok ⟨hwrap, h⟩
      have hplain := (moveBlocks_of_checked _ _ _ _ _).ok _ hrun
      refine ⟨r.getD (toI32 count), m', ?_, ?_, fun hlacks => ?_⟩
      · unfold fileWrite
        rw [heq, hplain]
        rfl
      · rw [heq, hrun]
        rfl
      · rcases hout with rfl | ⟨-, hnot⟩
        · exact (by decide : -eNoDisk < 0)
        · exact absurd hlacks hnot
  · -- the sum wraps around: nothing is copied, and the count is a negative `int`
    have hpos : toU32 ((off : Int) + count) ≤ toU32 off := by
      have := toU32_cast ((off : Int) + count)
      have := toU32_of_range (i := (off : Int)) (by omega) (by omega)
      omega
    have hneg : toI32 (count : Int) < 0 := by
      rw [toI32_eq]
      split <;> omega
    have hrun : ∀ {σ : Type} (move : Nat → Nat → σ → Mem → Res (σ × Mem)) (acc : σ),
        fileWriteBy move acc f count off m = .ok (toI32 count, m1) := by
      intro σ move acc
      rw [heq, moveBlocks_end _ _ _ _ _ _ hpos]
      exact loop_returns _ _ _
    exact iff_of_true ⟨_, m1, hrun _ _, hrun _ _, fun _ => hneg⟩ fun h => hwrap h.1

include ho hf in
lemma writeFails_iff {count off : Nat} (hsize : 0 ≤ size m f) (hmax : off + count < 2147483648) :
    WriteFails m f count off ↔ WalkFails m f (off / 4096) (blockEnd off (off + count)) := by
  have hblocks := (extended_spec ho hf (off + count)).1
  have hsame : WalkFails (extended m f (off + count)) f (off / 4096) (blockEnd off (off + count)) ↔
      WalkFails m f (off / 4096) (blockEnd off (off + count)) := by
    have hneed : ∀ hi, hi ≤ ndirect + nindirect → needed (extended m f (off + count)) f (off / 4096) hi =
        needed m f (off / 4096) hi := fun hi hle => needed_congr hle hblocks.blocks hblocks.indirect
    unfold WalkFails
    rw [hblocks.free, hblocks.indirect, hneed _ le_rfl]
    refine and_congr_right fun _ => or_congr_right (and_congr_right fun hlo => ?_)
    rw [hneed _ (by unfold ndirect nindirect at *; omega)]
  rw [← hsame]
  refine ⟨fun ⟨_, r, m1, hext, h⟩ => ?_, fun h => ⟨by omega, 0, _, fileExtend_extended ho hf hsize hmax, h⟩⟩
  have hm : m1 = extended m f (off + count) :=
    (Prod.mk.inj (Except.ok.inj (hext.symm.trans (fileExtend_extended ho hf hsize hmax)))).2
  rwa [hm] at h

end

/-- The lookup of a block, and the copies that rest on it, are right exactly when `file_block_walk` does not fail on the
way. -/
theorem lookup_errors_iff {m : Mem} (ho : Owned m) {f : Nat} (hf : IsFile m f) :
    (∀ i, GetBlockRight m f i ↔ ¬ NoWalk m f i) ∧
    (∀ cached count off, ReadRight cached f count off m ↔
      ¬ WalkFails m f (off / 4096) (blockEnd off (off + readCount m f count off))) ∧
    ∀ cached buf count off, count < 4294967296 → off < 2147483648 →
      (WriteRight cached buf f count off m ↔ ¬ WriteFails m f count off) ∧
      (0 ≤ size m f → off + count < 2147483648 →
        (WriteFails m f count off ↔ WalkFails m f (off / 4096) (blockEnd off (off + count)))) :=
  ⟨getBlockRight_iff ho hf, readRight_iff ho hf, fun cached buf _ _ hcount hoff =>
    ⟨writeRight_iff ho hf cached buf hcount hoff, writeFails_iff ho hf⟩⟩

theorem lookup_errors_small : GetBlockRight smallDisk 3072 0 := by
  refine ((lookup_errors_iff smallDisk_checked.agrees.toOwned smallDisk_file).1 0).mpr ?_
  rintro (h | ⟨h, -⟩) <;> exact absurd h (by decide)

def staleDisk : Mem := fun w =>
  if w = 1025 then 5
  else if w = 1058 then 4096
  else if w = 1059 then ftypeDir
  else if w = 1060 then 3
  else if w = 3072 then 97
  else if w = 3104 then 40961
  else if w = 3115 then 4
  else 0

lemma staleDisk_checked : Checked staleDisk := by decide +kernel

lemma staleDisk_file : IsFile staleDisk 3072 := FirstNamed.isFile (by decide)

lemma moveBlocks_stale {σ : Type} {move : Nat → Nat → σ → Mem → Res (σ × Mem)} {f p c : Nat} {acc acc1 acc2 : σ}
    {m m1 m2 : Mem} (hp : p % 4096 = 0) (hmax : p + 4097 < 2147483648)
    (hget : fileGetBlock f (p / 4096) m = .ok (0, some (1024 * c), m)) (hmove : move (4096 * c) 4096 acc m = .ok (acc1, m1))
    (hget1 : fileGetBlock f (p / 4096 + 1) m1 = .ok (1, none, m1)) (hmove1 : move (4096 * c) 1 acc1 m1 = .ok (acc2, m2)) :
    moveBlocks move f (p + 4097) (4095 + 1 + 1) p none acc m = .ok (none, acc2, m2) := by
  have haddr : 4 * (1024 * c) + 0 = 4096 * c := by omega
  have hnext : (p + 4096) / 4096 = p / 4096 + 1 ∧ (p + 4096) % 4096 = 0 := by omega
  have hend : p + 4097 ≤ toU32 (p + 4096 + 1 : Nat) := by
    have := toU32_of_range (i := ((p + 4096 + 1 : Nat) : Int)) (by omega) (by omega)
    omega
  rw [moveBlocks_at move f _ _ _ _ (by omega) (by omega), toI32_next (by omega), hget, ok_bind]
  dsimp only [Option.or]
  rw [if_neg (by decide), hp, haddr, show min (4096 - 0) (p + 4097 - p) = 4096 by omega, hmove, ok_bind]
  dsimp only
  rw [moveBlocks_at move f _ _ _ _ (by omega) (by omega), toI32_next (by omega), hnext.1, hget1, ok_bind]
  dsimp only [Option.or]
  rw [if_neg (by decide), hnext.2, haddr, show min (4096 - 0) (p + 4097 - (p + 4096)) = 1 by omega, hmove1, ok_bind]
  exact moveBlocks_end move f _ _ _ _ hend

/-- The byte for block 10, which the full disk cannot have, lands at the start of block 9, and the call returns the
count. -/
theorem write_lands_in_stale_block : Agrees staleDisk ∧ IsFile staleDisk 3072 ∧
    fileGetBlock 3072 10 staleDisk = .ok (1, none, staleDisk) ∧
    ∀ cached (buf : Nat → Nat), ∃ m', fileWrite cached (fun _ => buf) 3072 4097 (36864 : Nat) staleDisk = .ok (4097, m') ∧
      Lacks m' 3072 36864 (36864 + 4097) ∧ byteAt m' 3072 36864 = buf 4096 % 256 := by
  have ho := staleDisk_checked.agrees.toOwned
  have hf := staleDisk_file
  have hreg : staleDisk (fType 3072) ≠ ftypeDir := by decide
  have hnone : ∀ m', SameBlocks 3072 staleDisk m' → fileGetBlock 3072 10 m' = .ok (1, none, m') := fun m' h =>
    fileGetBlock_noWalk h.owned h.isFile (.inr ⟨by decide, h.indirect,
      (allocBlock_none_iff h.owned).mpr (h.free.trans (by decide))⟩)
  refine ⟨staleDisk_checked.agrees, hf, hnone _ (.refl ho hf), fun cached buf => ?_⟩
  have href : Refers staleDisk (.block 3072 9) 4 := ⟨hf, by decide, by decide, by decide⟩
  have hmove : ∀ m' n done, SameButData 3072 staleDisk m' → 0 < n → n ≤ 4096 →
      writeMove cached (fun _ => buf) (4096 * 4) n done m' =
        .ok (done + n, putBytes m' (4096 * 4 + 0) ((List.range n).map fun i => buf (done + i))) ∧
      SameButData 3072 staleDisk (putBytes m' (4096 * 4 + 0) ((List.range n).map fun i => buf (done + i))) := by
    intro m' n done hsame hn hle
    obtain ⟨hused, hlt⟩ := hsame.used ho href
    exact ⟨writeMove_used hused hlt le_rfl (by omega) hn _ done, hsame.putBytes href (by simpa using hle)⟩
  obtain ⟨hmove1, hsame1⟩ := hmove staleDisk 4096 0 (fun _ _ => rfl) (by omega) (by omega)
  obtain ⟨hmove2, hsame2⟩ := hmove _ 1 (0 + 4096) hsame1 (by omega) (by omega)
  generalize putBytes staleDisk (4096 * 4 + 0) ((List.range 4096).map fun i => buf (0 + i)) = m1 at hmove1 hsame1 hmove2 hsame2
  have hget : fileGetBlock 3072 (36864 / 4096) staleDisk = .ok (0, some (1024 * 4), staleDisk) :=
    fileGetBlock_present (by decide) (by decide) (by decide) (by decide) fun h => absurd h (by decide)
  have hloop := moveBlocks_stale (by omega) (by omega) hget hmove1
    (hnone m1 (hsame1.sameBlocks ho hf hreg)) hmove2
  have hsize : size staleDisk 3072 = 40961 := rfl
  refine ⟨putBytes m1 (4096 * 4 + 0) ((List.range 1).map fun i => buf (0 + 4096 + i)), ?_,
    ⟨40960, by omega, by omega, .inr ?_⟩, ?_⟩
  · unfold fileWrite
    rw [fileWriteBy_extended ho hf _ _ (by omega) (by omega), extended, if_neg (by omega), hloop]
    rfl
  · rw [hsame2.blockAt_eq ho hf _ (by decide)]
    exact blockAt_none (by decide) rfl
  · have hblock := hsame2.blockAt_eq ho hf (36864 / 4096) (by decide)
    rw [show blockAt staleDisk 3072 (36864 / 4096) = 4 by decide] at hblock
    rw [byteAt_present (by rw [hblock]; decide), hblock, getByte_putBytes, if_pos (by simp)]
    simp

end Jos.Fs
