import Jos.Fs.Contents

/-!
# The data of a write request

`serve_write` caps the count of a request with `PGSIZE`, but `req_buf` is 8 bytes shorter
than a page: what follows the request page in the server's memory is block 0 of the disk.
-/

namespace Jos.Fs
open Relation WordMem CInt Function

/-- The `memmove` of `file_write`, and where it has put which byte of the buffer. -/
def copyMove (cached : Nat → Bool) (buf : Mem → Nat → Nat) (a n : Nat) (acc : Nat × List (Nat × Nat)) (m : Mem) :
    Res ((Nat × List (Nat × Nat)) × Mem) :=
  (fun out => ((out.1, acc.2 ++ (List.range n).map fun i => (a + i, acc.1 + i)), out.2)) <$> writeMove cached buf a n acc.1 m

/-- The bytes that `file_write` copies: the address on the disk and the index in the buffer of each, in order. -/
def fileCopies (cached : Nat → Bool) (buf : Mem → Nat → Nat) (f count : Nat) (offset : Int) (m : Mem) :
    Res (List (Nat × Nat)) := do
  let (_, m) ← fileExtend f count offset m
  let (_, acc, _) ← moveBlocks (copyMove cached buf) f (toU32 (offset + count)) count offset none (0, []) m
  return acc.2

def fileAddr (m : Mem) (f p : Nat) : Nat := 4096 * blockAt m f (p / 4096) + p % 4096

/-- The copies of `count` bytes from the start of the buffer to position `off` of the file. -/
def copiesTo (m : Mem) (f off count : Nat) : List (Nat × Nat) := (List.range count).map fun j => (fileAddr m f (off + j), j)

lemma copyMove_erase (cached : Nat → Bool) (buf : Mem → Nat → Nat) (a n : Nat) (acc : Nat × List (Nat × Nat)) (m : Mem)
    (out : (Nat × List (Nat × Nat)) × Mem) (h : copyMove cached buf a n acc m = .ok out) :
    writeMove cached buf a n acc.1 m = .ok (out.1.1, out.2) := by
  unfold copyMove at h
  cases hmove : writeMove cached buf a n acc.1 m with
  | error e =>
    rw [hmove] at h
    cases h
  | ok res =>
    rw [hmove] at h
    cases h
    rfl

section
variable {m : Mem} (ho : Owned m) {f : Nat} (hf : IsFile m f)

structure CopiedTo (f off : Nat) (m0 : Mem) (p : Nat) (acc : Nat × List (Nat × Nat)) (m mr : Mem) : Prop where
  pos : p = off + acc.1
  size : m (fSize f) = m0 (fSize f)
  present : ∀ q, off ≤ q → q < p → q / 4096 < ndirect + nindirect ∧ blockAt m f (q / 4096) ≠ 0
  copies : acc.2 = copiesTo m f off acc.1

lemma copiesTo_congr {m m' : Mem} {f off count : Nat}
    (h : ∀ q, off ≤ q → q < off + count → blockAt m' f (q / 4096) = blockAt m f (q / 4096)) :
    copiesTo m' f off count = copiesTo m f off count := by
  refine List.map_congr_left fun j hj => ?_
  have hj' := List.mem_range.mp hj
  rw [fileAddr, fileAddr, h (off + j) (Nat.le_add_right _ _) (by omega)]

lemma copiesTo_add (m : Mem) (f off done n : Nat) (hfit : (off + done) % 4096 + n ≤ 4096) :
    copiesTo m f off (done + n) = copiesTo m f off done ++
      (List.range n).map fun i => (4096 * blockAt m f ((off + done) / 4096) + (off + done) % 4096 + i, done + i) := by
  unfold copiesTo
  rw [List.range_add, List.map_append, List.map_map]
  refine congrArg _ (List.map_congr_left fun i hi => ?_)
  have hi' := List.mem_range.mp hi
  have hblock : (off + (done + i)) / 4096 = (off + done) / 4096 := by omega
  have hrest : (off + (done + i)) % 4096 = (off + done) % 4096 + i := by omega
  simp only [Function.comp, fileAddr, hblock, hrest, add_assoc]

include ho hf in
lemma moveBlocks_copies (cached : Nat → Bool) (buf : Mem → Nat → Nat) {off stop : Nat} (hstop : stop < 2147483648)
    (hoff : off ≤ stop) (n : Nat) (hn : stop ≤ off + n) (hroom : Enough m f (off / 4096) (blockEnd off stop)) :
    ∃ mr, moveBlocks (copyMove cached buf) f stop n off none (0, []) m =
        .ok (none, (stop - off, copiesTo mr f off (stop - off)), mr) ∧
      size mr f = size m f ∧ ∀ q, off ≤ q → q < stop → blockAt mr f (q / 4096) ≠ 0 := by
  have hinit : CopiedTo f off m off (0, []) m m := ⟨rfl, rfl, fun q _ _ => by omega, rfl⟩
  have hloop := @moveBlocks_fetch _ (copyMove cached buf) f stop (CopiedTo f off m) (by omega)
    (fun p acc m1 mr m2 mr2 ho1 hf1 hp hrun hkept h => ?_) (fun p k acc m1 mr ho1 hf1 hsame hi hb hk hfit hend h => ?_)
    n off (0, []) m m ho hf (fun _ _ => rfl) hoff (by omega) hn hinit
  · rcases hloop with ⟨acc, m', mr, hrun, hcopied, ho', hf', hsame, -⟩ | ⟨q, acc, m', mr', -, -, -, -, -, -, -, hout⟩ |
      ⟨k, q, blk, acc, m', mr', -, -, -, -, -, -, -, -, -, hfails⟩
    · obtain ⟨done, copies⟩ := acc
      obtain rfl : done = stop - off := by
        have := hcopied.pos
        dsimp only at this
        omega
      have hblocks : ∀ q, off ≤ q → q < stop → blockAt mr f (q / 4096) = blockAt m' f (q / 4096) := fun q hlo hhi =>
        hsame.blockAt_eq ho' hf' _ (hcopied.present q hlo hhi).1
      refine ⟨mr, ?_, ?_, fun q hlo hhi => ?_⟩
      · rw [hrun, show copies = copiesTo m' f off (stop - off) from hcopied.copies,
          copiesTo_congr fun q hlo hhi => hblocks q hlo (by omega)]
      · unfold size
        rw [show mr (fSize f) = m' (fSize f) from hsame.field_eq ho' (by decide), hcopied.size]
      · rw [hblocks q hlo hhi]
        exact (hcopied.present q hlo hhi).2
    · exact absurd hout hroom.not_runsOut
    · exact absurd hfails hroom.not_walkFails
  · have hgrown := AttachStep.run hrun ho1
    have hblocks : ∀ q, off ≤ q → q < p → blockAt m2 f (q / 4096) = blockAt m1 f (q / 4096) := fun q hlo hhi =>
      (hgrown.refers (.block f (q / 4096)) _ ⟨hf1, (h.present q hlo hhi).1, rfl, (h.present q hlo hhi).2⟩).2.2.1
    refine ⟨h.pos, (hgrown.field f 32 hf1 (by decide)).trans h.size, fun q hlo hhi => ?_, ?_⟩
    · rw [hblocks q hlo hhi]
      exact h.present q hlo hhi
    · rw [h.copies]
      exact (copiesTo_congr fun q hlo hhi => hblocks q hlo (by have := h.pos; omega)).symm
  · obtain ⟨done, copies⟩ := acc
    have hpos : p = off + done := h.pos
    have href : Refers m1 (.block f (p / 4096)) (blockAt m1 f (p / 4096)) := ⟨hf1, hi, rfl, hb⟩
    have hn : sNblocks mr = sNblocks m1 := hsame.meta ho1 1025 (.inl rfl)
    have hlt : blockAt m1 f (p / 4096) < sNblocks m1 := (ho1.range _ _ href).2
    have hused : blockIsFree mr (blockAt m1 f (p / 4096)) = false := by
      have := Bool.eq_false_iff.mpr (ho1.exclusive.used _ _ href)
      unfold blockIsFree at this ⊢
      rw [hn, hsame.meta ho1 _ (.inr (.inl ⟨_, hlt, rfl⟩))]
      exact this
    have hmove := @writeMove_used cached _ _ _ _ hused (by rw [hn]; exact hlt)
      (Nat.le_add_right _ (p % 4096)) (show 4096 * blockAt m1 f (p / 4096) + p % 4096 + k ≤ _ by omega) hk buf done
    have hlen : p % 4096 + ((List.range k).map fun i => buf mr (done + i)).length ≤ 4096 := by simpa using hfit
    refine ⟨_, m1, _, by unfold copyMove; rw [hmove]; rfl, .refl ho1 hf1, hsame.putBytes href hlen, ?_, h.size, ?_, ?_⟩
    · show p + k = off + (done + k)
      omega
    · intro q hlo hhi
      rcases lt_or_ge q p with hlt' | hge
      · exact h.present q hlo hlt'
      · rw [show q / 4096 = p / 4096 by omega]
        exact ⟨hi, hb⟩
    · show copies ++ _ = copiesTo m1 f off (done + k)
      subst hpos
      rw [copiesTo_add m1 f off done k hfit, show copies = copiesTo m1 f off done from h.copies]

include ho hf in
/-- With room for its blocks `file_write` copies the first `count` bytes of the buffer to the file. -/
theorem fileWrite_copies (cached : Nat → Bool) (buf : Mem → Nat → Nat) {off count : Nat} (hsize : 0 ≤ size m f)
    (hmax : off + count ≤ maxfilesize) (hroom : Enough m f (off / 4096) (blockEnd off (off + count))) :
    ∃ m', fileWrite cached buf f count off m = .ok (count, m') ∧
      fileCopies cached buf f count off m = .ok (copiesTo m' f off count) ∧ size m' f = max (size m f) (off + count : Nat) ∧
      ∀ q, off ≤ q → q < off + count → blockAt m' f (q / 4096) ≠ 0 := by
  have hmax' : off + count < 2147483648 := by
    rw [maxfilesize_eq] at hmax
    omega
  obtain ⟨hblocks, -⟩ := extended_spec ho hf (off + count)
  obtain ⟨m', hrun, hsize', hpresent⟩ := moveBlocks_copies hblocks.owned hblocks.isFile cached buf hmax'
    (Nat.le_add_right off count) count le_rfl (hblocks.enough hroom)
  rw [Nat.add_sub_cancel_left] at hrun
  refine ⟨m', ?_, ?_, ?_, hpresent⟩
  · unfold fileWrite
    rw [fileWriteBy_extended ho hf _ _ hsize hmax', (moveBlocks_simulates (copyMove_erase cached buf) f _ _ _ _ (0, []) _).ok _ hrun]
    rfl
  · have hstop : toU32 ((off : Int) + count) = off + count := by
      have := toU32_of_range (i := (off : Int) + count) (by omega) (by omega)
      omega
    unfold fileCopies
    rw [fileExtend_extended ho hf hsize hmax', ok_bind, hstop]
    dsimp only
    rw [hrun]
    rfl
  · rw [hsize', extended_size m f hmax']

include ho hf in
lemma fileWrite_result (cached : Nat → Bool) (buf : Mem → Nat → Nat) (count : Nat) (off : Int) {r : Int} {m' : Mem}
    (h : fileWrite cached buf f count off m = .ok (r, m')) : r = toI32 count ∨ r < 0 := by
  obtain ⟨m1, -, -, -, heq⟩ := fileWriteBy_eq ho hf count off
  have hneg : Post (fun _ => True) (fun out => True ∧ ∀ x, out.1 = some x → x < 0)
      (moveBlocks (writeMove cached buf) f (toU32 (off + count)) count off none 0 m1) :=
    moveBlocks_rule (I := fun _ _ => True) trivial (fun _ _ _ _ => .trivial _) (fun _ _ _ _ _ => .trivial _) _ _ _ _ trivial
  unfold fileWrite at h
  rw [heq] at h
  cases hrun : moveBlocks (writeMove cached buf) f (toU32 (off + count)) count off none 0 m1 with
  | error e =>
    rw [hrun] at h
    cases h
  | ok out =>
    rw [hrun] at h
    obtain ⟨x, done, m2⟩ := out
    obtain rfl : x.getD (toI32 count) = r := (Prod.mk.inj (Except.ok.inj h)).1
    cases x with
    | none => exact .inl Option.getD_none
    | some x => exact .inr ((hneg.ok _ hrun).2 x rfl)

end

/-! ## serve_write -/

/-- `sizeof(req_buf)` -/
def reqBufSize : Nat := pgsize - 8

/-- The local variable `req_n` of `serve_write`. -/
def reqN (page : Mem) : Nat := if pgsize < page 1 then pgsize else page 1

/-- `serve_write` has copied the first `k` bytes of `req_buf`, and nothing else, to the offset of the open file `i`,
which it has advanced. -/
structure ServedWrite (cached : Nat → Bool) (page : Mem) (i k : Nat) (s s' : Server) : Prop where
  copies : fileCopies cached (reqBuf page) (s.opentab i).oFile (reqN page) (toI32 (s.fdOffset i)) s.disk =
    .ok (copiesTo s'.disk (s.opentab i).oFile (s.fdOffset i) k)
  inside : ∀ c ∈ copiesTo s'.disk (s.opentab i).oFile (s.fdOffset i) k, c.2 < reqBufSize
  present : ∀ q, s.fdOffset i ≤ q → q < s.fdOffset i + k → blockAt s'.disk (s.opentab i).oFile (q / 4096) ≠ 0
  size : size s'.disk (s.opentab i).oFile = max (size s.disk (s.opentab i).oFile) (s.fdOffset i + k : Nat)
  contents : s.disk (fType (s.opentab i).oFile) ≠ ftypeDir →
    FileWritten (s.opentab i).oFile (s.fdOffset i) k (fun j => getByte page (8 + j)) s.disk s'.disk
  offset : s'.fdOffset = update s.fdOffset i (s.fdOffset i + k)
  table : s'.opentab = s.opentab ∧ s'.pageref = s.pageref

lemma serveWrite_eq {s : Server} {page : Mem} {i : Nat} (hlookup : openfileLookup s (page 0) = some i) (cached : Nat → Bool) :
    serveWrite cached page s = (do
      let (r, m) ← fileWrite cached (reqBuf page) (s.opentab i).oFile (reqN page) (toI32 (s.fdOffset i)) s.disk
      let offset := if r < 0 then s.fdOffset i else toU32 (toI32 (s.fdOffset i) + r)
      return (r, { s with disk := m, fdOffset := update s.fdOffset i offset })) := by
  unfold serveWrite
  rw [hlookup]
  rfl

/-- With an open file, a valid offset and room on the disk, `serve_write` serves the request with the bytes of
`req_buf` exactly where the count asked for is not larger than `req_buf`. -/
theorem serveWrite_request_iff {s : Server} {page : Mem} {i : Nat} (ho : Owned s.disk)
    (hlookup : openfileLookup s (page 0) = some i) (hf : IsFile s.disk (s.opentab i).oFile)
    (hsize : 0 ≤ size s.disk (s.opentab i).oFile) (hmax : s.fdOffset i + min (page 1) reqBufSize ≤ maxfilesize)
    (hroom : Enough s.disk (s.opentab i).oFile (s.fdOffset i / 4096)
      (blockEnd (s.fdOffset i) (s.fdOffset i + min (page 1) reqBufSize))) (cached : Nat → Bool) :
    (∃ s', serveWrite cached page s = .ok ((min (page 1) reqBufSize : Nat), s') ∧
      ServedWrite cached page i (min (page 1) reqBufSize) s s') ↔ page 1 ≤ reqBufSize := by
  have hserve := serveWrite_eq hlookup cached
  constructor
  · rintro ⟨s', hrun, -⟩
    by_contra hbig
    have hcount : reqBufSize < reqN page ∧ reqN page ≤ 4096 := by
      unfold reqN reqBufSize pgsize at *
      split <;> omega
    rw [min_eq_right (Nat.le_of_not_le hbig), hserve] at hrun
    cases hwrite : fileWrite cached (reqBuf page) (s.opentab i).oFile (reqN page) (toI32 (s.fdOffset i)) s.disk with
    | error e =>
      rw [hwrite] at hrun
      cases hrun
    | ok out =>
      obtain ⟨r, m'⟩ := out
      rw [hwrite, ok_bind] at hrun
      have hr : r = (reqBufSize : Nat) := (Prod.mk.inj (Except.ok.inj hrun)).1
      have hint : toI32 (reqN page : Int) = reqN page := toI32_of_range (by omega) (by omega)
      rcases fileWrite_result ho hf cached _ _ _ hwrite with heq | hneg
      · rw [hint] at heq
        omega
      · omega
  · intro hle
    rw [min_eq_left hle] at hmax hroom ⊢
    have hn : reqN page = page 1 := by
      unfold reqN
      unfold reqBufSize at hle
      rw [if_neg (by omega)]
    have hlt : s.fdOffset i + page 1 < 2147483648 := by
      rw [maxfilesize_eq] at hmax
      omega
    have hoff : toI32 (s.fdOffset i) = (s.fdOffset i : Int) := toI32_of_range (by omega) (by omega)
    have hnext : (if ((page 1 : Nat) : Int) < 0 then s.fdOffset i else toU32 ((s.fdOffset i : Int) + page 1)) =
        s.fdOffset i + page 1 := by
      have hword := toU32_of_range (i := (s.fdOffset i : Int) + page 1) (by omega) (by omega)
      rw [if_neg (by omega)]
      omega
    obtain ⟨m', hrun, hcopies, hsize', hpresent⟩ := fileWrite_copies ho hf cached (reqBuf page) hsize hmax hroom
    refine ⟨{ s with disk := m', fdOffset := update s.fdOffset i (s.fdOffset i + page 1) }, ?_, ?_, ?_, hpresent,
      hsize', fun hreg => ?_, rfl, rfl, rfl⟩
    · rw [hserve, hn, hoff, hrun, ok_bind]
      dsimp only
      rw [hnext]
      rfl
    · rw [hn, hoff]
      exact hcopies
    · intro c hc
      obtain ⟨j, hj, rfl⟩ := List.mem_map.mp hc
      exact lt_of_lt_of_le (List.mem_range.mp hj) hle
    · obtain ⟨m'', hrun', hwritten⟩ := fileWrite_contents ho hf hreg cached (fun j => getByte page (8 + j)) hsize hmax hroom
      have hbuf : ∀ m j, j < page 1 → reqBuf page m j = getByte page (8 + j) := fun m j hj =>
        if_pos (lt_of_lt_of_le hj hle)
      rw [fileWrite_congr ho hf cached hsize hlt hbuf, hrun'] at hrun
      obtain rfl := (Prod.mk.inj (Except.ok.inj hrun)).2
      exact hwritten

def countReq (n : Nat) : Mem := fun w => if w = 0 then 1024 else if w = 1 then n else 0xFFFFFFFF

lemma smallDisk_enough_block {n : Nat} (h0 : 0 < n) (hn : n ≤ 4096) :
    Enough smallDisk 3072 (0 / 4096) (blockEnd 0 (0 + n)) := by
  have hend : blockEnd 0 (0 + n) = 1 := by
    unfold blockEnd
    rw [if_pos (by omega)]
    omega
  rw [hend]
  unfold Enough
  decide

theorem serveWrite_request_small : ∃ s', serveWrite (fun _ => false) (countReq 5) (smallServer 0) = .ok (5, s') ∧
    ServedWrite (fun _ => false) (countReq 5) 0 5 (smallServer 0) s' :=
  (@serveWrite_request_iff (smallServer 0) (countReq 5) 0 smallDisk_checked.agrees.toOwned rfl smallDisk_file
    (show 0 ≤ size smallDisk 3072 by decide) (Nat.le_of_ble_eq_true rfl) (smallDisk_enough_block (by decide) (by decide))
    fun _ => false).mpr (Nat.le_of_ble_eq_true rfl)

/-- A request for a whole page is served with 8 bytes of the disk after the bytes of `req_buf`. -/
theorem request_of_a_page : Owned (smallServer 0).disk ∧ openfileLookup (smallServer 0) (countReq 4096 0) = some 0 ∧
    IsFile smallDisk 3072 ∧ Enough smallDisk 3072 (0 / 4096) (blockEnd 0 (0 + 4096)) ∧
    (∃ s', serveWrite (fun _ => false) (countReq 4096) (smallServer 0) = .ok (4096, s') ∧ s'.fdOffset 0 = 4096) ∧
    ∃ m', fileCopies (fun _ => false) (reqBuf (countReq 4096)) 3072 (reqN (countReq 4096)) 0 smallDisk =
        .ok (copiesTo m' 3072 0 4096) ∧
      ∀ j, 4088 ≤ j → j < 4096 → (fileAddr m' 3072 j, j) ∈ copiesTo m' 3072 0 4096 ∧
        reqBuf (countReq 4096) smallDisk j = getByte smallDisk (j - 4088) := by
  have hroom := @smallDisk_enough_block 4096 (by decide) (by decide)
  obtain ⟨m', hrun, hcopies, -⟩ := @fileWrite_copies smallDisk smallDisk_checked.agrees.toOwned 3072 smallDisk_file
    (fun _ => false) (reqBuf (countReq 4096)) 0 4096 (by decide) (Nat.le_of_ble_eq_true rfl) hroom
  refine ⟨smallDisk_checked.agrees.toOwned, rfl, smallDisk_file, hroom, ⟨{ smallServer 0 with
    disk := m', fdOffset := update (smallServer 0).fdOffset 0 4096 }, ?_, rfl⟩, m', hcopies, fun j hlo hhi => ⟨?_, ?_⟩⟩
  · have hn : reqN (countReq 4096) = 4096 := by decide
    have hoff : toI32 ((smallServer 0).fdOffset 0) = (0 : Nat) := by decide
    have hnext : (if ((4096 : Nat) : Int) < 0 then (smallServer 0).fdOffset 0 else toU32 ((0 : Nat) + ((4096 : Nat) : Int))) =
        4096 := by decide
    have hrun' : fileWrite (fun _ => false) (reqBuf (countReq 4096)) ((smallServer 0).opentab 0).oFile 4096 (0 : Nat)
        (smallServer 0).disk = .ok ((4096 : Nat), m') := hrun
    rw [@serveWrite_eq (smallServer 0) (countReq 4096) 0 rfl, hn, hoff, hrun', ok_bind]
    dsimp only
    rw [hnext]
    rfl
  · refine List.mem_map.mpr ⟨j, List.mem_range.mpr hhi, ?_⟩
    rw [zero_add]
  · exact if_neg (by unfold pgsize; omega)

end Jos.Fs
