import Jos.Base.CInt
import Jos.Base.RingBuffer

/-!
# Pipes

`lib/pipe.c`: the loops of `devpipe_read` and `devpipe_write`, one access to the
shared `struct Pipe` at a time. The operands of a comparison may be loaded in either
order, and what `_pipeisclosed` finds is left open.
-/

namespace Jos
open CInt RingBuffer Relation

variable {i n r w : Nat}

def pipebufsiz : Nat := 32

structure Pipe where
  rpos : Int
  wpos : Int
  buf : Nat → Nat

/-- Where `devpipe_read(fd, buf, n)` is: `i` bytes have been read, and `r` and `w` are what it has loaded from
`p_rpos` and `p_wpos`. -/
inductive Reader where
  | idle (ret : Int)
  | loop (n i : Nat)
  | seenR (n i : Nat) (r : Int)
  | seenW (n i : Nat) (w : Int)
  | compare (n i : Nat) (r w : Int)
  /-- There is a byte: `p_rpos` is loaded for the index. -/
  | index (n i : Nat)
  | fetch (n i : Nat) (r : Int)
  /-- The byte is in the caller's buffer: `p_rpos` is loaded to be incremented. -/
  | load (n i : Nat)
  | bump (n i : Nat) (r : Int)

/-- Where `devpipe_write` of the bytes `data` is. -/
inductive Writer where
  | idle (ret : Int)
  | loop (data : List Nat) (i : Nat)
  | seenW (data : List Nat) (i : Nat) (w : Int)
  | seenR (data : List Nat) (i : Nat) (r : Int)
  | compare (data : List Nat) (i : Nat) (w r : Int)
  | index (data : List Nat) (i : Nat)
  | store (data : List Nat) (i : Nat) (w : Int)
  | load (data : List Nat) (i : Nat)
  | bump (data : List Nat) (i : Nat) (w : Int)

/-- The steps of `devpipe_read` that change neither the pipe nor the caller's buffer. -/
inductive ReadStep (p : Pipe) : Reader → Reader → Prop where
  | call (ret : Int) (n : Nat) : ReadStep p (.idle ret) (.loop n 0)
  | done {n i : Nat} (h : n ≤ i) : ReadStep p (.loop n i) (.idle (toI32 i))
  | rposFirst {n i : Nat} (h : i < n) : ReadStep p (.loop n i) (.seenR n i p.rpos)
  | wposSecond (n i : Nat) (r : Int) : ReadStep p (.seenR n i r) (.compare n i r p.wpos)
  | wposFirst {n i : Nat} (h : i < n) : ReadStep p (.loop n i) (.seenW n i p.wpos)
  | rposSecond (n i : Nat) (w : Int) : ReadStep p (.seenW n i w) (.compare n i p.rpos w)
  | partly {n i : Nat} {r w : Int} (h : r = w) (hi : 0 < i) : ReadStep p (.compare n i r w) (.idle (toI32 i))
  | closed {n : Nat} {r w : Int} (h : r = w) : ReadStep p (.compare n 0 r w) (.idle 0)
  | again {n : Nat} {r w : Int} (h : r = w) : ReadStep p (.compare n 0 r w) (.loop n 0)
  | ready {n i : Nat} {r w : Int} (h : r ≠ w) : ReadStep p (.compare n i r w) (.index n i)
  | indexed (n i : Nat) : ReadStep p (.index n i) (.fetch n i p.rpos)
  | loaded (n i : Nat) : ReadStep p (.load n i) (.bump n i p.rpos)

/-- The steps of `devpipe_write` that do not change the pipe. `p_rpos + sizeof(p_buf)` is unsigned, and with it the
comparison. -/
inductive WriteStep (p : Pipe) : Writer → Writer → Prop where
  | call (ret : Int) (data : List Nat) : WriteStep p (.idle ret) (.loop data 0)
  | done {data : List Nat} {i : Nat} (h : data.length ≤ i) : WriteStep p (.loop data i) (.idle (toI32 i))
  | wposFirst {data : List Nat} {i : Nat} (h : i < data.length) : WriteStep p (.loop data i) (.seenW data i p.wpos)
  | rposSecond (data : List Nat) (i : Nat) (w : Int) : WriteStep p (.seenW data i w) (.compare data i w p.rpos)
  | rposFirst {data : List Nat} {i : Nat} (h : i < data.length) : WriteStep p (.loop data i) (.seenR data i p.rpos)
  | wposSecond (data : List Nat) (i : Nat) (r : Int) : WriteStep p (.seenR data i r) (.compare data i p.wpos r)
  | closed {data : List Nat} {i : Nat} {w r : Int} (h : toU32 (r + pipebufsiz) ≤ toU32 w) :
      WriteStep p (.compare data i w r) (.idle 0)
  | again {data : List Nat} {i : Nat} {w r : Int} (h : toU32 (r + pipebufsiz) ≤ toU32 w) :
      WriteStep p (.compare data i w r) (.loop data i)
  | ready {data : List Nat} {i : Nat} {w r : Int} (h : toU32 w < toU32 (r + pipebufsiz)) :
      WriteStep p (.compare data i w r) (.index data i)
  | indexed (data : List Nat) (i : Nat) : WriteStep p (.index data i) (.store data i p.wpos)
  | loaded (data : List Nat) (i : Nat) : WriteStep p (.load data i) (.bump data i p.wpos)

/-- The pipe, the two environments, and the bytes that the reads have delivered and the writes have stored. -/
structure Piped where
  pipe : Pipe
  reader : Reader
  writer : Writer
  delivered : List Nat
  stored : List Nat

def pipeCell (pos : Int) : Nat := (pos.tmod pipebufsiz).toNat

inductive PipeStep (s : Piped) : Piped → Prop where
  | read {rd : Reader} (h : ReadStep s.pipe s.reader rd) : PipeStep s { s with reader := rd }
  | take {n i : Nat} {r : Int} (h : s.reader = .fetch n i r) :
      PipeStep s { s with reader := .load n i, delivered := s.delivered ++ [s.pipe.buf (pipeCell r)] }
  | taken {n i : Nat} {r : Int} (h : s.reader = .bump n i r) :
      PipeStep s { s with reader := .loop n (i + 1), pipe := { s.pipe with rpos := toI32 (r + 1) } }
  | write {wr : Writer} (h : WriteStep s.pipe s.writer wr) : PipeStep s { s with writer := wr }
  | put {data : List Nat} {i : Nat} {w : Int} (h : s.writer = .store data i w) :
      PipeStep s
        { s with
          writer := .load data i
          pipe := { s.pipe with buf := Function.update s.pipe.buf (pipeCell w) (data[i]?.getD 0) }
          stored := s.stored ++ [data[i]?.getD 0] }
  | stored {data : List Nat} {i : Nat} {w : Int} (h : s.writer = .bump data i w) :
      PipeStep s { s with writer := .loop data (i + 1), pipe := { s.pipe with wpos := toI32 (w + 1) } }

def newPipe : Piped := ⟨⟨0, 0, fun _ => 0⟩, .idle 0, .idle 0, [], []⟩

/-! ## The invariant

`r` and `w` are the positions. A byte that has been taken or put is ahead of its position until that is incremented. -/

def Reader.ahead : Reader → Nat
  | .load _ _ => 1
  | .bump _ _ _ => 1
  | _ => 0

def Writer.ahead : Writer → Nat
  | .load _ _ => 1
  | .bump _ _ _ => 1
  | _ => 0

def Reader.Knows (r w : Nat) : Reader → Prop
  | .idle _ => True
  | .loop _ _ => True
  | .seenR _ _ r' => r' = r
  | .seenW _ _ w' => r ≤ w' ∧ w' ≤ w
  | .compare _ _ r' w' => r' = r ∧ r ≤ w' ∧ w' ≤ w
  | .index _ _ => r < w
  | .fetch _ _ r' => r' = r ∧ r < w
  | .load _ _ => r < w
  | .bump _ _ r' => r' = r ∧ r < w

def Writer.Knows (r w : Nat) : Writer → Prop
  | .idle _ => True
  | .loop _ _ => True
  | .seenW _ _ w' => w' = w
  | .seenR _ _ r' => 0 ≤ r' ∧ r' ≤ r
  | .compare _ _ w' r' => w' = w ∧ 0 ≤ r' ∧ r' ≤ r
  | .index _ _ => w < r + pipebufsiz
  | .store _ _ w' => w' = w ∧ w < r + pipebufsiz
  | .load _ _ => w < r + pipebufsiz
  | .bump _ _ w' => w' = w ∧ w < r + pipebufsiz

structure Fifo (s : Piped) (r w : Nat) : Prop where
  rpos : s.pipe.rpos = r
  wpos : s.pipe.wpos = w
  order : r ≤ w
  room : w ≤ r + pipebufsiz
  holds : Holds s.pipe.buf pipebufsiz r s.stored.length s.stored
  stored : s.stored.length = w + s.writer.ahead
  delivered : s.delivered = s.stored.take (r + s.reader.ahead)
  reader : s.reader.Knows r w
  writer : s.writer.Knows r w

lemma newPipe_fifo : Fifo newPipe 0 0 :=
  ⟨rfl, rfl, Nat.le_refl 0, Nat.zero_le _, .nothing _ _ _ _, rfl, rfl, trivial, trivial⟩

lemma pipeCell_nat (k : Nat) : pipeCell k = k % pipebufsiz := by
  unfold pipeCell
  rw [← Int.ofNat_tmod, Int.toNat_natCast]

lemma Reader.Knows.later {rd : Reader} (h : rd.Knows r w) : rd.Knows r (w + 1) := by
  cases rd <;> unfold Reader.Knows at * <;> grind

lemma Writer.Knows.later {wr : Writer} (h : wr.Knows r w) : wr.Knows (r + 1) w := by
  cases wr <;> unfold Writer.Knows at * <;> grind

section
variable {s : Piped} {r w : Nat} (hf : Fifo s r w)
include hf

lemma Fifo.read {rd : Reader} (h : ReadStep s.pipe s.reader rd) : Fifo { s with reader := rd } r w := by
  have hknows := hf.reader
  have hahead : rd.ahead = s.reader.ahead ∧ rd.Knows r w := by
    generalize s.reader = rd0 at h hknows
    have hr := hf.rpos
    have hw := hf.wpos
    have hle := hf.order
    cases h <;> refine ⟨rfl, ?_⟩ <;> simp only [Reader.Knows] at hknows ⊢ <;> omega
  refine { hf with delivered := ?_, reader := hahead.2 }
  dsimp only
  rw [hahead.1]
  exact hf.delivered

lemma Fifo.take {r' : Int} (h : s.reader = .fetch n i r') :
    Fifo { s with reader := .load n i, delivered := s.delivered ++ [s.pipe.buf (pipeCell r')] } r w := by
  have hknows := hf.reader
  rw [h] at hknows
  obtain ⟨rfl, hlt⟩ := hknows
  have hbyte : s.stored[r]? = some (s.pipe.buf (pipeCell r)) := by
    rw [pipeCell_nat]
    refine hf.holds r (Nat.le_refl r) ?_
    have hlen := hf.stored
    omega
  have hdel := hf.delivered
  rw [h] at hdel
  refine { hf with delivered := ?_, reader := hlt }
  calc s.delivered ++ [s.pipe.buf (pipeCell r)] = s.stored.take r ++ s.stored[r]?.toList := by
        rw [hdel, hbyte]
        rfl
    _ = s.stored.take (r + 1) := List.take_add_one.symm

lemma Fifo.taken {r' v : Int} (h : s.reader = .bump n i r') (hv : v = r' + 1) :
    Fifo { s with reader := .loop n (i + 1), pipe := { s.pipe with rpos := v } } (r + 1) w := by
  have hknows := hf.reader
  rw [h] at hknows
  obtain ⟨rfl, hlt⟩ := hknows
  have hdel := hf.delivered
  rw [h] at hdel
  have hroom := hf.room
  exact ⟨hv, hf.wpos, hlt, by omega, hf.holds.dropFirst, hf.stored, hdel, trivial, hf.writer.later⟩

lemma Fifo.write {wr : Writer} (h : WriteStep s.pipe s.writer wr) (hsmall : w < 2147483648) :
    Fifo { s with writer := wr } r w := by
  have hknows := hf.writer
  have hahead : wr.ahead = s.writer.ahead ∧ wr.Knows r w := by
    generalize s.writer = wr0 at h hknows
    have hr := hf.rpos
    have hw := hf.wpos
    have hle := hf.order
    cases h with
    | @ready data i w' r' h =>
      -- what was loaded from `p_rpos` is not larger than it is now
      obtain ⟨rfl, h0, h1⟩ := hknows
      have hw' := toU32_of_range (i := (w : Int)) (by omega) (by omega)
      have hr' := toU32_of_range (i := r' + (pipebufsiz : Int)) (by omega) (by unfold pipebufsiz; omega)
      refine ⟨rfl, ?_⟩
      simp only [Writer.Knows]
      omega
    | _ => exact ⟨rfl, by simp only [Writer.Knows] at hknows ⊢ <;> omega⟩
  refine { hf with stored := ?_, writer := hahead.2 }
  dsimp only
  rw [hahead.1]
  exact hf.stored

lemma Fifo.put {data : List Nat} {w' : Int} (h : s.writer = .store data i w') (b : Nat) : Fifo { s with
      writer := .load data i
      pipe := { s.pipe with buf := Function.update s.pipe.buf (pipeCell w') b }
      stored := s.stored ++ [b] } r w := by
  have hknows := hf.writer
  rw [h] at hknows
  obtain ⟨rfl, hlt⟩ := hknows
  have hlen : s.stored.length = w := by
    rw [hf.stored, h]
    rfl
  have hholds := hf.holds.store (hlen ▸ hlt) b
  refine ⟨hf.rpos, hf.wpos, hf.order, hf.room, ?_, ?_, ?_, hf.reader, hlt⟩
  · dsimp only
    rw [pipeCell_nat, List.length_append, ← hlen]
    exact hholds
  · exact List.length_append.trans (congrArg (· + 1) hlen)
  · have hle : r + s.reader.ahead ≤ s.stored.length := by
      have hknows := hf.reader
      have horder := hf.order
      generalize s.reader = rd at hknows ⊢
      cases rd <;> simp only [Reader.Knows, Reader.ahead] at hknows ⊢ <;> omega
    exact hf.delivered.trans (List.take_append_of_le_length hle).symm

lemma Fifo.advance {data : List Nat} {w' v : Int} (h : s.writer = .bump data i w') (hv : v = w' + 1) :
    Fifo { s with writer := .loop data (i + 1), pipe := { s.pipe with wpos := v } } r (w + 1) := by
  have hknows := hf.writer
  rw [h] at hknows
  obtain ⟨rfl, hlt⟩ := hknows
  have hlen : s.stored.length = w + 1 := by
    rw [hf.stored, h]
    rfl
  exact ⟨hf.rpos, hv, Nat.le_succ_of_le hf.order, hlt, hf.holds, hlen, hf.delivered, hf.reader.later, trivial⟩

lemma Fifo.step {s' : Piped} (h : PipeStep s s') (hsmall : s'.stored.length < 2147483648) : ∃ r' w', Fifo s' r' w' := by
  have horder := hf.order
  have hlen := hf.stored
  cases h with
  | read h => exact ⟨r, w, hf.read h⟩
  | take h => exact ⟨r, w, hf.take h⟩
  | taken h =>
    refine ⟨r + 1, w, hf.taken h (toI32_of_range ?_ ?_)⟩ <;>
    · have hknows := hf.reader
      rw [h] at hknows
      have hr := hknows.1
      have hlt := hknows.2
      dsimp only at hsmall
      omega
  | write h =>
    dsimp only at hsmall
    exact ⟨r, w, hf.write h (by omega)⟩
  | put h => exact ⟨r, w, hf.put h _⟩
  | stored h =>
    refine ⟨r, w + 1, hf.advance h (toI32_of_range ?_ ?_)⟩ <;>
    · have hknows := hf.writer
      rw [h] at hknows hlen
      have hw := hknows.1
      simp only [Writer.ahead] at hlen
      dsimp only at hsmall
      omega

end

lemma PipeStep.stored_le {s s' : Piped} (h : PipeStep s s') : s.stored.length ≤ s'.stored.length := by
  cases h with
  | put h =>
    dsimp only
    rw [List.length_append]
    exact Nat.le_add_right _ _
  | _ => exact le_rfl

lemma fifo_of_run {s : Piped} (hrun : ReflTransGen PipeStep newPipe s) (hsmall : s.stored.length < 2147483648) :
    ∃ r w, Fifo s r w := by
  induction hrun with
  | refl => exact ⟨0, 0, newPipe_fifo⟩
  | tail _ hstep ih =>
    obtain ⟨r, w, hf⟩ := ih (lt_of_le_of_lt hstep.stored_le hsmall)
    exact hf.step hstep hsmall

/-- However the accesses of a reading and a writing environment are interleaved, up to 2^31 bytes: at most
`PIPEBUFSIZ` bytes are in the pipe, and what the reads deliver is what the writes have stored, in order. -/
theorem pipe_fifo {s : Piped} (hrun : ReflTransGen PipeStep newPipe s) (hsmall : s.stored.length < 2147483648) :
    (0 ≤ s.pipe.wpos - s.pipe.rpos ∧ s.pipe.wpos - s.pipe.rpos ≤ pipebufsiz) ∧ s.delivered <+: s.stored := by
  obtain ⟨r, w, hf⟩ := fifo_of_run hrun hsmall
  have horder := hf.order
  have hroom := hf.room
  refine ⟨?_, ?_⟩
  · rw [hf.rpos, hf.wpos]
    omega
  · rw [hf.delivered]
    exact List.take_prefix _ _

theorem pipe_fifo_byte : ∃ s, ReflTransGen PipeStep newPipe s ∧ s.delivered = [7] ∧ s.delivered <+: s.stored := by
  have hcall := (ReflTransGen.refl (r := PipeStep) (a := newPipe)).tail (.write (.call 0 [7]))
  have hchecked := ((hcall.tail (.write (.wposFirst (by decide)))).tail (.write (.rposSecond _ _ _))).tail
    (.write (.ready (by decide)))
  have hstored := (((hchecked.tail (.write (.indexed _ _))).tail (.put rfl)).tail (.write (.loaded _ _))).tail (.stored rfl)
  have hread := (((hstored.tail (.read (.call 0 1))).tail (.read (.rposFirst (by decide)))).tail
    (.read (.wposSecond _ _ _))).tail (.read (.ready (by decide)))
  have htaken := (hread.tail (.read (.indexed _ _))).tail (.take rfl)
  exact ⟨_, htaken, rfl, (pipe_fifo htaken (by decide)).2⟩

/-! ## The positions -/

/-- The index of `p_buf` that a position gives. -/
def pipeIndex (pos : Int) : Int := pos.tmod pipebufsiz

def IndexRight (pos : Int) : Prop := 0 ≤ pipeIndex pos ∧ pipeIndex pos < pipebufsiz

/-- Both indices are in the buffer, and with `unread` bytes in the pipe the tests of `devpipe_write` and `devpipe_read`
find it full and empty when it is. -/
structure PositionsRight (p : Pipe) (unread : Nat) : Prop where
  read : IndexRight p.rpos
  write : IndexRight p.wpos
  full : toU32 (p.rpos + pipebufsiz) ≤ toU32 p.wpos ↔ unread = pipebufsiz
  empty : p.rpos = p.wpos ↔ unread = 0

def Piped.unread (s : Piped) : Nat := s.stored.length - s.writer.ahead - (s.delivered.length - s.reader.ahead)

lemma indexRight_iff (k : Nat) : IndexRight (toI32 k) ↔ k % 4294967296 < 2147483648 ∨ k % 32 = 0 := by
  unfold IndexRight pipeIndex pipebufsiz
  rw [toI32_eq]
  split
  · rename_i hlt
    have hmod : ((k : Int) % 4294967296).tmod (32 : Nat) = (k : Int) % 4294967296 % 32 :=
      Int.tmod_eq_emod_of_nonneg (by omega)
    rw [hmod]
    omega
  · rename_i hge
    have hmod : ((k : Int) % 4294967296 - 4294967296).tmod (32 : Nat) = -((4294967296 - (k : Int) % 4294967296) % 32) := by
      have hneg := Int.neg_tmod (4294967296 - (k : Int) % 4294967296) (32 : Nat)
      have hpos : (4294967296 - (k : Int) % 4294967296).tmod (32 : Nat) = (4294967296 - (k : Int) % 4294967296) % 32 :=
        Int.tmod_eq_emod_of_nonneg (by omega)
      rwa [Int.neg_sub, hpos] at hneg
    rw [hmod]
    omega

def CountsRight (r w : Nat) : Prop :=
  (r % 4294967296 < 2147483648 ∨ r % 32 = 0) ∧ (w % 4294967296 < 2147483648 ∨ w % 32 = 0) ∧
    ¬ (4294967296 ≤ r % 4294967296 + 32 ∧ r % 4294967296 + (w - r) < 4294967296)

lemma positionsRight_iff {p : Pipe} (hr : p.rpos = toI32 r) (hw : p.wpos = toI32 w) (hle : r ≤ w)
    (hroom : w ≤ r + pipebufsiz) : PositionsRight p (w - r) ↔ CountsRight r w := by
  have hempty : toI32 r = toI32 w ↔ w - r = 0 := by
    have hr := toI32_mod r
    have hw := toI32_mod w
    unfold pipebufsiz at hroom
    constructor
    · intro heq
      rw [heq, hw] at hr
      omega
    · intro h0
      rw [show r = w by omega]
  have hwide : (toU32 (toI32 r + pipebufsiz) : Int) = ((r : Int) + 32) % 4294967296 := by
    rw [toU32_cast, show ((pipebufsiz : Nat) : Int) = 32 from rfl, Int.add_emod, toI32_mod, ← Int.add_emod]
  have hpos : (toU32 (toI32 w) : Int) = (w : Int) % 4294967296 := by
    rw [toU32_toI32, toU32_cast]
  have hfull : (toU32 (toI32 r + pipebufsiz) ≤ toU32 (toI32 w) ↔ w - r = pipebufsiz) ↔
      ¬ (4294967296 ≤ r % 4294967296 + 32 ∧ r % 4294967296 + (w - r) < 4294967296) := by
    unfold pipebufsiz at *
    omega
  constructor
  · rintro ⟨hread, hwrite, hf, -⟩
    rw [hr] at hread hf
    rw [hw] at hwrite hf
    exact ⟨(indexRight_iff r).mp hread, (indexRight_iff w).mp hwrite, hfull.mp hf⟩
  · rintro ⟨hread, hwrite, hf⟩
    refine ⟨?_, ?_, ?_, ?_⟩
    · rw [hr]
      exact (indexRight_iff r).mpr hread
    · rw [hw]
      exact (indexRight_iff w).mpr hwrite
    · rw [hr, hw]
      exact hfull.mpr hf
    · rw [hr, hw]
      exact hempty

/-- In every run that stores fewer than 2^31 bytes the positions are right at any time; and with any number of bytes read
and written they are right exactly at the counts `CountsRight` allows. -/
theorem pipe_positions_right (s : Piped) (p : Pipe) (r w : Nat) :
    (ReflTransGen PipeStep newPipe s → s.stored.length < 2147483648 → PositionsRight s.pipe s.unread) ∧
      (p.rpos = toI32 r → p.wpos = toI32 w → r ≤ w → w ≤ r + pipebufsiz → (PositionsRight p (w - r) ↔ CountsRight r w)) := by
  refine ⟨fun hrun hsmall => ?_, positionsRight_iff⟩
  obtain ⟨r, w, hf⟩ := fifo_of_run hrun hsmall
  have horder := hf.order
  have hstored := hf.stored
  have hdelivered : s.delivered.length = r + s.reader.ahead := by
    rw [hf.delivered, List.length_take]
    have hread := hf.reader
    cases hrd : s.reader <;> rw [hrd] at hread <;> simp only [Reader.ahead, Reader.Knows] at * <;> omega
  have hunread : s.unread = w - r := by
    unfold Piped.unread
    omega
  have hr : s.pipe.rpos = toI32 r := by rw [hf.rpos, toI32_of_range (by omega) (by omega)]
  have hw : s.pipe.wpos = toI32 w := by rw [hf.wpos, toI32_of_range (by omega) (by omega)]
  rw [hunread]
  exact (positionsRight_iff hr hw horder hf.room).mpr ⟨.inl (by omega), .inl (by omega), by omega⟩

lemma transfer_byte {p : Int} (hroom : toU32 p < toU32 (p + pipebufsiz)) (hne : p ≠ toI32 (p + 1)) (buf : Nat → Nat)
    (ret ret' : Int) (delivered stored : List Nat) : ∃ buf',
      ReflTransGen PipeStep ⟨⟨p, p, buf⟩, .idle ret, .idle ret', delivered, stored⟩
        ⟨⟨toI32 (p + 1), toI32 (p + 1), buf'⟩, .idle (toI32 1), .idle (toI32 1), delivered ++ [buf' (pipeCell p)], stored ++ [0]⟩ := by
  have hcall := ReflTransGen.single (@PipeStep.write ⟨⟨p, p, buf⟩, .idle ret, .idle ret', delivered, stored⟩ _ (.call ret' [0]))
  have hchecked := ((hcall.tail (.write (.wposFirst (by decide)))).tail (.write (.rposSecond _ _ _))).tail
    (.write (.ready hroom))
  have hput := ((hchecked.tail (.write (.indexed _ _))).tail (.put rfl)).tail (.write (.loaded _ _))
  have hwritten := (hput.tail (.stored rfl)).tail (.write (.done (by decide)))
  have hseen := ((hwritten.tail (.read (.call ret 1))).tail (.read (.rposFirst (by decide)))).tail (.read (.wposSecond _ _ _))
  have htaken := (((hseen.tail (.read (.ready hne))).tail (.read (.indexed _ _))).tail (.take rfl)).tail (.read (.loaded _ _))
  exact ⟨_, (htaken.tail (.taken rfl)).tail (.read (.done (by decide)))⟩

lemma transfer_run (hn : n ≤ 2147483649) : ∃ buf ret ret' delivered stored, delivered.length = n ∧ stored.length = n ∧
    ReflTransGen PipeStep newPipe ⟨⟨toI32 n, toI32 n, buf⟩, .idle ret, .idle ret', delivered, stored⟩ := by
  induction n with
  | zero => exact ⟨fun _ => 0, 0, 0, [], [], rfl, rfl, .refl⟩
  | succ n ih =>
    obtain ⟨buf, ret, ret', delivered, stored, hdelivered, hstored, hrun⟩ := ih (Nat.le_of_succ_le hn)
    have hmod := toI32_mod n
    have hroom : toU32 (toI32 n) < toU32 (toI32 n + pipebufsiz) := by
      have h1 := toU32_cast (toI32 n)
      have h2 := toU32_cast (toI32 n + pipebufsiz)
      rw [show ((pipebufsiz : Nat) : Int) = 32 from rfl] at *
      omega
    have hne : toI32 n ≠ toI32 (toI32 n + 1) := by
      intro heq
      have hnext := toI32_mod (toI32 n + 1)
      rw [← heq] at hnext
      omega
    obtain ⟨buf', hbyte⟩ := transfer_byte hroom hne buf ret ret' delivered stored
    rw [toI32_add] at hbyte
    refine ⟨buf', _, _, _, _, ?_, ?_, hrun.trans hbyte⟩
    · rw [List.length_append, hdelivered]
      rfl
    · rw [List.length_append, hstored]
      rfl

/-- After 2^31 + 1 bytes the next one would be stored 31 bytes before the buffer. -/
theorem pipe_index_negative : ∃ s, ReflTransGen PipeStep newPipe s ∧ s.stored.length = 2147483649 ∧
    s.delivered.length = 2147483649 ∧ pipeIndex s.pipe.wpos = -31 ∧ ¬ PositionsRight s.pipe s.unread := by
  obtain ⟨buf, ret, ret', delivered, stored, hdelivered, hstored, hrun⟩ := transfer_run (Nat.le_refl 2147483649)
  have hindex : pipeIndex (toI32 (2147483649 : Nat)) = -31 := by decide
  refine ⟨_, hrun, hstored, hdelivered, hindex, fun h => ?_⟩
  have hlow : 0 ≤ pipeIndex (toI32 (2147483649 : Nat)) := h.write.1
  rw [hindex] at hlow
  exact absurd hlow (by decide)

end Jos
