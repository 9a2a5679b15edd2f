import Jos.Base.RingBuffer
import Mathlib.Data.List.Basic

/-!
# Console input

`cons_intr` stores what the keyboard or the serial port delivers and `cons_getc` takes it out
again. Nothing holds `cons_intr` back at a full buffer: the character after the 511th unread one
makes the positions meet, and all of them are gone.
-/

namespace Jos.Console
open RingBuffer Function

def consbufsize : Nat := 512

structure Cons where
  buf : Nat → Nat
  rpos : Nat
  wpos : Nat

/-- `cons` before the first interrupt. -/
def Cons.zero : Cons := ⟨fun _ => 0, 0, 0⟩

/-- `cons.buf[cons.wpos++] = c`, and `wpos` starts over at the end. -/
def Cons.put (c : Nat) (cons : Cons) : Cons :=
  { cons with
    buf := update cons.buf cons.wpos (c % 256)
    wpos := if cons.wpos + 1 = consbufsize then 0 else cons.wpos + 1 }

/-- The list is what `proc` returns before it returns -1. -/
def consIntr : List Nat → Cons → Cons
  | [], cons => cons
  | c :: cs, cons => if c = 0 then consIntr cs cons else consIntr cs (cons.put c)

/-- The lists are what the polled devices deliver: nothing from a serial port that does not exist. -/
def consGetc (serial kbd : List Nat) (cons : Cons) : Nat × Cons :=
  let cons := consIntr kbd (consIntr serial cons)
  if cons.rpos ≠ cons.wpos then
    (cons.buf cons.rpos, { cons with rpos := if cons.rpos + 1 = consbufsize then 0 else cons.rpos + 1 })
  else (0, cons)

/-- A burst of `n` characters, or a call of `cons_getc` that finds characters at the devices. -/
inductive Event where
  | intr (n : Nat)
  | getc (serial kbd : Nat)

/-- The `n` characters that arrive after the first `k`. -/
def arrivals (ch : Nat → Nat) (k n : Nat) : List Nat := (List.range' k n).map ch

/-- What the calls of `cons_getc` return, and the buffer at the end. -/
def run (ch : Nat → Nat) : List Event → Nat → Cons → List Nat × Cons
  | [], _, cons => ([], cons)
  | .intr n :: es, k, cons => run ch es (k + n) (consIntr (arrivals ch k n) cons)
  | .getc serial kbd :: es, k, cons =>
    let r := consGetc (arrivals ch k serial) (arrivals ch (k + serial) kbd) cons
    let rest := run ch es (k + (serial + kbd)) r.2
    (r.1 :: rest.1, rest.2)

/-- Pending characters stay; a new one may be dropped where `CONSBUFSIZE - 1` are pending. -/
inductive Accepts : List Nat → List Nat → List Nat → Prop where
  | done (q : List Nat) : Accepts q [] q
  | keep {q cs q' : List Nat} {c : Nat} (h : Accepts (q ++ [c]) cs q') : Accepts q (c :: cs) q'
  | drop {q cs q' : List Nat} (c : Nat) (hfull : consbufsize - 1 ≤ q.length) (h : Accepts q cs q') :
      Accepts q (c :: cs) q'

/-- The calls return the pending characters in order, and 0 if there is none. -/
inductive Serves (ch : Nat → Nat) : List Event → Nat → List Nat → List Nat → Prop where
  | done (k : Nat) (q : List Nat) : Serves ch [] k q []
  | intr {n k : Nat} {es : List Event} {q q' rs : List Nat} (ha : Accepts q (arrivals ch k n) q')
      (h : Serves ch es (k + n) q' rs) : Serves ch (.intr n :: es) k q rs
  | getc {serial kbd k : Nat} {es : List Event} {q q' rs : List Nat}
      (ha : Accepts q (arrivals ch k (serial + kbd)) q') (h : Serves ch es (k + (serial + kbd)) q'.tail rs) :
      Serves ch (.getc serial kbd :: es) k q (q'.headD 0 :: rs)

/-- No character arrives while `CONSBUFSIZE - 1` of them are unread, with `n` unread at the start. -/
def Fits : Nat → List Event → Prop
  | _, [] => True
  | n, .intr m :: es => n + m < consbufsize ∧ Fits (n + m) es
  | n, .getc serial kbd :: es => n + (serial + kbd) < consbufsize ∧ Fits (n + (serial + kbd) - 1) es

variable {ch : Nat → Nat} {q q' cs : List Nat} {cons : Cons} {es : List Event} {k lo n m : Nat}

lemma consIntr_append (cs ds : List Nat) (cons : Cons) : consIntr (cs ++ ds) cons = consIntr ds (consIntr cs cons) := by
  induction cs generalizing cons with
  | nil => rfl
  | cons c cs ih =>
    rw [List.cons_append, consIntr, consIntr]
    split <;> exact ih _

lemma arrivals_append (ch : Nat → Nat) (k m n : Nat) :
    arrivals ch k m ++ arrivals ch (k + m) n = arrivals ch k (m + n) := by
  rw [arrivals, arrivals, ← List.map_append, List.range'_append_1, arrivals]

lemma length_arrivals : (arrivals ch k n).length = n := by simp [arrivals]

lemma tail_arrivals : (arrivals ch k n).tail = arrivals ch (k + n - (n - 1)) (n - 1) := by
  cases n with
  | zero => rfl
  | succ n => simp [arrivals, List.range'_succ, show k + (n + 1) - n = k + 1 by omega]

lemma run_getc (serial kbd : Nat) : run ch (.getc serial kbd :: es) k cons =
    let r := consGetc [] [] (consIntr (arrivals ch k (serial + kbd)) cons)
    (r.1 :: (run ch es (k + (serial + kbd)) r.2).1, (run ch es (k + (serial + kbd)) r.2).2) := by
  rw [← arrivals_append, consIntr_append]
  rfl

/-! ## Positions -/

lemma wrap_lt (h : k < consbufsize) : (if k + 1 = consbufsize then 0 else k + 1) < consbufsize := by
  split <;> omega

def InBuffer (cons : Cons) : Prop := cons.rpos < consbufsize ∧ cons.wpos < consbufsize

lemma InBuffer.consIntr (h : InBuffer cons) : InBuffer (consIntr cs cons) := by
  induction cs generalizing cons with
  | nil => exact h
  | cons c cs ih =>
    rw [Console.consIntr]
    split
    · exact ih h
    · exact ih ⟨h.1, wrap_lt h.2⟩

lemma InBuffer.run (h : InBuffer cons) (ch : Nat → Nat) (es : List Event) (k : Nat) : InBuffer (run ch es k cons).2 := by
  induction es generalizing k cons with
  | nil => exact h
  | cons e es ih =>
    cases e with
    | intr n => exact ih h.consIntr _
    | getc serial kbd =>
      rw [run_getc]
      refine ih ?_ _
      have hpos : InBuffer (Console.consIntr (arrivals ch k (serial + kbd)) cons) := h.consIntr
      unfold consGetc
      dsimp only [Console.consIntr]
      split
      · exact ⟨wrap_lt hpos.1, hpos.2⟩
      · exact hpos

/-! ## Runs that fit -/

/-- The first `lo` characters are read, and the next `n` are in the buffer. -/
structure Kept (ch : Nat → Nat) (lo n : Nat) (cons : Cons) : Prop where
  room : n < consbufsize
  rpos : cons.rpos = lo % consbufsize
  wpos : cons.wpos = (lo + n) % consbufsize
  cells : Holds cons.buf consbufsize lo (lo + n) (arrivals ch 0 (lo + n))

lemma wrap_succ (k : Nat) :
    (if k % consbufsize + 1 = consbufsize then 0 else k % consbufsize + 1) = (k + 1) % consbufsize := by
  unfold consbufsize
  split <;> omega

lemma kept_zero (ch : Nat → Nat) : Kept ch 0 0 Cons.zero :=
  ⟨by decide, rfl, rfl, .nothing _ _ _ _⟩

section
variable (hch : ∀ i, 0 < ch i ∧ ch i < 256)
include hch

lemma Kept.put (h : Kept ch lo n cons) (hroom : n + 1 < consbufsize) : Kept ch lo (n + 1) (cons.put (ch (lo + n))) where
  room := hroom
  rpos := h.rpos
  wpos := by
    rw [Cons.put, h.wpos]
    exact wrap_succ _
  cells := by
    have hroom := h.room
    have hlen : (arrivals ch 0 (lo + n)).length = lo + n := length_arrivals
    have hcells : Holds cons.buf consbufsize lo (arrivals ch 0 (lo + n)).length (arrivals ch 0 (lo + n)) := by
      rw [hlen]
      exact h.cells
    have hnext := hcells.store (show (arrivals ch 0 (lo + n)).length < lo + consbufsize by omega) (ch (lo + n))
    rw [hlen, ← h.wpos] at hnext
    rw [← Nat.add_assoc, ← arrivals_append, Nat.zero_add, Cons.put, Nat.mod_eq_of_lt (hch _).2]
    exact hnext

lemma Kept.consIntr (h : Kept ch lo n cons) (hroom : n + m < consbufsize) :
    Kept ch lo (n + m) (consIntr (arrivals ch (lo + n) m) cons) := by
  induction m generalizing n cons with
  | zero => exact h
  | succ m ih =>
    have hnext := ih (h.put hch (by omega)) (by omega)
    rw [show n + (m + 1) = n + 1 + m by omega]
    rw [← Nat.add_assoc] at hnext
    change Kept ch lo (n + 1 + m) (if ch (lo + n) = 0 then _ else _)
    rw [if_neg (Nat.ne_of_gt (hch _).1)]
    exact hnext

omit hch in
lemma Kept.getc (h : Kept ch lo n cons) : (consGetc [] [] cons).1 = (arrivals ch lo n).headD 0 ∧
    Kept ch (lo + n - (n - 1)) (n - 1) (consGetc [] [] cons).2 := by
  have hroom := h.room
  unfold consGetc
  dsimp only [Console.consIntr]
  cases n with
  | zero =>
    rw [if_neg (not_not.2 (h.rpos.trans h.wpos.symm))]
    exact ⟨rfl, h⟩
  | succ n =>
    have hne : cons.rpos ≠ cons.wpos := by
      rw [h.rpos, h.wpos]
      exact cell_ne (by omega) (by omega)
    have hcell := h.cells lo (Nat.le_refl _) (by omega)
    rw [if_pos hne, Nat.add_sub_cancel, show lo + (n + 1) - n = lo + 1 by omega]
    refine ⟨?_, by omega, ?_, ?_, ?_⟩
    · rw [h.rpos]
      simpa [arrivals, List.range'_succ] using hcell.symm
    · rw [h.rpos]
      exact wrap_succ _
    · rw [h.wpos]
      congr 1
      omega
    · have hrest := h.cells.dropFirst
      rwa [show lo + (n + 1) = lo + 1 + n by omega] at hrest

omit hch in
lemma accepts_append (q cs : List Nat) : Accepts q cs (q ++ cs) := by
  induction cs generalizing q with
  | nil => exact (List.append_nil q).symm ▸ .done q
  | cons c cs ih => exact .keep (by simpa using ih (q ++ [c]))

lemma serves_of_fits (h : Kept ch lo n cons) (hfits : Fits n es) :
    Serves ch es (lo + n) (arrivals ch lo n) (run ch es (lo + n) cons).1 := by
  induction es generalizing lo n cons with
  | nil => exact .done _ _
  | cons e es ih =>
    cases e with
    | intr m =>
      obtain ⟨hroom, hrest⟩ := hfits
      have hnext := ih (h.consIntr hch hroom) hrest
      rw [← Nat.add_assoc, ← arrivals_append] at hnext
      exact .intr (accepts_append _ _) hnext
    | getc serial kbd =>
      obtain ⟨hroom, hrest⟩ := hfits
      obtain ⟨hc, hget⟩ := (h.consIntr hch hroom).getc
      have hnext := ih hget hrest
      rw [Nat.sub_add_cancel (by omega), ← tail_arrivals, ← Nat.add_assoc, ← arrivals_append] at hnext
      rw [run_getc]
      dsimp only
      rw [hc, ← arrivals_append]
      exact .getc (accepts_append _ _) hnext

end

lemma Fits.drain (h : Fits n es) (hn : n < consbufsize) (m : Nat) : Fits n (es ++ List.replicate m (.getc 0 0)) := by
  induction es generalizing n with
  | nil =>
    induction m generalizing n with
    | zero => exact h
    | succ m ih => exact ⟨hn, ih trivial (Nat.lt_of_le_of_lt (Nat.sub_le n 1) hn)⟩
  | cons e es ih =>
    cases e with
    | intr => exact ⟨h.1, ih h.2 h.1⟩
    | getc => exact ⟨h.1, ih h.2 (Nat.lt_of_le_of_lt (Nat.sub_le _ 1) h.1)⟩

/-! ## Runs that do not fit -/

/-- One character is a 1, the others are 2. -/
def mark (i j : Nat) : Nat := if j = i then 1 else 2

/-- The next call does not return 1. -/
def Lost (cons : Cons) : Prop := cons.rpos = cons.wpos ∨ cons.buf cons.rpos ≠ 1

lemma mark_char (i j : Nat) : 0 < mark i j ∧ mark i j < 256 := by
  unfold mark
  split <;> decide

lemma Lost.consIntr (h : Lost cons) (hlo : lo < k) : Lost (consIntr (arrivals (mark lo) k m) cons) := by
  induction m generalizing k cons with
  | zero => exact h
  | succ m ih =>
    have htwo : mark lo k = 2 := if_neg (by omega)
    change Lost (if mark lo k = 0 then _ else Console.consIntr (arrivals (mark lo) (k + 1) m) (cons.put (mark lo k)))
    rw [htwo, if_neg (by decide)]
    refine ih (.inr ?_) (by omega)
    change update cons.buf cons.wpos 2 cons.rpos ≠ 1
    by_cases hpos : cons.rpos = cons.wpos
    · rw [hpos, update_self]
      decide
    · rw [update_of_ne hpos]
      exact h.resolve_left hpos

lemma Lost.getc (h : Lost cons) : (consGetc [] [] cons).1 ≠ 1 := by
  unfold consGetc
  dsimp only [Console.consIntr]
  split
  · rename_i hpos
    exact h.resolve_left hpos
  · exact Nat.zero_ne_one

/-- More characters than fit: the oldest one is lost. -/
theorem Kept.lost (h : Kept (mark lo) lo n cons) (hover : consbufsize ≤ n + m) :
    Lost (Console.consIntr (arrivals (mark lo) (lo + n) m) cons) := by
  have hroom := h.room
  obtain ⟨d, hd⟩ := Nat.exists_eq_add_of_lt hroom
  obtain ⟨r, rfl⟩ := Nat.exists_eq_add_of_le (show d + 1 ≤ m by omega)
  -- `d` characters fit, the next one makes the positions meet
  have hfull := h.consIntr (mark_char lo) (show n + d < consbufsize by omega)
  rw [Nat.add_assoc d, Nat.add_comm 1 r, ← arrivals_append, consIntr_append]
  change Lost (if mark lo (lo + n + d) = 0 then _ else
    Console.consIntr (arrivals (mark lo) (lo + n + d + 1) r) (Cons.put (mark lo (lo + n + d)) _))
  rw [if_neg (Nat.ne_of_gt (mark_char _ _).1)]
  refine Lost.consIntr (.inl ?_) (by omega)
  change _ = if _ = consbufsize then _ else _
  rw [hfull.wpos, wrap_succ]
  refine hfull.rpos.trans ?_
  rw [Nat.add_assoc lo, ← hd, Nat.add_mod_right]

lemma Accepts.eq_append (h : Accepts q cs q') (hroom : q.length + cs.length < consbufsize) : q' = q ++ cs := by
  induction h with
  | done q => exact (List.append_nil q).symm
  | keep _ ih =>
    rw [List.length_cons] at hroom
    simpa using ih (by rw [List.length_append, List.length_singleton]; omega)
  | drop c hfull _ _ =>
    rw [List.length_cons] at hroom
    omega

lemma Accepts.take_isPrefix (h : Accepts q cs q') : (q ++ cs).take (consbufsize - 1) <+: q' := by
  induction h with
  | done q => exact (List.append_nil q).symm ▸ List.take_prefix _ q
  | keep _ ih => simpa using ih
  | drop c hfull _ ih =>
    rw [List.take_append_of_le_length hfull] at ih ⊢
    exact ih

/-- The oldest character is not dropped. -/
theorem Accepts.head_kept (h : Accepts q cs q') {c : Nat} {rest : List Nat} (hq : q ++ cs = c :: rest) :
    ∃ rest', q' = c :: rest' := by
  obtain ⟨r, rfl⟩ := h.take_isPrefix
  rw [hq]
  exact ⟨_, rfl⟩

lemma Serves.getc_inv {serial kbd c : Nat} {rs : List Nat} (h : Serves ch (.getc serial kbd :: es) k q (c :: rs)) :
    ∃ q', Accepts q (arrivals ch k (serial + kbd)) q' ∧ c = q'.headD 0 ∧ Serves ch es (k + (serial + kbd)) q'.tail rs := by
  cases h with
  | getc ha h => exact ⟨_, ha, rfl, h⟩

lemma Lost.not_serves_getc (h : Lost cons) (hlo : lo < k) (serial kbd : Nat) (es : List Event) :
    ¬ Serves (mark lo) (.getc serial kbd :: es) k (1 :: q) (run (mark lo) (.getc serial kbd :: es) k cons).1 := by
  intro hs
  rw [run_getc] at hs
  obtain ⟨q', ha, hc, -⟩ := hs.getc_inv
  obtain ⟨rest, rfl⟩ := ha.head_kept rfl
  exact (h.consIntr hlo).getc hc

lemma Lost.not_serves (h : Lost cons) (hlo : lo < k) :
    ¬ Serves (mark lo) (es ++ [.getc 0 0]) k (1 :: q) (run (mark lo) (es ++ [.getc 0 0]) k cons).1 := by
  induction es generalizing k cons q with
  | nil => exact h.not_serves_getc hlo 0 0 []
  | cons e es ih =>
    cases e with
    | getc serial kbd => exact h.not_serves_getc hlo serial kbd _
    | intr m =>
      intro hs
      cases hs with
      | intr ha hrest =>
        obtain ⟨rest, rfl⟩ := ha.head_kept rfl
        exact ih (h.consIntr hlo) (by omega) hrest

lemma Accepts.overflow (h : Accepts (arrivals (mark lo) lo n) (arrivals (mark lo) (lo + n) m) q')
    (hover : consbufsize ≤ n + m) : ∃ rest, q' = 1 :: rest := by
  obtain ⟨t, ht⟩ := Nat.exists_eq_add_of_le' (show 1 ≤ n + m from Nat.le_trans (by decide) hover)
  refine @head_kept _ _ _ h 1 (arrivals (mark lo) (lo + 1) t) ?_
  rw [arrivals_append, ht]
  exact congrArg (· :: _) (if_pos rfl)

lemma not_serves_of_overflow (hn : n < consbufsize) (hfits : ¬ Fits n es) : ∃ i, ∀ cons, Kept (mark i) lo n cons →
    ¬ Serves (mark i) (es ++ [.getc 0 0]) (lo + n) (arrivals (mark i) lo n)
      (run (mark i) (es ++ [.getc 0 0]) (lo + n) cons).1 := by
  induction es generalizing lo n with
  | nil => exact absurd trivial hfits
  | cons e es ih =>
    cases e with
    | intr m =>
      by_cases hroom : n + m < consbufsize
      · obtain ⟨i, hi⟩ := @ih lo (n + m) hroom fun hrest => hfits ⟨hroom, hrest⟩
        refine ⟨i, fun cons h hs => ?_⟩
        cases hs with
        | intr ha hrest =>
          obtain rfl := ha.eq_append (by rwa [length_arrivals, length_arrivals])
          rw [arrivals_append] at hrest
          refine hi _ (h.consIntr (mark_char i) hroom) ?_
          rw [← Nat.add_assoc]
          exact hrest
      · refine ⟨lo, fun cons h hs => ?_⟩
        cases hs with
        | intr ha hrest =>
          obtain ⟨rest, rfl⟩ := ha.overflow (by omega)
          exact (h.lost (by omega)).not_serves (by omega) hrest
    | getc serial kbd =>
      by_cases hroom : n + (serial + kbd) < consbufsize
      · obtain ⟨i, hi⟩ := @ih (lo + (n + (serial + kbd)) - (n + (serial + kbd) - 1)) (n + (serial + kbd) - 1) (by omega)
          fun hrest => hfits ⟨hroom, hrest⟩
        refine ⟨i, fun cons h hs => ?_⟩
        rw [List.cons_append, run_getc] at hs
        obtain ⟨q', ha, -, hrest⟩ := hs.getc_inv
        obtain rfl := ha.eq_append (by rwa [length_arrivals, length_arrivals])
        refine hi _ (h.consIntr (mark_char i) hroom).getc.2 ?_
        rw [arrivals_append] at hrest
        rw [Nat.sub_add_cancel (by omega), ← tail_arrivals, ← Nat.add_assoc lo]
        exact hrest
      · refine ⟨lo, fun cons h hs => ?_⟩
        rw [List.cons_append, run_getc] at hs
        obtain ⟨q', ha, hc, -⟩ := hs.getc_inv
        obtain ⟨rest, rfl⟩ := ha.overflow (by omega)
        exact (h.lost (by omega)).getc hc

/-- Whatever arrives when, the positions stay in the buffer. The characters that arrive are returned in order, if
`cons_getc` is called often enough, exactly where no character comes to `CONSBUFSIZE - 1` unread ones. -/
theorem cons_getc_in_order (es : List Event) : (∀ ch, InBuffer (run ch es 0 Cons.zero).2) ∧
    ((∀ ch, (∀ i, 0 < ch i ∧ ch i < 256) → ∀ m, Serves ch (es ++ List.replicate m (.getc 0 0)) 0 []
      (run ch (es ++ List.replicate m (.getc 0 0)) 0 Cons.zero).1) ↔ Fits 0 es) := by
  refine ⟨fun ch => InBuffer.run ⟨by decide, by decide⟩ ch es 0, fun h => ?_, fun h ch hch m => ?_⟩
  · by_contra hfits
    obtain ⟨i, hi⟩ := @not_serves_of_overflow es 0 0 (by decide) hfits
    exact hi Cons.zero (kept_zero _) (h (mark i) (mark_char i) 1)
  · exact serves_of_fits hch (kept_zero ch) (h.drain (by decide) m)

/-- After 512 characters the buffer looks empty. -/
theorem cons_intr_loses_burst : (run (fun _ => 97) [.intr 512, .getc 0 0] 0 Cons.zero).1 = [0] ∧
    ¬ Serves (fun _ => 97) [.intr 512, .getc 0 0] 0 [] [0] := by
  refine ⟨by decide +kernel, fun hs => ?_⟩
  cases hs with
  | intr ha hrest =>
    obtain ⟨q, ha', hc, -⟩ := hrest.getc_inv
    obtain ⟨rest, rfl⟩ := ha.head_kept (show _ = 97 :: arrivals (fun _ => 97) 1 511 from rfl)
    obtain ⟨rest', rfl⟩ := ha'.head_kept rfl
    cases hc

end Jos.Console
