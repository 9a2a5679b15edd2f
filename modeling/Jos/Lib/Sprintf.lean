import Jos.Lib.Printfmt

/-!
# Where formatted output goes

The functions that `vprintfmt` hands its characters to: `sprintputch` of
`lib/printfmt.c` behind `vsnprintf`, and `putch` of `kern/printf.c` behind `vcprintf`.
-/

namespace Jos.Printfmt
open CInt Function

/-- `struct sprintbuf` but for `ebuf`, and the memory. -/
structure Sprintbuf where
  mem : Nat → Nat
  buf : Nat
  cnt : Int

def sprintputch (ebuf : Nat) (b : Sprintbuf) (ch : Nat) : Sprintbuf :=
  let b := { b with cnt := toI32 (b.cnt + 1) }
  if b.buf < ebuf then { b with mem := update b.mem b.buf ch, buf := b.buf + 1 } else b

/-- The value returned and the memory; `none` when `vprintfmt` does not return. The end of the
buffer is a 32-bit address. -/
def vsnprintf (load : Nat → Option Nat) (mem : Nat → Nat) (buf : Nat) (n : Int) (fmt ap : List Nat) :
    Option (Int × (Nat → Nat)) :=
  if buf = 0 ∨ n < 1 then some (-3, mem)
  else
    let t := vprintfmt load fmt ap
    if t.stop.isSome then none
    else
      let b := t.out.foldl (sprintputch (toU32 (buf + n - 1))) ⟨mem, buf, 0⟩
      some (b.cnt, update b.mem b.buf 0)

/-- `*cnt++` moves the parameter `cnt` of `putch` and leaves what it points to alone. -/
def putch (cnt : Int) (_ch : Nat) : Int := cnt

def vcprintf (load : Nat → Option Nat) (fmt ap : List Nat) : Option Int :=
  let t := vprintfmt load fmt ap
  if t.stop.isSome then none else some (t.out.foldl putch 0)

/-- The characters `cs` and a NUL have been stored from `buf` on, and nothing else. -/
def Stored (buf : Nat) (cs : List Nat) (mem mem' : Nat → Nat) : Prop :=
  ∀ a, mem' a = if buf ≤ a ∧ a ≤ buf + cs.length then cs.getD (a - buf) 0 else mem a

lemma foldl_sprintputch (ebuf : Nat) (out : List Nat) {b : Sprintbuf} (hb : b.buf ≤ ebuf) (hc : toI32 b.cnt = b.cnt) :
    (out.foldl (sprintputch ebuf) b).cnt = toI32 (b.cnt + out.length) ∧
    (out.foldl (sprintputch ebuf) b).buf = min (b.buf + out.length) ebuf ∧
    ∀ a, (out.foldl (sprintputch ebuf) b).mem a =
      if b.buf ≤ a ∧ a < min (b.buf + out.length) ebuf then out.getD (a - b.buf) 0 else b.mem a := by
  induction out generalizing b with
  | nil => exact ⟨by simp [hc], by simp [hb], fun a => (if_neg (by simp; omega)).symm⟩
  | cons ch out ih =>
    have hc' : toI32 (toI32 (b.cnt + 1)) = toI32 (b.cnt + 1) := toI32_of_range (toI32_range _).1 (toI32_range _).2
    have hcnt : toI32 (toI32 (b.cnt + 1) + out.length) = toI32 (b.cnt + (ch :: out).length) := by
      rw [toI32_add, List.length_cons]
      push_cast
      ring_nf
    rw [List.foldl_cons, sprintputch]
    dsimp only
    split
    case isTrue h =>
      obtain ⟨h1, h2, h3⟩ := @ih ⟨update b.mem b.buf ch, b.buf + 1, toI32 (b.cnt + 1)⟩ h hc'
      refine ⟨h1.trans hcnt, h2.trans (by simp only [List.length_cons]; omega), fun a => (h3 a).trans ?_⟩
      simp only [List.length_cons]
      by_cases ha : a = b.buf
      · subst ha
        rw [if_neg (by omega), if_pos (by omega), update_self, Nat.sub_self, List.getD_cons_zero]
      · rw [update_of_ne ha]
        refine if_ctx_congr (by omega) (fun hin => ?_) fun _ => rfl
        rw [show a - b.buf = a - (b.buf + 1) + 1 by omega, List.getD_cons_succ]
    case isFalse h =>
      obtain ⟨h1, h2, h3⟩ := @ih { b with cnt := toI32 (b.cnt + 1) } hb hc'
      refine ⟨h1.trans hcnt, h2.trans ?_, fun a => (h3 a).trans ?_⟩
      · simp only [List.length_cons]
        omega
      · simp only [List.length_cons]
        rw [if_neg (by omega), if_neg (by omega)]

/-- Behind the end of the buffer the characters are only counted. -/
theorem foldl_sprintputch_full (ebuf : Nat) (out : List Nat) {b : Sprintbuf} (hb : ebuf ≤ b.buf) :
    (out.foldl (sprintputch ebuf) b).buf = b.buf ∧ (out.foldl (sprintputch ebuf) b).mem = b.mem := by
  induction out generalizing b with
  | nil => exact ⟨rfl, rfl⟩
  | cons ch out ih =>
    have hfull : sprintputch ebuf b ch = { b with cnt := toI32 (b.cnt + 1) } := if_neg (not_lt.mpr hb)
    rw [List.foldl_cons, hfull]
    exact @ih { b with cnt := toI32 (b.cnt + 1) } hb

lemma foldl_putch (out : List Nat) (cnt : Int) : out.foldl putch cnt = cnt := by
  induction out with
  | nil => rfl
  | cons ch out ih => exact ih

section
variable {load : Nat → Option Nat} {fmt ap : List Nat} (hret : (vprintfmt load fmt ap).stop = none)
include hret

lemma vsnprintf_run (mem : Nat → Nat) {buf : Nat} (hbuf : buf ≠ 0) {n : Int} (hn : 1 ≤ n) :
    vsnprintf load mem buf n fmt ap =
      let b := (vprintfmt load fmt ap).out.foldl (sprintputch (toU32 (buf + n - 1))) ⟨mem, buf, 0⟩
      some (b.cnt, update b.mem b.buf 0) := by
  have hvalid : ¬ (buf = 0 ∨ n < 1) := by omega
  rw [vsnprintf, if_neg hvalid]
  simp only [hret]
  rfl

lemma vsnprintf_eq (mem : Nat → Nat) {buf : Nat} (hbuf : buf ≠ 0) {n : Int} (hn : 1 ≤ n)
    (hend : buf + n ≤ 4294967296) :
    ∃ mem', vsnprintf load mem buf n fmt ap = some (toI32 (vprintfmt load fmt ap).out.length, mem') ∧
      Stored buf ((vprintfmt load fmt ap).out.take (n - 1).toNat) mem mem' := by
  have hebuf : toU32 (buf + n - 1) = (buf + n - 1).toNat := by
    have := toU32_of_range (show 0 ≤ (buf : Int) + n - 1 by omega) (by omega)
    omega
  rw [vsnprintf_run hret mem hbuf hn, hebuf]
  obtain ⟨hcnt, hstop, hmem⟩ := @foldl_sprintputch (buf + n - 1).toNat (vprintfmt load fmt ap).out ⟨mem, buf, 0⟩
    (by simp only; omega) rfl
  simp only [zero_add] at hcnt hstop hmem
  refine ⟨_, by simp only [hcnt]; rfl, fun a => ?_⟩
  rw [hstop, List.length_take]
  generalize (vprintfmt load fmt ap).out = out at *
  by_cases ha : a = min (buf + out.length) (buf + n - 1).toNat
  · have hlen : (out.take (n - 1).toNat).length ≤ a - buf := by
      rw [List.length_take]
      omega
    rw [← ha, update_self, if_pos (by omega), List.getD_eq_getElem?_getD, List.getElem?_eq_none hlen]
    rfl
  · rw [update_of_ne ha, hmem]
    refine if_ctx_congr (by omega) (fun hin => ?_) fun _ => rfl
    rw [List.getD_eq_getElem?_getD, List.getD_eq_getElem?_getD, List.getElem?_take_of_lt (by omega)]

/-- A buffer that runs past the end of the address space gets its NUL and nothing else. -/
theorem vsnprintf_wraps (mem : Nat → Nat) {buf : Nat} (hbuf : buf ≠ 0) {n : Int} (hn : 1 ≤ n)
    (hend : 4294967296 < buf + n) (hb32 : buf < 4294967296) (hn32 : n < 2147483648) :
    ∃ r, vsnprintf load mem buf n fmt ap = some (r, update mem buf 0) := by
  have hebuf : toU32 (buf + n - 1) ≤ buf := by
    have := toU32_cast (buf + n - 1)
    omega
  obtain ⟨hstop, hmem⟩ := foldl_sprintputch_full (toU32 (buf + n - 1)) (vprintfmt load fmt ap).out
    (b := ⟨mem, buf, 0⟩) hebuf
  rw [vsnprintf_run hret mem hbuf hn]
  dsimp only
  rw [hstop, hmem]
  exact ⟨_, rfl⟩

/-- `vsnprintf` is right for every output that an `int` can count and every buffer inside the
address space, `vcprintf` for no output but the empty one. -/
theorem formatted_output_iff {buf : Nat} (hbuf : buf ≠ 0) (hb32 : buf < 4294967296) {n : Int} (hn : 1 ≤ n)
    (hn32 : n < 2147483648) :
    ((∀ mem, ∃ mem', vsnprintf load mem buf n fmt ap = some (((vprintfmt load fmt ap).out.length : Int), mem') ∧
        Stored buf ((vprintfmt load fmt ap).out.take (n - 1).toNat) mem mem') ↔
      (vprintfmt load fmt ap).out.length < 2147483648 ∧
        (buf + n ≤ 4294967296 ∨ (vprintfmt load fmt ap).out = [])) ∧
    (vcprintf load fmt ap = some ((vprintfmt load fmt ap).out.length : Int) ↔ (vprintfmt load fmt ap).out = []) := by
  constructor
  · have hrange := toI32_range (vprintfmt load fmt ap).out.length
    by_cases hend : buf + n ≤ 4294967296
    · constructor
      · intro h
        obtain ⟨mem', hrun, -⟩ := vsnprintf_eq hret (fun _ => 0) hbuf hn hend
        obtain ⟨mem1, hrun1, -⟩ := h fun _ => 0
        have hcnt := congrArg Prod.fst (Option.some.inj (hrun.symm.trans hrun1))
        simp only at hcnt
        exact ⟨by omega, .inl hend⟩
      · intro h mem
        obtain ⟨mem', hrun, hstored⟩ := vsnprintf_eq hret mem hbuf hn hend
        rw [toI32_of_range (by omega) (by omega)] at hrun
        exact ⟨mem', hrun, hstored⟩
    · constructor
      · intro h
        -- the NUL behind the text is missing, unless there is no text
        obtain ⟨r, hrun⟩ := vsnprintf_wraps hret (fun _ => 1) hbuf hn (by omega) hb32 hn32
        obtain ⟨mem1, hrun1, hstored⟩ := h fun _ => 1
        obtain rfl : update (fun _ => 1) buf 0 = mem1 :=
          congrArg Prod.snd (Option.some.inj (hrun.symm.trans hrun1))
        have hnul := hstored (buf + ((vprintfmt load fmt ap).out.take (n - 1).toNat).length)
        rw [if_pos (by omega), Nat.add_sub_cancel_left, List.getD_eq_getElem?_getD,
          List.getElem?_eq_none le_rfl] at hnul
        have hnil : (vprintfmt load fmt ap).out.take (n - 1).toNat = [] := by
          by_contra hne
          rw [update_of_ne (by have := List.length_pos_iff.mpr hne; omega)] at hnul
          cases hnul
        rcases List.take_eq_nil_iff.mp hnil with hzero | hout
        · omega
        · exact ⟨by rw [hout]; decide, .inr hout⟩
      · rintro ⟨-, h⟩ mem
        have hout := h.resolve_left hend
        rw [vsnprintf_run hret mem hbuf hn, hout]
        refine ⟨_, rfl, fun a => ?_⟩
        by_cases ha : a = buf
        · simp [ha]
        · simp only [List.foldl_nil, List.take_nil, List.length_nil, update_of_ne ha]
          rw [if_neg (by omega)]
  · rw [vcprintf, hret]
    simp only [foldl_putch, Option.isSome_none]
    rw [if_neg (by decide), Option.some.injEq, ← List.length_eq_zero_iff]
    omega

end

theorem formatted_output_hi : ∃ mem', vsnprintf (fun _ => none) (fun _ => 7) 100 2 [104, 105] [] = some (2, mem') ∧
    Stored 100 [104] (fun _ => 7) mem' := by
  have hout : vprintfmt (fun _ => none) [104, 105] [] = ⟨[104, 105], [], none⟩ := by
    simp [vprintfmt, Trace.seq, Trace.emit, Trace.empty]
  have hret : (vprintfmt (fun _ => none) [104, 105] []).stop = none := by rw [hout]
  have h := (formatted_output_iff hret (show 100 ≠ 0 by decide) (by decide) (show (1 : Int) ≤ 2 by decide)
    (by decide)).1.mpr ⟨by rw [hout]; decide, .inl (by decide)⟩ fun _ => 7
  rw [hout] at h
  exact h

/-- `cprintf("a")` returns 0. -/
theorem vcprintf_returns_zero : (vprintfmt (fun _ => none) [97] []).out = [97] ∧
    vcprintf (fun _ => none) [97] [] = some 0 := by
  have hout : vprintfmt (fun _ => none) [97] [] = ⟨[97], [], none⟩ := by
    simp [vprintfmt, Trace.seq, Trace.emit, Trace.empty]
  exact ⟨by rw [hout], by rw [vcprintf, hout]; rfl⟩

end Jos.Printfmt
