import Jos.Lib.Printfmt
import Mathlib.Data.List.TakeWhile

/-!
# Printing and parsing numbers

`printnum` of `lib/printfmt.c` against `strtol` of `lib/string.c`. The width is an
`int` that `printnum` counts down, so that a width next to the least `int` wraps.
-/

namespace Jos.Printfmt
open CInt

def digitValue (c : Nat) : Option Nat :=
  if 48 ≤ c ∧ c ≤ 57 then some (c - 48)
  else if 97 ≤ c ∧ c ≤ 122 then some (c - 97 + 10)
  else if 65 ≤ c ∧ c ≤ 90 then some (c - 65 + 10)
  else none

/-- The loop over the digits, with the value so far. -/
def strtolDigits (base : Nat) : Int → List Nat → Int × List Nat
  | val, [] => (val, [])
  | val, c :: s =>
    match digitValue c with
    | none => (val, c :: s)
    | some dig => if base ≤ dig then (val, c :: s) else strtolDigits base (toI32 (val * base + dig)) s

/-- `s` is the text before the NUL; the second component is what is left of it at `*endptr`. -/
def strtol (s : List Nat) (base : Nat) : Int × List Nat :=
  let s := s.dropWhile fun c => c == 32 || c == 9
  let neg := s.head? == some 45
  let s := if s.head? = some 43 ∨ s.head? = some 45 then s.tail else s
  let (s, base) :=
    if (base = 0 ∨ base = 16) ∧ s.take 2 = [48, 120] then (s.drop 2, 16)
    else if base = 0 ∧ s.head? = some 48 then (s.tail, 8)
    else if base = 0 then (s, 10)
    else (s, base)
  let (val, s) := strtolDigits base 0 s
  (if neg then toI32 (-val) else val, s)

/-- The minimal digits of a number. -/
def digits (num base : Nat) : List Nat := (Nat.toDigits base num).map Char.toNat

/-- What holds of one digit, and of a number with one digit more, holds of all numbers. -/
theorem digits_induction {base : Nat} (hb : 2 ≤ base) {P : Nat → Prop} (digit : ∀ num < base, P num)
    (more : ∀ num, base ≤ num → P (num / base) → P num) (num : Nat) : P num := by
  induction num using Nat.strong_induction_on with
  | _ num ih =>
    rcases lt_or_ge num base with h | h
    · exact digit num h
    · exact more num h (ih _ (Nat.div_lt_self (by omega) hb))

section
variable {num base : Nat} (hb : 2 ≤ base) (hb' : base ≤ 16)
include hb hb'

lemma digitChar_toNat {d : Nat} (hd : d < base) : (Nat.digitChar d).toNat = digitChar d := by
  have h : ∀ d < 16, (Nat.digitChar d).toNat = digitChar d := by decide
  exact h d (by omega)

lemma digits_of_lt (h : num < base) : digits num base = [digitChar num] := by
  rw [digits, Nat.toDigits_of_lt_base h, List.map_singleton, digitChar_toNat hb hb' h]

lemma digits_of_le (h : base ≤ num) : digits num base = digits (num / base) base ++ [digitChar (num % base)] := by
  rw [digits, Nat.toDigits_of_base_le hb h, List.map_append, List.map_singleton,
    digitChar_toNat hb hb' (Nat.mod_lt _ (by omega)), digits]

lemma printnum_eq (num : Nat) (width : Int) (padc : Nat) : printnum num base width padc =
    spaces padc (toI32 (width - (digits num base).length)) ++ digits num base := by
  induction num using digits_induction hb generalizing width with
  | digit num h =>
    rw [printnum, if_neg (by omega), Nat.mod_eq_of_lt h, digits_of_lt hb hb' h]
    rfl
  | more num h ih =>
    have hwidth : ∀ k : Nat, toI32 (toI32 (width - 1) - k) = toI32 (width - (k + 1 : Nat)) := by
      intro k
      rw [sub_eq_add_neg, toI32_add]
      congr 1
      push_cast
      ring
    rw [printnum, if_pos ⟨hb, h⟩, ih, digits_of_le hb hb' h, List.length_append, List.length_singleton, hwidth,
      List.append_assoc]

lemma digits_length {k : Nat} (h : num < 2 ^ k) : 0 < (digits num base).length ∧ (digits num base).length ≤ k + 1 := by
  induction num using digits_induction hb generalizing k with
  | digit num hlt =>
    rw [digits_of_lt hb hb' hlt]
    simp
  | more num hle ih =>
    have hk' : num / base < 2 ^ (k - 1) := by
      cases k with
      | zero => omega
      | succ k =>
        refine (Nat.div_lt_iff_lt_mul (by omega)).mpr (h.trans_le ?_)
        rw [Nat.pow_succ]
        exact Nat.mul_le_mul_left _ hb
    have hpos : k ≠ 0 := by
      rintro rfl
      omega
    have := ih hk'
    rw [digits_of_le hb hb' hle, List.length_append, List.length_singleton]
    omega

lemma mem_digits {c : Nat} (h : c ∈ digits num base) : ∃ d < 16, c = digitChar d := by
  induction num using digits_induction hb with
  | digit num hlt =>
    rw [digits_of_lt hb hb' hlt, List.mem_singleton] at h
    exact ⟨num, by omega, h⟩
  | more num hle ih =>
    rw [digits_of_le hb hb' hle, List.mem_append, List.mem_singleton] at h
    exact h.elim ih fun hc => ⟨_, (Nat.mod_lt _ (by omega)).trans_le hb', hc⟩

lemma strtolDigits_digits (num : Nat) (s : List Nat) :
    strtolDigits base 0 (digits num base ++ s) = strtolDigits base (toI32 num) s := by
  have hvalue : ∀ d < 16, digitValue (digitChar d) = some d := by decide
  have hstep : ∀ (val : Int) (d : Nat) (s : List Nat), d < base →
      strtolDigits base val (digitChar d :: s) = strtolDigits base (toI32 (val * base + d)) s := by
    intro val d s hd
    simp only [strtolDigits, hvalue d (by omega), if_neg (Nat.not_le.mpr hd)]
  induction num using digits_induction hb generalizing s with
  | digit num h => rw [digits_of_lt hb hb' h, List.singleton_append, hstep 0 num s h, zero_mul, zero_add]
  | more num h ih =>
    rw [digits_of_le hb hb' h, List.append_assoc, ih, List.singleton_append, hstep _ _ s (Nat.mod_lt _ (by omega))]
    have hnum : (num : Int) = (num / base : Nat) * base + (num % base : Nat) := by
      rw [mul_comm]
      exact_mod_cast (Nat.div_add_mod num base).symm
    rw [toI32_mul_add, ← hnum]

end

lemma strtolDigits_zeros (base n : Nat) (hb : 2 ≤ base) (s : List Nat) :
    strtolDigits base 0 (List.replicate n 48 ++ s) = strtolDigits base 0 s := by
  induction n with
  | zero => rfl
  | succ n ih => simp [List.replicate_succ, strtolDigits, digitValue, Nat.not_le.mpr (by omega : 0 < base), ih, toI32]

/-- A text of digits has no sign, no blanks and no prefix. -/
theorem strtol_digits {base : Nat} (hbase : base = 8 ∨ base = 10 ∨ base = 16) {t : List Nat}
    (ht : ∀ c ∈ t, ∃ d < 16, c = digitChar d) : strtol t base = strtolDigits base 0 t := by
  have hchar : ∀ d < 16, digitChar d ≠ 32 ∧ digitChar d ≠ 9 ∧ digitChar d ≠ 43 ∧ digitChar d ≠ 45 ∧
      digitChar d ≠ 120 := by decide
  have hc : ∀ c ∈ t, c ≠ 32 ∧ c ≠ 9 ∧ c ≠ 43 ∧ c ≠ 45 ∧ c ≠ 120 := by
    intro c hc
    obtain ⟨d, hd, rfl⟩ := ht c hc
    exact hchar d hd
  have hdrop : t.dropWhile (fun c => c == 32 || c == 9) = t := by
    cases t with
    | nil => rfl
    | cons c t =>
      obtain ⟨h1, h2, -⟩ := hc c List.mem_cons_self
      simp [h1, h2]
  have hsign : ∀ c, c = 43 ∨ c = 45 → t.head? ≠ some c := by
    intro c h he
    have := hc c (List.mem_of_mem_head? he)
    omega
  have hprefix : t.take 2 ≠ [48, 120] := fun he =>
    (hc 120 (List.mem_of_mem_take (i := 2) (he ▸ by simp))).2.2.2.2 rfl
  have hzero : base ≠ 0 := by omega
  simp [strtol, hdrop, hsign 43, hsign 45, hprefix, hzero]

lemma strtol_blanks (n : Nat) (t : List Nat) (base : Nat) :
    strtol (List.replicate n 32 ++ t) base = strtol t base := by
  have h : (List.replicate n 32 ++ t).dropWhile (fun c => c == 32 || c == 9) =
      t.dropWhile fun c => c == 32 || c == 9 :=
    List.dropWhile_append_of_pos fun c hc => by rw [List.eq_of_mem_replicate hc]; rfl
  simp only [strtol, h]

structure PrintedRight (num base : Nat) (width : Int) (padc : Nat) : Prop where
  length : (printnum num base width padc).length = max width.toNat (digits num base).length
  text : ∃ n, printnum num base width padc = List.replicate n padc ++ digits num base
  parsed : strtol (printnum num base width padc) base = (toI32 num, [])

lemma strtol_printnum (num : Nat) {base : Nat} (hbase : base = 8 ∨ base = 10 ∨ base = 16) (width : Int) {padc : Nat}
    (hpad : padc = 32 ∨ padc = 48) : strtol (printnum num base width padc) base = (toI32 num, []) := by
  have hb : 2 ≤ base := by omega
  have hb' : base ≤ 16 := by omega
  have hdig : strtolDigits base 0 (digits num base) = (toI32 num, []) := by
    simpa [strtolDigits] using strtolDigits_digits hb hb' num []
  rw [printnum_eq hb hb']
  rcases hpad with rfl | rfl
  · rw [spaces, strtol_blanks, strtol_digits hbase fun c => mem_digits hb hb', hdig]
  · rw [strtol_digits hbase, spaces, strtolDigits_zeros base _ hb, hdig]
    intro c hc
    rcases List.mem_append.mp hc with hc | hc
    · exact ⟨0, by decide, List.eq_of_mem_replicate hc⟩
    · exact mem_digits hb hb' hc

lemma printnum_length_iff {num base : Nat} (hnum : num < 2 ^ 32) (hb : 2 ≤ base) (hb' : base ≤ 16) {width : Int}
    (hlo : -2147483648 ≤ width) (hhi : width < 2147483648) (padc : Nat) :
    (printnum num base width padc).length = max width.toNat (digits num base).length ↔
      -2147483648 ≤ width - (digits num base).length := by
  obtain ⟨hpos, hlen⟩ := digits_length hb hb' hnum
  rw [printnum_eq hb hb', List.length_append, spaces, List.length_replicate, toI32_eq]
  split <;> omega

lemma strtol_decimal {v : Int} (hlo : -2147483648 ≤ v) (hhi : v < 2147483648) :
    strtol (printDecimal v (-1) 32) 10 = (v, []) := by
  unfold printDecimal
  split
  · have hten : 2 ≤ 10 ∧ 10 ≤ 16 := by decide
    obtain ⟨hpos, hlen⟩ := digits_length hten.1 hten.2 (show v.natAbs < 2 ^ 32 by omega)
    have hpad : spaces 32 (toI32 (-1 - (digits v.natAbs 10).length)) = [] := by
      rw [toI32_of_range (by omega) (by omega), spaces, Int.toNat_of_nonpos (by omega)]
      rfl
    have hneg : ∀ t, strtol (45 :: t) 10 = (toI32 (-(strtolDigits 10 0 t).1), (strtolDigits 10 0 t).2) := by
      intro t
      simp [strtol]
    have hdig := strtolDigits_digits hten.1 hten.2 v.natAbs []
    rw [List.append_nil] at hdig
    have hval : toI32 (-toI32 v.natAbs) = v := by
      rw [toI32_eq, toI32_eq]
      split <;> split <;> omega
    rw [printnum_eq hten.1 hten.2, hpad, List.nil_append, hneg, hdig, strtolDigits, hval]
  · have hnat : (v.natAbs : Int) = v := by omega
    rw [strtol_printnum _ (.inr (.inl rfl)) _ (.inl rfl), hnat, toI32_of_range hlo hhi]

theorem numbers_inverse_iff {num base : Nat} (hnum : num < 2 ^ 32) (hbase : base = 8 ∨ base = 10 ∨ base = 16)
    {width : Int} (hlo : -2147483648 ≤ width) (hhi : width < 2147483648) {padc : Nat} (hpad : padc = 32 ∨ padc = 48) :
    (PrintedRight num base width padc ↔ -2147483648 ≤ width - (digits num base).length) ∧
    ∀ (load : Nat → Option Nat) (ap : List Nat) (v : Int), -2147483648 ≤ v → v < 2147483648 →
      strtol (vprintfmt load [37, 100] (toU32 v :: ap)).out 10 = (v, []) := by
  have hb : 2 ≤ base := by omega
  have hb' : base ≤ 16 := by omega
  have hlen := printnum_length_iff hnum hb hb' hlo hhi padc
  refine ⟨⟨fun h => hlen.mp h.length, fun h => ⟨hlen.mpr h, ⟨_, printnum_eq hb hb' ..⟩, strtol_printnum num hbase width hpad⟩⟩,
    fun load ap v hv hv' => ?_⟩
  have harg : toInt32 (toU32 v % 4294967296) = v := by
    have := toU32_cast v
    unfold toInt32
    split <;> omega
  have htext : (vprintfmt load [37, 100] (toU32 v :: ap)).out = printDecimal v (-1) 32 := by
    simp [vprintfmt, reswitch, convert, getint, getuint, vaWord, Trace.seq, Trace.emit, Trace.empty, harg]
  rw [htext, strtol_decimal hv hv']

theorem numbers_inverse_five : PrintedRight 5 10 3 32 :=
  (numbers_inverse_iff (by decide) (.inr (.inl rfl)) (by decide) (by decide) (.inl rfl)).1.mpr (by decide)

theorem least_width_pads : (printnum 5 10 (-2147483648) 32).length = 2147483648 ∧
    max (-2147483648 : Int).toNat (digits 5 10).length = 1 := by
  have hdigits : digits 5 10 = [53] := by decide
  rw [printnum_eq (by decide) (by decide), hdigits]
  refine ⟨?_, by decide⟩
  rw [List.length_append, spaces, List.length_replicate]
  decide

end Jos.Printfmt
