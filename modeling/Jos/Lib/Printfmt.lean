import Jos.Base.CInt
import Mathlib.Data.List.Basic

/-!
# Formatted output

`vprintfmt` of `lib/printfmt.c`, as the trace of what it does: the characters it
hands to `putch`, the addresses it reads through its string arguments, and how it
ends. Characters are bytes; a format string is the list of its characters before
the terminating NUL, and reading past the end of that list is reading the NUL.
-/

namespace Jos.Printfmt
open CInt

inductive Stop where
  | fault (addr : Nat)
  | diverged
  deriving DecidableEq, Repr

/-- `stop = none` is a normal return. -/
structure Trace where
  out : List Nat
  reads : List Nat
  stop : Option Stop
  deriving DecidableEq, Repr

namespace Trace

def empty : Trace := ⟨[], [], none⟩

def emit (cs : List Nat) : Trace := ⟨cs, [], none⟩

def seq (t u : Trace) : Trace :=
  match t.stop with
  | none => ⟨t.out ++ u.out, t.reads ++ u.reads, u.stop⟩
  | some _ => t

end Trace

def literalBase : Nat := 2 ^ 32

def nextAddr (p : Nat) : Nat := if p + 1 = 2 ^ 32 then 0 else p + 1

def fetch (load : Nat → Option Nat) (lit : List Nat) (p : Nat) : Option Nat :=
  if p < literalBase then load p else some (lit.getD (p - literalBase) 0)

/-- `strnlen(s, size)`; the counter bounds the walk by the size of the address space. -/
def strnlenLoop (load : Nat → Option Nat) : Nat → Nat → Nat → Nat → Trace × Nat
  | 0, _, _, n => (⟨[], [], some .diverged⟩, n)
  | fuel + 1, p, size, n =>
    if size = 0 then (Trace.empty, n)
    else
      match load p with
      | none => (⟨[], [p], some (.fault p)⟩, n)
      | some 0 => (⟨[], [p], none⟩, n)
      | some (_ + 1) =>
        let (t, m) := strnlenLoop load fuel (nextAddr p) (size - 1) (n + 1)
        (Trace.seq ⟨[], [p], none⟩ t, m)

def strnlen (load : Nat → Option Nat) (p size : Nat) : Trace × Nat :=
  strnlenLoop load (2 ^ 32 + 1) p size 0

/-- The string loop: `ch = *p++` is read before the precision is tested. The second
component counts the turns, which the source takes off `width`. -/
def strLoop (load : Nat → Option Nat) (altflag : Bool) : Nat → Nat → Int → Trace × Nat
  | 0, _, _ => (⟨[], [], some .diverged⟩, 0)
  | fuel + 1, p, precision =>
    match load p with
    | none => (⟨[], [p], some (.fault p)⟩, 0)
    | some 0 => (⟨[], [p], none⟩, 0)
    | some (c + 1) =>
      let precision' := if precision < 0 then precision else precision - 1
      if precision < 0 ∨ 0 ≤ precision' then
        let ch := if altflag && (c + 1 < 32 || c + 1 > 126) then 63 else c + 1
        let (t, m) := strLoop load altflag fuel (nextAddr p) precision'
        (Trace.seq ⟨[ch], [p], none⟩ t, m + 1)
      else (⟨[], [p], none⟩, 0)

def spaces (c : Nat) (n : Int) : List Nat := List.replicate n.toNat c

def digitChar (d : Nat) : Nat := if d < 10 then 48 + d else 87 + d

/-- `base` is 8, 10 or 16. The loop `while (--width > 0)` prints as many characters as `width - 1` says. -/
def printnum (num base : Nat) (width : Int) (padc : Nat) : List Nat :=
  if 2 ≤ base ∧ base ≤ num then
    printnum (num / base) base (toI32 (width - 1)) padc ++ [digitChar (num % base)]
  else spaces padc (toI32 (width - 1)) ++ [digitChar (num % base)]
termination_by num
decreasing_by exact Nat.div_lt_self (by omega) (by omega)

structure Escape where
  padc : Nat := 32
  width : Int := -1
  precision : Int := -1
  lflag : Nat := 0
  altflag : Bool := false
  deriving DecidableEq, Repr

def toInt32 (w : Nat) : Int := if w % 2 ^ 32 < 2 ^ 31 then (w % 2 ^ 32 : Nat) else (w % 2 ^ 32 : Nat) - 2 ^ 32

def toInt64 (w : Nat) : Int := if w % 2 ^ 64 < 2 ^ 63 then (w % 2 ^ 64 : Nat) else (w % 2 ^ 64 : Nat) - 2 ^ 64

/-- `va_arg(ap, int)`: one stack word. -/
def vaWord (ap : List Nat) : Nat × List Nat := (ap.headD 0 % 2 ^ 32, ap.tail)

def getuint (ap : List Nat) (lflag : Nat) : Nat × List Nat :=
  if 2 ≤ lflag then
    let (lo, ap) := vaWord ap
    let (hi, ap) := vaWord ap
    (lo + 2 ^ 32 * hi, ap)
  else vaWord ap

def getint (ap : List Nat) (lflag : Nat) : Int × List Nat :=
  let (w, ap) := getuint ap lflag
  (if 2 ≤ lflag then toInt64 w else toInt32 w, ap)

def processPrecision (e : Escape) : Escape :=
  if e.width < 0 then { e with width := e.precision, precision := -1 } else e

def processDot (e : Escape) : Escape := if e.width < 0 then { e with width := 0 } else e

def widthDigits (precision : Int) : List Nat → Int × List Nat
  | [] => (precision, [])
  | c :: fmt =>
    if 48 ≤ c ∧ c ≤ 57 then
      widthDigits (toInt32 ((precision * 10 + (c : Int) - 48) % 2 ^ 32).toNat) fmt
    else (precision, c :: fmt)

lemma widthDigits_length (precision : Int) (fmt : List Nat) : (widthDigits precision fmt).2.length ≤ fmt.length := by
  induction fmt generalizing precision with
  | nil => simp [widthDigits]
  | cons c fmt ih =>
    simp only [widthDigits]
    split
    · have := ih (toInt32 ((precision * 10 + (c : Int) - 48) % 2 ^ 32).toNat)
      simp only [List.length_cons]
      omega
    · exact le_rfl

/-- The escape up to its conversion character: the flags, that character (0 for
the NUL), and what is left of the format and of the arguments. -/
def reswitch (e : Escape) (fmt ap : List Nat) : Escape × Nat × List Nat × List Nat :=
  match fmt with
  | [] => (e, 0, [], ap)
  | ch :: fmt =>
    if ch = 45 then reswitch { e with padc := 45 } fmt ap
    else if ch = 48 then reswitch { e with padc := 48 } fmt ap
    else if 49 ≤ ch ∧ ch ≤ 57 then
      reswitch (processPrecision { e with precision := (widthDigits ((ch : Int) - 48) fmt).1 })
        (widthDigits ((ch : Int) - 48) fmt).2 ap
    else if ch = 42 then
      reswitch (processPrecision { e with precision := toInt32 (vaWord ap).1 }) fmt (vaWord ap).2
    else if ch = 46 then reswitch (processDot e) fmt ap
    else if ch = 35 then reswitch { e with altflag := true } fmt ap
    else if ch = 108 then reswitch { e with lflag := e.lflag + 1 } fmt ap
    else (e, ch, fmt, ap)
termination_by fmt.length
decreasing_by
  all_goals simp only [List.length_cons]
  all_goals have := widthDigits_length ((ch : Int) - 48) fmt
  all_goals omega

lemma reswitch_length (e : Escape) (fmt ap : List Nat) : (reswitch e fmt ap).2.2.1.length ≤ fmt.length := by
  fun_induction reswitch e fmt ap with
  | case4 e ap ch fmt _ _ _ ih =>
    have := widthDigits_length ((ch : Int) - 48) fmt
    simp only [List.length_cons]
    omega
  | case1 => simp
  | case9 => simp
  | _ => simp only [List.length_cons]; omega

/-- `%s`. `width` is an `int`: it wraps around when more characters are printed than it can count down. -/
def convString (load : Nat → Option Nat) (lit : List Nat) (e : Escape) (p : Nat) : Trace :=
  let fetch := fetch load lit
  let padded := 0 < e.width ∧ e.padc ≠ 45
  let (t0, n) := if padded then strnlen fetch p (e.precision % 2 ^ 32).toNat else (Trace.empty, 0)
  let width := if padded then toI32 (e.width - n) else e.width
  let left := if padded then spaces e.padc width else []
  let width := if padded ∧ 0 < width then 0 else width
  let (t1, m) := strLoop fetch e.altflag (2 ^ 32 + 1) p e.precision
  ((t0.seq (Trace.emit left)).seq t1).seq (Trace.emit (spaces 32 (toI32 (width - m))))

def nullString : List Nat := [40, 110, 117, 108, 108, 41]

def errorString : Nat → Option String
  | 1 => some "unspecified error"
  | 2 => some "bad environment"
  | 3 => some "invalid parameter"
  | 4 => some "out of memory"
  | 5 => some "out of environments"
  | 6 => some "segmentation fault"
  | 7 => some "env is not recving"
  | 8 => some "unexpected end of file"
  | 9 => some "no free space on disk"
  | 10 => some "too many files are open"
  | 11 => some "file or block not found"
  | 12 => some "invalid path"
  | 13 => some "file already exists"
  | 14 => some "file is not a valid executable"
  | 15 => some "operation not supported"
  | _ => none

def bytesOf (s : String) : List Nat := s.toList.map Char.toNat

/-- `printfmt(putch, putdat, "%d", v)`. -/
def printDecimal (v : Int) (width : Int) (padc : Nat) : List Nat :=
  if v < 0 then 45 :: printnum v.natAbs 10 width padc else printnum v.natAbs 10 width padc

/-- The conversion named by `ch`; `none` for an escape the switch does not know. -/
def convert (load : Nat → Option Nat) (e : Escape) (ch : Nat) (ap : List Nat) :
    Option (Trace × List Nat) :=
  if ch = 99 then
    let (w, ap) := vaWord ap
    some (Trace.emit [w % 256], ap)
  else if ch = 101 then
    let (w, ap) := vaWord ap
    -- the negation of the least `int` wraps, and so does the index of `error_string` it gives
    let err := if toInt32 w < 0 then toI32 (-toInt32 w) else toInt32 w
    match errorString err.toNat with
    | some s => some (Trace.emit (bytesOf s), ap)
    | none => some (Trace.emit (bytesOf "error " ++ printDecimal err (-1) 32), ap)
  else if ch = 115 then
    let (p, ap) := vaWord ap
    if p = 0 then some (convString load nullString e literalBase, ap)
    else some (convString load [] e p, ap)
  else if ch = 100 then
    let (v, ap) := getint ap e.lflag
    some (Trace.emit (printDecimal v e.width e.padc), ap)
  else if ch = 117 then
    let (v, ap) := getuint ap e.lflag
    some (Trace.emit (printnum v 10 e.width e.padc), ap)
  else if ch = 111 then
    let (v, ap) := getuint ap e.lflag
    some (Trace.emit (printnum v 8 e.width e.padc), ap)
  else if ch = 112 then
    let (v, ap) := vaWord ap
    some (Trace.emit (48 :: 120 :: printnum v 16 e.width e.padc), ap)
  else if ch = 120 then
    let (v, ap) := getuint ap e.lflag
    some (Trace.emit (printnum v 16 e.width e.padc), ap)
  else if ch = 37 then some (Trace.emit [37], ap)
  else none

def vprintfmt (load : Nat → Option Nat) (fmt ap : List Nat) : Trace :=
  match fmt with
  | [] => Trace.empty
  | ch :: fmt =>
    if ch ≠ 37 then (Trace.emit [ch]).seq (vprintfmt load fmt ap)
    else
      match convert load (reswitch {} fmt ap).1 (reswitch {} fmt ap).2.1 (reswitch {} fmt ap).2.2.2 with
      | some (t, ap') => t.seq (vprintfmt load (reswitch {} fmt ap).2.2.1 ap')
      | none => (Trace.emit [37]).seq (vprintfmt load fmt (reswitch {} fmt ap).2.2.2)
termination_by fmt.length
decreasing_by
  all_goals simp only [List.length_cons]
  all_goals have := reswitch_length {} fmt ap
  all_goals omega

end Jos.Printfmt
