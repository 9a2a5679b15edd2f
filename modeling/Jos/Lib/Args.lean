import Mathlib.Data.List.Basic

/-!
# Option parsing

`argnext` returns the letters of the flags at the head of the argument vector, one with each
call. It takes an argument off the vector before it returns the first letter of it.
-/

namespace Jos.Args

/-- A string without its terminator. -/
abbrev Str := List Nat

def dash : Nat := 45

/-- `struct Argstate`, with what `argc` and `argv` point to. A null pointer is `none`. -/
structure Argstate where
  argc : Nat
  argv : Nat → Option Str
  curarg : Option Str
  argvalue : Option Str

def argstart (argc : Nat) (argv : Nat → Option Str) : Argstate :=
  ⟨argc, argv, if 1 < argc then some [] else none, none⟩

namespace Argstate

/-- `memmove` moves `argc - 1` pointers from `argv + 2` to `argv + 1`. -/
def shift (args : Argstate) : Argstate :=
  { args with
    argv := fun i => if 1 ≤ i ∧ i < 1 + (args.argc - 1) then args.argv (i + 1) else args.argv i
    argc := args.argc - 1 }

def endofargs (args : Argstate) : Int × Argstate := (-1, { args with curarg := none })

def letter (args : Argstate) (s : Str) : Int × Argstate := (s.headD 0, { args with curarg := some s.tail })

/-- The next argument; `--` is taken off the vector too. -/
def process (args : Argstate) (arg : Str) : Int × Argstate :=
  if arg.head? ≠ some dash ∨ arg.tail = [] then args.endofargs
  else if arg.tail = [dash] then args.shift.endofargs
  else args.shift.letter arg.tail

end Argstate

/-- A null pointer that is followed gives `none`. -/
def argnext (args : Argstate) : Option (Int × Argstate) :=
  let args := { args with argvalue := none }
  match args.curarg with
  | none => some (-1, args)
  | some (c :: s) => some (args.letter (c :: s))
  | some [] =>
    if args.argc = 1 then some args.endofargs
    else (args.argv 1).map args.process

def calls : Nat → Argstate → Option (List Int × Argstate)
  | 0, args => some ([], args)
  | n + 1, args => do
    let (r, args) ← argnext args
    let (rs, args) ← calls n args
    return (r :: rs, args)

/-! ## What the calls return -/

def isFlag (s : Str) : Bool := decide (s.head? = some dash ∧ 2 ≤ s.length ∧ s ≠ [dash, dash])

def letters (args : List Str) : List Nat := (args.takeWhile isFlag).flatMap List.tail

def remaining (args : List Str) : List Str :=
  if (args.dropWhile isFlag).head? = some [dash, dash] then (args.dropWhile isFlag).tail else args.dropWhile isFlag

/-- `argv` has the arguments `l` and then a null pointer. -/
def IsVector (l : List Str) (argc : Nat) (argv : Nat → Option Str) : Prop :=
  argc = l.length ∧ ∀ i ≤ argc, argv i = l[i]?

/-- The letters `cs` are still to be returned, and then `rest` is left. -/
inductive Pending (prog : Str) (rest : List Str) : List Nat → Argstate → Prop where
  | done {args : Argstate} (hcur : args.curarg = none) (h : IsVector (prog :: rest) args.argc args.argv) :
      Pending prog rest [] args
  | more {args : Argstate} {s : Str} {l : List Str} (hcur : args.curarg = some s) (hrest : remaining l = rest)
      (h : IsVector (prog :: l) args.argc args.argv) : Pending prog rest (s ++ letters l) args

section
variable {prog arg : Str} {l rest : List Str} {cs : List Nat} {args : Argstate}

lemma isVector_shift (h : IsVector (prog :: arg :: l) args.argc args.argv) :
    IsVector (prog :: l) args.shift.argc args.shift.argv := by
  obtain ⟨hargc, hargv⟩ := h
  have hlen : args.shift.argc = (prog :: l).length := by
    simp [Argstate.shift, hargc]
  refine ⟨hlen, fun i hi => ?_⟩
  simp only [hlen, List.length_cons] at hi hargc
  simp only [Argstate.shift]
  cases i with
  | zero => simp [hargv 0 (by omega)]
  | succ i =>
    rw [if_pos (by omega), hargv _ (by omega)]
    simp

lemma letters_flag (h : isFlag arg) : letters (arg :: l) = arg.tail ++ letters l := by
  simp [letters, h]

lemma remaining_flag (h : isFlag arg) : remaining (arg :: l) = remaining l := by
  simp [remaining, h]

lemma letters_stop (h : isFlag arg = false) : letters (arg :: l) = [] := by
  simp [letters, h]

lemma remaining_stop (h : isFlag arg = false) :
    remaining (arg :: l) = if arg = [dash, dash] then l else arg :: l := by
  simp [remaining, h]

/-- All the letters of the current argument have been returned. -/
theorem argnext_argument (hcur : args.curarg = some []) (h : IsVector (prog :: l) args.argc args.argv) :
    ∃ args', argnext args = some (((letters l)[0]?.map Int.ofNat).getD (-1), args') ∧
      Pending prog (remaining l) (letters l).tail args' ∧ (letters l = [] → args'.curarg = none) := by
  obtain ⟨hargc, hargv⟩ := h
  cases l with
  | nil =>
    refine ⟨{ args with argvalue := none, curarg := none }, ?_, .done rfl ⟨hargc, hargv⟩, fun _ => rfl⟩
    simp [argnext, hcur, hargc, Argstate.endofargs, letters]
  | cons arg l =>
    have hmany : args.argc ≠ 1 := by simp [hargc]
    have harg : args.argv 1 = some arg := by simp [hargv 1 (by simp [hargc])]
    have hnext : argnext args = some (Argstate.process { args with argvalue := none } arg) := by
      simp only [argnext, hcur, if_neg hmany, harg, Option.map_some]
    have hshift := @isVector_shift prog arg l { args with argvalue := none } ⟨hargc, hargv⟩
    by_cases hplain : arg.head? ≠ some dash ∨ arg.tail = []
    · have hflag : isFlag arg = false := by
        refine decide_eq_false fun hf => hplain.elim (fun h => h hf.1) fun ht => ?_
        have := congrArg List.length ht
        simp at this
        omega
      have hkeep : arg ≠ [dash, dash] := by
        rintro rfl
        simp at hplain
      rw [letters_stop hflag, remaining_stop hflag, if_neg hkeep]
      refine ⟨{ args with argvalue := none, curarg := none }, ?_, .done rfl ⟨hargc, hargv⟩, fun _ => rfl⟩
      rw [hnext, Argstate.process, if_pos hplain]
      rfl
    obtain ⟨hhead, htail⟩ := not_or.1 hplain
    obtain ⟨s, rfl⟩ : ∃ s, arg = dash :: s := List.head?_eq_some_iff.1 (not_not.1 hhead)
    rw [List.tail_cons] at htail
    by_cases hdash : s = [dash]
    · subst hdash
      rw [letters_stop rfl, remaining_stop rfl, if_pos rfl]
      refine ⟨(Argstate.shift { args with argvalue := none }).endofargs.2, ?_, .done rfl hshift, fun _ => rfl⟩
      rw [hnext, Argstate.process, if_neg hplain, List.tail_cons, if_pos rfl]
      rfl
    · obtain ⟨c, s, rfl⟩ := List.exists_cons_of_ne_nil htail
      have hflag : isFlag (dash :: c :: s) :=
        decide_eq_true ⟨rfl, by simp, fun heq => hdash (List.cons.inj heq).2⟩
      rw [letters_flag hflag, remaining_flag hflag]
      refine ⟨((Argstate.shift { args with argvalue := none }).letter (c :: s)).2, ?_, .more (s := s) rfl rfl hshift,
        fun h => by cases h⟩
      rw [hnext, Argstate.process, if_neg hplain, List.tail_cons, if_neg hdash]
      rfl

section
variable (h : Pending prog rest cs args)
include h

lemma Pending.next : ∃ args',
    argnext args = some ((cs[0]?.map Int.ofNat).getD (-1), args') ∧ Pending prog rest cs.tail args' ∧
      (cs = [] → args'.curarg = none) := by
  cases h with
  | done hcur h =>
    refine ⟨{ args with argvalue := none }, ?_, .done hcur h, fun _ => hcur⟩
    simp [argnext, hcur]
  | @more _ s l hcur hrest h =>
    subst hrest
    cases s with
    | nil => exact argnext_argument hcur h
    | cons c s =>
      refine ⟨{ args with argvalue := none, curarg := some s }, ?_, .more rfl rfl h, fun h => by cases h⟩
      simp [argnext, hcur, Argstate.letter]

lemma Pending.of_none (hcur : args.curarg = none) :
    cs = [] ∧ IsVector (prog :: rest) args.argc args.argv := by
  cases h with
  | done _ h => exact ⟨rfl, h⟩
  | more hcur' _ _ =>
    rw [hcur] at hcur'
    cases hcur'

/-- By induction on the calls: the vector is what is left once a call has found no letter. -/
theorem Pending.calls (n : Nat) : ∃ args',
    Args.calls n args = some ((List.range n).map fun i => (cs[i]?.map Int.ofNat).getD (-1), args') ∧
      (cs.length < n ∨ args.curarg = none → IsVector (prog :: rest) args'.argc args'.argv) := by
  induction n generalizing cs args with
  | zero =>
    exact ⟨args, rfl, fun hend => (h.of_none (hend.resolve_left (Nat.not_lt_zero _))).2⟩
  | succ n ih =>
    obtain ⟨args1, hnext, h1, hnone⟩ := h.next
    obtain ⟨args', hcalls, hend⟩ := ih h1
    refine ⟨args', ?_, fun h' => hend ?_⟩
    · rw [Args.calls, hnext]
      simp only [Option.bind_eq_bind, Option.bind_some, hcalls, List.range_succ_eq_map, List.map_cons, List.map_map]
      simp [Function.comp_def]
    · cases cs with
      | nil => exact .inr (hnone rfl)
      | cons c cs =>
        refine .inl (Nat.lt_of_succ_lt_succ (h'.resolve_right fun hcur => ?_))
        cases (h.of_none hcur).1

end

end

/-- The `i`-th call returns the `i`-th letter of the flags, or -1. Once a call has returned -1, the vector is the program
and the arguments that remain. -/
theorem argnext_parses_options {prog : Str} {l : List Str} {argc : Nat} {argv : Nat → Option Str}
    (h : IsVector (prog :: l) argc argv) (n : Nat) : ∃ args,
    calls n (argstart argc argv) = some ((List.range n).map fun i => ((letters l)[i]?.map Int.ofNat).getD (-1), args) ∧
      ((letters l).length < n → IsVector (prog :: remaining l) args.argc args.argv) := by
  have hpending : Pending prog (remaining l) (letters l) (argstart argc argv) := by
    cases l with
    | nil =>
      refine .done ?_ h
      simp [argstart, h.1]
    | cons arg l =>
      refine .more (s := []) ?_ rfl h
      simp [argstart, h.1]
  obtain ⟨args, hcalls, hend⟩ := hpending.calls n
  exact ⟨args, hcalls, fun hlt => hend (.inl hlt)⟩

/-- The vector `ls -lF -- -x`. -/
theorem argnext_parses_options_ls : ∃ args,
    calls 3 (argstart 4 ([[108, 115], [45, 108, 70], [45, 45], [45, 120]][·]?)) = some ([108, 70, -1], args) ∧
      IsVector [[108, 115], [45, 120]] args.argc args.argv := by
  obtain ⟨args, hcalls, hend⟩ := @argnext_parses_options [108, 115] [[45, 108, 70], [45, 45], [45, 120]] 4 _
    ⟨rfl, fun _ _ => rfl⟩ 3
  exact ⟨args, hcalls, hend (by decide)⟩

end Jos.Args
