import Jos.User.Lexer

/-!
# The shell's command line

`readline` of `lib/readline.c` and the stores of `runcmd` of `user/sh.c` into its two
buffers. What `open`, `pipe` and `fork` return is given by `ans`, one answer for each call
in the order of the calls.
-/

namespace Jos.Sh
open Function

def buflen : Nat := 1024

/-- The loop of `readline`, with `buf` the characters stored so far: `none` as long as it waits, and `some none`
where it returns `NULL`. A result of `getchar` that is negative is `none`. -/
def readlineLoop (buf : List Nat) : List (Option UInt8) → Option (Option (List Nat))
  | [] => none
  | none :: _ => some none
  | some c :: input =>
    if (c = 8 ∨ c = 127) ∧ 0 < buf.length then readlineLoop buf.dropLast input
    else if 32 ≤ c ∧ buf.length < buflen - 1 then readlineLoop (buf ++ [c.toNat]) input
    else if c = 10 ∨ c = 13 then some (some buf)
    else readlineLoop buf input

def readline (input : List (Option UInt8)) : Option (Option (List Nat)) := readlineLoop [] input

def maxargs : Nat := 16

def bufsiz : Nat := 1024

inductive Stored where
  | argv (i : Nat)
  | argv0buf (i : Nat)

def Stored.InBounds : Stored → Prop
  | .argv i => i < maxargs
  | .argv0buf i => i < bufsiz

structure Shell where
  lexer : Lexer
  argc : Nat
  argv : Nat → Nat
  calls : Nat
  stores : List Stored

inductive End where
  | exit
  | panic
  | runit
  deriving DecidableEq

/-- `argv[argc++] = t;` -/
def Shell.push (sh : Shell) (t : Nat) : Shell :=
  { sh with argv := update sh.argv sh.argc t, argc := sh.argc + 1, stores := sh.stores ++ [.argv sh.argc] }

def parse (fuel : Nat) (ans : Nat → Int) : Nat → Shell → Option (End × Shell)
  | 0, _ => none
  | n + 1, sh => do
    let (c, t, lexer) ← gettoken fuel 0 sh.lexer
    let sh := { sh with lexer := lexer }
    if c = word then
      if sh.argc = maxargs then some (.exit, sh)
      else parse fuel ans n (sh.push (t.getD 0))
    else if c = 60 ∨ c = 62 then do
      -- both redirections read a word and open it
      let (c, _, lexer) ← gettoken fuel 0 sh.lexer
      let sh := { sh with lexer := lexer }
      if c ≠ word then some (.exit, sh)
      else if ans sh.calls < 0 then some (.exit, sh)
      else parse fuel ans n { sh with calls := sh.calls + 1 }
    else if c = 124 then
      if ans sh.calls < 0 then some (.exit, sh)
      else if ans (sh.calls + 1) < 0 then some (.exit, sh)
      else if ans (sh.calls + 1) = 0 then parse fuel ans n { sh with argc := 0, calls := sh.calls + 2 }
      else some (.runit, sh)
    else if c = 0 then some (.runit, sh)
    else some (.panic, sh)

def strcpyCount : Nat → Nat → Mem → Option Nat
  | 0, _, _ => none
  | n + 1, a, m => if m a = 0 then some 1 else (· + 1) <$> strcpyCount n (a + 1) m

def runit (fuel : Nat) (sh : Shell) : Option (List Stored) :=
  if sh.argc = 0 then some []
  else if sh.lexer.mem (sh.argv 0) ≠ 47 then do
    let n ← strcpyCount fuel (sh.argv 0) sh.lexer.mem
    some (.argv0buf 0 :: (List.range n).map (fun j => .argv0buf (1 + j)) ++ [.argv 0, .argv sh.argc])
  else some [.argv sh.argc]

/-- The stores of `runcmd(s)`. -/
def runcmd (fuel : Nat) (ans : Nat → Int) (s : Nat) (l : Lexer) : Option (List Stored) := do
  let (_, _, l) ← gettoken fuel s l
  let (e, sh) ← parse fuel ans fuel ⟨l, 0, fun _ => 0, 0, []⟩
  if e = .runit then (sh.stores ++ ·) <$> runit fuel sh
  else some sh.stores

/-! ## The arguments of a command -/

/-- The arguments the loop of `runcmd` has collected when it leaves for `runit`, from the tokens; `redirect` says that
a redirection waits for its word and `k` how many answers are used. -/
def arguments (ans : Nat → Int) : List Token → Bool → Nat → List (List Nat) → Option (List (List Nat))
  | [], redirect, _, args => if redirect then none else some args
  | .word w :: ts, redirect, k, args =>
    if redirect then if ans k < 0 then none else arguments ans ts false (k + 1) args
    else if args.length = maxargs then none
    else arguments ans ts false k (args ++ [w])
  | .symbol c :: ts, redirect, k, args =>
    if redirect then none
    else if c = 60 ∨ c = 62 then arguments ans ts true k args
    else if c = 124 then
      if ans k < 0 ∨ ans (k + 1) < 0 then none
      else if ans (k + 1) = 0 then arguments ans ts false (k + 2) []
      else some args
    else none

/-- The arguments fit into `argv` with the null after them, and the command with a slash before it into `argv0buf`. -/
def Fits (args : List (List Nat)) : Prop :=
  args.length < maxargs ∧ ∀ w, args.head? = some w → w.head? ≠ some 47 → w.length + 1 < bufsiz

structure Collected (fuel : Nat) (sh : Shell) (args : List (List Nat)) : Prop where
  argc : sh.argc = args.length
  le : args.length ≤ maxargs
  argv : ∀ i w, args[i]? = some w → Kept sh.lexer (sh.argv i) w ∧ w.length < fuel
  stores : ∀ x ∈ sh.stores, x.InBounds

def Token.Ok (n : Nat) : Token → Prop
  | .word w => w.length < n
  | .symbol c => c ∈ symbols

lemma tokens_ok {cs : List Nat} {n : Nat} (hn : cs.length < n) : ∀ t ∈ tokens cs, t.Ok n := by
  fun_induction tokens cs with
  | case1 => simp
  | case2 c cs hblank ih => exact ih (Nat.lt_of_succ_lt hn)
  | case3 c cs hblank hsym ih =>
    refine List.forall_mem_cons.mpr ⟨?_, ih (Nat.lt_of_succ_lt hn)⟩
    simpa [Token.Ok, strchr] using hsym
  | case4 c cs hblank hsym ih =>
    refine List.forall_mem_cons.mpr ⟨?_, ih (Nat.lt_trans (dropWhile_length_lt cs c) hn)⟩
    exact Nat.lt_of_le_of_lt (Nat.succ_le_succ (List.takeWhile_sublist plain).length_le) hn

lemma tokens_length (cs : List Nat) : (tokens cs).length ≤ cs.length := by
  fun_induction tokens cs with
  | case1 => exact Nat.le_refl 0
  | case2 c cs hblank ih => exact Nat.le_succ_of_le ih
  | case3 c cs hblank hsym ih => exact Nat.succ_le_succ ih
  | case4 c cs hblank hsym ih => exact Nat.succ_le_of_lt (Nat.lt_of_le_of_lt ih (dropWhile_length_lt cs c))

section
variable {fuel : Nat} {sh : Shell} {args : List (List Nat)}

lemma Collected.lex (h : Collected fuel sh args) {l : Lexer} (hkeep : ∀ a w, Kept sh.lexer a w → Kept l a w) :
    Collected fuel { sh with lexer := l } args :=
  ⟨h.argc, h.le, fun i w hw => ⟨hkeep _ _ (h.argv i w hw).1, (h.argv i w hw).2⟩, h.stores⟩

lemma Collected.push (h : Collected fuel sh args) (hroom : args.length ≠ maxargs) {t : Nat} {w : List Nat}
    (hw : Kept sh.lexer t w) (hshort : w.length < fuel) : Collected fuel (sh.push t) (args ++ [w]) := by
  have hlt : args.length < maxargs := Nat.lt_of_le_of_ne h.le hroom
  refine ⟨?_, ?_, ?_, ?_⟩
  · rw [List.length_append]
    exact congrArg (· + 1) h.argc
  · rw [List.length_append]
    exact hlt
  · intro i w' hw'
    show Kept sh.lexer (update sh.argv sh.argc t i) w' ∧ _
    rcases Nat.lt_trichotomy i args.length with hi | rfl | hi
    · rw [List.getElem?_append_left hi] at hw'
      rw [update_of_ne (by rw [h.argc]; exact Nat.ne_of_lt hi)]
      exact h.argv i w' hw'
    · obtain rfl : w = w' := by simpa using hw'
      rw [h.argc, update_self]
      exact ⟨hw, hshort⟩
    · rw [List.getElem?_eq_none (by rw [List.length_append]; exact hi)] at hw'
      exact absurd hw' (by simp)
  · intro x hx
    rcases List.mem_append.mp hx with hx | hx
    · exact h.stores x hx
    · obtain rfl : x = .argv sh.argc := by simpa using hx
      show sh.argc < maxargs
      rw [h.argc]
      exact hlt

def Ends (fuel : Nat) (r : Option (List (List Nat))) (e : End) (sh : Shell) : Prop :=
  (∀ x ∈ sh.stores, x.InBounds) ∧
    match r with
    | some args => e = .runit ∧ Collected fuel sh args
    | none => e ≠ .runit

section
variable (h : Collected fuel sh args)
include h

lemma Collected.leaves {e : End} (he : e ≠ .runit) : Ends fuel none e sh := ⟨h.stores, he⟩

lemma Collected.runs : Ends fuel (some args) .runit sh := ⟨h.stores, rfl, h⟩

lemma Collected.nil (k : Nat) : Collected fuel { sh with argc := 0, calls := k } [] :=
  ⟨rfl, Nat.zero_le _, fun i w hw => absurd hw (by simp), h.stores⟩

end

section
variable {ans : Nat → Int} {n : Nat} {t : Option Nat} {l : Lexer}

lemma parse_word (hcall : gettoken fuel 0 sh.lexer = some (word, t, l)) : parse fuel ans (n + 1) sh =
    if sh.argc = maxargs then some (.exit, { sh with lexer := l })
    else parse fuel ans n ({ sh with lexer := l }.push (t.getD 0)) := by
  rw [parse, hcall]
  rfl

lemma parse_redirect {c c' : Nat} {t' : Option Nat} {l' : Lexer} (hc : c = 60 ∨ c = 62)
    (hcall : gettoken fuel 0 sh.lexer = some (c, t, l)) (hcall' : gettoken fuel 0 l = some (c', t', l')) :
    parse fuel ans (n + 1) sh =
      if c' ≠ word then some (.exit, { sh with lexer := l' })
      else if ans sh.calls < 0 then some (.exit, { sh with lexer := l' })
      else parse fuel ans n { sh with lexer := l', calls := sh.calls + 1 } := by
  rw [parse, hcall]
  have hne : c ≠ word := by rcases hc with rfl | rfl <;> decide
  simp only [Option.bind_eq_bind, Option.bind_some]
  rw [if_neg hne, if_pos hc, hcall']
  rfl

lemma parse_pipe (hcall : gettoken fuel 0 sh.lexer = some (124, t, l)) : parse fuel ans (n + 1) sh =
    if ans sh.calls < 0 then some (.exit, { sh with lexer := l })
    else if ans (sh.calls + 1) < 0 then some (.exit, { sh with lexer := l })
    else if ans (sh.calls + 1) = 0 then parse fuel ans n { sh with lexer := l, argc := 0, calls := sh.calls + 2 }
    else some (.runit, { sh with lexer := l }) := by
  rw [parse, hcall]
  rfl

lemma parse_end (hcall : gettoken fuel 0 sh.lexer = some (0, t, l)) :
    parse fuel ans (n + 1) sh = some (.runit, { sh with lexer := l }) := by
  rw [parse, hcall]
  rfl

lemma parse_other {c : Nat} (hc : c = 38 ∨ c = 59 ∨ c = 40 ∨ c = 41) (hcall : gettoken fuel 0 sh.lexer = some (c, t, l)) :
    parse fuel ans (n + 1) sh = some (.panic, { sh with lexer := l }) := by
  rw [parse, hcall]
  rcases hc with rfl | rfl | rfl | rfl <;> rfl

end

lemma parse_spec (ans : Nat → Int) (n : Nat) {ts : List Token} (h : Ahead fuel sh.lexer ts) (hn : ts.length < n)
    (hok : ∀ t ∈ ts, t.Ok fuel) (hsh : Collected fuel sh args) :
    ∃ e sh', parse fuel ans n sh = some (e, sh') ∧ Ends fuel (arguments ans ts false sh.calls args) e sh' := by
  induction n generalizing sh ts args with
  | zero => exact absurd hn (Nat.not_lt_zero _)
  | succ n ih =>
    obtain ⟨l1, hcall, hahead, hword, hkeep⟩ := gettoken_step h
    have hsh1 := hsh.lex hkeep
    cases ts with
    | nil => exact ⟨.runit, _, parse_end hcall, hsh1.runs⟩
    | cons t ts =>
      obtain ⟨hok1, hok'⟩ := List.forall_mem_cons.mp hok
      have hn' : ts.length < n := Nat.lt_of_succ_lt_succ hn
      cases t with
      | word w =>
        rw [parse_word hcall, arguments, if_neg Bool.false_ne_true]
        by_cases hfull : args.length = maxargs
        · rw [if_pos (hsh.argc.trans hfull), if_pos hfull]
          exact ⟨.exit, _, rfl, hsh1.leaves (by decide)⟩
        · rw [if_neg (by rw [hsh.argc]; exact hfull), if_neg hfull]
          exact ih hahead hn' hok' (hsh1.push hfull (hword w rfl) hok1)
      | symbol c =>
        rw [arguments, if_neg Bool.false_ne_true]
        by_cases hredirect : c = 60 ∨ c = 62
        · -- the word of a redirection is read in the same round
          obtain ⟨l2, hcall2, hahead2, -, hkeep2⟩ := gettoken_step hahead
          have hsh2 := hsh1.lex hkeep2
          rw [if_pos hredirect]
          have hround := @parse_redirect fuel sh ans n _ _ _ _ _ _ hredirect hcall hcall2
          cases ts with
          | nil => exact ⟨.exit, _, hround.trans (if_pos (show 0 ≠ Sh.word by decide)), hsh2.leaves (by decide)⟩
          | cons t ts =>
            obtain ⟨hok2, hok''⟩ := List.forall_mem_cons.mp hok'
            cases t with
            | symbol c' =>
              have hne : c' ≠ Sh.word := by
                rintro rfl
                exact absurd (show Sh.word ∈ symbols from hok2) (by decide)
              exact ⟨.exit, _, hround.trans (if_pos hne), hsh2.leaves (by decide)⟩
            | word w =>
              rw [hround.trans (if_neg fun hne => hne rfl), arguments, if_pos rfl]
              by_cases hopen : ans sh.calls < 0
              · rw [if_pos hopen, if_pos hopen]
                exact ⟨.exit, _, rfl, hsh2.leaves (by decide)⟩
              · rw [if_neg hopen, if_neg hopen]
                exact ih hahead2 (Nat.lt_of_succ_lt hn') hok'' ⟨hsh2.argc, hsh2.le, hsh2.argv, hsh2.stores⟩
        rw [if_neg hredirect]
        by_cases hpipe : c = 124
        · subst hpipe
          rw [if_pos rfl, parse_pipe hcall]
          by_cases h1 : ans sh.calls < 0
          · rw [if_pos h1, if_pos (.inl h1)]
            exact ⟨.exit, _, rfl, hsh1.leaves (by decide)⟩
          by_cases h2 : ans (sh.calls + 1) < 0
          · rw [if_neg h1, if_pos h2, if_pos (.inr h2)]
            exact ⟨.exit, _, rfl, hsh1.leaves (by decide)⟩
          rw [if_neg h1, if_neg h2, if_neg (not_or.mpr ⟨h1, h2⟩)]
          by_cases hchild : ans (sh.calls + 1) = 0
          · rw [if_pos hchild, if_pos hchild]
            exact ih hahead hn' hok' (hsh1.nil _)
          · rw [if_neg hchild, if_neg hchild]
            exact ⟨.runit, _, rfl, hsh1.runs⟩
        · rw [if_neg hpipe]
          have hother : c = 38 ∨ c = 59 ∨ c = 40 ∨ c = 41 := by
            have hmem : c ∈ symbols := hok1
            simp only [symbols, List.mem_cons, List.not_mem_nil, or_false] at hmem
            omega
          exact ⟨.panic, _, parse_other hother hcall, hsh1.leaves (by decide)⟩

lemma strcpyCount_spec {m : Mem} {a : Nat} {w : List Nat} {n : Nat} (h : IsString m a w) (hn : w.length < n) :
    strcpyCount n a m = some (w.length + 1) := by
  induction w generalizing a n with
  | nil =>
    obtain ⟨n, rfl⟩ := Nat.exists_eq_succ_of_ne_zero (Nat.ne_of_gt hn)
    rw [strcpyCount, if_pos (IsString.nil_iff.mp h)]
    rfl
  | cons c w ih =>
    obtain ⟨n, rfl⟩ := Nat.exists_eq_succ_of_ne_zero (Nat.ne_of_gt (Nat.zero_lt_of_lt hn))
    obtain ⟨hc, ha, hrest⟩ := IsString.cons_iff.mp h
    rw [strcpyCount, if_neg (by rw [ha]; exact hc), ih hrest (Nat.lt_of_succ_lt_succ hn)]
    rfl

lemma runit_spec (h : Collected fuel sh args) :
    ∃ stores, runit fuel sh = some stores ∧ ((∀ x ∈ stores, x.InBounds) ↔ Fits args) := by
  unfold runit Fits
  cases args with
  | nil =>
    rw [if_pos (show sh.argc = 0 from h.argc)]
    exact ⟨[], rfl, by simp [maxargs]⟩
  | cons w args =>
    obtain ⟨⟨hstring, -⟩, hshort⟩ := h.argv 0 w rfl
    have hargc : sh.argc ≠ 0 := by
      rw [h.argc]
      exact Nat.succ_ne_zero _
    have hslash : sh.lexer.mem (sh.argv 0) ≠ 47 ↔ w.head? ≠ some 47 := by
      rw [hstring.first]
      cases w <;> simp
    have hlast : (Stored.argv sh.argc).InBounds ↔ (w :: args).length < maxargs := by
      rw [← h.argc]
      rfl
    rw [if_neg hargc]
    by_cases hrel : sh.lexer.mem (sh.argv 0) ≠ 47
    · rw [if_pos hrel, strcpyCount_spec hstring hshort]
      refine ⟨_, rfl, ?_⟩
      constructor
      · intro hall
        refine ⟨hlast.mp (hall _ (by simp)), fun w' hw' _ => ?_⟩
        obtain rfl : w = w' := by simpa using hw'
        have hlength : (Stored.argv0buf (1 + w.length)).InBounds := hall _ (by simp)
        rw [Nat.add_comm]
        exact hlength
      · rintro ⟨hargs, hcopy⟩ x hx
        have hlt := hcopy w rfl (hslash.mp hrel)
        simp only [List.mem_append, List.mem_cons, List.mem_map, List.mem_range, List.not_mem_nil, or_false] at hx
        rcases hx with (rfl | ⟨j, hj, rfl⟩) | rfl | rfl
        · show 0 < bufsiz
          decide
        · show 1 + j < bufsiz
          omega
        · show 0 < maxargs
          decide
        · exact hlast.mpr hargs
    · rw [if_neg hrel]
      refine ⟨_, rfl, ?_⟩
      rw [List.forall_mem_singleton, hlast]
      refine ⟨fun hargs => ⟨hargs, fun w' hw' habs => ?_⟩, And.left⟩
      obtain rfl : w = w' := by simpa using hw'
      exact absurd (hslash.mpr habs) hrel

end

/-- The stores of `runcmd` are in bounds exactly where the arguments it runs the command with fit. -/
theorem runcmd_spec {l : Lexer} {s fuel : Nat} {cs : List Nat} (ans : Nat → Int) (hs : s ≠ 0) (h : IsString l.mem s cs)
    (hfuel : cs.length < fuel) : ∃ stores, runcmd fuel ans s l = some stores ∧
      ((∀ x ∈ stores, x.InBounds) ↔ ∀ args, arguments ans (tokens cs) false 0 [] = some args → Fits args) := by
  obtain ⟨l0, hscan, hahead, -⟩ := _gettoken_spec hs h hfuel
  have hstart : gettoken fuel s l = some (0, none, l0) := by
    rw [gettoken, if_pos hs, hscan]
    rfl
  have hempty : Collected fuel ⟨l0, 0, fun _ => 0, 0, []⟩ [] := ⟨rfl, Nat.zero_le _, by simp, by simp⟩
  obtain ⟨e, sh, hparse, hstores, hend⟩ := parse_spec ans fuel hahead (Nat.lt_of_le_of_lt (tokens_length cs) hfuel)
    (tokens_ok hfuel) hempty
  unfold runcmd
  rw [hstart]
  simp only [Option.bind_eq_bind, Option.bind_some, hparse]
  cases harg : arguments ans (tokens cs) false 0 [] with
  | none =>
    rw [harg] at hend
    rw [if_neg hend]
    exact ⟨sh.stores, rfl, by simpa using hstores⟩
  | some args =>
    rw [harg] at hend
    obtain ⟨rfl, hsh⟩ := hend
    obtain ⟨stores, hrun, hiff⟩ := runit_spec hsh
    rw [if_pos rfl, hrun]
    refine ⟨sh.stores ++ stores, rfl, ?_⟩
    rw [List.forall_mem_append, hiff]
    exact ⟨fun hfits args' heq => Option.some.inj heq ▸ hfits.2, fun hfits => ⟨hstores, hfits args rfl⟩⟩

/-! ## Lines -/

lemma readlineLoop_line {input : List (Option UInt8)} {buf line : List Nat} (h : readlineLoop buf input = some (some line))
    (hlen : buf.length < buflen) (hchars : ∀ c ∈ buf, 32 ≤ c) : line.length < buflen ∧ ∀ c ∈ line, 32 ≤ c := by
  induction input generalizing buf with
  | nil => cases h
  | cons c input ih =>
    cases c with
    | none => cases h
    | some c =>
      rw [readlineLoop] at h
      split at h
      · refine ih h ?_ fun x hx => hchars x ((List.dropLast_sublist buf).subset hx)
        rw [List.length_dropLast]
        exact Nat.lt_of_le_of_lt (Nat.sub_le _ _) hlen
      split at h
      · rename_i hstore
        refine ih h ?_ ?_
        · rw [List.length_append]
          exact Nat.add_lt_of_lt_sub hstore.2
        · intro x hx
          rcases List.mem_append.mp hx with hx | hx
          · exact hchars x hx
          · obtain rfl : x = c.toNat := by simpa using hx
            exact UInt8.le_iff_toNat_le.mp hstore.1
      split at h
      · obtain rfl := Option.some.inj (Option.some.inj h)
        exact ⟨hlen, hchars⟩
      · exact ih h hlen hchars

lemma readline_line {input : List (Option UInt8)} {line : List Nat} (h : readline input = some (some line)) :
    line.length < buflen ∧ ∀ c ∈ line, 32 ≤ c :=
  readlineLoop_line h (by decide) (by simp)

def typed (line : List Nat) : List (Option UInt8) := line.map (fun c => some c.toUInt8) ++ [some 10]

section
variable {line : List Nat} (hchars : ∀ c ∈ line, 32 ≤ c ∧ c < 127)
include hchars

lemma readlineLoop_typed (buf : List Nat) (hlen : buf.length + line.length < buflen) : readlineLoop buf (typed line) = some (some (buf ++ line)) := by
  induction line generalizing buf with
  | nil =>
    rw [List.append_nil]
    rfl
  | cons c line ih =>
    obtain ⟨⟨hlo, hhi⟩, hrest⟩ := List.forall_mem_cons.mp hchars
    rw [List.length_cons] at hlen
    have hc : c.toUInt8.toNat = c := by
      rw [Nat.toUInt8, UInt8.toNat_ofNat']
      omega
    have hdel : ¬ ((c.toUInt8 = 8 ∨ c.toUInt8 = 127) ∧ 0 < buf.length) := by
      rintro ⟨h | h, -⟩
      · rw [h] at hc
        exact absurd hlo (by rw [← hc]; decide)
      · rw [h] at hc
        exact absurd hhi (by rw [← hc]; decide)
    have hstore : 32 ≤ c.toUInt8 ∧ buf.length < buflen - 1 := by
      refine ⟨UInt8.le_iff_toNat_le.mpr ?_, by omega⟩
      rw [hc]
      exact hlo
    show readlineLoop buf (some c.toUInt8 :: typed line) = _
    rw [readlineLoop, if_neg hdel, if_pos hstore, hc, ih hrest (buf ++ [c]) (by rw [List.length_append]; simp; omega)]
    simp

lemma readline_typed (hlen : line.length < buflen) :
    readline (typed line) = some (some line) :=
  readlineLoop_typed hchars [] (by simpa using hlen)

end

/-- The stores of `runcmd` on a line from `readline` are in bounds exactly where the arguments it runs the command
with fit. -/
theorem runcmd_in_bounds_iff {input : List (Option UInt8)} {text : List Nat} {l : Lexer} {s fuel : Nat} (ans : Nat → Int)
    (hread : readline input = some (some text)) (hs : s ≠ 0)
    (hbuf : ∀ i, i ≤ text.length → l.mem (s + i) = text[i]?.getD 0) (hfuel : text.length < fuel) :
    ∃ stores, runcmd fuel ans s l = some stores ∧
      ((∀ x ∈ stores, x.InBounds) ↔ ∀ args, arguments ans (tokens text) false 0 [] = some args → Fits args) :=
  runcmd_spec ans hs ⟨fun c hc => Nat.ne_of_gt (Nat.lt_of_lt_of_le (by decide) ((readline_line hread).2 c hc)), hbuf⟩ hfuel

lemma lexerOn_buf (cs : List Nat) (i : Nat) : (lexerOn cs).mem (100 + i) = cs[i]?.getD 0 := by
  have hi : ¬ 100 + i < 100 := by omega
  simp [lexerOn, hi]

theorem runcmd_in_bounds_letter : ∃ stores, runcmd 2 (fun _ => 0) 100 (lexerOn [97]) = some stores ∧
    ∀ x ∈ stores, x.InBounds := by
  have htokens : tokens [97] = [.word [97]] := by simp [tokens, strchr, whitespace, symbols]
  obtain ⟨stores, hrun, hiff⟩ := runcmd_in_bounds_iff (fun _ => 0) (readline_typed (by decide : ∀ c ∈ [97], 32 ≤ c ∧ c < 127)
    (by decide)) (by decide : 100 ≠ 0) (fun i _ => lexerOn_buf [97] i) (by decide : 1 < 2)
  refine ⟨stores, hrun, hiff.mpr ?_⟩
  rw [htokens]
  rintro args ⟨⟩
  exact ⟨by decide, by rintro w ⟨⟩ -; decide⟩

def letters (n : Nat) : List Nat := (List.replicate n [97, 32]).flatten

lemma tokens_letters (n : Nat) : tokens (letters n) = List.replicate n (.word [97]) := by
  induction n with
  | zero => rw [letters, List.replicate_zero, List.flatten_nil, tokens, List.replicate_zero]
  | succ n ih =>
    have hsplit : letters (n + 1) = 97 :: 32 :: letters n := by simp [letters, List.replicate_succ]
    have hword : tokens (97 :: 32 :: letters n) = .word [97] :: tokens (32 :: letters n) := by
      simp [tokens_word, strchr, whitespace, symbols, plain]
    have hblank : tokens (32 :: letters n) = tokens (letters n) := by simp [tokens, strchr, whitespace]
    rw [hsplit, hword, hblank, ih, List.replicate_succ]

lemma tokens_longWord (n : Nat) : tokens (List.replicate (n + 1) 97) = [.word (List.replicate (n + 1) 97)] := by
  have hplain : plain 97 := by decide
  rw [List.replicate_succ, tokens_word _ (by decide) (by decide), ← List.replicate_succ, List.takeWhile_replicate,
    List.dropWhile_replicate, if_pos hplain, if_pos hplain, tokens]

/-- Sixteen words put a null behind the end of `argv`, and a word as long as a line its last 0 behind the end of
`argv0buf`. -/
theorem runcmd_overruns :
    (readline (typed (letters 16)) = some (some (letters 16)) ∧
      ∃ stores, runcmd 1024 (fun _ => 0) 100 (lexerOn (letters 16)) = some stores ∧ ¬ ∀ x ∈ stores, x.InBounds) ∧
    readline (typed (List.replicate 1023 97)) = some (some (List.replicate 1023 97)) ∧
      ∃ stores, runcmd 1024 (fun _ => 0) 100 (lexerOn (List.replicate 1023 97)) = some stores ∧
        ¬ ∀ x ∈ stores, x.InBounds := by
  have hlong : ∀ c ∈ List.replicate 1023 97, c = 97 := fun c hc => (List.mem_replicate.mp hc).2
  refine ⟨⟨readline_typed (by decide) (by decide), ?_⟩,
    readline_typed (fun c hc => by rw [hlong c hc]; decide) (by rw [List.length_replicate]; decide), ?_⟩
  · obtain ⟨stores, hrun, hiff⟩ := runcmd_spec (fun _ => 0) (by decide : 100 ≠ 0)
      (lexerOn_string (by decide : ∀ c ∈ letters 16, c ≠ 0)) (by decide : (letters 16).length < 1024)
    refine ⟨stores, hrun, fun hall => ?_⟩
    have hfits := hiff.mp hall (List.replicate 16 [97]) (by rw [tokens_letters]; rfl)
    exact absurd hfits.1 (by decide)
  · obtain ⟨stores, hrun, hiff⟩ := runcmd_spec (fun _ => 0) (by decide : 100 ≠ 0)
      (lexerOn_string fun c hc => by rw [hlong c hc]; decide)
      (show (List.replicate 1023 97).length < 1024 by rw [List.length_replicate]; decide)
    refine ⟨stores, hrun, fun hall => ?_⟩
    have hfits := hiff.mp hall [List.replicate 1023 97] (by rw [tokens_longWord 1022]; rfl)
    have hlt := hfits.2 (List.replicate 1023 97) rfl (by simp)
    rw [List.length_replicate] at hlt
    exact absurd hlt (by decide)

end Jos.Sh
