import Jos.Base.CString

/-!
# The shell's lexer

`_gettoken` and `gettoken` of `user/sh.c`. A loop over the characters of a string has a
number of rounds it may take.
-/

namespace Jos.Sh
open Function

abbrev Mem := Nat → Nat

/-- Whether `strchr(s, c)` is not null. -/
def strchr (s : List Nat) (c : Nat) : Bool := s.any (· == c)

def whitespace : List Nat := [32, 9, 13, 10]

def symbols : List Nat := [60, 124, 62, 38, 59, 40, 41]

/-- `while (strchr(WHITESPACE, *s)) *s++ = 0;` -/
def skipBlanks : Nat → Nat → Mem → Option (Nat × Mem)
  | 0, _, _ => none
  | n + 1, s, m =>
    if strchr whitespace (m s) then skipBlanks n (s + 1) (update m s 0)
    else some (s, m)

/-- `while (*s && !strchr(WHITESPACE SYMBOLS, *s)) s++;` -/
def wordEnd : Nat → Nat → Mem → Option Nat
  | 0, _, _ => none
  | n + 1, s, m =>
    if m s ≠ 0 ∧ strchr (whitespace ++ symbols) (m s) = false then wordEnd n (s + 1) m
    else some s

def word : Nat := 119

structure Lexer where
  mem : Mem
  nc : Nat
  np1 : Nat
  np2 : Nat

/-- `nc = _gettoken(s, &np1, &np2)` -/
def _gettoken (fuel s : Nat) (l : Lexer) : Option Lexer :=
  if s = 0 then some { l with nc := 0 }
  else do
    let (s, m) ← skipBlanks fuel s l.mem
    if m s = 0 then some ⟨m, 0, 0, 0⟩
    else if strchr symbols (m s) then some ⟨update m s 0, m s, s, s + 1⟩
    else do
      let e ← wordEnd fuel s m
      some ⟨m, word, s, e⟩

/-- `gettoken(s, &t)`: what it returns, `t` if it is set, and the lexer. -/
def gettoken (fuel s : Nat) (l : Lexer) : Option (Nat × Option Nat × Lexer) :=
  if s ≠ 0 then (fun l' => (0, none, l')) <$> _gettoken fuel s l
  else (fun l' => (l.nc, some l.np1, l')) <$> _gettoken fuel l.np2 l

/-! ## The tokens of a string -/

inductive Token where
  | symbol (c : Nat)
  | word (w : List Nat)
  deriving DecidableEq

def Token.id : Token → Nat
  | .symbol c => c
  | .word _ => Sh.word

def plain (c : Nat) : Bool := !strchr (whitespace ++ symbols) c

lemma plain_eq (c : Nat) : plain c = (!strchr whitespace c && !strchr symbols c) := by
  simp [plain, strchr]

lemma dropWhile_length_lt (cs : List Nat) (c : Nat) : (cs.dropWhile plain).length < (c :: cs).length :=
  Nat.lt_succ_of_le (List.dropWhile_sublist plain).length_le

def tokens : List Nat → List Token
  | [] => []
  | c :: cs =>
    if strchr whitespace c then tokens cs
    else if strchr symbols c then .symbol c :: tokens cs
    else .word (c :: cs.takeWhile plain) :: tokens (cs.dropWhile plain)
  termination_by cs => cs.length
  decreasing_by
    · exact Nat.lt_succ_self _
    · exact Nat.lt_succ_self _
    · exact dropWhile_length_lt cs c

def AtBreak (cs : List Nat) : Prop := ∀ c, cs.head? = some c → plain c = false

lemma atBreak_dropWhile (cs : List Nat) : AtBreak (cs.dropWhile plain) := by
  intro c hc
  have := List.head?_dropWhile_not plain cs
  rw [hc] at this
  exact this

section
variable {m : Mem} {s : Nat} {cs : List Nat}

structure Skipped (m : Mem) (s : Nat) (cs : List Nat) (s' : Nat) (m' : Mem) (cs' : List Nat) : Prop where
  le : s ≤ s'
  string : IsString m' s' cs'
  same : tokens cs' = tokens cs
  first : ∀ c, cs'.head? = some c → strchr whitespace c = false
  cleared : s < s' → m' s = 0
  before : ∀ x, x < s → m' x = m x
  length : cs'.length ≤ cs.length
  unmoved : s = s' → cs' = cs

lemma strchr_zero : strchr whitespace 0 = false := rfl

lemma skipBlanks_spec {fuel : Nat} (h : IsString m s cs) (hfuel : cs.length < fuel) :
    ∃ s' m' cs', skipBlanks fuel s m = some (s', m') ∧ Skipped m s cs s' m' cs' := by
  induction cs generalizing m s fuel with
  | nil =>
    obtain ⟨n, rfl⟩ := Nat.exists_eq_succ_of_ne_zero (Nat.ne_of_gt hfuel)
    have h0 := IsString.nil_iff.mp h
    refine ⟨s, m, [], ?_, ⟨Nat.le_refl s, h, rfl, by simp, fun hlt => absurd hlt (Nat.lt_irrefl s), fun _ _ => rfl,
      (Nat.le_refl _), fun _ => rfl⟩⟩
    rw [skipBlanks, h0, strchr_zero]
    rfl
  | cons c cs ih =>
    obtain ⟨n, rfl⟩ := Nat.exists_eq_succ_of_ne_zero (Nat.ne_of_gt (Nat.zero_lt_of_lt hfuel))
    obtain ⟨hc, hs, hrest⟩ := IsString.cons_iff.mp h
    rw [skipBlanks, hs]
    by_cases hblank : strchr whitespace c
    · rw [if_pos hblank]
      have hrest' : IsString (update m s 0) (s + 1) cs := hrest.congr fun x hx _ =>
        update_of_ne (by omega) 0 m
      obtain ⟨s', m', cs', hrun, hsk⟩ := ih hrest' (Nat.lt_of_succ_lt_succ hfuel)
      have hcleared : m' s = 0 := by
        rw [hsk.before s (Nat.lt_succ_self s)]
        exact update_self s 0 m
      refine ⟨s', m', cs', hrun, Nat.le_of_succ_le hsk.le, hsk.string, ?_, hsk.first, fun _ => hcleared, ?_,
        Nat.le_succ_of_le hsk.length, fun heq => absurd hsk.le (by omega)⟩
      · rw [hsk.same]
        simp [tokens, hblank]
      · intro x hx
        rw [hsk.before x (Nat.lt_succ_of_lt hx)]
        exact update_of_ne (Nat.ne_of_lt hx) 0 m
    · rw [if_neg hblank]
      refine ⟨s, m, c :: cs, rfl, ⟨Nat.le_refl s, h, rfl, ?_, fun hlt => absurd hlt (Nat.lt_irrefl s), fun _ _ => rfl,
        (Nat.le_refl _), fun _ => rfl⟩⟩
      intro x hx
      obtain rfl : c = x := by simpa using hx
      exact Bool.eq_false_iff.mpr hblank

lemma wordEnd_spec {fuel : Nat} (h : IsString m s cs) (hfuel : cs.length < fuel) :
    wordEnd fuel s m = some (s + (cs.takeWhile plain).length) ∧ IsString m (s + (cs.takeWhile plain).length) (cs.dropWhile plain) := by
  induction cs generalizing s fuel with
  | nil =>
    obtain ⟨n, rfl⟩ := Nat.exists_eq_succ_of_ne_zero (Nat.ne_of_gt hfuel)
    refine ⟨?_, h⟩
    rw [wordEnd, IsString.nil_iff.mp h]
    rfl
  | cons c cs ih =>
    obtain ⟨n, rfl⟩ := Nat.exists_eq_succ_of_ne_zero (Nat.ne_of_gt (Nat.zero_lt_of_lt hfuel))
    obtain ⟨hc, hs, hrest⟩ := IsString.cons_iff.mp h
    rw [wordEnd, hs]
    by_cases hplain : plain c
    · obtain ⟨hrun, hend⟩ := ih hrest (Nat.lt_of_succ_lt_succ hfuel)
      have hcond : c ≠ 0 ∧ strchr (whitespace ++ symbols) c = false := ⟨hc, by simpa [plain] using hplain⟩
      rw [if_pos hcond, List.takeWhile_cons_of_pos hplain, List.dropWhile_cons_of_pos hplain, List.length_cons,
        show s + ((cs.takeWhile plain).length + 1) = s + 1 + (cs.takeWhile plain).length by omega]
      exact ⟨hrun, hend⟩
    · have hcond : ¬ (c ≠ 0 ∧ strchr (whitespace ++ symbols) c = false) := by
        rintro ⟨-, hno⟩
        exact hplain (by simp [plain, hno])
      rw [if_neg hcond, List.takeWhile_cons_of_neg hplain, List.dropWhile_cons_of_neg hplain]
      exact ⟨rfl, h⟩

inductive Ahead (fuel : Nat) (l : Lexer) : List Token → Prop where
  | done (hc : l.nc = 0) (hp : l.np2 = 0) : Ahead fuel l []
  | symbol {c : Nat} {cs : List Nat} (hc : l.nc = c) (hp : l.np2 ≠ 0) (hrest : IsString l.mem l.np2 cs)
      (hfuel : cs.length < fuel) : Ahead fuel l (.symbol c :: tokens cs)
  | word {w cs : List Nat} (hc : l.nc = Sh.word) (hp : l.np2 ≠ 0) (hend : l.np2 = l.np1 + w.length)
      (hw : ∀ c ∈ w, c ≠ 0) (hchars : ∀ i, i < w.length → l.mem (l.np1 + i) = w[i]?.getD 0)
      (hrest : IsString l.mem l.np2 cs) (hbreak : AtBreak cs) (hfuel : cs.length < fuel) :
      Ahead fuel l (.word w :: tokens cs)

lemma tokens_word {c : Nat} (cs : List Nat) (hblank : strchr whitespace c = false) (hsym : strchr symbols c = false) :
    tokens (c :: cs) = .word ((c :: cs).takeWhile plain) :: tokens ((c :: cs).dropWhile plain) := by
  have hplain : plain c := by rw [plain_eq, hblank, hsym]; rfl
  rw [tokens, if_neg (by simp [hblank]), if_neg (by simp [hsym]), List.takeWhile_cons_of_pos hplain,
    List.dropWhile_cons_of_pos hplain]

lemma takeWhile_getElem? {i : Nat} (cs : List Nat) (hi : i < (cs.takeWhile plain).length) :
    (cs.takeWhile plain)[i]? = cs[i]? := by
  conv_rhs => rw [← @List.takeWhile_append_dropWhile _ plain cs]
  rw [List.getElem?_append_left hi]

lemma _gettoken_spec {fuel : Nat} {l : Lexer} (hs : s ≠ 0) (h : IsString l.mem s cs) (hfuel : cs.length < fuel) :
    ∃ l', _gettoken fuel s l = some l' ∧ Ahead fuel l' (tokens cs) ∧ (l'.np2 = 0 ∨ s < l'.np2) ∧
      (AtBreak cs → l'.mem s = 0) ∧ ∀ x, x < s → l'.mem x = l.mem x := by
  obtain ⟨s', m, cs', hskip, hsk⟩ := skipBlanks_spec h hfuel
  have hfuel' := Nat.lt_of_le_of_lt hsk.length hfuel
  have hfirst := hsk.string.first
  unfold _gettoken
  rw [if_neg hs, hskip, ← hsk.same]
  dsimp only [bind, Option.bind]
  cases cs' with
  | nil =>
    have h0 : m s' = 0 := hfirst
    refine ⟨⟨m, 0, 0, 0⟩, by rw [if_pos h0], ?_, .inl rfl, fun _ => ?_, hsk.before⟩
    · rw [tokens]
      exact .done rfl rfl
    · rcases Nat.lt_or_eq_of_le hsk.le with hlt | rfl
      · exact hsk.cleared hlt
      · exact h0
  | cons c cs' =>
    have hc : m s' = c := hfirst
    obtain ⟨hc0, -, hrest⟩ := IsString.cons_iff.mp hsk.string
    have hblank := hsk.first c rfl
    simp only [hc]
    rw [if_neg hc0]
    by_cases hsym : strchr symbols c
    · refine ⟨⟨update m s' 0, c, s', s' + 1⟩, if_pos hsym, ?_, .inr (Nat.lt_succ_of_le hsk.le), fun _ => ?_, ?_⟩
      · rw [tokens, if_neg (by simp [hblank]), if_pos hsym]
        exact .symbol rfl (Nat.succ_ne_zero s') (hrest.congr fun x hx _ => update_of_ne (by omega) 0 m)
          (Nat.lt_of_succ_lt hfuel')
      · rcases Nat.lt_or_eq_of_le hsk.le with hlt | rfl
        · exact (update_of_ne (Nat.ne_of_lt hlt) 0 m).trans (hsk.cleared hlt)
        · exact update_self _ 0 m
      · intro x hx
        exact (update_of_ne (Nat.ne_of_lt (Nat.lt_of_lt_of_le hx hsk.le)) 0 m).trans (hsk.before x hx)
    · rw [if_neg hsym]
      have hsym' : strchr symbols c = false := Bool.eq_false_iff.mpr hsym
      have hplain : plain c := by rw [plain_eq, hblank, hsym']; rfl
      obtain ⟨hend, htail⟩ := wordEnd_spec hsk.string hfuel'
      rw [hend]
      have hpos : 0 < ((c :: cs').takeWhile plain).length := by
        rw [List.takeWhile_cons_of_pos hplain]
        exact Nat.succ_pos _
      refine ⟨⟨m, word, s', s' + ((c :: cs').takeWhile plain).length⟩, rfl, ?_, .inr ?_, ?_, hsk.before⟩
      · rw [tokens_word cs' hblank hsym']
        refine .word rfl ?_ rfl ?_ ?_ htail (atBreak_dropWhile _) ?_
        · exact Nat.ne_of_gt (Nat.lt_of_lt_of_le hpos (Nat.le_add_left _ s'))
        · exact fun x hx => hsk.string.nonzero x ((List.takeWhile_sublist plain).subset hx)
        · intro i hi
          rw [takeWhile_getElem? _ hi]
          exact hsk.string.chars i (Nat.le_of_lt (Nat.lt_of_lt_of_le hi (List.takeWhile_sublist plain).length_le))
        · exact Nat.lt_of_le_of_lt (List.dropWhile_sublist plain).length_le hfuel'
      · have := hsk.le
        show s < s' + _
        omega
      · intro hbreak
        rcases Nat.lt_or_eq_of_le hsk.le with hlt | heq
        · exact hsk.cleared hlt
        · -- a string at a break that starts with a plain character
          have hno := hbreak c (by rw [← hsk.unmoved heq]; rfl)
          rw [hplain] at hno
          exact absurd hno (by decide)

def Kept (l : Lexer) (a : Nat) (w : List Nat) : Prop := IsString l.mem a w ∧ (l.np2 = 0 ∨ a + w.length < l.np2)

lemma Kept.scan {l l' : Lexer} {a : Nat} {w : List Nat} (h : Kept l a w) (hnext : l'.np2 = 0 ∨ l.np2 < l'.np2)
    (hp : l.np2 ≠ 0) (hbefore : ∀ x, x < l.np2 → l'.mem x = l.mem x) : Kept l' a w := by
  have hlt := h.2.resolve_left hp
  refine ⟨h.1.congr fun x _ hx => hbefore x (Nat.lt_of_le_of_lt hx hlt), hnext.imp id (Nat.lt_trans hlt)⟩

end

lemma gettoken_next (fuel : Nat) (l : Lexer) :
    gettoken fuel 0 l = (fun l' => (l.nc, some l.np1, l')) <$> _gettoken fuel l.np2 l := rfl

lemma gettoken_step {fuel : Nat} {l : Lexer} {ts : List Token} (h : Ahead fuel l ts) :
    ∃ l', gettoken fuel 0 l = some ((ts.head?.map Token.id).getD 0, some l.np1, l') ∧ Ahead fuel l' ts.tail ∧
      (∀ w, ts.head? = some (.word w) → Kept l' l.np1 w) ∧ ∀ a w, Kept l a w → Kept l' a w := by
  rw [gettoken_next]
  cases h with
  | done hc hp =>
    refine ⟨{ l with nc := 0 }, ?_, .done rfl hp, by simp, fun a w hk => ⟨hk.1, .inl hp⟩⟩
    rw [_gettoken, if_pos hp, hc]
    rfl
  | symbol hc hp hrest hfuel =>
    obtain ⟨l', hrun, hahead, hnext, -, hbefore⟩ := _gettoken_spec hp hrest hfuel
    refine ⟨l', ?_, hahead, by simp, fun a w hk => hk.scan hnext hp hbefore⟩
    rw [hrun, hc]
    rfl
  | @word w cs hc hp hend hw hchars hrest hbreak hfuel =>
    obtain ⟨l', hrun, hahead, hnext, hcut, hbefore⟩ := _gettoken_spec hp hrest hfuel
    refine ⟨l', ?_, hahead, ?_, fun a w hk => hk.scan hnext hp hbefore⟩
    · rw [hrun, hc]
      rfl
    · intro w' hw'
      obtain rfl : w = w' := by simpa using hw'
      refine ⟨⟨hw, ?_⟩, by rwa [← hend]⟩
      intro i hi
      rcases Nat.lt_or_eq_of_le hi with hlt | rfl
      · rw [hbefore _ (by omega)]
        exact hchars i hlt
      · rw [← hend, hcut hbreak, List.getElem?_eq_none (Nat.le_refl _)]
        rfl

/-- `n` calls of `gettoken(0, &t)`. -/
def gettokens (fuel : Nat) : Nat → Lexer → Option (List (Nat × Option Nat) × Lexer)
  | 0, l => some ([], l)
  | n + 1, l => do
    let (c, t, l) ← gettoken fuel 0 l
    let (outs, l) ← gettokens fuel n l
    some ((c, t) :: outs, l)

lemma gettokens_spec {fuel : Nat} (n : Nat) {l : Lexer} {ts : List Token} (h : Ahead fuel l ts) :
    ∃ outs l', gettokens fuel n l = some (outs, l') ∧ outs.length = n ∧ (∀ a w, Kept l a w → Kept l' a w) ∧
      ∀ i, i < n → ∃ t, outs[i]? = some ((ts[i]?.map Token.id).getD 0, some t) ∧
        ∀ w, ts[i]? = some (.word w) → Kept l' t w := by
  induction n generalizing l ts with
  | zero => exact ⟨[], l, rfl, rfl, fun _ _ hk => hk, fun i hi => absurd hi (Nat.not_lt_zero i)⟩
  | succ n ih =>
    obtain ⟨l1, hrun, hahead, hword, hkeep⟩ := gettoken_step h
    obtain ⟨outs, l', hrest, hlen, hkeep', houts⟩ := ih hahead
    refine ⟨((ts.head?.map Token.id).getD 0, some l.np1) :: outs, l', ?_, congrArg Nat.succ hlen,
      fun a w hk => hkeep' a w (hkeep a w hk), ?_⟩
    · rw [gettokens, hrun]
      dsimp only [bind, Option.bind]
      rw [hrest]
    · intro i hi
      cases i with
      | zero =>
        have hhead : ts[0]? = ts.head? := List.head?_eq_getElem?.symm
        rw [hhead]
        exact ⟨l.np1, rfl, fun w hw => hkeep' _ _ (hword w hw)⟩
      | succ i =>
        have htail : ts[i + 1]? = ts.tail[i]? := by rw [List.getElem?_tail]
        rw [htail]
        exact houts i (Nat.lt_of_succ_lt_succ hi)

/-- However often it is called, `gettoken` returns the tokens of the string and then 0, and every word it
has returned is a string of its own in the memory it leaves. -/
theorem gettoken_returns_tokens {l : Lexer} {s fuel : Nat} {cs : List Nat} (hs : s ≠ 0) (h : IsString l.mem s cs)
    (hfuel : cs.length < fuel) : ∃ l0, gettoken fuel s l = some (0, none, l0) ∧
      ∀ n, ∃ outs l', gettokens fuel n l0 = some (outs, l') ∧ outs.length = n ∧
        ∀ i, i < n → ∃ t, outs[i]? = some (((tokens cs)[i]?.map Token.id).getD 0, some t) ∧
          ∀ w, (tokens cs)[i]? = some (.word w) → IsString l'.mem t w := by
  obtain ⟨l0, hrun, hahead, -⟩ := _gettoken_spec hs h hfuel
  refine ⟨l0, ?_, ?_⟩
  · rw [gettoken, if_pos hs, hrun]
    rfl
  · intro n
    obtain ⟨outs, l', hcalls, hlen, -, houts⟩ := gettokens_spec n hahead
    refine ⟨outs, l', hcalls, hlen, ?_⟩
    intro i hi
    obtain ⟨t, ht, hword⟩ := houts i hi
    exact ⟨t, ht, fun w hw => (hword w hw).1⟩

def lexerOn (cs : List Nat) : Lexer := ⟨fun x => if x < 100 then 0 else cs[x - 100]?.getD 0, 0, 0, 0⟩

lemma lexerOn_string {cs : List Nat} (h : ∀ c ∈ cs, c ≠ 0) : IsString (lexerOn cs).mem 100 cs := by
  refine ⟨h, fun i _ => ?_⟩
  have hi : ¬ 100 + i < 100 := by omega
  simp [lexerOn, hi]

theorem gettoken_returns_tokens_pipe : ∃ l0, gettoken 6 100 (lexerOn [97, 98, 124, 99]) = some (0, none, l0) ∧
    ∃ outs l', gettokens 6 1 l0 = some (outs, l') ∧
      ∃ t, outs[0]? = some (119, some t) ∧ IsString l'.mem t [97, 98] := by
  have htokens : (tokens [97, 98, 124, 99])[0]? = some (.word [97, 98]) := by
    simp [tokens, strchr, whitespace, symbols, plain]
  obtain ⟨l0, hrun, hcalls⟩ := gettoken_returns_tokens (by decide : 100 ≠ 0)
    (lexerOn_string (by decide : ∀ c ∈ [97, 98, 124, 99], c ≠ 0)) (by decide : 4 < 6)
  obtain ⟨outs, l', hcall, -, houts⟩ := hcalls 1
  obtain ⟨t, ht, hword⟩ := houts 0 (by decide)
  rw [htokens] at ht hword
  exact ⟨l0, hrun, outs, l', hcall, t, ht, hword [97, 98] rfl⟩

end Jos.Sh
