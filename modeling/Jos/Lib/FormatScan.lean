import Jos.Lib.Printfmt

/-!
# Scanning a format string

`vprintfmt` with the pointer that it moves over the bytes of its format, forward through an
escape and back to the percent sign if the escape is unknown. The pointer is the list of the
bytes before it, the nearest one first, and of those from it to the NUL. A read behind the
NUL, or in front of the first byte, gives `none`.
-/

namespace Jos.Printfmt

/-- The digits of a width from the second one on. -/
def widthAt : Int → List Nat → List Nat → Option (Int × List Nat × List Nat)
  | _, _, [] => none
  | precision, before, ch :: after =>
    if 48 ≤ ch ∧ ch ≤ 57 then
      widthAt (toInt32 ((precision * 10 + (ch : Int) - 48) % 2 ^ 32).toNat) (ch :: before) after
    else some (precision, before, ch :: after)

/-- The cases of the switch that change the flags and go back to `reswitch`. -/
def flagStep (e : Escape) (ch : Nat) (ap : List Nat) : Option (Escape × List Nat) :=
  if ch = 45 then some ({ e with padc := 45 }, ap)
  else if ch = 48 then some ({ e with padc := 48 }, ap)
  else if ch = 42 then some (processPrecision { e with precision := toInt32 (vaWord ap).1 }, (vaWord ap).2)
  else if ch = 46 then some (processDot e, ap)
  else if ch = 35 then some ({ e with altflag := true }, ap)
  else if ch = 108 then some ({ e with lflag := e.lflag + 1 }, ap)
  else none

def reswitchAt : Nat → Escape → List Nat → List Nat → List Nat →
    Option (Escape × Nat × List Nat × List Nat × List Nat)
  | n + 1, e, before, ch :: after, ap =>
    if 49 ≤ ch ∧ ch ≤ 57 then
      match widthAt ((ch : Int) - 48) (ch :: before) after with
      | none => none
      | some (precision, before, after) =>
        reswitchAt n (processPrecision { e with precision := precision }) before after ap
    else
      match flagStep e ch ap with
      | some (e, ap) => reswitchAt n e (ch :: before) after ap
      | none => some (e, ch, ch :: before, after, ap)
  | _, _, _, _, _ => none

/-- `for (fmt--; fmt[-1] != '%'; fmt--)`. -/
def backAt : List Nat → List Nat → Option (List Nat × List Nat)
  | c :: d :: before, after => if d = 37 then some (d :: before, c :: after) else backAt (d :: before) (c :: after)
  | _, _ => none

def vprintfmtAt (load : Nat → Option Nat) : Nat → List Nat → List Nat → List Nat → Option Trace
  | n + 1, before, ch :: after, ap =>
    if ch ≠ 37 then
      if ch = 0 then some Trace.empty else (Trace.emit [ch]).seq <$> vprintfmtAt load n (ch :: before) after ap
    else
      match reswitchAt n {} (ch :: before) after ap with
      | none => none
      | some (e, ch, before, after, ap) =>
        match convert load e ch ap with
        | some (t, ap) => if t.stop = none then t.seq <$> vprintfmtAt load n before after ap else some t
        | none =>
          match backAt before after with
          | none => none
          | some (before, after) => (Trace.emit [37]).seq <$> vprintfmtAt load n before after ap
  | _, _, _, _ => none

/-! ## What is printed -/

def IsFlag (c : Nat) : Prop := c = 45 ∨ 48 ≤ c ∧ c ≤ 57 ∨ c = 42 ∨ c = 46 ∨ c = 35 ∨ c = 108

def conversions : List Nat := [99, 101, 115, 100, 117, 111, 112, 120, 37]

/-- Text and unknown escapes come out as they are. An escape is a percent sign, flags and one more character; the stars
in it take arguments. `strings` are the pointers taken for `%s`. -/
inductive Renders (load : Nat → Option Nat) : List Nat → List Nat → List Nat → Trace → Prop where
  | done (ap : List Nat) : Renders load [] ap [] Trace.empty
  | text {c : Nat} {fmt ap strings : List Nat} {t : Trace} (hc : c ≠ 37) (h : Renders load fmt ap strings t) :
      Renders load (c :: fmt) ap strings ((Trace.emit [c]).seq t)
  | conversion {fmt ap rest ap1 ap2 strings : List Nat} {e : Escape} {ch : Nat} {s t : Trace}
      (hesc : reswitch {} fmt ap = (e, ch, rest, ap1)) (hch : ch ∈ conversions)
      (hconv : convert load e ch ap1 = some (s, ap2)) (h : Renders load rest ap2 strings t) :
      Renders load (37 :: fmt) ap (if ch = 115 then (vaWord ap1).1 :: strings else strings) (s.seq t)
  | unknown {flags rest ap strings : List Nat} {ch : Nat} {t : Trace} (hflags : ∀ c ∈ flags, IsFlag c)
      (hch : ¬ IsFlag ch) (hno : ch ∉ conversions) (h : Renders load rest (ap.drop (flags.count 42)) strings t) :
      Renders load (37 :: (flags ++ ch :: rest)) ap strings ((Trace.emit (37 :: (flags ++ [ch]))).seq t)
  | truncated {flags : List Nat} (ap : List Nat) (hflags : ∀ c ∈ flags, IsFlag c) :
      Renders load (37 :: flags) ap [] (Trace.emit (37 :: flags))

/-- A string of `n` characters at `p`. -/
inductive IsString (load : Nat → Option Nat) : Nat → Nat → Prop where
  | nul {p : Nat} (h : load p = some 0) : IsString load p 0
  | char {p c n : Nat} (h : load p = some (c + 1)) (hrest : IsString load (nextAddr p) n) : IsString load p (n + 1)

/-! ## The pointer and the rest of the format -/

lemma widthAt_eq (s : List Nat) (precision : Int) (before : List Nat) :
    ∃ ds, s = ds ++ (widthDigits precision s).2 ∧ (∀ c ∈ ds, 48 ≤ c ∧ c ≤ 57) ∧ widthAt precision before (s ++ [0]) =
      some ((widthDigits precision s).1, ds.reverse ++ before, (widthDigits precision s).2 ++ [0]) := by
  induction s generalizing precision before with
  | nil => exact ⟨[], rfl, nofun, rfl⟩
  | cons c s ih =>
    rw [List.cons_append, widthAt, widthDigits]
    by_cases hc : 48 ≤ c ∧ c ≤ 57
    · obtain ⟨ds, hds, hdigits, hrun⟩ := ih (toInt32 ((precision * 10 + (c : Int) - 48) % 2 ^ 32).toNat) (c :: before)
      rw [if_pos hc, if_pos hc, hrun]
      exact ⟨c :: ds, congrArg (c :: ·) hds, List.forall_mem_cons.2 ⟨hc, hdigits⟩, by simp⟩
    · rw [if_neg hc, if_neg hc]
      exact ⟨[], rfl, nofun, rfl⟩

lemma reswitch_cons (e : Escape) (ch : Nat) (s ap : List Nat) : reswitch e (ch :: s) ap =
    if 49 ≤ ch ∧ ch ≤ 57 then
      reswitch (processPrecision { e with precision := (widthDigits ((ch : Int) - 48) s).1 })
        (widthDigits ((ch : Int) - 48) s).2 ap
    else (flagStep e ch ap).elim (e, ch, s, ap) fun step => reswitch step.1 s step.2 := by
  rw [reswitch, flagStep]
  split_ifs <;> first | rfl | omega

/-- The scan of an escape: flags and one more character, which is the NUL at the end of the format. -/
def Scanned (s before ap : List Nat) (r : Escape × Nat × List Nat × List Nat)
    (run : Option (Escape × Nat × List Nat × List Nat × List Nat)) : Prop :=
  ∃ flags tail, (∀ c ∈ flags, IsFlag c) ∧ ¬ IsFlag r.2.1 ∧ r.2.2.2 = ap.drop (flags.count 42) ∧
    (s = flags ++ r.2.1 :: r.2.2.1 ∧ tail = r.2.2.1 ++ [0] ∨ r.2.1 = 0 ∧ s = flags ∧ r.2.2.1 = [] ∧ tail = []) ∧
    run = some (r.1, r.2.1, r.2.1 :: (flags.reverse ++ before), tail, r.2.2.2)

lemma Scanned.more {ds s before ap : List Nat} {r : Escape × Nat × List Nat × List Nat}
    {run : Option (Escape × Nat × List Nat × List Nat × List Nat)}
    (h : Scanned s (ds.reverse ++ before) (ap.drop (ds.count 42)) r run) (hds : ∀ c ∈ ds, IsFlag c) :
    Scanned (ds ++ s) before ap r run := by
  obtain ⟨flags, tail, hflags, hch, hap, hsplit, hrun⟩ := h
  refine ⟨ds ++ flags, tail, fun c hc => (List.mem_append.1 hc).elim (hds c) (hflags c), hch, ?_, ?_, ?_⟩
  · rw [hap, List.drop_drop, List.count_append]
  · rcases hsplit with ⟨hsplit, htail⟩ | ⟨hnul, hsplit, hend⟩
    · exact .inl ⟨by rw [hsplit, List.append_assoc], htail⟩
    · exact .inr ⟨hnul, by rw [hsplit], hend⟩
  · rw [hrun, List.reverse_append, List.append_assoc]

lemma flagStep_eq {e e' : Escape} {ch : Nat} {ap ap' : List Nat} (h : flagStep e ch ap = some (e', ap')) :
    IsFlag ch ∧ ap' = ap.drop ([ch].count 42) := by
  unfold flagStep at h
  unfold IsFlag
  rw [List.count_singleton]
  split_ifs at h <;> cases h <;> simp_all [vaWord]

lemma reswitchAt_eq (s : List Nat) {n : Nat} (hn : s.length < n) (e : Escape) (before ap : List Nat) :
    Scanned s before ap (reswitch e s ap) (reswitchAt n e before (s ++ [0]) ap) := by
  induction n generalizing s e before ap with
  | zero => omega
  | succ n ih =>
    cases s with
    | nil =>
      rw [reswitch]
      exact ⟨[], [], List.forall_mem_nil _, by simp [IsFlag], rfl, .inr ⟨rfl, rfl, rfl, rfl⟩, rfl⟩
    | cons c s =>
      have hlt := Nat.lt_of_succ_lt_succ hn
      rw [reswitch_cons, List.cons_append, reswitchAt]
      by_cases hdigit : 49 ≤ c ∧ c ≤ 57
      · obtain ⟨ds, hds, hdigits, hrun⟩ := widthAt_eq s ((c : Int) - 48) (c :: before)
        have hcds : ∀ x ∈ c :: ds, 48 ≤ x ∧ x ≤ 57 := List.forall_mem_cons.2 ⟨by omega, hdigits⟩
        have hstar : (c :: ds).count 42 = 0 := List.count_eq_zero.2 fun hmem => absurd (hcds 42 hmem).1 (by decide)
        have hcons : c :: s = (c :: ds) ++ (widthDigits ((c : Int) - 48) s).2 := congrArg (c :: ·) hds
        have hshort := widthDigits_length ((c : Int) - 48) s
        rw [if_pos hdigit, if_pos hdigit, hrun, hcons]
        refine Scanned.more ?_ fun x hx => .inr (.inl (hcds x hx))
        rw [hstar, List.reverse_cons, List.append_assoc]
        exact ih _ (by omega) _ _ ap
      · rw [if_neg hdigit, if_neg hdigit]
        cases hstep : flagStep e c ap with
        | none =>
          refine ⟨[], s ++ [0], List.forall_mem_nil _, ?_, rfl, .inl ⟨rfl, rfl⟩, rfl⟩
          change ¬ IsFlag c
          unfold flagStep at hstep
          unfold IsFlag
          split_ifs at hstep
          omega
        | some step =>
          obtain ⟨e', ap'⟩ := step
          obtain ⟨hflag, rfl⟩ := flagStep_eq hstep
          exact @Scanned.more [c] s before ap _ _ (ih s hlt e' _ _) (by simpa using hflag)

lemma backAt_eq {l : List Nat} (hl : ∀ d ∈ l, d ≠ 37) (c : Nat) (before after : List Nat) :
    backAt (c :: (l ++ 37 :: before)) after = some (37 :: before, l.reverse ++ c :: after) := by
  induction l generalizing c after with
  | nil => rfl
  | cons d l ih =>
    obtain ⟨hd, hl⟩ := List.forall_mem_cons.1 hl
    rw [List.cons_append, backAt, if_neg hd, ih hl, List.reverse_cons, List.append_assoc]
    rfl

lemma IsFlag.ne_percent {c : Nat} (h : IsFlag c) : c ≠ 37 := by
  unfold IsFlag at h
  omega

lemma convert_isSome (load : Nat → Option Nat) (e : Escape) (ch : Nat) (ap : List Nat) :
    (convert load e ch ap).isSome ↔ ch ∈ conversions := by
  unfold convert conversions
  repeat' split
  all_goals simp_all
  all_goals split <;> rfl

section
variable (load : Nat → Option Nat)

lemma vprintfmtAt_eq {s : List Nat} (hs : 0 ∉ s) {n : Nat} (hn : s.length < n) (before ap : List Nat) :
    vprintfmtAt load n before (s ++ [0]) ap = some (vprintfmt load s ap) := by
  induction n generalizing s before ap with
  | zero => omega
  | succ n ih =>
    rw [vprintfmt.eq_def]
    cases s with
    | nil => rfl
    | cons c s =>
      obtain ⟨hc0, hs'⟩ := not_or.1 (List.mem_cons.not.1 hs)
      have hlt := Nat.lt_of_succ_lt_succ hn
      rw [List.cons_append, vprintfmtAt]
      dsimp only
      by_cases hc : c = 37
      · subst hc
        obtain ⟨flags, tail, hflags, -, -, hsplit, hrun⟩ := reswitchAt_eq s hlt {} (37 :: before) ap
        have hknown := convert_isSome load (reswitch {} s ap).1 (reswitch {} s ap).2.1 (reswitch {} s ap).2.2.2
        rw [if_neg (not_not.2 rfl), if_neg (not_not.2 rfl), hrun]
        dsimp only
        rcases hconv : convert load (reswitch {} s ap).1 (reswitch {} s ap).2.1 (reswitch {} s ap).2.2.2 with _ | ⟨t, ap'⟩
        · -- the pointer is back behind the percent sign
          have hback : flags ++ (reswitch {} s ap).2.1 :: tail = s ++ [0] := by
            rcases hsplit with ⟨hsplit, htail⟩ | ⟨hnul, hsplit, -, htail⟩
            · rw [htail]
              conv => rhs; rw [hsplit]
              rw [List.append_assoc, List.cons_append]
            · rw [hnul, htail, ← hsplit]
          dsimp only
          rw [backAt_eq fun d hd => (hflags d (List.mem_reverse.1 hd)).ne_percent, List.reverse_reverse, hback]
          dsimp only
          rw [ih hs' hlt]
          rfl
        · have hne : (reswitch {} s ap).2.1 ≠ 0 := by
            intro h
            have hmem := hknown.1 (by rw [hconv]; rfl)
            rw [h] at hmem
            exact absurd hmem (by decide)
          obtain ⟨hrest, htail⟩ := hsplit.resolve_right fun h => hne h.1
          have hcount := congrArg List.length hrest
          rw [List.length_append, List.length_cons] at hcount
          have hs'' : 0 ∉ (reswitch {} s ap).2.2.1 := fun h => hs' (by rw [hrest]; simp [h])
          dsimp only
          by_cases hstop : t.stop = none
          · rw [if_pos hstop, htail, ih hs'' (by omega)]
            rfl
          · rw [if_neg hstop]
            unfold Trace.seq
            cases h : t.stop with
            | none => exact absurd h hstop
            | some _ => rfl
      · rw [if_pos hc, if_pos hc, if_neg (Ne.symm hc0), ih hs' hlt]
        rfl

lemma vprintfmt_text {l : List Nat} (hl : ∀ c ∈ l, c ≠ 37) (rest ap : List Nat) :
    vprintfmt load (l ++ rest) ap = (Trace.emit l).seq (vprintfmt load rest ap) := by
  induction l with
  | nil => rfl
  | cons c l ih =>
    obtain ⟨hc, hl⟩ := List.forall_mem_cons.1 hl
    rw [List.cons_append, vprintfmt, if_pos hc, ih hl]
    rfl

lemma vprintfmt_renders (fmt ap : List Nat) : ∃ strings, Renders load fmt ap strings (vprintfmt load fmt ap) := by
  rw [vprintfmt.eq_def]
  cases fmt with
  | nil => exact ⟨_, .done ap⟩
  | cons c s =>
    dsimp only
    by_cases hc : c = 37
    · subst hc
      rw [if_neg (not_not.2 rfl)]
      have hlen := reswitch_length {} s ap
      obtain ⟨flags, tail, hflags, hch, hap, hsplit, -⟩ := reswitchAt_eq s (Nat.lt_succ_self _) {} [] ap
      have hknown := convert_isSome load (reswitch {} s ap).1 (reswitch {} s ap).2.1 (reswitch {} s ap).2.2.2
      rcases hconv : convert load (reswitch {} s ap).1 (reswitch {} s ap).2.1 (reswitch {} s ap).2.2.2 with _ | ⟨t, ap'⟩
      · have hno : (reswitch {} s ap).2.1 ∉ conversions := fun hmem => by
          have hsome := hknown.2 hmem
          rw [hconv] at hsome
          cases hsome
        obtain ⟨strings, hrest⟩ := vprintfmt_renders (reswitch {} s ap).2.2.1 (reswitch {} s ap).2.2.2
        clear hlen hknown hconv
        generalize reswitch {} s ap = r at hch hap hsplit hno hrest ⊢
        obtain ⟨e, ch, rest, ap'⟩ := r
        dsimp only at hch hap hsplit hno hrest ⊢
        subst hap
        have htext : ∀ c ∈ flags, c ≠ 37 := fun c hc => (hflags c hc).ne_percent
        rcases hsplit with ⟨rfl, -⟩ | ⟨-, rfl, rfl, -⟩
        · have hall : ∀ c ∈ flags ++ [ch], c ≠ 37 := by
            intro c hc
            rcases List.mem_append.1 hc with hc | hc
            · exact htext c hc
            · rintro rfl
              exact hno (List.mem_singleton.1 hc ▸ by decide)
          have hprints := vprintfmt_text load hall rest (ap.drop (flags.count 42))
          rw [List.append_assoc] at hprints
          exact ⟨strings, (congrArg (Trace.emit [37]).seq hprints) ▸ .unknown hflags hch hno hrest⟩
        · have hprints := vprintfmt_text load htext [] (ap.drop (s.count 42))
          rw [List.append_nil, vprintfmt] at hprints
          rw [hprints]
          have hdone : Renders load _ ap _ _ := .truncated ap hflags
          exact ⟨[], by simpa [Trace.seq, Trace.emit, Trace.empty] using hdone⟩
      · obtain ⟨strings, hrest⟩ := vprintfmt_renders (reswitch {} s ap).2.2.1 ap'
        exact ⟨_, .conversion rfl (hknown.1 (by rw [hconv]; rfl)) hconv hrest⟩
    · obtain ⟨strings, hrest⟩ := vprintfmt_renders s ap
      rw [if_pos hc]
      exact ⟨strings, .text hc hrest⟩
termination_by fmt.length
decreasing_by all_goals subst_vars; simp only [List.length_cons]; omega

end

/-! ## Strings end -/

section
variable {f : Nat → Option Nat} {p n : Nat}

lemma IsString.strnlen (h : IsString f p n) :
    ∀ {fuel : Nat}, n < fuel → ∀ size k, (strnlenLoop f fuel p size k).1.stop = none := by
  induction h with
  | nul h =>
    intro fuel hfuel size k
    obtain ⟨fuel, rfl⟩ := Nat.exists_eq_succ_of_ne_zero (ne_of_gt hfuel)
    rw [strnlenLoop, h]
    split <;> rfl
  | char h _ ih =>
    intro fuel hfuel size k
    obtain ⟨fuel, rfl⟩ := Nat.exists_eq_succ_of_ne_zero (ne_of_gt (Nat.zero_lt_of_lt hfuel))
    rw [strnlenLoop, h]
    split
    · rfl
    · exact ih (Nat.lt_of_succ_lt_succ hfuel) _ _

lemma IsString.strLoop (h : IsString f p n) (alt : Bool) :
    ∀ {fuel : Nat}, n < fuel → ∀ precision, (strLoop f alt fuel p precision).1.stop = none := by
  induction h with
  | nul h =>
    intro fuel hfuel precision
    obtain ⟨fuel, rfl⟩ := Nat.exists_eq_succ_of_ne_zero (ne_of_gt hfuel)
    rw [Printfmt.strLoop, h]
  | char h _ ih =>
    intro fuel hfuel precision
    obtain ⟨fuel, rfl⟩ := Nat.exists_eq_succ_of_ne_zero (ne_of_gt (Nat.zero_lt_of_lt hfuel))
    rw [Printfmt.strLoop, h]
    dsimp only
    generalize (if precision < 0 then precision else precision - 1) = left
    split
    · exact ih (Nat.lt_of_succ_lt_succ hfuel) _
    · rfl

lemma IsString.convString {load : Nat → Option Nat} {lit : List Nat} (h : IsString (fetch load lit) p n)
    (hn : n < 2 ^ 32) (e : Escape) : (convString load lit e p).stop = none := by
  have hlen := fun size => h.strnlen (show n < 2 ^ 32 + 1 by omega) size 0
  have hloop := h.strLoop e.altflag (show n < 2 ^ 32 + 1 by omega) e.precision
  unfold Printfmt.convString Printfmt.strnlen
  generalize 2 ^ 32 + 1 = fuel at hlen hloop ⊢
  by_cases hpad : 0 < e.width ∧ e.padc ≠ 45
  · simp [hpad, Trace.seq, Trace.emit, hlen, hloop]
  · simp [hpad, Trace.seq, Trace.emit, Trace.empty, hloop]

lemma IsString.fetched {load : Nat → Option Nat} (h : IsString load p n) (hp : p < 2 ^ 32) :
    IsString (fetch load []) p n := by
  induction h with
  | nul h => exact .nul ((if_pos hp).trans h)
  | char h _ ih =>
    refine .char ((if_pos hp).trans h) (ih ?_)
    unfold nextAddr
    split <;> omega

end

lemma convert_stop {load : Nat → Option Nat} {e : Escape} {ch : Nat} {ap ap' : List Nat} {t : Trace}
    (h : convert load e ch ap = some (t, ap'))
    (hstr : ch = 115 → (vaWord ap).1 = 0 ∨ ∃ n, n < 2 ^ 32 ∧ IsString load (vaWord ap).1 n) : t.stop = none := by
  unfold convert at h
  dsimp only at h
  by_cases h115 : ch = 115
  · subst h115
    rw [if_neg (by decide), if_neg (by decide), if_pos rfl] at h
    split at h
    · cases h
      have hnull : IsString (fetch load nullString) literalBase 6 :=
        .char rfl (.char rfl (.char rfl (.char rfl (.char rfl (.char rfl (.nul rfl))))))
      exact hnull.convString (by decide) e
    · rename_i hp
      cases h
      obtain ⟨n, hn, hends⟩ := (hstr rfl).resolve_left hp
      exact (hends.fetched (Nat.mod_lt _ (by decide))).convString hn e
  · repeat' split at h
    all_goals first | contradiction | cases h; rfl

lemma Renders.stop {load : Nat → Option Nat} {fmt ap strings : List Nat} {t : Trace} (h : Renders load fmt ap strings t)
    (hstr : ∀ p ∈ strings, p = 0 ∨ ∃ n, n < 2 ^ 32 ∧ IsString load p n) : t.stop = none := by
  induction h with
  | done => rfl
  | text _ _ ih => exact ih hstr
  | conversion _ _ hconv _ ih =>
    have hstop := convert_stop hconv fun h115 => hstr _ (by rw [if_pos h115]; exact List.mem_cons_self)
    have hrest := ih fun p hp => hstr p (by split <;> simp [hp])
    unfold Trace.seq
    rw [hstop]
    exact hrest
  | unknown _ _ _ _ ih => exact ih hstr
  | truncated => rfl

/-- Whatever the format, its pointer stays between the first byte and the NUL, text and unknown escapes are printed as
they are, and the call returns if the strings that it is given end. -/
theorem vprintfmt_handles_format (load : Nat → Option Nat) {fmt : List Nat} (hfmt : 0 ∉ fmt) (ap : List Nat) :
    ∃ t strings, (∀ n, fmt.length < n → vprintfmtAt load n [] (fmt ++ [0]) ap = some t) ∧ Renders load fmt ap strings t ∧
      ((∀ p ∈ strings, p = 0 ∨ ∃ n, n < 2 ^ 32 ∧ IsString load p n) → t.stop = none) := by
  obtain ⟨strings, hrenders⟩ := vprintfmt_renders load fmt ap
  exact ⟨_, strings, fun n hn => vprintfmtAt_eq load hfmt hn [] ap, hrenders, hrenders.stop⟩

theorem vprintfmt_handles_unknown : ∃ t strings, vprintfmtAt (fun _ => none) 4 [] [37, 53, 121, 0] [] = some t ∧
    Renders (fun _ => none) [37, 53, 121] [] strings t := by
  obtain ⟨t, strings, hrun, hrenders, -⟩ :=
    vprintfmt_handles_format (fun _ => none) (show 0 ∉ [37, 53, 121] by decide) []
  exact ⟨t, strings, hrun 4 (by decide), hrenders⟩

end Jos.Printfmt
