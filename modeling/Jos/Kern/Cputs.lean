import Jos.Kern.UserMem

/-!
# Printing user strings

`sys_cputs` checks `[s, s + len)` and prints it with `"%.*s"`. The string loop of
`vprintfmt` reads a byte before it looks at the precision, so it stays inside the
range only if the range holds a NUL. It takes 1 off the width, an `int`, for every
character, so after more than 2^31 of them it goes on with blanks.
-/

namespace Jos
open Bits Printfmt

variable {fuel n p : Nat} {precision : Int}

def textAt (load : Nat → Option Nat) (s : Nat) : Nat → List Nat
  | 0 => []
  | n + 1 =>
    match load s with
    | some (c + 1) => (c + 1) :: textAt load (s + 1) n
    | _ => []

/-- The printing reads the checked bytes only, prints them up to the first NUL, and returns. -/
structure CputsRight (load : Nat → Option Nat) (s len : Nat) (t : Trace) : Prop where
  reads : ∀ a ∈ t.reads, s ≤ a ∧ a < s + len
  out : t.out = textAt load s len
  returns : t.stop = none

/-- A NUL in the range, with at most 2^31 bytes before it, all readable. -/
def NulWithin (load : Nat → Option Nat) (s len : Nat) : Prop :=
  ∃ n, n < len ∧ n ≤ 2 ^ 31 ∧ load (s + n) = some 0 ∧ ∀ j < n, load (s + j) ≠ none

/-- The string loop and the blanks for what it has left of a width of 0. -/
def printed (r : Trace × Nat) : Trace := r.1.seq (Trace.emit (spaces 32 (CInt.toI32 (0 - r.2))))

section
variable {load : Nat → Option Nat}

def Text (load : Nat → Option Nat) (p : Nat) : Prop := ∃ c, load p = some (c + 1)

lemma strLoop_text {c : Nat} (h : load p = some (c + 1)) (fuel : Nat) (hp : precision < 0 ∨ 0 < precision) :
    strLoop load false (fuel + 1) p precision =
      (Trace.seq ⟨[c + 1], [p], none⟩
        (strLoop load false fuel (nextAddr p) (if precision < 0 then precision else precision - 1)).1,
        (strLoop load false fuel (nextAddr p) (if precision < 0 then precision else precision - 1)).2 + 1) := by
  have hcont : precision < 0 ∨ 0 ≤ (if precision < 0 then precision else precision - 1) := by
    split <;> omega
  simp only [strLoop, h, hcont, if_true, Bool.false_and, Bool.false_eq_true, if_false]

lemma strLoop_skip (htext : ∀ j < n, Text load (p + j)) (hp32 : p < 2 ^ 32)
    (hend : p + n ≤ 2 ^ 32) (hfuel : n < fuel) (hp : precision < 0 ∨ (n : Int) ≤ precision) :
    ∃ fuel' precision', strLoop load false fuel p precision =
      let (t, m) := strLoop load false (fuel' + 1) ((p + n) % 2 ^ 32) precision'
      (Trace.seq ⟨textAt load p n, List.range' p n, none⟩ t, m + n) := by
  induction n generalizing p fuel precision with
  | zero =>
    obtain ⟨fuel, rfl⟩ := Nat.exists_eq_succ_of_ne_zero (by omega : fuel ≠ 0)
    refine ⟨fuel, precision, ?_⟩
    rw [Nat.mod_eq_of_lt (show p + 0 < 2 ^ 32 from hp32)]
    rfl
  | succ n ih =>
    obtain ⟨fuel, rfl⟩ := Nat.exists_eq_succ_of_ne_zero (by omega : fuel ≠ 0)
    obtain ⟨c, hc⟩ := htext 0 (by omega)
    rw [add_zero] at hc
    rw [strLoop_text hc fuel (by omega), textAt, hc, List.range'_succ]
    by_cases hlast : p + 1 = 2 ^ 32
    · -- the last address, so there is no more text
      obtain rfl : n = 0 := by omega
      obtain ⟨fuel, rfl⟩ := Nat.exists_eq_succ_of_ne_zero (by omega : fuel ≠ 0)
      refine ⟨fuel, if precision < 0 then precision else precision - 1, ?_⟩
      rw [nextAddr, if_pos hlast, show p + (0 + 1) = 2 ^ 32 from hlast, Nat.mod_self]
      rfl
    · have htext' : ∀ j < n, Text load (p + 1 + j) := by
        intro j hj
        rw [show p + 1 + j = p + (j + 1) by omega]
        exact htext (j + 1) (by omega)
      have hp' : (if precision < 0 then precision else precision - 1) < 0 ∨
          (n : Int) ≤ if precision < 0 then precision else precision - 1 := by
        split <;> omega
      obtain ⟨fuel', precision', hrest⟩ := ih htext' (by omega) (by omega) (show n < fuel by omega) hp'
      refine ⟨fuel', precision', ?_⟩
      rw [nextAddr, if_neg hlast, hrest, show p + 1 + n = p + (n + 1) by omega]
      rfl

lemma strLoop_nul (htext : ∀ j < n, Text load (p + j))
    (hnul : load (p + n) = some 0) (hend : p + n < 2 ^ 32) (hfuel : n < fuel)
    (hp : precision < 0 ∨ (n : Int) ≤ precision) :
    strLoop load false fuel p precision = (⟨textAt load p n, (List.range' p (n + 1)), none⟩, n) := by
  obtain ⟨fuel', precision', hskip⟩ := strLoop_skip htext (by omega) (by omega) hfuel hp
  rw [hskip, Nat.mod_eq_of_lt hend, strLoop, hnul]
  simp [Trace.seq, List.range'_1_concat]

lemma strLoop_reads_head (fuel p : Nat) (precision : Int) :
    p ∈ (strLoop load false (fuel + 1) p precision).1.reads := by
  simp only [strLoop]
  split
  · simp
  · simp
  · split <;> split <;> simp [Trace.seq]

section
variable (htext : ∀ j < n, Text load (p + j))
include htext

lemma strLoop_reads (hp32 : p < 2 ^ 32) (hend : p + n ≤ 2 ^ 32) (hfuel : n < fuel)
    (hp : precision < 0 ∨ (n : Int) ≤ precision) :
    (p + n) % 2 ^ 32 ∈ (strLoop load false fuel p precision).1.reads := by
  obtain ⟨fuel', precision', hskip⟩ := strLoop_skip htext hp32 hend hfuel hp
  rw [hskip]
  exact List.mem_append_right _ (strLoop_reads_head fuel' _ precision')

lemma strLoop_fault (hfault : load (p + n) = none) (hend : p + n < 2 ^ 32) (hfuel : n < fuel)
    (hp : precision < 0 ∨ (n : Int) ≤ precision) :
    (strLoop load false fuel p precision).1.stop = some (.fault (p + n)) := by
  obtain ⟨fuel', precision', hskip⟩ := strLoop_skip htext (by omega) (by omega) hfuel hp
  rw [hskip, Nat.mod_eq_of_lt hend, strLoop, hfault]
  rfl

lemma textAt_nul {len : Nat} (hnul : load (p + n) = some 0) (hlt : n < len) : textAt load p len = textAt load p n := by
  induction n generalizing p len with
  | zero =>
    obtain ⟨len, rfl⟩ := Nat.exists_eq_succ_of_ne_zero (by omega : len ≠ 0)
    have hnul' : load p = some 0 := by simpa using hnul
    simp [textAt, hnul']
  | succ n ih =>
    obtain ⟨len, rfl⟩ := Nat.exists_eq_succ_of_ne_zero (by omega : len ≠ 0)
    have hrest : textAt load (p + 1) len = textAt load (p + 1) n := by
      apply ih
      · intro j hj
        rw [show p + 1 + j = p + (j + 1) by omega]
        exact htext (j + 1) (by omega)
      · rwa [show p + 1 + n = p + (n + 1) by omega]
      · omega
    simp only [textAt, hrest]

end

end

section
variable {load : Nat → Option Nat} {s len : Nat}

lemma precision_bound (hlen : len < 2 ^ 32) (hn : n ≤ len) : toInt32 len < 0 ∨ (n : Int) ≤ toInt32 len := by
  unfold toInt32
  split <;> omega

lemma exists_first (h : ¬ ∀ j < len, Text load (s + j)) :
    ∃ n, n < len ∧ ¬ Text load (s + n) ∧ ∀ j < n, Text load (s + j) := by
  classical
  simp only [not_forall] at h
  obtain ⟨hlt, hbad⟩ := Nat.find_spec h
  refine ⟨Nat.find h, hlt, hbad, fun j hj => ?_⟩
  by_contra hj'
  exact Nat.find_min h hj ⟨by omega, hj'⟩

@[simp] lemma seq_emit_nil (t : Trace) : t.seq (Trace.emit []) = t := by
  rcases t with ⟨out, reads, _ | stop⟩ <;> simp [Trace.seq, Trace.emit]

@[simp] lemma empty_seq (t : Trace) : Trace.empty.seq t = t := by
  simp [Trace.seq, Trace.empty]

@[simp] lemma seq_empty (t : Trace) : t.seq Trace.empty = t := seq_emit_nil t

lemma printed_reads (r : Trace × Nat) : (printed r).reads = r.1.reads := by
  unfold printed Trace.seq
  split
  · exact List.append_nil _
  · rfl

lemma printed_stop (r : Trace × Nat) : (printed r).stop = r.1.stop := by
  unfold printed Trace.seq
  split
  · exact Eq.symm ‹_›
  · rfl

lemma spaces_eq_nil_iff (hn : n < 2 ^ 32) : spaces 32 (CInt.toI32 (0 - n)) = [] ↔ n ≤ 2 ^ 31 := by
  rw [spaces, List.replicate_eq_nil_iff, CInt.toI32_eq]
  split <;> omega

lemma strLoop_right_iff (hlen : len < 2 ^ 32) (hend : s + len ≤ 2 ^ 32) (hs32 : s < 2 ^ 32) (hfuel : 2 ^ 32 < fuel) :
    CputsRight load s len (printed (strLoop load false fuel s (toInt32 len))) ↔ NulWithin load s len := by
  constructor
  · intro hright
    have hreads := hright.reads
    have hreturns := hright.returns
    rw [printed_reads] at hreads
    rw [printed_stop] at hreturns
    by_cases hall : ∀ j < len, Text load (s + j)
    · have hread : (s + len) % 2 ^ 32 ∈ (strLoop load false fuel s (toInt32 len)).1.reads :=
        strLoop_reads hall hs32 hend (by omega) (precision_bound hlen le_rfl)
      have := hreads _ hread
      omega
    · obtain ⟨n, hlt, hbad, htext⟩ := exists_first hall
      have hprec := precision_bound hlen (le_of_lt hlt)
      cases hload : load (s + n) with
      | none =>
        have hstop : (strLoop load false fuel s (toInt32 len)).1.stop = some (.fault (s + n)) :=
          strLoop_fault htext hload (by omega) (by omega) hprec
        rw [hreturns] at hstop
        simp at hstop
      | some b =>
        cases b with
        | zero =>
          have hout := hright.out
          rw [strLoop_nul htext hload (by omega) (by omega) hprec, textAt_nul htext hload hlt] at hout
          have hblank : spaces 32 (CInt.toI32 (0 - n)) = [] := List.append_right_eq_self.mp hout
          refine ⟨n, hlt, (spaces_eq_nil_iff (by omega)).mp hblank, hload, fun j hj hnone => ?_⟩
          obtain ⟨c, hc⟩ := htext j hj
          cases hnone.symm.trans hc
        | succ c => exact absurd ⟨c, hload⟩ hbad
  · rintro ⟨m, hm, hm31, hnul, hread⟩
    -- the first NUL, which may come before the given one
    have hall : ¬ ∀ j < len, Text load (s + j) := by
      intro hall
      obtain ⟨c, hc⟩ := hall m hm
      rw [hnul] at hc
      simp at hc
    obtain ⟨n, hlt, hbad, htext⟩ := exists_first hall
    have hnm : n ≤ m := by
      by_contra hmn
      obtain ⟨c, hc⟩ := htext m (by omega)
      rw [hnul] at hc
      simp at hc
    have hload : load (s + n) = some 0 := by
      rcases Nat.lt_or_eq_of_le hnm with hnm | rfl
      · cases hload : load (s + n) with
        | none => exact absurd hload (hread n hnm)
        | some b =>
          cases b with
          | zero => rfl
          | succ c => exact absurd ⟨c, hload⟩ hbad
      · exact hnul
    have hblank : spaces 32 (CInt.toI32 (0 - n)) = [] := (spaces_eq_nil_iff (by omega)).mpr (by omega)
    rw [strLoop_nul htext hload (by omega) (by omega) (precision_bound hlen (le_of_lt hlt)), printed, hblank,
      seq_emit_nil]
    refine ⟨fun a ha => ?_, (textAt_nul htext hload hlt).symm, rfl⟩
    have := List.mem_range'_1.mp ha
    omega

lemma vprintfmt_prec (hs32 : s < 2 ^ 32) (hlen : len < 2 ^ 32) : vprintfmt load fmtPrecString [len, s] =
      if s = 0 then printed (strLoop (fetch load nullString) false (2 ^ 32 + 1) literalBase (toInt32 len))
      else printed (strLoop (fetch load []) false (2 ^ 32 + 1) s (toInt32 len)) := by
  have hesc : reswitch {} [46, 42, 115] [len, s] =
      ({ width := 0, precision := toInt32 len }, 115, [], [s]) := by
    simp [reswitch, processDot, processPrecision, vaWord, Nat.mod_eq_of_lt (show len < 4294967296 from hlen)]
  have hnil : ∀ ap, vprintfmt load [] ap = Trace.empty := by
    intro ap
    rw [vprintfmt]
  have hconv : ∀ lit p, convString load lit { width := 0, precision := toInt32 len } p =
      printed (strLoop (fetch load lit) false (2 ^ 32 + 1) p (toInt32 len)) := by
    intro lit p
    simp only [convString, lt_irrefl, false_and, if_false, seq_emit_nil, empty_seq, printed]
  unfold fmtPrecString
  rw [vprintfmt, if_neg (by decide), hesc]
  simp only [convert, hnil, vaWord, List.headD_cons, List.tail_cons, Nat.mod_eq_of_lt hs32, hconv]
  by_cases hs : s = 0
  · simp [hs]
  · simp [hs]

lemma fetch_of_lt {lit : List Nat} (h : p < 2 ^ 32) : fetch load lit p = load p := by
  unfold fetch literalBase
  rw [if_pos h]

lemma textAt_fetch (hend : s + len ≤ 2 ^ 32) : textAt (fetch load []) s len = textAt load s len := by
  induction len generalizing s with
  | zero => rfl
  | succ n ih =>
    have hrest := ih (s := s + 1) (by omega)
    simp only [textAt, fetch_of_lt (show s < 2 ^ 32 by omega), hrest]

lemma nulWithin_fetch (hend : s + len ≤ 2 ^ 32) : NulWithin (fetch load []) s len ↔ NulWithin load s len := by
  have hload : ∀ n < len, fetch load [] (s + n) = load (s + n) := fun n hn => fetch_of_lt (by omega)
  constructor
  · rintro ⟨n, hn, hn31, hnul, hread⟩
    exact ⟨n, hn, hn31, by rw [← hload n hn, hnul], fun j hj => by rw [← hload j (by omega)]; exact hread j hj⟩
  · rintro ⟨n, hn, hn31, hnul, hread⟩
    exact ⟨n, hn, hn31, by rw [hload n hn, hnul], fun j hj => by rw [hload j (by omega)]; exact hread j hj⟩

lemma not_right_null (hlen : len < 2 ^ 32) : ¬ CputsRight load 0 len (vprintfmt load fmtPrecString [len, 0]) := by
  intro hright
  rw [vprintfmt_prec (by decide) hlen, if_pos rfl] at hright
  have := hright.reads literalBase (printed_reads _ ▸ strLoop_reads_head (2 ^ 32) literalBase (toInt32 len))
  unfold literalBase at this
  omega

lemma vprintfmt_right_iff (hs32 : s < 2 ^ 32) (hlen : len < 2 ^ 32) (hend : s + len ≤ 2 ^ 32) :
    CputsRight load s len (vprintfmt load fmtPrecString [len, s]) ↔ s ≠ 0 ∧ NulWithin load s len := by
  by_cases hs : s = 0
  · subst s
    exact iff_of_false (not_right_null hlen) fun h => h.1 rfl
  · rw [vprintfmt_prec hs32 hlen, if_neg hs, ← nulWithin_fetch hend,
      ← strLoop_right_iff hlen hend hs32 (show 2 ^ 32 < 2 ^ 32 + 1 by decide)]
    simp only [ne_eq, hs, not_false_eq_true, true_and]
    constructor <;> rintro ⟨hr, ho, hst⟩
    · exact ⟨hr, ho.trans (textAt_fetch hend).symm, hst⟩
    · exact ⟨hr, ho.trans (textAt_fetch hend), hst⟩

end

section
variable {vm : Vm} {pd s len : Nat}

lemma loadByte_of_passes {perm a : Nat} (h : Passes vm pd perm a) : loadByte pd a vm ≠ none := by
  have hpde : present (vm.mem pd (pdx a)) := h.1
  have hpte : present (vm.mem (ppn (vm.mem pd (pdx a))) (ptx a)) := present_of_allows h.2
  simp [loadByte, hpde, hpte]

lemma loadByte_of_check (hb : KernelBuilt vm pd) (hend : s + len ≤ 2 ^ 32 - 4096) {perm : Nat}
    (hok : userMemCheck pd s len perm vm = some .ok) (hn : n < len) : loadByte pd (s + n) vm ≠ none := by
  rcases userMemCheck_range perm hb (show 0 < len by omega) hend with ⟨-, hall⟩ | ⟨x, hfault, -⟩
  · exact loadByte_of_passes (hall (s + n) (by omega) (by omega))
  · rw [hok] at hfault
    simp at hfault

end

section
variable {k : Kernel} {cpu cur pd s len : Nat}

lemma check_of_assert (hcur : k.curenv cpu = some cur) (hpd : (k.envs cur).envPgdir = some pd)
    (hok : userMemAssert cpu cur s len pteU k = .ret () k) :
    userMemCheck pd s len (pteU ||| pteU) k.vm = some .ok := by
  simp only [userMemAssert, hpd] at hok
  split at hok
  · simp at hok
  · assumption
  · simp only [envDestroy, hcur, ne_eq, not_true_eq_false, and_false, if_false] at hok
    split at hok
    · simp at hok
    · rename_i k' hfree
      have hcur' : k'.curenv cpu = some cur := by
        simp only [envFree, Option.bind_eq_bind, Option.bind_eq_some_iff, Option.some.injEq] at hfree
        obtain ⟨-, -, vm, -, rfl⟩ := hfree
        exact hcur
      simp [hcur'] at hok

lemma sysCputs_returns (hpd : (k.envs cur).envPgdir = some pd) (hok : userMemAssert cpu cur s len pteU k = .ret () k)
    (hright : CputsRight (fun a => loadByte pd a k.vm) s len (cprintfPrec pd len s k.vm)) :
    sysCputs cpu cur s len k = .ret () k := by
  simp only [sysCputs, hok, Outcome.bind, hpd, hright.returns]

end

/-- `sys_cputs(0x800000, 0)` by the first program, which has nothing mapped there: the check of the
empty range succeeds, the string loop reads the byte at `0x800000`, and the kernel panics. -/
theorem cputs_of_nothing_panics : ∃ k0 k pd, Started k0 ∧ (envRun 0 0 k0).To k ∧ k.curenv 0 = some 0 ∧
    (k.envs 0).envPgdir = some pd ∧ KernelBuilt k.vm pd ∧ userMemAssert 0 0 0x800000 0 pteU k = .ret () k ∧
    ¬ CputsRight (fun a => loadByte pd a k.vm) 0x800000 0 (cprintfPrec pd 0 0x800000 k.vm) ∧
    (cprintfPrec pd 0 0x800000 k.vm).stop = some (.fault 0x800000) ∧
    sysCputs 0 0 0x800000 0 k = .exit .panic := by
  have htest : ((envCreate emptyElf .user smallKernel).any fun k0 => (envRun 0 0 k0).check fun k =>
      k.curenv 0 == some 0 && stackTest k 2 && loadByte 2 0x800000 k.vm == none) = true := by decide +kernel
  obtain ⟨k0, hstart, hk0⟩ := exists_created htest
  obtain ⟨k, hto, hk⟩ := Exit.exists_to hk0
  simp only [Bool.and_eq_true, beq_iff_eq] at hk
  obtain ⟨⟨hcur, htest'⟩, hload⟩ := hk
  have hpd := pgdir_of_stackTest htest'
  have hok : userMemAssert 0 0 0x800000 0 pteU k = .ret () k := by
    have hcheck : userMemCheck 2 0x800000 0 (pteU ||| pteU) k.vm = some .ok := userMemCheck_empty (by decide)
    simp only [userMemAssert, hpd, hcheck]
  have hstop : (cprintfPrec 2 0 0x800000 k.vm).stop = some (.fault 0x800000) := by
    rw [cprintfPrec, vprintfmt_prec (by decide) (by decide), if_neg (by decide)]
    have hfetch : fetch (fun a => loadByte 2 a k.vm) [] (0x800000 + 0) = none :=
      (fetch_of_lt (by decide)).trans hload
    exact (printed_stop _).trans <| strLoop_fault (n := 0) (by simp) hfetch (by decide) (by decide) (Or.inr (by decide))
  refine ⟨k0, k, 2, hstart, hto, hcur, hpd,
    kernelBuilt_of_stackTest htest', hok, fun hright => ?_, hstop, ?_⟩
  · have := hright.returns
    rw [hstop] at this
    simp at this
  · simp only [sysCputs, hok, Outcome.bind, hpd, hstop]

/-- After a successful check, the printing is right exactly if the pointer is not null and the range
has a NUL, with at most 2^31 bytes before it, all readable. Below the last page the check has made
sure that they are. -/
theorem cputs_right_iff {k : Kernel} {cpu cur pd s len : Nat} (hcur : k.curenv cpu = some cur)
    (hpd : (k.envs cur).envPgdir = some pd) (hb : KernelBuilt k.vm pd) (hs32 : s < 2 ^ 32) (hlen : len < 2 ^ 32)
    (hend : s + len ≤ 2 ^ 32) (hok : userMemAssert cpu cur s len pteU k = .ret () k) :
    (CputsRight (fun a => loadByte pd a k.vm) s len (cprintfPrec pd len s k.vm) ↔
      s ≠ 0 ∧ NulWithin (fun a => loadByte pd a k.vm) s len) ∧
    (s + len ≤ 2 ^ 32 - 4096 →
      (CputsRight (fun a => loadByte pd a k.vm) s len (cprintfPrec pd len s k.vm) ↔
        s ≠ 0 ∧ ∃ n, n < len ∧ n ≤ 2 ^ 31 ∧ loadByte pd (s + n) k.vm = some 0)) ∧
    (CputsRight (fun a => loadByte pd a k.vm) s len (cprintfPrec pd len s k.vm) →
      sysCputs cpu cur s len k = .ret () k) := by
  have hiff : CputsRight (fun a => loadByte pd a k.vm) s len (cprintfPrec pd len s k.vm) ↔
      s ≠ 0 ∧ NulWithin (fun a => loadByte pd a k.vm) s len := vprintfmt_right_iff hs32 hlen hend
  refine ⟨hiff, fun hlow => ?_, sysCputs_returns hpd hok⟩
  refine hiff.trans (and_congr_right fun _ => ?_)
  have hcheck := check_of_assert hcur hpd hok
  constructor
  · rintro ⟨n, hn, hn31, hnul, -⟩
    exact ⟨n, hn, hn31, hnul⟩
  · rintro ⟨n, hn, hn31, hnul⟩
    exact ⟨n, hn, hn31, hnul, fun j hj => loadByte_of_check hb hlow hcheck (by omega)⟩

def helloElf : Elf := ⟨elfMagic, 0x800020, [⟨elfProgLoad, 0, 0x800000, 3, 4⟩], [104, 105, 0]⟩

lemma helloElf_user : UserElf helloElf := by
  intro ph hph _
  simp only [helloElf, List.mem_singleton] at hph
  subst hph
  decide

/-- The program prints its string. -/
theorem cputs_right_hello : ∃ k0 k pd, Started k0 ∧ (envRun 0 0 k0).To k ∧
    loadByte pd 0x800000 k.vm = some 104 ∧
    CputsRight (fun a => loadByte pd a k.vm) 0x800000 4 (cprintfPrec pd 4 0x800000 k.vm) ∧
    sysCputs 0 0 0x800000 4 k = .ret () k := by
  have htest : ((envCreate helloElf .user smallKernel).any fun k0 => (envRun 0 0 k0).check fun k =>
      k.curenv 0 == some 0 && stackTest k 2 && userMemCheck 2 0x800000 4 (pteU ||| pteU) k.vm == some .ok &&
        loadByte 2 0x800000 k.vm == some 104 && loadByte 2 0x800002 k.vm == some 0) = true := by decide +kernel
  obtain ⟨k0, hcreate, hk0⟩ := (Option.any_eq_true _ _).mp htest
  obtain ⟨k, hto, hk⟩ := Exit.exists_to hk0
  simp only [Bool.and_eq_true, beq_iff_eq] at hk
  obtain ⟨⟨⟨⟨hcur, htest'⟩, hcheck⟩, hfirst⟩, hnul⟩ := hk
  have hpd := pgdir_of_stackTest htest'
  have hok : userMemAssert 0 0 0x800000 4 pteU k = .ret () k := by
    simp only [userMemAssert, hpd, hcheck]
  have hiff := cputs_right_iff hcur hpd (kernelBuilt_of_stackTest htest') (by decide) (by decide) (by decide) hok
  have hright := (hiff.2.1 (by decide)).mpr ⟨by decide, 2, by decide, by decide, hnul⟩
  exact ⟨k0, k, 2, .create (.boot smallKernel_booted) helloElf_user hcreate, hto, hfirst, hright,
    hiff.2.2 hright⟩

end Jos
