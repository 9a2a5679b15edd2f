import Jos.Mmu

/-!
# `fork` and the pages marked `PTE_SHARE`

The loop of `fork` over the page tables of the parent, with the calls that `duppage` makes.
Between them the parent writes its stack, which the loop itself makes copy-on-write, and `pgfault`
copies the page by way of `PFTEMP`. A call that fails ends in a panic.
-/

namespace Jos.Fork
open Bits Function

/-- `PGNUM(UTOP) - 1`, the page of the exception stack. -/
def lastPn : Nat := 0xEEBFF

def tempPn : Nat := pftemp / pgsize

def isUser (w : Nat) : Bool := present w && flag w pteU

def canWrite (w : Nat) : Bool := isUser w && writable w

def isCow (w : Nat) : Bool := flag w pteW || flag w pteCow

def mapped (w perm : Nat) : Nat := entry (ppn w) (pteP ||| perm)

/-- What the parent sees of its page tables. -/
structure UserTables where
  uvpd : Nat → Nat
  uvpt : Nat → Nat
  absent : ∀ pn, present (uvpd (pn / 1024)) = false → present (uvpt pn) = false

namespace UserTables

lemma table {t : UserTables} {pn : Nat} (h : present (t.uvpt pn) = true) :
    present (t.uvpd (pn / 1024)) = true := by
  refine Bool.eq_true_of_not_eq_false fun hno => ?_
  rw [t.absent pn hno] at h
  cases h

/-- Another entry in a page table that is there. -/
def remap (t : UserTables) (pn w : Nat) (h : present (t.uvpd (pn / 1024)) = true) : UserTables where
  uvpd := t.uvpd
  uvpt := update t.uvpt pn w
  absent := by
    intro p hp
    by_cases hpn : p = pn
    · subst hpn
      exact absurd (hp.symm.trans h) (by decide)
    · rw [update_of_ne hpn]
      exact t.absent p hp

lemma remap_self (t : UserTables) (pn w : Nat) (h) : (t.remap pn w h).uvpt pn = w := update_self ..

lemma remap_of_ne {p pn : Nat} (hp : p ≠ pn) (t : UserTables) (w : Nat) (h) :
    (t.remap pn w h).uvpt p = t.uvpt p := update_of_ne hp ..

/-- `PFTEMP` was mapped, for which there is a page table now, and unmapped. -/
def unmapTemp (t : UserTables) : UserTables where
  uvpd := update t.uvpd (tempPn / 1024) (t.uvpd (tempPn / 1024) ||| pteP)
  uvpt := update t.uvpt tempPn 0
  absent := by
    intro p hp
    by_cases hpn : p = tempPn
    · rw [hpn, update_self, present_zero]
    · rw [update_of_ne hpn]
      by_cases hd : p / 1024 = tempPn / 1024
      · rw [hd, update_self, present, flag_or] at hp
        exact absurd (Bool.or_eq_false_iff.mp hp).2 (by decide)
      · rw [update_of_ne hd] at hp
        exact t.absent p hp

end UserTables

/-- The tables of the parent and the entries of the child. -/
structure Forking where
  parent : UserTables
  child : Nat → Nat

/-- The parent writes to page `pn`. If that faults, `sys_page_alloc` hands out `page`. -/
structure Write where
  pn : Nat
  page : Option Nat

/-- Where in `fork` the parent is: before the loop, at the `i`-th point of the turn of page `pn`, or
at the `i`-th call behind the loop. -/
inductive Point where
  | start
  | page (pn i : Nat)
  | last (i : Nat)

/-- A write, with the fault it causes and the handling of that by `pgfault`. -/
def write (s : Forking) (w : Write) : Option Forking :=
  if canWrite (s.parent.uvpt w.pn) then some s
  else if h : present (s.parent.uvpt w.pn) = true ∧ flag (s.parent.uvpt w.pn) pteU = true ∧
      flag (s.parent.uvpt w.pn) pteCow = true then
    match w.page with
    | none => none
    | some q =>
      -- the program writes again, and a page at `PFTEMP` is gone by then
      if w.pn = tempPn then none
      else some { s with parent := (s.parent.remap w.pn (entry q (pteP ||| pteU ||| pteW)) (UserTables.table h.1)).unmapTemp }
  else none

/-- `sys_page_map` wants a page table and does not look at `PTE_P` of the entry. -/
def mapChild (fails : Bool) (pn perm : Nat) (s : Forking) : Option Forking :=
  if fails || !present (s.parent.uvpd (pn / 1024)) then none
  else some { s with child := update s.child pn (mapped (s.parent.uvpt pn) perm) }

def mapSelf (fails : Bool) (pn perm : Nat) (s : Forking) : Option Forking :=
  if h : fails = false ∧ present (s.parent.uvpd (pn / 1024)) = true then
    some { s with parent := s.parent.remap pn (mapped (s.parent.uvpt pn) perm) h.2 }
  else none

/-- Which calls fail, and what the parent writes before each point. -/
structure Schedule where
  fails : Point → Bool
  writes : Point → List Write

namespace Schedule
variable (c : Schedule)

def write (p : Point) (s : Forking) : Option Forking := (c.writes p).foldlM Fork.write s

/-- The first calls of `duppage`, where `cow` is what it has read from `uvpt`. -/
def mapPage (cow : Bool) (pn : Nat) (s : Forking) : Option Forking :=
  if cow then do
    let s ← mapChild (c.fails (.page pn 2)) pn (pteU ||| pteP ||| pteCow) s
    let s ← c.write (.page pn 3) s
    mapSelf (c.fails (.page pn 3)) pn (pteU ||| pteP ||| pteCow) s
  else mapChild (c.fails (.page pn 2)) pn (pteU ||| pteP) s

def duppage (pn : Nat) (s : Forking) : Option Forking := do
  let s ← c.write (.page pn 1) s
  let cow := isCow (s.parent.uvpt pn)
  let s ← c.write (.page pn 2) s
  let s ← c.mapPage cow pn s
  let s ← c.write (.page pn 4) s
  -- `uvpt` is read again
  if flag (s.parent.uvpt pn) pteShare then do
    let perm := s.parent.uvpt pn &&& pteSyscall
    let s ← c.write (.page pn 5) s
    mapChild (c.fails (.page pn 5)) pn perm s
  else some s

def page (pn : Nat) (s : Forking) : Option Forking := do
  let s ← c.write (.page pn 0) s
  if isUser (s.parent.uvpt pn) then c.duppage pn s else some s

/-- The entries of one page table. -/
def pages : Nat → Nat → Forking → Option Forking
  | 0, _, s => some s
  | n + 1, pn, s => (c.page pn s).bind (pages n (pn + 1))

def tables : Nat → Nat → Forking → Option Forking
  | 0, _, s => some s
  | n + 1, pn, s =>
    if lastPn ≤ pn then some s
    else if present (s.parent.uvpd (pn / 1024)) = false then tables n (pn + 1024) s
    else (c.pages (min (pn + 1024) lastPn - pn) pn s).bind (tables n (min (pn + 1024) lastPn))

/-- A call that does not touch the tables in question. -/
def call (p : Point) (s : Forking) : Option Forking := do
  let s ← c.write p s
  if c.fails p then none else some s

/-- The last three calls are for the exception stack, the upcall and the status of the child. -/
def fork (stack : Nat) (t : UserTables) : Option Forking := do
  let s ← c.write .start ⟨t, fun _ => 0⟩
  let s ← c.tables 956 0 s
  let s ← c.call (.last 0) s
  let s := { s with child := update s.child lastPn (entry stack (pteP ||| pteU ||| pteW)) }
  let s ← c.call (.last 1) s
  c.call (.last 2) s

end Schedule

/-! ## What becomes of a page -/

def dupSelf (w : Nat) : Nat := if isCow w then mapped w (pteU ||| pteP ||| pteCow) else w

def dupChild (w : Nat) : Nat :=
  if isCow w then mapped w (pteU ||| pteP ||| pteCow)
  else if flag w pteShare then mapped w (w &&& pteSyscall)
  else mapped w (pteU ||| pteP)

lemma share_cow (w : Nat) : flag (mapped w (pteU ||| pteP ||| pteCow)) pteShare = false :=
  flag_entry (by decide) _ _

lemma canWrite_cow (w : Nat) : canWrite (mapped w (pteU ||| pteP ||| pteCow)) = false := by
  have hw : writable (mapped w (pteU ||| pteP ||| pteCow)) = false := flag_entry (by decide) _ _
  rw [canWrite, hw, Bool.and_false]

section
variable {s s' : Forking} {w : Write}

/-- A write leaves the tables as they are, or copies one page that was copy-on-write and
unmaps `PFTEMP`. -/
lemma write_cases (h : write s w = some s') :
    s' = s ∧ canWrite (s.parent.uvpt w.pn) = true ∨ isCow (s.parent.uvpt w.pn) = true ∧ s'.child = s.child ∧
      ∃ q, s'.parent.uvpt =
        update (update s.parent.uvpt w.pn (entry q (pteP ||| pteU ||| pteW))) tempPn 0 := by
  unfold write at h
  split at h
  · exact .inl ⟨(Option.some.inj h).symm, ‹_›⟩
  · split at h
    · rename_i hcow
      split at h
      · cases h
      · rename_i q _
        split at h
        · cases h
        · cases h
          exact .inr ⟨by rw [isCow, hcow.2.2, Bool.or_true], rfl, q, rfl⟩
    · cases h

lemma mapChild_some {fails : Bool} {pn perm : Nat} (h : mapChild fails pn perm s = some s') :
    s' = { s with child := update s.child pn (mapped (s.parent.uvpt pn) perm) } := by
  unfold mapChild at h
  split at h
  · cases h
  · exact (Option.some.inj h).symm

lemma mapSelf_some {fails : Bool} {pn perm : Nat} (h : mapSelf fails pn perm s = some s') :
    ∃ hp, s' = { s with parent := s.parent.remap pn (mapped (s.parent.uvpt pn) perm) hp } := by
  unfold mapSelf at h
  split at h
  · rename_i hp
    exact ⟨hp.2, (Option.some.inj h).symm⟩
  · cases h

end

section
variable {c : Schedule} {pn : Nat} {s s' : Forking} {P : Forking → Prop}

lemma writes_keep {l : List Write} (hw : ∀ w ∈ l, ∀ s s', write s w = some s' → P s → P s')
    (h : l.foldlM write s = some s') (hP : P s) : P s' := by
  induction l generalizing s with
  | nil =>
    cases h
    exact hP
  | cons w l ih =>
    obtain ⟨s1, h1, h⟩ := Option.bind_eq_some_iff.mp h
    exact ih (fun w' hw' => hw w' (List.mem_cons_of_mem _ hw')) h (hw w List.mem_cons_self _ _ h1 hP)

/-- The states that `duppage` goes through. -/
lemma duppage_some (h : c.duppage pn s = some s') : ∃ s1 s2 s3 s4, c.write (.page pn 1) s = some s1 ∧
    c.write (.page pn 2) s1 = some s2 ∧
    (isCow (s1.parent.uvpt pn) = true ∧ (∃ s5 hp,
        c.write (.page pn 3)
          { s2 with child := update s2.child pn (mapped (s2.parent.uvpt pn) (pteU ||| pteP ||| pteCow)) } = some s5 ∧
        s3 = { s5 with parent :=
          s5.parent.remap pn (mapped (s5.parent.uvpt pn) (pteU ||| pteP ||| pteCow)) hp }) ∨
      isCow (s1.parent.uvpt pn) = false ∧
        s3 = { s2 with child := update s2.child pn (mapped (s2.parent.uvpt pn) (pteU ||| pteP)) }) ∧
    c.write (.page pn 4) s3 = some s4 ∧
    (flag (s4.parent.uvpt pn) pteShare = true ∧ (∃ s5, c.write (.page pn 5) s4 = some s5 ∧ s' =
        { s5 with child := update s5.child pn (mapped (s5.parent.uvpt pn) (s4.parent.uvpt pn &&& pteSyscall)) }) ∨
      flag (s4.parent.uvpt pn) pteShare = false ∧ s' = s4) := by
  unfold Schedule.duppage at h
  simp only [Option.bind_eq_bind, Option.bind_eq_some_iff] at h
  obtain ⟨s1, h1, s2, h2, s3, h3, s4, h4, h5⟩ := h
  refine ⟨s1, s2, s3, s4, h1, h2, ?_, h4, ?_⟩
  · unfold Schedule.mapPage at h3
    cases hcow : isCow (s1.parent.uvpt pn) with
    | false =>
      rw [hcow, if_neg Bool.false_ne_true] at h3
      exact .inr ⟨rfl, mapChild_some h3⟩
    | true =>
      rw [hcow, if_pos rfl] at h3
      simp only [Option.bind_eq_bind, Option.bind_eq_some_iff] at h3
      obtain ⟨s5, h5, s6, h6, h7⟩ := h3
      obtain ⟨hp, hs3⟩ := mapSelf_some h7
      rw [mapChild_some h5] at h6
      exact .inl ⟨rfl, s6, hp, h6, hs3⟩
  · cases hshare : flag (s4.parent.uvpt pn) pteShare with
    | false =>
      rw [hshare, if_neg Bool.false_ne_true] at h5
      exact .inr ⟨rfl, (Option.some.inj h5).symm⟩
    | true =>
      rw [hshare, if_pos rfl] at h5
      obtain ⟨s5, hw, hmap⟩ := Option.bind_eq_some_iff.mp h5
      exact .inl ⟨rfl, s5, hw, mapChild_some hmap⟩

/-- What `duppage` does if the parent writes nothing meanwhile. -/
lemma duppage_alone (hw : ∀ i, c.writes (.page pn i) = []) (h : c.duppage pn s = some s') :
    s'.parent.uvpt = update s.parent.uvpt pn (dupSelf (s.parent.uvpt pn)) ∧
      s'.child = update s.child pn (dupChild (s.parent.uvpt pn)) := by
  have hwrite : ∀ i s s', c.write (.page pn i) s = some s' → s' = s := by
    intro i s s' h
    rw [Schedule.write, hw i] at h
    exact (Option.some.inj h).symm
  obtain ⟨s1, s2, s3, s4, h1, h2, h3, h4, h5⟩ := duppage_some h
  obtain rfl := hwrite _ _ _ h1
  obtain rfl := hwrite _ _ _ h2
  obtain rfl := hwrite _ _ _ h4
  unfold dupSelf dupChild
  rcases h3 with ⟨hcow, s5, hp, h6, rfl⟩ | ⟨hcow, rfl⟩
  · obtain rfl := hwrite _ _ _ h6
    rw [if_pos hcow, if_pos hcow]
    rcases h5 with ⟨hshare, -⟩ | ⟨-, rfl⟩
    · rw [UserTables.remap_self, share_cow] at hshare
      cases hshare
    · exact ⟨rfl, rfl⟩
  · rw [hcow, if_neg Bool.false_ne_true, if_neg Bool.false_ne_true, update_eq_self]
    rcases h5 with ⟨hshare, s5, h6, rfl⟩ | ⟨hshare, rfl⟩
    · obtain rfl := hwrite _ _ _ h6
      rw [if_pos hshare]
      exact ⟨rfl, update_idem ..⟩
    · rw [hshare, if_neg Bool.false_ne_true]
      exact ⟨rfl, rfl⟩

/-- What the writes and the changes of the entries of `pn` keep, the turn of `pn` keeps. -/
lemma page_keeps (hw : ∀ i, ∀ w ∈ c.writes (.page pn i), ∀ s s', write s w = some s' → P s → P s')
    (hc : ∀ (s : Forking) w, P s → P { s with child := update s.child pn w })
    (hs : ∀ (s : Forking) w hp, P s →
      P { s with parent := s.parent.remap pn (mapped w (pteU ||| pteP ||| pteCow)) hp })
    (h : c.page pn s = some s') (hP : P s) : P s' := by
  have hwrite : ∀ i s s', c.write (.page pn i) s = some s' → P s → P s' := fun i s s' => writes_keep (hw i)
  obtain ⟨s0, h0, h⟩ := Option.bind_eq_some_iff.mp h
  have hP0 := hwrite 0 s s0 h0 hP
  split at h
  · obtain ⟨s1, s2, s3, s4, h1, h2, h3, h4, h5⟩ := duppage_some h
    have hP2 := hwrite 2 s1 s2 h2 (hwrite 1 s0 s1 h1 hP0)
    have hP3 : P s3 := by
      rcases h3 with ⟨-, s5, hp, h5, rfl⟩ | ⟨-, rfl⟩
      · exact hs _ _ _ (hwrite 3 _ s5 h5 (hc _ _ hP2))
      · exact hc _ _ hP2
    have hP4 := hwrite 4 s3 s4 h4 hP3
    rcases h5 with ⟨-, s5, h5, rfl⟩ | ⟨-, rfl⟩
    · exact hc _ _ (hwrite 5 s4 s5 h5 hP4)
    · exact hP4
  · cases h
    exact hP0

variable {I : Nat → Forking → Prop}

lemma pages_inv (hpage : ∀ pn s s', c.page pn s = some s' → I pn s → I (pn + 1) s') (n : Nat)
    (h : c.pages n pn s = some s') (hI : I pn s) : I (pn + n) s' := by
  induction n generalizing pn s with
  | zero =>
    cases h
    exact hI
  | succ n ih =>
    obtain ⟨s1, h1, h⟩ := Option.bind_eq_some_iff.mp h
    rw [show pn + (n + 1) = pn + 1 + n by omega]
    exact ih h (hpage _ _ _ h1 hI)

/-- What the turn of a page brings from `pn` to `pn + 1`, and what also holds behind a page table
that is absent, holds behind the last page at the end. -/
lemma tables_inv (hpage : ∀ pn s s', c.page pn s = some s' → I pn s → I (pn + 1) s')
    (hskip : ∀ pn s, pn % 1024 = 0 → present (s.parent.uvpd (pn / 1024)) = false → I pn s → I (pn + 1024) s)
    (n : Nat) (h : c.tables n pn s = some s') (hpn : pn % 1024 = 0 ∨ lastPn ≤ pn) (hn : lastPn ≤ pn + 1024 * n)
    (hI : I pn s) : ∃ pn', lastPn ≤ pn' ∧ I pn' s' := by
  induction n generalizing pn s with
  | zero =>
    cases h
    exact ⟨pn, hn, hI⟩
  | succ n ih =>
    unfold Schedule.tables at h
    split at h
    · rename_i hend
      cases h
      exact ⟨pn, hend, hI⟩
    · have hpn' := hpn.resolve_right ‹_›
      split at h
      · exact ih h (by omega) (by omega) (hskip pn s hpn' ‹_› hI)
      · obtain ⟨s1, h1, h⟩ := Option.bind_eq_some_iff.mp h
        refine ih h (by omega) (by omega) ?_
        have hI' := pages_inv hpage _ h1 hI
        rwa [show pn + (min (pn + 1024) lastPn - pn) = min (pn + 1024) lastPn by omega] at hI'

lemma call_some {p : Point} (h : c.call p s = some s') : c.write p s = some s' := by
  unfold Schedule.call at h
  obtain ⟨s1, h1, h⟩ := Option.bind_eq_some_iff.mp h
  split at h
  · cases h
  · cases h
    exact h1

/-- The states between the calls behind the loop. -/
lemma fork_some {stack : Nat} {t : UserTables} (h : c.fork stack t = some s') : ∃ s0 s1 s2 s3,
    c.write .start ⟨t, fun _ => 0⟩ = some s0 ∧ c.tables 956 0 s0 = some s1 ∧ c.write (.last 0) s1 = some s2 ∧
    c.write (.last 1)
      { s2 with child := update s2.child lastPn (entry stack (pteP ||| pteU ||| pteW)) } = some s3 ∧
    c.write (.last 2) s3 = some s' := by
  unfold Schedule.fork at h
  simp only [Option.bind_eq_bind, Option.bind_eq_some_iff] at h
  obtain ⟨s0, h0, s1, h1, s2, h2, s3, h3, h4⟩ := h
  exact ⟨s0, s1, s2, s3, h0, h1, call_some h2, call_some h3, call_some h4⟩

end

/-! ## A page that no fault reaches -/

/-- No fault of the parent changes the entry of `p`. -/
structure Quiet (c : Schedule) (t : UserTables) (p : Nat) : Prop where
  temp : p ≠ tempPn
  writes : isCow (t.uvpt p) = false ∨ ∀ x, ∀ w ∈ c.writes x, w.pn ≠ p

/-- The entries of `p`, once the pages below `pn` have been copied. -/
def Upto (t : UserTables) (p pn : Nat) (s : Forking) : Prop :=
  if p < pn ∧ isUser (t.uvpt p) = true then
    s.parent.uvpt p = dupSelf (t.uvpt p) ∧ s.child p = dupChild (t.uvpt p)
  else s.parent.uvpt p = t.uvpt p ∧ s.child p = 0

section
variable {c : Schedule} {t : UserTables} {p pn v y : Nat} {s s' : Forking}

lemma dupSelf_of_not_cow (h : isCow v = false) : dupSelf v = v := by
  rw [dupSelf, h, if_neg Bool.false_ne_true]

/-- The entries a quiet page has before and after its turn are changed by no write. -/
lemma Quiet.write (hq : Quiet c t p) (hv : v = t.uvpt p ∨ v = dupSelf (t.uvpt p)) (x : Point) :
    ∀ w ∈ c.writes x, ∀ s s', Fork.write s w = some s' → s.parent.uvpt p = v ∧ s.child p = y →
      s'.parent.uvpt p = v ∧ s'.child p = y := by
  intro w hw s s' h hs
  rcases write_cases h with ⟨rfl, -⟩ | ⟨hcow, hchild, q, hparent⟩
  · exact hs
  · have hne : w.pn ≠ p := by
      rcases hq.writes with hno | hno
      · rintro rfl
        rw [hs.1] at hcow
        rcases hv with rfl | rfl
        · exact Bool.false_ne_true (hno.symm.trans hcow)
        · rw [dupSelf_of_not_cow hno] at hcow
          exact Bool.false_ne_true (hno.symm.trans hcow)
      · exact hno x w hw
    rw [hparent, update_of_ne hq.temp, update_of_ne hne.symm, hchild]
    exact hs

lemma Quiet.duppage (hq : Quiet c t p) (h : c.duppage p s = some s') (hs : s.parent.uvpt p = t.uvpt p) :
    s'.parent.uvpt p = dupSelf (t.uvpt p) ∧ s'.child p = dupChild (t.uvpt p) := by
  have hbefore : ∀ x s s', c.write x s = some s' → s.parent.uvpt p = t.uvpt p →
      s'.parent.uvpt p = t.uvpt p ∧ s'.child p = s.child p :=
    fun x s s' h hs => writes_keep (hq.write (.inl rfl) x) h ⟨hs, rfl⟩
  obtain ⟨s1, s2, s3, s4, h1, h2, h3, h4, h5⟩ := duppage_some h
  have hs1 := (hbefore _ _ _ h1 hs).1
  have hs2 := (hbefore _ _ _ h2 hs1).1
  unfold dupChild
  rcases h3 with ⟨hcow, s5, hp, h6, rfl⟩ | ⟨hcow, rfl⟩
  · rw [hs1] at hcow
    obtain ⟨hs5, hchild⟩ := hbefore _ _ _ h6 hs2
    rw [hs2] at hchild
    replace hchild := hchild.trans (update_self ..)
    have hself : dupSelf (t.uvpt p) = mapped (t.uvpt p) (pteU ||| pteP ||| pteCow) := if_pos hcow
    have hs4 : s4.parent.uvpt p = dupSelf (t.uvpt p) ∧ s4.child p = mapped (t.uvpt p) (pteU ||| pteP ||| pteCow) := by
      refine writes_keep (hq.write (.inr rfl) _) h4 ⟨?_, hchild⟩
      rw [hself, ← hs5]
      exact update_self ..
    rw [hs4.1, hself, share_cow] at h5
    rcases h5 with ⟨h5, -⟩ | ⟨-, rfl⟩
    · cases h5
    · rwa [if_pos hcow]
  · rw [hs1] at hcow
    obtain ⟨hs4, hchild⟩ := hbefore _ _ _ h4 hs2
    rw [hs2] at hchild
    replace hchild := hchild.trans (update_self ..)
    rw [dupSelf_of_not_cow hcow, hcow, if_neg Bool.false_ne_true]
    rw [hs4] at h5
    rcases h5 with ⟨hshare, s5, h6, rfl⟩ | ⟨hshare, rfl⟩
    · obtain ⟨hs5, -⟩ := hbefore _ _ _ h6 hs4
      refine ⟨hs5, ?_⟩
      rw [if_pos hshare, ← hs5]
      exact update_self ..
    · rw [hshare, if_neg Bool.false_ne_true]
      exact ⟨hs4, hchild⟩

lemma Quiet.page (hq : Quiet c t p) (h : c.page pn s = some s') (hs : Upto t p pn s) :
    Upto t p (pn + 1) s' := by
  unfold Upto at hs ⊢
  by_cases hp : p = pn
  · subst hp
    rw [if_neg fun hlt => lt_irrefl p hlt.1] at hs
    obtain ⟨s0, h0, h⟩ := Option.bind_eq_some_iff.mp h
    have hs0 := writes_keep (hq.write (.inl rfl) _) h0 hs
    rw [hs0.1] at h
    split at h
    · rename_i huser
      rw [if_pos ⟨Nat.lt_succ_self p, huser⟩]
      exact hq.duppage h hs0.1
    · rename_i huser
      cases h
      rw [if_neg fun hlt => huser hlt.2]
      exact hs0
  · have hkeep : ∀ {v y : Nat}, v = t.uvpt p ∨ v = dupSelf (t.uvpt p) →
        s.parent.uvpt p = v ∧ s.child p = y → s'.parent.uvpt p = v ∧ s'.child p = y := by
      intro v y hv
      refine page_keeps (fun i => hq.write hv _) (fun s w hP => ?_) (fun s w _ hP => ?_) h
      · exact ⟨hP.1, (update_of_ne hp _ _).trans hP.2⟩
      · exact ⟨(update_of_ne hp _ _).trans hP.1, hP.2⟩
    have hlt : p < pn + 1 ↔ p < pn := by omega
    simp only [hlt]
    split at hs
    · rw [if_pos ‹_›]
      exact hkeep (.inr rfl) hs
    · rw [if_neg ‹_›]
      exact hkeep (.inl rfl) hs

/-- A page table that is absent is skipped, and has no pages. -/
lemma Upto.skip (hs : Upto t p pn s) (hpn : pn % 1024 = 0)
    (habsent : present (s.parent.uvpd (pn / 1024)) = false) : Upto t p (pn + 1024) s := by
  unfold Upto at hs ⊢
  by_cases hp : p < pn ∨ pn + 1024 ≤ p
  · have hlt : p < pn + 1024 ↔ p < pn := by omega
    simpa only [hlt] using hs
  · have hnone := s.parent.absent p (by rwa [show p / 1024 = pn / 1024 by omega])
    rw [if_neg fun hlt => hp (.inl hlt.1)] at hs
    rw [hs.1] at hnone
    rw [if_neg fun hlt => by simp [isUser, hnone] at hlt]
    exact hs

/-- What becomes of a quiet page. -/
lemma Quiet.fork {stack : Nat} (hq : Quiet c t p) (hp : p < lastPn) (huser : isUser (t.uvpt p) = true)
    (h : c.fork stack t = some s) : s.parent.uvpt p = dupSelf (t.uvpt p) ∧ s.child p = dupChild (t.uvpt p) := by
  obtain ⟨s0, s1, s2, s3, h0, h1, h2, h3, h4⟩ := fork_some h
  have hstart : Upto t p 0 s0 := by
    rw [Upto, if_neg fun hlt => Nat.not_lt_zero _ hlt.1]
    exact writes_keep (hq.write (.inl rfl) _) h0 ⟨rfl, rfl⟩
  obtain ⟨pn', hend, hs1⟩ := tables_inv (fun pn s s' => hq.page) (fun pn s hpn habs hs => hs.skip hpn habs)
    956 h1 (.inl rfl) (by decide) hstart
  rw [Upto, if_pos ⟨by omega, huser⟩] at hs1
  have hs2 := writes_keep (hq.write (.inr rfl) _) h2 hs1
  have hs3 := writes_keep (hq.write (.inr rfl) _) h3 ⟨hs2.1, (update_of_ne (ne_of_lt hp) _ _).trans hs2.2⟩
  exact writes_keep (hq.write (.inr rfl) _) h4 hs3

end

/-! ## Shared pages -/

def SameMapping (w w' : Nat) : Prop := ppn w = ppn w' ∧ w &&& pteSyscall = w' &&& pteSyscall

def IsShared (w : Nat) : Prop := isUser w = true ∧ flag w pteShare = true

def SharesPages (t : UserTables) (s : Forking) : Prop := ∀ pn < lastPn, IsShared (t.uvpt pn) →
  SameMapping (s.child pn) (t.uvpt pn) ∧ SameMapping (s.parent.uvpt pn) (t.uvpt pn)

/-- `PTE_SHARE` of `p` is lost, or its turn is still to come. -/
def Unshared (t : UserTables) (p pn : Nat) (s : Forking) : Prop :=
  pn ≤ p ∧ s.parent.uvpt p = t.uvpt p ∨ flag (s.parent.uvpt p) pteShare = false

section
variable {c : Schedule} {t : UserTables} {p pn v : Nat} {s s' : Forking} {w : Write}

lemma not_same_of_share {w w' : Nat} (h : flag w pteShare = false) (h' : flag w' pteShare = true) :
    ¬ SameMapping w w' := by
  intro hsame
  have hflags := congrArg (flag · pteShare) hsame.2
  simp only [flag_and] at hflags
  exact absurd (h.symm.trans (hflags.trans h')) (by decide)

lemma shared_same {w : Nat} (h : present w) : SameMapping (mapped w (w &&& pteSyscall)) w := by
  have hP : w &&& pteP = pteP := and_of_flag (i := 0) h
  have hperm : pteP ||| w &&& pteSyscall = w &&& pteSyscall :=
    calc pteP ||| w &&& pteSyscall = w &&& pteP ||| w &&& pteSyscall := by rw [hP]
      _ = w &&& pteSyscall := (Nat.and_or_distrib_left ..).symm
  refine ⟨ppn_entry (or_pteP_lt (lt_of_le_of_lt Nat.and_le_right (by decide))) _, ?_⟩
  rw [mapped, entry_and (by decide), hperm, Nat.and_assoc, Nat.and_self]

/-- A fault never leaves `PTE_SHARE` in an entry that it changes. -/
lemma write_share (h : write s w = some s') (p : Nat) :
    s'.parent.uvpt p = s.parent.uvpt p ∨ flag (s'.parent.uvpt p) pteShare = false := by
  rcases write_cases h with ⟨rfl, -⟩ | ⟨-, -, q, hparent⟩
  · exact .inl rfl
  · rw [hparent]
    by_cases htemp : p = tempPn
    · rw [htemp, update_self]
      exact .inr rfl
    · rw [update_of_ne htemp]
      by_cases hp : p = w.pn
      · rw [hp, update_self]
        exact .inr (flag_entry (by decide) _ _)
      · rw [update_of_ne hp]
        exact .inl rfl

lemma write_lost (h : write s w = some s') (hs : flag (s.parent.uvpt p) pteShare = false) :
    flag (s'.parent.uvpt p) pteShare = false := by
  rcases write_share h p with heq | hno
  · rwa [heq]
  · exact hno

lemma write_same_or_lost (h : write s w = some s')
    (hs : s.parent.uvpt p = v ∨ flag (s.parent.uvpt p) pteShare = false) :
    s'.parent.uvpt p = v ∨ flag (s'.parent.uvpt p) pteShare = false := by
  rcases write_share h p with heq | hno
  · rwa [heq]
  · exact .inr hno

/-- The turn of a page that is copy-on-write or writable takes `PTE_SHARE` away. -/
lemma duppage_unshares (hcow : isCow v = true) (h : c.duppage p s = some s')
    (hs : s.parent.uvpt p = v ∨ flag (s.parent.uvpt p) pteShare = false) :
    flag (s'.parent.uvpt p) pteShare = false := by
  have hlost : ∀ x s s', c.write x s = some s' → flag (s.parent.uvpt p) pteShare = false →
      flag (s'.parent.uvpt p) pteShare = false :=
    fun x s s' => writes_keep fun w _ s s' => write_lost
  obtain ⟨s1, s2, s3, s4, h1, h2, h3, h4, h5⟩ := duppage_some h
  have hs1 := writes_keep (fun w _ s s' => write_same_or_lost) h1 hs
  have hs3 : flag (s3.parent.uvpt p) pteShare = false := by
    rcases h3 with ⟨-, s5, hp, -, rfl⟩ | ⟨hno, rfl⟩
    · exact (congrArg (flag · pteShare) (update_self ..)).trans (share_cow _)
    · -- the entry is another one than at the start
      refine hlost _ s1 s2 h2 (hs1.resolve_left fun heq => ?_)
      rw [heq, hcow] at hno
      cases hno
  have hs4 := hlost _ _ _ h4 hs3
  rcases h5 with ⟨hshare, -⟩ | ⟨-, rfl⟩
  · cases hs4.symm.trans hshare
  · exact hs4

lemma Unshared.page (hshared : isUser (t.uvpt p) = true ∧ isCow (t.uvpt p) = true) (h : c.page pn s = some s')
    (hs : Unshared t p pn s) : Unshared t p (pn + 1) s' := by
  by_cases hp : p = pn
  · subst hp
    obtain ⟨s0, h0, h⟩ := Option.bind_eq_some_iff.mp h
    have hs0 := writes_keep (fun w _ s s' => write_same_or_lost) h0 (hs.imp_left And.right)
    split at h
    · exact .inr (duppage_unshares hshared.2 h hs0)
    · rename_i huser
      cases h
      refine .inr (hs0.resolve_left fun heq => huser ?_)
      rw [heq]
      exact hshared.1
  · rcases hs with ⟨hle, hs⟩ | hs
    · have hkept := page_keeps (P := fun s => s.parent.uvpt p = t.uvpt p ∨ flag (s.parent.uvpt p) pteShare = false)
        (fun i w _ s s' => write_same_or_lost) (fun s w hP => hP)
        (fun s w _ hP => by simpa only [UserTables.remap_of_ne hp] using hP) h (.inl hs)
      exact hkept.imp_left fun heq => ⟨by omega, heq⟩
    · exact .inr (page_keeps (P := fun s => flag (s.parent.uvpt p) pteShare = false) (fun i w _ s s' => write_lost)
        (fun s w hP => hP) (fun s w _ hP => by simpa only [UserTables.remap_of_ne hp] using hP) h hs)

lemma Unshared.skip (huser : isUser (t.uvpt p) = true) (hs : Unshared t p pn s) (hpn : pn % 1024 = 0)
    (habsent : present (s.parent.uvpd (pn / 1024)) = false) : Unshared t p (pn + 1024) s := by
  rcases hs with ⟨hle, hs⟩ | hs
  · refine .inl ⟨?_, hs⟩
    by_contra hlt
    have hnone := s.parent.absent p (by rwa [show p / 1024 = pn / 1024 by omega])
    rw [hs] at hnone
    rw [isUser, hnone] at huser
    cases huser
  · exact .inr hs

/-- A page with `PTE_SHARE` that is writable or copy-on-write is shared no more. -/
lemma fork_loses_share {stack : Nat} (hp : p < lastPn)
    (hshared : isUser (t.uvpt p) = true ∧ isCow (t.uvpt p) = true) (h : c.fork stack t = some s) :
    flag (s.parent.uvpt p) pteShare = false := by
  obtain ⟨s0, s1, s2, s3, h0, h1, h2, h3, h4⟩ := fork_some h
  have hlost : ∀ x s s', c.write x s = some s' → flag (s.parent.uvpt p) pteShare = false →
      flag (s'.parent.uvpt p) pteShare = false :=
    fun x s s' => writes_keep fun w _ s s' => write_lost
  have hstart : Unshared t p 0 s0 :=
    (writes_keep (fun w _ s s' => write_same_or_lost) h0 (.inl rfl)).imp_left fun heq => ⟨Nat.zero_le p, heq⟩
  obtain ⟨pn', hend, hs1⟩ := tables_inv (fun pn s s' => Unshared.page hshared)
    (fun pn s hpn habs hs => hs.skip hshared.1 hpn habs) 956 h1 (.inl rfl) (by decide) hstart
  have hs1' := hs1.resolve_left fun hle => by omega
  have hs2 := hlost _ _ _ h2 hs1'
  exact hlost _ _ _ h4 (hlost _ _ _ h3 hs2)

end

/-! ## The stack -/

/-- There was a fault, so that `PFTEMP` is not shared, or a write to page `sp` is going to fault. -/
def Faults (sp : Nat) (s : Forking) : Prop :=
  flag (s.parent.uvpt tempPn) pteShare = false ∨ canWrite (s.parent.uvpt sp) = false

section
variable {c : Schedule} {t : UserTables} {sp pn : Nat} {s s' : Forking} {w : Write}

lemma write_faults (h : write s w = some s') (hs : Faults sp s) : Faults sp s' := by
  rcases write_cases h with ⟨rfl, -⟩ | ⟨-, -, q, hparent⟩
  · exact hs
  · exact .inl (by rw [hparent, update_self]; rfl)

/-- The write to `sp` faults, unless there was a fault before. -/
lemma Faults.write (hs : Faults w.pn s) (h : write s w = some s') :
    flag (s'.parent.uvpt tempPn) pteShare = false := by
  rcases hs with hs | hs
  · exact write_lost h hs
  · rcases write_cases h with ⟨-, hw⟩ | ⟨-, -, q, hparent⟩
    · cases hs.symm.trans hw
    · rw [hparent, update_self]
      rfl

lemma Faults.remap (hs : Faults sp s) (pn v : Nat) (hp) : Faults sp
    { s with parent := s.parent.remap pn (mapped v (pteU ||| pteP ||| pteCow)) hp } := by
  rcases hs with hs | hs
  · left
    by_cases htemp : tempPn = pn
    · subst htemp
      exact (congrArg (flag · pteShare) (UserTables.remap_self _ _ _ hp)).trans (share_cow _)
    · exact (congrArg (flag · pteShare) (UserTables.remap_of_ne htemp _ _ hp)).trans hs
  · right
    by_cases hsp : sp = pn
    · subst hsp
      exact (congrArg canWrite (UserTables.remap_self _ _ _ hp)).trans (canWrite_cow _)
    · exact (congrArg canWrite (UserTables.remap_of_ne hsp _ _ hp)).trans hs

/-- After its turn a page cannot be written without a fault. -/
lemma duppage_faults (h : c.duppage sp s = some s') : Faults sp s' := by
  have hwrite : ∀ x s s', c.write x s = some s' → Faults sp s → Faults sp s' :=
    fun x s s' => writes_keep fun w _ s s' => write_faults
  obtain ⟨s1, s2, s3, s4, h1, h2, h3, h4, h5⟩ := duppage_some h
  have hs3 : Faults sp s3 := by
    rcases h3 with ⟨-, s5, hp, -, rfl⟩ | ⟨hno, rfl⟩
    · exact .inr ((congrArg canWrite (UserTables.remap_self _ _ _ hp)).trans (canWrite_cow _))
    · refine hwrite _ s1 s2 h2 (.inr ?_)
      have hw : writable (s1.parent.uvpt sp) = false := (Bool.or_eq_false_iff.mp hno).1
      rw [canWrite, hw, Bool.and_false]
  have hs4 := hwrite _ _ _ h4 hs3
  rcases h5 with ⟨-, s5, h5, rfl⟩ | ⟨-, rfl⟩
  · exact hwrite _ _ s5 h5 hs4
  · exact hs4

lemma page_faults (h : c.page pn s = some s') (hs : sp < pn → Faults sp s) (hlt : sp < pn + 1) : Faults sp s' := by
  by_cases hsp : sp = pn
  · subst hsp
    obtain ⟨s0, -, h⟩ := Option.bind_eq_some_iff.mp h
    split at h
    · exact duppage_faults h
    · rename_i huser
      cases h
      exact .inr (by rw [canWrite, Bool.eq_false_iff.mpr huser, Bool.false_and])
  · exact page_keeps (fun i w _ s s' => write_faults) (fun s w hP => hP) (fun s w hp hP => hP.remap pn w hp) h
      (hs (by omega))

/-- The parent writes its stack behind the loop, so there is a fault. -/
lemma fork_unshares_temp {stack : Nat} (hw : w ∈ c.writes (.last 0)) (hsp : w.pn < lastPn)
    (h : c.fork stack t = some s) : flag (s.parent.uvpt tempPn) pteShare = false := by
  obtain ⟨s0, s1, s2, s3, h0, h1, h2, h3, h4⟩ := fork_some h
  have hlost : ∀ x s s', c.write x s = some s' → flag (s.parent.uvpt tempPn) pteShare = false →
      flag (s'.parent.uvpt tempPn) pteShare = false :=
    fun x s s' => writes_keep fun w _ s s' => write_lost
  have hskip : ∀ (pn : Nat) (s : Forking), pn % 1024 = 0 → present (s.parent.uvpd (pn / 1024)) = false →
      (w.pn < pn → Faults w.pn s) → w.pn < pn + 1024 → Faults w.pn s := by
    intro pn s hpn habsent hs hlt
    by_cases hlt' : w.pn < pn
    · exact hs hlt'
    · have hnone := s.parent.absent w.pn (by rwa [show w.pn / 1024 = pn / 1024 by omega])
      exact .inr (by rw [canWrite, isUser, hnone, Bool.false_and, Bool.false_and])
  obtain ⟨pn', hend, hs1⟩ := tables_inv (I := fun pn s => w.pn < pn → Faults w.pn s) (fun pn s s' => page_faults)
    hskip 956 h1 (.inl rfl) (by decide) fun hlt => absurd hlt (Nat.not_lt_zero _)
  obtain ⟨before, after, hsplit⟩ := List.append_of_mem hw
  unfold Schedule.write at h2
  rw [hsplit, List.foldlM_append] at h2
  obtain ⟨s1', h1', h2⟩ := Option.bind_eq_some_iff.mp h2
  obtain ⟨s2', h2', h2⟩ := Option.bind_eq_some_iff.mp h2
  have hs2' := (writes_keep (fun w _ s s' => write_faults) h1' (hs1 (by omega))).write h2'
  have hs2 := writes_keep (fun w _ s s' => write_lost) h2 hs2'
  exact hlost _ _ _ h4 (hlost _ _ _ h3 hs2)

end

/-! ## When `fork` returns -/

/-- No call fails, and the parent writes only to pages that are writable or copy-on-write at
the start. -/
structure Calm (c : Schedule) (t : UserTables) : Prop where
  fails : ∀ x, c.fails x = false
  temp : isUser (t.uvpt tempPn) = false
  writes : ∀ x, ∀ w ∈ c.writes x, isUser (t.uvpt w.pn) = true ∧ isCow (t.uvpt w.pn) = true ∧ w.page ≠ none

/-- The pages of the parent are still there, and still to be written. -/
def Alive (t : UserTables) (s : Forking) : Prop := ∀ p, isUser (s.parent.uvpt p) = isUser (t.uvpt p) ∧
  (isUser (t.uvpt p) = true → isCow (s.parent.uvpt p) = isCow (t.uvpt p))

def Returns (t : UserTables) (r : Option Forking) : Prop := ∃ s, r = some s ∧ Alive t s

section
variable {c : Schedule} {t : UserTables} {pn : Nat} {s : Forking}

lemma Returns.bind {r : Option Forking} {f : Forking → Option Forking} (h : Returns t r)
    (hf : ∀ s, Alive t s → Returns t (f s)) : Returns t (r.bind f) := by
  obtain ⟨s, rfl, hs⟩ := h
  exact hf s hs

lemma Alive.table (hs : Alive t s) (hpn : isUser (t.uvpt pn) = true) :
    present (s.parent.uvpd (pn / 1024)) = true :=
  UserTables.table (Bool.and_eq_true_iff.mp ((hs pn).1.trans hpn)).1

variable (hc : Calm c t)
include hc

lemma Calm.write (hs : Alive t s) {x : Point} {w : Write} (hw : w ∈ c.writes x) : Returns t (write s w) := by
  obtain ⟨huser, hcow, hpage⟩ := hc.writes x w hw
  obtain ⟨q, hq⟩ := Option.ne_none_iff_exists'.mp hpage
  have huser' := (hs w.pn).1.trans huser
  have hcow' := ((hs w.pn).2 huser).trans hcow
  unfold Fork.write
  split
  · exact ⟨s, rfl, hs⟩
  · rename_i hno
    have hbits := Bool.and_eq_true_iff.mp huser'
    have hflag : flag (s.parent.uvpt w.pn) pteCow = true := by
      refine (Bool.or_eq_true_iff.mp hcow').resolve_left fun hwr => hno ?_
      rw [canWrite, huser']
      exact hwr
    have htemp : w.pn ≠ tempPn := by
      intro heq
      rw [heq, hc.temp] at huser
      cases huser
    rw [dif_pos ⟨hbits.1, hbits.2, hflag⟩, hq]
    dsimp only
    rw [if_neg htemp]
    refine ⟨_, rfl, fun p => ?_⟩
    unfold UserTables.unmapTemp
    dsimp only
    by_cases hp : p = tempPn
    · rw [hp, update_self, hc.temp]
      exact ⟨rfl, fun h => by cases h⟩
    · rw [update_of_ne hp]
      by_cases hp' : p = w.pn
      · rw [hp', UserTables.remap_self, huser, hcow]
        refine ⟨?_, fun _ => ?_⟩
        · rw [isUser, Jos.present, flag_entry (by decide), flag_entry (by decide)]
          rfl
        · rw [isCow, flag_entry (by decide)]
          rfl
      · rw [UserTables.remap_of_ne hp']
        exact hs p

lemma Calm.writes_return (x : Point) (hs : Alive t s) : Returns t (c.write x s) := by
  have hall : ∀ l : List Write, (∀ w ∈ l, w ∈ c.writes x) → ∀ s, Alive t s → Returns t (l.foldlM Fork.write s) := by
    intro l
    induction l with
    | nil => exact fun _ s hs => ⟨s, rfl, hs⟩
    | cons w l ih =>
      intro hl s hs
      exact (hc.write hs (hl w List.mem_cons_self)).bind (ih fun w' hw' => hl w' (List.mem_cons_of_mem _ hw'))
  exact hall _ (fun _ hw => hw) s hs

lemma Calm.mapChild (x : Point) (hs : Alive t s) (hpn : isUser (t.uvpt pn) = true) (perm : Nat) :
    Returns t (mapChild (c.fails x) pn perm s) := by
  unfold Fork.mapChild
  rw [hc.fails x, hs.table hpn]
  exact ⟨_, rfl, hs⟩

lemma Calm.mapSelf (x : Point) (hs : Alive t s) (hpn : isUser (t.uvpt pn) = true) (hcow : isCow (t.uvpt pn) = true) :
    Returns t (mapSelf (c.fails x) pn (pteU ||| pteP ||| pteCow) s) := by
  unfold Fork.mapSelf
  rw [dif_pos ⟨hc.fails x, hs.table hpn⟩]
  refine ⟨_, rfl, fun p => ?_⟩
  dsimp only
  by_cases hp : p = pn
  · subst hp
    rw [UserTables.remap_self, hpn, hcow]
    refine ⟨?_, fun _ => ?_⟩
    · rw [isUser, mapped, Jos.present, flag_entry (by decide), flag_entry (by decide)]
      rfl
    · rw [isCow, mapped, flag_entry (by decide), flag_entry (by decide)]
      rfl
  · rw [UserTables.remap_of_ne hp]
    exact hs p

lemma Calm.mapPage (hs : Alive t s) (hpn : isUser (t.uvpt pn) = true) :
    Returns t (c.mapPage (isCow (t.uvpt pn)) pn s) := by
  unfold Schedule.mapPage
  cases hcow : isCow (t.uvpt pn) with
  | false => exact hc.mapChild _ hs hpn _
  | true =>
    refine (hc.mapChild _ hs hpn _).bind fun s1 hs1 => ?_
    exact (hc.writes_return _ hs1).bind fun s2 hs2 => hc.mapSelf _ hs2 hpn hcow

lemma Calm.duppage (hs : Alive t s) (hpn : isUser (t.uvpt pn) = true) : Returns t (c.duppage pn s) := by
  refine (hc.writes_return _ hs).bind fun s1 hs1 => (hc.writes_return _ hs1).bind fun s2 hs2 => ?_
  rw [(hs1 pn).2 hpn]
  refine (hc.mapPage hs2 hpn).bind fun s3 hs3 => (hc.writes_return _ hs3).bind fun s4 hs4 => ?_
  split
  · exact (hc.writes_return _ hs4).bind fun s5 hs5 => hc.mapChild _ hs5 hpn _
  · exact ⟨s4, rfl, hs4⟩

lemma Calm.page (hs : Alive t s) (pn : Nat) : Returns t (c.page pn s) := by
  refine (hc.writes_return _ hs).bind fun s1 hs1 => ?_
  split
  · rename_i huser
    exact hc.duppage hs1 ((hs1 pn).1.symm.trans huser)
  · exact ⟨s1, rfl, hs1⟩

lemma Calm.pages (n : Nat) (hs : Alive t s) : Returns t (c.pages n pn s) := by
  induction n generalizing pn s with
  | zero => exact ⟨s, rfl, hs⟩
  | succ n ih => exact (hc.page hs pn).bind fun s1 hs1 => ih hs1

lemma Calm.tables (n : Nat) (hs : Alive t s) : Returns t (c.tables n pn s) := by
  induction n generalizing pn s with
  | zero => exact ⟨s, rfl, hs⟩
  | succ n ih =>
    unfold Schedule.tables
    split
    · exact ⟨s, rfl, hs⟩
    · split
      · exact ih hs
      · exact (hc.pages _ hs).bind fun s1 hs1 => ih hs1

lemma Calm.call (x : Point) (hs : Alive t s) : Returns t (c.call x s) := by
  refine (hc.writes_return x hs).bind fun s1 hs1 => ?_
  rw [hc.fails x]
  exact ⟨s1, rfl, hs1⟩

lemma Calm.fork (stack : Nat) : Returns t (c.fork stack t) := by
  have hstart : Alive t ⟨t, fun _ => 0⟩ := fun p => ⟨rfl, fun _ => rfl⟩
  refine (hc.writes_return _ hstart).bind fun s0 hs0 => (hc.tables 956 hs0).bind fun s1 hs1 => ?_
  refine (hc.call _ hs1).bind fun s2 hs2 => ?_
  have hs2' : Alive t { s2 with child := update s2.child lastPn (entry stack (pteP ||| pteU ||| pteW)) } := hs2
  exact (hc.call _ hs2').bind fun s3 hs3 => hc.call _ hs3

end

/-- `fork` returns if no call and no write of the parent fails. If the parent writes its stack, which is
below the exception stack, the shared pages are still shared unless one of them is writable,
copy-on-write or at `PFTEMP`. -/
theorem fork_shares_iff (c : Schedule) (stack : Nat) (t : UserTables)
    (hstack : ∃ w ∈ c.writes (.last 0), w.pn < lastPn) :
    (Calm c t → (c.fork stack t).isSome = true) ∧ ∀ s, c.fork stack t = some s →
      (SharesPages t s ↔
        ∀ pn < lastPn, IsShared (t.uvpt pn) → isCow (t.uvpt pn) = false ∧ pn ≠ tempPn) := by
  refine ⟨fun hc => ?_, fun s hrun => ⟨fun hshares pn hpn hshared => ?_, fun hquiet pn hpn hshared => ?_⟩⟩
  · obtain ⟨s, hs, -⟩ := hc.fork stack
    rw [hs]
    rfl
  · have hsame := (hshares pn hpn hshared).2
    refine ⟨Bool.eq_false_iff.mpr fun hcow => ?_, ?_⟩
    · exact not_same_of_share (fork_loses_share hpn ⟨hshared.1, hcow⟩ hrun) hshared.2 hsame
    · rintro rfl
      obtain ⟨w, hw, hsp⟩ := hstack
      exact not_same_of_share (fork_unshares_temp hw hsp hrun) hshared.2 hsame
  · obtain ⟨hcow, htemp⟩ := hquiet pn hpn hshared
    obtain ⟨hself, hchild⟩ := Quiet.fork ⟨htemp, .inl hcow⟩ hpn hshared.1 hrun
    rw [hself, hchild, dupSelf_of_not_cow hcow, dupChild, hcow, if_neg Bool.false_ne_true, if_pos hshared.2]
    exact ⟨shared_same (Bool.and_eq_true_iff.mp hshared.1).1, rfl, rfl⟩

/-- Page 0 has the entry `w`, and page 0xEEBFD is the stack. -/
def twoPages (w : Nat) : UserTables where
  uvpd := fun _ => pteP
  uvpt := fun pn => if pn = 0 then w else if pn = 0xEEBFD then 6 * 4096 + 7 else 0
  absent := fun _ h => absurd h (by decide)

/-- Every call succeeds, and the stack is written before the calls behind the loop. -/
def stackWrites : Schedule where
  fails := fun _ => false
  writes := fun x => match x with
    | .last _ => [⟨0xEEBFD, some 8⟩]
    | _ => []

lemma stackWrites_pn {x : Point} {w : Write} (h : w ∈ stackWrites.writes x) : w = ⟨0xEEBFD, some 8⟩ := by
  cases x with
  | last i => exact List.mem_singleton.mp h
  | _ => cases h

lemma stackWrites_calm (w : Nat) : Calm stackWrites (twoPages w) := by
  have htemp : (twoPages w).uvpt tempPn = 0 := rfl
  have hstack : (twoPages w).uvpt 0xEEBFD = 6 * 4096 + 7 := rfl
  refine ⟨fun _ => rfl, by rw [htemp]; rfl, fun x w' hw => ?_⟩
  rw [stackWrites_pn hw, hstack]
  exact ⟨by decide, by decide, fun h => by cases h⟩

theorem fork_shares_read_only : ∃ s, stackWrites.fork 9 (twoPages (5 * 4096 + 1029)) = some s ∧
    SharesPages (twoPages (5 * 4096 + 1029)) s := by
  obtain ⟨hsome, hiff⟩ := fork_shares_iff stackWrites 9 (twoPages (5 * 4096 + 1029))
    ⟨_, List.mem_singleton_self _, by decide⟩
  obtain ⟨s, hs⟩ := Option.isSome_iff_exists.mp (hsome (stackWrites_calm _))
  refine ⟨s, hs, (hiff s hs).mpr fun pn _ hshared => ?_⟩
  by_cases hpn : pn = 0
  · subst hpn
    exact ⟨rfl, by decide⟩
  · have hno := hshared.2
    simp only [twoPages, if_neg hpn] at hno
    split at hno <;> cases hno

/-- A shared page that is writable, as the page of a pipe is, is copy-on-write in both at the end. -/
theorem fork_unshares : IsShared ((twoPages (5 * 4096 + 1031)).uvpt 0) ∧
    ∃ s, stackWrites.fork 9 (twoPages (5 * 4096 + 1031)) = some s ∧ s.parent.uvpt 0 = 5 * 4096 + 2053 ∧
      s.child 0 = 5 * 4096 + 2053 ∧ ¬ SharesPages (twoPages (5 * 4096 + 1031)) s := by
  have hshared : IsShared ((twoPages (5 * 4096 + 1031)).uvpt 0) := ⟨by decide, by decide⟩
  obtain ⟨s, hrun, -⟩ := (stackWrites_calm (5 * 4096 + 1031)).fork 9
  have hquiet : Quiet stackWrites (twoPages (5 * 4096 + 1031)) 0 := by
    refine ⟨by decide, .inr fun x w hw => ?_⟩
    rw [stackWrites_pn hw]
    decide
  obtain ⟨hparent, hchild⟩ := hquiet.fork (by decide) hshared.1 hrun
  refine ⟨hshared, s, hrun, hparent, hchild, fun h => ?_⟩
  have hlost := fork_loses_share (by decide) ⟨hshared.1, by decide⟩ hrun
  exact not_same_of_share hlost hshared.2 (h 0 (by decide) hshared).2

end Jos.Fork
