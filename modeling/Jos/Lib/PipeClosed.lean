import Jos.Kern.Env
import Mathlib.Data.Fin.VecNotation
import Mathlib.Order.Interval.Finset.Nat
import Mathlib.Tactic.FinCases

/-!
# Telling that a pipe is closed

`_pipeisclosed` compares the number of references to the `Fd` page of one end of a pipe
with those to the page of the pipe itself. `pipe`, `dup`, `close`, `fork` and `spawn`
change the two numbers in separate system calls; here they run one call at a time, in any
number of environments. Of an address space only what is mapped at each page is kept.
-/

namespace Jos
open Relation Function

variable {i n old pn : Nat} {new : Int}

inductive End where
  | read
  | write
  deriving DecidableEq, Repr

def End.other : End → End
  | .read => .write
  | .write => .read

inductive PipePage where
  | fd (x : End)
  | data
  | other (id : Nat)
  deriving DecidableEq, Repr

/-- `PTE_W`, `PTE_COW` and `PTE_SHARE`. -/
structure SharePerm where
  w : Bool
  cow : Bool
  share : Bool
  deriving DecidableEq, Repr

structure SharePte where
  page : PipePage
  perm : SharePerm
  deriving DecidableEq, Repr

variable {pte : SharePte}

abbrev PageMap := Nat → Option SharePte

def maxfd : Nat := 32
def fdtablePn : Nat := 0xD0000
def ustacktopPn : Nat := 0xEEBFE
def uxstackPn : Nat := 0xEEBFF

/-- The page of `INDEX2FD(i)`. -/
def fdPn (i : Int) : Nat := (fdtablePn + i).toNat
/-- The page of `INDEX2DATA(i)`. -/
def dataPn (i : Int) : Nat := (fdtablePn + maxfd + i).toNat

def sharedPerm : SharePerm := ⟨true, false, true⟩
def cowPerm : SharePerm := ⟨false, true, false⟩
def plainPerm : SharePerm := ⟨false, false, false⟩

/-- Where an environment is in its operation. An embryo is a child that does not run yet. -/
inductive PipePc (n : Nat) where
  | unused
  | embryo
  | idle
  | panicked
  /-- `devpipe_close` has unmapped the descriptor. -/
  | closeData (i : Nat)
  /-- `dup` has unmapped the descriptor `new`. -/
  | dupClose (old : Nat) (new : Int)
  | dup (old : Nat) (new : Int)
  | dupFd (old : Nat) (new : Int)
  | dupErrFd (new : Int)
  | dupErrData (new : Int)
  | fork (child : Fin n) (pn : Nat)
  /-- `duppage` has mapped the page in the child and maps it copy-on-write in the parent next. -/
  | forkSelf (child : Fin n) (pn : Nat)
  /-- `duppage` has mapped a page that is not writable and looks at `PTE_SHARE` next. -/
  | forkShare (child : Fin n) (pn : Nat)
  | spawn (child : Fin n) (pn : Nat)
  /-- `pipe` has allocated `fd0`, then `fd1`, then the page of the pipe. -/
  | pipe1 (i : Nat)
  | pipe2 (i j : Nat)
  | pipe3 (i j : Nat)
  | pipeErr3 (i j : Nat)
  | pipeErr2 (i j : Nat)
  | pipeErr1 (i : Nat)
  deriving DecidableEq

structure Procs (n : Nat) where
  pc : Fin n → PipePc n
  space : Fin n → PageMap

namespace Procs
variable {n : Nat}

def set (s : Procs n) (e : Fin n) (pc : PipePc n) (f : PageMap) : Procs n :=
  ⟨update s.pc e pc, update s.space e f⟩

def goto (s : Procs n) (e : Fin n) (pc : PipePc n) : Procs n := s.set e pc (s.space e)

def mappings (s : Procs n) (p : PipePage) : Finset (Fin n × Nat) :=
  (Finset.univ ×ˢ Finset.range uxstackPn).filter fun x => (s.space x.1 x.2).map SharePte.page = some p

/-- `pageref` of the page mapped at `pn`; `pp_ref` has 16 bits. -/
def pageref (s : Procs n) (e : Fin n) (pn : Nat) : Nat :=
  match s.space e pn with
  | none => 0
  | some pte => (s.mappings pte.page).card % 65536

end Procs

def mapPage (f : PageMap) (pn : Nat) (p : PipePage) (perm : SharePerm) : PageMap := update f pn (some ⟨p, perm⟩)

def unmapPage (f : PageMap) (pn : Nat) : PageMap := update f pn none

def Clean (f : PageMap) : Prop := ∀ pn pte, f pn = some pte → ∃ id, pte.page = .other id

section

lemma fdPn_nat (i : Nat) : fdPn i = fdtablePn + i := by
  unfold fdPn
  omega

lemma dataPn_nat (i : Nat) : dataPn i = fdtablePn + maxfd + i := by
  unfold dataPn
  omega

lemma fdPn_add (i : Nat) : fdPn i + maxfd = dataPn i := by
  rw [fdPn_nat, dataPn_nat]
  omega

def InTable (i : Int) : Prop := 0 ≤ i ∧ i < maxfd

lemma InTable.exists_nat {i : Int} (h : InTable i) : ∃ k : Nat, k < maxfd ∧ i = k :=
  ⟨i.toNat, by have := h.2; have := h.1; omega, by have := h.1; omega⟩

lemma fdPn_inj {j : Nat} (h : fdPn i = fdPn j) : i = j := by
  rw [fdPn_nat, fdPn_nat] at h
  omega

lemma dataPn_inj {j : Nat} (h : dataPn i = dataPn j) : i = j := by
  rw [dataPn_nat, dataPn_nat] at h
  omega

lemma fdPn_ne_dataPn (hi : i < maxfd) (j : Nat) : fdPn i ≠ dataPn j := by
  rw [fdPn_nat, dataPn_nat]
  omega

end

def Paired (f : PageMap) : Prop :=
  ∀ i : Nat, i < maxfd → ∀ x perm, f (fdPn i) = some ⟨.fd x, perm⟩ → f (dataPn i) = some ⟨.data, perm⟩

def dupPerm (perm : SharePerm) : SharePerm := if (perm.w || perm.cow) = true then cowPerm else perm

def PairedAt (pn : Nat) (f : PageMap) : Prop :=
  ∀ i : Nat, i < maxfd → ∀ x perm, f (fdPn i) = some ⟨.fd x, perm⟩ → ∃ perm', f (dataPn i) = some ⟨.data, perm'⟩ ∧
    perm = if fdPn i < pn ∧ pn ≤ dataPn i then dupPerm perm' else perm'

def PairedPages (f : PageMap) : Prop :=
  ∀ i : Nat, i < maxfd → ∀ x perm, f (fdPn i) = some ⟨.fd x, perm⟩ → ∃ perm', f (dataPn i) = some ⟨.data, perm'⟩

def PipePage.Home : PipePage → Nat → Prop
  | .fd _, pn => ∃ i : Nat, i < maxfd ∧ pn = fdPn i
  | .data, pn => ∃ i : Nat, i < maxfd ∧ pn = dataPn i
  | .other _, _ => True

lemma table_lt : fdtablePn + maxfd + maxfd ≤ ustacktopPn ∧ ustacktopPn < uxstackPn := by decide

def InTheTable (f : PageMap) : Prop := ∀ pn pte, f pn = some pte → pte.page.Home pn

def Vacant (f : PageMap) (new : Int) : Prop := Paired f ∧ InTable new ∧ f (fdPn new) = none

def CleanBut (f : PageMap) (P : Nat → Prop) : Prop := ∀ pn pte, f pn = some pte → P pn ∨ ∃ id, pte.page = .other id

structure Made1 (f : PageMap) (i : Nat) : Prop where
  hi : i < maxfd
  fd0 : f (fdPn i) = some ⟨.fd .read, sharedPerm⟩
  clean : CleanBut f (· = fdPn i)

structure Made2 (f : PageMap) (i j : Nat) : Prop where
  hi : i < maxfd
  hj : j < maxfd
  ne : i ≠ j
  fd0 : f (fdPn i) = some ⟨.fd .read, sharedPerm⟩
  fd1 : f (fdPn j) = some ⟨.fd .write, sharedPerm⟩
  clean : CleanBut f fun pn => pn = fdPn i ∨ pn = fdPn j

structure Made3 (f : PageMap) (i j : Nat) : Prop where
  hi : i < maxfd
  hj : j < maxfd
  ne : i ≠ j
  fd0 : f (fdPn i) = some ⟨.fd .read, sharedPerm⟩
  fd1 : f (fdPn j) = some ⟨.fd .write, sharedPerm⟩
  data : f (dataPn i) = some ⟨.data, sharedPerm⟩
  clean : CleanBut f fun pn => pn = fdPn i ∨ pn = fdPn j ∨ pn = dataPn i

def PipePc.Own {n : Nat} : PipePc n → PageMap → Prop
  | .unused, f => ∀ pn, f pn = none
  | .embryo, _ => True
  | .idle, f => Paired f
  | .panicked, f => PairedPages f
  | .closeData i, f => Vacant f i
  | .dupClose old new, f => Vacant f new ∧ old < maxfd
  | .dup old new, f => Vacant f new ∧ old < maxfd
  | .dupFd old new, f => Vacant f new ∧ old < maxfd ∧
      ∀ x perm, f (fdPn old) = some ⟨.fd x, perm⟩ → f (dataPn new) = some ⟨.data, perm⟩
  | .dupErrFd new, f => Vacant f new
  | .dupErrData new, f => Vacant f new
  | .fork _ pn, f => PairedAt pn f
  | .forkSelf _ pn, f => PairedAt pn f
  | .forkShare _ pn, f => PairedAt pn f
  | .spawn _ _, f => Paired f
  | .pipe1 i, f => Made1 f i
  | .pipe2 i j, f => Made2 f i j
  | .pipe3 i j, f => Made3 f i j
  | .pipeErr3 i j, f => Made3 f i j
  | .pipeErr2 i j, f => Made2 f i j
  | .pipeErr1 i, f => Made1 f i

def PipePc.Making {n : Nat} : PipePc n → Prop
  | .pipe1 _ => True
  | .pipe2 _ _ => True
  | .pipe3 _ _ => True
  | .pipeErr3 _ _ => True
  | .pipeErr2 _ _ => True
  | .pipeErr1 _ => True
  | _ => False

def PipePc.child {n : Nat} : PipePc n → Option (Fin n)
  | .fork c _ => some c
  | .forkSelf c _ => some c
  | .forkShare c _ => some c
  | .spawn c _ => some c
  | _ => none

def PipePc.Copied {n : Nat} : PipePc n → PageMap → PageMap → Prop
  | .fork _ pn, f, g => ∀ k, g k = if k < pn then f k else none
  | .forkSelf _ pn, f, g => ∃ pte, f pn = some pte ∧ (pte.perm.w || pte.perm.cow) = true ∧
      ∀ k, g k = if k < pn then f k else if k = pn then some ⟨pte.page, cowPerm⟩ else none
  | .forkShare _ pn, f, g => ∃ pte, f pn = some pte ∧ (pte.perm.w || pte.perm.cow) = false ∧
      ∀ k, g k = if k < pn then f k else if k = pn then some ⟨pte.page, plainPerm⟩ else none
  | .spawn _ pn, f, g => ∀ k, g k = if k < pn then (f k).filter fun pte => pte.perm.share else none
  | _, _, _ => True

structure Procs.Inv {n : Nat} (s : Procs n) : Prop where
  own : ∀ e, (s.pc e).Own (s.space e)
  copied : ∀ e c, (s.pc e).child = some c → s.pc c = .embryo ∧ (s.pc e).Copied (s.space e) (s.space c)
  single : ∀ e e' c, (s.pc e).child = some c → (s.pc e').child = some c → e = e'
  table : ∀ e, InTheTable (s.space e)
  making : ∀ e, (s.pc e).Making → ∀ e', e' ≠ e → Clean (s.space e')

structure Procs.Settled {n : Nat} (s : Procs n) : Prop where
  pc : ∀ e, s.pc e = .idle ∨ s.pc e = .unused ∧ ∀ pn, s.space e pn = none
  paired : ∀ e, Paired (s.space e)
  table : ∀ e, InTheTable (s.space e)

section
variable {f : PageMap} {pn : Nat} {v : Option SharePte}

lemma Paired.put (h : Paired f)
    (hfd : ∀ i : Nat, i < maxfd → pn = fdPn i → ∀ x perm, v = some ⟨.fd x, perm⟩ → f (dataPn i) = some ⟨.data, perm⟩)
    (hdata : ∀ i : Nat, i < maxfd → pn = dataPn i → ∀ x perm, f (fdPn i) = some ⟨.fd x, perm⟩ → v = some ⟨.data, perm⟩) :
    Paired (update f pn v) := by
  intro i hi x perm hpte
  by_cases hp : fdPn i = pn
  · subst hp
    rw [update_self] at hpte
    rw [update_of_ne (fdPn_ne_dataPn hi i).symm]
    exact hfd i hi rfl x perm hpte
  · rw [update_of_ne hp] at hpte
    by_cases hd : dataPn i = pn
    · subst hd
      rw [update_self]
      exact hdata i hi rfl x perm hpte
    · rw [update_of_ne hd]
      exact h i hi x perm hpte

lemma forall_update {R : Nat → SharePte → Prop} (h : ∀ k, k ≠ pn → ∀ pte, f k = some pte → R k pte)
    (hv : ∀ pte, v = some pte → R pn pte) (k : Nat) (pte : SharePte) (hpte : update f pn v k = some pte) :
    R k pte := by
  by_cases hk : k = pn
  · subst hk
    rw [update_self] at hpte
    exact hv pte hpte
  · rw [update_of_ne hk] at hpte
    exact h k hk pte hpte

lemma InTheTable.put (h : InTheTable f) (hv : ∀ pte, v = some pte → pte.page.Home pn) :
    InTheTable (update f pn v) := forall_update (fun k _ => h k) hv

lemma CleanBut.put {P Q : Nat → Prop} (h : CleanBut f P) (hP : ∀ k, k ≠ pn → P k → Q k)
    (hv : ∀ pte, v = some pte → Q pn ∨ ∃ id, pte.page = .other id) : CleanBut (update f pn v) Q :=
  forall_update (fun k hk pte hpte => (h k pte hpte).imp_left (hP k hk)) hv

lemma Clean.put (h : Clean f) (hv : ∀ pte, v = some pte → ∃ id, pte.page = .other id) :
    Clean (update f pn v) := forall_update (fun k _ => h k) hv

lemma Clean.paired (h : Clean f) : Paired f := by
  intro i _ x perm hpte
  obtain ⟨id, hid⟩ := h _ _ hpte
  cases hid

end

section
variable {n : Nat} {s s' : Procs n} {e c : Fin n}

lemma PipePc.Making.not_clean {pc : PipePc n} {f : PageMap} (h : pc.Making) (hown : pc.Own f) : ¬ Clean f := by
  have hread : ∃ i, f (fdPn i) = some ⟨.fd .read, sharedPerm⟩ := by
    cases pc with
    | pipe1 i => exact ⟨i, hown.fd0⟩
    | pipe2 i j => exact ⟨i, hown.fd0⟩
    | pipe3 i j => exact ⟨i, hown.fd0⟩
    | pipeErr3 i j => exact ⟨i, hown.fd0⟩
    | pipeErr2 i j => exact ⟨i, hown.fd0⟩
    | pipeErr1 i => exact ⟨i, hown.fd0⟩
    | _ => exact h.elim
  intro hclean
  obtain ⟨i, hi⟩ := hread
  obtain ⟨id, hid⟩ := hclean _ _ hi
  cases hid

lemma Procs.Inv.step_of (hi : s.Inv) (he : s.pc e ≠ .embryo) (hc : c = e ∨ s.pc c = .unused ∨ (s.pc e).child = some c)
    (hsame : ∀ e', e' ≠ e → e' ≠ c → s'.pc e' = s.pc e' ∧ s'.space e' = s.space e')
    (hown : (s'.pc e).Own (s'.space e) ∧ (s'.pc c).Own (s'.space c))
    (hchild : ∀ x, (s'.pc e).child = some x → x = c ∧ s'.pc c = .embryo ∧ (s'.pc e).Copied (s'.space e) (s'.space c))
    (hchild' : c ≠ e → (s'.pc c).child = none) (htable : InTheTable (s'.space e) ∧ InTheTable (s'.space c))
    (hmaking : (s'.pc e).Making → c = e ∧ ∀ e', e' ≠ e → Clean (s.space e')) (hmaking' : c ≠ e → ¬ (s'.pc c).Making)
    (hclean : (∃ e', e' ≠ e ∧ e' ≠ c ∧ (s.pc e').Making) → Clean (s'.space e) ∧ Clean (s'.space c)) : s'.Inv := by
  -- the children of the others are neither `e` nor `c`
  have hother : ∀ e' x, e' ≠ e → e' ≠ c → (s.pc e').child = some x → x ≠ e ∧ x ≠ c := by
    intro e' x hne hnc hx
    have hemb := (hi.copied e' x hx).1
    refine ⟨fun h => he (h ▸ hemb), fun h => ?_⟩
    subst h
    rcases hc with rfl | hunused | hmine
    · exact he hemb
    · rw [hunused] at hemb
      cases hemb
    · exact hne (hi.single e' e x hx hmine)
  have hpc : ∀ e' x, (s'.pc e').child = some x → e' = e ∨ e' ≠ e ∧ e' ≠ c ∧ (s.pc e').child = some x := by
    intro e' x hx
    by_cases hne : e' = e
    · exact .inl hne
    by_cases hnc : e' = c
    · subst hnc
      rw [hchild' hne] at hx
      cases hx
    · rw [(hsame e' hne hnc).1] at hx
      exact .inr ⟨hne, hnc, hx⟩
  refine ⟨fun e' => ?_, fun e' x hx => ?_, fun e1 e2 x h1 h2 => ?_, fun e' => ?_, fun e1 hm e2 hne => ?_⟩
  · by_cases hne : e' = e
    · exact hne ▸ hown.1
    by_cases hnc : e' = c
    · exact hnc ▸ hown.2
    · rw [(hsame e' hne hnc).1, (hsame e' hne hnc).2]
      exact hi.own e'
  · rcases hpc e' x hx with rfl | ⟨hne, hnc, hx'⟩
    · obtain ⟨rfl, h⟩ := hchild x hx
      exact h
    · obtain ⟨hxe, hxc⟩ := hother e' x hne hnc hx'
      rw [(hsame x hxe hxc).1, (hsame x hxe hxc).2, (hsame e' hne hnc).1, (hsame e' hne hnc).2]
      exact hi.copied e' x hx'
  · rcases hpc e1 x h1 with rfl | ⟨hne1, hnc1, h1'⟩
    · rcases hpc e2 x h2 with rfl | ⟨hne2, hnc2, h2'⟩
      · rfl
      · exact absurd (hchild x h1).1 (hother e2 x hne2 hnc2 h2').2
    · rcases hpc e2 x h2 with rfl | ⟨hne2, hnc2, h2'⟩
      · exact absurd (hchild x h2).1 (hother e1 x hne1 hnc1 h1').2
      · exact hi.single e1 e2 x h1' h2'
  · by_cases hne : e' = e
    · exact hne ▸ htable.1
    by_cases hnc : e' = c
    · exact hnc ▸ htable.2
    · rw [(hsame e' hne hnc).2]
      exact hi.table e'
  · by_cases h1 : e1 = e
    · subst h1
      obtain ⟨rfl, hall⟩ := hmaking hm
      rw [(hsame e2 hne hne).2]
      exact hall e2 hne
    have h1c : e1 ≠ c := by
      rintro rfl
      exact hmaking' h1 hm
    rw [(hsame e1 h1 h1c).1] at hm
    by_cases h2 : e2 = e
    · exact h2 ▸ (hclean ⟨e1, h1, h1c, hm⟩).1
    by_cases h2c : e2 = c
    · exact h2c ▸ (hclean ⟨e1, h1, h1c, hm⟩).2
    · rw [(hsame e2 h2 h2c).2]
      exact hi.making e1 hm e2 hne

lemma Procs.set_self (s : Procs n) (e : Fin n) (pc : PipePc n) (f : PageMap) :
    (s.set e pc f).pc e = pc ∧ (s.set e pc f).space e = f := ⟨update_self .., update_self ..⟩

lemma Procs.set_ne {e' : Fin n} (h : e' ≠ e) (s : Procs n) (pc : PipePc n) (f : PageMap) :
    (s.set e pc f).pc e' = s.pc e' ∧ (s.set e pc f).space e' = s.space e' :=
  ⟨update_of_ne h _ _, update_of_ne h _ _⟩

lemma Procs.Inv.alone (hi : s.Inv) {pc : PipePc n} {f : PageMap} (he : s.pc e ≠ .embryo) (hchild : pc.child = none)
    (hown : pc.Own f) (htable : InTheTable f) (hmaking : pc.Making → ∀ e', e' ≠ e → Clean (s.space e'))
    (hclean : (∃ e', e' ≠ e ∧ (s.pc e').Making) → Clean f) : (s.set e pc f).Inv := by
  obtain ⟨hpc, hspace⟩ := s.set_self e pc f
  refine hi.step_of (c := e) he (.inl rfl) (fun e' hne _ => Procs.set_ne hne s pc f) ?_ ?_ (fun h => absurd rfl h) ?_ ?_
    (fun h => absurd rfl h) ?_
  · rw [hpc, hspace]
    exact ⟨hown, hown⟩
  · rw [hpc, hchild]
    exact fun _ h => by cases h
  · rw [hspace]
    exact ⟨htable, htable⟩
  · rw [hpc]
    exact fun h => ⟨rfl, hmaking h⟩
  · rw [hspace]
    rintro ⟨e', hne, -, hm⟩
    exact ⟨hclean ⟨e', hne, hm⟩, hclean ⟨e', hne, hm⟩⟩

lemma Procs.Inv.clean_self (hi : s.Inv) (h : ∃ e', e' ≠ e ∧ (s.pc e').Making) : Clean (s.space e) := by
  obtain ⟨e', hne, hm⟩ := h
  exact hi.making e' hm e hne.symm

section
variable {pc : PipePc n} {v : Option SharePte} (hi : s.Inv) (he : s.pc e ≠ .embryo)
  (hchild : pc.child = none) (hmaking : ¬ pc.Making)
include hi he hchild hmaking

/-- A step in which `e` changes one mapping; a page that it maps comes from its own pages or is not of the pipe. -/
theorem Procs.Inv.remap (hown : pc.Own (update (s.space e) pn v)) (hhome : ∀ pte, v = some pte → pte.page.Home pn)
    (hv : ∀ pte, v = some pte → (∃ id, pte.page = .other id) ∨ ∃ k, s.space e k = some pte) :
    (s.set e pc (update (s.space e) pn v)).Inv := by
  refine hi.alone he hchild hown ((hi.table e).put hhome) (fun h => absurd h hmaking) fun h => ?_
  have hclean := hi.clean_self h
  refine hclean.put fun pte hpte => ?_
  rcases hv pte hpte with hother | ⟨k, hk⟩
  · exact hother
  · exact hclean k pte hk

lemma Procs.Inv.unmap (hown : pc.Own (unmapPage (s.space e) pn)) : (s.set e pc (unmapPage (s.space e) pn)).Inv :=
  hi.remap he hchild hmaking hown (fun _ h => by cases h) (fun _ h => by cases h)

lemma Procs.Inv.goto (hown : pc.Own (s.space e)) : (s.goto e pc).Inv :=
  hi.alone he hchild hown (hi.table e) (fun h => absurd h hmaking) hi.clean_self

end

end

section
variable {f : PageMap}

lemma Paired.map_fd (h : Paired f) (hnew : InTable new) {page : PipePage} {perm : SharePerm}
    (hdata : ∀ x, page = .fd x → f (dataPn new) = some ⟨.data, perm⟩) : Paired (mapPage f (fdPn new) page perm) := by
  obtain ⟨k, hk, rfl⟩ := hnew.exists_nat
  refine h.put (fun i _ heq x perm' hv => ?_) fun i _ heq => absurd heq (fdPn_ne_dataPn hk i)
  obtain rfl := fdPn_inj heq
  cases hv
  exact hdata x rfl

lemma Paired.pairedAt (h : Paired f) (hpn : pn ≤ fdtablePn) : PairedAt pn f := by
  intro i hi x perm hpte
  refine ⟨perm, h i hi x perm hpte, ?_⟩
  rw [if_neg]
  rw [fdPn_nat]
  omega

lemma PairedAt.paired (h : PairedAt pn f) (hpn : uxstackPn ≤ pn) : Paired f := by
  intro i hi x perm hpte
  obtain ⟨perm', hdata, hperm⟩ := h i hi x perm hpte
  rw [if_neg] at hperm
  · rw [hdata, hperm]
  · rw [dataPn_nat]
    have := table_lt
    omega

lemma PairedAt.pages (h : PairedAt pn f) : PairedPages f := fun i hi x perm hpte =>
  (h i hi x perm hpte).imp fun _ => And.left

lemma Paired.pages (h : Paired f) : PairedPages f := fun i hi x perm hpte => ⟨perm, h i hi x perm hpte⟩

lemma PairedAt.advance (h : PairedAt pn f) :
    PairedAt (pn + 1) (update f pn ((f pn).map fun pte => ⟨pte.page, dupPerm pte.perm⟩)) := by
  intro i hi x perm hpte
  have hne := fdPn_ne_dataPn hi i
  have hlt : fdPn i < dataPn i := by
    rw [← fdPn_add]
    exact Nat.lt_add_of_pos_right (by decide)
  by_cases hfd : fdPn i = pn
  · subst hfd
    rw [update_self] at hpte
    obtain ⟨⟨page, perm0⟩, hold, hnew⟩ := Option.map_eq_some_iff.mp hpte
    cases hnew
    obtain ⟨perm', hdata, hperm⟩ := h i hi x perm0 hold
    rw [if_neg (by omega)] at hperm
    refine ⟨perm', ?_, ?_⟩
    · rw [update_of_ne hne.symm]
      exact hdata
    · rw [if_pos ⟨by omega, hlt⟩, hperm]
  · rw [update_of_ne hfd] at hpte
    obtain ⟨perm', hdata, hperm⟩ := h i hi x perm hpte
    by_cases hd : dataPn i = pn
    · subst hd
      rw [if_pos ⟨hlt, le_refl _⟩] at hperm
      refine ⟨dupPerm perm', ?_, ?_⟩
      · rw [update_self, hdata]
        rfl
      · rw [if_neg (by omega), hperm]
    · refine ⟨perm', ?_, ?_⟩
      · rw [update_of_ne hd]
        exact hdata
      · rw [hperm]
        refine if_congr ?_ rfl rfl
        omega

lemma PairedAt.advance_same (h : PairedAt pn f)
    (hsame : ∀ pte, f pn = some pte → dupPerm pte.perm = pte.perm) : PairedAt (pn + 1) f := by
  have hup : update f pn ((f pn).map fun pte => ⟨pte.page, dupPerm pte.perm⟩) = f := by
    rw [update_eq_self_iff]
    cases hpte : f pn with
    | none => rfl
    | some pte => simp only [Option.map_some, hsame pte hpte]
  exact hup ▸ h.advance

end

section
variable {n : Nat} {s s' : Procs n} {e c : Fin n}

lemma PipePc.not_making {pc : PipePc n} (h : pc.child = some c) : ¬ pc.Making := by
  cases pc <;> first | exact id | cases h

lemma Procs.Inv.child_ne (hi : s.Inv) (h : (s.pc e).child = some c) : s.pc e ≠ .embryo ∧ c ≠ e := by
  have he : s.pc e ≠ .embryo := by
    intro hpc
    rw [hpc] at h
    cases h
  refine ⟨he, ?_⟩
  rintro rfl
  exact he (hi.copied c c h).1

lemma Procs.Inv.copying (hi : s.Inv) {pc : PipePc n} {f g : PageMap} (he : s.pc e ≠ .embryo) (hne : c ≠ e)
    (hc : s.pc c = .unused ∨ (s.pc e).child = some c) (hchild : pc.child = some c)
    (hown : pc.Own f) (hcopied : pc.Copied f g)
    (hf : f = s.space e ∨ ∃ pn pte perm, s.space e pn = some pte ∧ f = mapPage (s.space e) pn pte.page perm)
    (hg : g = s.space c ∨ ∃ pn pte perm, s.space e pn = some pte ∧ g = mapPage (s.space c) pn pte.page perm) :
    ((s.set e pc f).set c .embryo g).Inv := by
  have hfrom : ∀ {h h' : PageMap}, (h' = h ∨ ∃ pn pte perm, s.space e pn = some pte ∧ h' = mapPage h pn pte.page perm) →
      (InTheTable h → InTheTable h') ∧ (Clean (s.space e) → Clean h → Clean h') := by
    rintro h h' (rfl | ⟨pn, pte, perm, hpte, rfl⟩)
    · exact ⟨id, fun _ => id⟩
    · refine ⟨fun ht => ht.put fun pte' hv => ?_, fun hclean hh => hh.put fun pte' hv => ?_⟩
      · cases hv
        exact hi.table e pn pte hpte
      · cases hv
        exact hclean pn pte hpte
  have hpe : ((s.set e pc f).set c .embryo g).pc e = pc ∧ ((s.set e pc f).set c .embryo g).space e = f := by
    rw [(Procs.set_ne hne.symm _ _ _).1, (Procs.set_ne hne.symm _ _ _).2]
    exact s.set_self e pc f
  obtain ⟨hpcc, hspc⟩ := (s.set e pc f).set_self c .embryo g
  refine hi.step_of he (.inr hc) (fun e' hne' hnc' => ?_) ?_ ?_ ?_ ?_ ?_ ?_ ?_
  · rw [(Procs.set_ne hnc' _ _ _).1, (Procs.set_ne hnc' _ _ _).2]
    exact Procs.set_ne hne' s pc f
  · rw [hpe.1, hpe.2, hpcc]
    exact ⟨hown, trivial⟩
  · rw [hpe.1, hpe.2, hpcc, hspc, hchild]
    intro x hx
    cases hx
    exact ⟨rfl, rfl, hcopied⟩
  · rw [hpcc]
    exact fun _ => rfl
  · rw [hpe.2, hspc]
    exact ⟨(hfrom hf).1 (hi.table e), (hfrom hg).1 (hi.table c)⟩
  · rw [hpe.1]
    exact fun h => absurd h (PipePc.not_making hchild)
  · rw [hpcc]
    exact fun _ => id
  · rw [hpe.2, hspc]
    rintro ⟨e', hne', hnc', hm⟩
    have hce := hi.making e' hm e hne'.symm
    have hcc := hi.making e' hm c hnc'.symm
    exact ⟨(hfrom hf).2 hce hce, (hfrom hg).2 hce hcc⟩

lemma Procs.set_goto_self (s : Procs n) (e c : Fin n) (pc : PipePc n) (f : PageMap)
    (h : c ≠ e) (hc : s.pc c = .embryo) : (s.set e pc f).set c .embryo (s.space c) = s.set e pc f := by
  unfold Procs.set
  congr 1
  · rw [update_eq_self_iff, ← hc]
    exact (Procs.set_ne h s pc f).1.symm
  · rw [update_eq_self_iff]
    exact (Procs.set_ne h s pc f).2.symm

lemma Procs.Inv.copier (hi : s.Inv) {pc : PipePc n} (h : s.pc e = pc) (hc : pc.child = some c) :
    pc.Own (s.space e) ∧ pc.Copied (s.space e) (s.space c) := by
  subst h
  exact ⟨hi.own e, (hi.copied e c hc).2⟩

section
variable {pc pc' : PipePc n} (hi : s.Inv) (h : s.pc e = pc') (hc : pc'.child = some c) (hchild : pc.child = some c)
include hi h hc hchild

lemma Procs.Inv.copy {f g : PageMap} (hown : pc.Own f) (hcopied : pc.Copied f g)
    (hf : f = s.space e ∨ ∃ pn pte perm, s.space e pn = some pte ∧ f = mapPage (s.space e) pn pte.page perm)
    (hg : g = s.space c ∨ ∃ pn pte perm, s.space e pn = some pte ∧ g = mapPage (s.space c) pn pte.page perm) :
    ((s.set e pc f).set c .embryo g).Inv := by
  subst h
  obtain ⟨he, hne⟩ := hi.child_ne hc
  exact hi.copying he hne (.inr hc) hchild hown hcopied hf hg

lemma Procs.Inv.copy_self {f : PageMap} (hown : pc.Own f) (hcopied : pc.Copied f (s.space c))
    (hf : f = s.space e ∨ ∃ pn pte perm, s.space e pn = some pte ∧ f = mapPage (s.space e) pn pte.page perm) :
    (s.set e pc f).Inv := by
  have hcopy := hi.copy h hc hchild hown hcopied hf (.inl rfl)
  subst h
  rwa [Procs.set_goto_self s e c pc f (hi.child_ne hc).2 (hi.copied e c hc).1] at hcopy

end

lemma Procs.Inv.release (hi : s.Inv) {pc : PipePc n} (h : s.pc e = pc) (hc : pc.child = some c) (hown : Paired (s.space e))
    (hown' : Paired (s.space c)) : ((s.goto e .idle).goto c .idle).Inv := by
  subst h
  obtain ⟨he, hne⟩ := hi.child_ne hc
  have hspace : ∀ e', ((s.goto e .idle).goto c .idle).space e' = s.space e' := by
    intro e'
    simp only [Procs.goto, Procs.set, update_eq_self]
  have hpe : ((s.goto e .idle).goto c .idle).pc e = .idle := by
    unfold Procs.goto
    rw [(Procs.set_ne hne.symm _ _ _).1]
    exact (s.set_self e .idle (s.space e)).1
  have hpc : ((s.goto e .idle).goto c .idle).pc c = .idle := ((s.goto e .idle).set_self c .idle _).1
  refine hi.step_of he (.inr (.inr hc)) (fun e' hne' hnc' => ⟨?_, hspace e'⟩) ?_ ?_ ?_ ?_ ?_ ?_ ?_
  · unfold Procs.goto
    rw [(Procs.set_ne hnc' _ _ _).1, (Procs.set_ne hne' _ _ _).1]
  · rw [hpe, hpc, hspace, hspace]
    exact ⟨hown, hown'⟩
  · rw [hpe]
    exact fun _ h => by cases h
  · rw [hpc]
    exact fun _ => rfl
  · rw [hspace, hspace]
    exact ⟨hi.table e, hi.table c⟩
  · rw [hpe]
    exact fun h => h.elim
  · rw [hpc]
    exact fun _ => id
  · rw [hspace, hspace]
    rintro ⟨e', hne', hnc', hm⟩
    exact ⟨hi.making e' hm e hne'.symm, hi.making e' hm c hnc'.symm⟩

lemma copied_succ {f g : PageMap} (h : ∀ k, k ≠ pn → g k = if k < pn then f k else none)
    (hpn : g pn = f pn) (k : Nat) : g k = if k < pn + 1 then f k else none := by
  by_cases hk : k = pn
  · subst hk
    rw [hpn, if_pos (Nat.lt_succ_self k)]
  · rw [h k hk]
    refine if_congr ?_ rfl rfl
    omega

lemma copied_dup {f g : PageMap}
    (h : ∀ k, k ≠ pn → g k = if k < pn then f k else none) (hpn : g pn = some pte) (k : Nat) :
    g k = if k < pn then f k else if k = pn then some pte else none := by
  by_cases hk : k = pn
  · subst hk
    rw [if_neg (lt_irrefl k), if_pos rfl, hpn]
  · rw [h k hk, if_neg hk]

lemma Procs.Inv.forkSelf (hi : s.Inv) (h : s.pc e = .forkSelf c pn) (hpte : s.space e pn = some pte) :
    (s.set e (.fork c (pn + 1)) (mapPage (s.space e) pn pte.page cowPerm)).Inv := by
  obtain ⟨hown, hcopy⟩ := hi.copier h rfl
  obtain ⟨pte', hpte', hcow, hcopy⟩ := hcopy
  obtain rfl : pte = pte' := Option.some.inj (hpte ▸ hpte')
  have hadv := hown.advance
  rw [hpte] at hadv
  have hdup : dupPerm pte.perm = cowPerm := if_pos hcow
  refine hi.copy_self h rfl rfl ?_ (copied_succ (fun k hk => ?_) ?_) (.inr ⟨pn, pte, cowPerm, hpte, rfl⟩)
  · rw [← hdup]
    exact hadv
  · unfold mapPage
    rw [update_of_ne hk, hcopy k, if_neg hk]
  · unfold mapPage
    rw [update_self, hcopy, if_neg (lt_irrefl pn), if_pos rfl]

lemma dupPerm_same {perm : SharePerm} (h : (perm.w || perm.cow) = false) : dupPerm perm = perm := by
  unfold dupPerm
  rw [if_neg]
  rw [h]
  exact Bool.false_ne_true

section
variable (hi : s.Inv)
include hi

lemma Procs.Inv.forkShare (h : s.pc e = .forkShare c pn) (hpte : s.space e pn = some pte) :
    ((s.goto e (.fork c (pn + 1))).set c .embryo (mapPage (s.space c) pn pte.page pte.perm)).Inv := by
  obtain ⟨hown, hcopy⟩ := hi.copier h rfl
  obtain ⟨pte', hpte', hcow, hcopy⟩ := hcopy
  obtain rfl : pte = pte' := Option.some.inj (hpte ▸ hpte')
  refine hi.copy h rfl rfl (hown.advance_same fun pte' hpte' => ?_) (copied_succ (fun k hk => ?_) ?_) (.inl rfl)
    (.inr ⟨pn, pte, pte.perm, hpte, rfl⟩)
  · obtain rfl : pte = pte' := Option.some.inj (hpte ▸ hpte')
    exact dupPerm_same hcow
  · unfold mapPage
    rw [update_of_ne hk, hcopy k, if_neg hk]
  · unfold mapPage
    rw [update_self, hpte]

lemma Procs.Inv.exofork {pc : PipePc n} (h : s.pc e = .idle) (hc : s.pc c = .unused)
    (hpc : pc = .fork c 0 ∨ pc = .spawn c 0) : ((s.goto e pc).goto c .embryo).Inv := by
  have hne : c ≠ e := by
    rintro rfl
    rw [h] at hc
    cases hc
  have he : s.pc e ≠ .embryo := by
    rw [h]
    exact nofun
  have hown := hi.own e
  have hnone := hi.own c
  rw [h] at hown
  rw [hc] at hnone
  have hspace : (s.goto e pc).space c = s.space c := (Procs.set_ne hne s pc _).2
  unfold Procs.goto at hspace ⊢
  rw [hspace]
  rcases hpc with rfl | rfl
  · exact hi.copying he hne (.inl hc) rfl (hown.pairedAt (Nat.zero_le _)) (fun k => hnone k) (.inl rfl) (.inl rfl)
  · exact hi.copying he hne (.inl hc) rfl hown (fun k => hnone k) (.inl rfl) (.inl rfl)

end

end

section
variable {f : PageMap} {i j : Nat}

lemma Clean.made1 (h : Clean f) (hi : i < maxfd) : Made1 (mapPage f (fdPn i) (.fd .read) sharedPerm) i := by
  refine ⟨hi, update_self .., ?_⟩
  have hbut : CleanBut f fun _ => False := fun pn pte hpte => .inr (h pn pte hpte)
  exact hbut.put (fun _ _ h => h.elim) fun _ _ => .inl rfl

lemma Made3.paired (h : Made3 f i j) : Paired (mapPage f (dataPn j) .data sharedPerm) := by
  intro k hk x perm hpte
  unfold mapPage at hpte ⊢
  rw [update_of_ne (fdPn_ne_dataPn hk j)] at hpte
  rcases h.clean _ _ hpte with (heq | heq | heq) | ⟨id, hid⟩
  · obtain rfl := fdPn_inj heq
    rw [h.fd0] at hpte
    cases hpte
    rw [update_of_ne (fun heq => h.ne (dataPn_inj heq))]
    exact h.data
  · obtain rfl := fdPn_inj heq
    rw [h.fd1] at hpte
    cases hpte
    exact update_self ..
  · exact absurd heq (fdPn_ne_dataPn hk i)
  · cases hid

lemma Made3.unmap (h : Made3 f i j) : Made2 (unmapPage f (dataPn i)) i j := by
  refine ⟨h.hi, h.hj, h.ne, ?_, ?_, h.clean.put ?_ fun _ hv => by cases hv⟩
  · exact (update_of_ne (fdPn_ne_dataPn h.hi i) ..).trans h.fd0
  · exact (update_of_ne (fdPn_ne_dataPn h.hj i) ..).trans h.fd1
  · exact fun k hk hP => hP.imp_right fun h => h.resolve_right hk

lemma Made2.unmap (h : Made2 f i j) : Made1 (unmapPage f (fdPn j)) i := by
  refine ⟨h.hi, ?_, h.clean.put (fun k hk hP => hP.resolve_right hk) fun _ hv => by cases hv⟩
  exact (update_of_ne (fun heq => h.ne (fdPn_inj heq)) ..).trans h.fd0

lemma Made1.unmap (h : Made1 f i) : Paired (unmapPage f (fdPn i)) := by
  have hbut : CleanBut (unmapPage f (fdPn i)) fun _ => False :=
    h.clean.put (fun k hk hP => absurd hP hk) fun _ hv => by cases hv
  exact Clean.paired fun pn pte hpte => (hbut pn pte hpte).resolve_left id

end

section
variable {n : Nat} {s : Procs n} {e : Fin n}

section
variable (hi : s.Inv)
include hi

lemma Procs.Inv.own_at {pc : PipePc n} (h : s.pc e = pc) : pc.Own (s.space e) := h ▸ hi.own e

lemma Procs.Inv.dup (h : s.pc e = .idle) (hok : InTable new) (hold : old < maxfd)
    (hnew : ¬ (0 ≤ new ∧ new < maxfd) ∨ s.space e (fdPn new) = none) : (s.goto e (.dup old new)).Inv :=
  hi.goto (h ▸ nofun) rfl id ⟨⟨hi.own_at h, hok, hnew.resolve_left fun hn => hn hok⟩, hold⟩

lemma Procs.Inv.dupFd (h : s.pc e = .dupFd old new) (hpte : s.space e (fdPn old) = some pte) :
    (s.set e .idle (mapPage (s.space e) (fdPn new) pte.page pte.perm)).Inv := by
  obtain ⟨hvacant, hold, hdata⟩ : Vacant (s.space e) new ∧ old < maxfd ∧ ∀ x perm, s.space e (fdPn old) = some ⟨.fd x, perm⟩ →
    s.space e (dataPn new) = some ⟨.data, perm⟩ := hi.own_at h
  obtain ⟨page, perm⟩ := pte
  refine hi.remap (h ▸ nofun) rfl id (hvacant.1.map_fd hvacant.2.1 fun x hx => ?_) ?_ ?_
  · subst hx
    exact hdata x perm hpte
  · rintro _ ⟨⟩
    obtain ⟨k, hk, rfl⟩ := hvacant.2.1.exists_nat
    have hhome := hi.table e _ _ hpte
    cases page with
    | fd x => exact ⟨k, hk, rfl⟩
    | data =>
      obtain ⟨i, _, heq⟩ := hhome
      exact absurd heq (fdPn_ne_dataPn hold i)
    | other id => trivial
  · rintro _ ⟨⟩
    exact .inr ⟨_, hpte⟩

lemma Procs.Inv.panic {c : Fin n} (h : s.pc e = .fork c pn ∨ s.pc e = .forkSelf c pn ∨
    s.pc e = .forkShare c pn ∨ s.pc e = .spawn c pn) : (s.goto e .panicked).Inv := by
  have hown : PairedPages (s.space e) := by
    rcases h with h | h | h | h
    · exact PairedAt.pages (hi.own_at h)
    · exact PairedAt.pages (hi.own_at h)
    · exact PairedAt.pages (hi.own_at h)
    · exact Paired.pages (hi.own_at h)
  refine hi.goto ?_ rfl id hown
  rcases h with h | h | h | h <;> exact h ▸ nofun

lemma Procs.Inv.pipe (h : s.pc e = .idle) (hfresh : ∀ e', Clean (s.space e')) (hlt : i < maxfd) :
    (s.set e (.pipe1 i) (mapPage (s.space e) (fdPn i) (.fd .read) sharedPerm)).Inv := by
  refine hi.alone (h ▸ nofun) rfl ((hfresh e).made1 hlt) ((hi.table e).put ?_)
    (fun _ e' _ => hfresh e') ?_
  · rintro _ ⟨⟩
    exact ⟨i, hlt, rfl⟩
  · rintro ⟨e', -, hm⟩
    exact absurd (hfresh e') (hm.not_clean (hi.own e'))

section
variable {pc pc' : PipePc n} (h : s.pc e = pc) (hm : pc.Making) (hchild : pc'.child = none)
include h hm hchild

end

end

end

section
variable {n : Nat} {s : Procs n}

def Procs.NoHalf (s : Procs n) : Prop := ∀ e, s.pc e = .embryo → PairedPages (s.space e)

lemma PipePc.Own.pages {pc : PipePc n} {f : PageMap} (h : pc.Own f) (hne : pc ≠ .embryo) (hm : ¬ pc.Making) :
    PairedPages f := by
  cases pc with
  | unused =>
    intro i _ x perm hpte
    rw [h] at hpte
    cases hpte
  | embryo => exact absurd rfl hne
  | idle => exact Paired.pages h
  | panicked => exact h
  | closeData i => exact h.1.pages
  | dupClose old new => exact h.1.1.pages
  | dup old new => exact h.1.1.pages
  | dupFd old new => exact h.1.1.pages
  | dupErrFd new => exact h.1.pages
  | dupErrData new => exact h.1.pages
  | fork c pn => exact PairedAt.pages h
  | forkSelf c pn => exact PairedAt.pages h
  | forkShare c pn => exact PairedAt.pages h
  | spawn c pn => exact Paired.pages h
  | _ => exact absurd trivial hm

lemma Procs.Inv.pages (hi : s.Inv) (hhalf : s.NoHalf) (hmaking : ∀ e, ¬ (s.pc e).Making) (e : Fin n) :
    PairedPages (s.space e) := by
  by_cases hpc : s.pc e = .embryo
  · exact hhalf e hpc
  · exact (hi.own e).pages hpc (hmaking e)

end

section
variable {l : List (Nat × SharePte)}

instance PipePage.homeDecidable (p : PipePage) (pn : Nat) : Decidable (p.Home pn) := by
  unfold PipePage.Home
  split <;> infer_instance

end

section
variable {s : Procs n} {e : Fin n}

end

local instance threeProcs : NeZero 3 := ⟨by decide⟩

end Jos
