import Jos.Base.LinkedList
import Jos.Kern.Pmap
import Mathlib.Data.List.Perm.Basic

/-!
# The list of free pages

`boot_alloc` and `page_init` build the list, `check_page_free_list(1)` reorders it
through pointers to links, and `page_alloc` and `page_free` work on it. `page_free`
takes a page for allocated when its `pp_link` is null, as it is at the end of the list.
-/

namespace Jos
open LinkedList Function

variable {l : List Nat} {p : Nat}

/-- What `boot_alloc(0)` returns; `nextfree` is null before the first call. -/
def bootEnd (kernelEnd nextfree : Nat) : Nat := if nextfree = 0 then roundup kernelEnd else nextfree

def bootAlloc (kernelEnd n nextfree : Nat) : Option (Nat × Nat) :=
  let result := bootEnd kernelEnd nextfree
  if n = 0 then some (result, result)
  else
    let next := (result + roundup n) % 2 ^ 32
    if 0xf0400000 < next then none else some (result, next)

def bootAllocs (kernelEnd : Nat) : List Nat → Nat → Option Nat
  | [], nextfree => some nextfree
  | n :: ns, nextfree => do
    let (_, nextfree) ← bootAlloc kernelEnd n nextfree
    bootAllocs kernelEnd ns nextfree

def mpentryPaddr : Nat := 0x7000

def Vm.putFree (i : Nat) (vm : Vm) : Vm :=
  { vm with
    ppRef := update vm.ppRef i 0
    ppLink := update vm.ppLink i vm.pageFreeList
    pageFreeList := some i }

/-- `n` rounds of a loop of `page_init` from page `i` on. -/
def pageInitLoop (skip : Nat → Bool) : Nat → Nat → Vm → Vm
  | 0, _, vm => vm
  | n + 1, i, vm => pageInitLoop skip n (i + 1) (if skip i then vm else vm.putFree i)

def pageInit (npagesBasemem kernelEnd nextfree : Nat) (vm : Vm) : Option Vm :=
  if vm.npages ≤ pgnum mpentryPaddr then none
  else do
    let vm := pageInitLoop (· == pgnum mpentryPaddr) (npagesBasemem - 1) 1 { vm with pageFreeList := none }
    let (kva, _) ← bootAlloc kernelEnd 0 nextfree
    if kva < kernbase then none
    else
      let first := pgnum (kva - kernbase)
      some (pageInitLoop (fun _ => false) (vm.npages - first) first vm)

/-- A place that holds a pointer to a page: the variables `pp1` and `pp2`, and `pp_link` of a page. -/
abbrev Place := Bool ⊕ Nat

/-- `pagetype` in `check_page_free_list(1)`. -/
def highPage (p : Nat) : Bool := 1 ≤ pdx (p * 4096)

/-- The loop that hangs every page on the list of its type; `tp` has the ends of the two. -/
def splitLoop : Nat → Option Nat → (Place → Option Nat) → (Bool → Place) → Option ((Place → Option Nat) × (Bool → Place))
  | _, none, c, tp => some (c, tp)
  | 0, some _, _, _ => none
  | n + 1, some p, c, tp =>
    let c := update c (tp (highPage p)) (some p)
    splitLoop n (c (.inr p)) c (update tp (highPage p) (.inr p))

def lowPagesFirst (fuel : Nat) (junk : Bool → Option Nat) (vm : Vm) : Option Vm := do
  let (c, tp) ← splitLoop fuel vm.pageFreeList (Sum.elim junk vm.ppLink) .inl
  let c := update c (tp true) none
  let c := update c (tp false) (c (.inl true))
  some { vm with ppLink := fun p => c (.inr p), pageFreeList := c (.inl false) }

/-- The machine when `page_init` is called, after calls of `boot_alloc` for the given sizes. -/
structure BootMemory where
  vm : Vm
  npagesBasemem : Nat
  kernelEnd : Nat
  sizes : List Nat
  nextfree : Nat
  mpentry : 7 < vm.npages
  base : npagesBasemem ≤ vm.npages
  hole : npagesBasemem ≤ 160
  allocated : bootAllocs kernelEnd sizes 0 = some nextfree
  extended : kernbase + 0x100000 ≤ bootEnd kernelEnd nextfree

def BootMemory.bootEnd (b : BootMemory) : Nat := Jos.bootEnd b.kernelEnd b.nextfree

def BootMemory.pageInit (b : BootMemory) : Option Vm := Jos.pageInit b.npagesBasemem b.kernelEnd b.nextfree b.vm

def smallBoot : BootMemory where
  vm := ⟨258, fun _ _ => 0, fun _ => 0, fun _ => none, none, 256⟩
  npagesBasemem := 2
  kernelEnd := 0xf0100001
  sizes := []
  nextfree := 0
  mpentry := by decide
  base := by decide
  hole := by decide
  allocated := rfl
  extended := by decide

lemma roundup_aligned (a : Nat) : 4096 ∣ roundup a := by
  unfold roundup rounddown
  omega

lemma bootEnd_aligned (kernelEnd : Nat) {nextfree : Nat} (h : 4096 ∣ nextfree) : 4096 ∣ bootEnd kernelEnd nextfree := by
  unfold bootEnd
  split
  · exact roundup_aligned kernelEnd
  · exact h

lemma bootAllocs_aligned {kernelEnd : Nat} {ns : List Nat} {nextfree e : Nat} (h : 4096 ∣ nextfree)
    (hrun : bootAllocs kernelEnd ns nextfree = some e) : 4096 ∣ e := by
  induction ns generalizing nextfree with
  | nil =>
    cases hrun
    exact h
  | cons n ns ih =>
    obtain ⟨⟨r, next⟩, hcall, hrest⟩ := Option.bind_eq_some_iff.mp hrun
    have hend := bootEnd_aligned kernelEnd h
    have hn := roundup_aligned n
    refine ih ?_ hrest
    simp only [bootAlloc] at hcall
    split at hcall
    · cases hcall
      exact hend
    · split at hcall
      · cases hcall
      · cases hcall
        omega

structure FreeList (vm : Vm) (l : List Nat) : Prop where
  chain : Chain vm.ppLink vm.pageFreeList l
  ref : ∀ p ∈ l, vm.ppRef p = 0

lemma FreeList.putFree {vm : Vm} (h : FreeList vm l) (hp : p ∉ l) : FreeList (vm.putFree p) (p :: l) := by
  refine ⟨h.chain.push hp, fun q hq => ?_⟩
  rcases List.mem_cons.mp hq with rfl | hq
  · exact update_self _ _ _
  · have hqp : q ≠ p := fun he => hp (he ▸ hq)
    exact (update_of_ne hqp _ _).trans (h.ref q hq)

lemma pageInitLoop_list (skip : Nat → Bool) (n i : Nat) {vm : Vm} (h : FreeList vm l)
    (hlt : ∀ p ∈ l, p < i) : (pageInitLoop skip n i vm).npages = vm.npages ∧
    ∃ l', FreeList (pageInitLoop skip n i vm) l' ∧ ∀ p, p ∈ l' ↔ p ∈ l ∨ i ≤ p ∧ p < i + n ∧ skip p = false := by
  induction n generalizing i vm l with
  | zero => exact ⟨rfl, l, h, fun p => ⟨.inl, fun hp => hp.elim id fun hp => absurd hp.2.1 (Nat.not_lt.mpr hp.1)⟩⟩
  | succ n ih =>
    cases hs : skip i with
    | true =>
      obtain ⟨hn, l', hl', hmem⟩ := ih (i + 1) h fun p hp => Nat.lt_succ_of_lt (hlt p hp)
      simp only [pageInitLoop, hs, if_true]
      refine ⟨hn, l', hl', fun p => (hmem p).trans (or_congr_right ?_)⟩
      have hp : p = i → skip p := fun he => he ▸ hs
      grind
    | false =>
      have hi : i ∉ l := fun hi => lt_irrefl i (hlt i hi)
      have hlt' : ∀ p ∈ i :: l, p < i + 1 := by
        intro p hp
        rcases List.mem_cons.mp hp with rfl | hp
        · exact Nat.lt_succ_self _
        · exact Nat.lt_succ_of_lt (hlt p hp)
      obtain ⟨hn, l', hl', hmem⟩ := ih (i + 1) (h.putFree hi) hlt'
      simp only [pageInitLoop, hs]
      refine ⟨hn, l', hl', fun p => (hmem p).trans ?_⟩
      have hp : p = i → skip p = false := fun he => he ▸ hs
      rw [List.mem_cons]
      grind

lemma BootMemory.pageInit_list (b : BootMemory) : ∃ vm l, b.pageInit = some vm ∧ FreeList vm l ∧
    ∀ i, i ∈ l ↔ 1 ≤ i ∧ i < b.npagesBasemem ∧ i ≠ pgnum mpentryPaddr ∨
      b.bootEnd ≤ kernbase + i * 4096 ∧ i < b.vm.npages := by
  have hend : 4096 ∣ b.bootEnd := bootEnd_aligned _ (bootAllocs_aligned (Dvd.intro 0 rfl) b.allocated)
  have hext : kernbase + 0x100000 ≤ b.bootEnd := b.extended
  have hhole := b.hole
  have hmp : ¬ b.vm.npages ≤ pgnum mpentryPaddr := Nat.not_le.mpr b.mpentry
  have hkva : ¬ b.bootEnd < kernbase := by omega
  have hempty : FreeList { b.vm with pageFreeList := none } [] := ⟨rfl, fun p hp => absurd hp List.not_mem_nil⟩
  obtain ⟨hn1, l1, hl1, hmem1⟩ := pageInitLoop_list (· == pgnum mpentryPaddr) (b.npagesBasemem - 1) 1 hempty
    (fun p hp => absurd hp List.not_mem_nil)
  have hpg : pgnum (b.bootEnd - kernbase) * 4096 = b.bootEnd - kernbase := by
    unfold pgnum kernbase at *
    omega
  obtain ⟨-, l2, hl2, hmem2⟩ := pageInitLoop_list (fun _ => false)
    (b.vm.npages - pgnum (b.bootEnd - kernbase)) (pgnum (b.bootEnd - kernbase)) hl1 (fun p hp => by
      obtain ⟨-, hp, -⟩ := ((hmem1 p).mp hp).resolve_left List.not_mem_nil
      omega)
  refine ⟨_, l2, ?_, hl2, fun i => (hmem2 i).trans ?_⟩
  · simp only [BootMemory.pageInit, Jos.pageInit, hmp, if_false, bootAlloc, if_true, Option.bind_eq_bind,
      Option.bind_some]
    rw [if_neg (show ¬ Jos.bootEnd b.kernelEnd b.nextfree < kernbase from hkva), hn1]
    rfl
  · simp only [hmem1 i, List.not_mem_nil, false_or, beq_eq_false_iff_ne, and_true]
    omega

def Seg (c : Place → Option Nat) : Place → List Nat → Place → Prop
  | a, [], z => z = a
  | a, p :: l, z => c a = some p ∧ Seg c (.inr p) l z

lemma Seg.end_mem {c : Place → Option Nat} {a z : Place} (h : Seg c a l z) : z = a ∨ ∃ p ∈ l, z = .inr p := by
  induction l generalizing a with
  | nil => exact .inl h
  | cons p l ih =>
    rcases ih h.2 with he | ⟨q, hq, he⟩
    · exact .inr ⟨p, List.mem_cons_self, he⟩
    · exact .inr ⟨q, List.mem_cons_of_mem p hq, he⟩

lemma Seg.chain {c c' : Place → Option Nat} {a z : Place} {t : List Nat} (h : Seg c a l z)
    (ha : ∀ p ∈ l, a ≠ .inr p) (hl : l.Nodup) (hsame : ∀ x, x = a ∨ (∃ p ∈ l, x = .inr p) → x ≠ z → c' x = c x)
    (ht : Chain (fun p => c' (.inr p)) (c' z) t) : Chain (fun p => c' (.inr p)) (c' a) (l ++ t) := by
  induction l generalizing a with
  | nil =>
    cases (show z = a from h)
    exact ht
  | cons p l ih =>
    obtain ⟨hp, hrest⟩ := h
    obtain ⟨hpl, hl⟩ := List.nodup_cons.mp hl
    have haz : a ≠ z := by
      rintro rfl
      rcases hrest.end_mem with he | ⟨q, hq, he⟩
      · exact ha p List.mem_cons_self he
      · exact ha q (List.mem_cons_of_mem p hq) he
    refine ⟨(hsame a (.inl rfl) haz).trans hp, ih hrest (fun q hq he => hpl (Sum.inr.inj he ▸ hq)) hl fun x hx => hsame x ?_⟩
    rcases hx with rfl | ⟨q, hq, rfl⟩
    · exact .inr ⟨p, List.mem_cons_self, rfl⟩
    · exact .inr ⟨q, List.mem_cons_of_mem p hq, rfl⟩

lemma splitLoop_spec (r : List Nat) (fuel : Nat) (hfuel : r.length ≤ fuel) {head : Option Nat}
    {c : Place → Option Nat} {tp : Bool → Place} (hr : Chain (fun p => c (.inr p)) head r)
    (hne : tp false ≠ tp true) (htp : ∀ b, ∀ p ∈ r, tp b ≠ .inr p) :
    ∃ c' tp', splitLoop fuel head c tp = some (c', tp') ∧
      (∀ b, Seg c' (tp b) (r.filter (highPage · == b)) (tp' b)) ∧
      ∀ a, (∀ b, a ≠ tp b) → (∀ p ∈ r, a ≠ .inr p) → c' a = c a := by
  induction r generalizing fuel head c tp with
  | nil =>
    cases (show head = none from hr)
    exact ⟨c, tp, by cases fuel <;> rfl, fun b => rfl, fun a _ _ => rfl⟩
  | cons p r ih =>
    obtain ⟨n, rfl⟩ := Nat.exists_eq_succ_of_ne_zero (ne_of_gt (lt_of_lt_of_le (Nat.succ_pos _) hfuel))
    have hp : p ∉ r := (List.nodup_cons.mp hr.nodup).1
    obtain ⟨hhead, hrest⟩ := hr
    subst hhead
    generalize hb : highPage p = b
    have hother : tp b ≠ tp !b := by cases b <;> [exact hne; exact hne.symm]
    -- the store goes to the end of one of the lists, which is no page still to come
    have hkeep : ∀ q ∈ p :: r, update c (tp b) (some p) (.inr q) = c (.inr q) :=
      fun q hq => update_of_ne (htp b q hq).symm _ _
    have hrest' : Chain (fun q => update c (tp b) (some p) (.inr q)) (update c (tp b) (some p) (.inr p)) r := by
      rw [hkeep p List.mem_cons_self]
      exact hrest.congr fun q hq => hkeep q (List.mem_cons_of_mem p hq)
    have hends : ∀ b', update tp b (.inr p) b' = .inr p ∧ b' = b ∨ update tp b (.inr p) b' = tp b' ∧ b' = !b := by
      intro b'
      by_cases h : b' = b
      · exact .inl ⟨by rw [h, update_self], h⟩
      · exact .inr ⟨update_of_ne h _ _, by revert h; cases b <;> cases b' <;> decide⟩
    have htp' : ∀ b', ∀ q ∈ r, update tp b (.inr p) b' ≠ .inr q := by
      intro b' q hq
      rcases hends b' with ⟨h, -⟩ | ⟨h, -⟩ <;> rw [h]
      · exact fun he => hp (Sum.inr.inj he ▸ hq)
      · exact htp b' q (List.mem_cons_of_mem p hq)
    have hne' : update tp b (.inr p) false ≠ update tp b (.inr p) true := by
      have hpb := htp (!b) p List.mem_cons_self
      cases b
      · rw [update_self, update_of_ne (by decide)]
        exact hpb.symm
      · rw [update_self, update_of_ne (by decide)]
        exact hpb
    obtain ⟨c', tp', hloop, hseg, hsame⟩ := ih n (Nat.le_of_succ_le_succ hfuel) hrest' hne' htp'
    refine ⟨c', tp', by rw [← hloop, splitLoop, hb], fun b' => ?_, fun a ha hap => ?_⟩
    · rcases hends b' with ⟨h, rfl⟩ | ⟨h, rfl⟩
      · have hstored : c' (tp b') = some p := by
          refine (hsame _ (fun b'' => ?_) fun q hq => htp b' q (List.mem_cons_of_mem p hq)).trans (update_self _ _ _)
          rcases hends b'' with ⟨h, -⟩ | ⟨h, rfl⟩ <;> rw [h]
          · exact htp b' p List.mem_cons_self
          · exact hother
        rw [List.filter_cons_of_pos (by simp [hb])]
        exact ⟨hstored, h ▸ hseg b'⟩
      · rw [List.filter_cons_of_neg (by simp [hb])]
        exact h ▸ hseg !b
    · refine (hsame a (fun b' => ?_) fun q hq => hap q (List.mem_cons_of_mem p hq)).trans (update_of_ne (ha b) _ _)
      rcases hends b' with ⟨h, -⟩ | ⟨h, -⟩ <;> rw [h]
      · exact hap p List.mem_cons_self
      · exact ha b'

lemma lowPagesFirst_spec {vm : Vm} (hl : Chain vm.ppLink vm.pageFreeList l) (junk : Bool → Option Nat)
    {fuel : Nat} (hfuel : l.length ≤ fuel) : ∃ vm', lowPagesFirst fuel junk vm = some vm' ∧ vm'.ppRef = vm.ppRef ∧
      Chain vm'.ppLink vm'.pageFreeList (l.filter (!highPage ·) ++ l.filter highPage) := by
  have hne : (Sum.inl false : Place) ≠ .inl true := by decide
  have htp : ∀ b, ∀ p ∈ l, (Sum.inl b : Place) ≠ .inr p := fun _ _ _ => Sum.inl_ne_inr
  obtain ⟨c, tp, hloop, hseg, -⟩ := splitLoop_spec l fuel hfuel (c := Sum.elim junk vm.ppLink) hl hne htp
  have hlow := hseg false
  have hhigh := hseg true
  simp only [beq_false, beq_true] at hlow hhigh
  let c1 := update c (tp true) none
  let c2 := update c1 (tp false) (c1 (.inl true))
  refine ⟨{ vm with ppLink := fun p => c2 (.inr p), pageFreeList := c2 (.inl false) },
    by rw [lowPagesFirst, hloop]; rfl, rfl, ?_⟩
  have hnodup := hl.nodup
  -- no place of one list is the last place of the other
  have hapart : ∀ b x, x = .inl b ∨ (∃ p ∈ l.filter (highPage · == b), x = .inr p) → x ≠ tp !b := by
    rintro b x hx rfl
    rcases hx with hx | ⟨p, hp, hx⟩ <;> rcases (hseg !b).end_mem with he | ⟨q, hq, he⟩ <;> rw [hx] at he
    · exact Bool.not_ne_self b (Sum.inl.inj he).symm
    · cases he
    · cases he
    · cases he
      simp [(List.mem_filter.mp hp).1] at hp hq
      simp [hp] at hq
  have hends : c2 (tp true) = none := by
    rw [show c2 (tp true) = c1 (tp true) from update_of_ne (hapart false _ (hseg false).end_mem).symm _ _]
    exact update_self _ _ _
  have hhead : c2 (.inl true) = c1 (.inl true) := update_of_ne (hapart true _ (.inl rfl)) _ _
  have htail : Chain (fun p => c2 (.inr p)) (c2 (.inl true)) (l.filter highPage ++ []) := by
    refine hhigh.chain (fun p hp => htp true p (List.mem_of_mem_filter hp)) (hnodup.filter _) (fun x hx hxz => ?_) hends
    exact (update_of_ne (hapart true x (by simpa using hx)) _ _).trans (update_of_ne hxz _ _)
  show Chain (fun p => c2 (.inr p)) (c2 (.inl false)) _
  refine hlow.chain (fun p hp => htp false p (List.mem_of_mem_filter hp)) (hnodup.filter _) (fun x hx hxz => ?_) ?_
  · exact (update_of_ne hxz _ _).trans (update_of_ne (hapart false x (by simpa using hx)) _ _)
  · rw [show c2 (tp false) = c2 (.inl true) from (update_self _ _ _).trans hhead.symm]
    simpa using htail

theorem pageInit_builds_free_list (b : BootMemory) :
    (∃ vm l, b.pageInit = some vm ∧ Chain vm.ppLink vm.pageFreeList l ∧ l.Nodup ∧ (∀ i ∈ l, vm.ppRef i = 0) ∧
      (∀ i, i ∈ l ↔ 1 ≤ i ∧ i < b.npagesBasemem ∧ i ≠ pgnum mpentryPaddr ∨
        b.bootEnd ≤ kernbase + i * 4096 ∧ i < b.vm.npages) ∧
      0 ∉ l ∧ pgnum mpentryPaddr ∉ l ∧ ∀ a, 0xa0000 ≤ a → kernbase + a < b.bootEnd → pgnum a ∉ l) ∧
    ∀ (vm : Vm) (l : List Nat) (junk : Bool → Option Nat) (fuel : Nat), Chain vm.ppLink vm.pageFreeList l →
      l.length ≤ fuel → ∃ vm' l', lowPagesFirst fuel junk vm = some vm' ∧ vm'.ppRef = vm.ppRef ∧
        Chain vm'.ppLink vm'.pageFreeList l' ∧ l'.Perm l ∧ l' = l.filter (!highPage ·) ++ l.filter highPage := by
  constructor
  · obtain ⟨vm, l, hinit, hl, hmem⟩ := b.pageInit_list
    have hext : kernbase + 0x100000 ≤ b.bootEnd := b.extended
    have hhole := b.hole
    refine ⟨vm, l, hinit, hl.chain, hl.chain.nodup, hl.ref, hmem, ?_, ?_, fun a ha hlt => ?_⟩ <;> rw [hmem]
    · omega
    · have h7 : pgnum mpentryPaddr = 7 := rfl
      omega
    · unfold pgnum
      omega
  · intro vm l junk fuel hl hfuel
    obtain ⟨vm', hrun, href, hl'⟩ := lowPagesFirst_spec hl junk hfuel
    refine ⟨vm', _, hrun, href, hl', ?_, rfl⟩
    simpa using List.filter_append_perm (!highPage ·) l

lemma smallBoot_pageInit : smallBoot.pageInit = some (.putFree 257 (.putFree 1 smallBoot.vm)) := by
  simp [BootMemory.pageInit, pageInit, smallBoot, bootAlloc, bootEnd, roundup, rounddown, pgnum, kernbase, mpentryPaddr,
    pageInitLoop]
  rfl

theorem pageInit_builds_free_list_small : ∃ vm vm' l, smallBoot.pageInit = some vm ∧
    Chain vm.ppLink vm.pageFreeList [257, 1] ∧ lowPagesFirst 2 (fun _ => none) vm = some vm' ∧
    Chain vm'.ppLink vm'.pageFreeList l ∧ l = [257, 1] := by
  have hl : Chain (Vm.putFree 257 (.putFree 1 smallBoot.vm)).ppLink (some 257) [257, 1] := ⟨rfl, rfl, rfl⟩
  obtain ⟨vm', l, hrun, -, hl', -, he⟩ :=
    (pageInit_builds_free_list smallBoot).2 (.putFree 257 (.putFree 1 smallBoot.vm)) _ (fun _ => none) 2 hl (by decide)
  exact ⟨_, vm', l, smallBoot_pageInit, hl, hrun, hl', he.trans (by decide)⟩

inductive PageCall where
  | alloc (zero : Bool)
  | free (p : Nat)

def PageCall.exec : PageCall → Vm → Option (Option Nat × Vm)
  | .alloc zero, vm => some (pageAlloc zero vm)
  | .free p, vm => (pageFree p vm).map fun vm => (none, vm)

def PageCall.held (r : Option Nat) (held : Nat → Prop) : PageCall → Nat → Prop
  | .alloc _, q => held q ∨ r = some q
  | .free p, q => held q ∧ q ≠ p

inductive PageRun (P : Vm → PageCall → Prop) (vm0 : Vm) : Vm → (Nat → Prop) → Prop
  | init : PageRun P vm0 vm0 fun _ => False
  | call {vm vm' : Vm} {held : Nat → Prop} {c : PageCall} {r : Option Nat} :
    PageRun P vm0 vm held → P vm c → c.exec vm = some (r, vm') → PageRun P vm0 vm' (c.held r held)

def FreesLast (vm : Vm) : PageCall → Prop
  | .alloc _ => False
  | .free p => ∃ l, Chain vm.ppLink vm.pageFreeList (l ++ [p])

structure PageCallRight (vm : Vm) (held : Nat → Prop) (c : PageCall) : Prop where
  panics : ∀ p, c = .free p → (vm.ppRef p ≠ 0 ∨ ∃ l, Chain vm.ppLink vm.pageFreeList l ∧ p ∈ l) → c.exec vm = none
  exclusive : ∀ zero p, c = .alloc zero → (pageAlloc zero vm).1 = some p → ¬ held p
  available : ∀ zero, c = .alloc zero → (pageAlloc zero vm).1 = none → Chain vm.ppLink vm.pageFreeList []
  finite : ∀ r vm', c.exec vm = some (r, vm') → ∃ l, Chain vm'.ppLink vm'.pageFreeList l ∧ l.Nodup

lemma FreeList.pageAlloc {vm : Vm} (h : FreeList vm l) (zero : Bool) :
    (Jos.pageAlloc zero vm).1 = l.head? ∧ FreeList (Jos.pageAlloc zero vm).2 l.tail := by
  obtain ⟨hl, href⟩ := h
  cases l with
  | nil =>
    rw [Jos.pageAlloc, show vm.pageFreeList = none from hl]
    exact ⟨rfl, hl, href⟩
  | cons p l =>
    have hp := (List.nodup_cons.mp hl.nodup).1
    have hpop := (show Chain vm.ppLink (some p) (p :: l) from hl.1 ▸ hl).pop
    have href' : ∀ q ∈ l, update vm.ppRef p 0 q = 0 := by
      intro q hq
      have hqp : q ≠ p := fun he => hp (he ▸ hq)
      exact (update_of_ne hqp _ _).trans (href q (List.mem_cons_of_mem p hq))
    rw [Jos.pageAlloc, hl.1]
    cases zero <;> exact ⟨rfl, hpop, href'⟩

lemma pageFree_eq_some {vm vm' : Vm} (h : pageFree p vm = some vm') : vm.ppRef p = 0 ∧ vm.ppLink p = none ∧
      vm' = { vm with ppLink := update vm.ppLink p vm.pageFreeList, pageFreeList := some p } := by
  unfold pageFree at h
  split at h
  · cases h
  · cases h
    simp_all

lemma FreeList.pageFree {vm vm' : Vm} (h : FreeList vm l)
    (hlast : ¬ FreesLast vm (.free p)) (hfree : Jos.pageFree p vm = some vm') : p ∉ l ∧ FreeList vm' (p :: l) := by
  obtain ⟨href, hlink, rfl⟩ := pageFree_eq_some hfree
  have hp : p ∉ l := by
    intro hp
    obtain ⟨l', rfl⟩ := (h.chain.last_iff hp).mp hlink
    exact hlast ⟨l', h.chain⟩
  refine ⟨hp, h.chain.push hp, fun q hq => ?_⟩
  rcases List.mem_cons.mp hq with rfl | hq
  · exact href
  · exact h.ref q hq

def Exclusive (vm : Vm) (held : Nat → Prop) : Prop := ∃ l, FreeList vm l ∧ ∀ p ∈ l, ¬ held p

lemma Exclusive.call {vm vm' : Vm} {held : Nat → Prop} {c : PageCall} {r : Option Nat} (h : Exclusive vm held)
    (hlast : ¬ FreesLast vm c) (hc : c.exec vm = some (r, vm')) : Exclusive vm' (c.held r held) := by
  obtain ⟨l, hl, hheld⟩ := h
  cases c with
  | alloc zero =>
    obtain ⟨hr, hl'⟩ := hl.pageAlloc zero
    rw [show Jos.pageAlloc zero vm = (r, vm') from Option.some.inj hc] at hr hl'
    refine ⟨l.tail, hl', fun p hp => ?_⟩
    rintro (hp' | hp')
    · exact hheld p (List.mem_of_mem_tail hp) hp'
    · cases l with
      | nil => cases hp
      | cons q l =>
        cases hr.symm.trans hp'
        exact (List.nodup_cons.mp hl.chain.nodup).1 hp
  | free p =>
    obtain ⟨vm', hfree, he⟩ := Option.map_eq_some_iff.mp hc
    cases he
    refine ⟨p :: l, (hl.pageFree hlast hfree).2, fun q hq => ?_⟩
    rintro ⟨hq', hne⟩
    exact hheld q ((List.mem_cons.mp hq).resolve_left hne) hq'

lemma PageRun.exclusive {vm0 vm : Vm} {held : Nat → Prop} (h0 : Exclusive vm0 fun _ => False)
    (hrun : PageRun (fun vm c => ¬ FreesLast vm c) vm0 vm held) : Exclusive vm held := by
  induction hrun with
  | init => exact h0
  | call _ hlast hc ih => exact ih.call hlast hc

/-- As long as no call frees the last page of the list, the next call is right if and only if it does not either. -/
theorem allocator_exclusive_iff (b : BootMemory) {vm0 vm : Vm} {held : Nat → Prop} (hinit : b.pageInit = some vm0)
    (hrun : PageRun (fun vm c => ¬ FreesLast vm c) vm0 vm held) :
    (∃ l, Chain vm.ppLink vm.pageFreeList l ∧ l.Nodup) ∧ ∀ c, PageCallRight vm held c ↔ ¬ FreesLast vm c := by
  obtain ⟨vm1, l0, hinit', hl0, -⟩ := b.pageInit_list
  cases hinit.symm.trans hinit'
  obtain ⟨l, hl, hheld⟩ := hrun.exclusive ⟨l0, hl0, fun _ _ => not_false⟩
  refine ⟨⟨l, hl.chain, hl.chain.nodup⟩, fun c => ⟨fun hright hlast => ?_, fun hlast => ⟨?_, ?_, ?_, ?_⟩⟩⟩
  · cases c with
    | alloc zero => exact hlast
    | free p =>
      obtain ⟨l', hl'⟩ := hlast
      cases hl.chain.unique hl'
      have hp : p ∈ l' ++ [p] := List.mem_append_right l' List.mem_cons_self
      have hpanic := hright.panics p rfl (.inr ⟨_, hl', hp⟩)
      simp [PageCall.exec, Jos.pageFree, hl.ref p hp, (hl'.last_iff hp).mpr ⟨l', rfl⟩] at hpanic
  · rintro p rfl hp
    refine Option.map_eq_none_iff.mpr (Option.eq_none_iff_forall_not_mem.mpr fun vm' hfree => ?_)
    rcases hp with hp | ⟨l', hl', hp⟩
    · exact hp (pageFree_eq_some hfree).1
    · exact (hl.pageFree hlast hfree).1 (hl.chain.unique hl' ▸ hp)
  · rintro zero p rfl hp
    exact hheld p (List.mem_of_mem_head? ((hl.pageAlloc zero).1.symm.trans hp))
  · rintro zero rfl hp
    have hnil : l = [] := List.head?_eq_none_iff.mp ((hl.pageAlloc zero).1.symm.trans hp)
    exact hnil ▸ hl.chain
  · intro r vm' hc
    obtain ⟨l', hl', -⟩ := Exclusive.call ⟨l, hl, hheld⟩ hlast hc
    exact ⟨l', hl'.chain, hl'.chain.nodup⟩

theorem allocator_exclusive_small : ∃ vm, smallBoot.pageInit = some vm ∧
    ∀ c, PageCallRight vm (fun _ => False) c ↔ ¬ FreesLast vm c := by
  obtain ⟨vm, -, hinit, -⟩ := smallBoot.pageInit_list
  exact ⟨vm, hinit, (allocator_exclusive_iff smallBoot hinit .init).2⟩

theorem page_free_last_page : ∃ vm vm', smallBoot.pageInit = some vm ∧ Chain vm.ppLink vm.pageFreeList [257, 1] ∧
    pageFree 1 vm = some vm' ∧ ∀ l, ¬ Chain vm'.ppLink vm'.pageFreeList l := by
  refine ⟨_, _, smallBoot_pageInit, ⟨rfl, rfl, rfl⟩, rfl, fun l => Chain.endless (S := fun p : Nat => p = 1 ∨ p = 257) ?_ (.inl rfl) l⟩
  rintro p (rfl | rfl)
  · exact ⟨257, .inr rfl, rfl⟩
  · exact ⟨1, .inl rfl, rfl⟩

end Jos
