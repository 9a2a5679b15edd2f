import Jos.Kern.Books
import Jos.Kern.Trap

/-!
# System calls and the books

Each system call, under the condition it needs, keeps the books and makes at most
one new mapping of a page that was in use before: the one its arguments ask for.
-/

namespace Jos
open LinkedList Bits

variable {dst dstva e envid perm srcva va : Nat} {k1 : Kernel}

/-- Every page table entry of `k'` is as it was in `k`, or empty, or maps a page that was
free in `k`, or maps one that `g` grants; `g` relates a page to the permissions it is
mapped with. -/
def Traced (l : List Nat) (k k' : Kernel) (g : Nat → Nat → Prop) : Prop :=
  ∀ s ∈ slots, ¬ s.IsTable →
    slotWord k'.vm k'.spaces s = slotWord k.vm k.spaces s ∨ slotWord k'.vm k'.spaces s = 0 ∨
      ∃ p perm, perm < 4096 ∧ (p ∈ l ∨ g p perm) ∧ slotWord k'.vm k'.spaces s = entry p (pteP ||| perm)

structure Kept (cpu : Nat) (l : List Nat) (k : Kernel) (g : Nat → Nat → Prop) (k' : Kernel) : Prop where
  books : ∃ l' fl', Books k' l' fl'
  traced : Traced l k k' g
  cur : ∀ c, k'.curenv cpu = some c → Live k' c

def noGrant : Nat → Nat → Prop := fun _ _ => False

section
variable {cpu : Nat} {l fl : List Nat} {k k' : Kernel} {g : Nat → Nat → Prop}

lemma Kept.same (h : Kept cpu l k g k1) (hs : SameKernel k1 k')
    (hc : ∀ c, k'.curenv cpu = some c → Live k' c) : Kept cpu l k g k' := by
  obtain ⟨l', fl', hb⟩ := h.books
  refine ⟨⟨l', fl', hs.books hb⟩, ?_, hc⟩
  rw [Traced, hs.vm, hs.spaces]
  exact h.traced

lemma Kept.refl (h : Books k l fl) (hc : ∀ c, k.curenv cpu = some c → Live k c) : Kept cpu l k g k :=
  ⟨⟨l, fl, h⟩, fun _ _ _ => Or.inl rfl, hc⟩

lemma Kept.mono {g' : Nat → Nat → Prop} (h : Kept cpu l k g k') (hg : ∀ p perm, g p perm → g' p perm) :
    Kept cpu l k g' k' := by
  refine ⟨h.books, ?_, h.cur⟩
  intro s hs hst
  rcases h.traced s hs hst with hw | hw | ⟨p, perm, hperm, hgp, hw⟩
  · exact Or.inl hw
  · exact Or.inr (Or.inl hw)
  · exact Or.inr (Or.inr ⟨p, perm, hperm, hgp.imp_right (hg p perm), hw⟩)

lemma Kept.yields (h : Kept cpu l k g k1) : (schedYield cpu k1).All (Kept cpu l k g) :=
  Exit.All.imp (schedYield_same h.cur) fun _ hk => h.same hk.1 hk.2

lemma Kept.runs (h : Kept cpu l k g k1) (he : Live k1 e) : (envRun cpu e k1).All (Kept cpu l k g) := by
  refine Exit.All.imp (envRun_same h.cur he) ?_
  rintro k2 ⟨hs, hcur⟩
  refine h.same hs fun c hc => ?_
  cases hcur.symm.trans hc
  exact (hs.live e).mpr he

lemma traced_of_shrunk (h : Shrunk k.spaces k.vm k'.spaces k'.vm) : Traced l k k' g :=
  fun s hs _ => (h.words s hs).imp_right Or.inl

lemma Freed.kept (hf : Freed k fl e k1) (hs : SameKernel k1 k')
    (hc : ∀ c, k'.curenv cpu = some c → Live k' c) : Kept cpu l k g k' := by
  obtain ⟨l', hb⟩ := hf.books
  refine ⟨⟨l', e :: fl, hs.books hb⟩, ?_, hc⟩
  rw [Traced, hs.vm, hs.spaces]
  exact traced_of_shrunk hf.shrunk

lemma Freed.kept_none (hf : Freed k fl e k1) (cpu : Nat) : Kept cpu l k g (k1.setCurenv cpu none) := by
  refine hf.kept (SameKernel.setCurenv k1 cpu none) fun c hcc => ?_
  simp [Kernel.curenv] at hcc

end

section
variable {cpu e pd va perm pp : Nat} {l l1 fl : List Nat} {k : Kernel} {vm1 : Vm} {g : Nat → Nat → Prop}

/-- `page_insert` into a live environment, from a memory `vm1` with the same slots as the kernel's. -/
theorem Books.insert (h : Books k l fl) (he : Live k e) (hpd : (k.envs e).envPgdir = some pd)
    (hva : va < utop) (hperm : perm < 4096) (hacc : Accounted vm1 k.spaces (fun _ => 0) l1)
    (hw : ∀ s ∈ slots, slotWord vm1 k.spaces s = slotWord k.vm k.spaces s) (hpp : Mappable vm1 k.spaces l1 pp)
    (hroom : pageRefs k.vm k.spaces pp < 65535 ∨ slotRef k.vm k.spaces (.pte e (pdx va) (ptx va)) = some pp) :
    (slotRef k.vm k.spaces (.pde e (pdx va)) = none ∧ l1 = [] ∧
      pageInsert pd pp va perm vm1 = some (-eNoMem, vm1)) ∨
    ∃ vm' l', pageInsert pd pp va perm vm1 = some (0, vm') ∧ Books { k with vm := vm' } l' fl ∧
      Inserted k.spaces e (pdx va) (ptx va) pp perm vm1 vm' := by
  have hs : k.spaces e = some pd := (spaces_live he).trans hpd
  have hrefs : ∀ p, pageRefs vm1 k.spaces p = pageRefs k.vm k.spaces p :=
    fun p => RefCount.refs_congr (slotRef_congr hw) p
  have hbound : ∀ p, pageRefs vm1 k.spaces p + 0 ≤ 65535 := by
    intro p
    rw [hrefs]
    exact h.bound p
  have hpde := slotRef_congr hw _ (hacc.pde_mem hs hva)
  have hpte := slotRef_congr hw _ (hacc.pte_mem hs hva)
  rcases hacc.pageInsert_spec hs hva hpp hperm hbound rfl with ⟨hn, hl, hr⟩ | ⟨vm', l', hr, hacc', hi, -⟩
  · exact Or.inl ⟨hpde ▸ hn, hl, hr⟩
  · have ht1 : Tidy vm1 k.spaces := h.tidy.of_words fun s hs _ => Or.inl (hw s hs)
    refine Or.inr ⟨vm', l', hr, h.setVm hacc' (fun p => ?_) (hi.tidy hperm ht1), hi⟩
    have hp := hi.refs p
    have hb := h.bound p
    rw [hrefs, hpte] at hp
    by_cases hpeq : p = pp ∧ slotRef k.vm k.spaces (.pte e (pdx va) (ptx va)) ≠ some pp
    · obtain ⟨rfl, hne⟩ := hpeq
      have hlt := hroom.resolve_right hne
      rw [if_pos ⟨rfl, hne⟩] at hp
      omega
    · rw [if_neg hpeq] at hp
      omega

lemma traced_of_inserted {d t : Nat} {vm' : Vm} (hperm : perm < 4096)
    (hw : ∀ s ∈ slots, slotWord vm1 k.spaces s = slotWord k.vm k.spaces s)
    (hi : Inserted k.spaces e d t pp perm vm1 vm') (hg : pp ∈ l ∨ g pp perm) : Traced l k { k with vm := vm' } g := by
  intro s hs hst
  by_cases hse : s = .pte e d t
  · subst s
    exact Or.inr (Or.inr ⟨pp, perm, hperm, hg, hi.pte⟩)
  · left
    exact (hi.words s hs (by rintro rfl; exact hst trivial) hse).trans (hw s hs)

section
variable {vm : Vm} {sp : Spaces} {held : Nat → Nat} (h : Accounted vm sp held l)
include h

lemma Accounted.notTable {s : Slot} (hs : s ∈ slots) (hst : ¬ s.IsTable) (hp : slotRef vm sp s = some pp) : NotTable vm sp pp := by
  intro s' hs' hst' hsp
  cases h.tables s' hs' hst' pp hsp s hs hp
  exact hst hst'

lemma Accounted.mappable {d t : Nat} (hk : Slot.pte e d t ∈ slots) (hp : slotRef vm sp (.pte e d t) = some pp) :
    Mappable vm sp l pp := by
  obtain ⟨hlt, hkern⟩ := h.mapped _ hk pp hp
  exact ⟨hlt, hkern, h.notTable hk id hp, h.notMem_of_pos (Nat.add_pos_left (RefCount.refs_pos hk hp) _)⟩

end

end

lemma perm_lt (h32 : perm < 2 ^ 32) (h : badPerm perm = false) : perm < 4096 := by
  simp only [badPerm, Bool.or_eq_false_iff] at h
  have hz : perm &&& (0xFFFFFFFF ^^^ pteSyscall) = 0 := by simpa [flag] using h.2
  exact lt_of_and_not_eq_zero (k := 12) h32 (by decide) hz

/-- A page can be allocated and mapped at `va`: its table exists, or a second page
is free for it. -/
def AllocOk (k : Kernel) (e va : Nat) : Prop :=
  present (k.pde e va) = true ∨ ∀ p, k.vm.pageFreeList = some p → k.vm.ppLink p ≠ none

def LookupOk (k : Kernel) (e va : Nat) : Prop :=
  present (k.pde e va) = true → present (k.pte e va) = true

/-- Mapping the page at `(src, srcva)` at `(dst, dstva)` does not wrap its counter. -/
def CountOk (k : Kernel) (src srcva dst dstva : Nat) : Prop :=
  k.vm.ppRef (ppn (k.pte src srcva)) ≠ 65535 ∨ target (k.pte dst dstva) = some (ppn (k.pte src srcva))

/-- The page at `(src, srcva)`, if there is a table for it, can be mapped at `(dst, dstva)`. -/
def MapOk (k : Kernel) (src srcva dst dstva : Nat) : Prop :=
  present (k.pde src srcva) = true → present (k.pte src srcva) = true ∧ CountOk k src srcva dst dstva

lemma badVa_lt (h : badVa va = false) : va < utop := by
  simp only [badVa, Bool.or_eq_false_iff, decide_eq_false_iff_not, not_le] at h
  exact h.1

section
variable {e pd va : Nat} {l fl : List Nat} {k : Kernel}
variable (h : Books k l fl) (he : Live k e) (hpd : (k.envs e).envPgdir = some pd)
include h he hpd

lemma Books.lookup_absent (hp : present (k.pde e va) = false) : pageLookup pd va k.vm = some none := by
  have hn : slotRef k.vm k.spaces (.pde e (pdx va)) = none := by
    rw [h.slotRef_pde_eq he]
    exact target_eq_none.mpr hp
  simp [pageLookup, Accounted.pgdirWalk_absent ((spaces_live he).trans hpd) hn]

lemma Books.lookup_present (hva : va < utop) (hp : present (k.pte e va)) :
    ∃ q, pageLookup pd va k.vm = some (some (ppn (k.pte e va), (q, ptx va))) ∧
      k.vm.mem q (ptx va) = k.pte e va ∧
      slotRef k.vm k.spaces (.pte e (pdx va) (ptx va)) = some (ppn (k.pte e va)) := by
  have hs : k.spaces e = some pd := (spaces_live he).trans hpd
  have hr : slotRef k.vm k.spaces (.pte e (pdx va) (ptx va)) = some (ppn (k.pte e va)) := by
    rw [slotRef, h.slotWord_pte_eq he]
    exact target_eq_some.mpr ⟨hp, rfl⟩
  obtain ⟨q, hq⟩ := Accounted.pde_of_pte hr
  refine ⟨q, h.vm.pageLookup_present hs hva hr hq, ?_, hr⟩
  rw [← h.slotWord_pte_eq he, slotWord_pte hq]

lemma Books.lookup_table (hva : va < utop) (hp : present (k.pde e va)) :
    pageLookup pd va k.vm = (if ppn (k.pte e va) < k.vm.npages
      then some (some (ppn (k.pte e va), (ppn (k.pde e va), ptx va))) else none) ∧
      k.vm.mem (ppn (k.pde e va)) (ptx va) = k.pte e va := by
  have hq : slotRef k.vm k.spaces (.pde e (pdx va)) = some (ppn (k.pde e va)) := by
    rw [h.slotRef_pde_eq he]
    exact target_eq_some.mpr ⟨hp, rfl⟩
  have hpte : k.vm.mem (ppn (k.pde e va)) (ptx va) = k.pte e va := by
    rw [← h.slotWord_pte_eq he, slotWord_pte hq]
  refine ⟨?_, hpte⟩
  simp [pageLookup, h.vm.pgdirWalk_present ((spaces_live he).trans hpd) hva hq false, hpte]

end

section
variable {cpu cur : Nat} {l fl : List Nat} {k : Kernel} {g : Nat → Nat → Prop}
variable (h : Books k l fl) (hcur : k.curenv cpu = some cur) (hlive : Live k cur)
include hcur hlive in
lemma curenv_live : ∀ c, k.curenv cpu = some c → Live k c := by
  intro c hc
  cases hcur.symm.trans hc
  exact hlive

include hlive in
lemma envid2env_live {checkperm : Bool} (he : envid2env cur envid checkperm k = some e) : Live k e := by
  rcases envid2env_cases he with ⟨-, rfl⟩ | ⟨rfl, hst, -⟩
  · exact hlive
  · exact ⟨Nat.mod_lt _ (by decide), hst⟩

include h hcur hlive in
lemma envDestroy_kept (he : Live k e) : (envDestroy cpu e k).All (Kept cpu l k g) := by
  have hc := curenv_live hcur hlive
  have hrefl : Kept cpu l k g k := Kept.refl h hc
  simp only [envDestroy]
  split
  · have hs : SameKernel k (k.setStatus e .dying) := SameKernel.setStatus k he.2 (by simp)
    exact hrefl.same hs fun c hcc => (hs.live c).mpr (hc c hcc)
  · obtain ⟨k', hfree, hf⟩ := h.envFree_spec he
    rw [hfree]
    by_cases hce : k'.curenv cpu = some e
    · simp only [hce, if_true]
      exact (hf.kept_none cpu).yields
    · simp only [hce, if_false]
      refine hf.kept (SameKernel.refl k') fun c hcc => ?_
      have hne : c ≠ e := fun he => hce (he ▸ hcc)
      rw [Live, hf.others c hne]
      exact hc c (by rwa [Kernel.curenv, ← hf.cpus])

include h hcur hlive in
lemma sysEnvDestroy_kept (envid : Nat) : (sysEnvDestroy cpu cur envid k).All (Kept cpu l k g) := by
  simp only [sysEnvDestroy]
  split
  · exact Kept.refl h (curenv_live hcur hlive)
  · rename_i e he
    exact Outcome.All.bind (envDestroy_kept h hcur hlive (envid2env_live hlive he)) (fun _ _ hk => hk) fun _ hk => hk

include h hcur hlive in
lemma sysExofork_kept : (sysExofork cur k).All (Kept cpu l k g) := by
  have hc := curenv_live hcur hlive
  rcases h.envAlloc_spec (k.envs cur).envId with ⟨r, -, hr, -⟩ | ⟨e, k', hr, ha⟩
  · simp only [sysExofork, hr]
    exact Kept.refl h hc
  · simp only [sysExofork, hr]
    obtain ⟨l', fl', hb, -⟩ := ha.books
    obtain ⟨p, hp, hsp, hadd⟩ := ha.space
    have hk : Kept cpu l k g k' := by
      refine ⟨⟨l', fl', hb⟩, ?_, ?_⟩
      · intro s hs hst
        rw [hsp]
        by_cases hse : s.env = e
        · exact Or.inr (Or.inl (hadd.empty s hs hse hst))
        · exact Or.inl (hadd.others s hs hse)
      · intro c hcc
        have hlc : Live k c := hc c (by rwa [Kernel.curenv, ← ha.cpus])
        have hne : c ≠ e := fun he => hlc.2 (he ▸ ha.free)
        rwa [Live, ha.others c hne]
    have hsame : SameEnv (k'.envs e) { k'.envs e with
        envStatus := .notRunnable
        envTf := { (k'.envs cur).envTf with tfRegs := { (k'.envs cur).envTf.tfRegs with regEax := 0 } } } :=
      ⟨by simp [ha.live.2], rfl, rfl⟩
    have hs := SameKernel.setEnv k' hsame
    exact hk.same hs fun c hcc => (hs.live c).mpr (hk.cur c hcc)

include hcur hlive in
lemma setVm_cur (vm' : Vm) : ∀ c, ({ k with vm := vm' } : Kernel).curenv cpu = some c →
    Live { k with vm := vm' } c := curenv_live (k := k) hcur hlive

include h hcur hlive in
lemma sysPageAlloc_kept (h32 : perm < 2 ^ 32)
    (hok : ∀ e, envid2env cur envid true k = some e → badPerm perm = false → badVa va = false → AllocOk k e va) :
    (sysPageAlloc cur envid va perm k).All (Kept cpu l k g) := by
  have hrefl : Kept cpu l k g k := Kept.refl h (curenv_live hcur hlive)
  cases he : envid2env cur envid true k with
  | none =>
    simp only [sysPageAlloc, he]
    exact hrefl
  | some e =>
    have hl := envid2env_live hlive he
    cases hbp : badPerm perm with
    | true =>
      simp only [sysPageAlloc, he, hbp, if_true]
      exact hrefl
    | false =>
      cases hbv : badVa va with
      | true =>
        simp only [sysPageAlloc, he, hbp, hbv, if_true]
        exact hrefl
      | false =>
        have hva := badVa_lt hbv
        obtain ⟨pd, hpd, hs⟩ := h.space hl
        cases l with
        | nil =>
          simp only [sysPageAlloc, he, hbp, hbv, h.vm.pageAlloc_nil]
          exact hrefl
        | cons p l1 =>
          obtain ⟨vm1, halloc, -, hacc, hfresh, hw⟩ := h.vm.pageAlloc_cons true
          have hz : pageRefs k.vm k.spaces p < 65535 := by
            have := (h.vm.free_page p List.mem_cons_self).2.2
            omega
          rcases h.insert hl hpd hva (perm_lt h32 hbp) hacc hw hfresh.mappable (Or.inl hz) with
            ⟨hnone, hnil, -⟩ | ⟨vm', l', hins, hb, hi⟩
          · exfalso
            rw [h.slotRef_pde_eq hl, target_eq_none] at hnone
            rcases hok e he hbp hbv with hpres | hlink
            · simp [hnone] at hpres
            · subst hnil
              exact hlink p h.vm.chain.1 h.vm.chain.2
          · simp only [sysPageAlloc, he, hbp, hbv, halloc, hpd, hins]
            exact ⟨⟨l', fl, hb⟩, traced_of_inserted (perm_lt h32 hbp) hw hi
              (Or.inl List.mem_cons_self), setVm_cur hcur hlive vm'⟩

include h hcur hlive in
lemma sysPageUnmap_kept (hok : ∀ e, envid2env cur envid true k = some e → badVa va = false → LookupOk k e va) :
    (sysPageUnmap cur envid va k).All (Kept cpu l k g) := by
  have hrefl : Kept cpu l k g k := Kept.refl h (curenv_live hcur hlive)
  cases he : envid2env cur envid true k with
  | none =>
    simp only [sysPageUnmap, he]
    exact hrefl
  | some e =>
    have hl := envid2env_live hlive he
    cases hbv : badVa va with
    | true =>
      simp only [sysPageUnmap, he, hbv, if_true]
      exact hrefl
    | false =>
      obtain ⟨pd, hpd, hs⟩ := h.space hl
      cases hpde : present (k.pde e va) with
      | false =>
        simp only [sysPageUnmap, he, hbv, hpd, pageRemove, h.lookup_absent hl hpd hpde]
        exact hrefl
      | true =>
        obtain ⟨q, -, -, hr⟩ := h.lookup_present hl hpd (badVa_lt hbv) (hok e he hbv hpde)
        obtain ⟨vm', l', hrem, hacc, hw, -⟩ := h.vm.pageRemove_present hs (badVa_lt hbv) hr
          ((h.bound _).trans (by omega))
        have hsh := Shrunk.of_slotWrite (h.vm.pte_mem hs (badVa_lt hbv)) hw
        simp only [sysPageUnmap, he, hbv, hpd, hrem]
        exact ⟨⟨l', fl, h.setVm hacc (fun p => (hsh.refs p).trans (h.bound p)) (hsh.tidy h.tidy)⟩, traced_of_shrunk hsh,
          setVm_cur hcur hlive vm'⟩

/-- The page at `(src, srcva)`, with the permissions asked for. -/
def grantOf (k : Kernel) (src srcva perm : Nat) : Nat → Nat → Prop :=
  fun p perm' => perm' = perm ∧ srcva < utop ∧ target (k.pte src srcva) = some p

include h in
lemma insert_mapped {src pd : Nat} (hsrc : Live k src) (hdst : Live k dst)
    (hpd : (k.envs dst).envPgdir = some pd) (hsva : srcva < utop) (hdva : dstva < utop) (hperm : perm < 4096)
    (hp : present (k.pte src srcva)) (hcount : CountOk k src srcva dst dstva) :
    pageInsert pd (ppn (k.pte src srcva)) dstva perm k.vm = some (-eNoMem, k.vm) ∨
    ∃ vm' l', pageInsert pd (ppn (k.pte src srcva)) dstva perm k.vm = some (0, vm') ∧
      Books { k with vm := vm' } l' fl ∧ Traced l k { k with vm := vm' } (grantOf k src srcva perm) := by
  obtain ⟨spd, hspd, hs⟩ := h.space hsrc
  obtain ⟨q, -, -, hr⟩ := h.lookup_present hsrc hspd hsva hp
  have hmap := h.vm.mappable (h.vm.pte_mem hs hsva) hr
  have hroom : pageRefs k.vm k.spaces (ppn (k.pte src srcva)) < 65535 ∨
      slotRef k.vm k.spaces (.pte dst (pdx dstva) (ptx dstva)) = some (ppn (k.pte src srcva)) := by
    rcases hcount with hc | hc
    · left
      have := h.vm.count _ hmap.lt hmap.kern
      have := h.bound (ppn (k.pte src srcva))
      omega
    · right
      rw [slotRef, h.slotWord_pte_eq hdst, hc]
  rcases h.insert hdst hpd hdva hperm h.vm (fun _ _ => rfl) hmap hroom with ⟨-, -, hr⟩ | ⟨vm', l', hins, hb, hi⟩
  · exact Or.inl hr
  · exact Or.inr ⟨vm', l', hins, hb, traced_of_inserted hperm (fun _ _ => rfl) hi
      (Or.inr ⟨rfl, hsva, target_eq_some.mpr ⟨hp, rfl⟩⟩)⟩

lemma pteW_ne_zero : pteW ≠ 0 := by decide

/-- The permission test of `sys_page_map` never fires: what is left is the lookup and the insertion. -/
theorem sysPageMap_eq {srcenvid dstenvid src spd : Nat}
    (hsrc : envid2env cur srcenvid true k = some src) (hdst : envid2env cur dstenvid true k = some dst)
    (hbp : badPerm perm = false) (hbs : badVa srcva = false) (hbd : badVa dstva = false)
    (hspd : (k.envs src).envPgdir = some spd) : sysPageMap cur srcenvid srcva dstenvid dstva perm k =
      match pageLookup spd srcva k.vm with
      | none => .exit .panic
      | some none => .ret (-eInval) k
      | some (some (p, (_, _))) =>
        match (k.envs dst).envPgdir with
        | none => .exit .panic
        | some dpd =>
          match pageInsert dpd p dstva perm k.vm with
          | none => .exit .panic
          | some (r, vm) => .ret r { k with vm := vm } := by
  rcases hlook : pageLookup spd srcva k.vm with _ | _ | ⟨p, q, j⟩
  · simp [sysPageMap, hsrc, hdst, hbp, hbs, hbd, hspd, hlook]
  · simp [sysPageMap, hsrc, hdst, hbp, hbs, hbd, hspd, hlook]
  · cases hdpd : (k.envs dst).envPgdir with
    | none => simp [sysPageMap, hsrc, hdst, hbp, hbs, hbd, hspd, hlook, hdpd, pteW_ne_zero]
    | some dpd =>
      rcases hins : pageInsert dpd p dstva perm k.vm with _ | ⟨r, vm⟩ <;>
        simp [sysPageMap, hsrc, hdst, hbp, hbs, hbd, hspd, hlook, hdpd, hins, pteW_ne_zero]

include h hcur hlive in
lemma sysPageMap_kept {srcenvid dstenvid : Nat} (h32 : perm < 2 ^ 32)
    (hok : ∀ src dst, envid2env cur srcenvid true k = some src → envid2env cur dstenvid true k = some dst →
      badPerm perm = false → badVa srcva = false → badVa dstva = false → MapOk k src srcva dst dstva) :
    (sysPageMap cur srcenvid srcva dstenvid dstva perm k).All
      (Kept cpu l k fun p perm' => ∃ src, envid2env cur srcenvid true k = some src ∧
        grantOf k src srcva perm p perm') := by
  have hrefl : ∀ g, Kept cpu l k g k := fun _ => Kept.refl h (curenv_live hcur hlive)
  cases hsrc : envid2env cur srcenvid true k with
  | none =>
    simp only [sysPageMap, hsrc]
    exact hrefl _
  | some src =>
  cases hdst : envid2env cur dstenvid true k with
  | none =>
    simp only [sysPageMap, hsrc, hdst]
    exact hrefl _
  | some dst =>
  by_cases hbad : badPerm perm ∨ badVa srcva ∨ badVa dstva
  · have hret : sysPageMap cur srcenvid srcva dstenvid dstva perm k = .ret (-eInval) k := by
      rcases hbad with hb | hb | hb <;> simp [sysPageMap, hsrc, hdst, hb]
    rw [hret]
    exact hrefl _
  · simp only [not_or, Bool.not_eq_true] at hbad
    obtain ⟨hbp, hbs, hbd⟩ := hbad
    have hls := envid2env_live hlive hsrc
    have hld := envid2env_live hlive hdst
    obtain ⟨spd, hspd, -⟩ := h.space hls
    obtain ⟨dpd, hdpd, -⟩ := h.space hld
    rw [sysPageMap_eq hsrc hdst hbp hbs hbd hspd]
    cases hpde : present (k.pde src srcva) with
    | false =>
      rw [h.lookup_absent hls hspd hpde]
      exact hrefl _
    | true =>
      obtain ⟨hpres, hcount⟩ := hok src dst hsrc hdst hbp hbs hbd hpde
      obtain ⟨q, hlook, -, -⟩ := h.lookup_present hls hspd (badVa_lt hbs) hpres
      rw [hlook]
      simp only [hdpd]
      rcases insert_mapped h hls hld hdpd (badVa_lt hbs) (badVa_lt hbd) (perm_lt h32 hbp) hpres hcount with
        hins | ⟨vm', l', hins, hb, htr⟩
      · simp only [hins]
        exact hrefl _
      · simp only [hins]
        have hk : Kept cpu l k (grantOf k src srcva perm) { k with vm := vm' } :=
          ⟨⟨l', fl, hb⟩, htr, setVm_cur hcur hlive vm'⟩
        exact hk.mono fun p perm' hg => ⟨src, rfl, hg⟩

lemma ipcTransfer_error {r : Int} {vm' : Vm}
    (hret : ipcTransfer cur dst srcva perm k = some (.error r, vm')) : r < 0 := by
  have hinval : -eInval < 0 := by decide
  unfold ipcTransfer at hret
  split at hret
  · simp at hret
  split at hret
  · cases hret
    exact hinval
  split at hret
  · cases hret
    exact hinval
  simp only [Option.bind_eq_bind, Option.bind_eq_some_iff] at hret
  obtain ⟨spd, -, lookup, -, hret⟩ := hret
  split at hret
  · cases hret
    exact hinval
  split at hret
  · cases hret
    exact hinval
  split at hret
  · simp only [Option.bind_eq_some_iff] at hret
    obtain ⟨dpd, -, ⟨r', vm''⟩, -, hret⟩ := hret
    simp only at hret
    split at hret
    · rename_i hneg
      cases hret
      exact hneg
    · simp at hret
  · simp at hret

include h in
lemma ipcTransfer_spec (hlive : Live k cur) (hdst : Live k dst) (h32 : perm < 2 ^ 32)
    (hok : srcva < utop → badPerm perm = false → (k.envs dst).envIpcDstva < utop →
      (flag perm pteW → flag (k.pte cur srcva) pteW) →
      MapOk k cur srcva dst (k.envs dst).envIpcDstva) :
    ipcTransfer cur dst srcva perm k = none ∨ (∃ r, ipcTransfer cur dst srcva perm k = some (r, k.vm)) ∨
    ∃ vm' l', ipcTransfer cur dst srcva perm k = some (.ok perm, vm') ∧ Books { k with vm := vm' } l' fl ∧
      (flag perm pteW → flag (k.pte cur srcva) pteW) ∧
      Traced l k { k with vm := vm' } (grantOf k cur srcva perm) := by
  by_cases hs : utop ≤ srcva
  · exact Or.inr (Or.inl ⟨.ok 0, by simp [ipcTransfer, hs]⟩)
  by_cases hal : srcva % pgsize = 0
  case neg => exact Or.inr (Or.inl ⟨.error (-eInval), by simp [ipcTransfer, hs, hal]⟩)
  cases hbp : badPerm perm with
  | true => exact Or.inr (Or.inl ⟨.error (-eInval), by simp [ipcTransfer, hs, hal, hbp]⟩)
  | false =>
  obtain ⟨spd, hspd, -⟩ := h.space hlive
  obtain ⟨dpd, hdpd, -⟩ := h.space hdst
  have hsva : srcva < utop := by omega
  cases hpde : present (k.pde cur srcva) with
  | false =>
    refine Or.inr (Or.inl ⟨.error (-eInval), ?_⟩)
    simp [ipcTransfer, hs, hal, hbp, hspd, h.lookup_absent hlive hspd hpde]
  | true =>
  obtain ⟨hlook, hpte⟩ := h.lookup_table hlive hspd hsva hpde
  by_cases hlt : ppn (k.pte cur srcva) < k.vm.npages
  case neg =>
    left
    simp [ipcTransfer, hs, hal, hbp, hspd, hlook, hlt]
  rw [if_pos hlt] at hlook
  by_cases hW : flag perm pteW → flag (k.pte cur srcva) pteW
  case neg =>
    refine Or.inr (Or.inl ⟨.error (-eInval), ?_⟩)
    simp only [Classical.not_imp, Bool.not_eq_true] at hW
    simp [ipcTransfer, hs, hal, hbp, hspd, hlook, hpte, hW.1, hW.2]
  by_cases hd : (k.envs dst).envIpcDstva < utop
  case neg =>
    refine Or.inr (Or.inl ⟨.ok 0, ?_⟩)
    simpa [ipcTransfer, hs, hal, hbp, hspd, hlook, hpte, hd] using hW
  obtain ⟨hpres, hcount⟩ := hok hsva hbp hd hW hpde
  have heq : ipcTransfer cur dst srcva perm k =
      (pageInsert dpd (ppn (k.pte cur srcva)) (k.envs dst).envIpcDstva perm k.vm).bind
        fun x => if x.1 < 0 then some (.error x.1, x.2) else some (.ok perm, x.2) := by
    simp [ipcTransfer, hs, hal, hbp, hspd, hdpd, hlook, hpte, hd]
    intro hf hn
    simp [hW hf] at hn
  rcases insert_mapped h hlive hdst hdpd hsva hd (perm_lt h32 hbp) hpres hcount with
    hins | ⟨vm', l', hins, hb, htr⟩
  · refine Or.inr (Or.inl ⟨.error (-eNoMem), ?_⟩)
    rw [heq, hins]
    rfl
  · refine Or.inr (Or.inr ⟨vm', l', ?_, hb, hW, htr⟩)
    rw [heq, hins]
    rfl

/-- What a send may grant: the sender's page, and write access only if the sender has it. -/
def sendGrant (k : Kernel) (cur srcva perm : Nat) : Nat → Nat → Prop :=
  fun p perm' => grantOf k cur srcva perm p perm' ∧
    (flag perm pteW = true → flag (k.pte cur srcva) pteW = true)

include h hcur hlive in
lemma sysIpcTrySend_kept {value : Nat} (h32 : perm < 2 ^ 32)
    (hok : ∀ dst, envid2env cur envid false k = some dst → (k.envs dst).envIpcRecving →
      srcva < utop → badPerm perm = false → (k.envs dst).envIpcDstva < utop →
      (flag perm pteW → flag (k.pte cur srcva) pteW) →
      MapOk k cur srcva dst (k.envs dst).envIpcDstva) :
    (sysIpcTrySend cur envid value srcva perm k).All (Kept cpu l k (sendGrant k cur srcva perm)) := by
  have hrefl : ∀ g, Kept cpu l k g k := fun _ => Kept.refl h (curenv_live hcur hlive)
  cases hdst : envid2env cur envid false k with
  | none =>
    simp only [sysIpcTrySend, hdst]
    exact hrefl _
  | some dst =>
  cases hrecv : (k.envs dst).envIpcRecving with
  | false =>
    simp only [sysIpcTrySend, hdst, hrecv]
    exact hrefl _
  | true =>
  have hld := envid2env_live hlive hdst
  have hdeliver : ∀ vm' value perm', Kept cpu l k (sendGrant k cur srcva perm) { k with vm := vm' } →
      Kept cpu l k (sendGrant k cur srcva perm)
        ({ k with vm := vm' }.setEnv dst (deliver (k.envs dst) (k.envs cur).envId value perm')) := by
    intro vm' value perm' hk
    have hs : SameKernel { k with vm := vm' }
        ({ k with vm := vm' }.setEnv dst (deliver (k.envs dst) (k.envs cur).envId value perm')) :=
      SameKernel.setEnv _ ⟨by simp [deliver, hld.2], rfl, rfl⟩
    exact hk.same hs fun c hc => (hs.live c).mpr (hk.cur c hc)
  rcases ipcTransfer_spec h hlive hld h32 (hok dst hdst hrecv) with
    hr | ⟨r, hr⟩ | ⟨vm', l', hr, hb, hW, htr⟩
  · simp only [sysIpcTrySend, hdst, hrecv, hr]
    trivial
  · cases r with
    | error r =>
      simp only [sysIpcTrySend, hdst, hrecv, hr]
      exact hrefl _
    | ok perm' =>
      simp only [sysIpcTrySend, hdst, hrecv, hr]
      exact hdeliver k.vm value perm' (hrefl _)
  · simp only [sysIpcTrySend, hdst, hrecv, hr]
    refine hdeliver vm' value perm ?_
    have hk : Kept cpu l k (grantOf k cur srcva perm) { k with vm := vm' } :=
      ⟨⟨l', fl, hb⟩, htr, setVm_cur hcur hlive vm'⟩
    exact hk.mono fun p perm' hg => ⟨hg, hW⟩

include h hcur hlive in
lemma sysIpcRecv_kept (dstva : Nat) : (sysIpcRecv cpu cur dstva k).All (Kept cpu l k g) := by
  have hrefl : Kept cpu l k g k := Kept.refl h (curenv_live hcur hlive)
  simp only [sysIpcRecv]
  split
  · exact hrefl
  · have hs : SameKernel k (k.setEnv cur (blockEnv (k.envs cur) dstva)) :=
      SameKernel.setEnv k ⟨by simp [hlive.2], rfl, rfl⟩
    exact (hrefl.same hs fun c hc => (hs.live c).mpr (hrefl.cur c hc)).yields

include h hcur hlive in
lemma userMemAssert_kept (he : Live k e) (va len perm : Nat) :
    (userMemAssert cpu e va len perm k).All (Kept cpu l k g) := by
  simp only [userMemAssert]
  split
  · exact True.intro
  split
  · exact True.intro
  · exact Kept.refl h (curenv_live hcur hlive)
  · exact envDestroy_kept h hcur hlive he

include h hcur hlive in
lemma sysCputs_kept (s len : Nat) : (sysCputs cpu cur s len k).All (Kept cpu l k g) := by
  refine Outcome.All.bind (userMemAssert_kept h hcur hlive hlive s len pteU) (fun _ k1 hk => ?_) fun _ hk => hk
  split
  · exact True.intro
  split
  · exact hk
  · exact True.intro

include h hcur hlive in
lemma sysEnvSetStatus_kept (envid status : Nat) : (sysEnvSetStatus cur envid status k).All (Kept cpu l k g) := by
  have hrefl : Kept cpu l k g k := Kept.refl h (curenv_live hcur hlive)
  have hset : ∀ {e st}, envid2env cur envid true k = some e → st ≠ .free → Kept cpu l k g (k.setStatus e st) := by
    intro e st he hst
    have hs := SameKernel.setStatus k (envid2env_live hlive he).2 hst
    exact hrefl.same hs fun c hc => (hs.live c).mpr (hrefl.cur c hc)
  simp only [sysEnvSetStatus]
  split
  · exact hrefl
  · rename_i e he
    split
    · exact hset he (by simp)
    split
    · exact hset he (by simp)
    · exact hrefl

include h hcur hlive in
lemma sysEnvSetPgfaultUpcall_kept (envid func : Nat) :
    (sysEnvSetPgfaultUpcall cur envid func k).All (Kept cpu l k g) := by
  have hrefl : Kept cpu l k g k := Kept.refl h (curenv_live hcur hlive)
  simp only [sysEnvSetPgfaultUpcall]
  split
  · exact hrefl
  · rename_i e _
    have hs : SameKernel k (k.setEnv e { k.envs e with envPgfaultUpcall := func }) :=
      .setEnv k ⟨Iff.rfl, rfl, rfl⟩
    exact hrefl.same hs fun c hc => (hs.live c).mpr (hrefl.cur c hc)

end

section
variable {cpu cur : Nat} {l fl : List Nat} {k : Kernel} {g : Nat → Nat → Prop}

lemma place_slot {pd : Nat} {vm : Vm} {sp : Spaces} {x : Cell × Bool} (hs : sp e = some pd)
    (hx : place pd va vm = some x) : slotRef vm sp (.pte e (pdx va) (ptx va)) = some x.1.page := by
  unfold place at hx
  dsimp only at hx
  split at hx
  · rename_i hp
    obtain ⟨hpde, hpte⟩ := Bool.and_eq_true_iff.mp hp
    cases hx
    have hq : slotRef vm sp (.pde e (pdx va)) = some (ppn (vm.mem pd (pdx va))) := by
      rw [slotRef_pde hs]
      exact target_eq_some.mpr ⟨hpde, rfl⟩
    rw [slotRef, slotWord_pte hq]
    exact target_eq_some.mpr ⟨hpte, rfl⟩
  · cases hx

/-- A store in a page that an environment has mapped. -/
lemma Kept.store {s : Slot} {p : Nat} (h : Kept cpu l k g k1) (hs : s ∈ slots) (hst : ¬ s.IsTable)
    (hp : slotRef k1.vm k1.spaces s = some p) (i v : Nat) :
    Kept cpu l k g { k1 with vm := k1.vm.setWord p i v } ∧
      ∀ s ∈ slots, slotWord (k1.vm.setWord p i v) k1.spaces s = slotWord k1.vm k1.spaces s := by
  obtain ⟨l', fl', hb⟩ := h.books
  obtain ⟨hacc, hw⟩ := hb.vm.setWord_data hs hst hp i v
  have hbound : ∀ q, pageRefs (k1.vm.setWord p i v) k1.spaces q ≤ 65535 := by
    intro q
    rw [pageRefs, RefCount.refs_congr (slotRef_congr hw)]
    exact hb.bound q
  refine ⟨⟨⟨l', fl', hb.setVm hacc hbound (hb.tidy.of_words fun s hs _ => .inl (hw s hs))⟩, ?_, h.cur⟩, hw⟩
  intro s' hs' hst'
  have htr := h.traced s' hs' hst'
  rw [← hw s' hs'] at htr
  exact htr

lemma envDestroy_curenv (hret : envDestroy cpu e k = .ret () k1) (c : Nat) : k1.curenv c = k.curenv c := by
  unfold envDestroy at hret
  split at hret
  · cases hret
    rfl
  · split at hret
    · cases hret
    · rename_i k2 hfree
      split at hret
      · cases hret
      · cases hret
        exact envFree_curenv hfree c

lemma userMemAssert_curenv {len : Nat} (hret : userMemAssert cpu e va len perm k = .ret () k1) (c : Nat) :
    k1.curenv c = k.curenv c := by
  unfold userMemAssert at hret
  split at hret
  · cases hret
  · split at hret
    · cases hret
    · cases hret
      rfl
    · exact envDestroy_curenv hret c

/-- The frame is in the caller's pages, and the caller is still there when its target has been destroyed. -/
lemma sysEnvSetTrapframe_kept (h : Books k l fl) (hcur : k.curenv cpu = some cur) (hlive : Live k cur)
    {tf : Nat} (hframe : tf + 68 ≤ utop) : (sysEnvSetTrapframe cpu cur envid tf k).All (Kept cpu l k g) := by
  have hulim : tf + 68 ≤ ulim := le_trans hframe (by decide)
  unfold sysEnvSetTrapframe
  split
  · exact Kept.refl h (curenv_live hcur hlive)
  rename_i e he
  have hassert : (userMemAssert cpu e tf 68 pteU k).All (Kept cpu l k g) :=
    userMemAssert_kept h hcur hlive (envid2env_live hlive he) tf 68 pteU
  cases hret : userMemAssert cpu e tf 68 pteU k with
  | exit x =>
    rw [hret] at hassert
    exact hassert
  | ret u k1 =>
    rw [hret] at hassert
    have hk : Kept cpu l k g k1 := hassert
    have hlive1 : Live k1 cur := hk.cur cur ((userMemAssert_curenv hret cpu).trans hcur)
    simp only [Outcome.bind]
    split
    · exact True.intro
    rename_i pd hpd
    cases hs : sanitiseTrapframe pd tf k1 with
    | exit x =>
      rw [sanitiseTrapframe_low hulim hs]
      exact True.intro
    | ret frame k2 =>
      obtain ⟨bs, x, y, -, -, hx, hy, -, rfl⟩ := sanitiseTrapframe_user hulim hs
      have hsp : k1.spaces cur = some pd := (spaces_live hlive1).trans hpd
      have hmem : ∀ va, va < utop → Slot.pte cur (pdx va) (ptx va) ∈ slots := fun va hva =>
        pte_mem_slots.mpr ⟨hlive1.1, pdx_lt_npdeUser hva, ptx_lt va⟩
      obtain ⟨hk1, hw⟩ := hk.store (hmem _ (by omega)) id (place_slot hsp hx) _ _
      have hyref := (slotRef_congr hw _ (hmem _ (by omega))).trans (place_slot hsp hy)
      obtain ⟨hk2, -⟩ := hk1.store (hmem _ (by omega)) id hyref _ _
      have hsame := SameKernel.setTf { k1 with vm := (k1.vm.patch x.1 sanitiseFlags).patch y.1 sanitiseCs } e frame
      exact hk2.same hsame fun c hc => (hsame.live c).mpr (hk2.cur c hc)

end

end Jos
