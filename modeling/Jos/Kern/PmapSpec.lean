import Jos.Kern.Accounting

/-!
# What the page functions do to the books

One specification for each function of `kern/pmap.c`: on an accounted state it
returns, the new state is accounted, and the slots change where the mapping
changes and nowhere else.
-/

namespace Jos
open LinkedList RefCount Function

variable {e p perm pgdir pp q va : Nat} {held : Nat → Nat} {k : Slot} {l : List Nat} {sp : Spaces} {vm vm' : Vm}

structure Fresh (vm : Vm) (sp : Spaces) (held : Nat → Nat) (l : List Nat) (p : Nat) : Prop where
  lt : p < vm.npages
  kern : ¬ KernUses vm p
  refs : pageRefs vm sp p = 0
  held : held p = 0
  notMem : p ∉ l

/-- The page `p` may be mapped: it is a page of the machine, off the free list, and
neither the kernel's nor a page table. -/
structure Mappable (vm : Vm) (sp : Spaces) (l : List Nat) (p : Nat) : Prop where
  lt : p < vm.npages
  kern : ¬ KernUses vm p
  data : NotTable vm sp p
  notMem : p ∉ l

structure Taken (zero : Bool) (p : Nat) (vm vm' : Vm) : Prop where
  npages : vm'.npages = vm.npages
  kernPgdir : vm'.kernPgdir = vm.kernPgdir
  mem : ∀ q, q ≠ p → vm'.mem q = vm.mem q
  page : vm'.mem p = if zero then fun _ => 0 else vm.mem p
  ppRef : vm'.ppRef = update vm.ppRef p 0

lemma Fresh.mappable (h : Fresh vm sp held l p) : Mappable vm sp l p :=
  ⟨h.lt, h.kern, notTable_of_pageRefs h.refs, h.notMem⟩

lemma take_then_drop (held : Nat → Nat) (p : Nat) : update (update held p (held p + 1)) p
      (update held p (held p + 1) p - 1) = held := by
  simp

/-- The counts fall from `r` to `r'`: pages that lose their last reference join the free list. -/
structure Returned (r r' : Nat → Nat) (vm : Vm) (l : List Nat) (vm' : Vm) (l' : List Nat) : Prop where
  le : ∀ p, r' p ≤ r p
  kept : ∀ p ∈ l, p ∈ l'
  taken : ∀ p ∈ l', p ∈ l ∨ 0 < r p
  unleaked : ∀ p, 0 < r p → r' p = 0 → p ∈ l'
  ppRef : ∀ p, r p = 0 → vm'.ppRef p = vm.ppRef p

lemma Returned.refl (r : Nat → Nat) (vm : Vm) (l : List Nat) : Returned r r vm l vm l :=
  ⟨fun _ => le_rfl, fun _ => id, fun _ => Or.inl, fun _ hpos h0 => absurd h0 hpos.ne', fun _ _ => rfl⟩

lemma Returned.trans {r r1 r2 : Nat → Nat} {vm1 vm2 : Vm} {l1 l2 : List Nat} (h : Returned r r1 vm l vm1 l1)
    (h' : Returned r1 r2 vm1 l1 vm2 l2) : Returned r r2 vm l vm2 l2 where
  le p := (h'.le p).trans (h.le p)
  kept p hp := h'.kept p (h.kept p hp)
  taken p hp := (h'.taken p hp).elim (h.taken p) fun hpos => Or.inr (hpos.trans_le (h.le p))
  unleaked p hpos h2 := by
    rcases Nat.eq_zero_or_pos (r1 p) with h1 | h1
    · exact h'.kept p (h.unleaked p hpos h1)
    · exact h'.unleaked p h1 h2
  ppRef p h0 := (h'.ppRef p (Nat.le_zero.mp (h0 ▸ h.le p))).trans (h.ppRef p h0)

lemma Taken.kernUses {zero : Bool} (h : Taken zero p vm vm')
    (hp : p ≠ vm.kernPgdir) (q : Nat) : KernUses vm' q ↔ KernUses vm q := by
  simp only [KernUses, h.kernPgdir, h.mem _ hp.symm]

lemma pageDecref_unlinked (hchain : Chain vm.ppLink vm.pageFreeList l) (hp : p ∉ l) (h : vm.ppLink p = none) :
    ∃ link head l', pageDecref p vm = some { vm with
        ppRef := update vm.ppRef p ((vm.ppRef p + 65535) % 65536), ppLink := link, pageFreeList := head } ∧
      (∀ q, (vm.ppRef p + 65535) % 65536 ≠ 0 ∨ q ≠ p → link q = vm.ppLink q) ∧ Chain link head l' ∧
      l' = if (vm.ppRef p + 65535) % 65536 = 0 then p :: l else l := by
  by_cases hr : (vm.ppRef p + 65535) % 65536 = 0
  · refine ⟨update vm.ppLink p vm.pageFreeList, some p, p :: l, ?_, fun q hq => ?_, hchain.push hp, (if_pos hr).symm⟩
    · simp [pageDecref, hr, pageFree, h, Vm.setRef]
    · exact update_of_ne (hq.resolve_left fun hne => hne hr) _ _
  · exact ⟨vm.ppLink, vm.pageFreeList, l, by simp [pageDecref, hr, Vm.setRef], fun _ _ => rfl, hchain,
      (if_neg hr).symm⟩

namespace Accounted
variable {vm : Vm} {sp : Spaces} {held : Nat → Nat} {l : List Nat} {p e d pd va perm : Nat}

lemma notMem_of_pos (h : Accounted vm sp held l) (hp : 0 < pageRefs vm sp p + held p) : p ∉ l := by
  intro hm
  have := (h.free_page p hm).2.2
  omega

lemma pageAlloc_nil (h : Accounted vm sp held []) (zero : Bool) : pageAlloc zero vm = (none, vm) := by
  have hn : vm.pageFreeList = none := h.chain
  simp [pageAlloc, hn]

lemma pageAlloc_cons (h : Accounted vm sp held (p :: l)) (zero : Bool) :
    ∃ vm', pageAlloc zero vm = (some p, vm') ∧ Taken zero p vm vm' ∧ Accounted vm' sp held l ∧
      Fresh vm' sp held l p ∧ ∀ k ∈ slots, slotWord vm' sp k = slotWord vm sp k := by
  obtain ⟨hlt, hkern, hzero⟩ := h.free_page p List.mem_cons_self
  have hnotMem : p ∉ l := (List.nodup_cons.mp h.chain.nodup).1
  have hnt : NotTable vm sp p := notTable_of_pageRefs (by omega)
  have hpk : p ≠ vm.kernPgdir := fun he => hkern (Or.inl he)
  let base : Vm := { vm with
    pageFreeList := vm.ppLink p
    ppRef := update vm.ppRef p 0
    ppLink := update vm.ppLink p none }
  have hbase : Accounted base sp held l := {
    size := h.size
    chain := by
      have hc := h.chain
      rw [h.chain.1] at hc
      exact hc.pop
    unlinked := by
      intro q hq hql
      by_cases hqp : q = p
      · subst q
        exact update_self ..
      · exact (update_of_ne hqp _ _).trans
          (h.unlinked q hq (by simp [hqp, hql]))
    free_page := fun q hq => h.free_page q (List.mem_cons_of_mem p hq)
    count := by
      intro q hq hk
      by_cases hqp : q = p
      · subst q
        change update vm.ppRef p 0 p = (pageRefs vm sp p + held p) % 65536
        rw [update_self, hzero]
      · exact (update_of_ne hqp _ _).trans (h.count q hq hk)
    mapped := h.mapped
    tables := h.tables
    space_lt := h.space_lt
    kern_low := h.kern_low }
  have hfresh : Fresh base sp held l p := ⟨hlt, hkern, by change pageRefs vm sp p = 0; omega, by omega, hnotMem⟩
  cases zero with
  | false =>
    refine ⟨base, ?_, ⟨rfl, rfl, fun _ _ => rfl, rfl, rfl⟩, hbase, hfresh, fun _ _ => rfl⟩
    simp [pageAlloc, h.chain.1, base]
  | true =>
    have hw : ∀ k ∈ slots, slotWord (base.setPage p fun _ => 0) sp k = slotWord base sp k :=
      slotWord_setPage_data (fun _ => 0) hnt
    have hb : SameBooks base (base.setPage p fun _ => 0) := sameBooks_setPage (fun _ => 0) hpk
    have hrefs : pageRefs (base.setPage p fun _ => 0) sp p = 0 := by
      rw [pageRefs, refs_congr (slotRef_congr hw) p]
      exact hfresh.refs
    refine ⟨base.setPage p fun _ => 0, ?_, ⟨rfl, rfl, ?_, ?_, rfl⟩, hbase.sameRefs hb (slotRef_congr hw),
      ⟨hlt, ?_, hrefs, hfresh.held, hnotMem⟩, hw⟩
    · simp [pageAlloc, h.chain.1, base]
    · intro q hq
      funext i
      simp [hq, base]
    · funext i
      simp
    · rw [hb.kernUses]
      exact hkern

section
variable (h : Accounted vm sp held l)
include h

lemma incref (hp : p ∉ l) :
    Accounted (vm.incref p) sp (update held p (held p + 1)) l where
  size := h.size
  chain := h.chain
  unlinked := h.unlinked
  free_page := by
    intro q hq
    have hqp : q ≠ p := fun he => hp (he ▸ hq)
    rw [update_of_ne hqp]
    exact h.free_page q hq
  count := by
    intro q hq hk
    by_cases hqp : q = p
    · subst q
      have := h.count p hq hk
      change update vm.ppRef p _ p = (pageRefs vm sp p + _) % 65536
      rw [update_self, update_self]
      omega
    · rw [update_of_ne hqp]
      exact (update_of_ne hqp _ _).trans (h.count q hq hk)
  mapped := h.mapped
  tables := h.tables
  space_lt := h.space_lt
  kern_low := h.kern_low

lemma pageDecref_spec (hheld : 0 < held p) (hlt : p < vm.npages) (hkern : ¬ KernUses vm p)
    (hbound : pageRefs vm sp p + held p ≤ 65536) : ∃ vm' l', pageDecref p vm = some vm' ∧
      Accounted vm' sp (update held p (held p - 1)) l' ∧
      vm'.mem = vm.mem ∧ vm'.npages = vm.npages ∧ vm'.kernPgdir = vm.kernPgdir ∧
      (∀ q, q ∈ l' → q ∈ l ∨ q = p ∧ pageRefs vm sp p + held p = 1) ∧ l.length ≤ l'.length ∧
      Returned (fun q => pageRefs vm sp q + held q) (fun q => pageRefs vm sp q + update held p (held p - 1) q)
        vm l vm' l' := by
  have hc := h.count p hlt hkern
  have hnl : p ∉ l := h.notMem_of_pos (by omega)
  obtain ⟨link, head, l', hdec, hlink, hchain, hl'⟩ := pageDecref_unlinked h.chain hnl (h.unlinked p hlt hnl)
  have hlast : (vm.ppRef p + 65535) % 65536 = 0 ↔ pageRefs vm sp p + held p = 1 := by omega
  simp only [ne_eq, hlast] at hlink hl'
  have hmem : ∀ q, q ∈ l' ↔ q ∈ l ∨ q = p ∧ pageRefs vm sp p + held p = 1 := by
    intro q
    rw [hl']
    split
    · rename_i hone
      simp [hone, or_comm]
    · rename_i hone
      simp [hone]
  have hheld' : ∀ q, q ≠ p → update held p (held p - 1) q = held q := fun q hq => update_of_ne hq _ _
  have hself : update held p (held p - 1) p = held p - 1 := update_self ..
  refine ⟨_, l', hdec, ?_, rfl, rfl, rfl, fun q => (hmem q).mp, ?_, fun q => ?_, fun q hq => (hmem q).mpr (.inl hq),
    fun q hq => ?_, fun q hpos h0 => (hmem q).mpr ?_, fun q h0 => ?_⟩
  · exact {
      size := h.size
      chain := hchain
      unlinked := by
        intro q hq hql
        rw [hmem, not_or, not_and_or] at hql
        exact (hlink q hql.2.symm).trans (h.unlinked q hq hql.1)
      free_page := by
        intro q hq
        rcases (hmem q).mp hq with hq | ⟨rfl, hone⟩
        · rw [hheld' q fun he => hnl (he ▸ hq)]
          exact h.free_page q hq
        · refine ⟨hlt, hkern, ?_⟩
          rw [hself]
          change pageRefs vm sp q + _ = 0
          omega
      count := by
        intro q hq hk
        by_cases hqp : q = p
        · subst q
          change update vm.ppRef p _ p = (pageRefs vm sp p + _) % 65536
          rw [update_self, hself]
          omega
        · rw [hheld' q hqp]
          exact (update_of_ne hqp _ _).trans (h.count q hq hk)
      mapped := h.mapped
      tables := h.tables
      space_lt := h.space_lt
      kern_low := h.kern_low }
  · rw [hl']
    split
    · exact Nat.le_succ _
    · exact le_rfl
  · by_cases hqp : q = p
    · rw [hqp, hself]
      omega
    · rw [hheld' q hqp]
  · rcases (hmem q).mp hq with hq | ⟨rfl, -⟩
    · exact .inl hq
    · exact .inr (by omega)
  · by_cases hqp : q = p
    · rw [hqp, hself] at h0
      exact .inr ⟨hqp, by omega⟩
    · rw [hheld' q hqp] at h0
      omega
  · refine update_of_ne ?_ _ _
    rintro rfl
    omega

/-- A slot is emptied and its page gives up the reference. -/
theorem drop_slot {sp' : Spaces} (hb : SameBooks vm vm') (hk : k ∈ slots) (hp : slotRef vm sp k = some p)
    (hr : ∀ j ∈ slots, slotRef vm' sp' j = update (slotRef vm sp) k none j) (hsp : ∀ e pd, sp' e = some pd → e < nenv)
    (hbound : pageRefs vm sp p + held p ≤ 65536) :
    ∃ vm2 l', pageDecref p vm' = some vm2 ∧ Accounted vm2 sp' held l' ∧ vm2.mem = vm'.mem ∧
      vm2.npages = vm.npages ∧ vm2.kernPgdir = vm.kernPgdir ∧ (∀ q, KernUses vm2 q ↔ KernUses vm q) ∧
      (∀ q, q ∈ l' → q ∈ l ∨ q = p ∧ pageRefs vm sp p + held p = 1) ∧ l.length ≤ l'.length ∧
      Returned (fun q => pageRefs vm sp q + held q) (fun q => pageRefs vm2 sp' q + held q) vm l vm2 l' := by
  obtain ⟨hlt, hkern⟩ := h.mapped k hk p hp
  have hcount : ∀ q, pageRefs vm' sp' q + update held p (held p + 1) q = pageRefs vm sp q + held q := by
    intro q
    have hq := pageRefs_emptied hk hr q
    rw [hp] at hq
    by_cases hqp : q = p
    · subst q
      rw [if_pos rfl] at hq
      rw [update_self]
      omega
    · rw [if_neg fun heq => hqp (Option.some.inj heq).symm] at hq
      rw [update_of_ne hqp]
      omega
  obtain ⟨vm2, l', hdec, h2, hmem, hnp, hkp, hl', hlen, hret⟩ := (h.detach hb hk hp hr hsp).pageDecref_spec (p := p)
    (by simp) (hb.npages ▸ hlt) (fun hk => hkern ((hb.kernUses p).mp hk)) (by rw [hcount]; exact hbound)
  rw [take_then_drop] at h2 hret
  simp only [hcount] at hl' hret
  refine ⟨vm2, l', hdec, h2, hmem, hnp.trans hb.npages, hkp.trans hb.kernPgdir, fun q => ?_, hl', hlen, ?_⟩
  · rw [← hb.kernUses, KernUses, KernUses, hkp, hmem]
  · exact ⟨fun q => by rw [pageRefs_of_mem sp' hmem]; exact hret.le q, hret.kept, hret.taken,
      fun q hpos h0 => hret.unleaked q hpos (by rwa [pageRefs_of_mem sp' hmem] at h0),
      fun q h0 => (hret.ppRef q h0).trans (by rw [hb.ppRef])⟩

lemma install {sp' : Spaces} (hfresh : Fresh vm sp held l p) (hk : k ∈ slots) (hnone : slotRef vm sp k = none)
    (hb : SameBooks vm vm') (hr : ∀ j ∈ slots, slotRef vm' sp' j = update (slotRef vm sp) k (some p) j)
    (hsp : ∀ e pd, sp' e = some pd → e < nenv) : Accounted (vm'.incref p) sp' held l := by
  have hb' : SameBooks (vm.incref p) (vm'.incref p) := by
    refine ⟨hb.npages, ?_, hb.ppLink, hb.pageFreeList, hb.kernPgdir, hb.kernMem⟩
    simp only [Vm.incref, Vm.setRef, hb.ppRef]
  have hr' : ∀ j ∈ slots, slotRef (vm'.incref p) sp' j =
      update (slotRef (vm.incref p) sp) k (some p) j := by
    rw [slotRef_incref, slotRef_incref]
    exact hr
  have hacc := (h.incref hfresh.notMem).attach hb' hk (by rw [slotRef_incref, hnone]) hr' (by simp) hfresh.lt
    (by rw [kernUses_incref]; exact hfresh.kern) (fun _ => by rw [pageRefs_incref]; exact hfresh.refs)
    (by rw [notTable_incref]; exact notTable_of_pageRefs hfresh.refs) hsp
  rwa [take_then_drop] at hacc

end

/-- The state in which `pgdir_walk` with `create` has found or made the table `q`. -/
structure Walked (sp : Spaces) (e d q : Nat) (vm vm' : Vm) : Prop where
  npages : vm'.npages = vm.npages
  kernPgdir : vm'.kernPgdir = vm.kernPgdir
  kernUses : ∀ p, KernUses vm' p ↔ KernUses vm p
  pde : slotRef vm' sp (.pde e d) = some q
  words : ∀ k ∈ slots, k ≠ .pde e d → slotWord vm' sp k = slotWord vm sp k
  data : ∀ p, NotTable vm' sp p → vm'.mem p = vm.mem p
  old : slotRef vm sp (.pde e d) = some q ∧ vm' = vm ∨
    slotRef vm sp (.pde e d) = none ∧ pageRefs vm sp q = 0
  refs : ∀ p, pageRefs vm' sp p = pageRefs vm sp p + if slotRef vm sp (.pde e d) = none ∧ p = q then 1 else 0
  made : slotRef vm sp (.pde e d) = none → slotWord vm' sp (.pde e d) = entry q (pteP ||| (pteW ||| pteU))

section
variable (h : Accounted vm sp held l) (hs : sp e = some pd) (hva : va < utop)
include h hs hva

lemma pde_mem : Slot.pde e (pdx va) ∈ slots :=
  pde_mem_slots.mpr ⟨h.space_lt e pd hs, pdx_lt_npdeUser hva⟩

lemma pte_mem : Slot.pte e (pdx va) (ptx va) ∈ slots :=
  pte_mem_slots.mpr ⟨h.space_lt e pd hs, pdx_lt_npdeUser hva, ptx_lt va⟩

lemma pgdirWalk_present (hq : slotRef vm sp (.pde e (pdx va)) = some q) (create : Bool) :
    pgdirWalk pd va create vm = some (some (q, ptx va), vm) := by
  have hlt := (h.mapped _ (h.pde_mem hs hva) q hq).1
  rw [slotRef_pde hs, target_eq_some] at hq
  simp [pgdirWalk, hq.1, hq.2, hlt]

omit h hva in
lemma pgdirWalk_absent (hq : slotRef vm sp (.pde e (pdx va)) = none) :
    pgdirWalk pd va false vm = some (none, vm) := by
  rw [slotRef_pde hs, target_eq_none] at hq
  simp [pgdirWalk, hq]

lemma pgdirWalk_create :
    (slotRef vm sp (.pde e (pdx va)) = none ∧ l = [] ∧ pgdirWalk pd va true vm = some (none, vm)) ∨
    ∃ q vm' l', pgdirWalk pd va true vm = some (some (q, ptx va), vm') ∧ Accounted vm' sp held l' ∧
      Walked sp e (pdx va) q vm vm' ∧ (∀ p ∈ l', p ∈ l) ∧
      (slotRef vm sp (.pde e (pdx va)) = none → q ∈ l ∧ q ∉ l') ∧ l.length ≤ l'.length + 1 := by
  cases hq : slotRef vm sp (.pde e (pdx va)) with
  | some q =>
    refine Or.inr ⟨q, vm, l, h.pgdirWalk_present hs hva hq true, h, ?_, fun _ hp => hp, by simp, Nat.le_succ _⟩
    exact ⟨rfl, rfl, fun _ => Iff.rfl, hq, fun _ _ _ => rfl, fun _ _ => rfl, Or.inl ⟨hq, rfl⟩,
      by simp [hq], fun hn => nomatch hq.symm.trans hn⟩
  | none =>
    have habs := hq
    rw [slotRef_pde hs, target_eq_none] at habs
    cases l with
    | nil =>
      refine Or.inl ⟨rfl, rfl, ?_⟩
      simp [pgdirWalk, habs, h.pageAlloc_nil]
    | cons q l =>
      obtain ⟨vm₁, halloc, htaken, h1, hfresh, hw⟩ := h.pageAlloc_cons true
      have hqk : q ≠ vm.kernPgdir := fun he => (h.free_page q List.mem_cons_self).2.1 (Or.inl he)
      have hpdk : pd ≠ vm₁.kernPgdir := by
        rw [htaken.kernPgdir]
        exact h.ne_kernPgdir (pgdir_mem_slots.mpr (h.space_lt e pd hs)) (slotRef_pgdir hs)
      have hqpd : q ≠ pd := by
        rintro rfl
        exact notTable_of_pageRefs hfresh.refs _ (pgdir_mem_slots.mpr (h.space_lt e q hs)) trivial
          (slotRef_pgdir hs)
      have hnone : slotRef vm₁ sp (.pde e (pdx va)) = none := by
        rw [slotRef_congr hw _ (h.pde_mem hs hva), hq]
      have hv : target (entry q (pteP ||| (pteW ||| pteU))) = some q := target_entry (by decide) q
      have hword := slotWord_install h1.tables (h.space_lt e pd hs) hs hqpd hnone (by simp [htaken.page]) hv
      have hb := sameBooks_setWord (pdx va) (entry q (pteP ||| (pteW ||| pteU))) hpdk
      have hacc := h1.install hfresh (h.pde_mem hs hva) hnone hb (by rw [← hv]; exact slotRef_update hword)
        h.space_lt
      have hpde : slotRef (vm₁.setWord pd (pdx va) (entry q (pteP ||| (pteW ||| pteU)))) sp
          (.pde e (pdx va)) = some q := by
        rw [slotRef_update hword _ (h.pde_mem hs hva), update_self, hv]
      refine Or.inr ⟨q, (vm₁.setWord pd (pdx va) (entry q (pteP ||| (pteW ||| pteU)))).incref q, l,
        by simp [pgdirWalk, habs, halloc], hacc, ?_,
        fun p hp => List.mem_cons_of_mem q hp, fun _ => ⟨List.mem_cons_self, hfresh.notMem⟩, le_rfl⟩
      refine ⟨htaken.npages, htaken.kernPgdir, fun p => (hb.kernUses p).trans (htaken.kernUses hqk p), hpde,
        ?_, ?_, Or.inr ⟨hq, ?_⟩, ?_, fun _ => (hword _ (h.pde_mem hs hva)).trans (update_self ..)⟩
      · intro k hk hkne
        exact (hword k hk).trans ((update_of_ne hkne _ _).trans (hw k hk))
      · intro p hp
        have hpd : p ≠ pd := by
          rintro rfl
          exact hp _ (pgdir_mem_slots.mpr (h.space_lt e p hs)) trivial (slotRef_pgdir hs)
        have hpq : p ≠ q := by
          rintro rfl
          exact hp _ (h.pde_mem hs hva) trivial hpde
        rw [← htaken.mem p hpq]
        funext i
        simp [Vm.incref, hpd]
      · have := (h.free_page q List.mem_cons_self).2.2
        omega
      · intro p
        have hup := pageRefs_update (h.pde_mem hs hva) hword p
        have hsame : pageRefs vm₁ sp p = pageRefs vm sp p := refs_congr (slotRef_congr hw) p
        rw [hnone, hv] at hup
        rw [pageRefs_incref, ← hsame]
        simp only [Option.some.injEq, reduceCtorEq, if_false] at hup
        simp only [hq, true_and, eq_comm (a := p)]
        omega

end

end Accounted

lemma pageDecref_setWord (p q i v : Nat) (vm : Vm) :
    pageDecref p (vm.setWord q i v) = (pageDecref p vm).map fun vm => vm.setWord q i v := by
  by_cases hr : (vm.ppRef p + 65535) % 65536 = 0
  · by_cases hl : vm.ppLink p = none <;> simp [pageDecref, pageFree, hr, hl]
  · simp [pageDecref, hr]

lemma pageRemove_of_lookup {j : Nat} (h : pageLookup pgdir va vm = some (some (p, (q, j)))) :
    pageRemove pgdir va vm = (pageDecref p vm).map fun vm => vm.setWord q j 0 := by
  rw [pageRemove, h]

structure SlotWrite (sp : Spaces) (k0 : Slot) (v : Nat) (vm vm' : Vm) : Prop where
  npages : vm'.npages = vm.npages
  kernPgdir : vm'.kernPgdir = vm.kernPgdir
  kernUses : ∀ p, KernUses vm' p ↔ KernUses vm p
  words : ∀ k ∈ slots, slotWord vm' sp k = update (slotWord vm sp) k0 v k
  data : ∀ p, NotTable vm sp p → vm'.mem p = vm.mem p

structure Shrunk (sp : Spaces) (vm : Vm) (sp' : Spaces) (vm' : Vm) : Prop where
  npages : vm'.npages = vm.npages
  kernPgdir : vm'.kernPgdir = vm.kernPgdir
  kernUses : ∀ p, KernUses vm' p ↔ KernUses vm p
  words : ∀ k ∈ slots, slotWord vm' sp' k = slotWord vm sp k ∨ slotWord vm' sp' k = 0
  refs : ∀ p, pageRefs vm' sp' p ≤ pageRefs vm sp p
  data : ∀ p, NotTable vm sp p → vm'.mem p = vm.mem p

namespace Shrunk
variable {sp sp1 sp2 : Spaces} {vm vm₁ vm₂ : Vm}

lemma refl (sp : Spaces) (vm : Vm) : Shrunk sp vm sp vm :=
  ⟨rfl, rfl, fun _ => Iff.rfl, fun _ _ => Or.inl rfl, fun _ => le_rfl, fun _ _ => rfl⟩

section
variable (h : Shrunk sp vm sp1 vm₁)
include h

lemma ref (hk : k ∈ slots) (hp : slotRef vm₁ sp1 k = some p) : slotRef vm sp k = some p := by
  rcases h.words k hk with hw | hn
  · rwa [slotRef, hw] at hp
  · simp [slotRef, hn] at hp

lemma ref_none (hk : k ∈ slots) (hn : slotRef vm sp k = none) :
    slotRef vm₁ sp1 k = none := by
  cases hp : slotRef vm₁ sp1 k with
  | none => rfl
  | some p => exact absurd ((h.ref hk hp).symm.trans hn) (by simp)

lemma trans (h' : Shrunk sp1 vm₁ sp2 vm₂) : Shrunk sp vm sp2 vm₂ where
  npages := h'.npages.trans h.npages
  kernPgdir := h'.kernPgdir.trans h.kernPgdir
  kernUses p := (h'.kernUses p).trans (h.kernUses p)
  words k hk := by
    rcases h'.words k hk with hw' | hn
    · rcases h.words k hk with hw | hn
      · exact Or.inl (hw'.trans hw)
      · exact Or.inr (hw'.trans hn)
    · exact Or.inr hn
  refs p := (h'.refs p).trans (h.refs p)
  data p hp := by
    have hp1 : NotTable vm₁ sp1 p := fun k hk hkt hkp => hp k hk hkt (h.ref hk hkp)
    exact (h'.data p hp1).trans (h.data p hp)

lemma tidy (ht : Tidy vm sp) : Tidy vm₁ sp1 :=
  ht.of_words fun k hk _ => (h.words k hk).imp_right Or.inl

end

lemma of_slotWrite {k0 : Slot} (hk0 : k0 ∈ slots) (h : SlotWrite sp k0 0 vm vm₁) : Shrunk sp vm sp vm₁ where
  npages := h.npages
  kernPgdir := h.kernPgdir
  kernUses := h.kernUses
  words k hk := by
    rw [h.words k hk]
    by_cases hkk : k = k0
    · subst k
      exact Or.inr (update_self ..)
    · exact Or.inl (update_of_ne hkk _ _)
  refs p := by
    have hup := pageRefs_update hk0 h.words p
    simp only [target_zero, reduceCtorEq, if_false] at hup
    omega
  data := h.data

end Shrunk

namespace Accounted
variable {vm : Vm} {sp : Spaces} {held : Nat → Nat} {l : List Nat} {p e pd va perm q : Nat}

section
variable (h : Accounted vm sp held l) (hs : sp e = some pd) (hva : va < utop)
include h hs hva

omit h hs hva in
lemma pde_of_pte {d t : Nat} (hp : slotRef vm sp (.pte e d t) = some p) : ∃ q, slotRef vm sp (.pde e d) = some q := by
  cases hq : slotRef vm sp (.pde e d) with
  | some q => exact ⟨q, rfl⟩
  | none =>
    rw [slotRef, slotWord_pte_absent hq] at hp
    simp at hp

lemma slotWrite_pte (hq : slotRef vm sp (.pde e (pdx va)) = some q) (v : Nat) :
    SlotWrite sp (.pte e (pdx va) (ptx va)) v vm (vm.setWord q (ptx va) v) ∧
      SameBooks vm (vm.setWord q (ptx va) v) := by
  have hb := sameBooks_setWord (ptx va) v (h.ne_kernPgdir (h.pde_mem hs hva) hq)
  refine ⟨⟨rfl, rfl, hb.kernUses, ?_, ?_⟩, hb⟩
  · exact slotWord_setWord_pte h.tables (h.space_lt e pd hs) (pdx_lt_npdeUser hva) hq v
  · intro p hp
    have hpq : p ≠ q := by
      rintro rfl
      exact hp _ (h.pde_mem hs hva) trivial hq
    funext i
    simp [hpq]

lemma pageLookup_present (hp : slotRef vm sp (.pte e (pdx va) (ptx va)) = some p)
    (hq : slotRef vm sp (.pde e (pdx va)) = some q) : pageLookup pd va vm = some (some (p, (q, ptx va))) := by
  have hlt := (h.mapped _ (h.pte_mem hs hva) p hp).1
  rw [slotRef, slotWord_pte hq, target_eq_some] at hp
  simp [pageLookup, h.pgdirWalk_present hs hva hq false, hp.2, hlt]

lemma pageRemove_present (hp : slotRef vm sp (.pte e (pdx va) (ptx va)) = some p)
    (hbound : pageRefs vm sp p + held p ≤ 65536) :
    ∃ vm' l', pageRemove pd va vm = some vm' ∧ Accounted vm' sp held l' ∧
      SlotWrite sp (.pte e (pdx va) (ptx va)) 0 vm vm' ∧
      (∀ q, q ∈ l' → q ∈ l ∨ q = p ∧ pageRefs vm sp p + held p = 1) ∧ l.length ≤ l'.length ∧
      Returned (fun q => pageRefs vm sp q + held q) (fun q => pageRefs vm' sp q + held q) vm l vm' l' := by
  obtain ⟨q, hq⟩ := pde_of_pte hp
  obtain ⟨hw, hb⟩ := h.slotWrite_pte hs hva hq 0
  obtain ⟨vm₂, l', hdec, h2, hmem, hnp, hkp, hku, hl', hlen, hret⟩ :=
    h.drop_slot hb (h.pte_mem hs hva) hp (slotRef_update hw.words) h.space_lt hbound
  rw [pageDecref_setWord] at hdec
  refine ⟨vm₂, l', ?_, h2, ⟨hnp, hkp, hku, ?_, ?_⟩, hl', hlen, hret⟩
  · rw [pageRemove_of_lookup (h.pageLookup_present hs hva hp hq), hdec]
  · intro k hk
    rw [← hw.words k hk, slotWord_of_mem sp hmem]
  · intro x hx
    rw [hmem]
    exact hw.data x hx

lemma bootMapRegion_page (hq : slotRef vm sp (.pde e (pdx va)) = some q) (hp : p < vm.npages) :
    bootMapRegion pd va pgsize (p * 4096) perm vm =
      some (vm.setWord q (ptx va) (entry p (pteP ||| perm))) := by
  have hsize := h.size
  have hva' : (va + 0) % 2 ^ 32 = va := by
    unfold utop at hva
    omega
  have hpa : (p * 4096 + 0) % 2 ^ 32 = p * 4096 := by omega
  simp only [bootMapRegion, show (pgsize + 4095) / 4096 = 1 by decide, bootMapLoop, hva', hpa,
    h.pgdirWalk_present hs hva hq true, entry]
  rfl

lemma clear_slot (hq : slotRef vm sp (.pde e (pdx va)) = some q)
    (hbound : ∀ p, slotRef vm sp (.pte e (pdx va) (ptx va)) = some p → pageRefs vm sp p + held p ≤ 65536) :
    ∃ vm' l', (if present (vm.mem q (ptx va)) then pageRemove pd va vm else some vm) = some vm' ∧
      Accounted vm' sp held l' ∧ Shrunk sp vm sp vm' ∧ slotRef vm' sp (.pte e (pdx va) (ptx va)) = none ∧
      (∀ k ∈ slots, k ≠ .pte e (pdx va) (ptx va) → slotWord vm' sp k = slotWord vm sp k) ∧
      (∀ p, pageRefs vm' sp p + (if slotRef vm sp (.pte e (pdx va) (ptx va)) = some p then 1 else 0) =
        pageRefs vm sp p) ∧
      (∀ p ∈ l', p ∈ l ∨ slotRef vm sp (.pte e (pdx va) (ptx va)) = some p) ∧ l.length ≤ l'.length ∧
      Returned (fun p => pageRefs vm sp p + held p) (fun p => pageRefs vm' sp p + held p) vm l vm' l' := by
  have hword := slotWord_pte (t := ptx va) hq
  cases hp : slotRef vm sp (.pte e (pdx va) (ptx va)) with
  | none =>
    have hpres : present (vm.mem q (ptx va)) = false := by
      rwa [slotRef, hword, target_eq_none] at hp
    exact ⟨vm, l, by simp [hpres], h, Shrunk.refl sp vm, hp, fun _ _ _ => rfl, by simp, fun p hp => Or.inl hp,
      le_rfl, .refl _ vm l⟩
  | some p =>
    have hpres : present (vm.mem q (ptx va)) := by
      rw [slotRef, hword, target_eq_some] at hp
      exact hp.1
    obtain ⟨vm', l', hrem, h', hw, hl', hlen, hret⟩ := h.pageRemove_present hs hva hp (hbound p hp)
    refine ⟨vm', l', by simp [hpres, hrem], h', Shrunk.of_slotWrite (h.pte_mem hs hva) hw, ?_, ?_, ?_, ?_, hlen, hret⟩
    · rw [slotRef, hw.words _ (h.pte_mem hs hva), update_self, target_zero]
    · intro k hk hkne
      rw [hw.words k hk, update_of_ne hkne]
    · intro x
      have hup := pageRefs_update (h.pte_mem hs hva) hw.words x
      simpa [hp] using hup
    · intro x hx
      rcases hl' x hx with hx | ⟨rfl, -⟩
      · exact Or.inl hx
      · exact Or.inr rfl

end

end Accounted

/-- The page `pp` has been mapped at `(e, d, t)`, with a page table made for it if
there was none. -/
structure Inserted (sp : Spaces) (e d t pp perm : Nat) (vm vm' : Vm) : Prop where
  npages : vm'.npages = vm.npages
  kernPgdir : vm'.kernPgdir = vm.kernPgdir
  kernUses : ∀ p, KernUses vm' p ↔ KernUses vm p
  pte : slotWord vm' sp (.pte e d t) = entry pp (pteP ||| perm)
  pde : ∃ q, slotRef vm' sp (.pde e d) = some q ∧
    (slotRef vm sp (.pde e d) = some q ∧ slotWord vm' sp (.pde e d) = slotWord vm sp (.pde e d) ∨
      slotRef vm sp (.pde e d) = none ∧ pageRefs vm sp q = 0)
  words : ∀ k ∈ slots, k ≠ .pde e d → k ≠ .pte e d t → slotWord vm' sp k = slotWord vm sp k
  data : ∀ p, NotTable vm' sp p → vm'.mem p = vm.mem p
  refs : ∀ p, pageRefs vm' sp p ≤ max 1
    (pageRefs vm sp p + if p = pp ∧ slotRef vm sp (.pte e d t) ≠ some pp then 1 else 0)
  made : slotRef vm sp (.pde e d) = none → writable (slotWord vm' sp (.pde e d)) = true

lemma Inserted.tidy {d t : Nat} (h : Inserted sp e d t pp perm vm vm')
    (hperm : perm < 4096) (ht : Tidy vm sp) : Tidy vm' sp := by
  refine ht.of_words fun k hk hkt => ?_
  by_cases hke : k = .pte e d t
  · subst k
    exact Or.inr (Or.inr (by rw [slotRef, h.pte, target_entry hperm]; simp))
  · exact Or.inl (h.words k hk (by rintro rfl; exact hkt trivial) hke)

lemma Accounted.Walked.mappable {d : Nat} {l' : List Nat}
    (h : Accounted.Walked sp e d q vm vm') (hk : Slot.pde e d ∈ slots) (hp : Mappable vm sp l p)
    (hl : ∀ x ∈ l', x ∈ l) (hq : slotRef vm sp (.pde e d) = none → q ∈ l) : Mappable vm' sp l' p := by
  refine ⟨h.npages ▸ hp.lt, fun hkern => hp.kern ((h.kernUses p).mp hkern), ?_, fun hm => hp.notMem (hl p hm)⟩
  intro k hkm hkt hkp
  by_cases hkd : k = .pde e d
  · subst k
    cases Option.some.inj (h.pde.symm.trans hkp)
    rcases h.old with ⟨hold, -⟩ | ⟨hnone, -⟩
    · exact hp.data _ hk trivial hold
    · exact hp.notMem (hq hnone)
  · rw [slotRef, h.words k hkm hkd] at hkp
    exact hp.data k hkm hkt hkp

lemma pageInsert_of_walk {j : Nat} (h : pgdirWalk pgdir va true vm = some (some (q, j), vm')) :
    pageInsert pgdir pp va perm vm =
      (if present ((vm'.incref pp).mem q j) then pageRemove pgdir va (vm'.incref pp)
        else some (vm'.incref pp)).bind
        fun vm => (bootMapRegion pgdir va pgsize (pp * 4096) perm vm).map fun vm => (0, vm) := by
  rw [pageInsert, h]

lemma Accounted.pageInsert_spec {pd : Nat} (h : Accounted vm sp held l) (hs : sp e = some pd) (hva : va < utop)
    (hpp : Mappable vm sp l pp) (hperm : perm < 4096) (hbound : ∀ p, pageRefs vm sp p + held p ≤ 65535)
    (hheld : held pp = 0) : (slotRef vm sp (.pde e (pdx va)) = none ∧ l = [] ∧
      pageInsert pd pp va perm vm = some (-eNoMem, vm)) ∨
    ∃ vm' l', pageInsert pd pp va perm vm = some (0, vm') ∧ Accounted vm' sp held l' ∧
      Inserted sp e (pdx va) (ptx va) pp perm vm vm' ∧
      (∀ p ∈ l', p ∈ l ∨ slotRef vm sp (.pte e (pdx va) (ptx va)) = some p) ∧ l.length ≤ l'.length + 1 := by
  rcases h.pgdirWalk_create hs hva with ⟨hnone, hnil, hwalk⟩ | ⟨q, vm₁, l1, hwalk, h1, hw1, hl1, hq1, hlen1⟩
  · exact Or.inl ⟨hnone, hnil, by rw [pageInsert, hwalk]⟩
  right
  have hpdemem := h.pde_mem hs hva
  have hptemem := h.pte_mem hs hva
  have hpp1 := hw1.mappable hpdemem hpp hl1 fun hn => (hq1 hn).1
  have hpte1 : slotRef vm₁ sp (.pte e (pdx va) (ptx va)) = slotRef vm sp (.pte e (pdx va) (ptx va)) := by
    rw [slotRef, hw1.words _ hptemem (by simp), slotRef]
  have h2 := h1.incref hpp1.notMem
  have hbound2 : ∀ p, slotRef (vm₁.incref pp) sp (.pte e (pdx va) (ptx va)) = some p →
      pageRefs (vm₁.incref pp) sp p + update held pp (held pp + 1) p ≤ 65536 := by
    intro p _
    have hb := hbound p
    rw [pageRefs_incref, hw1.refs]
    by_cases hpeq : p = pp
    · subst p
      have hnew : ¬ (slotRef vm sp (.pde e (pdx va)) = none ∧ pp = q) := by
        rintro ⟨hn, rfl⟩
        exact hpp.notMem (hq1 hn).1
      rw [if_neg hnew, update_self]
      omega
    · rw [update_of_ne hpeq]
      split <;> omega
  obtain ⟨vm3, l3, hclear, h3, hshrunk, hnone3, hw3, hr3, hl3, hlen3, -⟩ :=
    h2.clear_slot hs hva (by rw [slotRef_incref]; exact hw1.pde) hbound2
  have hsame : ∀ k ∈ slots, k ≠ .pte e (pdx va) (ptx va) → slotRef vm3 sp k = slotRef vm₁ sp k := by
    intro k hk hkne
    rw [slotRef, hw3 k hk hkne, ← slotRef_incref vm₁ sp pp, slotRef]
  have hpde3 : slotRef vm3 sp (.pde e (pdx va)) = some q := by
    rw [hsame _ hpdemem (by simp), hw1.pde]
  have hnt3 : NotTable vm3 sp pp := by
    intro k hk hkt hkp
    refine hpp1.data k hk hkt ?_
    rwa [← hsame k hk (by rintro rfl; exact hkt)]
  have hlt3 : pp < vm3.npages := hshrunk.npages ▸ hpp1.lt
  have hk3' : ∀ p, KernUses vm3 p ↔ KernUses vm p := fun p => (hshrunk.kernUses p).trans (hw1.kernUses p)
  obtain ⟨hw4, hb4⟩ := h3.slotWrite_pte hs hva hpde3 (entry pp (pteP ||| perm))
  have h4 := h3.attach (p := pp) hb4 hptemem hnone3
    (by rw [← target_entry hperm pp]; exact slotRef_update hw4.words) (by simp) hlt3
    (fun hk => hpp.kern ((hk3' pp).mp hk)) (fun hf => hf.elim) hnt3 h.space_lt
  rw [take_then_drop] at h4
  set vm4 := vm3.setWord q (ptx va) (entry pp (pteP ||| perm))
  have hpdeword : slotWord vm4 sp (.pde e (pdx va)) = slotWord vm₁ sp (.pde e (pdx va)) := by
    rw [hw4.words _ hpdemem, update_of_ne (by simp), hw3 _ hpdemem (by simp)]
    rfl
  refine ⟨vm4, l3, ?_, h4, ⟨hshrunk.npages.trans hw1.npages, hshrunk.kernPgdir.trans hw1.kernPgdir, ?_, ?_, ?_, ?_, ?_, ?_,
    fun hn => ?_⟩, ?_, le_trans hlen1 (Nat.succ_le_succ hlen3)⟩
  · rw [pageInsert_of_walk hwalk, hclear, Option.bind_some, h3.bootMapRegion_page hs hva hpde3 hlt3]
    rfl
  · intro p
    rw [hw4.kernUses, hk3']
  · rw [hw4.words _ hptemem, update_self]
  · refine ⟨q, by rw [slotRef, hpdeword]; exact hw1.pde, ?_⟩
    rcases hw1.old with ⟨hold, rfl⟩ | hnew
    · exact Or.inl ⟨hold, hpdeword⟩
    · exact Or.inr hnew
  · intro k hk hkd hkt
    rw [hw4.words k hk, update_of_ne hkt, hw3 k hk hkt]
    exact hw1.words k hk hkd
  · intro p hp
    have hp3 : NotTable vm3 sp p := by
      intro k hk hkt hkp
      refine hp k hk hkt ?_
      rw [slotRef, hw4.words k hk, update_of_ne (by rintro rfl; exact hkt)]
      exact hkp
    have hp1 : NotTable vm₁ sp p := by
      intro k hk hkt hkp
      refine hp3 k hk hkt ?_
      rw [hsame k hk (by rintro rfl; exact hkt), hkp]
    rw [hw4.data p hp3, hshrunk.data p (by rw [notTable_incref]; exact hp1)]
    exact hw1.data p hp1
  · intro p
    have hup := pageRefs_update hptemem hw4.words p
    have hup3 := hr3 p
    rw [hnone3, target_entry hperm, if_neg (by simp), add_zero] at hup
    rw [pageRefs_incref, slotRef_incref, hpte1, hw1.refs] at hup3
    rw [hup]
    by_cases hpeq : p = pp
    · subst p
      have hnew : ¬ (slotRef vm sp (.pde e (pdx va)) = none ∧ pp = q) := by
        rintro ⟨hn, rfl⟩
        exact hpp.notMem (hq1 hn).1
      rw [if_neg hnew] at hup3
      by_cases hold : slotRef vm sp (.pte e (pdx va) (ptx va)) = some pp
      · simp only [hold, if_true] at hup3
        simp [hold]
        omega
      · simp only [hold, if_false] at hup3
        simp [hold]
        omega
    · simp only [hpeq, false_and, if_false, Option.some.injEq, Ne.symm hpeq]
      by_cases hn : slotRef vm sp (.pde e (pdx va)) = none ∧ p = q
      · obtain ⟨hn, rfl⟩ := hn
        have hz : pageRefs vm sp p = 0 := by
          rcases hw1.old with ⟨hold, -⟩ | ⟨-, hz⟩
          · rw [hn] at hold
            simp at hold
          · exact hz
        simp only [hn, true_and, if_true] at hup3
        omega
      · rw [if_neg hn] at hup3
        omega
  · rw [hpdeword, hw1.made hn, writable_entry]
    decide
  · intro p hp
    rcases hl3 p hp with hp | hp
    · exact Or.inl (hl1 p hp)
    · rw [slotRef_incref, hpte1] at hp
      exact Or.inr hp

lemma pageLookup_congr (hmem : vm'.mem = vm.mem) (hnp : vm'.npages = vm.npages) :
    pageLookup pgdir va vm' = pageLookup pgdir va vm := by
  by_cases hp : present (vm.mem pgdir (pdx va))
  · by_cases hlt : ppn (vm.mem pgdir (pdx va)) < vm.npages <;> simp [pageLookup, pgdirWalk, hmem, hnp, hp, hlt]
  · simp [pageLookup, pgdirWalk, hmem, hp]

lemma Accounted.pageInsert_returns {pd : Nat} (h : Accounted vm sp held l) (hs : sp e = some pd) (hva : va < utop)
    (hroom : slotRef vm sp (.pde e (pdx va)) ≠ none ∨ l ≠ []) :
    ∃ vm', pageInsert pd pp va perm vm = some (0, vm') := by
  rcases h.pgdirWalk_create hs hva with ⟨hnone, hnil, -⟩ | ⟨q, vm₁, l1, hwalk, h1, hw1, -⟩
  · rcases hroom with hr | hr
    · exact absurd hnone hr
    · exact absurd hnil hr
  have hpdq : pd ≠ q := by
    rintro rfl
    have := h1.tables _ (h.pde_mem hs hva) trivial pd hw1.pde _ (pgdir_mem_slots.mpr (h.space_lt e pd hs))
      (slotRef_pgdir hs)
    cases this
  have hclear : ∃ vm3, (if present ((vm₁.incref pp).mem q (ptx va)) then pageRemove pd va (vm₁.incref pp)
      else some (vm₁.incref pp)) = some vm3 ∧ vm3.mem pd = vm₁.mem pd ∧ vm3.npages = vm₁.npages := by
    split
    · rename_i hpres
      have hpte : slotRef vm₁ sp (.pte e (pdx va) (ptx va)) = some (ppn (vm₁.mem q (ptx va))) := by
        rw [slotRef, slotWord_pte hw1.pde]
        exact target_eq_some.mpr ⟨hpres, rfl⟩
      obtain ⟨hlt, -⟩ := h1.mapped _ (h.pte_mem hs hva) _ hpte
      have hnl := h1.notMem_of_pos (Nat.add_pos_left (refs_pos (h.pte_mem hs hva) hpte) _)
      have hlook : pageLookup pd va (vm₁.incref pp) = some (some (ppn (vm₁.mem q (ptx va)), (q, ptx va))) := by
        rw [← h1.pageLookup_present hs hva hpte hw1.pde]
        exact pageLookup_congr rfl rfl
      have hchain : Chain (vm₁.incref pp).ppLink (vm₁.incref pp).pageFreeList l1 := h1.chain
      obtain ⟨link, head, -, hdec, -⟩ := pageDecref_unlinked hchain hnl (h1.unlinked _ hlt hnl)
      rw [pageRemove_of_lookup hlook, hdec]
      refine ⟨_, rfl, ?_, rfl⟩
      funext i
      simp [hpdq, Vm.incref]
    · exact ⟨_, rfl, rfl, rfl⟩
  obtain ⟨vm3, hclear, hmem3, hnp3⟩ := hclear
  have hq := hw1.pde
  have hqlt := (h1.mapped _ (h.pde_mem hs hva) q hq).1
  rw [slotRef_pde hs, target_eq_some] at hq
  have hwalk3 : pgdirWalk pd va true vm3 = some (some (q, ptx va), vm3) := by
    simp [pgdirWalk, hmem3, hq.1, hq.2, hnp3, hqlt]
  have hva' : (va + 0) % 2 ^ 32 = va := by
    unfold utop at hva
    omega
  refine ⟨vm3.setWord q (ptx va) ((pp * 4096 + 0) % 2 ^ 32 ||| (pteP ||| perm)), ?_⟩
  rw [pageInsert_of_walk hwalk, hclear, Option.bind_some, bootMapRegion,
    show (pgsize + 4095) / 4096 = 1 by decide]
  simp only [bootMapLoop, hva', hwalk3]
  rfl

end Jos
