import Jos.Kern.Boot
import Jos.Kern.SyscallSpec

/-!
# Page accounting over whole runs

Runs of system calls from the state after boot. A call is issued by an environment
that may run, enters the kernel through `trap` and ends when the CPU leaves it.
-/

namespace Jos
open LinkedList RefCount Relation

variable {fl l : List Nat} {k k' : Kernel}

/-- The environment `e` is on the CPU `cpu` and running, as `env_run` leaves it. -/
def issue (cpu e : Nat) (k : Kernel) : Kernel := (k.setCurenv cpu (some e)).setStatus e .running

/-- The state in which `trap_dispatch` finds the call of `e` with trapframe `tf`. -/
def dispatchState (cpu e : Nat) (tf : Trapframe) (k : Kernel) : Kernel :=
  ((issue cpu e k).setCpuStatus cpu .started).setTf e tf

/-- Any system call, by an environment that may run and whose call meets `P`. -/
inductive CallStep (P : Nat → PushRegs → Kernel → Prop) : Kernel → Kernel → Prop where
  | call {k k' : Kernel} (cpu e : Nat) (tf : Trapframe) (ch : Nat) (he : e < nenv)
      (hrun : (k.envs e).envStatus = .runnable ∨ (k.envs e).envStatus = .running)
      (huser : tf.tfCs &&& 3 = 3) (htrap : tf.tfTrapno.toNat = tSyscall)
      (hP : P e tf.tfRegs (dispatchState cpu e tf k)) (hexit : (trap cpu tf 0 ch (issue cpu e k)).To k') :
      CallStep P k k'

/-- What keeps the counters right: a page is mapped or unmapped where one is mapped,
no counter wraps, `sys_page_alloc` does not run out of memory half way, and the frame of
`sys_env_set_trapframe` is below `UTOP`. -/
def CallOk (e : Nat) (r : PushRegs) (k : Kernel) : Prop :=
  match Sysno.decode r.regEax.toNat with
  | some .pageAlloc => ∀ dst, envid2env e r.regEdx.toNat true k = some dst →
      badPerm r.regEbx.toNat = false → badVa r.regEcx.toNat = false → AllocOk k dst r.regEcx.toNat
  | some .pageMap => ∀ src dst, envid2env e r.regEdx.toNat true k = some src →
      envid2env e r.regEbx.toNat true k = some dst → badPerm r.regEsi.toNat = false →
      badVa r.regEcx.toNat = false → badVa r.regEdi.toNat = false →
      MapOk k src r.regEcx.toNat dst r.regEdi.toNat
  | some .pageUnmap => ∀ dst, envid2env e r.regEdx.toNat true k = some dst →
      badVa r.regEcx.toNat = false → LookupOk k dst r.regEcx.toNat
  | some .ipcTrySend => ∀ dst, envid2env e r.regEdx.toNat false k = some dst →
      (k.envs dst).envIpcRecving = true → r.regEbx.toNat < utop → badPerm r.regEdi.toNat = false →
      (k.envs dst).envIpcDstva < utop →
      (Bits.flag r.regEdi.toNat pteW = true → Bits.flag (k.pte e r.regEbx.toNat) pteW = true) →
      MapOk k e r.regEbx.toNat dst (k.envs dst).envIpcDstva
  | some .envSetTrapframe => r.regEcx.toNat + 68 ≤ utop
  | _ => True

def callGrant (e : Nat) (r : PushRegs) (k : Kernel) : Nat → Nat → Prop :=
  match Sysno.decode r.regEax.toNat with
  | some .pageMap => fun p perm => ∃ src, envid2env e r.regEdx.toNat true k = some src ∧
      grantOf k src r.regEcx.toNat r.regEsi.toNat p perm
  | some .ipcTrySend => sendGrant k e r.regEbx.toNat r.regEdi.toNat
  | _ => noGrant

section
variable {cpu e : Nat} {l fl : List Nat} {k : Kernel}

lemma issue_same (he : Live k e) (cpu : Nat) : SameKernel k (issue cpu e k) :=
  (SameKernel.setCurenv k cpu (some e)).trans (SameKernel.setStatus _ he.2 (by simp))

lemma dispatchState_same (he : Live k e) (cpu : Nat) (tf : Trapframe) : SameKernel k (dispatchState cpu e tf k) :=
  ((issue_same he cpu).trans (SameKernel.setCpuStatus _ cpu .started)).trans (SameKernel.setTf _ e tf)

lemma dispatchState_curenv (cpu e : Nat) (tf : Trapframe) (k : Kernel) :
    (dispatchState cpu e tf k).curenv cpu = some e := by
  simp [dispatchState, issue, Kernel.curenv]

lemma dispatchState_tf (cpu e : Nat) (tf : Trapframe) (k : Kernel) :
    ((dispatchState cpu e tf k).envs e).envTf = tf := by
  simp [dispatchState]

lemma trap_syscall {tf : Trapframe} (ch : Nat) (k : Kernel) (huser : tf.tfCs &&& 3 = 3)
    (htrap : tf.tfTrapno.toNat = tSyscall) : trap cpu tf 0 ch (issue cpu e k) = afterDispatch cpu
      ((syscall cpu e ch tf.tfRegs.regEax.toNat tf.tfRegs.regEdx.toNat tf.tfRegs.regEcx.toNat
        tf.tfRegs.regEbx.toNat tf.tfRegs.regEdi.toNat tf.tfRegs.regEsi.toNat (dispatchState cpu e tf k)).bind
        fun r k => .ret () (setReturn k e r)) := by
  have hcur : ((issue cpu e k).setCpuStatus cpu .started).curenv cpu = some e := by
    simp [issue, Kernel.curenv]
  have hst : (((issue cpu e k).setCpuStatus cpu .started).envs e).envStatus ≠ .dying := by
    simp [issue]
  have htf := dispatchState_tf cpu e tf k
  simp only [trap, huser, if_true, hcur, hst, if_false, dispatchUser]
  rw [show ((issue cpu e k).setCpuStatus cpu .started).setTf e tf = dispatchState cpu e tf k from rfl, htf, htrap]
  rfl

lemma Kept.after {g : Nat → Nat → Prop} {o : Outcome Unit} (h : o.All (Kept cpu l k g)) :
    (afterDispatch cpu o).All (Kept cpu l k g) := by
  cases o with
  | exit x => exact h
  | ret _ k1 =>
    have hk : Kept cpu l k g k1 := h
    simp only [afterDispatch, trapReturn]
    split
    · exact hk.yields
    · rename_i c hc
      split
      · exact hk.runs (hk.cur c hc)
      · exact hk.yields

lemma Kept.returns {g : Nat → Nat → Prop} {k1 : Kernel} (h : Kept cpu l k g k1) (e : Nat) (r : Int) :
    Kept cpu l k g (setReturn k1 e r) := by
  have hs : SameKernel k1 (setReturn k1 e r) := SameKernel.setTf k1 e _
  exact h.same hs fun c hc => (hs.live c).mpr (h.cur c hc)

lemma syscall_kept {r : PushRegs} (h : Books k l fl) (hcur : k.curenv cpu = some e)
    (hlive : Live k e) (ch : Nat) (hok : CallOk e r k) :
    (syscall cpu e ch r.regEax.toNat r.regEdx.toNat r.regEcx.toNat r.regEbx.toNat r.regEdi.toNat
      r.regEsi.toNat k).All (Kept cpu l k (callGrant e r k)) := by
  have hrefl : ∀ {g}, Kept cpu l k g k := Kept.refl h (curenv_live hcur hlive)
  cases hno : Sysno.decode r.regEax.toNat with
  | none =>
    simp only [syscall, hno]
    exact hrefl
  | some no =>
  cases no
  all_goals simp only [CallOk, callGrant, hno] at hok ⊢; simp only [syscall, hno]
  case cputs => exact Outcome.All.bind (sysCputs_kept h hcur hlive _ _) (fun _ _ hk => hk) fun _ hk => hk
  case cgetc => exact hrefl
  case getenvid => exact hrefl
  case envSetStatus => exact sysEnvSetStatus_kept h hcur hlive _ _
  case envSetTrapframe =>
    exact Outcome.All.bind (sysEnvSetTrapframe_kept h hcur hlive hok) (fun _ _ hk => hk) fun _ hk => hk
  case envSetPgfaultUpcall => exact sysEnvSetPgfaultUpcall_kept h hcur hlive _ _
  case yield => exact hrefl.yields
  case envDestroy => exact sysEnvDestroy_kept h hcur hlive _
  case pageAlloc => exact sysPageAlloc_kept h hcur hlive r.regEbx.toNat_lt hok
  case pageMap => exact sysPageMap_kept h hcur hlive r.regEsi.toNat_lt hok
  case pageUnmap => exact sysPageUnmap_kept h hcur hlive hok
  case exofork => exact sysExofork_kept h hcur hlive
  case ipcTrySend => exact sysIpcTrySend_kept h hcur hlive r.regEdi.toNat_lt hok
  case ipcRecv => exact sysIpcRecv_kept h hcur hlive _

/-- What a careful call does: the books are kept, and a page in use gets no mapping
but the one the call grants. -/
theorem CallStep.kept {Q : Nat → PushRegs → Kernel → Prop} (h : Books k l fl)
    (hstep : CallStep (fun e r k => CallOk e r k ∧ Q e r k) k k') : (∃ l' fl', Books k' l' fl') ∧
    ∃ e r k1, SameKernel k k1 ∧ Live k1 e ∧ Q e r k1 ∧ Traced l k1 k' (callGrant e r k1) := by
  cases hstep with
  | call cpu e tf ch he hrun huser htrap hP hexit =>
    have hlive : Live k e := ⟨he, by rcases hrun with hr | hr <;> simp [hr]⟩
    have hs := dispatchState_same hlive cpu tf
    have hl := (hs.live e).mpr hlive
    rw [trap_syscall ch k huser htrap] at hexit
    have hcall := syscall_kept (hs.books h) (dispatchState_curenv cpu e tf k) hl ch hP.1
    have hret := Outcome.All.bind (f := fun r k => .ret () (setReturn k e r)) hcall
      (fun r k hk => hk.returns e r) fun _ hk => hk
    have hkept := (Kept.after hret).to hexit
    exact ⟨hkept.books, e, tf.tfRegs, dispatchState cpu e tf k, hs, hl, hP.2, hkept.traced⟩

end

noncomputable def pteCount (k : Kernel) (p : Nat) : Nat :=
  refs (slots.filter fun s => s.isPte = true) (slotRef k.vm k.spaces) p

/-- Present directory entries below `utop` of live environments that use `p` as a page table. -/
noncomputable def pdeCount (k : Kernel) (p : Nat) : Nat :=
  refs (slots.filter fun s => s.isPde = true) (slotRef k.vm k.spaces) p

open Classical in
noncomputable def pgdirCount (k : Kernel) (p : Nat) : Nat := if ∃ e, k.spaces e = some p then 1 else 0

structure PageRight (k : Kernel) (p : Nat) : Prop where
  count : k.vm.ppRef p = pteCount k p + pdeCount k p + pgdirCount k p
  free : ∃ l, Chain k.vm.ppLink k.vm.pageFreeList l ∧ l.count p ≤ 1 ∧
    (p ∈ l → pteCount k p + pdeCount k p + pgdirCount k p = 0)

lemma pgdirCount_eq (h : Books k l fl) (p : Nat) :
    refs ((slots.filter fun s => s.isPte = false).filter fun s => s.isPde = false) (slotRef k.vm k.spaces) p =
      pgdirCount k p := by
  unfold pgdirCount
  split
  · rename_i he
    obtain ⟨e, he⟩ := he
    have hmem : Slot.pgdir e ∈ slots := pgdir_mem_slots.mpr (h.vm.space_lt e p he)
    refine refs_eq_one (i := .pgdir e) (by simp only [Finset.mem_filter, hmem]; exact ⟨⟨trivial, rfl⟩, rfl⟩)
      (slotRef_pgdir he) ?_
    intro s hs hsp
    exact h.vm.tables _ hmem trivial p (slotRef_pgdir he) s
      (Finset.mem_filter.mp (Finset.mem_filter.mp hs).1).1 hsp
  · rename_i he
    refine refs_eq_zero_iff.mpr ?_
    intro s hs hsp
    cases s with
    | pgdir e =>
      cases hse : k.spaces e with
      | none => simp [slotRef_none (k := .pgdir e) hse] at hsp
      | some pd =>
        rw [slotRef_pgdir hse] at hsp
        exact he ⟨e, hse.trans hsp⟩
    | pde e d => exact absurd (Finset.mem_filter.mp hs).2 (by simp [Slot.isPde])
    | pte e d t =>
      exact absurd (Finset.mem_filter.mp (Finset.mem_filter.mp hs).1).2 (by simp [Slot.isPte])

lemma pageRefs_eq_counts (h : Books k l fl) (p : Nat) :
    pageRefs k.vm k.spaces p = pteCount k p + pdeCount k p + pgdirCount k p := by
  have hpde : refs ((slots.filter fun s => s.isPte = false).filter fun s => s.isPde)
      (slotRef k.vm k.spaces) p = pdeCount k p := by
    rw [pdeCount, Finset.filter_filter]
    congr 1
    apply Finset.filter_congr
    intro s _
    cases s <;> simp [Slot.isPte, Slot.isPde]
  rw [← pgdirCount_eq h p, ← hpde, add_assoc, refs_filter_add]
  exact (refs_filter_add Slot.isPte p).symm

lemma Books.pageRight (h : Books k l fl) {p : Nat} (hp : p < k.vm.npages)
    (hk : ¬ KernUses k.vm p) : PageRight k p := by
  have hcount := h.vm.count p hp hk
  have hbound := h.bound p
  refine ⟨?_, l, h.vm.chain, List.nodup_iff_count_le_one.mp h.vm.chain.nodup p, fun hm => ?_⟩
  · rw [← pageRefs_eq_counts h]
    omega
  · rw [← pageRefs_eq_counts h]
    exact (h.vm.free_page p hm).2.2

lemma CallStep.mono {P Q : Nat → PushRegs → Kernel → Prop} (hPQ : ∀ e r k, P e r k → Q e r k)
    (h : CallStep P k k') : CallStep Q k k' := by
  cases h with
  | call cpu e tf ch he hrun huser htrap hP hexit =>
    exact .call cpu e tf ch he hrun huser htrap (hPQ _ _ _ hP) hexit

lemma run_books {k0 : Kernel} (h0 : Started k0) (hrun : ReflTransGen (CallStep CallOk) k0 k) :
    ∃ l fl, Books k l fl := by
  induction hrun with
  | refl => exact h0.books
  | tail _ hstep ih =>
    obtain ⟨l, fl, hb⟩ := ih
    have hstep' := hstep.mono (Q := fun e r k => CallOk e r k ∧ True) fun _ _ _ h => ⟨h, trivial⟩
    exact (CallStep.kept hb hstep').1

/-- Every slot of a live environment that has a page is `ok`, said so that it can be evaluated. -/
def Kernel.everySlot (k : Kernel) (ok : Slot → Bool) : Bool :=
  let passes s := slotRef k.vm k.spaces s == none || ok s
  (List.range nenv).all fun e => k.spaces e == none || passes (.pgdir e) && (List.range npdeUser).all fun d =>
    slotRef k.vm k.spaces (.pde e d) == none || ok (.pde e d) && (List.range 1024).all fun t => passes (.pte e d t)

lemma Kernel.everySlot_ok {ok : Slot → Bool} {s : Slot} {p : Nat} (h : k.everySlot ok) (hs : s ∈ slots)
    (hp : slotRef k.vm k.spaces s = some p) : ok s := by
  simp only [everySlot, List.all_eq_true, List.mem_range, Bool.or_eq_true, Bool.and_eq_true, beq_iff_eq] at h
  have hne : slotRef k.vm k.spaces s ≠ none := by simp [hp]
  have hspace : k.spaces s.env ≠ none := fun hn => hne (slotRef_none hn)
  cases s with
  | pgdir e => exact ((h e (pgdir_mem_slots.mp hs)).resolve_left hspace).1.resolve_left hne
  | pde e d =>
    obtain ⟨he, hd⟩ := pde_mem_slots.mp hs
    exact ((((h e he).resolve_left hspace).2 d hd).resolve_left hne).1
  | pte e d t =>
    obtain ⟨he, hd, ht⟩ := pte_mem_slots.mp hs
    obtain ⟨q, hq⟩ := Accounted.pde_of_pte hp
    have htable := (((h e he).resolve_left hspace).2 d hd).resolve_left (by simp [hq])
    exact (htable.2 t ht).resolve_left hne

lemma counts_of_unreferenced {p : Nat} (h : k.everySlot fun s => slotRef k.vm k.spaces s != some p) :
    pteCount k p + pdeCount k p + pgdirCount k p ≤ 1 := by
  have hnone : ∀ s ∈ slots, slotRef k.vm k.spaces s ≠ some p := by
    intro s hs hp
    have hne := Kernel.everySlot_ok h hs hp
    exact bne_iff_ne.mp hne hp
  have hpte : pteCount k p = 0 := refs_eq_zero_iff.mpr fun s hs => hnone s (Finset.mem_filter.mp hs).1
  have hpde : pdeCount k p = 0 := refs_eq_zero_iff.mpr fun s hs => hnone s (Finset.mem_filter.mp hs).1
  rw [hpte, hpde, pgdirCount]
  split <;> omega

lemma CallStep.frame {P : Nat → PushRegs → Kernel → Prop} {e : Nat} {n a1 a2 a3 a4 a5 : UInt32}
    (hexit : (trap 0 (callFrame n a1 a2 a3 a4 a5) 0 0 (issue 0 e k)).To k')
    (he : e < nenv)
    (hrun : (k.envs e).envStatus = .runnable ∨ (k.envs e).envStatus = .running)
    (hP : P e (callFrame n a1 a2 a3 a4 a5).tfRegs (dispatchState 0 e (callFrame n a1 a2 a3 a4 a5) k)) :
    CallStep P k k' :=
  .call 0 e _ 0 he hrun (callFrame_user ..) (callFrame_trapno ..) hP hexit

/-- From boot and one `env_create`, `sys_page_unmap(0, 0xEEBFC000)` by the only environment:
the address has a table and no page, and the counter of page 0 becomes 65535. -/
theorem unmap_empty_miscounts : ∃ k0 k, Started k0 ∧ ReflTransGen (CallStep fun _ _ _ => True) k0 k ∧
    0 < k.vm.npages ∧ ¬ KernUses k.vm 0 ∧ k.vm.ppRef 0 = 65535 ∧ ¬ PageRight k 0 := by
  have htest : ((envCreate emptyElf .user smallKernel).any fun k => (k.envs 0).envStatus == .runnable &&
      (trap 0 (callFrame 6 0 0xEEBFC000 0 0 0) 0 0 (issue 0 0 k)).check fun k =>
        k.vm.npages == 64 && !decide (KernUses k.vm 0) && k.vm.ppRef 0 == 65535 &&
        k.everySlot fun s => slotRef k.vm k.spaces s != some 0) = true := by
    decide +kernel
  obtain ⟨k0, hstart, hk0⟩ := exists_created htest
  simp only [Bool.and_eq_true, beq_iff_eq] at hk0
  obtain ⟨k, hexit, hk⟩ := Exit.exists_to hk0.2
  simp only [Bool.and_eq_true, beq_iff_eq, Bool.not_eq_true', decide_eq_false_iff_not] at hk
  obtain ⟨⟨⟨hnp, hkern⟩, hcount⟩, hnone⟩ := hk
  have hstep : CallStep (fun _ _ _ => True) k0 k := .frame hexit (by decide) (Or.inl hk0.1) trivial
  refine ⟨k0, k, hstart, .single hstep, by omega, hkern, hcount, fun hright => ?_⟩
  have hfew := counts_of_unreferenced hnone
  rw [← hright.count] at hfew
  omega

/-- In every run of careful calls from boot, every page the kernel does not use has the right
counter, and is free only if nothing refers to it. -/
theorem pages_accounted {k0 k : Kernel} (h0 : Started k0) (hrun : ReflTransGen (CallStep CallOk) k0 k)
    {p : Nat} (hp : p < k.vm.npages) (hkern : ¬ KernUses k.vm p) : PageRight k p := by
  obtain ⟨l, fl, hb⟩ := run_books h0 hrun
  exact hb.pageRight hp hkern

/-- A program allocates a page, and the page is counted once. -/
theorem pages_accounted_alloc : ∃ k0 k, Started k0 ∧ ReflTransGen (CallStep CallOk) k0 k ∧
    k.vm.ppRef 5 = 1 ∧ PageRight k 5 := by
  have htest : ((envCreate emptyElf .user smallKernel).any fun k =>
      (k.envs 0).envStatus == .runnable && k.vm.pageFreeList == some 5 && k.vm.ppLink 5 == some 6 &&
        (trap 0 (callFrame 4 0 0x800000 7 0 0) 0 0 (issue 0 0 k)).check fun k =>
          k.vm.npages == 64 && !decide (KernUses k.vm 5) && k.vm.ppRef 5 == 1) = true := by decide +kernel
  obtain ⟨k0, hstart, hk0⟩ := exists_created htest
  simp only [Bool.and_eq_true, beq_iff_eq] at hk0
  obtain ⟨⟨⟨hst, hfree⟩, hlink⟩, hcheck⟩ := hk0
  obtain ⟨k, hexit, hk⟩ := Exit.exists_to hcheck
  simp only [Bool.and_eq_true, beq_iff_eq, Bool.not_eq_true', decide_eq_false_iff_not] at hk
  obtain ⟨⟨hnp, hkern⟩, hcount⟩ := hk
  have hok : CallOk 0 (callFrame 4 0 0x800000 7 0 0).tfRegs
      (dispatchState 0 0 (callFrame 4 0 0x800000 7 0 0) k0) := by
    intro dst _ _ _
    right
    intro p hp
    cases hfree.symm.trans hp
    exact hlink ▸ by simp
  have hrun : ReflTransGen (CallStep CallOk) k0 k :=
    .single (.frame hexit (by decide) (Or.inl hst) hok)
  exact ⟨k0, k, hstart, hrun, hcount, pages_accounted hstart hrun (by omega) hkern⟩

/-- No environment reaches below `UTOP` a page that the kernel uses, or a page directory or page table of any environment. -/
theorem user_pages_apart {k0 k : Kernel} (h0 : Started k0) (hrun : ReflTransGen (CallStep CallOk) k0 k) {e va : Nat}
    (hlive : Live k e) (hva : va < utop) (hp : present (k.pte e va)) : ppn (k.pte e va) < k.vm.npages ∧
      ¬ KernUses k.vm (ppn (k.pte e va)) ∧ NotTable k.vm k.spaces (ppn (k.pte e va)) := by
  obtain ⟨l, fl, hb⟩ := run_books h0 hrun
  have hmem : Slot.pte e (pdx va) (ptx va) ∈ slots := pte_mem_slots.mpr ⟨hlive.1, pdx_lt_npdeUser hva, ptx_lt va⟩
  have href : slotRef k.vm k.spaces (.pte e (pdx va) (ptx va)) = some (ppn (k.pte e va)) := by
    rw [slotRef, hb.slotWord_pte_eq hlive, target, if_pos hp]
  obtain ⟨hlt, hkern⟩ := hb.vm.mapped _ hmem _ href
  refine ⟨hlt, hkern, fun s hs htable hsp => ?_⟩
  obtain rfl := hb.vm.tables s hs htable _ hsp _ hmem href
  exact htable

theorem user_pages_apart_stack : ∃ k, Started k ∧ present (k.pte 0 (ustacktop - pgsize)) ∧
    NotTable k.vm k.spaces (ppn (k.pte 0 (ustacktop - pgsize))) := by
  have htest : ((envCreate emptyElf .user smallKernel).any fun k =>
      (k.envs 0).envStatus != .free && present (k.pte 0 (ustacktop - pgsize))) := by decide +kernel
  obtain ⟨k, hstart, hk⟩ := exists_created htest
  obtain ⟨hst, hp⟩ := Bool.and_eq_true_iff.mp hk
  exact ⟨k, hstart, hp, (user_pages_apart hstart .refl ⟨by decide, bne_iff_ne.mp hst⟩ (by decide) hp).2.2⟩

end Jos
