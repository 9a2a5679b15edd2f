import Jos.Kern.PageRuns

/-!
# Write permission

A page that an environment may only read must not become writable by being mapped
again. `sys_ipc_try_send` looks at the sender's entry; the test of `sys_page_map`
never fires, so there the caller has to ask for no more than it has.
-/

namespace Jos
open LinkedList RefCount Relation Bits

variable {e va : Nat} {k' : Kernel}

def ReadOnly (k : Kernel) (p : Nat) : Prop :=
  ∀ s ∈ slots, ¬ s.IsTable → slotRef k.vm k.spaces s = some p → writable (slotWord k.vm k.spaces s) = false

def OnFreeList (k : Kernel) (p : Nat) : Prop := ∃ l, Chain k.vm.ppLink k.vm.pageFreeList l ∧ p ∈ l

def MayWrite (k : Kernel) (src srcva : Nat) : Prop :=
  present (k.pte src srcva) = true ∧ writable (k.pte src srcva) = true

/-- `sys_page_map` fails before it maps anything. -/
def MapRefused (cur srcenvid srcva dstenvid dstva perm : Nat) (k : Kernel) : Prop :=
  ∀ src dst, envid2env cur srcenvid true k = some src → envid2env cur dstenvid true k = some dst →
    badPerm perm = false → badVa srcva = false → badVa dstva = false →
    present (k.pde src srcva) = false ∨ present (k.pde dst dstva) = false ∧ k.vm.pageFreeList = none

/-- A successful `sys_page_map` with `PTE_W` had a writable source. -/
def MapRespects (cur srcenvid srcva dstenvid dstva perm : Nat) (k : Kernel) : Prop :=
  ∀ k', sysPageMap cur srcenvid srcva dstenvid dstva perm k = .ret 0 k' → writable perm = true →
    ∃ src, envid2env cur srcenvid true k = some src ∧ MayWrite k src srcva

section
variable {cur : Nat} {l fl : List Nat} {k : Kernel}

lemma Books.freeList_ne_none (h : Books k l fl) : k.vm.pageFreeList ≠ none ↔ l ≠ [] := by
  cases l with
  | nil => simpa using (show k.vm.pageFreeList = none from h.vm.chain)
  | cons p l => simp [h.vm.chain.1]

lemma Books.lookup_some (h : Books k l fl) {pd : Nat} (he : Live k e)
    (hpd : (k.envs e).envPgdir = some pd) (hva : va < utop) (hp : present (k.pde e va)) :
    pageLookup pd va k.vm = some (some (ppn (k.pte e va), (ppn (k.pde e va), ptx va))) := by
  have hs : k.spaces e = some pd := (spaces_live he).trans hpd
  obtain ⟨hlook, -⟩ := h.lookup_table he hpd hva hp
  have hlt : ppn (k.pte e va) < k.vm.npages := by
    cases hr : slotRef k.vm k.spaces (.pte e (pdx va) (ptx va)) with
    | none =>
      have hz := h.tidy _ (h.vm.pte_mem hs hva) id hr
      rw [h.slotWord_pte_eq he] at hz
      rw [hz, show ppn 0 = 0 by decide]
      exact Nat.zero_lt_of_lt (h.vm.mapped _ (pgdir_mem_slots.mpr he.1) pd (slotRef_pgdir hs)).1
    | some p =>
      have hpn := hr
      rw [slotRef, h.slotWord_pte_eq he, target_eq_some] at hpn
      rw [hpn.2]
      exact (h.vm.mapped _ (h.vm.pte_mem hs hva) p hr).1
  rw [hlook, if_pos hlt]

variable {srcenvid srcva dstenvid dstva perm : Nat}

section
variable (h : Books k l fl)
include h

lemma sysPageMap_of_refused (hlive : Live k cur) (hr : MapRefused cur srcenvid srcva dstenvid dstva perm k)
    (k' : Kernel) : sysPageMap cur srcenvid srcva dstenvid dstva perm k ≠ .ret 0 k' := by
  cases hsrc : envid2env cur srcenvid true k with
  | none => simp [sysPageMap, hsrc, eBadEnv]
  | some src =>
  cases hdst : envid2env cur dstenvid true k with
  | none => simp [sysPageMap, hsrc, hdst, eBadEnv]
  | some dst =>
  by_cases hbad : badPerm perm ∨ badVa srcva ∨ badVa dstva
  · rcases hbad with hb | hb | hb <;> simp [sysPageMap, hsrc, hdst, hb, eInval]
  simp only [not_or, Bool.not_eq_true] at hbad
  obtain ⟨hbp, hbs, hbd⟩ := hbad
  have hls := envid2env_live hlive hsrc
  have hld := envid2env_live hlive hdst
  obtain ⟨spd, hspd, -⟩ := h.space hls
  obtain ⟨dpd, hdpd, hsd⟩ := h.space hld
  rw [sysPageMap_eq hsrc hdst hbp hbs hbd hspd]
  rcases hr src dst hsrc hdst hbp hbs hbd with habs | ⟨habs, hnone⟩
  · simp [h.lookup_absent hls hspd habs, eInval]
  · have hpde : slotRef k.vm k.spaces (.pde dst (pdx dstva)) = none := by
      rw [h.slotRef_pde_eq hld]
      exact target_eq_none.mpr habs
    cases hpp : present (k.pde src srcva) with
    | false => simp [h.lookup_absent hls hspd hpp, eInval]
    | true =>
      have hwalk : pgdirWalk dpd dstva true k.vm = some (none, k.vm) := by
        rw [slotRef_pde hsd, target_eq_none] at hpde
        simp [pgdirWalk, hpde, pageAlloc, hnone]
      simp [h.lookup_some hls hspd (badVa_lt hbs) hpp, hdpd, pageInsert, hwalk, eNoMem]

lemma sysPageMap_of_not_refused (hlive : Live k cur) (hr : ¬ MapRefused cur srcenvid srcva dstenvid dstva perm k) :
    ∃ k', sysPageMap cur srcenvid srcva dstenvid dstva perm k = .ret 0 k' := by
  simp only [MapRefused, not_forall, not_or, not_and, Bool.not_eq_false] at hr
  obtain ⟨src, dst, hsrc, hdst, hbp, hbs, hbd, hpres, hroom⟩ := hr
  have hls := envid2env_live hlive hsrc
  have hld := envid2env_live hlive hdst
  obtain ⟨spd, hspd, -⟩ := h.space hls
  obtain ⟨dpd, hdpd, hsd⟩ := h.space hld
  have hroom' : slotRef k.vm k.spaces (.pde dst (pdx dstva)) ≠ none ∨ l ≠ [] := by
    rw [h.slotRef_pde_eq hld, ne_eq, target_eq_none, ← h.freeList_ne_none]
    cases hd : present (k.pde dst dstva) with
    | true => exact Or.inl (by simp)
    | false => exact Or.inr (hroom hd)
  obtain ⟨vm', hins⟩ : ∃ vm', pageInsert dpd (ppn (k.pte src srcva)) dstva perm k.vm = some (0, vm') :=
    h.vm.pageInsert_returns hsd (badVa_lt hbd) hroom'
  rw [sysPageMap_eq hsrc hdst hbp hbs hbd hspd, h.lookup_some hls hspd (badVa_lt hbs) hpres]
  exact ⟨{ k with vm := vm' }, by simp [hdpd, hins]⟩

/-- Since nothing is tested, `sys_page_map` respects write permission exactly where it
is refused for another reason or the caller does not ask for more than it has. -/
theorem mapRespects_iff (hlive : Live k cur) : MapRespects cur srcenvid srcva dstenvid dstva perm k ↔
      MapRefused cur srcenvid srcva dstenvid dstva perm k ∨ writable perm = false ∨
        ∃ src, envid2env cur srcenvid true k = some src ∧ MayWrite k src srcva := by
  constructor
  · intro hresp
    by_cases hr : MapRefused cur srcenvid srcva dstenvid dstva perm k
    · exact Or.inl hr
    · obtain ⟨k', hk'⟩ := sysPageMap_of_not_refused h hlive hr
      cases hW : writable perm with
      | false => exact Or.inr (Or.inl rfl)
      | true => exact Or.inr (Or.inr (hresp k' hk' hW))
  · rintro (hr | hW | hsrc) k' hk' hW'
    · exact absurd hk' (sysPageMap_of_refused h hlive hr k')
    · rw [hW] at hW'
      simp at hW'
    · exact hsrc

lemma Books.present_of_writable (he : Live k e) (hva : va < utop) (hW : writable (k.pte e va)) : present (k.pte e va) := by
  obtain ⟨pd, -, hs⟩ := h.space he
  cases hp : present (k.pte e va) with
  | true => rfl
  | false =>
    have hn : slotRef k.vm k.spaces (.pte e (pdx va) (ptx va)) = none := by
      rw [slotRef, h.slotWord_pte_eq he]
      exact target_eq_none.mpr hp
    have hz := h.tidy _ (h.vm.pte_mem hs hva) id hn
    rw [h.slotWord_pte_eq he] at hz
    rw [hz] at hW
    exact absurd hW (by decide)

lemma ipcTransfer_respects (hlive : Live k cur) {dst perm' : Nat} {vm' : Vm}
    (hret : ipcTransfer cur dst srcva perm k = some (.ok perm', vm')) (hsva : srcva < utop)
    (hW : writable perm) : MayWrite k cur srcva := by
  obtain ⟨spd, hspd, -⟩ := h.space hlive
  have hnle : ¬ utop ≤ srcva := by omega
  by_cases hal : srcva % pgsize = 0
  case neg => simp [ipcTransfer, hnle, hal] at hret
  cases hbp : badPerm perm with
  | true => simp [ipcTransfer, hnle, hal, hbp] at hret
  | false =>
  cases hpde : present (k.pde cur srcva) with
  | false => simp [ipcTransfer, hnle, hal, hbp, hspd, h.lookup_absent hlive hspd hpde] at hret
  | true =>
  have hlook := h.lookup_some hlive hspd hsva hpde
  obtain ⟨-, hpte⟩ := h.lookup_table hlive hspd hsva hpde
  have hW' : flag perm pteW := hW
  cases hWs : flag (k.pte cur srcva) pteW with
  | false => simp [ipcTransfer, hnle, hal, hbp, hspd, hlook, hpte, hW', hWs] at hret
  | true => exact ⟨h.present_of_writable hlive hsva hWs, hWs⟩

lemma sysIpcTrySend_respects (hlive : Live k cur) {envid value : Nat}
    (hret : sysIpcTrySend cur envid value srcva perm k = .ret 0 k') (hsva : srcva < utop) (hW : writable perm) : MayWrite k cur srcva := by
  unfold sysIpcTrySend at hret
  split at hret
  · simp [eBadEnv] at hret
  split at hret
  · simp [eIpcNotRecv] at hret
  split at hret
  · simp at hret
  · rename_i r vm' htr
    have hneg := ipcTransfer_error htr
    simp only [Outcome.ret.injEq] at hret
    omega
  · rename_i perm' vm' htr
    exact ipcTransfer_respects h hlive htr hsva hW

end

end

/-- A successful `sys_ipc_try_send` of a page with `PTE_W` had a writable source. -/
def SendRespects (cur envid value srcva perm : Nat) (k : Kernel) : Prop :=
  ∀ k', sysIpcTrySend cur envid value srcva perm k = .ret 0 k' → srcva < utop → writable perm = true →
    MayWrite k cur srcva

/-- The caller of `sys_page_map` asks for `PTE_W` only where the source has it. -/
def WriteOk (e : Nat) (r : PushRegs) (k : Kernel) : Prop :=
  match Sysno.decode r.regEax.toNat with
  | some .pageMap => writable r.regEsi.toNat = true → ∀ src, envid2env e r.regEdx.toNat true k = some src →
      present (k.pte src r.regEcx.toNat) = true → writable (k.pte src r.regEcx.toNat) = true
  | _ => True

def Modest (e : Nat) (r : PushRegs) (k : Kernel) : Prop := CallOk e r k ∧ WriteOk e r k

def ModestStep (p : Nat) (k k' : Kernel) : Prop := ¬ OnFreeList k p ∧ CallStep Modest k k'

section
variable {p : Nat} {l fl : List Nat} {k : Kernel}

lemma ReadOnly.congr (hs : SameKernel k k') (h : ReadOnly k p) : ReadOnly k' p := by
  unfold ReadOnly
  rw [hs.spaces, hs.vm]
  exact h

section
variable (hb : Books k l fl)
include hb

lemma ReadOnly.pte (h : ReadOnly k p) (he : Live k e) (hva : va < utop) (ht : target (k.pte e va) = some p) : writable (k.pte e va) = false := by
  obtain ⟨pd, -, hs⟩ := hb.space he
  have hw := hb.slotWord_pte_eq he va
  have hro := h _ (hb.vm.pte_mem hs hva) id (by rw [slotRef, hw, ht])
  rwa [hw] at hro

lemma callGrant_readOnly {perm : Nat} {r : PushRegs} (he : Live k e) (hW : WriteOk e r k) (hro : ReadOnly k p)
    (hg : callGrant e r k p perm) : writable perm = false := by
  cases hno : Sysno.decode r.regEax.toNat with
  | none => simp only [callGrant, hno, noGrant] at hg
  | some no =>
    cases no <;> simp only [callGrant, WriteOk, hno, noGrant] at hg hW
    case pageMap =>
      obtain ⟨src, hsrc, rfl, hlt, ht⟩ := hg
      have hr := hro.pte hb (envid2env_live he hsrc) hlt ht
      rw [Bool.eq_false_iff]
      intro hw
      rw [hW hw src hsrc (target_eq_some.mp ht).1] at hr
      simp at hr
    case ipcTrySend =>
      obtain ⟨⟨rfl, hlt, ht⟩, himp⟩ := hg
      have hr := hro.pte hb he hlt ht
      rw [Bool.eq_false_iff]
      intro hw
      have hr' := himp hw
      rw [show writable (k.pte e r.regEbx.toNat) from hr'] at hr
      simp at hr

lemma CallStep.readOnly (hstep : CallStep Modest k k') (hp : p ∉ l) (hro : ReadOnly k p) : ReadOnly k' p := by
  obtain ⟨-, e, r, k1, hs, he, hW, htr⟩ := CallStep.kept hb hstep
  have hro1 := hro.congr hs
  intro s hsm hnt href
  rcases htr s hsm hnt with heq | hz | ⟨q, perm, hperm, hq, hw⟩
  · rw [slotRef, heq] at href
    rw [heq]
    exact hro1 s hsm hnt href
  · rw [slotRef, hz, target_zero] at href
    simp at href
  · rw [slotRef, hw, target_entry hperm, Option.some.injEq] at href
    subst href
    rw [hw, writable_entry]
    exact callGrant_readOnly (hs.books hb) he hW hro1 (hq.resolve_left hp)

lemma run_readOnly (hro : ReadOnly k p) (hrun : ReflTransGen (ModestStep p) k k') : ReadOnly k' p := by
  have hall : (∃ l fl, Books k' l fl) ∧ ReadOnly k' p := by
    induction hrun with
    | refl => exact ⟨⟨l, fl, hb⟩, hro⟩
    | tail _ hstep ih =>
      obtain ⟨⟨l1, fl1, hb1⟩, hro1⟩ := ih
      exact ⟨(CallStep.kept hb1 hstep.2).1,
        hstep.2.readOnly hb1 (fun hm => hstep.1 ⟨l1, hb1.vm.chain, hm⟩) hro1⟩
  exact hall.2

end

end

/-- A program allocates a read-only page at `0x800000` and maps it again at `0x801000` with
permission `perm`; what the two calls leave behind, as far as it can be computed. -/
def remapTest (perm : UInt32) : Bool :=
  (envCreate emptyElf .user smallKernel).any fun k =>
    (k.envs 0).envStatus == .runnable && k.vm.pageFreeList == some 5 && k.vm.ppLink 5 == some 6 &&
    (trap 0 (callFrame 4 0 0x800000 5 0 0) 0 0 (issue 0 0 k)).check fun k1 =>
      (k1.envs 0).envStatus == .running && k1.vm.npages == 64 && !decide (KernUses k1.vm 5) &&
      k1.vm.ppRef 5 == 1 && k1.pte 0 0x800000 == entry 5 5 && present (k1.pde 0 0x800000) &&
      (k1.everySlot fun s => slotRef k1.vm k1.spaces s != some 5 || !writable (slotWord k1.vm k1.spaces s)) &&
      (trap 0 (callFrame 5 0 0x800000 0 0x801000 perm) 0 0 (issue 0 0 k1)).check fun k2 =>
        (k2.envs 0).envStatus == .running && k2.pte 0 0x801000 == entry 5 (pteP ||| perm.toNat)

structure Remapped (perm : UInt32) (k0 k1 k2 : Kernel) : Prop where
  started : Started k0
  alloc : CallStep Modest k0 k1
  source : k1.pte 0 0x800000 = entry 5 5
  table : present (k1.pde 0 0x800000) = true
  live : Live k1 0
  readOnly : ReadOnly k1 5
  inUse : ¬ OnFreeList k1 5
  remap : CallStep (fun e r k => e = 0 ∧ r = (callFrame 5 0 0x800000 0 0x801000 perm).tfRegs ∧
    SameKernel k1 k ∧ CallOk e r k) k1 k2
  live' : Live k2 0
  copy : k2.pte 0 0x801000 = entry 5 (pteP ||| perm.toNat)

lemma exists_remapped {perm : UInt32} (h : remapTest perm) : ∃ k0 k1 k2, Remapped perm k0 k1 k2 := by
  obtain ⟨k0, hstart, hk0⟩ := exists_created h
  simp only [Bool.and_eq_true, beq_iff_eq] at hk0
  obtain ⟨⟨⟨hst, hfree⟩, hlink⟩, hcheck⟩ := hk0
  obtain ⟨k1, hexit, hk1⟩ := Exit.exists_to hcheck
  simp only [Bool.and_eq_true, beq_iff_eq, Bool.not_eq_true', decide_eq_false_iff_not] at hk1
  obtain ⟨⟨⟨⟨⟨⟨⟨hst1, hnp⟩, hkern⟩, hcount⟩, hpte⟩, hpde⟩, hslots⟩, hcheck2⟩ := hk1
  obtain ⟨k2, hexit2, hk2⟩ := Exit.exists_to hcheck2
  simp only [Bool.and_eq_true, beq_iff_eq] at hk2
  have halloc : CallStep Modest k0 k1 := by
    refine .frame hexit (by decide) (Or.inl hst) ⟨?_, trivial⟩
    intro dst _ _ _
    right
    intro p hp
    cases hfree.symm.trans hp
    exact hlink ▸ by simp
  obtain ⟨l, fl, hb0⟩ := hstart.books
  obtain ⟨⟨l1, fl1, hb1⟩, -⟩ := CallStep.kept hb0 halloc
  have hlive : Live k1 0 := ⟨by decide, by simp [hst1]⟩
  refine ⟨k0, k1, k2, hstart, halloc, hpte, hpde, hlive, ?_, ?_, ?_, ⟨by decide, by simp [hk2.1]⟩, hk2.2⟩
  · intro s hs _ hp
    simpa [hp] using Kernel.everySlot_ok hslots hs hp
  · rintro ⟨l', hchain, hmem⟩
    rw [hchain.unique hb1.vm.chain] at hmem
    have := (hb1.vm.free_page 5 hmem).2.2
    have := hb1.vm.count 5 (by omega) hkern
    omega
  · refine .frame hexit2 (by decide) (Or.inr hst1) ?_
    refine ⟨rfl, rfl, dispatchState_same hlive _ _, ?_⟩
    intro src dst hsrc _ _ _ _ _
    cases hsrc
    have hs := dispatchState_same hlive 0 (callFrame 5 0 0x800000 0 0x801000 perm)
    refine ⟨?_, Or.inl ?_⟩
    · change present (Kernel.pte _ 0 0x800000)
      rw [hs.pte, hpte]
      decide
    · change Vm.ppRef _ (ppn (Kernel.pte _ 0 0x800000)) ≠ 65535
      rw [hs.pte, hpte, hs.vm, show ppn (entry 5 5) = 5 by decide, hcount]
      decide

/-- A program maps a page that it may only read again with `PTE_W`: `sys_page_map` returns 0
and the page is writable. -/
theorem readonly_page_remapped_writable : ∃ k0 k1 k2, Started k0 ∧ CallStep Modest k0 k1 ∧
    ¬ MapRespects 0 0 0x800000 0 0x801000 7 k1 ∧ ReadOnly k1 5 ∧ ¬ OnFreeList k1 5 ∧
    CallStep CallOk k1 k2 ∧ ¬ ReadOnly k2 5 := by
  have htest : remapTest 7 = true := by decide +kernel
  obtain ⟨k0, k1, k2, h⟩ := exists_remapped htest
  obtain ⟨l, fl, hb0⟩ := h.started.books
  obtain ⟨⟨l1, fl1, hb1⟩, -⟩ := CallStep.kept hb0 h.alloc
  have hstep : CallStep CallOk k1 k2 := h.remap.mono fun _ _ _ hP => hP.2.2.2
  obtain ⟨⟨l2, fl2, hb2⟩, -⟩ := CallStep.kept hb1 (hstep.mono fun _ _ _ hP => ⟨hP, trivial⟩)
  refine ⟨k0, k1, k2, h.started, h.alloc, ?_, h.readOnly, h.inUse, hstep, ?_⟩
  · rw [mapRespects_iff hb1 h.live]
    rintro (hr | hW | ⟨src, hsrc, hmay⟩)
    · rcases hr 0 0 rfl rfl (by decide) (by decide) (by decide) with hp | ⟨hp, -⟩
      · exact absurd h.table (by simp [hp])
      · exact absurd (show present (k1.pde 0 0x801000) = true from h.table) (by simp [hp])
    · exact absurd hW (by decide)
    · cases hsrc
      rw [MayWrite, h.source] at hmay
      exact absurd hmay.2 (by decide)
  · intro hro
    have hva : 0x801000 < utop := by decide
    have hW := hro.pte hb2 h.live' hva (by rw [h.copy]; decide)
    rw [h.copy] at hW
    exact absurd hW (by decide)

/-- In every state with right books: `sys_page_map` respects write permission exactly where it is
refused or the caller asks for no more than it has, `sys_ipc_try_send` always does, and a read-only
page stays read-only through modest calls for as long as it is not free. -/
theorem write_permission_kept {k : Kernel} {l fl : List Nat} (h : Books k l fl) :
    (∀ cur, Live k cur →
      (∀ srcenvid srcva dstenvid dstva perm, MapRespects cur srcenvid srcva dstenvid dstva perm k ↔
        MapRefused cur srcenvid srcva dstenvid dstva perm k ∨ writable perm = false ∨
          ∃ src, envid2env cur srcenvid true k = some src ∧ MayWrite k src srcva) ∧
      ∀ envid value srcva perm, SendRespects cur envid value srcva perm k) ∧
    ∀ p k', ReadOnly k p → ReflTransGen (ModestStep p) k k' → ReadOnly k' p := by
  refine ⟨fun cur hlive => ⟨?_, ?_⟩, fun p k' hro hrun => run_readOnly h hro hrun⟩
  · intro srcenvid srcva dstenvid dstva perm
    exact mapRespects_iff h hlive
  · intro envid value srcva perm k' hret hsva hW
    exact sysIpcTrySend_respects h hlive hret hsva hW

/-- The same program maps its page again without `PTE_W`, and the page stays read-only. -/
theorem write_permission_kept_remap : ∃ k0 k1 k2, Started k0 ∧ CallStep Modest k0 k1 ∧ ModestStep 5 k1 k2 ∧
    (∃ l fl, Books k1 l fl) ∧ MapRespects 0 0 0x800000 0 0x801000 5 k1 ∧
    SendRespects 0 0 0 0x800000 7 k1 ∧ ReadOnly k2 5 := by
  have htest : remapTest 5 = true := by decide +kernel
  obtain ⟨k0, k1, k2, h⟩ := exists_remapped htest
  obtain ⟨l, fl, hb0⟩ := h.started.books
  obtain ⟨⟨l1, fl1, hb1⟩, -⟩ := CallStep.kept hb0 h.alloc
  have hstep : ModestStep 5 k1 k2 := by
    refine ⟨h.inUse, h.remap.mono ?_⟩
    rintro _ _ k ⟨rfl, rfl, hs, hok⟩
    exact ⟨hok, fun hW => absurd hW (by decide)⟩
  have hkept := write_permission_kept hb1
  refine ⟨k0, k1, k2, h.started, h.alloc, hstep, ⟨l1, fl1, hb1⟩, ?_, ?_, ?_⟩
  · exact ((hkept.1 0 h.live).1 0 0x800000 0 0x801000 5).mpr (Or.inr (Or.inl (by decide)))
  · exact (hkept.1 0 h.live).2 0 0 0x800000 7
  · exact hkept.2 5 k2 h.readOnly (.single hstep)

end Jos
