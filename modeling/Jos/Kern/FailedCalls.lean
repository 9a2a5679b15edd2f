import Jos.Kern.Boot
import Jos.Kern.Trap

/-!
# System calls that fail

The calls that manage memory and environments report an error before they have
changed anything, with one exception: `sys_page_alloc` takes its page first, and
when there is no page left for the page table it gives the page back through
`page_decref`, whose counter goes from 0 to 65535.
-/

namespace Jos

inductive MemCall where
  | exofork
  | pageAlloc (envid va perm : Nat)
  | pageMap (srcenvid srcva dstenvid dstva perm : Nat)
  | pageUnmap (envid va : Nat)
  | envSetStatus (envid status : Nat)
  | envSetPgfaultUpcall (envid func : Nat)
  deriving DecidableEq, Repr

def MemCall.run (cur : Nat) (k : Kernel) : MemCall → Outcome Int
  | .exofork => sysExofork cur k
  | .pageAlloc envid va perm => sysPageAlloc cur envid va perm k
  | .pageMap srcenvid srcva dstenvid dstva perm => sysPageMap cur srcenvid srcva dstenvid dstva perm k
  | .pageUnmap envid va => sysPageUnmap cur envid va k
  | .envSetStatus envid status => sysEnvSetStatus cur envid status k
  | .envSetPgfaultUpcall envid func => sysEnvSetPgfaultUpcall cur envid func k

def freePage (vm : Vm) : Nat → Option Nat
  | 0 => vm.pageFreeList
  | n + 1 => (freePage vm n).bind vm.ppLink

lemma freePage_none {vm : Vm} (h : vm.pageFreeList = none) (n : Nat) : freePage vm n = none := by
  induction n with
  | zero => exact h
  | succ n ih => simp [freePage, ih]

def IsPgdir (k : Kernel) (pd : Nat) : Prop := pd = k.vm.kernPgdir ∨ ∃ e, (k.envs e).envPgdir = some pd

structure Unchanged (k k' : Kernel) : Prop where
  free : ∀ p, (∃ n, freePage k'.vm n = some p) ↔ ∃ n, freePage k.vm n = some p
  ppRef : k'.vm.ppRef = k.vm.ppRef
  dirs : ∀ pd, IsPgdir k pd → k'.vm.mem pd = k.vm.mem pd
  tables : ∀ pd d, IsPgdir k pd → present (k.vm.mem pd d) = true →
    k'.vm.mem (ppn (k.vm.mem pd d)) = k.vm.mem (ppn (k.vm.mem pd d))
  envs : k'.envs = k.envs
  envFreeList : k'.envFreeList = k.envFreeList

def FailsCleanly (cur : Nat) (call : MemCall) (k : Kernel) : Prop :=
  ∀ r k', call.run cur k = .ret r k' → r < 0 → Unchanged k k'

/-- Once `sys_page_alloc` has its page, the page table is there or another page is free. -/
def TableLeft (cur : Nat) (call : MemCall) (k : Kernel) : Prop :=
  match call with
  | .pageAlloc envid va perm => ∀ e pd p, envid2env cur envid true k = some e →
      badPerm perm = false → badVa va = false → (k.envs e).envPgdir = some pd →
      k.vm.pageFreeList = some p → p ≠ pd ∧ present (k.vm.mem pd (pdx va)) = true ∨ k.vm.ppLink p ≠ none
  | _ => True

lemma Unchanged.refl (k : Kernel) : Unchanged k k :=
  ⟨fun _ => Iff.rfl, rfl, fun _ _ => rfl, fun _ _ _ _ => rfl, rfl, rfl⟩

lemma pageInsert_cases {pgdir pp va perm : Nat} {vm vm' : Vm} {r : Int}
    (h : pageInsert pgdir pp va perm vm = some (r, vm')) :
    r = 0 ∨ r = -eNoMem ∧ vm' = vm ∧ present (vm.mem pgdir (pdx va)) = false ∧ vm.pageFreeList = none := by
  unfold pageInsert at h
  split at h
  · cases h
  · rename_i vm1 hwalk
    right
    simp only [Option.some.injEq, Prod.mk.injEq] at h
    obtain ⟨rfl, rfl⟩ := h
    simp only [pgdirWalk, pageAlloc] at hwalk
    split at hwalk
    · split at hwalk <;> simp at hwalk
    · rename_i hp
      cases hfree : vm.pageFreeList with
      | none =>
        simp only [hfree, if_true, Option.some.injEq, Prod.mk.injEq, true_and] at hwalk
        exact ⟨rfl, hwalk.symm, by simpa using hp, rfl⟩
      | some p => simp [hfree] at hwalk
  · left
    obtain ⟨vm1, -, h⟩ := Option.bind_eq_some_iff.mp h
    obtain ⟨vm2, -, h⟩ := Option.map_eq_some_iff.mp h
    exact (Prod.mk.inj h).1.symm

lemma pageInsert_no_table {pgdir pp va perm : Nat} {vm : Vm}
    (hpde : present (vm.mem pgdir (pdx va)) = false) (hfree : vm.pageFreeList = none) :
    pageInsert pgdir pp va perm vm = some (-eNoMem, vm) := by
  simp [pageInsert, pgdirWalk, pageAlloc, hpde, hfree]

section
variable {cur : Nat} {k k' : Kernel} {r : Int}

lemma sysExofork_fails (h : sysExofork cur k = .ret r k') (hr : r < 0) : k' = k := by
  unfold sysExofork envAlloc at h
  split at h
  · rename_i r1 k1 halloc
    split at halloc
    · simp_all
    · split at halloc
      · rename_i hvm
        -- `env_setup_vm` has found no page
        simp only [envSetupVm, pageAlloc] at hvm
        cases hfree : k.vm.pageFreeList with
        | none =>
          simp only [hfree, Prod.mk.injEq, true_and] at hvm
          simp only [Prod.mk.injEq] at halloc
          simp only [Outcome.ret.injEq] at h
          rw [← h.2, ← halloc.2, ← hvm]
        | some p => simp [hfree] at hvm
      · simp at halloc
  · simp only [Outcome.ret.injEq] at h
    omega

lemma sysPageMap_fails {srcenvid srcva dstenvid dstva perm : Nat}
    (h : sysPageMap cur srcenvid srcva dstenvid dstva perm k = .ret r k') (hr : r < 0) : k' = k := by
  unfold sysPageMap at h
  repeat' split at h
  all_goals simp_all only [Outcome.ret.injEq, reduceCtorEq]
  rename_i r1 vm hins
  obtain ⟨rfl, rfl⟩ := h
  rcases pageInsert_cases hins with h0 | ⟨-, rfl, -⟩
  · omega
  · rfl

lemma sysPageUnmap_fails {envid va : Nat} (h : sysPageUnmap cur envid va k = .ret r k') (hr : r < 0) : k' = k := by
  unfold sysPageUnmap at h
  repeat' split at h
  all_goals simp_all only [Outcome.ret.injEq, reduceCtorEq]
  omega

lemma sysEnvSetStatus_fails {envid status : Nat} (h : sysEnvSetStatus cur envid status k = .ret r k')
    (hr : r < 0) : k' = k := by
  unfold sysEnvSetStatus at h
  repeat' split at h
  all_goals simp_all only [Outcome.ret.injEq]
  all_goals omega

lemma sysEnvSetPgfaultUpcall_fails {envid func : Nat}
    (h : sysEnvSetPgfaultUpcall cur envid func k = .ret r k') (hr : r < 0) : k' = k := by
  unfold sysEnvSetPgfaultUpcall at h
  split at h
  all_goals simp_all only [Outcome.ret.injEq]
  omega

variable {envid va perm e pd p : Nat}

lemma pageAlloc_taken (hp : k.vm.pageFreeList = some p) (pd va : Nat) :
    ∃ vm, pageAlloc true k.vm = (some p, vm) ∧ vm.pageFreeList = k.vm.ppLink p ∧ vm.ppRef p = 0 ∧
      vm.mem pd (pdx va) = if pd = p then 0 else k.vm.mem pd (pdx va) := by
  simp [pageAlloc, hp]

lemma sysPageAlloc_fails (h : sysPageAlloc cur envid va perm k = .ret r k') (hr : r < 0)
    (hleft : TableLeft cur (.pageAlloc envid va perm) k) : k' = k := by
  cases he : envid2env cur envid true k with
  | none => simp_all [sysPageAlloc]
  | some e =>
    cases hperm : badPerm perm with
    | true => simp_all [sysPageAlloc]
    | false =>
      cases hva : badVa va with
      | true => simp_all [sysPageAlloc]
      | false =>
        cases hp : k.vm.pageFreeList with
        | none =>
          simp only [sysPageAlloc, he, hperm, hva, pageAlloc, hp, Bool.false_eq_true, if_false,
            Outcome.ret.injEq] at h
          exact h.2.symm
        | some p =>
          cases hpd : (k.envs e).envPgdir with
          | none => simp [sysPageAlloc, he, hperm, hva, pageAlloc, hp, hpd] at h
          | some pd =>
            obtain ⟨vm1, halloc, hfree, -, hmem⟩ := pageAlloc_taken hp pd va
            simp only [sysPageAlloc, he, hperm, hva, halloc, hpd, Bool.false_eq_true, if_false] at h
            split at h
            · cases h
            · rename_i r1 vm hins
              rcases pageInsert_cases hins with rfl | ⟨-, -, hpde, hnone⟩
              · simp only [ne_eq, not_true_eq_false, if_false, Outcome.ret.injEq] at h
                omega
              -- the page table is missing, which the hypothesis rules out
              · rcases hleft e pd p he hperm hva hpd hp with ⟨hne, hpres⟩ | hlink
                · rw [hmem, if_neg (Ne.symm hne), hpres] at hpde
                  cases hpde
                · exact absurd (hfree.symm.trans hnone) hlink

lemma sysPageAlloc_leaks (he : envid2env cur envid true k = some e) (hperm : badPerm perm = false)
    (hva : badVa va = false) (hpd : (k.envs e).envPgdir = some pd) (hp : k.vm.pageFreeList = some p)
    (hpde : p = pd ∨ present (k.vm.mem pd (pdx va)) = false) (hlink : k.vm.ppLink p = none) :
    ∃ vm, sysPageAlloc cur envid va perm k = .ret (-eNoMem) { k with vm := vm } ∧
      vm.pageFreeList = none ∧ vm.ppRef p = 65535 := by
  obtain ⟨vm1, halloc, hfree, href, hmem⟩ := pageAlloc_taken hp pd va
  have hpde' : present (vm1.mem pd (pdx va)) = false := by
    rw [hmem]
    split
    · exact present_zero
    · rename_i hne
      exact hpde.resolve_left (Ne.symm hne)
  have hdec : pageDecref p vm1 = some (vm1.setRef p 65535) := by simp [pageDecref, href]
  have hno : (-eNoMem : Int) ≠ 0 := by decide
  refine ⟨vm1.setRef p 65535, ?_, hfree.trans hlink, by simp⟩
  simp [sysPageAlloc, he, hperm, hva, halloc, hpd, pageInsert_no_table hpde' (hfree.trans hlink), hno, hdec]

end

/-- A failing call leaves everything as it was, unless it is a `sys_page_alloc` that takes
the last page and finds no page table. -/
theorem fails_cleanly_iff (cur : Nat) (call : MemCall) (k : Kernel) :
    FailsCleanly cur call k ↔ TableLeft cur call k := by
  constructor
  · intro h
    cases call with
    | pageAlloc envid va perm =>
      intro e pd p he hperm hva hpd hp
      by_contra hcon
      rw [not_or, not_not, not_and_or, not_not, Bool.not_eq_true] at hcon
      obtain ⟨vm, hret, hfree, -⟩ := sysPageAlloc_leaks he hperm hva hpd hp hcon.1 hcon.2
      -- the page was the head of the free list and the list is now empty
      obtain ⟨n, hn⟩ := ((h _ _ hret (by decide)).free p).mpr ⟨0, hp⟩
      rw [freePage_none hfree n] at hn
      cases hn
    | exofork => exact True.intro
    | pageMap => exact True.intro
    | pageUnmap => exact True.intro
    | envSetStatus => exact True.intro
    | envSetPgfaultUpcall => exact True.intro
  · intro h r k' hret hr
    have hk : k' = k := by
      cases call with
      | exofork => exact sysExofork_fails hret hr
      | pageAlloc => exact sysPageAlloc_fails hret hr h
      | pageMap => exact sysPageMap_fails hret hr
      | pageUnmap => exact sysPageUnmap_fails hret hr
      | envSetStatus => exact sysEnvSetStatus_fails hret hr
      | envSetPgfaultUpcall => exact sysEnvSetPgfaultUpcall_fails hret hr
    rw [hk]
    exact Unchanged.refl k

def lastPageTest : Bool :=
  (envCreate emptyElf .user smallKernel).any fun k1 =>
    (envCreate emptyElf .user k1).any fun k2 =>
      (envCreate emptyElf .user k2).any fun k3 =>
        (envCreate emptyElf .user k3).any fun k4 =>
          match sysPageAlloc 0 0 0xEEBFC000 7 k4 with
          | .ret 0 k => k.vm.pageFreeList == some 15 && k.vm.ppLink 15 == none &&
              (k.envs 0).envPgdir == some 2 && !present (k.vm.mem 2 (pdx 0x800000))
          | _ => false

theorem last_page_leaks : ∃ k0 k k', Started k0 ∧ sysPageAlloc 0 0 0xEEBFC000 7 k0 = .ret 0 k ∧
    sysPageAlloc 0 0 0x800000 7 k = .ret (-eNoMem) k' ∧ k.vm.pageFreeList = some 15 ∧
    k'.vm.pageFreeList = none ∧ k'.vm.ppRef 15 = 65535 ∧ ¬ FailsCleanly 0 (.pageAlloc 0 0x800000 7) k := by
  have htest : lastPageTest = true := by decide +kernel
  obtain ⟨k1, h1, htest⟩ := exists_created htest
  obtain ⟨k2, h2, htest⟩ := h1.exists_create htest
  obtain ⟨k3, h3, htest⟩ := h2.exists_create htest
  obtain ⟨k4, hs, htest⟩ := h3.exists_create htest
  split at htest
  · rename_i k hcall
    simp only [Bool.and_eq_true, beq_iff_eq, Bool.not_eq_true'] at htest
    obtain ⟨⟨⟨hfree, hlink⟩, hpd⟩, hpde⟩ := htest
    have he : envid2env 0 0 true k = some 0 := rfl
    obtain ⟨vm, hret, hnone, href⟩ := sysPageAlloc_leaks he (show badPerm 7 = false by decide)
      (show badVa 0x800000 = false by decide) hpd hfree (.inr hpde) hlink
    refine ⟨k4, k, _, hs, hcall, hret, hfree, hnone, href, fun hclean => ?_⟩
    have h15 := ((hclean _ _ hret (by decide)).free 15).mpr ⟨0, hfree⟩
    obtain ⟨n, hn⟩ := h15
    rw [freePage_none hnone n] at hn
    cases hn
  · cases htest

end Jos
