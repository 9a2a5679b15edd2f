import Jos.Kern.Boot

/-!
# `page_lookup` against the walk of the hardware

`page_lookup` stops at the page table: it does not look at the present bit of the entry.
It agrees with `check_va2pa` where a present page table has a present entry, and what its
callers promise for an unmapped address holds exactly there.
-/

namespace Jos
open Bits

def checkVa2pa (pgdir va : Nat) (vm : Vm) : Option (Option Nat) :=
  let pde := vm.mem pgdir (pdx va)
  if present pde then
    if ppn pde < vm.npages then
      let pte := vm.mem (ppn pde) (ptx va)
      if present pte then some (some (ppn pte)) else some none
    else none
  else some none

/-- The promises of `page_lookup` and of its callers about the address `va`. -/
structure LookupRight (k : Kernel) (pgdir va : Nat) : Prop where
  lookup : (pageLookup pgdir va k.vm).map (Option.map Prod.fst) = checkVa2pa pgdir va k.vm
  remove : checkVa2pa pgdir va k.vm = some none → pageRemove pgdir va k.vm = some k.vm
  unmap : ∀ cur envid e, envid2env cur envid true k = some e → (k.envs e).envPgdir = some pgdir →
    badVa va = false → checkVa2pa pgdir va k.vm = some none → sysPageUnmap cur envid va k = .ret 0 k
  map : ∀ cur srcenvid src dstenvid dst dstva perm, envid2env cur srcenvid true k = some src →
    envid2env cur dstenvid true k = some dst → (k.envs src).envPgdir = some pgdir →
    checkVa2pa pgdir va k.vm = some none → sysPageMap cur srcenvid va dstenvid dstva perm k = .ret (-eInval) k
  send : ∀ cur envid dst value perm, envid2env cur envid false k = some dst → (k.envs dst).envIpcRecving = true →
    (k.envs cur).envPgdir = some pgdir → va < utop → checkVa2pa pgdir va k.vm = some none →
    sysIpcTrySend cur envid value va perm k = .ret (-eInval) k

def EntryPresent (vm : Vm) (pgdir va : Nat) : Prop :=
  present (vm.mem pgdir (pdx va)) = true → ppn (vm.mem pgdir (pdx va)) < vm.npages →
    present (vm.mem (ppn (vm.mem pgdir (pdx va))) (ptx va)) = true ∧
      ppn (vm.mem (ppn (vm.mem pgdir (pdx va))) (ptx va)) < vm.npages

section
variable {vm : Vm} {pgdir va : Nat}

lemma pageLookup_noTable (h : present (vm.mem pgdir (pdx va)) = false) : pageLookup pgdir va vm = some none := by
  simp [pageLookup, pgdirWalk, h]

lemma pageLookup_badTable (h : present (vm.mem pgdir (pdx va)))
    (hlt : ¬ ppn (vm.mem pgdir (pdx va)) < vm.npages) : pageLookup pgdir va vm = none := by
  simp [pageLookup, pgdirWalk, h, hlt]

lemma pageLookup_table (h : present (vm.mem pgdir (pdx va))) (hlt : ppn (vm.mem pgdir (pdx va)) < vm.npages) :
    pageLookup pgdir va vm =
      if ppn (vm.mem (ppn (vm.mem pgdir (pdx va))) (ptx va)) < vm.npages then
        some (some (ppn (vm.mem (ppn (vm.mem pgdir (pdx va))) (ptx va)), (ppn (vm.mem pgdir (pdx va)), ptx va)))
      else none := by
  simp [pageLookup, pgdirWalk, h, hlt]

lemma lookup_agrees_iff : (pageLookup pgdir va vm).map (Option.map Prod.fst) = checkVa2pa pgdir va vm ↔
    EntryPresent vm pgdir va := by
  unfold checkVa2pa EntryPresent
  dsimp only
  by_cases hpde : present (vm.mem pgdir (pdx va))
  · by_cases hlt : ppn (vm.mem pgdir (pdx va)) < vm.npages
    · rw [pageLookup_table hpde hlt, if_pos hpde, if_pos hlt]
      simp only [hpde, hlt, true_implies]
      by_cases hpte : present (vm.mem (ppn (vm.mem pgdir (pdx va))) (ptx va))
      · split <;> simp [*]
      · refine iff_of_false ?_ fun h => hpte h.1
        rw [if_neg hpte]
        split <;> simp
    · rw [pageLookup_badTable hpde hlt, if_pos hpde, if_neg hlt]
      exact iff_of_true rfl fun _ h => absurd h hlt
  · rw [pageLookup_noTable (Bool.eq_false_iff.mpr hpde), if_neg hpde]
    exact iff_of_true rfl fun h => absurd h hpde

lemma EntryPresent.unmapped (h : EntryPresent vm pgdir va) (hnone : checkVa2pa pgdir va vm = some none) :
    pageLookup pgdir va vm = some none := by
  have hagree := lookup_agrees_iff.mpr h
  rw [hnone] at hagree
  cases hl : pageLookup pgdir va vm with
  | none => simp [hl] at hagree
  | some r => cases r <;> simp [hl] at hagree ⊢

end

/-- The promises hold exactly at the addresses whose page table, if present, has a present entry. -/
theorem lookup_right_iff (k : Kernel) (pgdir va : Nat) : LookupRight k pgdir va ↔ EntryPresent k.vm pgdir va := by
  refine ⟨fun h => lookup_agrees_iff.mp h.lookup, fun h => ⟨lookup_agrees_iff.mpr h, ?_, ?_, ?_, ?_⟩⟩
  · intro hnone
    simp only [pageRemove, h.unmapped hnone]
  · intro cur envid e he hpd hva hnone
    simp only [sysPageUnmap, he, hva, hpd, pageRemove, h.unmapped hnone]
    rfl
  · intro cur srcenvid src dstenvid dst dstva perm hsrc hdst hpd hnone
    simp only [sysPageMap, hsrc, hdst, hpd, h.unmapped hnone, ite_self]
  · intro cur envid dst value perm hdst hrecv hpd hva hnone
    have hmem : ipcTransfer cur dst va perm k = some (.error (-eInval), k.vm) := by
      simp [ipcTransfer, Nat.not_le.mpr hva, hpd, h.unmapped hnone]
    simp only [sysIpcTrySend, hdst, hrecv, hmem]
    rfl

/-- Below the user stack there is a page table and no page. `page_lookup` finds page 0 there:
`sys_page_unmap` counts it down to 65535, and `sys_page_map` maps it. -/
theorem empty_entry_is_page_zero : ∃ k pd, Started k ∧ (k.envs 0).envPgdir = some pd ∧
    checkVa2pa pd 0xEEBFC000 k.vm = some none ∧ (pageLookup pd 0xEEBFC000 k.vm).map (Option.map Prod.fst) = some (some 0) ∧
    (∃ k', sysPageUnmap 0 0 0xEEBFC000 k = .ret 0 k' ∧ k.vm.ppRef 0 = 0 ∧ k'.vm.ppRef 0 = 65535) ∧
    ∃ k', sysPageMap 0 0 0xEEBFC000 0 0xEEBFB000 (pteP ||| pteU ||| pteW) k = .ret 0 k' ∧
      checkVa2pa pd 0xEEBFB000 k'.vm = some (some 0) := by
  have htest : ((envCreate emptyElf .user smallKernel).any fun k => (k.envs 0).envPgdir == some 2 &&
      checkVa2pa 2 0xEEBFC000 k.vm == some none &&
      (pageLookup 2 0xEEBFC000 k.vm).map (Option.map Prod.fst) == some (some 0) &&
      (match sysPageUnmap 0 0 0xEEBFC000 k with
        | .ret r k' => r == 0 && k.vm.ppRef 0 == 0 && k'.vm.ppRef 0 == 65535
        | .exit _ => false) &&
      match sysPageMap 0 0 0xEEBFC000 0 0xEEBFB000 (pteP ||| pteU ||| pteW) k with
        | .ret r k' => r == 0 && checkVa2pa 2 0xEEBFB000 k'.vm == some (some 0)
        | .exit _ => false) = true := by decide +kernel
  obtain ⟨k, hstart, hk⟩ := exists_created htest
  simp only [Bool.and_eq_true, beq_iff_eq] at hk
  obtain ⟨⟨⟨⟨hpd, hnone⟩, hlook⟩, hunmap⟩, hmap⟩ := hk
  refine ⟨k, 2, hstart, hpd, hnone, hlook, ?_, ?_⟩
  · cases h : sysPageUnmap 0 0 0xEEBFC000 k with
    | exit x => simp [h] at hunmap
    | ret r k' =>
      simp only [h, Bool.and_eq_true, beq_iff_eq] at hunmap
      exact ⟨k', by rw [hunmap.1.1], hunmap.1.2, hunmap.2⟩
  · cases h : sysPageMap 0 0 0xEEBFC000 0 0xEEBFB000 (pteP ||| pteU ||| pteW) k with
    | exit x => simp [h] at hmap
    | ret r k' =>
      simp only [h, Bool.and_eq_true, beq_iff_eq] at hmap
      exact ⟨k', by rw [hmap.1], hmap.2⟩

end Jos
