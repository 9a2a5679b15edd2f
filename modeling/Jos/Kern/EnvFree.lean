import Jos.Kern.Boot
import Jos.Kern.Footprint

/-!
# `env_free`

The books after `env_free` are the ones of `Accounted.freeSpace`; what it writes lies in the
directory and the page tables of the environment. Together they say which pages come back.
-/

namespace Jos
open RefCount Function

/-- The references to `p` from the page tables of `e` and from its `env_pgdir`. -/
noncomputable def envRefs (vm : Vm) (sp : Spaces) (e p : Nat) : Nat :=
  refs (slots.filter fun k => k.env = e) (slotRef vm sp) p

/-- The counters are exact, with `l` on the free list, and page tables belong to one environment. -/
structure RefsExact (k : Kernel) (l : List Nat) : Prop where
  vm : Accounted k.vm k.spaces (fun _ => 0) l
  bound : ∀ p, pageRefs k.vm k.spaces p ≤ 65535
  pgdir : ∀ e, Live k e → ∃ pd, (k.envs e).envPgdir = some pd

structure EnvFreed (k : Kernel) (l : List Nat) (e : Nat) (k' : Kernel) (l' : List Nat) : Prop where
  slot : k'.envs e = freedEnv (k.envs e) k.envFreeList
  head : k'.envFreeList = some e
  others : ∀ e', e' ≠ e → k'.envs e' = k.envs e'
  refsExact : RefsExact k' l'
  nodup : l'.Nodup
  free : ∀ p, p ∈ l' ↔ p ∈ l ∨
    0 < envRefs k.vm k.spaces e p ∧ envRefs k.vm k.spaces e p = pageRefs k.vm k.spaces p
  ppRef : ∀ p, k'.vm.ppRef p + envRefs k.vm k.spaces e p = k.vm.ppRef p
  tables : ∀ s ∈ slots, s.env ≠ e → s.IsTable → ∀ x, slotRef k.vm k.spaces s = some x → k'.vm.mem x = k.vm.mem x
  kern : ∀ x, KernUses k.vm x → k'.vm.mem x = k.vm.mem x

lemma Books.refsExact {k : Kernel} {l fl : List Nat} (h : Books k l fl) : RefsExact k l :=
  ⟨h.vm, h.bound, h.envs.pgdir⟩

/-- A page that is neither the directory of `e` nor one of its page tables is not written. -/
theorem mem_freeSpace {vm vm' : Vm} {sp : Spaces} {l : List Nat} {e pd : Nat} (h : Accounted vm sp (fun _ => 0) l)
    (hs : sp e = some pd) (hrun : (envFreePdes pd npdeUser 0 vm).bind (pageDecref pd) = some vm') {x : Nat}
    (hx : ∀ s ∈ slots, s.env = e → s.IsTable → slotRef vm sp s ≠ some x) : vm'.mem x = vm.mem x := by
  have he := h.space_lt e pd hs
  have hpgdir := pgdir_mem_slots.mpr he
  have hpde : ∀ d, present (vm.mem pd d) → slotRef vm sp (.pde e d) = some (ppn (vm.mem pd d)) :=
    fun d hp => (slotRef_pde hs).trans (target_eq_some.mpr ⟨hp, rfl⟩)
  obtain ⟨vm1, hpdes, hdec⟩ := Option.bind_eq_some_iff.mp hrun
  have hsame := envFreePdes_same (by decide) (fun d _ hd hp heq => by
    have hself := h.tables _ hpgdir trivial pd (slotRef_pgdir hs) _ (pde_mem_slots.mpr ⟨he, hd⟩) (by rw [hpde d hp, heq])
    cases hself) hpdes
  funext i
  rw [pageDecref_mem hdec]
  refine hsame x i ?_
  rintro (⟨rfl, -⟩ | ⟨d, -, hd, hp, rfl⟩)
  · exact hx _ hpgdir rfl trivial (slotRef_pgdir hs)
  · exact hx _ (pde_mem_slots.mpr ⟨he, hd⟩) rfl trivial (hpde d hp)

/-- The references of the other environments are the ones that remain. -/
theorem pageRefs_freeSpace {vm vm' : Vm} {sp : Spaces} {e : Nat}
    (hmem : ∀ s ∈ slots, s.env ≠ e → s.IsTable → ∀ x, slotRef vm sp s = some x → vm'.mem x = vm.mem x) (p : Nat) :
    pageRefs vm' (update sp e none) p + envRefs vm sp e p = pageRefs vm sp p := by
  have hgone : ∀ (v : Vm) (s : Slot), s.env = e → slotRef v (update sp e none) s = none := by
    rintro v s rfl
    exact slotRef_none (update_self ..)
  have hother : ∀ s : Slot, s.env ≠ e → slotRef vm (update sp e none) s = slotRef vm sp s := fun s hne => by
    rw [slotRef, slotWord_congr_space (update_of_ne hne _ _), slotRef]
  have hword := @slotWord_congr vm (update sp e none) vm' fun s hs htab x hx => by
    by_cases hse : s.env = e
    · rw [hgone vm s hse] at hx
      cases hx
    · exact hmem s hs hse htab x (by rwa [hother s hse] at hx)
  have hempty : refs (slots.filter fun s => decide (s.env = e)) (slotRef vm' (update sp e none)) p = 0 := by
    refine refs_eq_zero_iff.mpr fun s hs href => ?_
    rw [hgone vm' s (of_decide_eq_true (Finset.mem_filter.mp hs).2)] at href
    cases href
  have hrest : refs (slots.filter fun s => decide (s.env = e) = false) (slotRef vm' (update sp e none)) p =
      refs (slots.filter fun s => decide (s.env = e) = false) (slotRef vm sp) p := by
    refine refs_congr (fun s hs => ?_) p
    obtain ⟨hslot, hne⟩ := Finset.mem_filter.mp hs
    rw [slotRef, hword s hslot, ← slotRef, hother s (of_decide_eq_false hne)]
  have hsplit := refs_filter_add (S := slots) (f := slotRef vm sp) (fun s => decide (s.env = e)) p
  have hsplit' := refs_filter_add (S := slots) (f := slotRef vm' (update sp e none)) (fun s => decide (s.env = e)) p
  simp only [decide_eq_true_eq] at hsplit hsplit' hempty
  rw [pageRefs, envRefs, pageRefs]
  omega

/-- `env_free` gives back what only `e` has used, and touches nothing else. -/
theorem env_free_exact {k : Kernel} {l : List Nat} (h : RefsExact k l) {e : Nat} (hl : Live k e) :
    ∃ k' l', envFree e k = some k' ∧ EnvFreed k l e k' l' := by
  obtain ⟨pd, hpd⟩ := h.pgdir e hl
  have hs : k.spaces e = some pd := (spaces_live hl).trans hpd
  obtain ⟨vm', l', hrun, hacc, hsh, hret⟩ := h.vm.freeSpace hs fun p => Nat.le_succ_of_le (h.bound p)
  have hframe := fun x => mem_freeSpace (x := x) h.vm hs hrun
  have htables : ∀ s ∈ slots, s.env ≠ e → s.IsTable → ∀ x, slotRef k.vm k.spaces s = some x →
      vm'.mem x = k.vm.mem x := fun s hslot hne htab x hx => hframe x fun s' hs' he' htab' hx' =>
    hne (h.vm.tables s hslot htab x hx s' hs' hx' ▸ he')
  have hrefs := pageRefs_freeSpace htables
  have hself : (k.setEnv e (freedEnv (k.envs e) k.envFreeList)).envs e = freedEnv (k.envs e) k.envFreeList :=
    update_self ..
  have hother : ∀ e', e' ≠ e → (k.setEnv e (freedEnv (k.envs e) k.envFreeList)).envs e' = k.envs e' :=
    fun e' hne => update_of_ne hne ..
  have hspaces : ({ k.setEnv e (freedEnv (k.envs e) k.envFreeList) with vm := vm', envFreeList := some e } :
      Kernel).spaces = update k.spaces e none := by
    funext e'
    by_cases hee : e' = e
    · subst e'
      rw [update_self]
      exact spaces_free (by rw [hself, freedEnv])
    · rw [update_of_ne hee]
      simp only [Kernel.spaces, hother e' hee]
  refine ⟨{ k.setEnv e (freedEnv (k.envs e) k.envFreeList) with vm := vm', envFreeList := some e }, l', ?_, ?_⟩
  · simp [envFree, hpd, hrun]
  exact {
    slot := hself
    head := rfl
    others := hother
    refsExact := {
      vm := by
        rw [hspaces]
        exact hacc
      bound := by
        intro p
        rw [hspaces]
        exact (hsh.refs p).trans (h.bound p)
      pgdir := by
        intro e' he'
        have hee : e' ≠ e := by
          rintro rfl
          exact he'.2 (by rw [hself, freedEnv])
        rw [Live, hother e' hee] at he'
        rw [hother e' hee]
        exact h.pgdir e' he' }
    nodup := hacc.chain.nodup
    free := by
      intro p
      have hp := hrefs p
      constructor
      · intro hmem
        have h0 := (hacc.free_page p hmem).2.2
        exact (hret.taken p hmem).imp_right fun hpos => ⟨by omega, by omega⟩
      · rintro (hmem | ⟨hpos, heq⟩)
        · exact hret.kept p hmem
        · exact hret.unleaked p (by omega) (by omega)
    ppRef := by
      intro p
      have hp := hrefs p
      rcases Nat.eq_zero_or_pos (pageRefs k.vm k.spaces p) with h0 | hpos
      · change vm'.ppRef p + _ = _
        rw [hret.ppRef p h0]
        omega
      · obtain ⟨s, hslot, href⟩ : ∃ s ∈ slots, slotRef k.vm k.spaces s = some p := by
          by_contra hno
          exact hpos.ne' (refs_eq_zero_iff.mpr fun s hs href => hno ⟨s, hs, href⟩)
        obtain ⟨hlt, hkern⟩ := h.vm.mapped s hslot p href
        have hbound := h.bound p
        have hcount := hacc.count p (hsh.npages ▸ hlt) fun hk => hkern ((hsh.kernUses p).mp hk)
        change vm'.ppRef p + _ = _
        rw [hcount, h.vm.count p hlt hkern, Nat.mod_eq_of_lt (by omega), Nat.mod_eq_of_lt (by omega)]
        omega
    tables := htables
    kern := fun x hx => hframe x fun s hslot _ _ href => (h.vm.mapped s hslot x href).2 hx }

/-- The first environment is freed right after it was created. -/
theorem env_free_created : ∃ k l k' l', RefsExact k l ∧ Live k 0 ∧ envFree 0 k = some k' ∧ EnvFreed k l 0 k' l' := by
  have htest : ((envCreate emptyElf .user smallKernel).any fun k => (k.envs 0).envStatus == .runnable) = true := by
    decide +kernel
  obtain ⟨k, hstart, hst⟩ := exists_created htest
  have hlive : Live k 0 := ⟨by decide, by rw [beq_iff_eq.mp hst]; exact nofun⟩
  obtain ⟨l, fl, hb⟩ := hstart.books
  obtain ⟨k', l', hrun, hfreed⟩ := env_free_exact hb.refsExact hlive
  exact ⟨k, l, k', l', hb.refsExact, hlive, hrun, hfreed⟩

end Jos
