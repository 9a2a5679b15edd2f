import Jos.Kern.EnvSpec
import Jos.Kern.Syscall

/-!
# The kernel's books

The invariant of the whole kernel: physical memory is accounted for against the
page directories of the live environments, no counter has wrapped, and the free
environments are the ones on `env_free_list`. Scheduling, `env_alloc` and
`env_free` keep it.
-/

namespace Jos
open LinkedList Function

variable {e : Nat} {fl l : List Nat}

def Live (k : Kernel) (e : Nat) : Prop := e < nenv ∧ (k.envs e).envStatus ≠ .free

def Kernel.spaces (k : Kernel) : Spaces := fun e =>
  if e < nenv ∧ (k.envs e).envStatus ≠ .free then (k.envs e).envPgdir else none

def Kernel.pde (k : Kernel) (e va : Nat) : Nat :=
  match (k.envs e).envPgdir with
  | none => 0
  | some pd => k.vm.mem pd (pdx va)

def Kernel.pte (k : Kernel) (e va : Nat) : Nat :=
  if present (k.pde e va) then k.vm.mem (ppn (k.pde e va)) (ptx va) else 0

structure EnvTable (k : Kernel) (fl : List Nat) : Prop where
  chain : Chain (fun e => (k.envs e).envLink) k.envFreeList fl
  free : ∀ e ∈ fl, e < nenv ∧ (k.envs e).envStatus = .free
  pgdir : ∀ e, Live k e → ∃ pd, (k.envs e).envPgdir = some pd

structure Books (k : Kernel) (l fl : List Nat) : Prop where
  vm : Accounted k.vm k.spaces (fun _ => 0) l
  bound : ∀ p, pageRefs k.vm k.spaces p ≤ 65535
  tidy : Tidy k.vm k.spaces
  envs : EnvTable k fl

lemma spaces_live {k : Kernel} (h : Live k e) : k.spaces e = (k.envs e).envPgdir :=
  if_pos h

lemma spaces_free {k : Kernel} (h : (k.envs e).envStatus = .free) : k.spaces e = none :=
  if_neg fun hl => hl.2 h

section
variable {k : Kernel} (h : Books k l fl)
include h

lemma Books.space (hl : Live k e) : ∃ pd, (k.envs e).envPgdir = some pd ∧ k.spaces e = some pd := by
  obtain ⟨pd, hpd⟩ := h.envs.pgdir e hl
  exact ⟨pd, hpd, (spaces_live hl).trans hpd⟩

lemma Books.setVm {vm' : Vm} {l' : List Nat} (hacc : Accounted vm' k.spaces (fun _ => 0) l')
    (hb : ∀ p, pageRefs vm' k.spaces p ≤ 65535) (ht : Tidy vm' k.spaces) : Books { k with vm := vm' } l' fl :=
  ⟨hacc, hb, ht, ⟨h.envs.chain, h.envs.free, h.envs.pgdir⟩⟩

lemma Books.slotRef_pde_eq (hl : Live k e) (va : Nat) : slotRef k.vm k.spaces (.pde e (pdx va)) = target (k.pde e va) := by
  obtain ⟨pd, hpd, hs⟩ := h.space hl
  rw [slotRef_pde hs, Kernel.pde, hpd]

lemma Books.slotWord_pte_eq (hl : Live k e) (va : Nat) : slotWord k.vm k.spaces (.pte e (pdx va) (ptx va)) = k.pte e va := by
  obtain ⟨pd, hpd, hs⟩ := h.space hl
  simp [slotWord, hs, Kernel.pte, Kernel.pde, hpd]

end

structure SameEnv (env env' : Env) : Prop where
  free : env'.envStatus = .free ↔ env.envStatus = .free
  pgdir : env'.envPgdir = env.envPgdir
  link : env'.envLink = env.envLink

structure SameKernel (k k' : Kernel) : Prop where
  vm : k'.vm = k.vm
  envFreeList : k'.envFreeList = k.envFreeList
  envs : ∀ e, SameEnv (k.envs e) (k'.envs e)

namespace SameKernel
variable {k k1 k2 : Kernel}

lemma refl (k : Kernel) : SameKernel k k := ⟨rfl, rfl, fun _ => ⟨Iff.rfl, rfl, rfl⟩⟩

section
variable (h : SameKernel k k1)
include h

lemma trans (h' : SameKernel k1 k2) : SameKernel k k2 where
  vm := h'.vm.trans h.vm
  envFreeList := h'.envFreeList.trans h.envFreeList
  envs e := ⟨(h'.envs e).free.trans (h.envs e).free, (h'.envs e).pgdir.trans (h.envs e).pgdir,
    (h'.envs e).link.trans (h.envs e).link⟩

lemma live (e : Nat) : Live k1 e ↔ Live k e := by
  simp only [Live, ne_eq, (h.envs e).free]

lemma spaces : k1.spaces = k.spaces := by
  funext e
  simp only [Kernel.spaces, ne_eq, (h.envs e).free, (h.envs e).pgdir]

lemma pde (e va : Nat) : k1.pde e va = k.pde e va := by
  simp only [Kernel.pde, (h.envs e).pgdir, h.vm]

lemma pte (e va : Nat) : k1.pte e va = k.pte e va := by
  simp only [Kernel.pte, h.pde, h.vm]

lemma books (hb : Books k l fl) : Books k1 l fl where
  vm := by
    rw [h.vm, h.spaces]
    exact hb.vm
  bound := by
    rw [h.vm, h.spaces]
    exact hb.bound
  tidy := by
    rw [h.vm, h.spaces]
    exact hb.tidy
  envs := {
    chain := by
      rw [h.envFreeList]
      exact hb.envs.chain.congr fun e _ => (h.envs e).link
    free := fun e he => ⟨(hb.envs.free e he).1, (h.envs e).free.mpr (hb.envs.free e he).2⟩
    pgdir := by
      intro e he
      rw [(h.envs e).pgdir]
      exact hb.envs.pgdir e ((h.live e).mp he) }

end

lemma setEnv (k : Kernel) {env : Env} (henv : SameEnv (k.envs e) env) : SameKernel k (k.setEnv e env) := by
  refine ⟨rfl, rfl, fun e' => ?_⟩
  by_cases hee : e' = e
  · subst e'
    simpa using henv
  · simp only [Kernel.setEnv, update_of_ne hee]
    exact ⟨Iff.rfl, rfl, rfl⟩

lemma setStatus (k : Kernel) {st : EnvStatus} (hl : (k.envs e).envStatus ≠ .free)
    (hst : st ≠ .free) : SameKernel k (k.setStatus e st) :=
  setEnv k ⟨by simp [hl, hst], rfl, rfl⟩

lemma setTf (k : Kernel) (e : Nat) (tf : Trapframe) : SameKernel k (k.setTf e tf) :=
  setEnv k ⟨Iff.rfl, rfl, rfl⟩

lemma setCurenv (k : Kernel) (cpu : Nat) (o : Option Nat) : SameKernel k (k.setCurenv cpu o) :=
  ⟨rfl, rfl, fun _ => ⟨Iff.rfl, rfl, rfl⟩⟩

lemma setCpuStatus (k : Kernel) (cpu : Nat) (st : CpuStatus) : SameKernel k (k.setCpuStatus cpu st) :=
  ⟨rfl, rfl, fun _ => ⟨Iff.rfl, rfl, rfl⟩⟩

end SameKernel

def Exit.All (P : Kernel → Prop) : Exit → Prop
  | .user k => P k
  | .halt k => P k
  | _ => True

def Outcome.All {α : Type} (P : Kernel → Prop) : Outcome α → Prop
  | .ret _ k => P k
  | .exit x => x.All P

lemma Exit.All.imp {P Q : Kernel → Prop} {x : Exit} (h : x.All P) (hPQ : ∀ k, P k → Q k) : x.All Q := by
  cases x <;> first | exact hPQ _ h | trivial

lemma Exit.All.to {P : Kernel → Prop} {x : Exit} {k' : Kernel} (h : x.All P) (hto : x.To k') : P k' := by
  cases hto <;> exact h

lemma Outcome.All.bind {α β : Type} {P Q : Kernel → Prop} {o : Outcome α} {f : α → Kernel → Outcome β}
    (h : o.All P) (hret : ∀ a k, P k → (f a k).All Q) (hexit : ∀ k, P k → Q k) : (o.bind f).All Q := by
  cases o with
  | ret a k => exact hret a k h
  | exit x => exact Exit.All.imp h hexit

section
variable {k : Kernel} {cpu e : Nat}

lemma leaveCurenv_same (hc : ∀ c, k.curenv cpu = some c → Live k c) : SameKernel k (leaveCurenv cpu k) := by
  unfold leaveCurenv
  cases h : k.curenv cpu with
  | none => exact SameKernel.refl k
  | some c => exact SameKernel.setStatus k (hc c h).2 (by simp)

lemma envRun_same (hc : ∀ c, k.curenv cpu = some c → Live k c) (he : Live k e) :
    (envRun cpu e k).All fun k' => SameKernel k k' ∧ k'.curenv cpu = some e := by
  have h1 := (leaveCurenv_same hc).trans (SameKernel.setCurenv (leaveCurenv cpu k) cpu (some e))
  have hst : (((leaveCurenv cpu k).setCurenv cpu (some e)).envs e).envStatus ≠ .free :=
    ((h1.live e).mpr he).2
  simp only [envRun]
  split
  · trivial
  · refine ⟨h1.trans (SameKernel.setEnv _ ⟨?_, rfl, rfl⟩), ?_⟩
    · simpa [enterEnv] using hst
    · simp [Kernel.curenv]

lemma envFree_curenv {k1 : Kernel} (h : envFree e k = some k1) (c : Nat) : k1.curenv c = k.curenv c := by
  simp only [envFree, Option.bind_eq_bind, Option.bind_eq_some_iff] at h
  obtain ⟨pd, -, vm, -, heq⟩ := h
  cases heq
  rfl

lemma schedScan_found {n idle : Nat} (h : schedScan k n idle = .found e) :
    e < nenv ∧ (k.envs e).envStatus = .runnable := by
  induction n generalizing idle with
  | zero => simp [schedScan] at h
  | succ n ih =>
    simp only [schedScan] at h
    split at h
    · simp at h
    · split at h
      · cases h
        exact ⟨by omega, by assumption⟩
      · exact ih h

lemma schedHalt_same : (schedHalt cpu k).All fun k' => SameKernel k k' ∧ k'.curenv cpu = none := by
  by_cases hn : noneLeft k
  · rw [schedHalt, if_pos hn]
    exact True.intro
  · rw [schedHalt, if_neg hn]
    refine ⟨(SameKernel.setCurenv k cpu none).trans (SameKernel.setCpuStatus _ cpu .halted), ?_⟩
    simp [Kernel.curenv]

/-- Scheduling changes nothing the books look at, and the CPU ends with a live environment or none. -/
theorem schedYield_same (hc : ∀ c, k.curenv cpu = some c → Live k c) :
    (schedYield cpu k).All fun k' => SameKernel k k' ∧ ∀ c, k'.curenv cpu = some c → Live k' c := by
  have hrun : ∀ e, Live k e →
      (envRun cpu e k).All fun k' => SameKernel k k' ∧ ∀ c, k'.curenv cpu = some c → Live k' c := by
    intro e he
    refine Exit.All.imp (envRun_same hc he) ?_
    rintro k' ⟨hs, hcur⟩
    refine ⟨hs, fun c hcc => ?_⟩
    cases hcur.symm.trans hcc
    exact (hs.live e).mpr he
  simp only [schedYield]
  split
  · rename_i e hf
    have hr := schedScan_found hf
    exact hrun e ⟨hr.1, by simp [hr.2]⟩
  · trivial
  · split
    · rename_i hcur
      exact hrun _ (hc _ hcur.1)
    · refine Exit.All.imp schedHalt_same ?_
      rintro k' ⟨hs, hcur⟩
      exact ⟨hs, fun c hcc => absurd (hcur.symm.trans hcc) (by simp)⟩

end

/-- What `env_alloc` does when it succeeds: the first free slot `e` becomes a live
environment with an empty address space. -/
structure Allocated (k : Kernel) (l fl : List Nat) (e : Nat) (k' : Kernel) : Prop where
  books : ∃ l' fl', Books k' l' fl' ∧ (∀ p ∈ l', p ∈ l) ∧ fl = e :: fl' ∧ l.length = l'.length + 1
  live : Live k' e
  free : (k.envs e).envStatus = .free
  others : ∀ e', e' ≠ e → k'.envs e' = k.envs e'
  cpus : k'.cpus = k.cpus
  space : ∃ p ∈ l, k'.spaces = update k.spaces e (some p) ∧ SpaceAdded k.spaces e p k.vm k'.vm

lemma Books.envAlloc_spec {k : Kernel} (h : Books k l fl) (parentId : Nat) :
    (∃ r : Int, r < 0 ∧ envAlloc parentId k = (.error r, k) ∧ (l = [] ∨ fl = [])) ∨
    ∃ e k', envAlloc parentId k = (.ok e, k') ∧ Allocated k l fl e k' := by
  cases fl with
  | nil =>
    refine Or.inl ⟨-eNoFreeEnv, by decide, ?_, Or.inr rfl⟩
    rw [envAlloc, show k.envFreeList = none from h.envs.chain]
  | cons e fl =>
    obtain ⟨he, hfree⟩ := h.envs.free e List.mem_cons_self
    have hhead : k.envFreeList = some e := h.envs.chain.1
    rcases h.vm.envSetupVm_spec he (spaces_free hfree) with ⟨hl, hsetup⟩ | ⟨p, l', vm', rfl, hsetup, hacc, hadd⟩
    · refine Or.inl ⟨-eNoMem, by decide, ?_, Or.inl hl⟩
      simp [envAlloc, hhead, hsetup]
      rw [← hhead]
    · right
      let k' : Kernel := { k.setEnv e (newEnv (k.envs e) p parentId e) with
        vm := vm', envFreeList := (k.envs e).envLink }
      have hself : k'.envs e = newEnv (k.envs e) p parentId e := by simp [k']
      have hother : ∀ e', e' ≠ e → k'.envs e' = k.envs e' := by
        intro e' hee
        simp [k', hee]
      have hspaces : k'.spaces = update k.spaces e (some p) := by
        funext e'
        by_cases hee : e' = e
        · subst e'
          simp [Kernel.spaces, hself, he]
        · rw [update_of_ne hee]
          simp only [Kernel.spaces, hother e' hee]
      refine ⟨e, k', by simp [envAlloc, hhead, hsetup, k'], ⟨l', fl, ?_, ?_, rfl, rfl⟩, ?_, hfree, hother, rfl,
        p, List.mem_cons_self, hspaces, hadd⟩
      · have hnotMem : e ∉ fl := (List.nodup_cons.mp h.envs.chain.nodup).1
        have hne : ∀ e' ∈ fl, e' ≠ e := fun e' he' hee => hnotMem (hee ▸ he')
        refine ⟨by rw [hspaces]; exact hacc, ?_, ?_, ⟨?_, ?_, ?_⟩⟩
        · intro q
          rw [hspaces]
          have := hadd.refs q
          have := h.bound q
          change pageRefs vm' _ q ≤ 65535
          omega
        · rw [hspaces]
          refine h.tidy.of_words fun s hs hst => ?_
          by_cases hse : s.env = e
          · exact Or.inr (Or.inl (hadd.empty s hs hse hst))
          · exact Or.inl (hadd.others s hs hse)
        · exact h.envs.chain.2.congr fun e' he' => by rw [hother e' (hne e' he')]
        · intro e' he'
          rw [hother e' (hne e' he')]
          exact h.envs.free e' (List.mem_cons_of_mem e he')
        · intro e' he'
          by_cases hee : e' = e
          · subst e'
            exact ⟨p, by simp [hself]⟩
          · rw [Live, hother e' hee] at he'
            rw [hother e' hee]
            exact h.envs.pgdir e' he'
      · intro q hq
        exact List.mem_cons_of_mem p hq
      · exact ⟨he, by simp [hself]⟩

/-- What `env_free` does to a live environment. -/
structure Freed (k : Kernel) (fl : List Nat) (e : Nat) (k' : Kernel) : Prop where
  books : ∃ l', Books k' l' (e :: fl)
  others : ∀ e', e' ≠ e → k'.envs e' = k.envs e'
  status : (k'.envs e).envStatus = .free
  cpus : k'.cpus = k.cpus
  shrunk : Shrunk k.spaces k.vm k'.spaces k'.vm

lemma Books.envFree_spec {k : Kernel} (h : Books k l fl) (hl : Live k e) :
    ∃ k', envFree e k = some k' ∧ Freed k fl e k' := by
  obtain ⟨pd, hpd, hs⟩ := h.space hl
  obtain ⟨vm', l', hrun, hacc, hsh, -⟩ := h.vm.freeSpace hs fun p => by
    have := h.bound p
    omega
  let k' : Kernel := { k.setEnv e (freedEnv (k.envs e) k.envFreeList) with vm := vm', envFreeList := some e }
  have hself : k'.envs e = freedEnv (k.envs e) k.envFreeList := by simp [k']
  have hother : ∀ e', e' ≠ e → k'.envs e' = k.envs e' := by
    intro e' hee
    simp [k', hee]
  have hspaces : k'.spaces = update k.spaces e none := by
    funext e'
    by_cases hee : e' = e
    · subst e'
      rw [update_self]
      exact spaces_free (by rw [hself, freedEnv])
    · rw [update_of_ne hee]
      simp only [Kernel.spaces, hother e' hee]
  have hnotMem : e ∉ fl := fun hm => hl.2 (h.envs.free e hm).2
  have hne : ∀ e' ∈ fl, e' ≠ e := fun e' he' hee => hnotMem (hee ▸ he')
  refine ⟨k', ?_, ⟨l', ⟨by rw [hspaces]; exact hacc, ?_, ?_, ⟨⟨rfl, ?_⟩, ?_, ?_⟩⟩⟩, hother, by rw [hself, freedEnv], rfl,
    by rw [hspaces]; exact hsh⟩
  · simp [envFree, hpd, hrun, k']
  · intro q
    rw [hspaces]
    exact (hsh.refs q).trans (h.bound q)
  · rw [hspaces]
    exact hsh.tidy h.tidy
  · have hlink : (k'.envs e).envLink = k.envFreeList := by rw [hself, freedEnv]
    change Chain _ (k'.envs e).envLink fl
    rw [hlink]
    exact h.envs.chain.congr fun e' he' => by rw [hother e' (hne e' he')]
  · intro e' he'
    rcases List.mem_cons.mp he' with rfl | he'
    · exact ⟨hl.1, by rw [hself, freedEnv]⟩
    · rw [hother e' (hne e' he')]
      exact h.envs.free e' he'
  · intro e' he'
    have hee : e' ≠ e := by
      rintro rfl
      exact he'.2 (by rw [hself, freedEnv])
    rw [Live, hother e' hee] at he'
    rw [hother e' hee]
    exact h.envs.pgdir e' he'

end Jos
