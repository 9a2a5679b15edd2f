import Jos.Kern.Footprint
import Jos.Kern.SetTrapframe
import Jos.Kern.Messages
import Jos.Kern.PageRuns

/-!
# Isolation of environments

A system call of `A` leaves every environment alone that is neither `A` nor one of
its children, but for a message that it sends and for the scheduler. What it writes
are free pages, the tables of its target and the trapframe that `sys_env_set_trapframe`
sanitises in place. The frame must be below `UTOP`: when the check in the target's table has
failed, the target is destroyed and the store goes wherever the pointer leads.
-/

namespace Jos

variable {A T envid p pd : Nat} {k : Kernel} {vm : Vm}

/-- Reference counts, free lists and tables are in order; nothing is assumed of the rest. -/
structure WellFormed (k : Kernel) (l fl : List Nat) : Prop where
  vm : Accounted k.vm k.spaces (fun _ => 0) l
  envs : EnvTable k fl

def Foreign (k : Kernel) (A B : Nat) : Prop :=
  Live k B ∧ B ≠ A ∧ (k.envs B).envParentId ≠ (k.envs A).envId

def Scheduled (cpu : Nat) (a b : Env) : Prop := b = a ∨ a.envStatus = .runnable ∧ b = enterEnv a cpu

structure LeftAlone (cpu : Nat) (k k' : Kernel) (B : Nat) : Prop where
  record : Scheduled cpu (k.envs B) (k'.envs B)
  pde : ∀ va, va < utop → k'.pde B va = k.pde B va
  pte : ∀ va, va < utop → k'.pte B va = k.pte B va

/-- Only the message, the status, the saved `eax` and the mapping at `env_ipc_dstva` differ. -/
structure GotMessage (A value : Nat) (k k' : Kernel) (B : Nat) : Prop where
  record : ∃ perm, k'.envs B = deliver (k.envs B) (k.envs A).envId value perm
  pde : ∀ va, va < utop →
    ¬ ((k.envs B).envIpcDstva < utop ∧ pdx va = pdx (k.envs B).envIpcDstva) → k'.pde B va = k.pde B va
  pte : ∀ va, va < utop →
    ¬ ((k.envs B).envIpcDstva < utop ∧ pdx va = pdx (k.envs B).envIpcDstva ∧
      ptx va = ptx (k.envs B).envIpcDstva) → k'.pte B va = k.pte B va

structure Isolated (cpu A value : Nat) (sent : Nat → Prop) (k k' : Kernel) : Prop where
  foreign : ∀ B, Foreign k A B → LeftAlone cpu k k' B ∨ sent B ∧ GotMessage A value k k' B
  upper : ∀ e pd, Live k e → Live k' e → (k.envs e).envPgdir = some pd → (k'.envs e).envPgdir = some pd ∧
    ∀ d, npdeUser ≤ d → d < npdentries → k'.vm.mem pd d = k.vm.mem pd d

/-- A `sys_ipc_try_send` to `B` that returns 0. -/
def Delivers (A no a1 a2 a3 a4 : Nat) (k : Kernel) (B : Nat) : Prop :=
  Sysno.decode no = some .ipcTrySend ∧ envid2env A a1 false k = some B ∧
    ∃ k', sysIpcTrySend A a1 a2 a3 a4 k = .ret 0 k'

/-- The CPU does not run into memory of which nothing is known, and leaves the kernel with `P`. -/
def Exit.Ends (P : Kernel → Prop) : Exit → Prop
  | .wild => False
  | x => x.All P

def Outcome.Ends {α : Type} (P : Kernel → Prop) : Outcome α → Prop
  | .ret _ k => P k
  | .exit x => x.Ends P

/-- The words of the tables of the environments in `F`, and of the kernel half of the directories that survive. -/
inductive Protected (F : Nat → Prop) (k k' : Kernel) : Nat → Nat → Prop where
  | dir {B p i : Nat} (hB : F B) (hs : k.spaces B = some p) (hi : i < npdeUser) : Protected F k k' p i
  | table {B d p i : Nat} (hB : F B) (hd : d < npdeUser) (hs : slotRef k.vm k.spaces (.pde B d) = some p)
      (hi : i < 1024) : Protected F k k' p i
  | upper {e p i : Nat} (he : Live k e) (he' : Live k' e) (hs : k.spaces e = some p) (hle : npdeUser ≤ i)
      (hi : i < npdentries) : Protected F k k' p i

section
variable {k k' : Kernel} {l fl : List Nat} {F : Nat → Prop} {p i : Nat}

lemma WellFormed.space (h : WellFormed k l fl) {e : Nat} (he : Live k e) :
    ∃ pd, (k.envs e).envPgdir = some pd ∧ k.spaces e = some pd := by
  obtain ⟨pd, hpd⟩ := h.envs.pgdir e he
  exact ⟨pd, hpd, (spaces_live he).trans hpd⟩

lemma Protected.slot (hF : ∀ B, F B → Live k B) (hp : Protected F k k' p i) :
    (∃ B, F B ∧ slotRef k.vm k.spaces (.pgdir B) = some p ∧ B < nenv ∧ i < npdeUser) ∨
      (∃ B d, F B ∧ slotRef k.vm k.spaces (.pde B d) = some p ∧ B < nenv ∧ d < npdeUser) ∨
      ∃ e, slotRef k.vm k.spaces (.pgdir e) = some p ∧ e < nenv ∧ npdeUser ≤ i := by
  cases hp with
  | dir hB hs hi => exact .inl ⟨_, hB, slotRef_pgdir hs, (hF _ hB).1, hi⟩
  | table hB hd hs hi => exact .inr (.inl ⟨_, _, hB, hs, (hF _ hB).1, hd⟩)
  | upper he he' hs hle hi => exact .inr (.inr ⟨_, slotRef_pgdir hs, he.1, hle⟩)

section
variable (h : WellFormed k l fl) (hF : ∀ B, F B → Live k B) (hp : Protected F k k' p i)
include h hF hp

end

end

section
variable {k k' : Kernel} {l fl : List Nat} {F : Nat → Prop} {B va : Nat}

section
variable (h : WellFormed k l fl) (hF : F B) (hB : Live k B) (hpd : (k'.envs B).envPgdir = (k.envs B).envPgdir)
include h hF hB hpd

section
variable (hmem : ∀ p i, Protected F k k' p i → k'.vm.mem p i = k.vm.mem p i) (hva : va < utop)
include hmem hva

lemma pde_spared :
    k'.pde B va = k.pde B va := by
  obtain ⟨pd, hs, hsp⟩ := h.space hB
  simp only [Kernel.pde, hpd, hs]
  exact hmem pd (pdx va) (.dir hF hsp (pdx_lt_npdeUser hva))

lemma pte_spared :
    k'.pte B va = k.pte B va := by
  obtain ⟨pd, hs, hsp⟩ := h.space hB
  simp only [Kernel.pte, pde_spared h hF hB hpd hmem hva]
  by_cases hp : present (k.pde B va)
  · rw [if_pos hp, if_pos hp]
    refine hmem _ _ (.table (d := pdx va) hF (pdx_lt_npdeUser hva) ?_ (ptx_lt va))
    rw [slotRef_pde hsp]
    have hpde : k.pde B va = k.vm.mem pd (pdx va) := by simp only [Kernel.pde, hs]
    rw [hpde] at hp ⊢
    exact target_eq_some.mpr ⟨hp, rfl⟩
  · rw [if_neg hp, if_neg hp]

end

end

lemma upper_spared {e d : Nat} (he : Live k e) (he' : Live k' e) (hs : (k.envs e).envPgdir = some pd)
    (hmem : ∀ p i, Protected F k k' p i → k'.vm.mem p i = k.vm.mem p i) (hle : npdeUser ≤ d)
    (hd : d < npdentries) : k'.vm.mem pd d = k.vm.mem pd d :=
  hmem pd d (.upper he he' ((spaces_live he).trans hs) hle hd)

end

/-- While `cpu` serves `A`: the records of the foreign environments and the protected words are as before. -/
structure Within (cpu A : Nat) (k k1 : Kernel) : Prop where
  records : ∀ B, Foreign k A B → k1.envs B = k.envs B
  pgdirs : ∀ e, Live k e → Live k1 e → (k1.envs e).envPgdir = (k.envs e).envPgdir
  memory : ∀ p i, Protected (Foreign k A) k k1 p i → k1.vm.mem p i = k.vm.mem p i
  own : ∀ c, k1.curenv cpu = some c → c = A ∧ (k1.envs A).envStatus ≠ .free

lemma Protected.mono {F : Nat → Prop} {k1 k2 : Kernel} {i : Nat}
    (h : Protected F k k1 p i) (hlive : ∀ e, Live k e → Live k1 e → Live k2 e) : Protected F k k2 p i := by
  cases h with
  | dir hB hs hi => exact .dir hB hs hi
  | table hB hd hs hi => exact .table hB hd hs hi
  | upper he he' hs hle hi => exact .upper he (hlive _ he he') hs hle hi

namespace Within
variable {cpu A : Nat} {l fl : List Nat} {k k1 k' : Kernel}

lemma switch (h : Within cpu A k k1) (hw : WellFormed k l fl) (value : Nat) (sent : Nat → Prop)
    (hs : Switch cpu k1 k') : Isolated cpu A value sent k k' := by
  have hpgdir : ∀ e, (k'.envs e).envPgdir = (k1.envs e).envPgdir := by
    intro e
    cases hs with
    | run t ht =>
      rw [switchTo_envs]
      split
      · rename_i het
        subst het
        rfl
      · split <;> rfl
    | halt => rfl
  have hvm : k'.vm = k1.vm := by
    cases hs with
    | run t ht =>
      simp only [switchTo, leaveCurenv]
      split <;> rfl
    | halt => rfl
  have hlive : ∀ e, e < nenv → Live k' e → Live k1 e := by
    intro e he hl
    cases hs with
    | run t ht =>
      refine ⟨he, ?_⟩
      by_cases het : e = t
      · subst het
        rcases ht with ⟨-, hst⟩ | ⟨-, hst⟩ <;> simp [hst]
      · by_cases hc : k1.curenv cpu = some e
        · obtain ⟨rfl, hst⟩ := h.own e hc
          exact hst
        · have hst := hl.2
          rw [switchTo_envs, if_neg het, if_neg hc] at hst
          exact hst
    | halt => exact hl
  have hrecord : ∀ B, Foreign k A B → Scheduled cpu (k.envs B) (k'.envs B) := by
    intro B hB
    cases hs with
    | run t ht =>
      have hcur : k1.curenv cpu ≠ some B := fun hc => hB.2.1 (h.own B hc).1
      rw [switchTo_envs]
      by_cases hBt : B = t
      · subst hBt
        rcases ht with ⟨hc, -⟩ | ⟨-, hst⟩
        · exact absurd hc hcur
        · rw [if_pos rfl]
          rw [h.records B hB] at hst ⊢
          exact .inr ⟨hst, rfl⟩
      · rw [if_neg hBt, if_neg hcur, h.records B hB]
        exact .inl rfl
    | halt => exact .inl (h.records B hB)
  have hmem : ∀ p i, Protected (Foreign k A) k k' p i → k'.vm.mem p i = k.vm.mem p i := by
    intro p i hp
    rw [hvm]
    exact h.memory p i (hp.mono fun e he he' => hlive e he.1 he')
  refine ⟨fun B hB => .inl ⟨hrecord B hB, fun va hva => ?_, fun va hva => ?_⟩, ?_⟩
  · refine pde_spared hw hB hB.1 ?_ hmem hva
    rw [hpgdir, h.records B hB]
  · refine pte_spared hw hB hB.1 ?_ hmem hva
    rw [hpgdir, h.records B hB]
  · intro e pd he he' hpd
    refine ⟨?_, fun d hle hd => upper_spared he he' hpd hmem hle hd⟩
    rw [hpgdir, h.pgdirs e he (hlive e he.1 he'), hpd]

lemma isolated (h : Within cpu A k k1) (hw : WellFormed k l fl) (value : Nat) (sent : Nat → Prop) :
    Isolated cpu A value sent k k1 := by
  refine ⟨fun B hB => .inl ⟨.inl (h.records B hB), fun va hva => ?_, fun va hva => ?_⟩, ?_⟩
  · exact pde_spared hw hB hB.1 (by rw [h.records B hB]) h.memory hva
  · exact pte_spared hw hB hB.1 (by rw [h.records B hB]) h.memory hva
  · intro e pd he he' hpd
    exact ⟨(h.pgdirs e he he').trans hpd, fun d hle hd => upper_spared he he' hpd h.memory hle hd⟩

lemma refl (hcur : k.curenv cpu = some A) (hA : Live k A) : Within cpu A k k := by
  refine ⟨fun _ _ => rfl, fun _ _ _ => rfl, fun _ _ _ => rfl, fun c hc => ?_⟩
  cases hcur.symm.trans hc
  exact ⟨rfl, hA.2⟩

lemma setVm (h : Within cpu A k k1) (hmem : ∀ p i, Protected (Foreign k A) k k1 p i → vm.mem p i = k1.vm.mem p i) :
    Within cpu A k { k1 with vm := vm } := by
  refine ⟨h.records, h.pgdirs, fun p i hp => ?_, h.own⟩
  have hp' : Protected (Foreign k A) k k1 p i := hp.mono fun _ _ he => he
  exact (hmem p i hp').trans (h.memory p i hp')

lemma write (h : Within cpu A k k1) {T : Nat} {env : Env} (hT : ¬ Foreign k A T)
    (hpd : env.envPgdir = (k1.envs T).envPgdir)
    (hst : env.envStatus = .free ↔ (k1.envs T).envStatus = .free) : Within cpu A k (k1.setEnv T env) := by
  have hfree : ∀ e, ((k1.setEnv T env).envs e).envStatus = .free ↔ (k1.envs e).envStatus = .free := by
    intro e
    by_cases heT : e = T
    · subst heT
      simpa using hst
    · simp [heT]
  have hlive : ∀ e, Live (k1.setEnv T env) e → Live k1 e :=
    fun e he => ⟨he.1, fun hf => he.2 ((hfree e).mpr hf)⟩
  refine ⟨?_, ?_, ?_, ?_⟩
  · intro B hB
    have hne : B ≠ T := fun heq => hT (heq ▸ hB)
    simpa [hne] using h.records B hB
  · intro e he he'
    have hk := h.pgdirs e he (hlive e he')
    by_cases heT : e = T
    · subst heT
      simpa [hpd] using hk
    · simpa [heT] using hk
  · intro p i hp
    exact h.memory p i (hp.mono fun e _ he => hlive e he)
  · intro c hc
    obtain ⟨rfl, hne⟩ := h.own c hc
    exact ⟨rfl, fun hf => hne ((hfree c).mp hf)⟩

end Within

def Outcome.StaysWithin {α : Type} (cpu A value : Nat) (sent : Nat → Prop) (k : Kernel) :
    Outcome α → Prop
  | .ret _ k1 => Within cpu A k k1
  | .exit x => x.Ends (Isolated cpu A value sent k)

lemma Outcome.StaysWithin.bind {α β : Type} {cpu value : Nat} {sent : Nat → Prop}
    {o : Outcome α} {f : α → Kernel → Outcome β} (h : o.StaysWithin cpu A value sent k)
    (hret : ∀ a k1, o = .ret a k1 → Within cpu A k k1 → (f a k1).StaysWithin cpu A value sent k) :
    (o.bind f).StaysWithin cpu A value sent k := by
  cases o with
  | ret a k1 => exact hret a k1 rfl h
  | exit x => exact h

section
variable {cpu A value : Nat} {sent : Nat → Prop} {l fl : List Nat} {k : Kernel} {F : Nat → Prop}

section
variable (hw : WellFormed k l fl)
include hw

end

variable (hw : WellFormed k l fl) (hcur : k.curenv cpu = some A) (hA : Live k A)
include hw hcur hA

end

section
variable {cpu A : Nat} {l fl : List Nat} {k : Kernel}

end

section
variable {cpu A value : Nat} {sent : Nat → Prop} {l fl : List Nat} {k : Kernel}

variable (hw : WellFormed k l fl) (hcur : k.curenv cpu = some A) (hA : Live k A)
include hw hcur hA

end

lemma Outcome.StaysWithin.all {α : Type} {cpu value : Nat} {sent : Nat → Prop} {l fl : List Nat}
    (hw : WellFormed k l fl) {o : Outcome α} (h : o.StaysWithin cpu A value sent k) :
    o.Ends (Isolated cpu A value sent k) := by
  cases o with
  | ret a k1 => exact Within.isolated h hw value sent
  | exit x => exact h

end Jos
