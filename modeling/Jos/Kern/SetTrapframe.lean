import Jos.Kern.RoundRobin
import Jos.Kern.Smp

/-!
# `sys_env_set_trapframe` through the dispatcher

The switch in `syscall` drops the result of `sys_env_set_trapframe` and falls
through to `-E_INVAL`, and the pointer is checked in the page table of the target
while it is dereferenced in the page table of the caller.
-/

namespace Jos

variable {e : Nat} {k1 : Kernel} {x : Exit}

/-- The handler gets past `user_mem_assert` and dereferences `tf`. -/
def Dereferences (cpu cur envid tf : Nat) (k : Kernel) : Prop :=
  ∃ e k₁, envid2env cur envid true k = some e ∧ userMemAssert cpu e tf 68 pteU k = .ret () k₁

/-- The target's trapframe is the sanitised copy of the one the caller's address space holds at `tf`. -/
def Replaced (cur envid tf : Nat) (k : Kernel) (o : Outcome Int) : Prop :=
  ∃ r k' e pd bs, o = .ret r k' ∧ envid2env cur envid true k = some e ∧ (k.envs cur).envPgdir = some pd ∧
    k.loadBytes pd tf 68 = some bs ∧ (k'.envs e).envTf = (decodeTrapframe bs).sanitised

structure Untouched (k k' : Kernel) : Prop where
  status : ∀ e, (k'.envs e).envStatus = (k.envs e).envStatus
  tf : ∀ e, (k'.envs e).envTf = (k.envs e).envTf
  pde : ∀ e va, k'.pde e va = k.pde e va
  pte : ∀ e va, k'.pte e va = k.pte e va

/-- The call ends with the caller freed for an invalid pointer and the CPU handed to the scheduler. -/
def CallerDestroyed (cpu cur tf : Nat) (k : Kernel) (o : Outcome Int) : Prop :=
  ∃ pd addr k₁, (k.envs cur).envPgdir = some pd ∧ userMemCheck pd tf 68 pteU k.vm = some (.fault addr) ∧
    envFree cur k = some k₁ ∧ o = .exit (schedYield cpu (k₁.setCurenv cpu none)) ∧ o ≠ .exit .panic ∧
    ∀ e, e ≠ cur → k₁.envs e = k.envs e

/-- What the call should do. The check destroys nobody but the caller, whatever the stores make of
the status afterwards. -/
structure TrapframeRight (cpu cur envid tf : Nat) (k : Kernel) (o : Outcome Int) : Prop where
  zero_iff : (∃ k', o = .ret 0 k') ↔ Replaced cur envid tf k o
  fails : (¬ ∃ k', o = .ret 0 k') →
    (∃ r k', o = .ret r k' ∧ r < 0 ∧ Untouched k k') ∨ CallerDestroyed cpu cur tf k o
  checked : Dereferences cpu cur envid tf k →
    ∃ pd, (k.envs cur).envPgdir = some pd ∧ userMemCheck pd tf 68 pteU k.vm = some .ok
  spares : ∀ r k', o = .ret r k' → ∀ e, e ≠ cur → (k'.envs e).envStatus = (k.envs e).envStatus
  destroys : ∀ e k₁, envid2env cur envid true k = some e → e ≠ cur →
    userMemAssert cpu e tf 68 pteU k = .ret () k₁ → (k₁.envs e).envStatus = (k.envs e).envStatus

/-- The call names no environment, or the caller names itself with a pointer it may not use. -/
def TrapframeRefused (cpu cur envid tf : Nat) (k : Kernel) : Prop :=
  envid2env cur envid true k = none ∨ envid2env cur envid true k = some cur ∧
    ∃ pd addr k₁, (k.envs cur).envPgdir = some pd ∧ userMemCheck pd tf 68 pteU k.vm = some (.fault addr) ∧
      envFree cur k = some k₁ ∧ schedYield cpu (k₁.setCurenv cpu none) ≠ .panic

section
variable {cpu cur envid tf : Nat} {k : Kernel}

lemma syscall_setTrapframe (ch a3 a4 a5 : Nat) : syscall cpu cur ch 9 envid tf a3 a4 a5 k =
    (sysEnvSetTrapframe cpu cur envid tf k).bind fun _ k => .ret (-eInval) k := rfl

lemma userMemAssert_pgdir (h : userMemAssert cpu e tf 68 pteU k = .ret () k1) :
    (∃ pd, (k.envs e).envPgdir = some pd ∧ userMemCheck pd tf 68 pteU k.vm = some .ok ∧ k1 = k) ∨
      envDestroy cpu e k = .ret () k1 := by
  unfold userMemAssert at h
  split at h
  · cases h
  · rename_i pd hpd
    split at h
    · cases h
    · rename_i hok
      cases h
      exact .inl ⟨pd, hpd, hok, rfl⟩
    · exact .inr h

lemma userMemAssert_exit (h : userMemAssert cpu e tf 68 pteU k = .exit x) :
    x = .panic ∨ ∃ pd addr, (k.envs e).envPgdir = some pd ∧
      userMemCheck pd tf 68 pteU k.vm = some (.fault addr) ∧ envDestroy cpu e k = .exit x := by
  unfold userMemAssert at h
  split at h
  · cases h
    exact .inl rfl
  · rename_i pd hpd
    split at h
    · cases h
      exact .inl rfl
    · cases h
    · rename_i addr hfault
      exact .inr ⟨pd, addr, hpd, hfault, h⟩

lemma envFree_others {k' : Kernel} (h : envFree e k = some k') {t : Nat} (ht : t ≠ e) : k'.envs t = k.envs t := by
  simp only [envFree, Option.bind_eq_bind, Option.bind_eq_some_iff] at h
  obtain ⟨pd, -, vm, -, heq⟩ := h
  cases heq
  simp [ht]

lemma envDestroy_exit (h : envDestroy cpu e k = .exit x) : x = .panic ∨ k.curenv cpu = some e ∧
      ∃ k1, envFree e k = some k1 ∧ x = schedYield cpu (k1.setCurenv cpu none) := by
  unfold envDestroy at h
  split at h
  · cases h
  · split at h
    · cases h
      exact .inl rfl
    · rename_i k1 hfree
      split at h
      · rename_i hcur
        cases h
        exact .inr ⟨envFree_curenv hfree cpu ▸ hcur, k1, hfree, rfl⟩
      · cases h

lemma envDestroy_caller (hcur : k.curenv cpu = some cur) : envDestroy cpu cur k = .exit .panic ∨
    ∃ k1, envFree cur k = some k1 ∧
      envDestroy cpu cur k = .exit (schedYield cpu (k1.setCurenv cpu none)) := by
  unfold envDestroy
  rw [if_neg (fun h => h.2 hcur)]
  split
  · exact .inl rfl
  · rename_i k1 hfree
    rw [if_pos (envFree_curenv hfree cpu ▸ hcur)]
    exact .inr ⟨k1, hfree, rfl⟩

lemma setTrapframe_dereferences (ht : envid2env cur envid true k = some e)
    (h : userMemAssert cpu e tf 68 pteU k = .ret () k1) :
    (∃ x, sysEnvSetTrapframe cpu cur envid tf k = .exit x ∧ (x = .panic ∨ x = .wild)) ∨
      ∃ pd frame k2, (k1.envs cur).envPgdir = some pd ∧ sanitiseTrapframe pd tf k1 = .ret frame k2 ∧
        sysEnvSetTrapframe cpu cur envid tf k = .ret 0 (k2.setTf e frame) := by
  simp only [sysEnvSetTrapframe, ht, h, Outcome.bind]
  split
  · exact .inl ⟨_, rfl, .inl rfl⟩
  · rename_i pd hpd
    cases hs : sanitiseTrapframe pd tf k1 with
    | exit x => exact .inl ⟨x, rfl, sanitiseTrapframe_exit hs⟩
    | ret frame k2 => exact .inr ⟨pd, frame, k2, hpd, hs, rfl⟩

lemma setTrapframe_exits (ht : envid2env cur envid true k = some e)
    (h : userMemAssert cpu e tf 68 pteU k = .exit x) : sysEnvSetTrapframe cpu cur envid tf k = .exit x := by
  simp only [sysEnvSetTrapframe, ht, h, Outcome.bind]

/-- An environment other than the caller that `env_destroy` returns from has another status afterwards. -/
theorem envDestroy_status (hlive : (k.envs e).envStatus ≠ .free)
    (h : envDestroy cpu e k = .ret () k1) : (k1.envs e).envStatus ≠ (k.envs e).envStatus := by
  unfold envDestroy at h
  split at h
  · rename_i hrun
    cases h
    simp [hrun.1]
  · split at h
    · cases h
    · rename_i k2 hfree
      split at h
      · cases h
      · cases h
        obtain ⟨vm, rfl⟩ := envFree_eq hfree
        simpa using hlive.symm

variable (hcur : k.curenv cpu = some cur)
include hcur

section
variable {o : Outcome Int} (ho : o = (sysEnvSetTrapframe cpu cur envid tf k).bind fun _ k => .ret (-eInval) k)
  (ht : envid2env cur envid true k = some e)
include ho ht

/-- The call never gets past the dereference the right way: it replaces the trapframe and reports an
error, or it destroys the target, or it panics. -/
theorem dereferences_wrong (h : userMemAssert cpu e tf 68 pteU k = .ret () k1) :
    ¬ TrapframeRight cpu cur envid tf k o := by
  intro hright
  rcases setTrapframe_dereferences ht h with ⟨x, hexit, hx⟩ | ⟨pd, frame, k2, hpd, hs, hret⟩
  · rw [hexit] at ho
    have ho : o = .exit x := ho
    rcases hright.fails (by rw [ho]; nofun) with ⟨r, k', hr, -⟩ | ⟨_, _, k2, -, -, -, hy, hne, -⟩
    · rw [ho] at hr
      cases hr
    · rcases hx with rfl | rfl
      · exact hne ho
      · refine schedYield_idle_ne_wild (k := k2.setCurenv cpu none) ?_ (Outcome.exit.inj (hy.symm.trans ho))
        simp [Kernel.curenv]
  · rw [hret] at ho
    rcases userMemAssert_pgdir h with ⟨_, -, -, rfl⟩ | hdestroy
    · obtain ⟨bs, _, _, _, hbs, rfl, -⟩ := sanitiseTrapframe_ret hs
      have hrep : Replaced cur envid tf k1 o :=
        ⟨_, _, e, pd, bs, ho, ht, hpd, hbs, by simp⟩
      obtain ⟨k', hk'⟩ := hright.zero_iff.mpr hrep
      rw [ho] at hk'
      cases hk'
    · have hne : e ≠ cur := by
        rintro rfl
        rcases envDestroy_caller hcur with hx | ⟨_, -, hx⟩ <;> rw [hx] at hdestroy <;> cases hdestroy
      exact envDestroy_status ((envid2env_target ht).resolve_left hne) hdestroy (hright.destroys e k1 ht hne h)

lemma exits_right (h : userMemAssert cpu e tf 68 pteU k = .exit x) (hright : TrapframeRight cpu cur envid tf k o) : TrapframeRefused cpu cur envid tf k := by
  rw [setTrapframe_exits ht h] at ho
  have ho : o = .exit x := ho
  rcases hright.fails (by rw [ho]; nofun) with ⟨r, k', hr, -⟩ | ⟨pd, addr, k1, hpd, hf, hfree, hy, hne, -⟩
  · rw [ho] at hr
    cases hr
  · have hx : x ≠ .panic := fun hx => hne (by rw [ho, hx])
    have he : e = cur := by
      rcases userMemAssert_exit h with hp | ⟨_, _, -, -, hd⟩
      · exact absurd hp hx
      · rcases envDestroy_exit hd with hp | ⟨hce, -⟩
        · exact absurd hp hx
        · rw [hcur] at hce
          cases hce
          rfl
    subst he
    exact .inr ⟨ht, pd, addr, k1, hpd, hf, hfree, fun hp => hne (by rw [hy, hp])⟩

end

lemma refused_right (ho : TrapframeRefused cpu cur envid tf k) : TrapframeRight cpu cur envid tf k
    ((sysEnvSetTrapframe cpu cur envid tf k).bind fun _ k => .ret (-eInval) k) := by
  rcases ho with hnone | ⟨ht, pd, addr, k1, hpd, hfault, hfree, hyield⟩
  · have ho : ((sysEnvSetTrapframe cpu cur envid tf k).bind fun _ k => .ret (-eInval) k) =
        (.ret (-eInval) k : Outcome Int) := by
      simp only [sysEnvSetTrapframe, hnone, Outcome.bind]
    rw [ho]
    refine ⟨⟨?_, ?_⟩, fun _ => .inl ⟨_, k, rfl, by decide, ?_⟩, ?_, ?_, fun e k1 he => ?_⟩
    · rintro ⟨_, h⟩
      exact absurd (Outcome.ret.inj h).1 (by decide)
    · rintro ⟨_, _, e, _, _, -, he, -⟩
      rw [hnone] at he
      cases he
    · exact ⟨fun _ => rfl, fun _ => rfl, fun _ _ => rfl, fun _ _ => rfl⟩
    · rintro ⟨e, _, he, -⟩
      rw [hnone] at he
      cases he
    · intro r k' hr e _
      cases hr
      rfl
    · cases hnone.symm.trans he
  · have hcheck : userMemCheck pd tf 68 (pteU ||| pteU) k.vm = some (.fault addr) := hfault
    have hassert : userMemAssert cpu cur tf 68 pteU k =
        .exit (schedYield cpu (k1.setCurenv cpu none)) := by
      unfold userMemAssert
      simp only [hpd, hcheck]
      rcases envDestroy_caller hcur with hp | ⟨k2, hk2, hd⟩
      · exfalso
        unfold envDestroy at hp
        rw [if_neg (fun h => h.2 hcur), hfree] at hp
        simp only [envFree_curenv hfree, hcur, if_true] at hp
        exact hyield (Outcome.exit.inj hp)
      · rw [hfree] at hk2
        cases hk2
        exact hd
    rw [setTrapframe_exits ht hassert]
    refine ⟨⟨?_, ?_⟩, fun _ => .inr ⟨pd, addr, k1, hpd, hfault, hfree, rfl, ?_, ?_⟩, ?_, ?_, fun e k2 he hne => ?_⟩
    · rintro ⟨_, h⟩
      cases h
    · rintro ⟨_, _, _, _, _, hr, -⟩
      cases hr
    · exact fun h => hyield (Outcome.exit.inj h)
    · exact fun e he => envFree_others hfree he
    · rintro ⟨e, k2, he, hret⟩
      rw [ht] at he
      cases he
      rw [hassert] at hret
      cases hret
    · intro r k' h
      cases h
    · cases ht.symm.trans he
      exact absurd rfl hne

end

/-- The call behaves as documented exactly when it is refused. -/
theorem set_trapframe_right_iff {cpu cur : Nat} {k : Kernel} (hcur : k.curenv cpu = some cur)
    (ch envid tf a3 a4 a5 : Nat) :
    TrapframeRight cpu cur envid tf k (syscall cpu cur ch 9 envid tf a3 a4 a5 k) ↔
      TrapframeRefused cpu cur envid tf k := by
  rw [syscall_setTrapframe]
  constructor
  · intro hright
    cases ht : envid2env cur envid true k with
    | none => exact .inl ht
    | some e =>
      cases h : userMemAssert cpu e tf 68 pteU k with
      | ret u k₁ => exact absurd hright (dereferences_wrong hcur rfl ht h)
      | exit x => exact exits_right hcur rfl ht h hright
  · exact refused_right hcur

/-- The first environment runs and names one that does not exist. -/
theorem set_trapframe_right_unknown : ∃ k0 k, Started k0 ∧ (schedYield 0 k0).To k ∧ k.curenv 0 = some 0 ∧
    TrapframeRight 0 0 4101 0xEEBFD000 k (syscall 0 0 0 9 4101 0xEEBFD000 0 0 0 k) := by
  have htest : ((envCreate emptyElf .user smallKernel).any fun k0 => (schedYield 0 k0).check fun k =>
      k.curenv 0 == some 0 && envid2env 0 4101 true k == none) = true := by decide +kernel
  obtain ⟨k0, hstart, hk0⟩ := exists_created htest
  obtain ⟨k, hto, hk⟩ := Exit.exists_to hk0
  simp only [Bool.and_eq_true, beq_iff_eq] at hk
  have hright := (set_trapframe_right_iff hk.1 0 4101 0xEEBFD000 0 0 0).mpr (.inl hk.2)
  exact ⟨k0, k, hstart, hto, hk.1, hright⟩

/-- The first environment sets its own trapframe from its stack page: the trapframe is replaced and
the call reports `-E_INVAL`. -/
theorem set_trapframe_reports_error : ∃ k0 k k', Started k0 ∧ (schedYield 0 k0).To k ∧ k.curenv 0 = some 0 ∧
    syscall 0 0 0 9 0 0xEEBFD000 0 0 0 k = .ret (-eInval) k' ∧ (k'.envs 0).envTf ≠ (k.envs 0).envTf ∧
    ¬ TrapframeRight 0 0 0 0xEEBFD000 k (syscall 0 0 0 9 0 0xEEBFD000 0 0 0 k) := by
  have htest : ((envCreate emptyElf .user smallKernel).any fun k0 => (schedYield 0 k0).check fun k =>
      match syscall 0 0 0 9 0 0xEEBFD000 0 0 0 k with
      | .ret r k' => r == -eInval && k.curenv 0 == some 0 && (k'.envs 0).envTf != (k.envs 0).envTf &&
          (k.envs 0).envPgdir == some 2 && (k.loadBytes 2 0xEEBFD000 68).any fun bs =>
            (k'.envs 0).envTf == (decodeTrapframe bs).sanitised
      | .exit _ => false) = true := by decide +kernel
  obtain ⟨k0, hstart, hk0⟩ := exists_created htest
  obtain ⟨k, hto, hk⟩ := Exit.exists_to hk0
  split at hk
  · rename_i r k' hcall
    simp only [Bool.and_eq_true, beq_iff_eq, bne_iff_ne, Option.any_eq_true] at hk
    obtain ⟨⟨⟨⟨rfl, hcur⟩, htf⟩, hpd⟩, bs, hbs, hframe⟩ := hk
    refine ⟨k0, k, k', hstart, hto, hcur, hcall, htf, ?_⟩
    intro hright
    obtain ⟨k₁, hzero⟩ := hright.zero_iff.mpr ⟨_, k', 0, 2, bs, hcall, rfl, hpd, hbs, hframe⟩
    rw [hcall] at hzero
    cases hzero
  · cases hk

end Jos
