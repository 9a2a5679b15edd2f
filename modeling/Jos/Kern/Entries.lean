import Jos.Kern.Boot
import Jos.Kern.Trap

/-!
# Kernel entries

What one kernel entry does to the environment table and to the CPUs, whatever it
does to memory: the request is handled, and then the CPU switches to an
environment or halts. Memory may change in any way between two entries, since
user code runs there.
-/

namespace Jos
open LinkedList Relation

variable {k k' : Kernel} {t : Nat}

def Calls (tf : Trapframe) (no : Sysno) : Prop :=
  tf.tfTrapno.toNat = tSyscall ∧ Sysno.decode tf.tfRegs.regEax.toNat = some no

instance (tf : Trapframe) (no : Sysno) : Decidable (Calls tf no) := inferInstanceAs (Decidable (_ ∧ _))

/-- The frame of a `sys_env_set_trapframe` lies below `ULIM`, where the kernel has none of its data. -/
def UserFrame (tf : Trapframe) : Prop := Calls tf .envSetTrapframe → tf.tfRegs.regEcx.toNat + 68 ≤ ulim

instance UserFrame.decidable (tf : Trapframe) : Decidable (UserFrame tf) := inferInstanceAs (Decidable (_ → _))

/-- The outcome of `sys_ipc_try_send` with the arguments in `tf`. -/
def sendOutcome (cur : Nat) (tf : Trapframe) (k : Kernel) : Outcome Int :=
  sysIpcTrySend cur tf.tfRegs.regEdx.toNat tf.tfRegs.regEcx.toNat tf.tfRegs.regEbx.toNat tf.tfRegs.regEdi.toNat k

/-- What handling the trap of `cur` does to the environment table of `k`, the state in which
`trap_dispatch` finds it. -/
inductive Act (cpu cur : Nat) (tf : Trapframe) (k : Kernel) : Kernel → Prop where
  | none : Act cpu cur tf k k
  | upcall (t f : Nat) (hno : Calls tf .envSetPgfaultUpcall) :
      Act cpu cur tf k (k.setEnv t { k.envs t with envPgfaultUpcall := f })
  | status (t : Nat) (st : EnvStatus) (hno : Calls tf .envSetStatus)
      (ht : envid2env cur tf.tfRegs.regEdx.toNat true k = some t) (hst : st = .runnable ∨ st = .notRunnable) :
      Act cpu cur tf k (k.setStatus t st)
  | dying (t : Nat) (hno : Calls tf .envDestroy ∨ Calls tf .envSetTrapframe)
      (ht : envid2env cur tf.tfRegs.regEdx.toNat true k = some t) (hne : t ≠ cur)
      (hst : (k.envs t).envStatus = .running) : Act cpu cur tf k (k.setStatus t .dying)
  | free (t : Nat) (hno : Calls tf .envDestroy ∨ Calls tf .envSetTrapframe)
      (ht : envid2env cur tf.tfRegs.regEdx.toNat true k = some t) (hne : t ≠ cur)
      (hst : (k.envs t).envStatus ≠ .running) :
      Act cpu cur tf k { k.setEnv t (freedEnv (k.envs t) k.envFreeList) with envFreeList := some t }
  | exit :
      Act cpu cur tf k
        ({ k.setEnv cur (freedEnv (k.envs cur) k.envFreeList) with envFreeList := some cur }.setCurenv cpu none)
  | fork (e pd : Nat) (tf' : Trapframe) (hno : Calls tf .exofork) (hfree : k.envFreeList = some e)
      (htf : tf' = initTf ∨ tf' = (k.envs cur).envTf) :
      Act cpu cur tf k
        { k.setEnv e { newEnv (k.envs e) pd (k.envs cur).envId e with
            envStatus := .notRunnable, envTf := { tf' with tfRegs := { tf'.tfRegs with regEax := 0 } } }
          with envFreeList := (k.envs e).envLink }
  | send (t value perm : Nat) (hno : Calls tf .ipcTrySend)
      (ht : envid2env cur tf.tfRegs.regEdx.toNat false k = some t) (hrecv : (k.envs t).envIpcRecving = true)
      (hret : ∃ k', sendOutcome cur tf k = .ret 0 k') :
      Act cpu cur tf k (k.setEnv t (deliver (k.envs t) (k.envs cur).envId value perm))
  | block (hno : Calls tf .ipcRecv)
      (hok : ¬ (tf.tfRegs.regEdx.toNat < utop ∧ tf.tfRegs.regEdx.toNat % pgsize ≠ 0)) :
      Act cpu cur tf k (k.setEnv cur (blockEnv (k.envs cur) tf.tfRegs.regEdx.toNat))

/-- The action, with memory changed in any way, and the saved registers of the caller, or of the target of
`sys_env_set_trapframe`, except for the privileged ones. -/
inductive Handled (cpu cur : Nat) (tf : Trapframe) (k : Kernel) : Kernel → Prop where
  | act {k1 : Kernel} (h : Act cpu cur tf k k1) : Handled cpu cur tf k k1
  | memory {k1 : Kernel} (h : Handled cpu cur tf k k1) (vm : Vm) : Handled cpu cur tf k { k1 with vm := vm }
  | saved {k1 : Kernel} (h : Handled cpu cur tf k k1) (t : Nat) (tf' : Trapframe)
      (ht : t = cur ∨ Calls tf .envSetTrapframe ∧ envid2env cur tf.tfRegs.regEdx.toNat true k = some t)
      (hflags : tf'.tfCs = (k1.envs t).envTf.tfCs ∧ tf'.tfEflags = (k1.envs t).envTf.tfEflags ∨
        ∃ frame : Trapframe, tf' = frame.sanitised) : Handled cpu cur tf k (k1.setTf t tf')

/-- The state in which `env_run` enters user mode. -/
def switchTo (cpu e : Nat) (k : Kernel) : Kernel :=
  let k := (leaveCurenv cpu k).setCurenv cpu (some e)
  k.setEnv e (enterEnv (k.envs e) cpu)

section
variable (cpu e : Nat) (k : Kernel)

lemma switchTo_curenv (c : Nat) : (switchTo cpu e k).curenv c = if c = cpu then some e else k.curenv c := by
  by_cases hc : c = cpu
  · subst c
    simp [switchTo, Kernel.curenv]
  · have hleave : (leaveCurenv cpu k).cpus = k.cpus := by
      unfold leaveCurenv
      split <;> rfl
    simp [switchTo, Kernel.curenv, hc, hleave]

lemma switchTo_envFreeList : (switchTo cpu e k).envFreeList = k.envFreeList := by
  simp only [switchTo, leaveCurenv]
  split <;> rfl

lemma switchTo_envs (t : Nat) : (switchTo cpu e k).envs t =
    if t = e then enterEnv (k.envs e) cpu else if k.curenv cpu = some t then { k.envs t with envStatus := .runnable }
    else k.envs t := by
  cases hc : k.curenv cpu with
  | none =>
    by_cases ht : t = e
    · subst t
      simp [switchTo, leaveCurenv, hc]
    · simp [switchTo, leaveCurenv, hc, ht]
  | some c =>
    by_cases ht : t = e
    · subst t
      by_cases htc : e = c
      · subst e
        simp [switchTo, leaveCurenv, hc, enterEnv]
      · simp [switchTo, leaveCurenv, hc, htc]
    · by_cases htc : t = c
      · subst t
        simp [switchTo, leaveCurenv, hc, ht]
      · have hct : c ≠ t := Ne.symm htc
        simp [switchTo, leaveCurenv, hc, ht, htc, hct]

end

inductive Switch (cpu : Nat) (k : Kernel) : Kernel → Prop where
  | run (e : Nat) (h : k.curenv cpu = some e ∧ (k.envs e).envStatus = .running ∨
      e < nenv ∧ (k.envs e).envStatus = .runnable) : Switch cpu k (switchTo cpu e k)
  | halt : Switch cpu k ((k.setCurenv cpu none).setCpuStatus cpu .halted)

section
variable {cpu e : Nat} {k : Kernel}

lemma envRun_switch (h : k.curenv cpu = some e ∧ (k.envs e).envStatus = .running ∨
    e < nenv ∧ (k.envs e).envStatus = .runnable) : (envRun cpu e k).All (Switch cpu k) := by
  simp only [envRun]
  split
  · trivial
  · exact .run e h

lemma schedYield_switch : (schedYield cpu k).All (Switch cpu k) := by
  simp only [schedYield]
  split
  · rename_i e hf
    exact envRun_switch (Or.inr (schedScan_found hf))
  · trivial
  · split
    · rename_i hcur
      exact envRun_switch (Or.inl hcur)
    · by_cases hn : noneLeft k
      · rw [schedHalt, if_pos hn]
        exact True.intro
      · rw [schedHalt, if_neg hn]
        exact .halt

lemma trapReturn_switch : (trapReturn cpu k).All (Switch cpu k) := by
  simp only [trapReturn]
  split
  · exact schedYield_switch
  · rename_i c hc
    split
    · rename_i hst
      exact envRun_switch (Or.inl ⟨hc, hst⟩)
    · exact schedYield_switch

end

/-- How `cpu` leaves the kernel. The page fault handler resumes the caller whatever its status is. -/
inductive Departs (cpu cur : Nat) (k k1 : Kernel) : Kernel → Prop where
  | switch {k' : Kernel} (h : Switch cpu k1 k') : Departs cpu cur k k1 k'
  | resume (hcur : k1.curenv cpu = some cur) (hst : (k1.envs cur).envStatus = (k.envs cur).envStatus) :
      Departs cpu cur k k1 (switchTo cpu cur k1)

lemma Departs.switches {cpu cur : Nat} {k k1 k' : Kernel} (h : Departs cpu cur k k1 k')
    (hrun : (k.envs cur).envStatus = .running) : Switch cpu k1 k' := by
  cases h with
  | switch hs => exact hs
  | resume hcur hst => exact .run cur (Or.inl ⟨hcur, hst.trans hrun⟩)

/-- The request has been handled, and the CPU has left the kernel. -/
def Finished (cpu cur : Nat) (tf : Trapframe) (k k' : Kernel) : Prop :=
  ∃ k1, Handled cpu cur tf k k1 ∧ Departs cpu cur k k1 k'

/-- On return the request has been handled; without return the CPU has also left the kernel. -/
def Outcome.Does {α : Type} (cpu cur : Nat) (tf : Trapframe) (k : Kernel) : Outcome α → Prop
  | .ret _ k1 => Handled cpu cur tf k k1
  | .exit x => x.All (Finished cpu cur tf k)

section
variable {cpu cur : Nat} {tf : Trapframe} {k : Kernel}

lemma Handled.refl : Handled cpu cur tf k k := .act .none

lemma Handled.yields {k1 : Kernel} (h : Handled cpu cur tf k k1) :
    (schedYield cpu k1).All (Finished cpu cur tf k) :=
  schedYield_switch.imp fun _ hs => ⟨k1, h, .switch hs⟩

lemma Handled.resumes {k1 : Kernel} (h : Handled cpu cur tf k k1) (hcur : k1.curenv cpu = some cur)
    (hst : (k1.envs cur).envStatus = (k.envs cur).envStatus) :
    (envRun cpu cur k1).All (Finished cpu cur tf k) := by
  simp only [envRun]
  split
  · trivial
  · exact ⟨k1, h, .resume hcur hst⟩

lemma Outcome.Does.bind {α β : Type} {o : Outcome α} {f : α → Kernel → Outcome β}
    (h : o.Does cpu cur tf k) (hret : ∀ a k1, Handled cpu cur tf k k1 → (f a k1).Does cpu cur tf k) :
    (o.bind f).Does cpu cur tf k := by
  cases o with
  | ret a k1 => exact hret a k1 h
  | exit x => exact h

lemma envFree_eq (h : envFree t k = some k') :
    ∃ vm, k' = { k.setEnv t (freedEnv (k.envs t) k.envFreeList) with vm := vm, envFreeList := some t } := by
  simp only [envFree, Option.bind_eq_bind, Option.bind_eq_some_iff, Option.some.injEq] at h
  obtain ⟨-, -, vm, -, rfl⟩ := h
  exact ⟨vm, rfl⟩

section
variable (hcur : k.curenv cpu = some cur)
include hcur in
lemma envDestroy_self (tf : Trapframe) :
    ∃ x, envDestroy cpu cur k = .exit x ∧ x.All (Finished cpu cur tf k) := by
  simp only [envDestroy, hcur, ne_eq, not_true_eq_false, and_false, if_false]
  cases hfree : envFree cur k with
  | none => exact ⟨.panic, rfl, trivial⟩
  | some k' =>
    obtain ⟨vm, rfl⟩ := envFree_eq hfree
    refine ⟨_, if_pos hcur, ?_⟩
    exact Handled.yields (.memory (.act .exit) vm)

include hcur in
lemma envDestroy_does (hno : Calls tf .envDestroy ∨ Calls tf .envSetTrapframe)
    (ht : envid2env cur tf.tfRegs.regEdx.toNat true k = some t) : (envDestroy cpu t k).Does cpu cur tf k := by
  by_cases hne : t = cur
  · subst t
    obtain ⟨x, hx, hall⟩ := envDestroy_self hcur tf
    rw [hx]
    exact hall
  · have hcne : k.curenv cpu ≠ some t := by simpa [hcur] using Ne.symm hne
    simp only [envDestroy]
    split
    · rename_i hst
      exact .act (.dying t hno ht hne hst.1)
    · rename_i hst
      have hst' : (k.envs t).envStatus ≠ .running := fun hr => hst ⟨hr, hcne⟩
      cases hfree : envFree t k with
      | none => trivial
      | some k' =>
        obtain ⟨vm, rfl⟩ := envFree_eq hfree
        simp only
        split
        · rename_i hc
          exact absurd hc hcne
        · exact .memory (.act (.free t hno ht hne hst')) vm

include hcur in
lemma userMemAssert_self (tf : Trapframe) (va len perm : Nat) : userMemAssert cpu cur va len perm k = .ret () k ∨
    ∃ x, userMemAssert cpu cur va len perm k = .exit x ∧ x.All (Finished cpu cur tf k) := by
  unfold userMemAssert
  split
  · exact Or.inr ⟨_, rfl, trivial⟩
  · split
    · exact Or.inr ⟨_, rfl, trivial⟩
    · exact Or.inl rfl
    · exact Or.inr (envDestroy_self hcur tf)

include hcur in
lemma userMemAssert_does {va len perm : Nat} (hno : Calls tf .envSetTrapframe)
    (ht : envid2env cur tf.tfRegs.regEdx.toNat true k = some t) :
    (userMemAssert cpu t va len perm k).Does cpu cur tf k := by
  unfold userMemAssert
  split
  · trivial
  · split
    · trivial
    · exact .refl
    · exact envDestroy_does hcur (Or.inr hno) ht

end

section
variable (hcur : k.curenv cpu = some cur)
include hcur in
lemma sysCputs_does (s len : Nat) : (sysCputs cpu cur s len k).Does cpu cur tf k := by
  unfold sysCputs
  rcases userMemAssert_self hcur tf s len pteU with h | ⟨x, h, hall⟩
  · rw [h]
    simp only [Outcome.bind]
    split
    · trivial
    · split
      · exact .refl
      · trivial
  · rw [h]
    exact hall

include hcur in
lemma sysEnvDestroy_does (hno : Calls tf .envDestroy) :
    (sysEnvDestroy cpu cur tf.tfRegs.regEdx.toNat k).Does cpu cur tf k := by
  unfold sysEnvDestroy
  split
  · exact .refl
  · rename_i t ht
    exact (envDestroy_does hcur (Or.inl hno) ht).bind fun _ _ h => h

lemma envAlloc_eq (parentId : Nat) (k : Kernel) : (∃ r vm, envAlloc parentId k = (.error r, { k with vm := vm })) ∨
    ∃ e pd vm, k.envFreeList = some e ∧ envAlloc parentId k =
      (.ok e, { k.setEnv e (newEnv (k.envs e) pd parentId e) with
        vm := vm, envFreeList := (k.envs e).envLink }) := by
  unfold envAlloc
  split
  · exact Or.inl ⟨_, k.vm, rfl⟩
  · rename_i e he
    split
    · exact Or.inl ⟨_, _, rfl⟩
    · exact Or.inr ⟨e, _, _, he, rfl⟩

lemma sysExofork_does (hno : Calls tf .exofork) : (sysExofork cur k).Does cpu cur tf k := by
  unfold sysExofork
  rcases envAlloc_eq (k.envs cur).envId k with ⟨r, vm, h⟩ | ⟨e, pd, vm, hfree, h⟩
  · rw [h]
    exact .memory .refl vm
  · rw [h]
    let tf' := ((k.setEnv e (newEnv (k.envs e) pd (k.envs cur).envId e)).envs cur).envTf
    have htf : tf' = initTf ∨ tf' = (k.envs cur).envTf := by
      by_cases hce : cur = e
      · exact Or.inl (by simp [tf', hce])
      · exact Or.inr (by simp [tf', hce])
    have hact : Act cpu cur tf k _ := .fork e pd tf' hno hfree htf
    have hdone := Handled.memory (.act hact) vm
    simp only [Outcome.Does, Kernel.setEnv, Function.update_self, Function.update_idem] at hdone ⊢
    exact hdone

lemma sysEnvSetStatus_does (hno : Calls tf .envSetStatus) (status : Nat) :
    (sysEnvSetStatus cur tf.tfRegs.regEdx.toNat status k).Does cpu cur tf k := by
  unfold sysEnvSetStatus
  split
  · exact .refl
  · rename_i t ht
    split
    · exact .act (.status t _ hno ht (Or.inl rfl))
    · split
      · exact .act (.status t _ hno ht (Or.inr rfl))
      · exact .refl

include hcur in
lemma sysEnvSetTrapframe_does (hno : Calls tf .envSetTrapframe) {va : Nat} (hlow : va + 68 ≤ ulim) :
    (sysEnvSetTrapframe cpu cur tf.tfRegs.regEdx.toNat va k).Does cpu cur tf k := by
  unfold sysEnvSetTrapframe
  split
  · exact .refl
  · rename_i t ht
    refine (userMemAssert_does hcur hno ht).bind fun _ k1 h => ?_
    split
    · trivial
    · rename_i pd _
      cases hs : sanitiseTrapframe pd va k1 with
      | ret frame k2 =>
        obtain ⟨_, _, _, -, hframe, -, -, -, rfl⟩ := sanitiseTrapframe_user hlow hs
        exact .saved (.memory h _) t frame (Or.inr ⟨hno, ht⟩) (Or.inr ⟨_, hframe⟩)
      | exit x =>
        rw [sanitiseTrapframe_low hlow hs]
        trivial

lemma sysEnvSetPgfaultUpcall_does (hno : Calls tf .envSetPgfaultUpcall) (envid func : Nat) :
    (sysEnvSetPgfaultUpcall cur envid func k).Does cpu cur tf k := by
  unfold sysEnvSetPgfaultUpcall
  split
  · exact .refl
  · exact .act (.upcall _ func hno)

/-- Nothing but memory changes. -/
def Outcome.Remaps {α : Type} (k : Kernel) : Outcome α → Prop
  | .ret _ k1 => ∃ vm, k1 = { k with vm := vm }
  | .exit x => x.All fun _ => False

lemma Outcome.Remaps.does {α : Type} {o : Outcome α} (h : o.Remaps k) : o.Does cpu cur tf k := by
  cases o with
  | ret a k1 =>
    obtain ⟨vm, rfl⟩ := h
    exact .memory .refl vm
  | exit x => exact h.imp fun _ hf => hf.elim

lemma sysPageAlloc_remaps (envid va perm : Nat) : (sysPageAlloc cur envid va perm k).Remaps k := by
  unfold sysPageAlloc
  repeat' split
  all_goals first | exact ⟨_, rfl⟩ | exact True.intro

lemma sysPageMap_remaps (srcenvid srcva dstenvid dstva perm : Nat) :
    (sysPageMap cur srcenvid srcva dstenvid dstva perm k).Remaps k := by
  unfold sysPageMap
  repeat' split
  all_goals first | exact ⟨_, rfl⟩ | exact True.intro

lemma sysPageUnmap_remaps (envid va : Nat) : (sysPageUnmap cur envid va k).Remaps k := by
  unfold sysPageUnmap
  repeat' split
  all_goals first | exact ⟨_, rfl⟩ | exact True.intro

lemma sysIpcTrySend_does (hno : Calls tf .ipcTrySend) : (sendOutcome cur tf k).Does cpu cur tf k := by
  cases ht : envid2env cur tf.tfRegs.regEdx.toNat false k with
  | none =>
    simp only [sendOutcome, sysIpcTrySend, ht]
    exact .refl
  | some t =>
  cases hrecv : (k.envs t).envIpcRecving with
  | false =>
    simp only [sendOutcome, sysIpcTrySend, ht, hrecv, Bool.not_false, if_true]
    exact .refl
  | true =>
  rcases htr : ipcTransfer cur t tf.tfRegs.regEbx.toNat tf.tfRegs.regEdi.toNat k with _ | ⟨r | perm, vm⟩
  · simp only [sendOutcome, sysIpcTrySend, ht, hrecv, htr, Bool.not_true, Bool.false_eq_true, if_false]
    exact True.intro
  · simp only [sendOutcome, sysIpcTrySend, ht, hrecv, htr, Bool.not_true, Bool.false_eq_true, if_false]
    exact .memory .refl vm
  · have hret : sendOutcome cur tf k = .ret 0 ({ k with vm := vm }.setEnv t
        (deliver (k.envs t) (k.envs cur).envId tf.tfRegs.regEcx.toNat perm)) := by
      simp only [sendOutcome, sysIpcTrySend, ht, hrecv, htr, Bool.not_true, Bool.false_eq_true, if_false]
    rw [hret]
    exact .memory (.act (.send t tf.tfRegs.regEcx.toNat perm hno ht hrecv ⟨_, hret⟩)) vm

lemma sysIpcRecv_does (hno : Calls tf .ipcRecv) :
    (sysIpcRecv cpu cur tf.tfRegs.regEdx.toNat k).Does cpu cur tf k := by
  unfold sysIpcRecv
  split
  · exact .refl
  · rename_i hok
    exact Handled.yields (.act (.block hno hok))

include hcur in
lemma syscall_does (ch : Nat) (htrap : tf.tfTrapno.toNat = tSyscall) (hframe : UserFrame tf) :
    (syscall cpu cur ch tf.tfRegs.regEax.toNat tf.tfRegs.regEdx.toNat tf.tfRegs.regEcx.toNat
      tf.tfRegs.regEbx.toNat tf.tfRegs.regEdi.toNat tf.tfRegs.regEsi.toNat k).Does cpu cur tf k := by
  cases hno : Sysno.decode tf.tfRegs.regEax.toNat with
  | none =>
    simp only [syscall, hno]
    exact .refl
  | some no =>
    have hcall : Calls tf no := ⟨htrap, hno⟩
    cases no <;> simp only [syscall, hno]
    case cputs => exact (sysCputs_does hcur _ _).bind fun _ _ h => h
    case cgetc => exact .refl
    case getenvid => exact .refl
    case envDestroy => exact sysEnvDestroy_does hcur hcall
    case pageAlloc => exact (sysPageAlloc_remaps _ _ _).does
    case pageMap => exact (sysPageMap_remaps _ _ _ _ _).does
    case pageUnmap => exact (sysPageUnmap_remaps _ _).does
    case exofork => exact sysExofork_does hcall
    case envSetStatus => exact sysEnvSetStatus_does hcall _
    case envSetTrapframe => exact (sysEnvSetTrapframe_does hcur hcall (hframe hcall)).bind fun _ _ h => h
    case envSetPgfaultUpcall => exact sysEnvSetPgfaultUpcall_does hcall _ _
    case yield => exact Handled.yields .refl
    case ipcTrySend => exact sysIpcTrySend_does hcall
    case ipcRecv => exact sysIpcRecv_does hcall

end

section
variable {cr2 : UInt32} {ch : Nat}

section
variable (hcur : k.curenv cpu = some cur)
include hcur

lemma userPageFault_does :
    (userPageFault cpu cur cr2 k).Does cpu cur tf k := by
  simp only [userPageFault]
  split
  · rcases userMemAssert_self hcur tf (utfAddr (k.envs cur).envTf.tfEsp.toNat) 56
      (pteP ||| pteU ||| pteW) with h | ⟨x, h, hall⟩
    · rw [h]
      simp only [Outcome.bind]
      split
      · trivial
      · split
        · trivial
        · rename_i vm _
          refine Handled.resumes (.saved (.memory .refl vm) cur _ (Or.inl rfl) (Or.inl ⟨rfl, rfl⟩)) hcur ?_
          simp
    · rw [h]
      exact hall
  · obtain ⟨x, hx, hall⟩ := envDestroy_self hcur tf
    rw [hx]
    exact hall

lemma dispatchUser_does (htf : (k.envs cur).envTf = tf) (hframe : UserFrame tf) :
    (dispatchUser cpu cur cr2 ch k).Does cpu cur tf k := by
  simp only [dispatchUser, htf]
  split
  · exact userPageFault_does hcur
  split
  · exact .refl
  split
  · rename_i htrap
    exact (syscall_does hcur ch htrap hframe).bind fun r k1 h => .saved h cur _ (Or.inl rfl) (Or.inl ⟨rfl, rfl⟩)
  split
  · exact .refl
  split
  · exact Handled.yields .refl
  split
  · exact .refl
  split
  · exact .refl
  · obtain ⟨x, hx, hall⟩ := envDestroy_self hcur tf
    rw [hx]
    exact hall

end

lemma afterDispatch_does {o : Outcome Unit} (h : o.Does cpu cur tf k) :
    (afterDispatch cpu o).All (Finished cpu cur tf k) := by
  cases o with
  | ret _ k1 => exact trapReturn_switch.imp fun k' hs => ⟨k1, h, .switch hs⟩
  | exit x => exact h

end

end

lemma dispatchKernel_switch {cpu : Nat} {tf : Trapframe} :
    (afterDispatch cpu (dispatchKernel cpu tf k)).All (Switch cpu k) := by
  simp only [dispatchKernel]
  split
  · trivial
  split
  · exact trapReturn_switch
  split
  · exact trapReturn_switch
  split
  · exact schedYield_switch
  split
  · exact trapReturn_switch
  split
  · exact trapReturn_switch
  · trivial

/-- The state in which `trap_dispatch` finds the trap `tf` of `e`. -/
def dispatched (cpu e : Nat) (tf : Trapframe) (k : Kernel) : Kernel :=
  (k.setCpuStatus cpu .started).setTf e tf

section
variable (cpu e : Nat) (tf : Trapframe) (k : Kernel)

lemma dispatched_curenv (c : Nat) : (dispatched cpu e tf k).curenv c = k.curenv c := by
  by_cases hc : c = cpu
  · subst c
    simp [dispatched, Kernel.curenv]
  · simp [dispatched, Kernel.curenv, hc]

lemma dispatched_envs (t : Nat) :
    (dispatched cpu e tf k).envs t = if t = e then { k.envs e with envTf := tf } else k.envs t := by
  by_cases ht : t = e
  · subst t
    simp [dispatched]
  · simp [dispatched, ht]

lemma dispatched_status (t : Nat) : ((dispatched cpu e tf k).envs t).envStatus = (k.envs t).envStatus := by
  rw [dispatched_envs]
  split
  · rename_i hte
    rw [hte]
  · rfl

lemma dispatched_link (t : Nat) : ((dispatched cpu e tf k).envs t).envLink = (k.envs t).envLink := by
  rw [dispatched_envs]
  split
  · rename_i hte
    rw [hte]
  · rfl

lemma dispatched_recving (t : Nat) : ((dispatched cpu e tf k).envs t).envIpcRecving = (k.envs t).envIpcRecving := by
  rw [dispatched_envs]
  split
  · rename_i hte
    rw [hte]
  · rfl

end

/-- A trap of an environment, and the state in which `trap_dispatch` finds it. -/
structure Request where
  env : Nat
  tf : Trapframe
  kernel : Kernel

/-- One kernel entry of `cpu`, atomic under the big kernel lock: a trap from user mode, which is
a request unless the environment is a zombie, an interrupt of the idle CPU, or its first entry
after boot. -/
inductive Entry (cpu : Nat) (k : Kernel) : Option Request → Kernel → Prop where
  | request {k' : Kernel} (e : Nat) (tf : Trapframe) (cr2 : UInt32) (ch : Nat) (vm : Vm)
      (hcur : k.curenv cpu = some e) (hst : (k.envs e).envStatus ≠ .dying) (huser : tf.tfCs &&& 3 = 3)
      (hexit : (trap cpu tf cr2 ch { k with vm := vm }).To k') :
      Entry cpu k (some ⟨e, tf, dispatched cpu e tf { k with vm := vm }⟩) k'
  | reap {k' : Kernel} (e : Nat) (tf : Trapframe) (cr2 : UInt32) (ch : Nat) (vm : Vm)
      (hcur : k.curenv cpu = some e) (hst : (k.envs e).envStatus = .dying) (huser : tf.tfCs &&& 3 = 3)
      (hexit : (trap cpu tf cr2 ch { k with vm := vm }).To k') : Entry cpu k none k'
  | interrupt {k' : Kernel} (tf : Trapframe) (cr2 : UInt32) (ch : Nat) (hcur : k.curenv cpu = none)
      (hkern : tf.tfCs &&& 3 ≠ 3) (hexit : (trap cpu tf cr2 ch k).To k') : Entry cpu k none k'
  | start {k' : Kernel} (hcur : k.curenv cpu = none) (hexit : (schedYield cpu k).To k') : Entry cpu k none k'

inductive Silent (cpu : Nat) (k : Kernel) : Kernel → Prop where
  | reap (e : Nat) (vm : Vm) (hcur : k.curenv cpu = some e) (hst : (k.envs e).envStatus = .dying) :
      Silent cpu k ({ (k.setCpuStatus cpu .started).setEnv e (freedEnv (k.envs e) k.envFreeList) with
        vm := vm, envFreeList := some e }.setCurenv cpu none)
  | wake (hcur : k.curenv cpu = none) : Silent cpu k (k.setCpuStatus cpu .started)
  | start (hcur : k.curenv cpu = none) : Silent cpu k k

def Run (P : Request → Prop) : Kernel → Kernel → Prop :=
  ReflTransGen fun k k' => ∃ cpu r, Entry cpu k r k' ∧ ∀ q, r = some q → P q

lemma Run.mono {P Q : Request → Prop} (hPQ : ∀ q, P q → Q q) (h : Run P k k') : Run Q k k' := by
  refine ReflTransGen.mono (fun k1 k2 hstep => ?_) k k' h
  obtain ⟨cpu, r, he, hP⟩ := hstep
  exact ⟨cpu, r, he, fun q hq => hPQ q (hP q hq)⟩

section
variable {cpu : Nat} {k k' : Kernel}

section
variable {q : Request} (h : Entry cpu k (some q) k')
include h

lemma Entry.caller : k.curenv cpu = some q.env ∧ (k.envs q.env).envStatus ≠ .dying ∧
      ∃ vm, q.kernel = dispatched cpu q.env q.tf { k with vm := vm } := by
  cases h with
  | request e tf cr2 ch vm hcur hst _ _ => exact ⟨hcur, hst, vm, rfl⟩

lemma Entry.dispatch : ∃ cr2 ch, (afterDispatch cpu (dispatchUser cpu q.env cr2 ch q.kernel)).To k' ∧
      (q.kernel.envs q.env).envTf = q.tf := by
  cases h with
  | request e tf cr2 ch vm hcur hst huser hexit =>
    have hcur' : ({ k with vm := vm }.setCpuStatus cpu .started).curenv cpu = some e := by
      simpa [Kernel.curenv] using hcur
    have hst' : (({ k with vm := vm }.setCpuStatus cpu .started).envs e).envStatus ≠ .dying := hst
    simp only [trap, huser, if_true, hcur', hst', if_false] at hexit
    exact ⟨cr2, ch, hexit, by simp [dispatched_envs]⟩

lemma Entry.syscall (htrap : q.tf.tfTrapno.toNat = tSyscall) :
    ∃ ch, (afterDispatch cpu ((Jos.syscall cpu q.env ch q.tf.tfRegs.regEax.toNat q.tf.tfRegs.regEdx.toNat
      q.tf.tfRegs.regEcx.toNat q.tf.tfRegs.regEbx.toNat q.tf.tfRegs.regEdi.toNat q.tf.tfRegs.regEsi.toNat
      q.kernel).bind fun r k => .ret () (setReturn k q.env r))).To k' := by
  obtain ⟨cr2, ch, hexit, htf⟩ := h.dispatch
  have hne : tSyscall ≠ tPgflt ∧ tSyscall ≠ tBrkpt := by decide
  simp only [dispatchUser, htf, htrap, hne.1, hne.2, if_false, if_true] at hexit
  exact ⟨ch, hexit⟩

lemma Entry.finished (hframe : UserFrame q.tf) : Finished cpu q.env q.tf q.kernel k' := by
  obtain ⟨hcur, -, vm, hq⟩ := h.caller
  obtain ⟨cr2, ch, hexit, htf⟩ := h.dispatch
  have hcur' : q.kernel.curenv cpu = some q.env := by
    rw [hq, dispatched_curenv]
    exact hcur
  exact Exit.All.to (afterDispatch_does (dispatchUser_does hcur' htf hframe)) hexit

lemma Entry.handled (hrun : (k.envs q.env).envStatus = .running) (hframe : UserFrame q.tf) :
    ∃ k1, Handled cpu q.env q.tf q.kernel k1 ∧ Switch cpu k1 k' := by
  obtain ⟨-, -, vm, hq⟩ := h.caller
  obtain ⟨k1, hh, hl⟩ := h.finished hframe
  refine ⟨k1, hh, hl.switches ?_⟩
  rw [hq, dispatched_status]
  exact hrun

end

lemma Entry.silent (h : Entry cpu k none k') : ∃ k1, Silent cpu k k1 ∧ Switch cpu k1 k' := by
  cases h with
  | reap e tf cr2 ch vm hcur hst huser hexit =>
    have hcur' : ({ k with vm := vm }.setCpuStatus cpu .started).curenv cpu = some e := by
      simpa [Kernel.curenv] using hcur
    have hst' : (({ k with vm := vm }.setCpuStatus cpu .started).envs e).envStatus = .dying := hst
    simp only [trap, huser, if_true, hcur', hst'] at hexit
    split at hexit
    · cases hexit
    · rename_i k1 hfree
      obtain ⟨vm', rfl⟩ := envFree_eq hfree
      exact ⟨_, .reap e vm' hcur hst, Exit.All.to schedYield_switch hexit⟩
  | interrupt tf cr2 ch hcur hkern hexit =>
    simp only [trap, hkern, if_false] at hexit
    exact ⟨_, .wake hcur, Exit.All.to dispatchKernel_switch hexit⟩
  | start hcur hexit => exact ⟨k, .start hcur, Exit.All.to schedYield_switch hexit⟩

end

inductive Event where
  | start (cpu : Nat)
  | trap (cpu : Nat) (tf : Trapframe)

def Event.exec (ok : Request → Bool) (k : Kernel) : Event → Option Kernel
  | .start cpu => if k.curenv cpu = none then (schedYield cpu k).left else none
  | .trap cpu tf =>
    match k.curenv cpu with
    | none => none
    | some e =>
      if (k.envs e).envStatus = .dying ∨ tf.tfCs &&& 3 ≠ 3 then none
      else if ok ⟨e, tf, dispatched cpu e tf k⟩ then (Jos.trap cpu tf 0 0 k).left else none

def exec (ok : Request → Bool) : List Event → Kernel → Option Kernel
  | [], k => some k
  | ev :: evs, k => (ev.exec ok k).bind (exec ok evs)

lemma Event.exec_entry {ok : Request → Bool} {ev : Event} (h : ev.exec ok k = some k') :
    ∃ cpu r, Entry cpu k r k' ∧ ∀ q, r = some q → ok q := by
  cases ev with
  | start cpu =>
    simp only [Event.exec] at h
    split at h
    · rename_i hcur
      exact ⟨cpu, none, .start hcur (Exit.to_of_left h), by simp⟩
    · simp at h
  | trap cpu tf =>
    simp only [Event.exec] at h
    split at h
    · simp at h
    · rename_i e hcur
      split at h
      · simp at h
      · rename_i hbad
        simp only [not_or, not_not] at hbad
        split at h
        · rename_i hok
          refine ⟨cpu, _, .request e tf 0 0 k.vm hcur hbad.1 hbad.2 (Exit.to_of_left h), ?_⟩
          rintro q ⟨rfl⟩
          exact hok
        · simp at h

lemma exec_run {ok : Request → Bool} {evs : List Event} (h : exec ok evs k = some k') :
    Run (fun q => ok q) k k' := by
  induction evs generalizing k with
  | nil =>
    cases h
    exact .refl
  | cons ev evs ih =>
    obtain ⟨k1, hev, hrest⟩ := Option.bind_eq_some_iff.mp h
    exact .head (Event.exec_entry hev) (ih hrest)

end Jos
