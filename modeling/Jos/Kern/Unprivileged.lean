import Jos.Kern.SetTrapframe
import Jos.Kern.EnvIds

/-!
# User environments stay unprivileged

`env_tf` is what `env_pop_tf` loads, so a user environment must never have one with
CPL 0, interrupts off or an IOPL above 0. The trapframe is written by `env_alloc`,
`load_icode`, `sys_exofork`, `sys_env_set_trapframe`, trap entry, `sys_ipc_try_send`
and the page fault handler, and each of them keeps it low. The check of `sys_env_set_trapframe` returns
when it has destroyed another environment, and the stores that follow can give a free slot the status
of a live environment.
-/

namespace Jos
open Relation

structure Low (tf : Trapframe) : Prop where
  cpl : tf.tfCs &&& 3 = 3
  interrupts : tf.tfEflags &&& flIf = flIf
  iopl : tf.tfEflags &&& flIoplMask = 0

def SameFlags (a b : Trapframe) : Prop :=
  b.tfEflags &&& flIf = a.tfEflags &&& flIf ∧ b.tfEflags &&& flIoplMask = a.tfEflags &&& flIoplMask

def Unprivileged (k : Kernel) : Prop :=
  ∀ e, Live k e → (k.envs e).envType = .user → Low (k.envs e).envTf

/-- A kernel, and for each slot the trapframe with which its environment was last resumed. -/
structure Machine where
  kernel : Kernel
  resumed : Nat → Option Trapframe

def Machine.keep (m : Machine) (k : Kernel) : Machine where
  kernel := k
  resumed := fun e => if (k.envs e).envId = (m.kernel.envs e).envId then m.resumed e else none

def Machine.leave (m : Machine) (cpu : Nat) (k : Kernel) : Machine where
  kernel := k
  resumed := fun e => if k.curenv cpu = some e then some (k.envs e).envTf else (m.keep k).resumed e

def Saves (m : Machine) (q : Request) : Prop := ∃ tf, m.resumed q.env = some tf ∧ SameFlags tf q.tf

/-- `env_create`, and every entry of the kernel in which a system call comes from a user environment and
meets `P`. -/
inductive MachineStep (P : Request → Prop) (m : Machine) : Machine → Prop where
  | create {k : Kernel} (elf : Elf) (type : EnvType) (h : envCreate elf type m.kernel = some k) :
      MachineStep P m (m.keep k)
  | entry {r : Option Request} {k : Kernel} (cpu : Nat) (h : Entry cpu m.kernel r k)
      (hsaved : ∀ q, r = some q → Saves m q)
      (huser : ∀ q, r = some q → q.tf.tfTrapno.toNat = tSyscall → (m.kernel.envs q.env).envType = .user)
      (hmeets : ∀ q, r = some q → P q) : MachineStep P m (m.leave cpu k)

section
variable {a b : Trapframe}

lemma Low.of_flags (h : Low a) (hcs : b.tfCs = a.tfCs) (hflags : b.tfEflags = a.tfEflags) : Low b :=
  ⟨by rw [hcs]; exact h.cpl, by rw [hflags]; exact h.interrupts, by rw [hflags]; exact h.iopl⟩

lemma Low.saved (h : Low a) (hs : SameFlags a b) (hcs : b.tfCs &&& 3 = 3) : Low b :=
  ⟨hcs, hs.1.trans h.interrupts, hs.2.trans h.iopl⟩

lemma initTf_low : Low initTf := ⟨by decide, by decide, by decide⟩

end

/-- While `cpu` serves `cur`: the trapframe of `cur` is low too, although its slot may have been freed. -/
structure Serving (k0 : Kernel) (cpu cur : Nat) (k : Kernel) : Prop where
  low : ∀ e, e < nenv → (k.envs e).envType = .user → (k.envs e).envStatus ≠ .free ∨ e = cur → Low (k.envs e).envTf
  types : ∀ e, e < nenv → (k.envs e).envType = .user →
    (k0.envs e).envType = .user ∨ (k.envs e).envId ≠ (k0.envs e).envId
  list : ∀ e, k.envFreeList = some e → e < nenv
  links : ∀ e, e < nenv → ∀ t, (k.envs e).envLink = some t → t < nenv
  cpus : ∀ c e, k.curenv c = some e → e < nenv
  own : ∀ e, k.curenv cpu = some e → e = cur

structure Settled (k0 : Kernel) (cpu : Nat) (k : Kernel) : Prop where
  low : Unprivileged k
  types : ∀ e, e < nenv → (k.envs e).envType = .user →
    (k0.envs e).envType = .user ∨ (k.envs e).envId ≠ (k0.envs e).envId
  list : ∀ e, k.envFreeList = some e → e < nenv
  links : ∀ e, e < nenv → ∀ t, (k.envs e).envLink = some t → t < nenv
  cpus : ∀ c e, k.curenv c = some e → e < nenv
  running : ∀ e, k.curenv cpu = some e → (k.envs e).envStatus = .running

section
variable {k0 k k1 k' : Kernel} {cpu cur : Nat}

lemma setCpuStatus_curenv (k : Kernel) (cpu c : Nat) (st : CpuStatus) :
    (k.setCpuStatus cpu st).curenv c = k.curenv c := by
  by_cases hc : c = cpu
  · subst hc
    simp [Kernel.curenv]
  · simp [Kernel.curenv, hc]

namespace Serving
variable (h : Serving k0 cpu cur k)
include h

lemma memory (vm : Vm) : Serving k0 cpu cur { k with vm := vm } :=
  ⟨h.low, h.types, h.list, h.links, h.cpus, h.own⟩

lemma started (c : Nat) (st : CpuStatus) : Serving k0 cpu cur (k.setCpuStatus c st) := by
  refine ⟨h.low, h.types, h.list, h.links, ?_, ?_⟩
  · intro c' e
    rw [setCpuStatus_curenv]
    exact h.cpus c' e
  · intro e
    rw [setCpuStatus_curenv]
    exact h.own e

lemma write {e : Nat} {env : Env} (hid : env.envId = (k.envs e).envId)
    (htype : env.envType = (k.envs e).envType) (hlink : env.envLink = (k.envs e).envLink)
    (hlow : e < nenv → env.envType = .user → env.envStatus ≠ .free ∨ e = cur → Low env.envTf) :
    Serving k0 cpu cur (k.setEnv e env) := by
  refine ⟨?_, ?_, h.list, ?_, h.cpus, h.own⟩
  · intro t ht
    by_cases hte : t = e
    · subst hte
      simpa using hlow ht
    · simpa [hte] using h.low t ht
  · intro t ht
    by_cases hte : t = e
    · subst hte
      simpa [hid, htype] using h.types t ht
    · simpa [hte] using h.types t ht
  · intro t ht
    by_cases hte : t = e
    · subst hte
      simpa [hlink] using h.links t ht
    · simpa [hte] using h.links t ht

lemma target (hlt : cur < nenv) {envid t : Nat} {checkperm : Bool} (ht : envid2env cur envid checkperm k = some t) :
    t < nenv ∧ ((k.envs t).envType = .user → Low (k.envs t).envTf) := by
  have ht' : t < nenv := by
    rcases envid2env_cases ht with ⟨-, rfl⟩ | ⟨rfl, -⟩
    · exact hlt
    · exact Nat.mod_lt _ (by decide)
  exact ⟨ht', fun htype => h.low t ht' htype ((envid2env_target ht).symm)⟩

/-- Entering `e`, which is live or the caller, leaves the kernel with nothing but low user trapframes. -/
theorem switchTo {e : Nat} (he : e < nenv)
    (hlow : (k.envs e).envType = .user → Low (k.envs e).envTf) : Settled k0 cpu (switchTo cpu e k) := by
  have hfields : ∀ t, ((Jos.switchTo cpu e k).envs t).envId = (k.envs t).envId ∧
      ((Jos.switchTo cpu e k).envs t).envType = (k.envs t).envType ∧
      ((Jos.switchTo cpu e k).envs t).envLink = (k.envs t).envLink ∧
      ((Jos.switchTo cpu e k).envs t).envTf = (k.envs t).envTf := by
    intro t
    rw [switchTo_envs]
    split
    · rename_i hte
      subst hte
      exact ⟨rfl, rfl, rfl, rfl⟩
    · split <;> exact ⟨rfl, rfl, rfl, rfl⟩
  refine ⟨?_, ?_, ?_, ?_, ?_, ?_⟩
  · intro t hlive htype
    rw [(hfields t).2.1] at htype
    rw [(hfields t).2.2.2]
    by_cases hte : t = e
    · subst hte
      exact hlow htype
    · refine h.low t hlive.1 htype ?_
      by_cases hown : k.curenv cpu = some t
      · exact .inr (h.own t hown)
      · have hst := hlive.2
        rw [switchTo_envs, if_neg hte, if_neg hown] at hst
        exact .inl hst
  · intro t ht
    rw [(hfields t).1, (hfields t).2.1]
    exact h.types t ht
  · rw [switchTo_envFreeList]
    exact h.list
  · intro t ht
    rw [(hfields t).2.2.1]
    exact h.links t ht
  · intro c t hc
    rw [switchTo_curenv] at hc
    split at hc
    · cases hc
      exact he
    · exact h.cpus c t hc
  · intro t hc
    rw [switchTo_curenv, if_pos rfl] at hc
    cases hc
    rw [switchTo_envs, if_pos rfl]
    rfl

lemma switch (hs : Switch cpu k k') : Settled k0 cpu k' := by
  cases hs with
  | run e he =>
    have hlt : e < nenv := by
      rcases he with ⟨hc, -⟩ | ⟨hlt, -⟩
      · exact h.cpus cpu e hc
      · exact hlt
    refine h.switchTo hlt fun htype => h.low e hlt htype (.inl ?_)
    rcases he with ⟨-, hst⟩ | ⟨-, hst⟩ <;> simp [hst]
  | halt =>
    refine ⟨fun e hlive htype => h.low e hlive.1 htype (.inl hlive.2), h.types, h.list, h.links, ?_, ?_⟩
    · intro c e hc
      by_cases hcc : c = cpu
      · subst hcc
        simp [Kernel.curenv] at hc
      · refine h.cpus c e ?_
        simpa [Kernel.curenv, hcc] using hc
    · intro e hc
      simp [Kernel.curenv] at hc

lemma idle : Serving k0 cpu cur (k.setCurenv cpu none) := by
  refine ⟨h.low, h.types, h.list, h.links, ?_, ?_⟩
  · intro c e hc
    by_cases hcc : c = cpu
    · subst hcc
      simp [Kernel.curenv] at hc
    · refine h.cpus c e ?_
      simpa [Kernel.curenv, hcc] using hc
  · intro e hc
    simp [Kernel.curenv] at hc

lemma release {t : Nat} (ht : t < nenv) : Serving k0 cpu cur
    { k.setEnv t (freedEnv (k.envs t) k.envFreeList) with envFreeList := some t } := by
  refine ⟨?_, ?_, ?_, ?_, h.cpus, h.own⟩
  · intro e he
    by_cases het : e = t
    · subst het
      intro htype hst
      refine h.low e he (by simpa using htype) (.inr ?_) |>.of_flags ?_ ?_
      · simpa using hst
      · simp
      · simp
    · simpa [het] using h.low e he
  · intro e he
    by_cases het : e = t
    · subst het
      simpa using h.types e he
    · simpa [het] using h.types e he
  · intro e he
    cases he
    exact ht
  · intro e he e' hlink
    by_cases het : e = t
    · subst het
      exact h.list e' (by simpa using hlink)
    · exact h.links e he e' (by simpa [het] using hlink)

lemma self (hlt : cur < nenv) (htype : (k.envs cur).envType = .user) : Low (k.envs cur).envTf :=
  h.low cur hlt htype (.inr rfl)

end Serving

lemma nextEnvId_ne {old e : Nat} (he : e < nenv) : nextEnvId old e ≠ old := by
  have hor : ∀ m, 1024 * m ||| e = 1024 * m + e := fun m =>
    (Nat.two_pow_add_eq_or_of_lt (i := 10) he m).symm
  simp only [nextEnvId]
  split
  · rename_i hwrap
    rw [show 4096 = 1024 * 4 by rfl, hor]
    unfold nenv at he
    omega
  · rw [mul_comm, hor]
    unfold nenv at he
    omega

/-- The new environment gets an id that its slot did not have, and the trapframe of its parent. -/
lemma Serving.fork (h : Serving k0 cpu cur k) (hids : ∀ e, (k.envs e).envId = (k0.envs e).envId) {e pd : Nat}
    (hhead : k.envFreeList = some e) {tf : Trapframe} (htf : Low tf) : Serving k0 cpu cur
      { k.setEnv e { newEnv (k.envs e) pd (k.envs cur).envId e with envStatus := .notRunnable, envTf := tf }
        with envFreeList := (k.envs e).envLink } := by
  have he := h.list e hhead
  refine ⟨?_, ?_, h.links e he, ?_, h.cpus, h.own⟩
  · intro t ht
    by_cases hte : t = e
    · subst hte
      simp [htf]
    · simpa [hte] using h.low t ht
  · intro t ht
    by_cases hte : t = e
    · subst hte
      simp [← hids t, nextEnvId_ne ht]
    · simpa [hte] using h.types t ht
  · intro t ht
    by_cases hte : t = e
    · subst hte
      simpa using h.links t ht
    · simpa [hte] using h.links t ht

section
variable {tf : Trapframe} (hlt : cur < nenv) (h : Serving k0 cpu cur k)
include hlt h

end

lemma Serving.leaves (hlt : cur < nenv) (h : Serving k0 cpu cur k1) (hl : Departs cpu cur k k1 k') :
    Settled k0 cpu k' := by
  cases hl with
  | switch hs => exact h.switch hs
  | resume _ _ => exact h.switchTo hlt (h.self hlt)

end

structure Contained (m : Machine) : Prop where
  low : Unprivileged m.kernel
  resumed : ∀ e, e < nenv → (m.kernel.envs e).envType = .user → ∀ tf, m.resumed e = some tf → Low tf
  list : ∀ e, m.kernel.envFreeList = some e → e < nenv
  links : ∀ e, e < nenv → ∀ t, (m.kernel.envs e).envLink = some t → t < nenv
  cpus : ∀ c e, m.kernel.curenv c = some e → e < nenv

section
variable {m : Machine} {k : Kernel} {cpu : Nat}

lemma Contained.idle (h : Contained m) (hcur : m.kernel.curenv cpu = none) : Serving m.kernel cpu nenv m.kernel := by
  refine ⟨?_, fun e _ htype => .inl htype, h.list, h.links, h.cpus, ?_⟩
  · intro e he htype hst
    exact h.low e ⟨he, hst.resolve_right (ne_of_lt he)⟩ htype
  · intro e hc
    rw [hcur] at hc
    cases hc

lemma Entry.cpl {k k' : Kernel} {q : Request} (h : Entry cpu k (some q) k') : q.tf.tfCs &&& 3 = 3 := by
  cases h with
  | request e tf cr2 ch vm hcur hst huser hexit => exact huser

lemma Contained.leave (h : Contained m) (hs : Settled m.kernel cpu k) : Contained (m.leave cpu k) := by
  refine ⟨hs.low, ?_, hs.list, hs.links, hs.cpus⟩
  intro e he htype tf hres
  simp only [Machine.leave, Machine.keep] at htype hres
  split at hres
  · rename_i hc
    cases hres
    exact hs.low e ⟨he, by simp [hs.running e hc]⟩ htype
  · split at hres
    · rename_i hid
      have huser := (hs.types e he htype).resolve_right fun hne => hne hid
      exact h.resumed e he huser tf hres
    · cases hres

lemma Contained.create (h : Contained m) {elf : Elf} {type : EnvType}
    (hc : envCreate elf type m.kernel = some k) : Contained (m.keep k) := by
  obtain ⟨hcpus, e, pd, hhead, hlist, henvs⟩ := envCreate_envs hc
  have he := h.list e hhead
  let env := typedEnv (loadedEnv (newEnv (m.kernel.envs e) pd 0 e) elf.eEntry) type
  have hself : k.envs e = env := by rw [henvs, Function.update_self]
  have hother : ∀ t, t ≠ e → k.envs t = m.kernel.envs t := fun t ht => by rw [henvs, Function.update_of_ne ht]
  have hfields : env.envId = nextEnvId (m.kernel.envs e).envId e ∧ env.envLink = (m.kernel.envs e).envLink ∧
      (env.envType = .user → Low env.envTf) := by
    by_cases htype : type = .fs
    · simp only [env, typedEnv, if_pos htype]
      exact ⟨rfl, rfl, fun hu => by rw [htype] at hu; cases hu⟩
    · simp only [env, typedEnv, if_neg htype]
      exact ⟨rfl, rfl, fun _ => initTf_low.of_flags rfl rfl⟩
  refine ⟨?_, ?_, ?_, ?_, ?_⟩
  · intro t hlive htype
    change (k.envs t).envType = .user at htype
    change Low (k.envs t).envTf
    by_cases hte : t = e
    · subst hte
      rw [hself] at htype ⊢
      exact hfields.2.2 htype
    · have hlive' : (k.envs t).envStatus ≠ .free := hlive.2
      rw [hother t hte] at htype hlive' ⊢
      exact h.low t ⟨hlive.1, hlive'⟩ htype
  · intro t ht htype tf hres
    change (k.envs t).envType = .user at htype
    simp only [Machine.keep] at hres
    split at hres
    · rename_i hid
      by_cases hte : t = e
      · subst hte
        rw [hself, hfields.1] at hid
        exact absurd hid (nextEnvId_ne ht)
      · rw [hother t hte] at htype
        exact h.resumed t ht htype tf hres
    · cases hres
  · intro t ht
    change k.envFreeList = some t at ht
    rw [hlist] at ht
    exact h.links e he t ht
  · intro t ht t' hlink
    change (k.envs t).envLink = some t' at hlink
    by_cases hte : t = e
    · subst hte
      rw [hself, hfields.2.1] at hlink
      exact h.links t ht t' hlink
    · rw [hother t hte] at hlink
      exact h.links t ht t' hlink
  · intro c t hcur
    refine h.cpus c t ?_
    rw [Kernel.curenv, ← hcpus]
    exact hcur

end

section
variable {P : Request → Prop} {m : Machine} {k : Kernel}

/-- A system call of the environment in slot 0, which CPU 0 has just resumed. -/
lemma MachineStep.calls {tf : Trapframe} {k' : Kernel} (hcur : k.curenv 0 = some 0)
    (hst : (k.envs 0).envStatus = .running) (hflags : (k.envs 0).envTf.tfEflags = tf.tfEflags)
    (htype : (k.envs 0).envType = .user) (hmeets : P ⟨0, tf, dispatched 0 0 tf k⟩) (hcpl : tf.tfCs &&& 3 = 3)
    (hto : (trap 0 tf 0 0 k).To k') : MachineStep P (m.leave 0 k) ((m.leave 0 k).leave 0 k') := by
  refine .entry 0 (.request 0 tf 0 0 k.vm hcur (by simp [Machine.leave, hst]) hcpl hto) ?_ ?_ ?_
  · intro q hq
    cases hq
    refine ⟨(k.envs 0).envTf, if_pos hcur, ?_⟩
    rw [SameFlags, hflags]
    exact ⟨rfl, rfl⟩
  · intro q hq _
    cases hq
    exact htype
  · intro q hq
    cases hq
    exact hmeets

end

end Jos
