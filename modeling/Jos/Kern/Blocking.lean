import Jos.Kern.Smp
import Jos.Kern.SyscallSpec

/-!
# Blocked receivers

An environment in `sys_ipc_recv` should not run before a message has arrived. It
is the switch that follows the call which may undo this: `env_run` makes the
environment it leaves runnable, whatever its status was. Where the CPU has nothing
else to run it halts instead, and the receiver stays blocked.
-/

namespace Jos
open LinkedList Relation Function

variable {k1 : Kernel} {q : Request}

def noneRunnable (k : Kernel) (e : Nat) : Bool :=
  (List.range nenv).all fun t => t == e || (k.envs t).envStatus != .runnable

/-- An accepted `sys_ipc_recv`. -/
def Receives (q : Request) : Prop :=
  Calls q.tf .ipcRecv ∧ ¬ (q.tf.tfRegs.regEdx.toNat < utop ∧ q.tf.tfRegs.regEdx.toNat % pgsize ≠ 0)

instance (q : Request) : Decidable (Receives q) := inferInstanceAs (Decidable (_ ∧ _))

/-- A `sys_ipc_try_send` to `R` that returns 0. -/
def SendsTo (R : Nat) (q : Request) : Prop :=
  Calls q.tf .ipcTrySend ∧ envid2env q.env q.tf.tfRegs.regEdx.toNat false q.kernel = some R ∧
    ∃ k', sendOutcome q.env q.tf q.kernel = .ret 0 k'

/-- The request does not set the status or the registers of `R` and does not destroy it. -/
def Spares (R : Nat) (q : Request) : Prop :=
  Calls q.tf .envSetStatus ∨ Calls q.tf .envDestroy ∨ Calls q.tf .envSetTrapframe →
    envid2env q.env q.tf.tfRegs.regEdx.toNat true q.kernel ≠ some R

/-- The request leaves the CPUs right; it is a `sys_ipc_recv` only when nothing else is runnable,
and it does not set the status of a receiver. -/
def keepsBlocked (q : Request) : Bool :=
  keepsCpus q && (!decide (Receives q) || noneRunnable q.kernel q.env) &&
    (!decide (Calls q.tf .envSetStatus) ||
      ofTarget (fun t => !(q.kernel.envs t).envIpcRecving)
        (envid2env q.env q.tf.tfRegs.regEdx.toNat true q.kernel))

structure Blocked (k : Kernel) (e : Nat) : Prop where
  status : (k.envs e).envStatus = .notRunnable
  away : ∀ cpu, k.curenv cpu ≠ some e

def Receivers (k : Kernel) : Prop :=
  ∀ e, Live k e → (k.envs e).envIpcRecving = true → Blocked k e

/-- The receivers while `cpu` is in the kernel: its own `curenv` may be one if nothing is runnable. -/
def Waits (cpu : Nat) (k : Kernel) : Prop :=
  ∀ e, Live k e → (k.envs e).envIpcRecving = true → (k.envs e).envStatus = .notRunnable ∧
    (∀ c, c ≠ cpu → k.curenv c ≠ some e) ∧
    (k.curenv cpu = some e → ∀ t, t < nenv → (k.envs t).envStatus ≠ .runnable)

section
variable {cpu cur : Nat} {tf : Trapframe} {k k' : Kernel} {fl : List Nat}

lemma Waits.congr (h : Waits cpu k) (hcpus : ∀ c, k'.curenv c = k.curenv c)
    (hst : ∀ e, (k'.envs e).envStatus = (k.envs e).envStatus)
    (hrecv : ∀ e, (k'.envs e).envIpcRecving = (k.envs e).envIpcRecving) : Waits cpu k' := by
  intro e he hr
  have hlive : Live k e := ⟨he.1, by rw [← hst]; exact he.2⟩
  obtain ⟨hs, hother, hown⟩ := h e hlive (by rw [← hrecv]; exact hr)
  refine ⟨by rw [hst, hs], fun c hc => by rw [hcpus]; exact hother c hc, ?_⟩
  intro hc t ht
  rw [hcpus] at hc
  rw [hst]
  exact hown hc t ht

lemma Waits.switch (h : Waits cpu k) (hfree : ∀ t, k.curenv cpu = some t → (k.envs t).envStatus ≠ .free)
    (hs : Switch cpu k k') : Receivers k' := by
  intro t ht hr
  cases hs with
  | halt =>
    obtain ⟨hst, hother, -⟩ := h t ht hr
    refine ⟨hst, fun c => ?_⟩
    by_cases hc : c = cpu
    · subst c
      simp [Kernel.curenv]
    · have := hother c hc
      simpa [Kernel.curenv, hc] using this
  | run e he =>
    have henv : ((switchTo cpu e k).envs t).envIpcRecving = (k.envs t).envIpcRecving := by
      rw [switchTo_envs]
      split
      · rename_i hte
        rw [hte]
        rfl
      · split <;> rfl
    rw [henv] at hr
    by_cases hte : t = e
    · -- the environment entered was running or runnable, so it is no receiver
      subst t
      have hst : (k.envs e).envStatus ≠ .free := by
        rcases he with hr | hr <;> simp [hr.2]
      obtain ⟨hs, -, -⟩ := h e ⟨ht.1, hst⟩ hr
      rcases he with hr | hr <;> simp [hs] at hr
    · by_cases hown : k.curenv cpu = some t
      · -- the environment left is a receiver only if there was none to enter
        have hrun : e < nenv ∧ (k.envs e).envStatus = .runnable :=
          he.resolve_left fun hr => hte (Option.some.inj (hown.symm.trans hr.1))
        exact absurd hrun.2 ((h t ⟨ht.1, hfree t hown⟩ hr).2.2 hown e hrun.1)
      · have hkeep : (switchTo cpu e k).envs t = k.envs t := by
          rw [switchTo_envs, if_neg hte, if_neg hown]
        have hlive : Live k t := by
          refine ⟨ht.1, ?_⟩
          rw [← hkeep]
          exact ht.2
        obtain ⟨hst, hother, -⟩ := h t hlive hr
        refine ⟨by rw [hkeep, hst], fun c => ?_⟩
        rw [switchTo_curenv]
        split
        · simpa using Ne.symm hte
        · rename_i hc
          exact hother c hc

section
variable (h : CpusRight k fl) (hcur : k.curenv cpu = some cur) (hrecv : Receivers k)
  (hok : keepsBlocked ⟨cur, tf, k⟩ = true)

/-- No action makes an environment a receiver but `sys_ipc_recv`, and a receiver that stays one
keeps its status. -/
theorem Act.receiving (hrecv : Receivers k) (hok : keepsBlocked ⟨cur, tf, k⟩)
    (hact : Act cpu cur tf k k1) {e : Nat} (he : Live k1 e) (hr : (k1.envs e).envIpcRecving) :
    (Live k e ∧ (k.envs e).envIpcRecving ∧ (k1.envs e).envStatus = (k.envs e).envStatus) ∨
      e = cur ∧ Receives ⟨cur, tf, k⟩ ∧ k1 = k.setEnv cur (blockEnv (k.envs cur) tf.tfRegs.regEdx.toNat) := by
  have hsame : ∀ t env, t ≠ e → k1.envs = update k.envs t env →
      Live k e ∧ (k.envs e).envIpcRecving ∧ (k1.envs e).envStatus = (k.envs e).envStatus := by
    intro t env hte heq
    have heq' : k1.envs e = k.envs e := by rw [heq, update_of_ne (Ne.symm hte)]
    rw [heq'] at hr
    refine ⟨⟨he.1, ?_⟩, hr, by rw [heq']⟩
    rw [← heq']
    exact he.2
  cases hact with
  | none => exact Or.inl ⟨he, hr, rfl⟩
  | upcall t f hno =>
    by_cases hte : t = e
    · subst t
      have hst : ((k.setEnv e { k.envs e with envPgfaultUpcall := f }).envs e).envStatus =
          (k.envs e).envStatus := by simp
      refine Or.inl ⟨⟨he.1, hst ▸ he.2⟩, ?_, hst⟩
      simpa using hr
    · exact Or.inl (hsame t _ hte rfl)
  | status t st hno ht hst =>
    by_cases hte : t = e
    · subst t
      have hr' : (k.envs e).envIpcRecving := by
        simpa using hr
      simp [keepsBlocked, hno, ht, ofTarget, hr'] at hok
    · exact Or.inl (hsame t _ hte rfl)
  | dying t hno ht hne hst =>
    by_cases hte : t = e
    · subst t
      have hr' : (k.envs e).envIpcRecving := by
        simpa using hr
      have hb := (hrecv e ⟨he.1, by simp [hst]⟩ hr').status
      simp [hst] at hb
    · exact Or.inl (hsame t _ hte rfl)
  | free t hno ht hne hst =>
    by_cases hte : t = e
    · subst t
      exact absurd (show _ = EnvStatus.free by simp) he.2
    · exact Or.inl (hsame t _ hte rfl)
  | exit =>
    by_cases hte : cur = e
    · subst e
      exact absurd (show _ = EnvStatus.free by simp) he.2
    · exact Or.inl (hsame cur _ hte rfl)
  | fork e' pd tf' hno hfree =>
    by_cases hte : e' = e
    · subst e'
      simp at hr
    · exact Or.inl (hsame e' _ hte rfl)
  | send t value perm hno ht hrt hret =>
    by_cases hte : t = e
    · subst t
      simp [deliver] at hr
    · exact Or.inl (hsame t _ hte rfl)
  | block hno hacc =>
    by_cases hte : cur = e
    · exact Or.inr ⟨hte.symm, ⟨hno, hacc⟩, rfl⟩
    · exact Or.inl (hsame cur _ hte rfl)

lemma Act.curenv (hact : Act cpu cur tf k k1) {c e : Nat} (hc : k1.curenv c = some e) : k.curenv c = some e := by
  cases hact with
  | exit =>
    by_cases hcc : c = cpu
    · subst c
      simp [Kernel.curenv] at hc
    · simpa [Kernel.curenv, hcc] using hc
  | _ => exact hc

include h hcur hrecv hok in
lemma Act.waits (hact : Act cpu cur tf k k1) : Waits cpu k1 := by
  intro e he hr
  rcases hact.receiving hrecv hok he hr with ⟨hl, hr', hst⟩ | ⟨rfl, hrv, rfl⟩
  · have hb := hrecv e hl hr'
    refine ⟨hst.trans hb.status, fun c _ hc => hb.away c (hact.curenv hc), ?_⟩
    intro hc
    exact absurd (hact.curenv hc) (hb.away cpu)
  · refine ⟨by simp, fun c hc => h.far_of_own hcur hc, ?_⟩
    intro _ t ht
    by_cases hte : t = e
    · subst t
      simp
    · have hnone : noneRunnable k e := by
        simp only [keepsBlocked, Bool.and_eq_true, Bool.or_eq_true, Bool.not_eq_true'] at hok
        exact hok.1.2.resolve_left (by simp [hrv])
      have hall := List.all_eq_true.mp hnone t (List.mem_range.mpr ht)
      simpa [hte] using hall

include h hcur hrecv hok in
lemma Handled.waits (hh : Handled cpu cur tf k k1) : Waits cpu k1 := by
  induction hh with
  | act hact => exact hact.waits h hcur hrecv hok
  | memory _ vm ih => exact ih.congr (fun _ => rfl) (fun _ => rfl) fun _ => rfl
  | saved _ t tf' _ _ ih =>
    refine ih.congr (fun _ => rfl) (fun e => ?_) fun e => ?_ <;>
    · by_cases het : e = t
      · subst e
        simp
      · simp [het]

end

lemma Receivers.waits (hrecv : Receivers k) : Waits cpu k := by
  intro e he hr
  have hb := hrecv e he hr
  exact ⟨hb.status, fun c _ => hb.away c, fun hc => absurd hc (hb.away cpu)⟩

lemma Silent.waits (hrecv : Receivers k) (hs : Silent cpu k k1) : Waits cpu k1 := by
  cases hs with
  | start hcur => exact hrecv.waits
  | wake hcur =>
    refine Waits.congr hrecv.waits (fun c => ?_) (fun _ => rfl) fun _ => rfl
    by_cases hc : c = cpu
    · subst c
      simp [Kernel.curenv]
    · simp [Kernel.curenv, hc]
  | reap e vm hcur hst =>
    intro t ht hr
    have hte : t ≠ e := by
      rintro rfl
      exact ht.2 (by simp)
    have hb : Blocked k t := by
      apply hrecv t
      · refine ⟨ht.1, ?_⟩
        simpa [hte] using ht.2
      · simpa [hte] using hr
    refine ⟨?_, fun c hc => ?_, fun hc => ?_⟩
    · simpa [hte] using hb.status
    · simpa [Kernel.curenv, hc] using hb.away c
    · simp [Kernel.curenv] at hc

lemma keepsCpus_of_keepsBlocked (h : keepsBlocked q) : keepsCpus q := by
  simp only [keepsBlocked, Bool.and_eq_true] at h
  exact h.1.1

lemma Entry.receivers (h : CpusRight k fl) (hrecv : Receivers k) {r : Option Request} (he : Entry cpu k r k')
    (hok : ∀ q, r = some q → keepsBlocked q) : Receivers k' := by
  obtain ⟨k1, fl', hserved, hin, hsw⟩ := he.inside h fun q hq => keepsCpus_of_keepsBlocked (hok q hq)
  have hwaits : Waits cpu k1 := by
    cases r with
    | none => exact Silent.waits hrecv hserved
    | some q =>
      obtain ⟨hright, hcur, -, -⟩ := he.arrived h
      obtain ⟨-, -, vm, hq⟩ := he.caller
      have hrecv' : Receivers q.kernel := by
        intro e hl hr
        have hst : (q.kernel.envs e).envStatus = (k.envs e).envStatus := by
          rw [hq]
          exact dispatched_status cpu q.env q.tf _ e
        have hb : Blocked k e := by
          apply hrecv e ⟨hl.1, hst ▸ hl.2⟩
          rwa [hq, dispatched_recving] at hr
        refine ⟨hst.trans hb.status, fun c => ?_⟩
        rw [hq, dispatched_curenv]
        exact hb.away c
      exact Handled.waits hright hcur hrecv' (hok q rfl) hserved
  exact hwaits.switch (fun t ht => (hin.cur t ht).2.1) hsw

section
variable {R : Nat}

def SameSlot (a b : Env) : Prop :=
  b.envStatus = a.envStatus ∧ b.envTf = a.envTf ∧ b.envIpcRecving = a.envIpcRecving

def Delivered (env : Env) : Prop :=
  env.envStatus = .runnable ∧ env.envIpcRecving = false ∧ env.envTf.tfRegs.regEax = 0

lemma deliver_delivered (env : Env) (from_ value perm : Nat) : Delivered (deliver env from_ value perm) :=
  ⟨rfl, rfl, rfl⟩

section
variable (h : CpusRight k fl) (hl : (k.envs R).envStatus ≠ .free) (hne : R ≠ cur) (hsp : Spares R ⟨cur, tf, k⟩)
include h hl hne hsp

lemma Act.slot {k1 : Kernel} (hact : Act cpu cur tf k k1) :
    SameSlot (k.envs R) (k1.envs R) ∨ SendsTo R ⟨cur, tf, k⟩ ∧ Delivered (k1.envs R) := by
  have hsame : ∀ t env, t ≠ R → k1.envs = update k.envs t env → SameSlot (k.envs R) (k1.envs R) := by
    intro t env hte heq
    rw [heq, update_of_ne (Ne.symm hte)]
    exact ⟨rfl, rfl, rfl⟩
  cases hact with
  | none => exact Or.inl ⟨rfl, rfl, rfl⟩
  | upcall t f hno =>
    by_cases hte : t = R
    · subst t
      exact Or.inl ⟨by simp, by simp, by simp⟩
    · exact Or.inl (hsame t _ hte rfl)
  | status t st hno ht hst =>
    refine Or.inl (hsame t _ ?_ rfl)
    rintro rfl
    exact hsp (Or.inl hno) ht
  | dying t hno ht _ hst =>
    refine Or.inl (hsame t _ ?_ rfl)
    rintro rfl
    exact hsp (Or.inr hno) ht
  | free t hno ht _ hst =>
    refine Or.inl (hsame t _ ?_ rfl)
    rintro rfl
    exact hsp (Or.inr hno) ht
  | exit => exact Or.inl (hsame cur _ (Ne.symm hne) rfl)
  | fork e pd tf' hno hfree =>
    refine Or.inl (hsame e _ ?_ rfl)
    rintro rfl
    cases fl with
    | nil => cases hfree.symm.trans (show k.envFreeList = Option.none from h.chain)
    | cons e' fl =>
      cases hfree.symm.trans h.chain.1
      exact hl (h.free e List.mem_cons_self)
  | send t value perm hno ht hrt hret =>
    by_cases hte : t = R
    · subst t
      refine Or.inr ⟨⟨hno, ht, hret⟩, ?_⟩
      simp only [Kernel.setEnv, update_self]
      exact deliver_delivered _ _ _ _
    · exact Or.inl (hsame t _ hte rfl)
  | block hno hacc => exact Or.inl (hsame cur _ (Ne.symm hne) rfl)

lemma Handled.slot {k1 : Kernel} (hh : Handled cpu cur tf k k1) :
    SameSlot (k.envs R) (k1.envs R) ∨ SendsTo R ⟨cur, tf, k⟩ ∧ Delivered (k1.envs R) := by
  induction hh with
  | act hact => exact hact.slot h hl hne hsp
  | memory _ vm ih => exact ih
  | saved _ t tf' ht _ ih =>
    have hte : R ≠ t := by
      rintro rfl
      rcases ht with ht | ⟨hno, ht⟩
      · exact hne ht
      · exact hsp (Or.inr (Or.inr hno)) ht
    simpa [hte] using ih

end

lemma Silent.slot (hd : (k.envs R).envStatus ≠ .dying) {k1 : Kernel} (hs : Silent cpu k k1) :
    k1.envs R = k.envs R := by
  cases hs with
  | reap e vm hcur hst =>
    have hne : R ≠ e := by
      rintro rfl
      exact hd hst
    simp [hne]
  | wake hcur => rfl
  | start hcur => rfl

/-- Leaving the kernel changes at most the status of `R`, to one that is not free and no zombie's. -/
theorem Switch.slot (hs : Switch cpu k k') (R : Nat) :
    (k'.envs R).envTf = (k.envs R).envTf ∧ (k'.envs R).envIpcRecving = (k.envs R).envIpcRecving ∧
      ((k'.envs R).envStatus = (k.envs R).envStatus ∨ (k'.envs R).envStatus = .running ∨
        (k'.envs R).envStatus = .runnable) := by
  cases hs with
  | halt => exact ⟨rfl, rfl, Or.inl rfl⟩
  | run e he =>
    rw [switchTo_envs]
    split
    · rename_i heq
      rw [heq]
      exact ⟨rfl, rfl, Or.inr (Or.inl rfl)⟩
    · split
      · exact ⟨rfl, rfl, Or.inr (Or.inr rfl)⟩
      · exact ⟨rfl, rfl, Or.inl rfl⟩

def Alive (k : Kernel) (R : Nat) : Prop := Live k R ∧ (k.envs R).envStatus ≠ .dying

lemma Switch.alive (hs : Switch cpu k k') (h : Alive k R) : Alive k' R := by
  rcases (hs.slot R).2.2 with hst | hst | hst
  · exact ⟨⟨h.1.1, by rw [hst]; exact h.1.2⟩, by rw [hst]; exact h.2⟩
  · exact ⟨⟨h.1.1, by simp [hst]⟩, by simp [hst]⟩
  · exact ⟨⟨h.1.1, by simp [hst]⟩, by simp [hst]⟩

/-- A kernel entry that is not a trap of `R` and spares it: `R` keeps its registers and its
receiving flag, or gets a message. -/
theorem Entry.slot (h : CpusRight k fl) {r : Option Request} (he : Entry cpu k r k')
    (hok : ∀ q, r = some q → keepsCpus q ∧ Spares R q ∧ q.env ≠ R) (hR : Alive k R) :
    Alive k' R ∧ (((k'.envs R).envTf = (k.envs R).envTf ∧
        (k'.envs R).envIpcRecving = (k.envs R).envIpcRecving) ∨
      (∃ q, r = some q ∧ SendsTo R q) ∧ (k'.envs R).envTf.tfRegs.regEax = 0) := by
  obtain ⟨k1, fl', hserved, hin, hsw⟩ := he.inside h fun q hq => (hok q hq).1
  obtain ⟨htf, hrecv, -⟩ := hsw.slot R
  have hkeep : SameSlot (k.envs R) (k1.envs R) ∨ (∃ q, r = some q ∧ SendsTo R q) ∧ Delivered (k1.envs R) := by
    cases r with
    | none =>
      have henv : k1.envs R = k.envs R := Silent.slot hR.2 hserved
      exact Or.inl ⟨by rw [henv], by rw [henv], by rw [henv]⟩
    | some q =>
      obtain ⟨-, hsp, hne⟩ := hok q rfl
      obtain ⟨hright, -, -, hst⟩ := he.arrived h
      obtain ⟨-, -, vm, hq⟩ := he.caller
      have henv : q.kernel.envs R = k.envs R := by
        rw [hq, dispatched_envs, if_neg (Ne.symm hne)]
      have hl : (q.kernel.envs R).envStatus ≠ .free := by
        rw [hst]
        exact hR.1.2
      rw [← henv]
      rcases Handled.slot hright hl (Ne.symm hne) hsp hserved with hs | ⟨hs, hd⟩
      · exact Or.inl hs
      · exact Or.inr ⟨⟨q, rfl, hs⟩, hd⟩
  rcases hkeep with hs | ⟨hs, hd⟩
  · refine ⟨hsw.alive ⟨⟨hR.1.1, by rw [hs.1]; exact hR.1.2⟩, by rw [hs.1]; exact hR.2⟩, Or.inl ?_⟩
    exact ⟨htf.trans hs.2.1, hrecv.trans hs.2.2⟩
  · refine ⟨hsw.alive ⟨⟨hR.1.1, by simp [hd.1]⟩, by simp [hd.1]⟩, Or.inr ⟨hs, ?_⟩⟩
    rw [htf]
    exact hd.2.2

lemma sendOutcome_ret (h : sendOutcome cur tf k = .ret 0 k1)
    (ht : envid2env cur tf.tfRegs.regEdx.toNat false k = some R) :
    (k.envs R).envIpcRecving ∧ Delivered (k1.envs R) := by
  unfold sendOutcome sysIpcTrySend at h
  rw [ht] at h
  simp only at h
  split at h
  · simp [eIpcNotRecv] at h
  · rename_i hrecv
    refine ⟨by simpa using hrecv, ?_⟩
    split at h
    · simp at h
    · rename_i r vm htr
      have hneg := ipcTransfer_error htr
      simp only [Outcome.ret.injEq] at h
      omega
    · simp only [Outcome.ret.injEq, true_and] at h
      subst h
      simp only [Kernel.setEnv, update_self]
      exact deliver_delivered _ _ _ _

lemma Entry.sent (he : Entry cpu k (some q) k') (hs : SendsTo R q) (hne : q.env ≠ R)
    (hR : R < nenv) : Alive k' R ∧ (k'.envs R).envTf.tfRegs.regEax = 0 := by
  obtain ⟨hno, ht, k1, hret⟩ := hs
  obtain ⟨-, hst, -, heax⟩ := sendOutcome_ret hret ht
  obtain ⟨ch, hexit⟩ := he.syscall hno.1
  simp only [Jos.syscall, hno.2] at hexit
  rw [show sysIpcTrySend q.env _ _ _ _ q.kernel = .ret 0 k1 from hret] at hexit
  have hsw := Exit.All.to trapReturn_switch hexit
  have henv : (setReturn k1 q.env 0).envs R = k1.envs R := by
    simp [setReturn, Ne.symm hne]
  refine ⟨hsw.alive ⟨⟨hR, by simp [henv, hst]⟩, by simp [henv, hst]⟩, ?_⟩
  rw [(hsw.slot R).1, henv]
  exact heax

end

end

section
variable {k k' : Kernel} {R : Nat}

def Orderly (k : Kernel) : Prop := (∃ fl, CpusRight k fl) ∧ Receivers k

section
variable (h : Orderly k)
include h

lemma Orderly.entry {cpu : Nat} {r : Option Request} (he : Entry cpu k r k') (hok : ∀ q, r = some q → keepsBlocked q) : Orderly k' := by
  obtain ⟨⟨fl, hright⟩, hrecv⟩ := h
  obtain ⟨fl', hleft⟩ := he.left hright fun q hq => keepsCpus_of_keepsBlocked (hok q hq)
  exact ⟨⟨fl', hleft.right⟩, he.receivers hright hrecv hok⟩

lemma Orderly.run (hrun : Run (fun q => keepsBlocked q) k k') : Orderly k' := by
  induction hrun with
  | refl => exact h
  | tail _ hstep ih =>
    obtain ⟨cpu, r, he, hok⟩ := hstep
    exact ih.entry he hok

end

end

end Jos
