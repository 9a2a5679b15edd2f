import Jos.Kern.Blocking
import Jos.Kern.FailedCalls

/-!
# Messages are kept

A message sits in the slot of its receiver from the `sys_ipc_try_send` that returns
0 until the receiver's next `sys_ipc_recv`. Only `sys_ipc_recv` sets the receiving
flag, and no send succeeds without it, so nothing overwrites the message, not even
when the slot is freed and given to another environment.
-/

namespace Jos
open Relation Function

def Transfers (R : Nat) (q : Request) : Prop :=
  q.tf.tfRegs.regEbx.toNat < utop ∧ (q.kernel.envs R).envIpcDstva < utop

instance (R : Nat) (q : Request) : Decidable (Transfers R q) := inferInstanceAs (Decidable (_ ∧ _))

structure HoldsMessage (R : Nat) (q : Request) (env : Env) : Prop where
  sender : env.envIpcFrom = (q.kernel.envs q.env).envId
  value : env.envIpcValue = q.tf.tfRegs.regEcx.toNat
  perm : env.envIpcPerm = if Transfers R q then q.tf.tfRegs.regEdi.toNat else 0

/-- With the page at the sender's `srcva` mapped at the receiver's `dstva`, or with no page mapped at all. -/
structure PageSent (R : Nat) (q : Request) (vm : Vm) : Prop where
  mapped : Transfers R q → ∃ spd dpd p slot, (q.kernel.envs q.env).envPgdir = some spd ∧
    pageLookup spd q.tf.tfRegs.regEbx.toNat q.kernel.vm = some (some (p, slot)) ∧
    (q.kernel.envs R).envPgdir = some dpd ∧
    pageInsert dpd p (q.kernel.envs R).envIpcDstva q.tf.tfRegs.regEdi.toNat q.kernel.vm = some (0, vm)
  unmapped : ¬ Transfers R q → vm = q.kernel.vm

structure Keeps (a b : Env) : Prop where
  sender : b.envIpcFrom = a.envIpcFrom
  value : b.envIpcValue = a.envIpcValue
  perm : b.envIpcPerm = a.envIpcPerm
  recving : b.envIpcRecving = true → a.envIpcRecving = true

namespace Keeps
variable {a b c : Env}

lemma refl (a : Env) : Keeps a a := ⟨rfl, rfl, rfl, id⟩

lemma trans (h : Keeps a b) (h' : Keeps b c) : Keeps a c :=
  ⟨h'.sender.trans h.sender, h'.value.trans h.value, h'.perm.trans h.perm, fun hc => h.recving (h'.recving hc)⟩

lemma holds (h : Keeps a b) {R : Nat} {q : Request} (ha : HoldsMessage R q a) : HoldsMessage R q b :=
  ⟨h.sender.trans ha.sender, h.value.trans ha.value, h.perm.trans ha.perm⟩

end Keeps

section
variable {cpu : Nat} {k k' : Kernel}

lemma keeps_of_update {e : Nat} {env : Env} (heq : k'.envs = update k.envs e env)
    (h : Keeps (k.envs e) env) (R : Nat) : Keeps (k.envs R) (k'.envs R) := by
  rw [heq]
  by_cases hR : R = e
  · subst hR
    rw [update_self]
    exact h
  · rw [update_of_ne hR]
    exact .refl _

lemma switchTo_keeps (cpu e : Nat) (k : Kernel) (R : Nat) : Keeps (k.envs R) ((switchTo cpu e k).envs R) := by
  rw [switchTo_envs]
  split
  · rename_i hR
    subst hR
    exact ⟨rfl, rfl, rfl, id⟩
  · split
    · exact ⟨rfl, rfl, rfl, id⟩
    · exact .refl _

lemma Switch.keeps (h : Switch cpu k k') (R : Nat) : Keeps (k.envs R) (k'.envs R) := by
  cases h with
  | run e _ => exact switchTo_keeps cpu e k R
  | halt => exact .refl _

end

section
variable {cpu cur : Nat} {tf : Trapframe} {k : Kernel} {R : Nat}

/-- What a handler does to the message of `R`: keep it, replace it by a send, or wait for the next. -/
def MessageStep (cur : Nat) (tf : Trapframe) (k : Kernel) (R : Nat) (env : Env) : Prop :=
  Keeps (k.envs R) env ∨ SendsTo R ⟨cur, tf, k⟩ ∨ R = cur ∧ Receives ⟨cur, tf, k⟩

lemma Act.message {k1 : Kernel} (h : Act cpu cur tf k k1) (R : Nat) : MessageStep cur tf k R (k1.envs R) := by
  cases h with
  | none => exact .inl (.refl _)
  | upcall t f hno =>
    refine .inl (keeps_of_update rfl ?_ R)
    exact ⟨rfl, rfl, rfl, id⟩
  | status t st hno ht hst =>
    refine .inl (keeps_of_update rfl ?_ R)
    exact ⟨rfl, rfl, rfl, id⟩
  | dying t hno ht hne hst =>
    refine .inl (keeps_of_update rfl ?_ R)
    exact ⟨rfl, rfl, rfl, id⟩
  | free t hno ht hne hst =>
    refine .inl (keeps_of_update rfl ?_ R)
    exact ⟨rfl, rfl, rfl, id⟩
  | exit =>
    refine .inl (keeps_of_update rfl ?_ R)
    exact ⟨rfl, rfl, rfl, id⟩
  | fork e pd tf' hno hfree =>
    refine .inl (keeps_of_update rfl ?_ R)
    exact ⟨rfl, rfl, rfl, fun hr => absurd hr (by simp)⟩
  | send t value perm hno ht hrecv hret =>
    by_cases htR : t = R
    · subst htR
      exact .inr (.inl ⟨hno, ht, hret⟩)
    · left
      simpa [Ne.symm htR] using Keeps.refl (k.envs R)
  | block hno hok =>
    by_cases hR : R = cur
    · exact .inr (.inr ⟨hR, hno, hok⟩)
    · left
      simpa [hR] using Keeps.refl (k.envs R)

lemma MessageStep.then_keeps {a b : Env} (h : MessageStep cur tf k R a) (hk : Keeps a b) : MessageStep cur tf k R b :=
  h.imp_left fun hkeep => hkeep.trans hk

lemma Handled.message {k1 : Kernel} (h : Handled cpu cur tf k k1) (R : Nat) : MessageStep cur tf k R (k1.envs R) := by
  induction h with
  | act hact => exact hact.message R
  | memory _ _ ih => exact ih
  | saved _ t tf' _ _ ih =>
    refine ih.then_keeps (keeps_of_update rfl ?_ R)
    exact ⟨rfl, rfl, rfl, id⟩

lemma Finished.message {k' : Kernel} (h : Finished cpu cur tf k k') (R : Nat) : MessageStep cur tf k R (k'.envs R) := by
  obtain ⟨k1, hh, hl⟩ := h
  refine (hh.message R).then_keeps ?_
  cases hl with
  | switch hs => exact hs.keeps R
  | resume _ _ => exact switchTo_keeps cpu cur k1 R

end

section
variable {cur dst srcva perm : Nat} {k : Kernel}

lemma ipcTransfer_ok {perm' : Nat} {vm : Vm} (h : ipcTransfer cur dst srcva perm k = some (.ok perm', vm)) :
    (srcva < utop ∧ (k.envs dst).envIpcDstva < utop ∧ perm' = perm ∧
      ∃ spd dpd p slot, (k.envs cur).envPgdir = some spd ∧ pageLookup spd srcva k.vm = some (some (p, slot)) ∧
        (k.envs dst).envPgdir = some dpd ∧
        pageInsert dpd p (k.envs dst).envIpcDstva perm k.vm = some (0, vm)) ∨
    ¬ (srcva < utop ∧ (k.envs dst).envIpcDstva < utop) ∧ perm' = 0 ∧ vm = k.vm := by
  unfold ipcTransfer at h
  split at h
  · rename_i hva
    cases h
    exact .inr ⟨fun hlt => absurd hlt.1 (Nat.not_lt.mpr hva), rfl, rfl⟩
  · rename_i hva
    split at h
    · cases h
    · split at h
      · cases h
      · simp only [Option.bind_eq_bind, Option.bind_eq_some_iff] at h
        obtain ⟨spd, hspd, found, hlookup, h⟩ := h
        split at h
        · cases h
        · rename_i p q j
          split at h
          · cases h
          · split at h
            · rename_i hdst
              obtain ⟨dpd, hdpd, h⟩ := Option.bind_eq_some_iff.mp h
              obtain ⟨⟨r, vm'⟩, hins, h⟩ := Option.bind_eq_some_iff.mp h
              simp only at h
              split at h
              · cases h
              · rename_i hr
                cases h
                have hr0 : r = 0 := by
                  rcases pageInsert_cases hins with h0 | ⟨h4, -⟩
                  · exact h0
                  · exact absurd (by rw [h4]; decide) hr
                subst hr0
                exact .inl ⟨Nat.lt_of_not_le hva, hdst, rfl, spd, dpd, p, (q, j), hspd, hlookup, hdpd, hins⟩
            · rename_i hdst
              cases h
              exact .inr ⟨fun hlt => hdst hlt.2, rfl, rfl⟩

lemma ipcTransfer_error_vm {r : Int} {vm : Vm} (h : ipcTransfer cur dst srcva perm k = some (.error r, vm)) :
    vm = k.vm := by
  unfold ipcTransfer at h
  split at h
  · cases h
  · split at h
    · cases h
      rfl
    · split at h
      · cases h
        rfl
      · simp only [Option.bind_eq_bind, Option.bind_eq_some_iff] at h
        obtain ⟨spd, -, found, -, h⟩ := h
        split at h
        · cases h
          rfl
        · split at h
          · cases h
            rfl
          · split at h
            · obtain ⟨dpd, -, h⟩ := Option.bind_eq_some_iff.mp h
              obtain ⟨⟨r', vm'⟩, hins, h⟩ := Option.bind_eq_some_iff.mp h
              simp only at h
              split at h
              · rename_i hr
                cases h
                rcases pageInsert_cases hins with h0 | ⟨-, hvm, -⟩
                · omega
                · exact hvm
              · cases h
            · cases h

lemma sysIpcTrySend_fails {envid value : Nat} {r : Int} {k' : Kernel}
    (h : sysIpcTrySend cur envid value srcva perm k = .ret r k') (hr : r < 0) : k' = k := by
  unfold sysIpcTrySend at h
  split at h
  · cases h
    rfl
  · split at h
    · cases h
      rfl
    · split at h
      · cases h
      · rename_i htr
        cases h
        rw [ipcTransfer_error_vm htr]
      · cases h
        cases hr

end

section
variable {cpu R : Nat} {k k' : Kernel} {q : Request}

lemma sendOutcome_message {k1 : Kernel} (h : sendOutcome q.env q.tf q.kernel = .ret 0 k1)
    (ht : envid2env q.env q.tf.tfRegs.regEdx.toNat false q.kernel = some R) :
    (q.kernel.envs R).envIpcRecving ∧ (k1.envs R).envIpcRecving = false ∧
      HoldsMessage R q (k1.envs R) ∧ PageSent R q k1.vm := by
  obtain ⟨hrecv, -, hoff, -⟩ := sendOutcome_ret h ht
  refine ⟨hrecv, hoff, ?_⟩
  unfold sendOutcome sysIpcTrySend at h
  rw [ht] at h
  simp only [hrecv, Bool.not_true, Bool.false_eq_true, if_false] at h
  split at h
  · cases h
  · rename_i htr
    have hneg := ipcTransfer_error htr
    simp only [Outcome.ret.injEq] at h
    omega
  · rename_i htr
    simp only [Outcome.ret.injEq, true_and] at h
    subst h
    simp only [Kernel.setEnv, update_self]
    rcases ipcTransfer_ok htr with ⟨hsrc, hdst, rfl, hmapped⟩ | ⟨hno, rfl, rfl⟩
    · have hT : Transfers R q := ⟨hsrc, hdst⟩
      exact ⟨⟨rfl, rfl, by rw [if_pos hT]; rfl⟩, fun _ => hmapped, fun hn => absurd hT hn⟩
    · have hT : ¬ Transfers R q := hno
      exact ⟨⟨rfl, rfl, by rw [if_neg hT]; rfl⟩, fun hn => absurd hn hT, fun _ => rfl⟩

lemma Entry.arrival (he : Entry cpu k (some q) k') (R : Nat) :
    (q.kernel.envs R).envIpcRecving = (k.envs R).envIpcRecving ∧ Keeps (k.envs R) (q.kernel.envs R) := by
  obtain ⟨-, -, vm, hq⟩ := he.caller
  rw [hq]
  refine ⟨dispatched_recving .., ?_⟩
  rw [dispatched_envs]
  split
  · rename_i hR
    subst hR
    exact ⟨rfl, rfl, rfl, id⟩
  · exact .refl _

lemma Entry.message_sent (he : Entry cpu k (some q) k') (hs : SendsTo R q) :
    HoldsMessage R q (k'.envs R) ∧ (k'.envs R).envIpcRecving = false := by
  obtain ⟨hno, ht, k1, hret⟩ := hs
  obtain ⟨-, hoff, hmsg, -⟩ := sendOutcome_message hret ht
  obtain ⟨ch, hexit⟩ := he.syscall hno.1
  simp only [Jos.syscall, hno.2] at hexit
  rw [show sysIpcTrySend q.env _ _ _ _ q.kernel = .ret 0 k1 from hret] at hexit
  have hsw := Exit.All.to trapReturn_switch hexit
  have hkeeps : Keeps (k1.envs R) (k'.envs R) := by
    refine Keeps.trans (b := (setReturn k1 q.env 0).envs R) ?_ (hsw.keeps R)
    refine keeps_of_update rfl ?_ R
    exact ⟨rfl, rfl, rfl, id⟩
  refine ⟨hkeeps.holds hmsg, ?_⟩
  cases hr : (k'.envs R).envIpcRecving with
  | false => rfl
  | true => rw [hkeeps.recving hr] at hoff; cases hoff

/-- The request is no `sys_ipc_recv` of `R`, and no `sys_env_set_trapframe` that reaches the kernel's own
memory, where the messages are. -/
def NotReceiving (R : Nat) (q : Request) : Prop := ¬ (q.env = R ∧ Receives q) ∧ UserFrame q.tf

lemma Entry.keeps {r : Option Request} (he : Entry cpu k r k')
    (hsend : ∀ q, r = some q → ¬ SendsTo R q) (hrecv : ∀ q, r = some q → NotReceiving R q) :
    Keeps (k.envs R) (k'.envs R) := by
  cases r with
  | none =>
    obtain ⟨k1, hs, hsw⟩ := he.silent
    refine Keeps.trans ?_ (hsw.keeps R)
    cases hs with
    | reap e vm hcur hst =>
      refine keeps_of_update rfl ?_ R
      exact ⟨rfl, rfl, rfl, id⟩
    | wake hcur => exact .refl _
    | start hcur => exact .refl _
  | some q =>
    refine (he.arrival R).2.trans ?_
    rcases (he.finished (hrecv q rfl).2).message R with hk | hs | ⟨hR, hr⟩
    · exact hk
    · exact absurd hs (hsend q rfl)
    · exact absurd ⟨hR.symm, hr⟩ (hrecv q rfl).1

lemma Entry.not_sends (he : Entry cpu k (some q) k') (hoff : (k.envs R).envIpcRecving = false) : ¬ SendsTo R q := by
  rintro ⟨-, ht, k1, hret⟩
  have hon := (sendOutcome_message hret ht).1
  rw [(he.arrival R).1, hoff] at hon
  cases hon

lemma Run.keeps_message {env : Env} (hrun : Run (NotReceiving R) k k') (hk : Keeps env (k.envs R))
    (hoff : (k.envs R).envIpcRecving = false) : Keeps env (k'.envs R) ∧ (k'.envs R).envIpcRecving = false := by
  induction hrun with
  | refl => exact ⟨hk, hoff⟩
  | tail _ hstep ih =>
    obtain ⟨cpu, r, he, hnot⟩ := hstep
    obtain ⟨ihk, ihoff⟩ := ih
    have hkeeps := he.keeps (R := R) (fun q hq => Entry.not_sends (hq ▸ he) ihoff) hnot
    refine ⟨ihk.trans hkeeps, ?_⟩
    by_contra hon
    rw [Bool.not_eq_false] at hon
    rw [hkeeps.recving hon] at ihoff
    cases ihoff

end

/-- A message that arrives stays until the next `sys_ipc_recv` of its receiver, no second one arrives
before, and a send that fails changes nothing. -/
theorem messages_kept :
    (∀ cpu k q k1 R, Entry cpu k (some q) k1 → SendsTo R q →
      (∀ k', sendOutcome q.env q.tf q.kernel = .ret 0 k' → PageSent R q k'.vm) ∧
      ∀ k2, Run (NotReceiving R) k1 k2 → HoldsMessage R q (k2.envs R) ∧
        ∀ cpu' q' k3, Entry cpu' k2 (some q') k3 → ¬ SendsTo R q') ∧
    ∀ cur envid value srcva perm k r k', sysIpcTrySend cur envid value srcva perm k = .ret r k' → r < 0 →
      k' = k := by
  refine ⟨?_, fun cur envid value srcva perm k r k' h hr => sysIpcTrySend_fails h hr⟩
  intro cpu k q k1 R he hs
  refine ⟨fun k' hret => (sendOutcome_message hret hs.2.1).2.2.2, ?_⟩
  intro k2 hrun
  obtain ⟨hmsg, hoff⟩ := he.message_sent hs
  obtain ⟨hkeeps, hoff2⟩ := hrun.keeps_message (.refl _) hoff
  exact ⟨hkeeps.holds hmsg, fun cpu' q' k3 he' => he'.not_sends hoff2⟩

/-- The parent sends 7 to its child, the child resumes, and the parent sends again. -/
theorem messages_kept_child : ∃ k0 k k1 k2 k3 q q', Started k0 ∧ Run (fun _ => True) k0 k ∧
    Entry 0 k (some q) k1 ∧ SendsTo 1 q ∧ Run (NotReceiving 1) k1 k2 ∧ (k2.envs 1).envIpcValue = 7 ∧
    Entry 0 k2 (some q') k3 ∧ Calls q'.tf .ipcTrySend ∧ ¬ SendsTo 1 q' := by
  let recv := callFrame 13 0xFFFFFFFF 0 0 0 0
  let send := callFrame 12 4097 7 0xFFFFFFFF 0 0
  have htest : ((envCreate emptyElf .user smallKernel).any fun k0 =>
      (exec (fun _ => true) [.start 0, .trap 0 (callFrame 7 0 0 0 0 0), .trap 0 (callFrame 8 4097 2 0 0 0),
        .start 1, .trap 1 recv] k0).any fun k =>
        k.curenv 0 == some 0 && (k.envs 0).envStatus == .running &&
        envid2env 0 4097 false (dispatched 0 0 send k) == some 1 &&
        (sendOutcome 0 send (dispatched 0 0 send k)).value == some 0 &&
        (trap 0 send 0 0 k).check fun k1 => k1.curenv 1 == none &&
          (schedYield 1 k1).check fun k2 => k2.curenv 0 == some 0 && (k2.envs 0).envStatus == .running &&
            (trap 0 send 0 0 k2).check fun _ => true) = true := by
    decide +kernel
  obtain ⟨k0, hstart, hk0⟩ := exists_created htest
  obtain ⟨k, hexec, hk⟩ := (Option.any_eq_true _ _).mp hk0
  simp only [Bool.and_eq_true, beq_iff_eq] at hk
  obtain ⟨⟨⟨⟨hcur, hst⟩, htarget⟩, hvalue⟩, hexit⟩ := hk
  obtain ⟨k1, hto1, hk1⟩ := Exit.exists_to hexit
  simp only [Bool.and_eq_true, beq_iff_eq] at hk1
  obtain ⟨k2, hto2, hk2⟩ := Exit.exists_to hk1.2
  simp only [Bool.and_eq_true, beq_iff_eq] at hk2
  obtain ⟨k3, hto3, -⟩ := Exit.exists_to hk2.2
  have hsend : Entry 0 k _ k1 := .request 0 send 0 0 k.vm hcur (by simp [hst]) (callFrame_user ..) hto1
  have hsends : SendsTo 1 ⟨0, send, dispatched 0 0 send k⟩ := ⟨⟨rfl, rfl⟩, htarget, Outcome.exists_ret hvalue⟩
  have hrun : Run (NotReceiving 1) k1 k2 := .single ⟨1, none, .start hk1.1 hto2, by simp⟩
  have hagain : Entry 0 k2 _ k3 :=
    .request 0 send 0 0 k2.vm hk2.1.1 (by simp [hk2.1.2]) (callFrame_user ..) hto3
  have hkept := (messages_kept.1 0 k _ k1 1 hsend hsends).2 k2 hrun
  exact ⟨k0, k, k1, k2, k3, _, _, hstart,
    (exec_run hexec).mono fun _ _ => True.intro, hsend, hsends, hrun, hkept.1.value, hagain, ⟨rfl, rfl⟩,
    hkept.2 0 _ k3 hagain⟩

end Jos
