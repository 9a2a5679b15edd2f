import Jos.Kern.Entries

/-!
# One environment, one CPU

Which CPU an environment runs on is recorded only in `env_status`. As long as no
request takes an environment away from the CPU that runs it, every CPU's `curenv`
is its own, and a zombie never runs again.
-/

namespace Jos
open LinkedList Relation Function

variable {k k' k1 : Kernel} {t : Nat}

def EnvStatus.onCpu : EnvStatus → Bool
  | .running => true
  | .dying => true
  | _ => false

def ofTarget (f : Nat → Bool) : Option Nat → Bool
  | none => true
  | some t => f t

/-- The request leaves the environments on other CPUs where they are: their status is not
written, they are sent no message, a zombie is not destroyed again, and no trapframe is sanitised
in the memory of the kernel. -/
def keepsCpus (q : Request) : Bool :=
  let arg := q.tf.tfRegs.regEdx.toNat
  let status := fun t => (q.kernel.envs t).envStatus
  if q.tf.tfTrapno.toNat ≠ tSyscall then true
  else match Sysno.decode q.tf.tfRegs.regEax.toNat with
    | some .envSetStatus =>
      ofTarget (fun t => t == q.env || !(status t).onCpu) (envid2env q.env arg true q.kernel)
    | some .envDestroy =>
      ofTarget (fun t => t == q.env || status t != .dying) (envid2env q.env arg true q.kernel)
    | some .envSetTrapframe =>
      q.tf.tfRegs.regEcx.toNat + 68 ≤ ulim &&
        ofTarget (fun t => t == q.env || status t != .dying) (envid2env q.env arg true q.kernel)
    | some .ipcTrySend =>
      ofTarget (fun t => t == q.env || !(q.kernel.envs t).envIpcRecving || !(status t).onCpu)
        (envid2env q.env arg false q.kernel)
    | _ => true

structure CpusRight (k : Kernel) (fl : List Nat) : Prop where
  chain : Chain (fun e => (k.envs e).envLink) k.envFreeList fl
  free : ∀ e ∈ fl, (k.envs e).envStatus = .free
  cur : ∀ cpu e, k.curenv cpu = some e → e < nenv ∧ (k.envs e).envStatus.onCpu = true
  one : ∀ cpu cpu' e, k.curenv cpu = some e → k.curenv cpu' = some e → cpu = cpu'

/-- The same while `cpu` is in the kernel, where the status of its own `curenv` may be another
one; `doomed` are the environments that were zombies at the entry. -/
structure Inside (cpu : Nat) (doomed : Nat → Prop) (k : Kernel) (fl : List Nat) : Prop where
  chain : Chain (fun e => (k.envs e).envLink) k.envFreeList fl
  free : ∀ e ∈ fl, (k.envs e).envStatus = .free
  other : ∀ c e, c ≠ cpu → k.curenv c = some e → e < nenv ∧ (k.envs e).envStatus.onCpu = true
  one : ∀ c c' e, k.curenv c = some e → k.curenv c' = some e → c = c'
  cur : ∀ e, k.curenv cpu = some e →
    e < nenv ∧ (k.envs e).envStatus ≠ .free ∧ (k.envs e).envStatus ≠ .dying
  doomed : ∀ e, doomed e → (k.envs e).envStatus = .dying ∨ (k.envs e).envStatus = .free

section
variable {cpu : Nat} {doomed : Nat → Prop} {k k' : Kernel} {fl : List Nat}

section
variable (h : Inside cpu doomed k fl)
include h

lemma Inside.congr (hlist : k'.envFreeList = k.envFreeList) (hcpus : ∀ c, k'.curenv c = k.curenv c)
    (hlink : ∀ e, (k'.envs e).envLink = (k.envs e).envLink) (hst : ∀ e, (k'.envs e).envStatus = (k.envs e).envStatus) : Inside cpu doomed k' fl where
  chain := by
    rw [hlist]
    exact h.chain.congr fun e _ => hlink e
  free := fun e he => (hst e).trans (h.free e he)
  other := fun c e hc => by
    rw [hcpus, hst]
    exact h.other c e hc
  one := fun c c' e => by
    rw [hcpus, hcpus]
    exact h.one c c' e
  cur := fun e => by
    rw [hcpus, hst]
    exact h.cur e
  doomed := fun e => by
    rw [hst]
    exact h.doomed e

lemma Inside.setEnv {env : Env} (hmem : t ∉ fl) (hother : ∀ c, c ≠ cpu → k.curenv c = some t → env.envStatus.onCpu)
    (hcur : k.curenv cpu = some t → env.envStatus ≠ .free ∧ env.envStatus ≠ .dying)
    (hdoomed : doomed t → env.envStatus = .dying ∨ env.envStatus = .free) :
    Inside cpu doomed (k.setEnv t env) fl where
  chain := by
    refine h.chain.congr fun e he => ?_
    have hne : e ≠ t := fun het => hmem (het ▸ he)
    simp [hne]
  free := by
    intro e he
    have hne : e ≠ t := fun het => hmem (het ▸ he)
    simpa [hne] using h.free e he
  other := by
    intro c e hc hce
    refine ⟨(h.other c e hc hce).1, ?_⟩
    by_cases het : e = t
    · subst e
      simpa using hother c hc hce
    · simpa [het] using (h.other c e hc hce).2
  one := h.one
  cur := by
    intro e hce
    refine ⟨(h.cur e hce).1, ?_⟩
    by_cases het : e = t
    · subst e
      simpa using hcur hce
    · simpa [het] using (h.cur e hce).2
  doomed := by
    intro e he
    by_cases het : e = t
    · subst e
      simpa using hdoomed he
    · simpa [het] using h.doomed e he

lemma Inside.freed (hmem : t ∉ fl) (hother : ∀ c, c ≠ cpu → k.curenv c ≠ some t)
    (henvs : k'.envs = update k.envs t (freedEnv (k.envs t) k.envFreeList)) (hlist : k'.envFreeList = some t)
    (hcpus : ∀ c, c ≠ cpu → k'.curenv c = k.curenv c)
    (hcpu : k'.curenv cpu = none ∨ k'.curenv cpu = k.curenv cpu ∧ k.curenv cpu ≠ some t) :
    Inside cpu doomed k' (t :: fl) := by
  have hself : k'.envs t = freedEnv (k.envs t) k.envFreeList := by simp [henvs]
  have hne : ∀ e, e ≠ t → k'.envs e = k.envs e := fun e he => by simp [henvs, he]
  have hown : ∀ c e, k'.curenv c = some e → k.curenv c = some e ∧ e ≠ t := by
    intro c e hce
    by_cases hc : c = cpu
    · subst c
      rcases hcpu with hn | ⟨heq, hnt⟩
      · simp [hn] at hce
      · rw [heq] at hce
        exact ⟨hce, fun het => hnt (het ▸ hce)⟩
    · rw [hcpus c hc] at hce
      exact ⟨hce, fun het => hother c hc (het ▸ hce)⟩
  refine ⟨?_, ?_, ?_, ?_, ?_, ?_⟩
  · have hpush := h.chain.push hmem
    rw [hlist]
    refine hpush.congr fun e _ => ?_
    by_cases het : e = t
    · subst e
      simp [hself]
    · simp [hne e het, het]
  · intro e he
    by_cases het : e = t
    · subst e
      simp [hself]
    · rw [hne e het]
      exact h.free e ((List.mem_cons.mp he).resolve_left het)
  · intro c e hc hce
    obtain ⟨hold, het⟩ := hown c e hce
    rw [hne e het]
    exact h.other c e hc hold
  · intro c c' e hc hc'
    exact h.one c c' e (hown c e hc).1 (hown c' e hc').1
  · intro e hce
    obtain ⟨hold, het⟩ := hown cpu e hce
    rw [hne e het]
    exact h.cur e hold
  · intro e he
    by_cases het : e = t
    · subst e
      exact Or.inr (by simp [hself])
    · rw [hne e het]
      exact h.doomed e he

end

lemma Inside.alloc {e : Nat} (h : Inside cpu doomed k (e :: fl)) (hd : ¬ doomed e) (env : Env) :
    Inside cpu doomed { k.setEnv e env with envFreeList := (k.envs e).envLink } fl := by
  have hfree := h.free e List.mem_cons_self
  have hnotMem : e ∉ fl := (List.nodup_cons.mp h.chain.nodup).1
  have hown : ∀ c t, k.curenv c = some t → t ≠ e := by
    rintro c t hct rfl
    by_cases hc : c = cpu
    · subst c
      exact (h.cur t hct).2.1 hfree
    · have hon := (h.other c t hc hct).2
      simp [hfree, EnvStatus.onCpu] at hon
  refine ⟨?_, ?_, ?_, h.one, ?_, ?_⟩
  · refine h.chain.2.congr fun t ht => ?_
    have hne : t ≠ e := fun hte => hnotMem (hte ▸ ht)
    simp [hne]
  · intro t ht
    have hne : t ≠ e := fun hte => hnotMem (hte ▸ ht)
    simpa [hne] using h.free t (List.mem_cons_of_mem e ht)
  · intro c t hc hct
    simpa [hown c t hct] using h.other c t hc hct
  · intro t hct
    simpa [hown cpu t hct] using h.cur t hct
  · intro t ht
    have hne : t ≠ e := fun hte => hd (hte ▸ ht)
    simpa [hne] using h.doomed t ht

end

lemma switchTo_link (cpu e : Nat) (k : Kernel) (t : Nat) :
    ((switchTo cpu e k).envs t).envLink = (k.envs t).envLink := by
  rw [switchTo_envs]
  split
  · rename_i het
    rw [het]
    rfl
  · split <;> rfl

section
variable {cpu : Nat} {doomed : Nat → Prop} {k k' : Kernel} {fl : List Nat}

/-- What one kernel entry of `cpu` guarantees: the CPUs are right, the CPU runs no zombie, and the
zombies of the entry are zombies or gone. -/
structure Left (cpu : Nat) (doomed : Nat → Prop) (k : Kernel) (fl : List Nat) : Prop where
  right : CpusRight k fl
  running : ∀ e, k.curenv cpu = some e → (k.envs e).envStatus = .running
  doomed : ∀ e, doomed e → (k.envs e).envStatus = .dying ∨ (k.envs e).envStatus = .free

lemma Inside.switch (h : Inside cpu doomed k fl) (hs : Switch cpu k k') : Left cpu doomed k' fl := by
  cases hs with
  | halt =>
    have hown : ∀ c e, ((k.setCurenv cpu none).setCpuStatus cpu .halted).curenv c = some e →
        c ≠ cpu ∧ k.curenv c = some e := by
      intro c e hce
      by_cases hc : c = cpu
      · subst c
        simp [Kernel.curenv] at hce
      · exact ⟨hc, by simpa [Kernel.curenv, hc] using hce⟩
    refine ⟨⟨h.chain, h.free, ?_, ?_⟩, ?_, h.doomed⟩
    · intro c e hce
      exact h.other c e (hown c e hce).1 (hown c e hce).2
    · intro c c' e hc hc'
      exact h.one c c' e (hown c e hc).2 (hown c' e hc').2
    · intro e hce
      exact absurd rfl (hown cpu e hce).1
  | run e he =>
    have helt : e < nenv := he.elim (fun hr => (h.cur e hr.1).1) (fun hr => hr.1)
    have hst : (k.envs e).envStatus ≠ .free ∧ (k.envs e).envStatus ≠ .dying := by
      rcases he with hr | hr
      · exact (h.cur e hr.1).2
      · simp [hr.2]
    have hfar : ∀ c, c ≠ cpu → k.curenv c ≠ some e := by
      intro c hc hce
      rcases he with hr | hr
      · exact hc (h.one c cpu e hce hr.1)
      · have hon := (h.other c e hc hce).2
        simp [hr.2, EnvStatus.onCpu] at hon
    have hkeep : ∀ t, t ≠ e → k.curenv cpu ≠ some t → (switchTo cpu e k).envs t = k.envs t := by
      intro t hte htc
      rw [switchTo_envs, if_neg hte, if_neg htc]
    have hself : ((switchTo cpu e k).envs e).envStatus = .running := by
      rw [switchTo_envs, if_pos rfl]
      rfl
    have hskip : ∀ t, (k.envs t).envStatus = .free ∨ (k.envs t).envStatus = .dying →
        (switchTo cpu e k).envs t = k.envs t := by
      intro t ht
      apply hkeep t
      · rintro rfl
        exact ht.elim hst.1 hst.2
      · intro hc
        exact ht.elim (h.cur t hc).2.1 (h.cur t hc).2.2
    refine ⟨⟨?_, ?_, ?_, ?_⟩, ?_, ?_⟩
    · rw [switchTo_envFreeList]
      exact h.chain.congr fun t _ => switchTo_link cpu e k t
    · intro t ht
      rw [hskip t (Or.inl (h.free t ht))]
      exact h.free t ht
    · intro c t hct
      rw [switchTo_curenv] at hct
      split at hct
      · cases hct
        exact ⟨helt, by rw [hself]; rfl⟩
      · rename_i hc
        have hte : t ≠ e := fun hte => hfar c hc (hte ▸ hct)
        rw [hkeep t hte fun hcc => hc (h.one c cpu t hct hcc)]
        exact h.other c t hc hct
    · intro c c' t hc hc'
      rw [switchTo_curenv] at hc hc'
      split at hc <;> split at hc'
      · rename_i hcc hcc'
        rw [hcc, hcc']
      · rename_i hcc'
        cases hc
        exact absurd hc' (hfar c' hcc')
      · rename_i hcc _
        cases hc'
        exact absurd hc (hfar c hcc)
      · exact h.one c c' t hc hc'
    · intro t hct
      rw [switchTo_curenv, if_pos rfl] at hct
      cases hct
      exact hself
    · intro t ht
      rw [hskip t (h.doomed t ht).symm]
      exact h.doomed t ht

def Dying (k : Kernel) (e : Nat) : Prop := (k.envs e).envStatus = .dying

lemma CpusRight.inside (h : CpusRight k fl)
    (hcur : ∀ e, k.curenv cpu = some e → (k.envs e).envStatus = .running) : Inside cpu (Dying k) k fl where
  chain := h.chain
  free := h.free
  other := fun c e _ => h.cur c e
  one := h.one
  cur := fun e he => ⟨(h.cur cpu e he).1, by simp [hcur e he]⟩
  doomed := fun _ he => Or.inl he

lemma CpusRight.congr (h : CpusRight k fl) (hlist : k'.envFreeList = k.envFreeList)
    (hcpus : ∀ c, k'.curenv c = k.curenv c) (hlink : ∀ e, (k'.envs e).envLink = (k.envs e).envLink)
    (hst : ∀ e, (k'.envs e).envStatus = (k.envs e).envStatus) : CpusRight k' fl where
  chain := by
    rw [hlist]
    exact h.chain.congr fun e _ => hlink e
  free := fun e he => (hst e).trans (h.free e he)
  cur := fun c e => by
    rw [hcpus, hst]
    exact h.cur c e
  one := fun c c' e => by
    rw [hcpus, hcpus]
    exact h.one c c' e

section
variable {cur : Nat} {tf : Trapframe}

lemma envid2env_target {envid : Nat} {checkperm : Bool} (h : envid2env cur envid checkperm k = some t) :
    t = cur ∨ (k.envs t).envStatus ≠ .free := by
  rcases envid2env_cases h with ⟨-, rfl⟩ | ⟨-, hst, -⟩
  · exact .inl rfl
  · exact .inr hst

section
variable (h : keepsCpus ⟨cur, tf, k⟩)
include h

lemma keepsCpus_status (hno : Calls tf .envSetStatus) (ht : envid2env cur tf.tfRegs.regEdx.toNat true k = some t)
    (hne : t ≠ cur) :
    (k.envs t).envStatus.onCpu = false := by
  simpa [keepsCpus, hno.1, hno.2, ht, ofTarget, hne] using h

lemma keepsCpus_destroy (hno : Calls tf .envDestroy ∨ Calls tf .envSetTrapframe)
    (ht : envid2env cur tf.tfRegs.regEdx.toNat true k = some t) (hne : t ≠ cur) : (k.envs t).envStatus ≠ .dying := by
  rcases hno with hno | hno
  · simpa [keepsCpus, hno.1, hno.2, ht, ofTarget, hne] using h
  · simp only [keepsCpus, hno.1, hno.2, ht, ofTarget, ne_eq, not_true_eq_false, if_false, Bool.and_eq_true] at h
    simpa [hne] using h.2

lemma keepsCpus_frame : UserFrame tf := by
  intro hno
  simp only [keepsCpus, hno.1, hno.2, ne_eq, not_true_eq_false, if_false, Bool.and_eq_true, decide_eq_true_eq] at h
  exact h.1

lemma keepsCpus_send (hno : Calls tf .ipcTrySend) (ht : envid2env cur tf.tfRegs.regEdx.toNat false k = some t)
    (hne : t ≠ cur) (hrecv : (k.envs t).envIpcRecving) : (k.envs t).envStatus.onCpu = false := by
  simpa [keepsCpus, hno.1, hno.2, ht, ofTarget, hne, hrecv] using h

end

variable (h : CpusRight k fl) (hcur : k.curenv cpu = some cur) (hrun : (k.envs cur).envStatus = .running)
include h hcur hrun in
lemma CpusRight.requested : Inside cpu (Dying k) k fl :=
  h.inside fun e he => by
    cases hcur.symm.trans he
    exact hrun

include h hrun in
lemma CpusRight.target_notMem {envid : Nat} {checkperm : Bool}
    (ht : envid2env cur envid checkperm k = some t) : t ∉ fl := by
  intro hm
  have hfree := h.free t hm
  rcases envid2env_target ht with rfl | hne
  · simp [hrun] at hfree
  · exact hne hfree

include h in
lemma CpusRight.far_of_not_onCpu {c : Nat} (ht : (k.envs t).envStatus.onCpu = false) : k.curenv c ≠ some t := by
  intro hc
  have hon := (h.cur c t hc).2
  simp [ht] at hon

include h hcur in
lemma CpusRight.far_of_own {c : Nat} (hc : c ≠ cpu) : k.curenv c ≠ some cur :=
  fun hcc => hc (h.one c cpu cur hcc hcur)

include h hcur hrun in
lemma CpusRight.write {envid t : Nat} {checkperm : Bool} {env : Env}
    (ht : envid2env cur envid checkperm k = some t) (hoff : t ≠ cur → (k.envs t).envStatus.onCpu = false)
    (hst : env.envStatus = .runnable ∨ env.envStatus = .notRunnable) : Inside cpu (Dying k) (k.setEnv t env) fl := by
  apply (h.requested hcur hrun).setEnv (h.target_notMem hrun ht)
  · intro c hc hct
    by_cases hne : t = cur
    · subst t
      exact absurd hct (h.far_of_own hcur hc)
    · exact absurd hct (h.far_of_not_onCpu (hoff hne))
  · intro _
    rcases hst with hst | hst <;> simp [hst]
  · intro hd
    have hd' : (k.envs t).envStatus = .dying := hd
    by_cases hne : t = cur
    · subst t
      simp [hrun] at hd'
    · have hon := hoff hne
      simp [hd', EnvStatus.onCpu] at hon

include h hcur hrun in
lemma Act.inside (hok : keepsCpus ⟨cur, tf, k⟩) (hact : Act cpu cur tf k k1) :
    ∃ fl', Inside cpu (Dying k) k1 fl' := by
  have hin := h.requested hcur hrun
  cases hact with
  | none => exact ⟨fl, hin⟩
  | upcall t f hno =>
    refine ⟨fl, hin.congr rfl (fun _ => rfl) (fun e => ?_) fun e => ?_⟩ <;>
    · by_cases het : e = t
      · subst e
        simp
      · simp [het]
  | status t st hno ht hst => exact ⟨fl, h.write hcur hrun ht (keepsCpus_status hok hno ht) hst⟩
  | dying t hno ht hne hst =>
    refine ⟨fl, hin.setEnv (h.target_notMem hrun ht) (fun _ _ _ => rfl) ?_ fun _ => Or.inl rfl⟩
    intro hc
    exact absurd (Option.some.inj (hcur.symm.trans hc)) (Ne.symm hne)
  | free t hno ht hne hst =>
    have hoff : (k.envs t).envStatus.onCpu = false := by
      have hd := keepsCpus_destroy hok hno ht hne
      cases hs : (k.envs t).envStatus <;> simp_all [EnvStatus.onCpu]
    refine ⟨t :: fl, hin.freed (h.target_notMem hrun ht) (fun c _ => h.far_of_not_onCpu hoff) rfl rfl
      (fun _ _ => rfl) (Or.inr ⟨rfl, ?_⟩)⟩
    exact h.far_of_not_onCpu hoff
  | exit =>
    have hmem : cur ∉ fl := fun hm => by simpa [hrun] using h.free cur hm
    refine ⟨cur :: fl, hin.freed hmem (fun c => h.far_of_own hcur) rfl rfl ?_ (Or.inl ?_)⟩
    · intro c hc
      simp [Kernel.curenv, hc]
    · simp [Kernel.curenv]
  | fork e pd tf' hno hfree =>
    cases fl with
    | nil =>
      cases hfree.symm.trans (show k.envFreeList = Option.none from h.chain)
    | cons e' fl =>
      cases hfree.symm.trans h.chain.1
      have hst := h.free e List.mem_cons_self
      exact ⟨fl, hin.alloc (fun hd => by simp [show _ = EnvStatus.dying from hd] at hst) _⟩
  | send t value perm hno ht hrecv _ =>
    exact ⟨fl, h.write hcur hrun ht (fun hne => keepsCpus_send hok hno ht hne hrecv) (Or.inl rfl)⟩
  | block _ _ =>
    have ht : envid2env cur 0 true k = some cur := rfl
    exact ⟨fl, h.write hcur hrun ht (fun hne => absurd rfl hne) (Or.inr rfl)⟩

include h hcur hrun in
lemma Handled.inside (hok : keepsCpus ⟨cur, tf, k⟩) (hh : Handled cpu cur tf k k1) :
    ∃ fl', Inside cpu (Dying k) k1 fl' := by
  induction hh with
  | act hact => exact hact.inside h hcur hrun hok
  | memory _ vm ih =>
    obtain ⟨fl', ih⟩ := ih
    exact ⟨fl', ih.congr rfl (fun _ => rfl) (fun _ => rfl) fun _ => rfl⟩
  | saved _ t tf' _ _ ih =>
    obtain ⟨fl', ih⟩ := ih
    refine ⟨fl', ih.congr rfl (fun _ => rfl) (fun e => ?_) fun e => ?_⟩ <;>
    · by_cases het : e = t
      · subst e
        simp
      · simp [het]

end

lemma Silent.inside (h : CpusRight k fl) (hs : Silent cpu k k1) : ∃ fl', Inside cpu (Dying k) k1 fl' := by
  cases hs with
  | reap e vm hcur hst =>
    have hclear : ∀ c t, (k.setCurenv cpu none).curenv c = some t → c ≠ cpu ∧ k.curenv c = some t := by
      intro c t hct
      by_cases hc : c = cpu
      · subst c
        simp [Kernel.curenv] at hct
      · exact ⟨hc, by simpa [Kernel.curenv, hc] using hct⟩
    have hright : CpusRight (k.setCurenv cpu none) fl := by
      refine ⟨h.chain, h.free, fun c t hct => h.cur c t (hclear c t hct).2, ?_⟩
      intro c c' t hc hc'
      exact h.one c c' t (hclear c t hc).2 (hclear c' t hc').2
    have hin : Inside cpu (Dying k) (k.setCurenv cpu none) fl :=
      hright.inside fun t ht => absurd rfl (hclear cpu t ht).1
    have hmem : e ∉ fl := fun hm => by simpa [hst] using h.free e hm
    refine ⟨e :: fl, hin.freed hmem ?_ rfl rfl ?_ (Or.inl ?_)⟩
    · intro c hc hce
      exact hc (h.one c cpu e (hclear c e hce).2 hcur)
    · intro c hc
      simp [Kernel.curenv, hc]
    · simp [Kernel.curenv]
  | wake hcur =>
    have hin : Inside cpu (Dying k) k fl := h.inside fun e he => by simp [hcur] at he
    refine ⟨fl, hin.congr rfl (fun c => ?_) (fun _ => rfl) fun _ => rfl⟩
    by_cases hc : c = cpu
    · subst c
      simp [Kernel.curenv]
    · simp [Kernel.curenv, hc]
  | start hcur => exact ⟨fl, h.inside fun e he => by simp [hcur] at he⟩

lemma Entry.arrived (h : CpusRight k fl) {q : Request} (he : Entry cpu k (some q) k') :
    CpusRight q.kernel fl ∧ q.kernel.curenv cpu = some q.env ∧ (q.kernel.envs q.env).envStatus = .running ∧
      ∀ t, (q.kernel.envs t).envStatus = (k.envs t).envStatus := by
  obtain ⟨hcur, hst, vm, hq⟩ := he.caller
  have hrun : (k.envs q.env).envStatus = .running := by
    have hon := (h.cur cpu q.env hcur).2
    cases hs : (k.envs q.env).envStatus <;> simp_all [EnvStatus.onCpu]
  have hstatus : ∀ t, (q.kernel.envs t).envStatus = (k.envs t).envStatus := by
    rw [hq]
    exact dispatched_status cpu q.env q.tf _
  refine ⟨?_, ?_, (hstatus _).trans hrun, hstatus⟩
  · rw [hq]
    exact h.congr rfl (dispatched_curenv cpu q.env q.tf _) (dispatched_link cpu q.env q.tf _)
      (dispatched_status cpu q.env q.tf _)
  · rw [hq, dispatched_curenv]
    exact hcur

def Served (cpu : Nat) (k : Kernel) (r : Option Request) (k₁ : Kernel) : Prop :=
  match r with
  | none => Silent cpu k k₁
  | some q => Handled cpu q.env q.tf q.kernel k₁

section
variable {r : Option Request} (h : CpusRight k fl) (he : Entry cpu k r k')
  (hok : ∀ q, r = some q → keepsCpus q = true)
include h he hok

lemma Entry.inside : ∃ k1 fl', Served cpu k r k1 ∧ Inside cpu (Dying k) k1 fl' ∧ Switch cpu k1 k' := by
  cases r with
  | none =>
    obtain ⟨k1, hs, hsw⟩ := he.silent
    obtain ⟨fl', hin⟩ := hs.inside h
    exact ⟨k1, fl', hs, hin, hsw⟩
  | some q =>
    obtain ⟨hright, hcur, hrun, hstatus⟩ := he.arrived h
    obtain ⟨k1, hh, hsw⟩ := he.handled ((hstatus _).symm.trans hrun) (keepsCpus_frame (hok q rfl))
    obtain ⟨fl', hin⟩ := hh.inside hright hcur hrun (hok q rfl)
    refine ⟨k1, fl', hh, ⟨hin.chain, hin.free, hin.other, hin.one, hin.cur, ?_⟩, hsw⟩
    exact fun e he => hin.doomed e ((hstatus e).trans he)

lemma Entry.left : ∃ fl', Left cpu (Dying k) k' fl' := by
  obtain ⟨k1, fl', -, hin, hsw⟩ := he.inside h hok
  exact ⟨fl', hin.switch hsw⟩

end

end

section
variable {elf : Elf} {type : EnvType} (h : envCreate elf type k = some k')
include h

lemma envCreate_envs :
    k'.cpus = k.cpus ∧ ∃ e pd, k.envFreeList = some e ∧ k'.envFreeList = (k.envs e).envLink ∧
      k'.envs = update k.envs e
        (typedEnv (loadedEnv (newEnv (k.envs e) pd 0 e) elf.eEntry) type) := by
  unfold envCreate at h
  rcases envAlloc_eq 0 k with ⟨r, vm, ha⟩ | ⟨e, pd, vm, hfree, ha⟩
  · simp [ha] at h
  · rw [ha] at h
    obtain ⟨k2, hload, rfl⟩ := Option.map_eq_some_iff.mp h
    unfold loadIcode at hload
    split at hload
    · simp at hload
    · simp only [Option.bind_eq_bind, Option.bind_eq_some_iff, Option.some.injEq] at hload
      obtain ⟨-, -, -, -, vm', -, rfl⟩ := hload
      refine ⟨rfl, e, pd, hfree, rfl, ?_⟩
      simp

lemma envCreate_eq :
    k'.cpus = k.cpus ∧ ∃ e, k.envFreeList = some e ∧ (k'.envs e).envStatus = .runnable ∧
      (k'.envs e).envIpcRecving = false ∧ ∀ t, t ≠ e → k'.envs t = k.envs t := by
  obtain ⟨hcpus, e, pd, hfree, -, henvs⟩ := envCreate_envs h
  have hself : (typedEnv (loadedEnv (newEnv (k.envs e) pd 0 e) elf.eEntry) type).envStatus = .runnable ∧
      (typedEnv (loadedEnv (newEnv (k.envs e) pd 0 e) elf.eEntry) type).envIpcRecving = false := by
    unfold typedEnv
    split <;> exact ⟨rfl, rfl⟩
  refine ⟨hcpus, e, hfree, ?_, ?_, ?_⟩
  · rw [henvs, update_self]
    exact hself.1
  · rw [henvs, update_self]
    exact hself.2
  · intro t ht
    rw [henvs, update_of_ne ht]

end

lemma Started.idle (h : Started k) (cpu : Nat) : k.curenv cpu = none := by
  induction h with
  | boot h => exact h.idle cpu
  | create _ _ hrun ih =>
    rw [Kernel.curenv, (envCreate_eq hrun).1]
    exact ih

end Jos
