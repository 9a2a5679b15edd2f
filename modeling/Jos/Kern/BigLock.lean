import Jos.Kern.Env

/-!
# The big kernel lock

The paths of a CPU through `trap`, `trap_dispatch`, `sched_yield`, `sched_halt` and
`env_run`, from one access to shared state to the next, with its interrupt flag as
the gates of `trap_init` leave it. `trap` never returns, so an interrupt in the
kernel abandons what it interrupts. No step between two accesses matters to the
lock; where the code chooses by data that is not kept here, every choice is taken.
-/

namespace Jos
open Relation Function

/-- The calls of `SETGATE` in `trap_init`: a vector and its argument `istrap`. -/
def idt : List (Nat × Bool) :=
  [(0, true), (1, true), (2, true), (3, true), (4, true), (5, true), (6, true), (7, true), (8, true),
    (10, true), (11, true), (12, true), (13, true), (14, true),
    (16, true), (17, true), (18, true), (19, true),
    (48, false),
    (32, true), (33, true), (36, true), (39, true), (46, true), (51, true)]

/-- The timer and the devices: `IRQ_OFFSET` plus `IRQ_TIMER`, `IRQ_KBD`, `IRQ_SERIAL`,
`IRQ_SPURIOUS`, `IRQ_IDE` and `IRQ_ERROR`. -/
def irqVectors : List Nat := [32, 33, 36, 39, 46, 51]

/-- The three calls of `lock_kernel`. -/
inductive LockFor where
  /-- At the end of `i386_init` and `mp_main`. -/
  | boot
  /-- In `trap`, for a CPU that was halted; `user` is whether the trap came from user mode. -/
  | wake (user : Bool)
  /-- In `trap`, for a trap from user mode. -/
  | trap
  deriving DecidableEq, Repr

/-- The two calls of `unlock_kernel`, in `env_run` and in `sched_halt`. -/
inductive UnlockFor where
  | run
  | halt
  deriving DecidableEq, Repr

inductive Loc where
  | off
  | boot
  | apBoot
  /-- About to call `spin_lock`. -/
  | lock (why : LockFor)
  /-- At the `xchg` of `spin_lock`. -/
  | spin (why : LockFor)
  /-- The `xchg` succeeded, `lk->cpu` is not yet written. -/
  | record (why : LockFor)
  /-- From the gate to the `xchg` of `cpu_status` in `trap`. -/
  | entry (user : Bool)
  /-- At the test of `tf_cs`. -/
  | testCs (user : Bool)
  /-- Behind the lock of a trap from user mode, up to `trap_dispatch`. -/
  | locked
  | dispatch (user : Bool)
  /-- `trap_dispatch` has returned. -/
  | returned
  | schedYield
  | envRun
  | schedHalt
  /-- About to set `cpu_status` to `CPU_HALTED`. -/
  | mark
  /-- About to call `spin_unlock`. -/
  | unlock (why : UnlockFor)
  /-- `lk->cpu` is cleared, `locked` is not. -/
  | release (why : UnlockFor)
  | popTf
  | user
  | sti
  | halted
  | monitor
  | panic
  | dead
  /-- At the `hlt` of a trap taken after a panic. -/
  | stopped
  deriving DecidableEq, Repr

/-- One CPU. `holds` is not in the source: it is set from the `xchg` that takes the lock to
the one that gives it back. -/
structure CpuState where
  loc : Loc
  ifl : Bool
  status : CpuStatus
  holds : Bool
  deriving DecidableEq, Repr

structure Spinlock where
  locked : Bool
  cpu : Option Nat
  deriving DecidableEq, Repr

structure LockSys where
  cpu : Nat → CpuState
  lock : Spinlock
  panicstr : Bool

namespace LockSys

def set (s : LockSys) (i : Nat) (c : CpuState) : LockSys :=
  { s with cpu := update s.cpu i c }

def goto (s : LockSys) (i : Nat) (l : Loc) : LockSys := s.set i { s.cpu i with loc := l }

def holding (s : LockSys) (i : Nat) : Bool := s.lock.locked && s.lock.cpu == some i

end LockSys

def afterLock : LockFor → Loc
  | .boot => .schedYield
  | .wake user => .testCs user
  | .trap => .locked

def afterUnlock : UnlockFor → Loc
  | .run => .popTf
  | .halt => .sti

def Loc.next : Loc → List Loc
  | .off => [.apBoot]
  | .boot => [.lock .boot]
  | .testCs true => [.lock .trap]
  | .testCs false => [.dispatch false]
  -- `assert(curenv)` may fail, and a dying environment is freed and left
  | .locked => [.dispatch true, .schedYield, .panic]
  | .dispatch true => [.returned, .schedYield, .envRun, .panic]
  | .dispatch false => [.returned, .schedYield, .panic]
  | .returned => [.envRun, .schedYield]
  | .schedYield => [.envRun, .schedHalt]
  | .schedHalt => [.monitor, .mark]
  | .envRun => [.unlock .run]
  | _ => []

def LockSys.access (i : Nat) (s : LockSys) : Option LockSys :=
  let c := s.cpu i
  match c.loc with
  | .apBoot => some (s.set i { c with status := .started, loc := .lock .boot })
  | .lock why => some (s.goto i (if s.holding i then .panic else .spin why))
  | .spin why =>
    if s.lock.locked then some s
    else some { s.set i { c with holds := true, loc := .record why } with
      lock := { s.lock with locked := true } }
  | .record why => some { s.goto i (afterLock why) with lock := { s.lock with cpu := some i } }
  | .entry user =>
    if s.panicstr then some (s.goto i .stopped)
    else some (s.set i { c with
      status := .started
      loc := if c.status = .halted then .lock (.wake user) else .testCs user })
  | .mark => some (s.set i { c with status := .halted, loc := .unlock .halt })
  | .unlock why =>
    if s.holding i then some { s.goto i (.release why) with lock := { s.lock with cpu := none } }
    else some (s.goto i .panic)
  | .release why =>
    some { s.set i { c with holds := false, loc := afterUnlock why } with
      lock := { s.lock with locked := false } }
  -- every environment runs with `FL_IF` set
  | .popTf => some (s.set i { c with ifl := true, loc := .user })
  | .sti => some (s.set i { c with ifl := true, loc := .halted })
  | .panic =>
    if s.panicstr then some (s.goto i .dead)
    else some { s.set i { c with ifl := false, loc := .dead } with panicstr := true }
  | _ => none

/-- Through the gate `v`. A trap gate leaves `IF` as it is, an interrupt gate clears it. -/
def LockSys.deliver (i v : Nat) (s : LockSys) : Option LockSys :=
  (idt.lookup v).map fun istrap =>
    s.set i { s.cpu i with
      ifl := istrap && (s.cpu i).ifl
      loc := .entry (decide ((s.cpu i).loc = .user)) }

inductive LockAct where
  | move (l : Loc)
  | access
  /-- A timer or device interrupt. -/
  | interrupt (v : Nat)
  /-- An exception or a system call of the program. -/
  | exception (v : Nat)
  deriving DecidableEq, Repr

def LockSys.step (i : Nat) (a : LockAct) (s : LockSys) : Option LockSys :=
  match a with
  | .move l => if l ∈ (s.cpu i).loc.next then some (s.goto i l) else none
  | .access => s.access i
  | .interrupt v => if (s.cpu i).ifl ∧ v ∈ irqVectors then s.deliver i v else none
  | .exception v => if (s.cpu i).loc = .user ∧ v ∉ irqVectors then s.deliver i v else none

/-- CPU 0 is in `i386_init` with interrupts off, the others wait to be started. -/
def LockSys.init : LockSys where
  cpu i := if i = 0 then ⟨.boot, false, .started, false⟩ else ⟨.off, false, .unused, false⟩
  lock := ⟨false, none⟩
  panicstr := false

structure Disciplined (s : LockSys) : Prop where
  dispatch : ∀ i user, (s.cpu i).loc = .dispatch user → (s.cpu i).holds = true
  schedYield : ∀ i, (s.cpu i).loc = .schedYield → (s.cpu i).holds = true
  envRun : ∀ i, (s.cpu i).loc = .envRun → (s.cpu i).holds = true
  unlock : ∀ i why, (s.cpu i).loc = .unlock why → (s.cpu i).holds = true
  unique : ∀ i j, (s.cpu i).holds = true → (s.cpu j).holds = true → i = j

def Shielded (i : Nat) (a : LockAct) (s : LockSys) : Prop :=
  ∀ v, a = .interrupt v →
    (s.cpu i).loc = .user ∨ (s.cpu i).holds = true ∨ (s.cpu i).status = .halted

def LockRun (P : Nat → LockAct → LockSys → Prop) (s : LockSys) : Prop :=
  ReflTransGen (fun s s' => ∃ i a, P i a s ∧ s.step i a = some s') LockSys.init s

/-! ### The lock along shielded runs -/

def Loc.needsLock : Loc → Bool
  | .record _ | .testCs false | .locked | .dispatch _ | .returned | .schedYield | .envRun
  | .schedHalt | .mark | .unlock _ | .release _ | .monitor => true
  | _ => false

def Loc.waits : Loc → Bool
  | .unlock .halt | .release .halt | .sti | .halted => true
  | _ => false

/-- What one CPU keeps. A trap from kernel mode that does not take the lock already has it. -/
structure CpuOk (c : CpuState) : Prop where
  needs : c.loc.needsLock = true → c.holds = true
  entry : c.loc = .entry false → c.holds = true ∨ c.status = .halted
  waits : c.loc.waits = true → c.status = .halted

structure Guarded (s : LockSys) : Prop where
  ok : ∀ i, CpuOk (s.cpu i)
  locked : ∀ i, (s.cpu i).holds = true → s.lock.locked = true
  unique : ∀ i j, (s.cpu i).holds = true → (s.cpu j).holds = true → i = j

lemma guarded_init : Guarded LockSys.init := by
  have hloc : ∀ i, (LockSys.init.cpu i).loc = .boot ∨ (LockSys.init.cpu i).loc = .off := by
    intro i
    by_cases hi : i = 0 <;> simp [LockSys.init, hi]
  have hholds : ∀ i, (LockSys.init.cpu i).holds = false := by
    intro i
    by_cases hi : i = 0 <;> simp [LockSys.init, hi]
  refine ⟨fun i => ?_, fun i hi => ?_, fun i j hi => ?_⟩
  · rcases hloc i with h | h <;> constructor <;> simp [h, Loc.needsLock, Loc.waits]
  · simp [hholds i] at hi
  · simp [hholds i] at hi

section
variable {s s' : LockSys} {i : Nat} {c : CpuState}

section
variable (h : Guarded s) (hcpu : s'.cpu = update s.cpu i c)
include h hcpu

lemma Guarded.moved (hlock : s'.lock.locked = s.lock.locked) (hholds : c.holds = (s.cpu i).holds) (hok : CpuOk c) :
    Guarded s' := by
  have hsame : ∀ j, (s'.cpu j).holds = (s.cpu j).holds := by
    intro j
    rw [hcpu]
    by_cases hj : j = i
    · subst hj
      simpa using hholds
    · simp [hj]
  refine ⟨fun j => ?_, fun j hj => ?_, fun j l hj hl => ?_⟩
  · rw [hcpu]
    by_cases hj : j = i
    · subst hj
      simpa using hok
    · simpa [hj] using h.ok j
  · rw [hlock]
    exact h.locked j (hsame j ▸ hj)
  · exact h.unique j l (hsame j ▸ hj) (hsame l ▸ hl)

lemma Guarded.acquired (hfree : s.lock.locked = false) (hlock : s'.lock.locked) (hok : CpuOk c) : Guarded s' := by
  have hnone : ∀ j, (s.cpu j).holds = false := by
    intro j
    by_contra hj
    have hl := h.locked j (by simpa using hj)
    rw [hfree] at hl
    cases hl
  have hsole : ∀ j, (s'.cpu j).holds → j = i := by
    intro j hj
    rw [hcpu] at hj
    by_contra hne
    rw [update_of_ne hne, hnone j] at hj
    cases hj
  refine ⟨fun j => ?_, fun _ _ => hlock, fun j l hj hl => (hsole j hj).trans (hsole l hl).symm⟩
  rw [hcpu]
  by_cases hj : j = i
  · subst hj
    simpa using hok
  · simpa [hj] using h.ok j

lemma Guarded.released (hheld : (s.cpu i).holds) (hholds : c.holds = false) (hok : CpuOk c) : Guarded s' := by
  have hnone : ∀ j, (s'.cpu j).holds = false := by
    intro j
    rw [hcpu]
    by_cases hj : j = i
    · subst hj
      simpa using hholds
    · rw [update_of_ne hj]
      by_contra hne
      exact hj (h.unique j i (by simpa using hne) hheld)
  refine ⟨fun j => ?_, fun j hj => ?_, fun j _ hj => ?_⟩
  · rw [hcpu]
    by_cases hj : j = i
    · subst hj
      simpa using hok
    · simpa [hj] using h.ok j
  · rw [hnone j] at hj
    cases hj
  · rw [hnone j] at hj
    cases hj

end

lemma CpuOk.next (h : CpuOk c) {l : Loc} (hl : l ∈ c.loc.next) : CpuOk { c with loc := l } := by
  have hneeds := h.needs
  obtain ⟨loc, ifl, status, holds⟩ := c
  unfold Loc.next at hl
  split at hl <;> simp_all only [List.mem_cons, List.not_mem_nil, or_false, Loc.needsLock]
  all_goals rcases hl with rfl | rfl | rfl | rfl
  all_goals constructor <;> simp_all [Loc.needsLock, Loc.waits]

lemma Guarded.access (h : Guarded s) (hs : s.access i = some s') : Guarded s' := by
  have hok := h.ok i
  have hneeds := hok.needs
  unfold LockSys.access at hs
  cases hloc : (s.cpu i).loc with
  | apBoot =>
    simp only [hloc, Option.some.injEq] at hs
    subst hs
    exact h.moved rfl rfl rfl ⟨nofun, nofun, nofun⟩
  | lock why =>
    simp only [hloc, Option.some.injEq] at hs
    subst hs
    refine h.moved rfl rfl rfl ?_
    cases s.holding i <;> exact ⟨nofun, nofun, nofun⟩
  | spin why =>
    simp only [hloc] at hs
    cases hlk : s.lock.locked with
    | true =>
      simp only [hlk, if_true, Option.some.injEq] at hs
      exact hs ▸ h
    | false =>
      simp only [hlk, Bool.false_eq_true, if_false, Option.some.injEq] at hs
      subst hs
      exact h.acquired rfl hlk rfl ⟨fun _ => rfl, nofun, nofun⟩
  | record why =>
    simp only [hloc, Option.some.injEq] at hs
    subst hs
    have hheld := hneeds (by rw [hloc]; rfl)
    refine h.moved rfl rfl rfl ?_
    cases why <;> exact ⟨fun _ => hheld, nofun, nofun⟩
  | entry user =>
    simp only [hloc] at hs
    split at hs
    · simp only [Option.some.injEq] at hs
      subst hs
      exact h.moved rfl rfl rfl ⟨nofun, nofun, nofun⟩
    · simp only [Option.some.injEq] at hs
      subst hs
      refine h.moved rfl rfl rfl ?_
      by_cases hst : (s.cpu i).status = .halted
      · simp only [hst, if_true]
        exact ⟨nofun, nofun, nofun⟩
      · simp only [hst, if_false]
        refine ⟨fun hn => ?_, nofun, nofun⟩
        -- only a trap from kernel mode goes on without taking the lock
        cases user with
        | true => cases hn
        | false => exact (hok.entry hloc).resolve_right hst
  | mark =>
    simp only [hloc, Option.some.injEq] at hs
    subst hs
    have hheld := hneeds (by rw [hloc]; rfl)
    exact h.moved rfl rfl rfl ⟨fun _ => hheld, nofun, fun _ => rfl⟩
  | unlock why =>
    simp only [hloc] at hs
    have hheld := hneeds (by rw [hloc]; rfl)
    have hwait := hok.waits
    rw [hloc] at hwait
    split at hs
    · simp only [Option.some.injEq] at hs
      subst hs
      refine h.moved rfl rfl rfl ⟨fun _ => hheld, nofun, fun hw => hwait ?_⟩
      cases why <;> exact hw
    · simp only [Option.some.injEq] at hs
      subst hs
      exact h.moved rfl rfl rfl ⟨nofun, nofun, nofun⟩
  | release why =>
    simp only [hloc, Option.some.injEq] at hs
    subst hs
    have hheld := hneeds (by rw [hloc]; rfl)
    have hwait := hok.waits
    rw [hloc] at hwait
    refine h.released rfl hheld rfl ?_
    cases why with
    | run => exact ⟨nofun, nofun, nofun⟩
    | halt => exact ⟨nofun, nofun, fun _ => hwait rfl⟩
  | popTf =>
    simp only [hloc, Option.some.injEq] at hs
    subst hs
    exact h.moved rfl rfl rfl ⟨nofun, nofun, nofun⟩
  | sti =>
    simp only [hloc, Option.some.injEq] at hs
    subst hs
    have hwait := hok.waits
    rw [hloc] at hwait
    exact h.moved rfl rfl rfl ⟨nofun, nofun, fun _ => hwait rfl⟩
  | panic =>
    simp only [hloc] at hs
    split at hs
    all_goals
      simp only [Option.some.injEq] at hs
      subst hs
      exact h.moved rfl rfl rfl ⟨nofun, nofun, nofun⟩
  | _ =>
    simp only [hloc] at hs
    cases hs

lemma Guarded.deliver {v : Nat} (h : Guarded s) (hs : s.deliver i v = some s')
    (hsafe : (s.cpu i).loc = .user ∨ (s.cpu i).holds ∨ (s.cpu i).status = .halted) : Guarded s' := by
  obtain ⟨istrap, -, rfl⟩ := Option.map_eq_some_iff.mp hs
  refine h.moved rfl rfl rfl ⟨nofun, fun he => ?_, nofun⟩
  rcases hsafe with hu | hk
  · simp [hu] at he
  · exact hk

lemma Guarded.step {a : LockAct} (h : Guarded s) (hsafe : Shielded i a s)
    (hs : s.step i a = some s') : Guarded s' := by
  cases a with
  | move l =>
    obtain ⟨hl, hs⟩ := Option.ite_none_right_eq_some.mp hs
    rw [← Option.some.inj hs]
    exact h.moved rfl rfl rfl ((h.ok i).next hl)
  | access => exact h.access hs
  | interrupt v => exact h.deliver (Option.ite_none_right_eq_some.mp hs).2 (hsafe v rfl)
  | exception v =>
    obtain ⟨hu, hs⟩ := Option.ite_none_right_eq_some.mp hs
    exact h.deliver hs (.inl hu.1)

end

lemma LockRun.guarded {s : LockSys} (h : LockRun Shielded s) : Guarded s := by
  induction h with
  | refl => exact guarded_init
  | tail _ hstep ih =>
    obtain ⟨i, a, hsafe, hs⟩ := hstep
    exact ih.step hsafe hs

instance (i : Nat) (a : LockAct) (s : LockSys) : Decidable (Shielded i a s) :=
  match a with
  | .interrupt v =>
    decidable_of_iff ((s.cpu i).loc = .user ∨ (s.cpu i).holds = true ∨ (s.cpu i).status = .halted)
      ⟨fun h _ _ => h, fun h => h v rfl⟩
  | .move _ | .access | .exception _ => isTrue nofun

def LockSys.exec (P : Nat → LockAct → LockSys → Prop) [∀ i a s, Decidable (P i a s)] :
    List (Nat × LockAct) → LockSys → Option LockSys
  | [], s => some s
  | (i, a) :: t, s => if P i a s then (s.step i a).bind (exec P t) else none

lemma exec_lockRun {P : Nat → LockAct → LockSys → Prop} [∀ i a s, Decidable (P i a s)]
    {t : List (Nat × LockAct)} {s s' : LockSys} (h : LockRun P s) (ht : s.exec P t = some s') : LockRun P s' := by
  induction t generalizing s with
  | nil => exact Option.some.inj ht ▸ h
  | cons x t ih =>
    obtain ⟨hP, ht⟩ := Option.ite_none_right_eq_some.mp ht
    obtain ⟨s1, hstep, ht⟩ := Option.bind_eq_some_iff.mp ht
    exact ih (ReflTransGen.tail h ⟨x.1, x.2, hP, hstep⟩) ht

def bootTrace : List (Nat × LockAct) :=
  [(0, .move (.lock .boot)), (0, .access), (0, .access), (0, .access), (0, .move .envRun),
    (0, .move (.unlock .run)), (0, .access), (0, .access), (0, .access)]

def timerTrace : List (Nat × LockAct) :=
  bootTrace ++ [(1, .move .apBoot), (1, .access), (1, .access), (1, .access), (1, .access),
    (0, .interrupt 32)]

/-- While every interrupt that is taken in the kernel finds the lock held or the CPU marked
as halted, the lock is held wherever it is needed. -/
theorem lock_discipline (s : LockSys) (h : LockRun Shielded s) : Disciplined s := by
  have hg := h.guarded
  have hneeds : ∀ i l, (s.cpu i).loc = l → l.needsLock = true → (s.cpu i).holds = true := by
    rintro i l rfl hl
    exact (hg.ok i).needs hl
  exact ⟨fun i user hi => hneeds i _ hi rfl, fun i hi => hneeds i _ hi rfl,
    fun i hi => hneeds i _ hi rfl, fun i why hi => hneeds i _ hi rfl, hg.unique⟩

theorem lock_discipline_timer : ∃ s, LockSys.init.exec Shielded timerTrace = some s ∧
    (s.cpu 0).loc = .entry true ∧ (s.cpu 1).loc = .schedYield ∧ Disciplined s := by
  have h : (LockSys.init.exec Shielded timerTrace).any fun s =>
      (s.cpu 0).loc = .entry true ∧ (s.cpu 1).loc = .schedYield := by decide
  obtain ⟨s, hs, hloc⟩ := (Option.any_eq_true _ _).mp h
  have hloc := of_decide_eq_true hloc
  exact ⟨s, hs, hloc.1, hloc.2, lock_discipline s (exec_lockRun .refl hs)⟩

/-- A second tick before `trap` reaches the lock: CPU 0 is in `trap_dispatch` without the lock,
which CPU 1 holds. -/
theorem tick_dispatches_unlocked : ∃ s, LockRun (fun _ _ _ => True) s ∧
    (s.cpu 0).loc = .dispatch false ∧ (s.cpu 0).holds = false ∧ (s.cpu 1).holds = true ∧
    ¬ Disciplined s := by
  have h : (LockSys.init.exec (fun _ _ _ => True)
      (timerTrace ++ [(0, .interrupt 32), (0, .access), (0, .move (.dispatch false))])).any fun s =>
      (s.cpu 0).loc = .dispatch false ∧ (s.cpu 0).holds = false ∧ (s.cpu 1).holds = true := by decide
  obtain ⟨s, hs, hloc⟩ := (Option.any_eq_true _ _).mp h
  obtain ⟨h1, h2, h3⟩ := of_decide_eq_true hloc
  refine ⟨s, exec_lockRun .refl hs, h1, h2, h3, fun hd => ?_⟩
  have := hd.dispatch 0 false h1
  rw [h2] at this
  cases this

end Jos
