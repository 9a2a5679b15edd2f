import Jos.Kern.Env

/-!
# Scheduling

`env_run`, `sched_yield`, `sched_halt` and `env_destroy`. The first three never
return to their caller; what they do is the state in which the CPU leaves the
kernel.
-/

namespace Jos

/-- How a CPU leaves the kernel: in user mode, halted, stuck in the monitor, in a
panic, or after reading past the end of `envs[]`. -/
inductive Exit where
  | user (k : Kernel)
  | halt (k : Kernel)
  | monitor (k : Kernel)
  | panic
  | wild

inductive Exit.To : Exit → Kernel → Prop where
  | user (k : Kernel) : Exit.To (.user k) k
  | halt (k : Kernel) : Exit.To (.halt k) k

def Exit.left : Exit → Option Kernel
  | .user k => some k
  | .halt k => some k
  | _ => none

lemma Exit.to_of_left {x : Exit} {k : Kernel} (h : x.left = some k) : x.To k := by
  cases x with
  | user k' =>
    cases h
    exact .user k
  | halt k' =>
    cases h
    exact .halt k
  | monitor k' => simp [Exit.left] at h
  | panic => simp [Exit.left] at h
  | wild => simp [Exit.left] at h

def Exit.check (f : Kernel → Bool) : Exit → Bool
  | .user k => f k
  | .halt k => f k
  | _ => false

lemma Exit.exists_to {f : Kernel → Bool} {x : Exit} (h : x.check f) : ∃ k, x.To k ∧ f k := by
  cases x with
  | user k => exact ⟨k, .user k, h⟩
  | halt k => exact ⟨k, .halt k, h⟩
  | monitor _ => simp [Exit.check] at h
  | panic => simp [Exit.check] at h
  | wild => simp [Exit.check] at h

inductive Outcome (α : Type) where
  | ret (a : α) (k : Kernel)
  | exit (x : Exit)

namespace Outcome

def bind {α β : Type} (x : Outcome α) (f : α → Kernel → Outcome β) : Outcome β :=
  match x with
  | ret a k => f a k
  | exit e => exit e

def value {α : Type} : Outcome α → Option α
  | ret a _ => some a
  | exit _ => none

lemma exists_ret {α : Type} {x : Outcome α} {a : α} (h : x.value = some a) : ∃ k, x = ret a k := by
  cases x with
  | ret b k =>
    cases h
    exact ⟨k, rfl⟩
  | exit x => simp [value] at h

end Outcome

/-- The environment `e` as `env_run` and `env_pop_tf` leave it. -/
def enterEnv (env : Env) (cpu : Nat) : Env :=
  { env with envStatus := .running, envRuns := (env.envRuns + 1) % 2 ^ 32, envCpunum := cpu }

/-- Whatever the status of `curenv` was, it becomes `ENV_RUNNABLE`. -/
def leaveCurenv (cpu : Nat) (k : Kernel) : Kernel :=
  match k.curenv cpu with
  | none => k
  | some c => k.setStatus c .runnable

def envRun (cpu e : Nat) (k : Kernel) : Exit :=
  let k := (leaveCurenv cpu k).setCurenv cpu (some e)
  let k := k.setEnv e (enterEnv (k.envs e) cpu)
  if (k.envs e).envPgdir = none then .panic else .user k

/-- Where the search of `sched_yield` ends. -/
inductive Scan where
  | found (e : Nat)
  | none (idle : Nat)
  | wild
  deriving DecidableEq, Repr

/-- The loop of `sched_yield` with `n` turns left, at slot `idle`. -/
def schedScan (k : Kernel) : Nat → Nat → Scan
  | 0, idle => .none idle
  | n + 1, idle =>
    if nenv ≤ idle then .wild
    else if (k.envs idle).envStatus = .runnable then .found idle
    else schedScan k n (if idle = nenv - 1 then 0 else idle + 1)

/-- `i == NENV` after the loop of `sched_halt`. -/
def noneLeft (k : Kernel) : Bool :=
  (List.range nenv).all fun i =>
    (k.envs i).envStatus != .runnable && (k.envs i).envStatus != .running &&
      (k.envs i).envStatus != .dying

attribute [irreducible] noneLeft

def schedHalt (cpu : Nat) (k : Kernel) : Exit :=
  if noneLeft k then .monitor k else .halt ((k.setCurenv cpu none).setCpuStatus cpu .halted)

def schedYield (cpu : Nat) (k : Kernel) : Exit :=
  let idle := match k.curenv cpu with
    | none => 0
    | some c => c + 1
  match schedScan k (nenv - 1) idle with
  | .found e => envRun cpu e k
  | .wild => .wild
  | .none idle =>
    if k.curenv cpu = some idle ∧ (k.envs idle).envStatus = .running then envRun cpu idle k
    else schedHalt cpu k

def envDestroy (cpu e : Nat) (k : Kernel) : Outcome Unit :=
  if (k.envs e).envStatus = .running ∧ k.curenv cpu ≠ some e then .ret () (k.setStatus e .dying)
  else
    match envFree e k with
    | none => .exit .panic
    | some k =>
      if k.curenv cpu = some e then .exit (schedYield cpu (k.setCurenv cpu none)) else .ret () k

end Jos
