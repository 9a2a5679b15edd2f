import Jos.Kern.Pmap

/-!
# Environments

The environment table of `kern/env.c` and the functions that allocate, load and
free an environment. An environment is named by its index in `envs[]`; an
environment id is the 32-bit pattern of the C `envid_t`.
-/

namespace Jos
open Bits

def nenv : Nat := 1024

def envx (envid : Nat) : Nat := envid % 1024

structure PushRegs where
  regEdi : UInt32
  regEsi : UInt32
  regEbp : UInt32
  regOesp : UInt32
  regEbx : UInt32
  regEdx : UInt32
  regEcx : UInt32
  regEax : UInt32
  deriving DecidableEq, Repr

structure Trapframe where
  tfRegs : PushRegs
  tfEs : UInt16
  tfDs : UInt16
  tfTrapno : UInt32
  tfErr : UInt32
  tfEip : UInt32
  tfCs : UInt16
  tfEflags : UInt32
  tfEsp : UInt32
  tfSs : UInt16
  deriving DecidableEq, Repr

inductive EnvStatus where
  | free
  | dying
  | runnable
  | running
  | notRunnable
  deriving DecidableEq, Repr

inductive EnvType where
  | user
  | fs
  deriving DecidableEq, Repr

structure Env where
  envTf : Trapframe
  envLink : Option Nat
  envId : Nat
  envParentId : Nat
  envType : EnvType
  envStatus : EnvStatus
  envRuns : Nat
  envCpunum : Nat
  envPgdir : Option Nat
  envPgfaultUpcall : Nat
  envIpcRecving : Bool
  envIpcDstva : Nat
  envIpcValue : Nat
  envIpcFrom : Nat
  envIpcPerm : Nat

inductive CpuStatus where
  | unused
  | started
  | halted
  deriving DecidableEq, Repr

structure Cpu where
  cpuStatus : CpuStatus
  cpuEnv : Option Nat

/-- `envs[]` lies in the physical pages from `envsPage` on, and `kernelPage` are those with the
kernel's code, the rest of its data and its stacks. -/
structure Kernel where
  vm : Vm
  envs : Nat → Env
  envFreeList : Option Nat
  cpus : Nat → Cpu
  envsPage : Nat
  kernelPage : Nat → Bool

namespace Kernel

def setEnv (k : Kernel) (e : Nat) (env : Env) : Kernel := { k with envs := Function.update k.envs e env }

def setStatus (k : Kernel) (e : Nat) (st : EnvStatus) : Kernel :=
  k.setEnv e { k.envs e with envStatus := st }

def setTf (k : Kernel) (e : Nat) (tf : Trapframe) : Kernel := k.setEnv e { k.envs e with envTf := tf }

def curenv (k : Kernel) (cpu : Nat) : Option Nat := (k.cpus cpu).cpuEnv

def setCurenv (k : Kernel) (cpu : Nat) (e : Option Nat) : Kernel :=
  { k with cpus := Function.update k.cpus cpu { k.cpus cpu with cpuEnv := e } }

def setCpuStatus (k : Kernel) (cpu : Nat) (st : CpuStatus) : Kernel :=
  { k with cpus := Function.update k.cpus cpu { k.cpus cpu with cpuStatus := st } }

attribute [simp] setEnv setStatus setTf setCurenv setCpuStatus

end Kernel

def zeroRegs : PushRegs := ⟨0, 0, 0, 0, 0, 0, 0, 0⟩

def gdUt : UInt16 := 0x18
def gdUd : UInt16 := 0x20
def flIf : UInt32 := 0x200
def flIoplMask : UInt32 := 0x3000

/-- The register set `env_alloc` gives a new environment. -/
def initTf : Trapframe where
  tfRegs := zeroRegs
  tfEs := gdUd ||| 3
  tfDs := gdUd ||| 3
  tfTrapno := 0
  tfErr := 0
  tfEip := 0
  tfCs := gdUt ||| 3
  tfEflags := flIf
  tfEsp := 0xEEBFE000
  tfSs := gdUd ||| 3

/-- `cur` is the slot of `curenv`. The only error is `-E_BAD_ENV`, here `none`. -/
def envid2env (cur envid : Nat) (checkperm : Bool) (k : Kernel) : Option Nat :=
  if envid = 0 then some cur
  else
    let e := envx envid
    if (k.envs e).envStatus = .free ∨ (k.envs e).envId ≠ envid then none
    else if checkperm ∧ e ≠ cur ∧ (k.envs e).envParentId ≠ (k.envs cur).envId then none
    else some e

lemma envid2env_cases {cur envid e : Nat} {checkperm : Bool} {k : Kernel}
    (h : envid2env cur envid checkperm k = some e) : envid = 0 ∧ e = cur ∨
      e = envx envid ∧ (k.envs e).envStatus ≠ .free ∧ (k.envs e).envId = envid ∧
        (checkperm → e = cur ∨ (k.envs e).envParentId = (k.envs cur).envId) := by
  simp only [envid2env] at h
  split at h
  · rename_i hid
    exact .inl ⟨hid, (Option.some.inj h).symm⟩
  · split at h
    · cases h
    · rename_i hok
      rw [not_or, not_not] at hok
      split at h
      · cases h
      · rename_i hperm
        cases h
        refine .inr ⟨rfl, hok.1, hok.2, fun hcheck => ?_⟩
        by_contra hcon
        rw [not_or] at hcon
        exact hperm ⟨hcheck, hcon.1, hcon.2⟩

/-- The loop of `env_init`, from the last slot down. -/
def envInitLoop : Nat → Kernel → Kernel
  | 0, k => k
  | i + 1, k => envInitLoop i { k.setEnv i { k.envs i with
      envId := 0
      envStatus := .free
      envLink := k.envFreeList } with envFreeList := some i }

def envInit (k : Kernel) : Kernel := envInitLoop nenv { k with envFreeList := none }

/-- The page of the new directory, or `none` for `-E_NO_MEM`. -/
def envSetupVm (vm : Vm) : Option Nat × Vm :=
  match pageAlloc true vm with
  | (none, vm) => (none, vm)
  | (some p, vm) =>
    let vm := vm.incref p
    let vm := vm.setPage p (vm.mem vm.kernPgdir)
    (some p, vm.setWord p (pdx uvpt) (entry p (pteP ||| pteU)))

/-- The id `env_alloc` gives slot `e`, whose last id was `old`. -/
def nextEnvId (old e : Nat) : Nat :=
  let generation := (old + 4096) % 2 ^ 32 / 1024 * 1024
  (if generation = 0 ∨ 2 ^ 31 ≤ generation then 4096 else generation) ||| e

/-- The slot `e` as `env_alloc` fills it in. -/
@[simp] def newEnv (old : Env) (pd parentId e : Nat) : Env :=
  { old with
    envPgdir := some pd
    envId := nextEnvId old.envId e
    envParentId := parentId
    envType := .user
    envStatus := .runnable
    envRuns := 0
    envTf := initTf
    envPgfaultUpcall := 0
    envIpcRecving := false }

def envAlloc (parentId : Nat) (k : Kernel) : Except Int Nat × Kernel :=
  match k.envFreeList with
  | none => (.error (-eNoFreeEnv), k)
  | some e =>
    match envSetupVm k.vm with
    | (none, vm) => (.error (-eNoMem), { k with vm := vm })
    | (some pd, vm) =>
      (.ok e, { k.setEnv e (newEnv (k.envs e) pd parentId e) with
        vm := vm, envFreeList := (k.envs e).envLink })

/-- The loop of `region_alloc` with `n` pages left. -/
def regionLoop (pgdir : Nat) : Nat → Nat → Vm → Option Vm
  | 0, _, vm => some vm
  | n + 1, start, vm =>
    match pageAlloc false vm with
    | (none, _) => none
    | (some p, vm) =>
      match pageInsert pgdir p start (pteW ||| pteU) vm with
      | none => none
      | some (r, vm) => if r ≠ 0 then none else regionLoop pgdir n (start + 4096) vm

def regionAlloc (pgdir va len : Nat) (vm : Vm) : Option Vm :=
  let start := rounddown va
  let stop := roundup ((va + len) % 2 ^ 32)
  regionLoop pgdir ((stop - start) / 4096) start vm

structure Proghdr where
  pType : Nat
  pOffset : Nat
  pVa : Nat
  pFilesz : Nat
  pMemsz : Nat

structure Elf where
  eMagic : Nat
  eEntry : Nat
  ph : List Proghdr
  image : List Nat

def elfMagic : Nat := 0x464C457F
def elfProgLoad : Nat := 1

def loadSegment (pgdir : Nat) (image : List Nat) (ph : Proghdr) (vm : Vm) : Option Vm :=
  if ph.pType = elfProgLoad then do
    let vm ← regionAlloc pgdir ph.pVa ph.pMemsz vm
    let vm ← storeBytes pgdir ph.pVa (List.replicate ph.pMemsz 0) vm
    storeBytes pgdir ph.pVa ((image.drop ph.pOffset).take ph.pFilesz) vm
  else some vm

def loadSegments (pgdir : Nat) (image : List Nat) : List Proghdr → Vm → Option Vm
  | [], vm => some vm
  | ph :: phs, vm => do
    let vm ← loadSegment pgdir image ph vm
    loadSegments pgdir image phs vm

def loadedEnv (env : Env) (entryPoint : Nat) : Env :=
  { env with
    envStatus := .runnable
    envTf := { env.envTf with tfEsp := 0xEEBFE000, tfEip := entryPoint.toUInt32 } }

def loadIcode (e : Nat) (elf : Elf) (k : Kernel) : Option Kernel :=
  if elf.eMagic ≠ elfMagic then none
  else do
    let pgdir ← (k.envs e).envPgdir
    let vm ← loadSegments pgdir elf.image elf.ph k.vm
    let vm ← regionAlloc pgdir (ustacktop - pgsize) pgsize vm
    some { k.setEnv e (loadedEnv (k.envs e) elf.eEntry) with vm := vm }

/-- `env_type`, and for the file server the I/O privilege. -/
def typedEnv (env : Env) (type : EnvType) : Env :=
  if type = .fs then
    { env with
      envType := type
      envTf := { env.envTf with tfEflags := env.envTf.tfEflags ||| flIoplMask } }
  else { env with envType := type }

def envCreate (elf : Elf) (type : EnvType) (k : Kernel) : Option Kernel :=
  match envAlloc 0 k with
  | (.error _, _) => none
  | (.ok e, k) => (loadIcode e elf k).map fun k => k.setEnv e (typedEnv (k.envs e) type)

/-- The inner loop of `env_free` with `n` entries of the table `pt` left. -/
def envFreePtes (pgdir pdeno pt : Nat) : Nat → Nat → Vm → Option Vm
  | 0, _, vm => some vm
  | n + 1, pteno, vm =>
    (if present (vm.mem pt pteno) then pageRemove pgdir (pgaddr pdeno pteno 0) vm else some vm).bind
      fun vm => envFreePtes pgdir pdeno pt n (pteno + 1) vm

/-- The body of the outer loop of `env_free` for the table `pt` of a present directory entry. -/
def envFreeTable (pgdir pdeno pt : Nat) (vm : Vm) : Option Vm :=
  if vm.npages ≤ pt then none
  else (envFreePtes pgdir pdeno pt 1024 0 vm).bind fun vm => pageDecref pt (vm.setWord pgdir pdeno 0)

/-- The outer loop of `env_free` with `n` directory entries left. -/
def envFreePdes (pgdir : Nat) : Nat → Nat → Vm → Option Vm
  | 0, _, vm => some vm
  | n + 1, pdeno, vm =>
    (if present (vm.mem pgdir pdeno) then envFreeTable pgdir pdeno (ppn (vm.mem pgdir pdeno)) vm
      else some vm).bind
      fun vm => envFreePdes pgdir n (pdeno + 1) vm

/-- The state of the slot after `env_free`, on the free list in front of `link`. -/
@[simp] def freedEnv (env : Env) (link : Option Nat) : Env :=
  { env with envPgdir := none, envStatus := .free, envLink := link }

def envFree (e : Nat) (k : Kernel) : Option Kernel := do
  let pgdir ← (k.envs e).envPgdir
  let vm ← (envFreePdes pgdir npdeUser 0 k.vm).bind (pageDecref pgdir)
  some { k.setEnv e (freedEnv (k.envs e) k.envFreeList) with vm := vm, envFreeList := some e }

end Jos
