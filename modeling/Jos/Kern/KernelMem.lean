import Jos.Kern.Sched

/-!
# Memory behind a kernel pointer

A pointer that the kernel follows without a check can lead to its own data. Of that data `envs[]` is
in the model twice, as records and as the bytes of `struct Env`: what is stored in these bytes changes
the record. A store that reaches the rest of the kernel, or gives a field a value it cannot have,
is `wild`. Below `ULIM` there are no pages of the kernel that can be written.
-/

namespace Jos
open Bits

def EnvStatus.toWord : EnvStatus → Nat
  | .free => 0
  | .dying => 1
  | .runnable => 2
  | .running => 3
  | .notRunnable => 4

def EnvStatus.ofWord : Nat → Option EnvStatus
  | 0 => some .free
  | 1 => some .dying
  | 2 => some .runnable
  | 3 => some .running
  | 4 => some .notRunnable
  | _ => none

def EnvType.toWord : EnvType → Nat
  | .user => 0
  | .fs => 1

def EnvType.ofWord : Nat → Option EnvType
  | 0 => some .user
  | 1 => some .fs
  | _ => none

def sizeofEnv : Nat := 124

/-- The pointer to element `i` of an array at `base` with elements of `size` bytes. -/
def ptr (base size : Nat) : Option Nat → Nat
  | none => 0
  | some i => base + size * i

def ofPtr (base size w : Nat) : Option (Option Nat) :=
  if w = 0 then some none
  else if base ≤ w ∧ (w - base) % size = 0 then some (some ((w - base) / size))
  else none

namespace Env

/-- Word `i` of the `struct Env`, in an `envs[]` at the address `base`. -/
def word (base : Nat) (env : Env) : Nat → Nat
  | 0 => env.envTf.tfRegs.regEdi.toNat
  | 1 => env.envTf.tfRegs.regEsi.toNat
  | 2 => env.envTf.tfRegs.regEbp.toNat
  | 3 => env.envTf.tfRegs.regOesp.toNat
  | 4 => env.envTf.tfRegs.regEbx.toNat
  | 5 => env.envTf.tfRegs.regEdx.toNat
  | 6 => env.envTf.tfRegs.regEcx.toNat
  | 7 => env.envTf.tfRegs.regEax.toNat
  | 8 => env.envTf.tfEs.toNat
  | 9 => env.envTf.tfDs.toNat
  | 10 => env.envTf.tfTrapno.toNat
  | 11 => env.envTf.tfErr.toNat
  | 12 => env.envTf.tfEip.toNat
  | 13 => env.envTf.tfCs.toNat
  | 14 => env.envTf.tfEflags.toNat
  | 15 => env.envTf.tfEsp.toNat
  | 16 => env.envTf.tfSs.toNat
  | 17 => ptr base sizeofEnv env.envLink
  | 18 => env.envId
  | 19 => env.envParentId
  | 20 => env.envType.toWord
  | 21 => env.envStatus.toWord
  | 22 => env.envRuns
  | 23 => env.envCpunum
  | 24 => ptr kernbase pgsize env.envPgdir
  | 25 => env.envPgfaultUpcall
  | 26 => env.envIpcRecving.toNat
  | 27 => env.envIpcDstva
  | 28 => env.envIpcValue
  | 29 => env.envIpcFrom
  | 30 => env.envIpcPerm
  | _ => 0

def setTfWord (tf : Trapframe) (w : Nat) : Nat → Trapframe
  | 0 => { tf with tfRegs.regEdi := w.toUInt32 }
  | 1 => { tf with tfRegs.regEsi := w.toUInt32 }
  | 2 => { tf with tfRegs.regEbp := w.toUInt32 }
  | 3 => { tf with tfRegs.regOesp := w.toUInt32 }
  | 4 => { tf with tfRegs.regEbx := w.toUInt32 }
  | 5 => { tf with tfRegs.regEdx := w.toUInt32 }
  | 6 => { tf with tfRegs.regEcx := w.toUInt32 }
  | 7 => { tf with tfRegs.regEax := w.toUInt32 }
  | 8 => { tf with tfEs := w.toUInt16 }
  | 9 => { tf with tfDs := w.toUInt16 }
  | 10 => { tf with tfTrapno := w.toUInt32 }
  | 11 => { tf with tfErr := w.toUInt32 }
  | 12 => { tf with tfEip := w.toUInt32 }
  | 13 => { tf with tfCs := w.toUInt16 }
  | 14 => { tf with tfEflags := w.toUInt32 }
  | 15 => { tf with tfEsp := w.toUInt32 }
  | _ => { tf with tfSs := w.toUInt16 }

/-- The record once word `i` is `w`. There is none if the field has no such value. -/
def setWord (base : Nat) (env : Env) (i w : Nat) : Option Env :=
  if i < 17 then some { env with envTf := setTfWord env.envTf w i }
  else match i with
    | 17 => (ofPtr base sizeofEnv w).map fun link => { env with envLink := link }
    | 18 => some { env with envId := w }
    | 19 => some { env with envParentId := w }
    | 20 => (EnvType.ofWord w).map fun type => { env with envType := type }
    | 21 => (EnvStatus.ofWord w).map fun status => { env with envStatus := status }
    | 22 => some { env with envRuns := w }
    | 23 => some { env with envCpunum := w }
    | 24 => (ofPtr kernbase pgsize w).map fun pgdir => { env with envPgdir := pgdir }
    | 25 => some { env with envPgfaultUpcall := w }
    | 26 => some { env with envIpcRecving := w % 256 != 0 }
    | 27 => some { env with envIpcDstva := w }
    | 28 => some { env with envIpcValue := w }
    | 29 => some { env with envIpcFrom := w }
    | _ => some { env with envIpcPerm := w }

end Env

/-- Byte `j` of `w`. -/
def byteOf (w j : Nat) : Nat := w / 256 ^ j % 256

/-- The word with `f` applied to byte `j`. -/
def patch (w j : Nat) (f : Nat → Nat) : Nat := w - byteOf w j * 256 ^ j + f (byteOf w j) * 256 ^ j

/-- `f` is applied to the byte at offset `o` of the `struct Env`. -/
def Env.patch (base o : Nat) (f : Nat → Nat) (env : Env) : Option Env :=
  if f (byteOf (env.word base (o / 4)) (o % 4)) = byteOf (env.word base (o / 4)) (o % 4) then some env
  else env.setWord base (o / 4) (Jos.patch (env.word base (o / 4)) (o % 4) f)

/-- A byte of physical memory, and whether an address at or above `ULIM` has led to it. -/
structure Cell where
  page : Nat
  off : Nat
  kernel : Bool
  deriving DecidableEq

/-- Where `va` leads with `pgdir` installed, and whether the byte there can be written. -/
def place (pgdir va : Nat) (vm : Vm) : Option (Cell × Bool) :=
  let pde := vm.mem pgdir (pdx va)
  let pte := vm.mem (ppn pde) (ptx va)
  if present pde && present pte then
    some (⟨ppn pte, va % 4096, ulim ≤ va⟩, writable pde && writable pte)
  else none

def Vm.patch (x : Cell) (f : Nat → Nat) (vm : Vm) : Vm :=
  vm.setWord x.page (x.off / 4) (Jos.patch (vm.mem x.page (x.off / 4)) (x.off % 4) f)

namespace Kernel

def envsBase (k : Kernel) : Nat := kernbase + k.envsPage * pgsize

/-- The offset in `envs[]` of a byte of its pages. -/
def envsOffset (k : Kernel) (x : Cell) : Option Nat :=
  if k.envsPage ≤ x.page ∧ x.page < k.envsPage + nenv * sizeofEnv / pgsize then
    some ((x.page - k.envsPage) * pgsize + x.off)
  else none

def byteAt (k : Kernel) (x : Cell) : Nat :=
  match k.envsOffset x with
  | some o => byteOf ((k.envs (o / sizeofEnv)).word k.envsBase (o % sizeofEnv / 4)) (o % 4)
  | none => byteOf (k.vm.mem x.page (x.off / 4)) (x.off % 4)

def loadByte (pgdir va : Nat) (k : Kernel) : Option Nat := (place pgdir va k.vm).map fun x => k.byteAt x.1

def loadBytes (pgdir va n : Nat) (k : Kernel) : Option (List Nat) :=
  (List.range n).mapM fun j => k.loadByte pgdir ((va + j) % 2 ^ 32)

/-- The slot of `envs[]` whose record a store at `x` changes, and where in the record. -/
def slotAt (k : Kernel) (x : Cell) : Option (Nat × Nat) :=
  if x.kernel then (k.envsOffset x).map fun o => (o / sizeofEnv, o % sizeofEnv) else none

/-- `f` is applied to the byte at `x`. -/
def patch (x : Cell) (f : Nat → Nat) (k : Kernel) : Outcome Unit :=
  match k.slotAt x with
  | some (e, o) =>
    match (k.envs e).patch k.envsBase o f with
    | none => .exit .wild
    | some env => .ret () (k.setEnv e env)
  | none =>
    if x.kernel && k.kernelPage x.page then .exit .wild
    else .ret () { k with vm := k.vm.patch x f }

end Kernel

section
variable {k k' : Kernel} {x : Cell} {f : Nat → Nat}

lemma patch_user (h : x.kernel = false) (f : Nat → Nat) (k : Kernel) :
    k.patch x f = .ret () { k with vm := k.vm.patch x f } := by
  simp [Kernel.patch, Kernel.slotAt, h]

lemma patch_exit {o : Exit} (h : k.patch x f = .exit o) : o = .wild := by
  unfold Kernel.patch at h
  split at h
  · split at h <;> cases h
    rfl
  · split at h <;> cases h
    rfl

/-- A store changes one record or one word. -/
lemma patch_ret (h : k.patch x f = .ret () k') :
    (∃ e o env, k.slotAt x = some (e, o) ∧ (k.envs e).patch k.envsBase o f = some env ∧ k' = k.setEnv e env) ∨
    k.slotAt x = none ∧ k' = { k with vm := k.vm.patch x f } := by
  unfold Kernel.patch at h
  split at h
  · rename_i e o hslot
    split at h
    · cases h
    · rename_i env henv
      cases h
      exact .inl ⟨e, o, env, hslot, henv, rfl⟩
  · rename_i hslot
    split at h
    · cases h
    · cases h
      exact .inr ⟨hslot, rfl⟩

end

end Jos
