import Jos.Kern.Syscall

/-!
# Traps

`trap`, `trap_dispatch` and `page_fault_handler` of `kern/trap.c`: one kernel
entry, from the gate to the exit, with the big kernel lock held throughout.
-/

namespace Jos
open Bits

def tBrkpt : Nat := 3
def tPgflt : Nat := 14
def tSyscall : Nat := 48
def irqOffset : Nat := 32
def irqTimer : Nat := 0
def irqKbd : Nat := 1
def irqSerial : Nat := 4
def irqSpurious : Nat := 7

def utrapframe (faultVa : UInt32) (tf : Trapframe) : List UInt32 :=
  [faultVa, tf.tfErr,
    tf.tfRegs.regEdi, tf.tfRegs.regEsi, tf.tfRegs.regEbp, tf.tfRegs.regOesp,
    tf.tfRegs.regEbx, tf.tfRegs.regEdx, tf.tfRegs.regEcx, tf.tfRegs.regEax,
    tf.tfEip, tf.tfEflags, tf.tfEsp]

/-- Where the frame goes for a trap-time stack pointer `esp`: one word is left free
above it, also when the exception stack is not yet in use. -/
def utfAddr (esp : Nat) : Nat :=
  if uxstacktop - pgsize ≤ esp ∧ esp < uxstacktop then esp - 52 - 4 else uxstacktop - 52 - 4

def setReturn (k : Kernel) (e : Nat) (r : Int) : Kernel :=
  let tf := (k.envs e).envTf
  k.setTf e { tf with tfRegs := { tf.tfRegs with regEax := (r % 2 ^ 32).toNat.toUInt32 } }

def userPageFault (cpu cur : Nat) (faultVa : UInt32) (k : Kernel) : Outcome Unit :=
  let env := k.envs cur
  if env.envPgfaultUpcall ≠ 0 then
    let addr := utfAddr env.envTf.tfEsp.toNat
    (userMemAssert cpu cur addr 56 (pteP ||| pteU ||| pteW) k).bind fun _ k =>
      match (k.envs cur).envPgdir with
      | none => .exit .panic
      | some pgdir =>
        let bytes := (utrapframe faultVa env.envTf).flatMap fun w => wordBytes w.toNat
        match storeBytes pgdir addr bytes k.vm with
        | none => .exit .panic
        | some vm =>
          let tf := { env.envTf with
            tfEip := env.envPgfaultUpcall.toUInt32
            tfEsp := addr.toUInt32 }
          .exit (envRun cpu cur ({ k with vm := vm }.setTf cur tf))
  else envDestroy cpu cur k

/-- `trap_dispatch` for a trap from user mode; `tf` is `curenv->env_tf`. -/
def dispatchUser (cpu cur : Nat) (faultVa : UInt32) (ch : Nat) (k : Kernel) : Outcome Unit :=
  let tf := (k.envs cur).envTf
  let no := tf.tfTrapno.toNat
  if no = tPgflt then userPageFault cpu cur faultVa k
  else if no = tBrkpt then .ret () k
  else if no = tSyscall then
    (syscall cpu cur ch tf.tfRegs.regEax.toNat tf.tfRegs.regEdx.toNat tf.tfRegs.regEcx.toNat
      tf.tfRegs.regEbx.toNat tf.tfRegs.regEdi.toNat tf.tfRegs.regEsi.toNat k).bind
      fun r k => .ret () (setReturn k cur r)
  else if no = irqOffset + irqSpurious then .ret () k
  else if no = irqOffset + irqTimer then .exit (schedYield cpu k)
  else if no = irqOffset + irqKbd then .ret () k
  else if no = irqOffset + irqSerial then .ret () k
  else envDestroy cpu cur k

/-- `trap_dispatch` for a trap from kernel mode, with the frame on the kernel stack. -/
def dispatchKernel (cpu : Nat) (tf : Trapframe) (k : Kernel) : Outcome Unit :=
  let no := tf.tfTrapno.toNat
  if no = tPgflt then .exit .panic
  else if no = tBrkpt then .ret () k
  else if no = irqOffset + irqSpurious then .ret () k
  else if no = irqOffset + irqTimer then .exit (schedYield cpu k)
  else if no = irqOffset + irqKbd then .ret () k
  else if no = irqOffset + irqSerial then .ret () k
  else .exit .panic

def trapReturn (cpu : Nat) (k : Kernel) : Exit :=
  match k.curenv cpu with
  | none => schedYield cpu k
  | some e => if (k.envs e).envStatus = .running then envRun cpu e k else schedYield cpu k

def afterDispatch (cpu : Nat) : Outcome Unit → Exit
  | .ret _ k => trapReturn cpu k
  | .exit x => x

/-- One kernel entry. `cr2` is the faulting address and `ch` the console's next character. -/
def trap (cpu : Nat) (tf : Trapframe) (cr2 : UInt32) (ch : Nat) (k : Kernel) : Exit :=
  let k := k.setCpuStatus cpu .started
  if tf.tfCs &&& 3 = 3 then
    match k.curenv cpu with
    | none => .panic
    | some cur =>
      if (k.envs cur).envStatus = .dying then
        match envFree cur k with
        | none => .panic
        | some k => schedYield cpu (k.setCurenv cpu none)
      else afterDispatch cpu (dispatchUser cpu cur cr2 ch (k.setTf cur tf))
  else afterDispatch cpu (dispatchKernel cpu tf k)

def callFrame (no a1 a2 a3 a4 a5 : UInt32) : Trapframe :=
  { initTf with
    tfTrapno := 48
    tfRegs := { zeroRegs with
      regEax := no, regEdx := a1, regEcx := a2, regEbx := a3, regEdi := a4, regEsi := a5 } }

lemma callFrame_user (no a1 a2 a3 a4 a5 : UInt32) : (callFrame no a1 a2 a3 a4 a5).tfCs &&& 3 = 3 := by
  change initTf.tfCs &&& 3 = 3
  decide

lemma callFrame_trapno (no a1 a2 a3 a4 a5 : UInt32) : (callFrame no a1 a2 a3 a4 a5).tfTrapno.toNat = tSyscall := rfl

end Jos
