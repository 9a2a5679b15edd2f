import Jos.Kern.KernelMem
import Jos.Lib.Printfmt

/-!
# System calls

The handlers of `kern/syscall.c` and their dispatcher. `cpu` is the CPU that runs
the call and `cur` the slot of its `curenv`; while a handler runs, `curenv`'s page
directory is the installed one.
-/

namespace Jos
open Bits

/-- `user_mem_assert`: `env_destroy` on a fault, which does not return for `curenv`. -/
def userMemAssert (cpu e va len perm : Nat) (k : Kernel) : Outcome Unit :=
  match (k.envs e).envPgdir with
  | none => .exit .panic
  | some pgdir =>
    match userMemCheck pgdir va len (perm ||| pteU) k.vm with
    | none => .exit .panic
    | some .ok => .ret () k
    | some (.fault _) => envDestroy cpu e k

def fmtPrecString : List Nat := [37, 46, 42, 115]

/-- `cprintf("%.*s", len, s)` in the address space of `pgdir`. -/
def cprintfPrec (pgdir len s : Nat) (vm : Vm) : Printfmt.Trace :=
  Printfmt.vprintfmt (fun a => loadByte pgdir a vm) fmtPrecString [len, s]

def sysCputs (cpu cur s len : Nat) (k : Kernel) : Outcome Unit :=
  (userMemAssert cpu cur s len pteU k).bind fun _ k =>
    match (k.envs cur).envPgdir with
    | none => .exit .panic
    | some pgdir =>
      match (cprintfPrec pgdir len s k.vm).stop with
      | none => .ret () k
      | some _ => .exit .panic

def sysEnvDestroy (cpu cur envid : Nat) (k : Kernel) : Outcome Int :=
  match envid2env cur envid true k with
  | none => .ret (-eBadEnv) k
  | some e => (envDestroy cpu e k).bind fun _ k => .ret 0 k

def sysExofork (cur : Nat) (k : Kernel) : Outcome Int :=
  match envAlloc (k.envs cur).envId k with
  | (.error r, k) => .ret r k
  | (.ok e, k) =>
    let tf := (k.envs cur).envTf
    let env := { k.envs e with
      envStatus := .notRunnable
      envTf := { tf with tfRegs := { tf.tfRegs with regEax := 0 } } }
    .ret env.envId (k.setEnv e env)

def envRunnable : Nat := 2
def envNotRunnable : Nat := 4

def sysEnvSetStatus (cur envid status : Nat) (k : Kernel) : Outcome Int :=
  match envid2env cur envid true k with
  | none => .ret (-eBadEnv) k
  | some e =>
    if status = envRunnable then .ret 0 (k.setStatus e .runnable)
    else if status = envNotRunnable then .ret 0 (k.setStatus e .notRunnable)
    else .ret (-eInval) k

def u32At (bs : List Nat) (i : Nat) : UInt32 := (ofBytes ((bs.drop i).take 4)).toUInt32

def u16At (bs : List Nat) (i : Nat) : UInt16 := (ofBytes ((bs.drop i).take 2)).toUInt16

def decodeTrapframe (bs : List Nat) : Trapframe where
  tfRegs := ⟨u32At bs 0, u32At bs 4, u32At bs 8, u32At bs 12, u32At bs 16, u32At bs 20, u32At bs 24,
    u32At bs 28⟩
  tfEs := u16At bs 32
  tfDs := u16At bs 36
  tfTrapno := u32At bs 40
  tfErr := u32At bs 44
  tfEip := u32At bs 48
  tfCs := u16At bs 52
  tfEflags := u32At bs 56
  tfEsp := u32At bs 60
  tfSs := u16At bs 64

def Trapframe.sanitised (tf : Trapframe) : Trapframe :=
  { tf with tfEflags := (tf.tfEflags ||| flIf) &&& ~~~flIoplMask, tfCs := tf.tfCs ||| 3 }

/-- What the sanitising makes of the second byte of `tf_eflags`, which has `FL_IF` and the IOPL. -/
def sanitiseFlags (b : Nat) : Nat := (b ||| 0x02) &&& 0xCF

/-- What it makes of the first byte of `tf_cs`. -/
def sanitiseCs (b : Nat) : Nat := b ||| 3

/-- All bytes of the frame can be read, and those of `tf_cs` and `tf_eflags` can be written. -/
def frameMapped (pgdir tf : Nat) (vm : Vm) : Bool :=
  ((List.range 68).all fun j => (place pgdir ((tf + j) % 2 ^ 32) vm).isSome) &&
    [52, 53, 56, 57, 58, 59].all fun j => (place pgdir ((tf + j) % 2 ^ 32) vm).any Prod.snd

/-- The trapframe at `tf` is made safe in place and copied. Two bytes of it change; the others of the two
fields are stored as they were. However the pages are mapped, no two bytes of a frame share a
place, so the copy has the two fields as they were stored and everything else as it was. -/
def sanitiseTrapframe (pgdir tf : Nat) (k : Kernel) : Outcome Trapframe :=
  match k.loadBytes pgdir tf 68, place pgdir ((tf + 57) % 2 ^ 32) k.vm, place pgdir ((tf + 52) % 2 ^ 32) k.vm with
  | some bs, some flags, some cs =>
    if frameMapped pgdir tf k.vm then
      (k.patch flags.1 sanitiseFlags).bind fun _ k => (k.patch cs.1 sanitiseCs).bind fun _ k =>
        .ret (decodeTrapframe bs).sanitised k
    else .exit .panic
  | _, _, _ => .exit .panic

section
variable {pgdir tf : Nat} {k k' : Kernel} {frame : Trapframe}

lemma sanitiseTrapframe_ret (h : sanitiseTrapframe pgdir tf k = .ret frame k') :
    ∃ bs x y k1, k.loadBytes pgdir tf 68 = some bs ∧ frame = (decodeTrapframe bs).sanitised ∧
      place pgdir ((tf + 57) % 2 ^ 32) k.vm = some x ∧ place pgdir ((tf + 52) % 2 ^ 32) k.vm = some y ∧
      frameMapped pgdir tf k.vm = true ∧ k.patch x.1 sanitiseFlags = .ret () k1 ∧
      k1.patch y.1 sanitiseCs = .ret () k' := by
  unfold sanitiseTrapframe at h
  split at h
  · rename_i bs x y hbs hx hy
    split at h
    · rename_i hmapped
      cases h1 : k.patch x.1 sanitiseFlags with
      | exit o =>
        rw [h1] at h
        cases h
      | ret u k1 =>
        rw [h1] at h
        cases h2 : k1.patch y.1 sanitiseCs with
        | exit o =>
          simp only [Outcome.bind, h2] at h
          cases h
        | ret u k2 =>
          simp only [Outcome.bind, h2] at h
          cases h
          exact ⟨bs, x, y, k1, hbs, rfl, hx, hy, hmapped, h1, h2⟩
    · cases h
  · cases h

lemma sanitiseTrapframe_exit {o : Exit} (h : sanitiseTrapframe pgdir tf k = .exit o) : o = .panic ∨ o = .wild := by
  unfold sanitiseTrapframe at h
  split at h
  · rename_i bs x y _ _ _
    split at h
    · cases h1 : k.patch x.1 sanitiseFlags with
      | exit o' =>
        rw [h1] at h
        cases h
        exact .inr (patch_exit h1)
      | ret u k1 =>
        rw [h1] at h
        cases h2 : k1.patch y.1 sanitiseCs with
        | exit o' =>
          simp only [Outcome.bind, h2] at h
          cases h
          exact .inr (patch_exit h2)
        | ret u k2 =>
          simp only [Outcome.bind, h2] at h
          cases h
    · cases h
      exact .inl rfl
  · cases h
    exact .inl rfl

lemma place_user {va : Nat} {vm : Vm} {x : Cell × Bool} (hva : va < ulim) (h : place pgdir va vm = some x) :
    x.1.kernel = false := by
  unfold place at h
  dsimp only at h
  split at h
  · cases h
    exact decide_eq_false (Nat.not_le.mpr hva)
  · cases h

/-- A frame below `ULIM` is in memory that the kernel does not use. -/
lemma sanitiseTrapframe_user (hlow : tf + 68 ≤ ulim) (h : sanitiseTrapframe pgdir tf k = .ret frame k') :
    ∃ bs x y, k.loadBytes pgdir tf 68 = some bs ∧ frame = (decodeTrapframe bs).sanitised ∧
      place pgdir (tf + 57) k.vm = some x ∧ place pgdir (tf + 52) k.vm = some y ∧ frameMapped pgdir tf k.vm = true ∧
      k' = { k with vm := (k.vm.patch x.1 sanitiseFlags).patch y.1 sanitiseCs } := by
  obtain ⟨bs, x, y, k1, hbs, hframe, hx, hy, hmapped, h1, h2⟩ := sanitiseTrapframe_ret h
  have hmod : ∀ j, j < 68 → (tf + j) % 2 ^ 32 = tf + j := fun j hj => Nat.mod_eq_of_lt (by unfold ulim at hlow; omega)
  rw [hmod 57 (by decide)] at hx
  rw [hmod 52 (by decide)] at hy
  rw [patch_user (place_user (by omega) hx)] at h1
  cases h1
  rw [patch_user (place_user (by omega) hy)] at h2
  cases h2
  exact ⟨bs, x, y, hbs, hframe, hx, hy, hmapped, rfl⟩

lemma sanitiseTrapframe_low (hlow : tf + 68 ≤ ulim) {o : Exit} (h : sanitiseTrapframe pgdir tf k = .exit o) :
    o = .panic := by
  unfold sanitiseTrapframe at h
  have hmod : ∀ j, j < 68 → (tf + j) % 2 ^ 32 = tf + j := fun j hj => Nat.mod_eq_of_lt (by unfold ulim at hlow; omega)
  rw [hmod 57 (by decide), hmod 52 (by decide)] at h
  split at h
  · rename_i bs x y _ hx hy
    rw [patch_user (place_user (by omega) hx)] at h
    simp only [Outcome.bind, patch_user (place_user (show tf + 52 < ulim by omega) hy)] at h
    split at h <;> cases h
    rfl
  · cases h
    rfl

end

def sysEnvSetTrapframe (cpu cur envid tf : Nat) (k : Kernel) : Outcome Int :=
  match envid2env cur envid true k with
  | none => .ret (-eBadEnv) k
  | some e =>
    (userMemAssert cpu e tf 68 pteU k).bind fun _ k =>
      match (k.envs cur).envPgdir with
      | none => .exit .panic
      | some pgdir =>
        (sanitiseTrapframe pgdir tf k).bind fun frame k => .ret 0 (k.setTf e frame)

def sysEnvSetPgfaultUpcall (cur envid func : Nat) (k : Kernel) : Outcome Int :=
  match envid2env cur envid true k with
  | none => .ret (-eBadEnv) k
  | some e => .ret 0 (k.setEnv e { k.envs e with envPgfaultUpcall := func })

/-- The permission test of `sys_page_alloc` and its siblings. -/
def badPerm (perm : Nat) : Bool :=
  perm &&& (pteU ||| pteP) != (pteU ||| pteP) || flag perm (0xFFFFFFFF ^^^ pteSyscall)

/-- The address test of `sys_page_alloc` and its siblings. -/
def badVa (va : Nat) : Bool := utop ≤ va || va % pgsize != 0

def sysPageAlloc (cur envid va perm : Nat) (k : Kernel) : Outcome Int :=
  match envid2env cur envid true k with
  | none => .ret (-eBadEnv) k
  | some e =>
    if badPerm perm then .ret (-eInval) k
    else if badVa va then .ret (-eInval) k
    else
      match pageAlloc true k.vm, (k.envs e).envPgdir with
      | (none, vm), _ => .ret (-eNoMem) { k with vm := vm }
      | (some _, _), none => .exit .panic
      | (some p, vm), some pgdir =>
        match pageInsert pgdir p va perm vm with
        | none => .exit .panic
        | some (r, vm) =>
          if r ≠ 0 then
            match pageDecref p vm with
            | none => .exit .panic
            | some vm => .ret r { k with vm := vm }
          else .ret 0 { k with vm := vm }

/-- The write test reads `!(*pte | PTE_W)`, which no entry passes. -/
def sysPageMap (cur srcenvid srcva dstenvid dstva perm : Nat) (k : Kernel) : Outcome Int :=
  match envid2env cur srcenvid true k with
  | none => .ret (-eBadEnv) k
  | some src =>
    match envid2env cur dstenvid true k with
    | none => .ret (-eBadEnv) k
    | some dst =>
      if badPerm perm then .ret (-eInval) k
      else if badVa srcva || badVa dstva then .ret (-eInval) k
      else
        match (k.envs src).envPgdir with
        | none => .exit .panic
        | some spd =>
          match pageLookup spd srcva k.vm with
          | none => .exit .panic
          | some none => .ret (-eInval) k
          | some (some (p, (q, j))) =>
            if (k.vm.mem q j ||| pteW) = 0 && flag perm pteW then .ret (-eInval) k
            else
              match (k.envs dst).envPgdir with
              | none => .exit .panic
              | some dpd =>
                match pageInsert dpd p dstva perm k.vm with
                | none => .exit .panic
                | some (r, vm) => .ret r { k with vm := vm }

def sysPageUnmap (cur envid va : Nat) (k : Kernel) : Outcome Int :=
  match envid2env cur envid true k with
  | none => .ret (-eBadEnv) k
  | some e =>
    if badVa va then .ret (-eInval) k
    else
      match (k.envs e).envPgdir with
      | none => .exit .panic
      | some pgdir =>
        match pageRemove pgdir va k.vm with
        | none => .exit .panic
        | some vm => .ret 0 { k with vm := vm }

def deliver (env : Env) (from_ value perm : Nat) : Env :=
  { env with
    envIpcRecving := false
    envIpcFrom := from_
    envIpcValue := value
    envIpcPerm := perm
    envStatus := .runnable
    envTf := { env.envTf with tfRegs := { env.envTf.tfRegs with regEax := 0 } } }

/-- The page transfer of `sys_ipc_try_send`: the permission recorded, or the error. -/
def ipcTransfer (cur dst srcva perm : Nat) (k : Kernel) : Option (Except Int Nat × Vm) :=
  if utop ≤ srcva then some (.ok 0, k.vm)
  else if srcva % pgsize ≠ 0 then some (.error (-eInval), k.vm)
  else if badPerm perm then some (.error (-eInval), k.vm)
  else do
    let spd ← (k.envs cur).envPgdir
    match ← pageLookup spd srcva k.vm with
    | none => some (.error (-eInval), k.vm)
    | some (pp, (q, j)) =>
      if flag perm pteW && !flag (k.vm.mem q j) pteW then some (.error (-eInval), k.vm)
      else if (k.envs dst).envIpcDstva < utop then
        let dpd ← (k.envs dst).envPgdir
        let (r, vm) ← pageInsert dpd pp (k.envs dst).envIpcDstva perm k.vm
        if r < 0 then some (.error r, vm) else some (.ok perm, vm)
      else some (.ok 0, k.vm)

def sysIpcTrySend (cur envid value srcva perm : Nat) (k : Kernel) : Outcome Int :=
  match envid2env cur envid false k with
  | none => .ret (-eBadEnv) k
  | some dst =>
    if !(k.envs dst).envIpcRecving then .ret (-eIpcNotRecv) k
    else
      match ipcTransfer cur dst srcva perm k with
      | none => .exit .panic
      | some (.error r, vm) => .ret r { k with vm := vm }
      | some (.ok perm, vm) =>
        .ret 0 ({ k with vm := vm }.setEnv dst (deliver (k.envs dst) (k.envs cur).envId value perm))

/-- The receiver as `sys_ipc_recv` leaves it before it yields. -/
@[simp] def blockEnv (env : Env) (dstva : Nat) : Env :=
  { env with envIpcRecving := true, envIpcDstva := dstva, envStatus := .notRunnable }

def sysIpcRecv (cpu cur dstva : Nat) (k : Kernel) : Outcome Int :=
  if dstva < utop ∧ dstva % pgsize ≠ 0 then .ret (-eInval) k
  else .exit (schedYield cpu (k.setEnv cur (blockEnv (k.envs cur) dstva)))

inductive Sysno where
  | cputs
  | cgetc
  | getenvid
  | envDestroy
  | pageAlloc
  | pageMap
  | pageUnmap
  | exofork
  | envSetStatus
  | envSetTrapframe
  | envSetPgfaultUpcall
  | yield
  | ipcTrySend
  | ipcRecv
  deriving DecidableEq, Repr

/-- `inc/syscall.h`. -/
def Sysno.decode : Nat → Option Sysno
  | 0 => some cputs
  | 1 => some cgetc
  | 2 => some getenvid
  | 3 => some envDestroy
  | 4 => some pageAlloc
  | 5 => some pageMap
  | 6 => some pageUnmap
  | 7 => some exofork
  | 8 => some envSetStatus
  | 9 => some envSetTrapframe
  | 10 => some envSetPgfaultUpcall
  | 11 => some yield
  | 12 => some ipcTrySend
  | 13 => some ipcRecv
  | _ => none

/-- `ch` is the character the console has ready. The case of `SYS_env_set_trapframe`
has no `break` and falls through to the default. -/
def syscall (cpu cur ch no a1 a2 a3 a4 a5 : Nat) (k : Kernel) : Outcome Int :=
  match Sysno.decode no with
  | some .cputs => (sysCputs cpu cur a1 a2 k).bind fun _ k => .ret 0 k
  | some .cgetc => .ret ch k
  | some .getenvid => .ret (k.envs cur).envId k
  | some .envDestroy => sysEnvDestroy cpu cur a1 k
  | some .yield => .exit (schedYield cpu k)
  | some .exofork => sysExofork cur k
  | some .envSetStatus => sysEnvSetStatus cur a1 a2 k
  | some .pageAlloc => sysPageAlloc cur a1 a2 a3 k
  | some .pageMap => sysPageMap cur a1 a2 a3 a4 a5 k
  | some .pageUnmap => sysPageUnmap cur a1 a2 k
  | some .envSetPgfaultUpcall => sysEnvSetPgfaultUpcall cur a1 a2 k
  | some .ipcTrySend => sysIpcTrySend cur a1 a2 a3 a4 k
  | some .ipcRecv => sysIpcRecv cpu cur a1 k
  | some .envSetTrapframe => (sysEnvSetTrapframe cpu cur a1 a2 k).bind fun _ k => .ret (-eInval) k
  | none => .ret (-eInval) k

end Jos
