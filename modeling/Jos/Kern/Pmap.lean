import Jos.Mmu

/-!
# Physical pages and page tables

The functions of `kern/pmap.c`, over physical memory as an array of pages of
words. A page table pointer is the page that holds the table and an index in it,
so page tables, page directories and user data live in the same memory. `none`
is a kernel panic (or a null dereference, which the kernel turns into one).
-/

namespace Jos
open Bits Function

/-- What `kern/pmap.c` keeps: `pages[]`, `page_free_list`, `kern_pgdir` and the
contents of physical memory, word by word. -/
structure Vm where
  npages : Nat
  mem : Nat → Nat → Nat
  ppRef : Nat → Nat
  ppLink : Nat → Option Nat
  pageFreeList : Option Nat
  kernPgdir : Nat

namespace Vm

def setWord (vm : Vm) (p i v : Nat) : Vm :=
  { vm with mem := fun q j => if q = p ∧ j = i then v else vm.mem q j }

def setPage (vm : Vm) (p : Nat) (f : Nat → Nat) : Vm :=
  { vm with mem := fun q j => if q = p then f j else vm.mem q j }

def setRef (vm : Vm) (p r : Nat) : Vm := { vm with ppRef := update vm.ppRef p r }

/-- `pp->pp_ref++` on a 16-bit counter. -/
def incref (vm : Vm) (p : Nat) : Vm := vm.setRef p ((vm.ppRef p + 1) % 65536)

attribute [simp] setWord setPage setRef

end Vm

/-- `ALLOC_ZERO` is the flag `zero`. -/
def pageAlloc (zero : Bool) (vm : Vm) : Option Nat × Vm :=
  match vm.pageFreeList with
  | none => (none, vm)
  | some p =>
    let vm' := { vm with
      pageFreeList := vm.ppLink p
      ppRef := update vm.ppRef p 0
      ppLink := update vm.ppLink p none }
    (some p, if zero then vm'.setPage p (fun _ => 0) else vm')

def pageFree (pp : Nat) (vm : Vm) : Option Vm :=
  if vm.ppRef pp ≠ 0 ∨ vm.ppLink pp ≠ none then none
  else some { vm with
    ppLink := update vm.ppLink pp vm.pageFreeList
    pageFreeList := some pp }

def pageDecref (pp : Nat) (vm : Vm) : Option Vm :=
  let r := (vm.ppRef pp + 65535) % 65536
  if r = 0 then pageFree pp (vm.setRef pp r) else some (vm.setRef pp r)

def pgdirWalk (pgdir va : Nat) (create : Bool) (vm : Vm) : Option (Option (Nat × Nat) × Vm) :=
  let pde := vm.mem pgdir (pdx va)
  if present pde then
    if ppn pde < vm.npages then some (some (ppn pde, ptx va), vm) else none
  else if create then
    match pageAlloc true vm with
    | (none, vm') => some (none, vm')
    | (some pp, vm') =>
      some (some (pp, ptx va),
        (vm'.setWord pgdir (pdx va) (entry pp (pteP ||| (pteW ||| pteU)))).incref pp)
  else some (none, vm)

/-- The loop of `boot_map_region` with `n` pages left, at byte offset `i`. -/
def bootMapLoop (pgdir va pa perm : Nat) : Nat → Nat → Vm → Option Vm
  | 0, _, vm => some vm
  | n + 1, i, vm => do
    let (pte, vm) ← pgdirWalk pgdir ((va + i) % 2 ^ 32) true vm
    let (q, j) ← pte
    bootMapLoop pgdir va pa perm n (i + 4096) (vm.setWord q j ((pa + i) % 2 ^ 32 ||| (pteP ||| perm)))

def bootMapRegion (pgdir va size pa perm : Nat) (vm : Vm) : Option Vm :=
  bootMapLoop pgdir va pa perm ((size + 4095) / 4096) 0 vm

/-- The page at `va` and the pointer to its table entry. The entry's present bit
is not looked at: an empty entry yields page 0. -/
def pageLookup (pgdir va : Nat) (vm : Vm) : Option (Option (Nat × (Nat × Nat))) := do
  let (pte, vm) ← pgdirWalk pgdir va false vm
  match pte with
  | none => some none
  | some (q, j) =>
    if ppn (vm.mem q j) < vm.npages then some (some (ppn (vm.mem q j), (q, j))) else none

def pageRemove (pgdir va : Nat) (vm : Vm) : Option Vm :=
  match pageLookup pgdir va vm with
  | none => none
  | some none => some vm
  | some (some (pp, (q, j))) => (pageDecref pp vm).map fun vm => vm.setWord q j 0

def pageInsert (pgdir pp va perm : Nat) (vm : Vm) : Option (Int × Vm) :=
  match pgdirWalk pgdir va true vm with
  | none => none
  | some (none, vm) => some (-eNoMem, vm)
  | some (some (q, j), vm) =>
    let vm := vm.incref pp
    (if present (vm.mem q j) then pageRemove pgdir va vm else some vm).bind fun vm =>
      (bootMapRegion pgdir va pgsize (pp * 4096) perm vm).map fun vm => (0, vm)

/-- What `user_mem_check` reports: success, or the first erroneous address. -/
inductive MemCheck where
  | ok
  | fault (addr : Nat)
  deriving DecidableEq, Repr

/-- The loop of `user_mem_check` with `n` pages left, at page address `start`. -/
def userMemLoop (pgdir va perm : Nat) (vm : Vm) : Nat → Nat → Option MemCheck
  | 0, _ => some .ok
  | n + 1, start => do
    let (pte, _) ← pgdirWalk pgdir start false vm
    match pte with
    | none => some (.fault (max start va))
    | some (q, j) =>
      if vm.mem q j &&& (perm ||| pteP) ≠ perm ||| pteP then some (.fault (max start va))
      else userMemLoop pgdir va perm vm n (start + 4096)

def userMemCheck (pgdir va len perm : Nat) (vm : Vm) : Option MemCheck :=
  let start := rounddown va
  let stop := roundup ((va + len) % 2 ^ 32)
  userMemLoop pgdir va perm vm ((stop - start) / 4096) start

/-- The byte the kernel reads at `va` with `pgdir` installed, if the access does not fault. -/
def loadByte (pgdir va : Nat) (vm : Vm) : Option Nat :=
  let pde := vm.mem pgdir (pdx va)
  let pte := vm.mem (ppn pde) (ptx va)
  if present pde && present pte then
    some (vm.mem (ppn pte) (va % 4096 / 4) / 256 ^ (va % 4) % 256)
  else none

/-- The kernel's store of one byte at `va`; with `CR0_WP` set it faults on a read-only page. -/
def storeByte (pgdir va b : Nat) (vm : Vm) : Option Vm :=
  let pde := vm.mem pgdir (pdx va)
  let pte := vm.mem (ppn pde) (ptx va)
  if present pde && present pte && writable pde && writable pte then
    let w := vm.mem (ppn pte) (va % 4096 / 4)
    let low := w % 256 ^ (va % 4)
    let high := w / 256 ^ (va % 4 + 1) * 256 ^ (va % 4 + 1)
    some (vm.setWord (ppn pte) (va % 4096 / 4) (high + b * 256 ^ (va % 4) + low))
  else none

def loadBytes (pgdir va : Nat) (vm : Vm) : Nat → Option (List Nat)
  | 0 => some []
  | n + 1 => do
    let b ← loadByte pgdir va vm
    let bs ← loadBytes pgdir ((va + 1) % 2 ^ 32) vm n
    some (b :: bs)

def storeBytes (pgdir va : Nat) : List Nat → Vm → Option Vm
  | [], vm => some vm
  | b :: bs, vm => do
    let vm ← storeByte pgdir va b vm
    storeBytes pgdir ((va + 1) % 2 ^ 32) bs vm

def wordBytes (w : Nat) : List Nat := [w % 256, w / 256 % 256, w / 65536 % 256, w / 16777216 % 256]

def ofBytes : List Nat → Nat
  | [] => 0
  | b :: bs => b + 256 * ofBytes bs

end Jos
