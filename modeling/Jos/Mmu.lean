import Jos.Base.Bits

/-!
# Memory layout and page table words

Constants of `inc/mmu.h`, `inc/memlayout.h` and `inc/error.h`. A 32-bit word is a
`Nat`; every sum that can wrap in C is reduced modulo `2 ^ 32` where it is formed.
-/

namespace Jos
open Bits

def pgsize : Nat := 4096
def ptsize : Nat := 4194304
def npdentries : Nat := 1024

def pteP : Nat := 0x001
def pteW : Nat := 0x002
def pteU : Nat := 0x004
def pteD : Nat := 0x040
def pteAvail : Nat := 0xE00
def pteSyscall : Nat := pteAvail ||| pteP ||| pteW ||| pteU
def pteCow : Nat := 0x800
def pteShare : Nat := 0x400

def kernbase : Nat := 0xF0000000
def ulim : Nat := 0xEF800000
def uvpt : Nat := 0xEF400000
def utop : Nat := 0xEEC00000
def uxstacktop : Nat := utop
def ustacktop : Nat := utop - 2 * pgsize
def utemp : Nat := ptsize
def pftemp : Nat := utemp + ptsize - pgsize

def eBadEnv : Int := 2
def eInval : Int := 3
def eNoMem : Int := 4
def eNoFreeEnv : Int := 5
def eIpcNotRecv : Int := 7

def pgnum (la : Nat) : Nat := la / 4096
def pdx (la : Nat) : Nat := la / 4194304 % 1024
def ptx (la : Nat) : Nat := la / 4096 % 1024
def pgaddr (d t o : Nat) : Nat := d * 4194304 + t * 4096 + o

def npdeUser : Nat := 955

def rounddown (a : Nat) : Nat := a - a % 4096
def roundup (a : Nat) : Nat := rounddown ((a + 4096 - 1) % 2 ^ 32)

/-- `PTE_ADDR(w)` as a page number. -/
def ppn (w : Nat) : Nat := w / 4096

/-- The word `page2pa(pp) | perm`. -/
def entry (pp perm : Nat) : Nat := pp * 4096 ||| perm

def present (w : Nat) : Bool := flag w pteP
def writable (w : Nat) : Bool := flag w pteW

def target (w : Nat) : Option Nat := if present w then some (ppn w) else none

lemma pdx_lt_npdeUser {va : Nat} (h : va < utop) : pdx va < npdeUser := by
  unfold utop at h
  unfold pdx npdeUser
  omega

lemma ptx_lt (va : Nat) : ptx va < 1024 := Nat.mod_lt _ (by decide)

lemma pdx_lt (va : Nat) : pdx va < 1024 := Nat.mod_lt _ (by decide)

lemma pdx_pgaddr {d t : Nat} (hd : d < 1024) (ht : t < 1024) : pdx (pgaddr d t 0) = d := by
  unfold pdx pgaddr
  omega

lemma ptx_pgaddr {d t : Nat} (ht : t < 1024) : ptx (pgaddr d t 0) = t := by
  unfold ptx pgaddr
  omega

@[simp] lemma present_zero : present 0 = false := by decide

@[simp] lemma target_zero : target 0 = none := by decide

lemma ppn_entry {perm : Nat} (h : perm < 4096) (pp : Nat) : ppn (entry pp perm) = pp :=
  pack_div (k := 12) h pp

lemma entry_and {m : Nat} (h : m < 4096) (pp perm : Nat) : entry pp perm &&& m = perm &&& m :=
  pack_and (k := 12) h pp perm

lemma flag_entry {m : Nat} (h : m < 4096) (pp perm : Nat) : flag (entry pp perm) m = flag perm m := by
  rw [flag, entry_and h, flag]

lemma present_entry (pp perm : Nat) : present (entry pp (pteP ||| perm)) := by
  rw [present, flag_entry (by decide), flag_or]
  rfl

lemma writable_entry (pp perm : Nat) : writable (entry pp (pteP ||| perm)) = writable perm := by
  rw [writable, flag_entry (by decide), flag_or]
  rfl

lemma or_pteP_lt {perm : Nat} (h : perm < 4096) : pteP ||| perm < 4096 :=
  Nat.or_lt_two_pow (n := 12) (by decide) h

lemma target_entry {perm : Nat} (h : perm < 4096) (pp : Nat) : target (entry pp (pteP ||| perm)) = some pp := by
  simp only [target, present_entry, if_true, ppn_entry (or_pteP_lt h)]

lemma target_eq_some {w p : Nat} : target w = some p ↔ present w ∧ ppn w = p := by
  unfold target
  split <;> simp_all

lemma target_eq_none {w : Nat} : target w = none ↔ present w = false := by
  unfold target
  split <;> simp_all

end Jos
