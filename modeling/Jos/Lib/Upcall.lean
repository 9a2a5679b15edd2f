import Jos.Base.ByteMem
import Jos.Kern.AddressSpace

/-!
# The page fault upcall

`_pgfault_upcall` of `lib/pfentry.S`, instruction by instruction, over the
registers and the memory that an environment sees, and the frames that
`page_fault_handler` pushes for it. Faults nest: a handler may fault, and so may
the store of the upcall that puts the return address below the trap-time stack.
-/

namespace Jos
open ByteMem Relation

structure UserState where
  edi : UInt32
  esi : UInt32
  ebp : UInt32
  ebx : UInt32
  edx : UInt32
  ecx : UInt32
  eax : UInt32
  eip : UInt32
  esp : UInt32
  eflags : UInt32
  mem : Mem

/-- The instructions of `_pgfault_upcall`. -/
inductive Instr where
  /-- `pushl %esp` -/
  | pushlEsp
  /-- `movl _pgfault_handler, %eax` -/
  | movlHandlerEax
  /-- `call *%eax` -/
  | callEax
  /-- `addl $n, %esp` -/
  | addlEsp (n : UInt32)
  /-- `movl n(%esp), %edi` -/
  | movlStackEdi (n : UInt32)
  /-- `subl $n, %edi` -/
  | sublEdi (n : UInt32)
  /-- `movl %edi, n(%esp)` -/
  | movlEdiStack (n : UInt32)
  /-- `movl n(%esp), %esi` -/
  | movlStackEsi (n : UInt32)
  /-- `movl %esi, (%edi)` -/
  | movlEsiEdi
  | popal
  | popfl
  /-- `popl %esp` -/
  | poplEsp
  | ret
  deriving DecidableEq, Repr

def flArith : UInt32 := 0x8D5

/-- What `popfl` loads in user mode: all of `eflags` but `IF`, `IOPL` and reserved bits. -/
def flUser : UInt32 := 0x244DD5

/-- Where the linker put things: `_pgfault_upcall`, the variable `_pgfault_handler` and
the instruction after the call. `flags` is what the ALU makes of the arithmetic flags. -/
structure Layout where
  upcall : UInt32
  handler : UInt32
  afterCall : UInt32
  flags : Instr → UserState → UInt32

def arithFlags (l : Layout) (i : Instr) (u : UserState) : UInt32 :=
  (u.eflags &&& ~~~flArith) ||| (l.flags i u &&& flArith)

def Instr.exec (l : Layout) (i : Instr) (u : UserState) : UserState :=
  match i with
  | .pushlEsp => { u with esp := u.esp - 4, mem := store u.mem (u.esp - 4) u.esp }
  | .movlHandlerEax => { u with eax := load u.mem l.handler }
  | .callEax =>
    { u with esp := u.esp - 4, mem := store u.mem (u.esp - 4) l.afterCall, eip := u.eax }
  | .addlEsp n => { u with esp := u.esp + n, eflags := arithFlags l (.addlEsp n) u }
  | .movlStackEdi n => { u with edi := load u.mem (u.esp + n) }
  | .sublEdi n => { u with edi := u.edi - n, eflags := arithFlags l (.sublEdi n) u }
  | .movlEdiStack n => { u with mem := store u.mem (u.esp + n) u.edi }
  | .movlStackEsi n => { u with esi := load u.mem (u.esp + n) }
  | .movlEsiEdi => { u with mem := store u.mem u.edi u.esi }
  | .popal =>
    { u with
      edi := load u.mem u.esp
      esi := load u.mem (u.esp + 4)
      ebp := load u.mem (u.esp + 8)
      ebx := load u.mem (u.esp + 16)
      edx := load u.mem (u.esp + 20)
      ecx := load u.mem (u.esp + 24)
      eax := load u.mem (u.esp + 28)
      esp := u.esp + 32 }
  | .popfl =>
    { u with
      eflags := (u.eflags &&& ~~~flUser) ||| (load u.mem u.esp &&& flUser)
      esp := u.esp + 4 }
  | .poplEsp => { u with esp := load u.mem u.esp }
  | .ret => { u with eip := load u.mem u.esp, esp := u.esp + 4 }

def Layout.runs (l : Layout) (is : List Instr) (u : UserState) : UserState :=
  is.foldl (fun u i => i.exec l u) u

def upcallCall : List Instr := [.pushlEsp, .movlHandlerEax, .callEax]

/-- From the handler's return to the store on the trap-time stack, which may itself fault. -/
def upcallLeave : List Instr :=
  [.addlEsp 4, .movlStackEdi 48, .sublEdi 4, .movlEdiStack 48, .movlStackEsi 40]

def upcallResume : List Instr :=
  [.movlEsiEdi, .addlEsp 8, .popal, .addlEsp 4, .popfl, .poplEsp, .ret]

structure Fault where
  user : UserState
  oesp : UInt32
  err : UInt32
  va : UInt32

variable {f : Fault}

def Fault.trapframe (f : Fault) : Trapframe :=
  { initTf with
    tfRegs :=
      { regEdi := f.user.edi, regEsi := f.user.esi, regEbp := f.user.ebp, regOesp := f.oesp,
        regEbx := f.user.ebx, regEdx := f.user.edx, regEcx := f.user.ecx, regEax := f.user.eax }
    tfTrapno := 14
    tfErr := f.err
    tfEip := f.user.eip
    tfEflags := f.user.eflags
    tfEsp := f.user.esp }

def Fault.addr (f : Fault) : UInt32 := (utfAddr f.user.esp.toNat).toUInt32

/-- The state in which `page_fault_handler` runs the environment again. -/
def Fault.pushed (l : Layout) (f : Fault) : UserState :=
  { f.user with
    eip := l.upcall
    esp := f.addr
    mem := fill f.user.mem f.addr ((utrapframe f.va f.trapframe).flatMap bytes) }

def Fault.entered (l : Layout) (f : Fault) : UserState := l.runs upcallCall (f.pushed l)

/-- The exception stack has room for the frame, the handler's argument and its return address. -/
def Fault.Room (f : Fault) : Prop := uxstacktop - pgsize + 8 ≤ utfAddr f.user.esp.toNat

inductive Stage where
  /-- The handler runs. -/
  | handling
  /-- The handler has returned, and the trap-time stack is about to be written. -/
  | leaving
  deriving DecidableEq, Repr

structure Handling where
  user : UserState
  faults : List (Fault × Stage)

/-- A fault taken while handling others happens on the exception stack, below their frames. -/
def Fault.Below (f : Fault) (g : Fault × Stage) : Prop :=
  uxstacktop - pgsize ≤ f.user.esp.toNat ∧ f.user.esp.toNat ≤ g.1.addr.toNat

def Works (Program : UserState → UserState → Prop) (x y : Handling) : Prop :=
  Program x.user y.user ∧ y.faults = x.faults ∧ (∀ g ∈ x.faults.head?, g.2 = .handling) ∧
    ∀ g ∈ x.faults, ∀ b, (b - g.1.addr).toNat < 52 → y.user.mem b = x.user.mem b

def Faults (l : Layout) (f : Fault) (x y : Handling) : Prop :=
  f.user = x.user ∧ f.Room ∧ (∀ g ∈ x.faults.head?, f.Below g) ∧
    y = ⟨f.entered l, (f, .handling) :: x.faults⟩

def Leaves (l : Layout) (f : Fault) (x y : Handling) : Prop :=
  ∃ fs, x.faults = (f, .handling) :: fs ∧ x.user.esp = f.addr - 4 ∧
    y = ⟨l.runs upcallLeave x.user, (f, .leaving) :: fs⟩

def Resumes (l : Layout) (f : Fault) (x y : Handling) : Prop :=
  ∃ fs, x.faults = (f, .leaving) :: fs ∧ y = ⟨l.runs upcallResume x.user, fs⟩

def Moves (l : Layout) (Program : UserState → UserState → Prop) (x y : Handling) : Prop :=
  Works Program x y ∨ ∃ f, Faults l f x y ∨ Leaves l f x y ∨ Resumes l f x y

structure SameRegs (u v : UserState) : Prop where
  edi : v.edi = u.edi
  esi : v.esi = u.esi
  ebp : v.ebp = u.ebp
  ebx : v.ebx = u.ebx
  edx : v.edx = u.edx
  ecx : v.ecx = u.ecx
  eax : v.eax = u.eax

structure Restored (f : Fault) (v : UserState) : Prop where
  regs : SameRegs f.user v
  eip : v.eip = f.user.eip
  esp : v.esp = f.user.esp
  flags : v.eflags &&& flArith = f.user.eflags &&& flArith

def Fault.frame (f : Fault) (s : Stage) : List UInt32 :=
  utrapframe f.va
    { f.trapframe with tfEsp := if s = .leaving then f.user.esp - 4 else f.user.esp }

def FrameAt (m : Mem) (g : Fault × Stage) : Prop :=
  ∀ i w, (g.1.frame g.2)[i]? = some w → load m (g.1.addr + (4 * i).toUInt32) = w

def Ready (f : Fault) (u : UserState) : Prop :=
  u.edi = f.user.esp - 4 ∧ u.esi = f.user.eip ∧ u.esp = f.addr

def Held : UserState → List (Fault × Stage) → Prop
  | _, [] => True
  | u, (f, s) :: fs => (s = .leaving → Ready f u) ∧ Held f.user fs

structure Nested (x : Handling) : Prop where
  room : ∀ g ∈ x.faults, g.1.Room
  below : x.faults.Pairwise fun f g => f.1.Below g
  frames : ∀ g ∈ x.faults, FrameAt x.user.mem g
  held : Held x.user x.faults

lemma uxstacktop_eq : uxstacktop = 0xEEC00000 := rfl

lemma utfAddr_cases (esp : Nat) : (0xEEBFF000 ≤ esp ∧ esp < 0xEEC00000 ∧ utfAddr esp + 56 = esp) ∨
      ((esp < 0xEEBFF000 ∨ 0xEEC00000 ≤ esp) ∧ utfAddr esp + 56 = 0xEEC00000) := by
  by_cases h : uxstacktop - pgsize ≤ esp ∧ esp < uxstacktop
  · have he : utfAddr esp = esp - 52 - 4 := if_pos h
    rw [uxstacktop_eq, pgsize] at h
    omega
  · have he : utfAddr esp = uxstacktop - 52 - 4 := if_neg h
    rw [uxstacktop_eq] at he
    rw [uxstacktop_eq, pgsize] at h
    omega

lemma Fault.addr_toNat (f : Fault) : f.addr.toNat = utfAddr f.user.esp.toNat := by
  have hlt : utfAddr f.user.esp.toNat < 2 ^ 32 := by
    have := utfAddr_cases f.user.esp.toNat
    omega
  exact Nat.mod_eq_of_lt hlt

lemma Fault.addr_le (f : Fault) : f.addr.toNat + 56 ≤ uxstacktop := by
  rw [f.addr_toNat, uxstacktop_eq]
  have := utfAddr_cases f.user.esp.toNat
  omega

lemma Fault.word_clear (f : Fault) :
    52 ≤ (f.user.esp - 4 - f.addr).toNat ∧ 4 ≤ (f.addr - (f.user.esp - 4)).toNat := by
  have ha := utfAddr_cases f.user.esp.toNat
  rw [← f.addr_toNat] at ha
  have := f.user.esp.toNat_lt
  simp only [UInt32.toNat_sub, UInt32.reduceToNat]
  omega

lemma Fault.Below.addr_eq {g : Fault × Stage} (h : f.Below g) : f.addr.toNat + 56 = f.user.esp.toNat := by
  have hg := g.1.addr_le
  have ha := utfAddr_cases f.user.esp.toNat
  obtain ⟨hlow, hhigh⟩ := h
  rw [← f.addr_toNat] at ha
  rw [uxstacktop_eq] at hlow hg
  rw [pgsize] at hlow
  omega

lemma Fault.Below.trans {g h : Fault} {s t : Stage} (hf : f.Below (g, s)) (hg : g.Below (h, t)) : f.Below (h, t) := by
  have he := hg.addr_eq
  refine ⟨hf.1, ?_⟩
  have h1 : f.user.esp.toNat ≤ g.addr.toNat := hf.2
  have h2 : g.user.esp.toNat ≤ h.addr.toNat := hg.2
  change f.user.esp.toNat ≤ h.addr.toNat
  omega

lemma FrameAt.congr {m m' : Mem} {g : Fault × Stage} (h : FrameAt m g)
    (hm : ∀ b, (b - g.1.addr).toNat < 52 → m' b = m b) : FrameAt m' g := by
  intro i w hi
  have hlt : i < 13 := (List.getElem?_eq_some_iff.mp hi).1
  rw [← h i w hi]
  apply load_congr
  intro b hb
  apply hm
  simp only [UInt32.toNat_sub, UInt32.toNat_add, Nat.toUInt32, UInt32.toNat_ofNat'] at *
  have := b.toNat_lt
  have := g.1.addr.toNat_lt
  omega

lemma Fault.Below.outside {g : Fault × Stage} (h : f.Below g) (hr : f.Room)
    {b : UInt32} (hb : (b - g.1.addr).toNat < 52) : 60 ≤ (b - (f.addr - 8)).toNat ∧ 4 ≤ (b - (f.addr + 48)).toNat ∧
      4 ≤ (b - (f.user.esp - 4)).toNat := by
  have ha := h.addr_eq
  have hg := g.1.addr_le
  have h1 : f.user.esp.toNat ≤ g.1.addr.toNat := h.2
  unfold Fault.Room at hr
  rw [← f.addr_toNat] at hr
  have := b.toNat_lt
  rw [uxstacktop_eq] at hr hg
  rw [pgsize] at hr
  simp only [UInt32.toNat_sub, UInt32.toNat_add, UInt32.reduceToNat] at *
  omega

lemma Layout.runs_nil (l : Layout) (u : UserState) : l.runs [] u = u := rfl

lemma Layout.runs_cons (l : Layout) (i : Instr) (is : List Instr) (u : UserState) :
    l.runs (i :: is) u = l.runs is (i.exec l u) :=
  rfl

section
variable (l : Layout) (n : UInt32) (u : UserState)

lemma exec_addlEsp : (Instr.addlEsp n).exec l u =
    { u with esp := u.esp + n, eflags := arithFlags l (.addlEsp n) u } := rfl

lemma exec_movlStackEdi : (Instr.movlStackEdi n).exec l u = { u with edi := load u.mem (u.esp + n) } := rfl

lemma exec_sublEdi : (Instr.sublEdi n).exec l u =
    { u with edi := u.edi - n, eflags := arithFlags l (.sublEdi n) u } := rfl

lemma exec_movlEdiStack : (Instr.movlEdiStack n).exec l u = { u with mem := store u.mem (u.esp + n) u.edi } := rfl

lemma exec_movlStackEsi : (Instr.movlStackEsi n).exec l u = { u with esi := load u.mem (u.esp + n) } := rfl

lemma exec_popfl : Instr.popfl.exec l u =
    { u with
      eflags := (u.eflags &&& ~~~flUser) ||| (load u.mem u.esp &&& flUser)
      esp := u.esp + 4 } := rfl

lemma exec_poplEsp : Instr.poplEsp.exec l u = { u with esp := load u.mem u.esp } := rfl

lemma exec_ret : Instr.ret.exec l u =
    { u with eip := load u.mem u.esp, esp := u.esp + 4 } := rfl

end

lemma popfl_flags (x w : UInt32) : ((x &&& ~~~flUser) ||| (w &&& flUser)) &&& flArith = w &&& flArith := by
  have h1 : ~~~flUser &&& flArith = 0 := by decide
  have h2 : flUser &&& flArith = flArith := by decide
  have hd : ∀ a b c : UInt32, (a ||| b) &&& c = (a &&& c) ||| (b &&& c) :=
    fun _ _ _ => UInt32.toBitVec_inj.mp BitVec.and_or_distrib_right
  rw [hd, UInt32.and_assoc, UInt32.and_assoc, h1, h2, UInt32.and_zero,
    UInt32.zero_or]

lemma Fault.entered_mem (l : Layout) (f : Fault) :
    (f.entered l).mem = store (store (f.pushed l).mem (f.addr - 4) f.addr) (f.addr - 4 - 4) l.afterCall :=
  rfl

lemma Fault.entered_outside (l : Layout) (f : Fault) {b : UInt32}
    (hb : 60 ≤ (b - (f.addr - 8)).toNat) : (f.entered l).mem b = f.user.mem b := by
  have hlen : ((utrapframe f.va f.trapframe).flatMap bytes).length = 52 := by
    rw [length_bytes]
    rfl
  have h1 : 4 ≤ (b - (f.addr - 4 - 4)).toNat ∧ 4 ≤ (b - (f.addr - 4)).toNat ∧
      52 ≤ (b - f.addr).toNat := by
    simp only [UInt32.toNat_sub, UInt32.reduceToNat] at *
    have := b.toNat_lt
    have := f.addr.toNat_lt
    omega
  rw [f.entered_mem, store_of_le h1.1, store_of_le h1.2.1]
  exact fill_of_le (hlen ▸ h1.2.2) _

lemma Fault.entered_frame (l : Layout) (f : Fault) : FrameAt (f.entered l).mem (f, .handling) := by
  have hpush : FrameAt (f.pushed l).mem (f, .handling) := by
    intro i w hi
    have hlt : i < 13 := (List.getElem?_eq_some_iff.mp hi).1
    exact load_fill hi (by omega) _ _
  apply hpush.congr
  intro b hb
  have h1 : 4 ≤ (b - (f.addr - 4 - 4)).toNat ∧ 4 ≤ (b - (f.addr - 4)).toNat := by
    simp only [UInt32.toNat_sub, UInt32.reduceToNat] at *
    have := b.toNat_lt
    have := f.addr.toNat_lt
    omega
  rw [f.entered_mem, store_of_le h1.1, store_of_le h1.2]

lemma runs_leave (l : Layout) {u : UserState} (he : u.esp = f.addr - 4) (hf : FrameAt u.mem (f, .handling)) :
    Ready f (l.runs upcallLeave u) ∧
      (l.runs upcallLeave u).mem = store u.mem (f.addr + 48) (f.user.esp - 4) := by
  have hsp : u.esp + 4 = f.addr := by rw [he, UInt32.sub_add_cancel]
  have hesp : load u.mem (f.addr + 48) = f.user.esp := hf 12 f.user.esp rfl
  have heip : load u.mem (f.addr + 40) = f.user.eip := hf 10 f.user.eip rfl
  have hapart : Apart (f.addr + 48) (f.addr + 40) := by
    simp only [Apart, UInt32.toNat_sub, UInt32.toNat_add, UInt32.reduceToNat]
    have := f.addr.toNat_lt
    omega
  simp only [upcallLeave, Layout.runs_cons, Layout.runs_nil, exec_addlEsp, exec_movlStackEdi,
    exec_sublEdi, exec_movlEdiStack, exec_movlStackEsi, Ready, hsp, hesp,
    load_store_apart hapart, heip, and_self]

lemma FrameAt.word {m : Mem} {g : Fault × Stage} (h : FrameAt m g) {i : Nat} {w c a : UInt32}
    (hi : (g.1.frame g.2)[i]? = some w) (hc : (4 * i).toUInt32 = c) (ha : a = g.1.addr + c) : load m a = w := by
  rw [ha, ← hc]
  exact h i w hi

lemma FrameAt.lowered {m : Mem} (h : FrameAt m (f, .handling)) :
    FrameAt (store m (f.addr + 48) (f.user.esp - 4)) (f, .leaving) := by
  intro i w hi
  have hlt : i < 13 := (List.getElem?_eq_some_iff.mp hi).1
  by_cases h12 : i = 12
  · subst h12
    have hw : some (f.user.esp - 4) = some w := hi
    rw [← Option.some.inj hw]
    exact load_store_self _ _ _
  · have hsame : (f.frame .handling)[i]? = some w := by
      have hle : i < 12 := by omega
      interval_cases i <;> exact hi
    rw [← h i w hsame]
    apply load_store_apart
    simp only [Apart, UInt32.toNat_sub, UInt32.toNat_add, Nat.toUInt32, UInt32.toNat_ofNat',
      UInt32.reduceToNat]
    have := f.addr.toNat_lt
    omega

lemma popal_regs (l : Layout) {u : UserState} (he : u.esp = f.addr + 8)
    (hf : FrameAt u.mem (f, .leaving)) : SameRegs f.user (Instr.popal.exec l u) := by
  have ha : ∀ c : UInt32, u.esp + c = f.addr + (8 + c) := by
    intro c
    rw [he, UInt32.add_assoc]
  exact ⟨hf.word (i := 2) rfl rfl he, hf.word (i := 3) rfl rfl (ha 4), hf.word (i := 4) rfl rfl (ha 8),
    hf.word (i := 6) rfl rfl (ha 16), hf.word (i := 7) rfl rfl (ha 20),
    hf.word (i := 8) rfl rfl (ha 24), hf.word (i := 9) rfl rfl (ha 28)⟩

lemma pop_frame (l : Layout) {u : UserState} (he : u.esp = f.addr + 8)
    (hf : FrameAt u.mem (f, .leaving)) (hw : load u.mem (f.user.esp - 4) = f.user.eip) :
    Restored f (l.runs [.popal, .addlEsp 4, .popfl, .poplEsp, .ret] u) ∧
      (l.runs [.popal, .addlEsp 4, .popfl, .poplEsp, .ret] u).mem = u.mem := by
  have hregs := popal_regs l he hf
  have hesp : (Instr.popal.exec l u).esp = f.addr + 40 := by
    change u.esp + 32 = _
    rw [he, UInt32.add_assoc]
    rfl
  have hmem : (Instr.popal.exec l u).mem = u.mem := rfl
  rw [Layout.runs_cons]
  generalize Instr.popal.exec l u = v at *
  rw [← hmem] at hf hw ⊢
  have hfl : v.esp + 4 = f.addr + 44 := by
    rw [hesp, UInt32.add_assoc]
    rfl
  have hsp : v.esp + 4 + 4 = f.addr + 48 := by
    rw [hfl, UInt32.add_assoc]
    rfl
  have htop : load v.mem (v.esp + 4 + 4) = f.user.esp - 4 := hf.word (i := 12) rfl rfl hsp
  simp only [Layout.runs_cons, Layout.runs_nil, exec_addlEsp, exec_popfl, exec_poplEsp, exec_ret]
  refine ⟨⟨⟨hregs.1, hregs.2, hregs.3, hregs.4, hregs.5, hregs.6, hregs.7⟩, ?_, ?_, ?_⟩, True.intro⟩
  · simp only [htop, hw]
  · simp only [htop, UInt32.sub_add_cancel]
  · simp only [popfl_flags, hf.word (i := 11) rfl rfl hfl, Fault.trapframe]

lemma runs_resume (l : Layout) {u : UserState} (hr : Ready f u) (hf : FrameAt u.mem (f, .leaving)) :
    Restored f (l.runs upcallResume u) ∧
      (l.runs upcallResume u).mem = store u.mem (f.user.esp - 4) f.user.eip := by
  obtain ⟨hedi, hesi, hesp⟩ := hr
  have he : ((Instr.addlEsp 8).exec l (Instr.movlEsiEdi.exec l u)).esp = f.addr + 8 := by
    change u.esp + 8 = _
    rw [hesp]
  have hm : ((Instr.addlEsp 8).exec l (Instr.movlEsiEdi.exec l u)).mem =
      store u.mem (f.user.esp - 4) f.user.eip := by
    change store u.mem u.edi u.esi = _
    rw [hedi, hesi]
  unfold upcallResume
  rw [Layout.runs_cons, Layout.runs_cons]
  generalize (Instr.addlEsp 8).exec l (Instr.movlEsiEdi.exec l u) = v at *
  rw [← hm]
  apply pop_frame l he
  · apply hf.congr
    intro b hb
    rw [hm]
    apply store_of_le
    have hc := f.word_clear
    simp only [UInt32.toNat_sub, UInt32.reduceToNat] at *
    have := b.toNat_lt
    have := f.addr.toNat_lt
    omega
  · rw [hm]
    exact load_store_self _ _ _

lemma Fault.below_all {fs : List (Fault × Stage)} (hf : ∀ g ∈ fs.head?, f.Below g)
    (hfs : fs.Pairwise fun f g => f.1.Below g) : ∀ g ∈ fs, f.Below g := by
  cases fs with
  | nil => simp
  | cons h fs =>
    have hh := hf h rfl
    intro g hg
    rcases List.mem_cons.mp hg with rfl | hg
    · exact hh
    · exact Fault.Below.trans hh ((List.pairwise_cons.mp hfs).1 g hg)

lemma Held.of_regs {u v : UserState} {fs : List (Fault × Stage)} (h : Held u fs)
    (hedi : v.edi = u.edi) (hesi : v.esi = u.esi) (hesp : v.esp = u.esp) : Held v fs := by
  cases fs with
  | nil => exact True.intro
  | cons g fs =>
    refine ⟨fun hs => ?_, h.2⟩
    obtain ⟨h1, h2, h3⟩ := h.1 hs
    exact ⟨hedi.trans h1, hesi.trans h2, hesp.trans h3⟩

/-! ### What each step keeps -/

section
variable {l : Layout} {x y : Handling} {f : Fault}

lemma Nested.works {Program : UserState → UserState → Prop} (h : Nested x) (hw : Works Program x y) : Nested y := by
  obtain ⟨-, hfs, hhead, hmem⟩ := hw
  refine ⟨hfs ▸ h.room, hfs ▸ h.below, ?_, ?_⟩
  · rw [hfs]
    exact fun g hg => (h.frames g hg).congr (hmem g hg)
  · rw [hfs]
    have hheld := h.held
    cases hx : x.faults with
    | nil => exact True.intro
    | cons g fs =>
      rw [hx] at hheld hhead
      have hs : g.2 = .handling := hhead g rfl
      refine ⟨fun hl => ?_, hheld.2⟩
      rw [show g.2 = .leaving from hl] at hs
      cases hs

lemma Nested.faults (h : Nested x) (hf : Faults l f x y) : Nested y := by
  obtain ⟨hu, hroom, hhead, rfl⟩ := hf
  have hall := Fault.below_all hhead h.below
  refine ⟨?_, ?_, ?_, ?_⟩
  · intro g hg
    rcases List.mem_cons.mp hg with rfl | hg
    · exact hroom
    · exact h.room g hg
  · exact List.pairwise_cons.mpr ⟨hall, h.below⟩
  · intro g hg
    rcases List.mem_cons.mp hg with rfl | hg
    · exact f.entered_frame l
    · apply (h.frames g hg).congr
      intro b hb
      rw [f.entered_outside l ((hall g hg).outside hroom hb).1, hu]
  · refine ⟨nofun, ?_⟩
    rw [hu]
    exact h.held

lemma Nested.leaves (h : Nested x) (hf : Leaves l f x y) : Nested y := by
  obtain ⟨fs, hx, hesp, rfl⟩ := hf
  have hmem : (f, Stage.handling) ∈ x.faults := hx ▸ List.mem_cons_self
  obtain ⟨hready, hstore⟩ := runs_leave l hesp (h.frames _ hmem)
  have hroom : f.Room := h.room _ hmem
  have hbelow := h.below
  have hheld := h.held
  rw [hx] at hbelow hheld
  obtain ⟨hall, hpair⟩ := List.pairwise_cons.mp hbelow
  refine ⟨?_, List.pairwise_cons.mpr ⟨hall, hpair⟩, ?_, fun _ => hready, hheld.2⟩
  · intro g hg
    rcases List.mem_cons.mp hg with rfl | hg
    · exact hroom
    · exact h.room g (hx ▸ List.mem_cons_of_mem _ hg)
  · intro g hg
    rcases List.mem_cons.mp hg with rfl | hg
    · change FrameAt (l.runs upcallLeave x.user).mem _
      rw [hstore]
      exact (h.frames _ hmem).lowered
    · apply (h.frames g (hx ▸ List.mem_cons_of_mem _ hg)).congr
      intro b hb
      change (l.runs upcallLeave x.user).mem b = _
      rw [hstore, store_of_le ((hall g hg).outside hroom hb).2.1]

lemma Nested.resumes (h : Nested x) (hf : Resumes l f x y) : Nested y := by
  obtain ⟨fs, hx, rfl⟩ := hf
  have hmem : (f, Stage.leaving) ∈ x.faults := hx ▸ List.mem_cons_self
  have hroom : f.Room := h.room _ hmem
  have hbelow := h.below
  have hheld := h.held
  rw [hx] at hbelow hheld
  obtain ⟨hall, hpair⟩ := List.pairwise_cons.mp hbelow
  obtain ⟨hback, hstore⟩ := runs_resume l (hheld.1 rfl) (h.frames _ hmem)
  have hsub : ∀ g ∈ fs, g ∈ x.faults := fun g hg => hx ▸ List.mem_cons_of_mem _ hg
  refine ⟨fun g hg => h.room g (hsub g hg), hpair, ?_, ?_⟩
  · intro g hg
    apply (h.frames g (hsub g hg)).congr
    intro b hb
    change (l.runs upcallResume x.user).mem b = _
    rw [hstore, store_of_le ((hall g hg).outside hroom hb).2.2]
  · exact hheld.2.of_regs hback.regs.edi hback.regs.esi hback.esp

end

lemma Nested.moves {l : Layout} {Program : UserState → UserState → Prop} {x y : Handling}
    (h : Nested x) (hm : Moves l Program x y) : Nested y := by
  rcases hm with hw | ⟨f, hf | hf | hf⟩
  · exact h.works hw
  · exact h.faults hf
  · exact h.leaves hf
  · exact h.resumes hf

lemma Nested.run {l : Layout} {Program : UserState → UserState → Prop} {u : UserState}
    {x : Handling} (h : ReflTransGen (Moves l Program) ⟨u, []⟩ x) : Nested x := by
  induction h with
  | refl => exact ⟨by simp, List.Pairwise.nil, by simp, True.intro⟩
  | tail _ hstep ih => exact ih.moves hstep

def Spare (fs : List (Fault × Stage)) (b : UInt32) : Prop :=
  uxstacktop - pgsize ≤ b.toNat ∧ b.toNat < uxstacktop ∧ ∀ g ∈ fs, b.toNat < g.1.addr.toNat

lemma Fault.spare {fs : List (Fault × Stage)} (hr : f.Room)
    (hall : ∀ g ∈ fs, f.Below g) {b : UInt32} (hb : (b - (f.addr - 8)).toNat < 60) : Spare fs b := by
  have ha := f.addr_le
  unfold Fault.Room at hr
  rw [← f.addr_toNat] at hr
  have hrange : f.addr.toNat - 8 ≤ b.toNat ∧ b.toNat < f.addr.toNat + 52 := by
    have := b.toNat_lt
    rw [uxstacktop_eq] at hr ha
    rw [pgsize] at hr
    simp only [UInt32.toNat_sub, UInt32.reduceToNat] at hb
    omega
  refine ⟨by omega, by omega, ?_⟩
  intro g hg
  have he := (hall g hg).addr_eq
  have hle := (hall g hg).2
  omega

def testLayout : Layout := ⟨0x800100, 0x804000, 0x800110, fun _ _ => 0⟩

def testUser : UserState where
  edi := 1
  esi := 2
  ebp := 3
  ebx := 4
  edx := 5
  ecx := 6
  eax := 7
  eip := 0x800020
  esp := 0xEEBFDF00
  eflags := 0x46
  mem := fun _ => 0

def outerFault : Fault := ⟨testUser, 0, 6, 0xA0000000⟩

def innerFault : Fault := ⟨outerFault.entered testLayout, 0, 6, 0xB0000000⟩

def returned : UserState := { innerFault.entered testLayout with esp := (innerFault.entered testLayout).esp + 4 }

def twoFaults : Handling :=
  ⟨testLayout.runs upcallLeave returned, [(innerFault, .leaving), (outerFault, .handling)]⟩

lemma twoFaults_run : ReflTransGen (Moves testLayout fun u v => v = { u with esp := u.esp + 4 })
    ⟨testUser, []⟩ twoFaults := by
  have h1 : Faults testLayout outerFault ⟨testUser, []⟩ ⟨outerFault.entered testLayout, [(outerFault, .handling)]⟩ :=
    ⟨rfl, by unfold Fault.Room; decide, nofun, rfl⟩
  have h2 : Faults testLayout innerFault ⟨outerFault.entered testLayout, [(outerFault, .handling)]⟩
      ⟨innerFault.entered testLayout, [(innerFault, .handling), (outerFault, .handling)]⟩ := by
    refine ⟨rfl, by unfold Fault.Room; decide, ?_, rfl⟩
    rintro g ⟨⟩
    unfold Fault.Below
    decide
  have h3 : Works (fun u v => v = { u with esp := u.esp + 4 })
      ⟨innerFault.entered testLayout, [(innerFault, .handling), (outerFault, .handling)]⟩
      ⟨returned, [(innerFault, .handling), (outerFault, .handling)]⟩ := by
    refine ⟨rfl, rfl, ?_, fun _ _ _ _ => rfl⟩
    rintro g ⟨⟩
    rfl
  have h4 : Leaves testLayout innerFault ⟨returned, [(innerFault, .handling), (outerFault, .handling)]⟩ twoFaults :=
    ⟨_, rfl, by decide, rfl⟩
  exact (((ReflTransGen.single (.inr ⟨_, .inl h1⟩)).tail (.inr ⟨_, .inl h2⟩)).tail (.inl h3)).tail
    (.inr ⟨_, .inr (.inl h4)⟩)

/-- However deeply faults are nested: frames never overlap, taking a fault and leaving
its handler write only spare exception stack, and the environment resumes in the
trap-time state with nothing changed but the word below the trap-time stack pointer. -/
theorem upcall_restores (l : Layout) (Program : UserState → UserState → Prop) (u : UserState)
    (x : Handling) (h : ReflTransGen (Moves l Program) ⟨u, []⟩ x) :
    (x.faults.Pairwise fun f g => f.1.addr.toNat + 56 ≤ g.1.addr.toNat) ∧
      (∀ f y, Faults l f x y → ∀ b, y.user.mem b ≠ x.user.mem b → Spare x.faults b) ∧
      (∀ f y, Leaves l f x y → ∀ b, y.user.mem b ≠ x.user.mem b → Spare x.faults.tail b) ∧
      ∀ f y, Resumes l f x y → Restored f y.user ∧
        ∀ b, y.user.mem b ≠ x.user.mem b → (b - (f.user.esp - 4)).toNat < 4 := by
  have hn := Nested.run h
  refine ⟨hn.below.imp ?_, ?_, ?_, ?_⟩
  · intro f g hfg
    rw [hfg.addr_eq]
    exact hfg.2
  · rintro f y ⟨hu, hroom, hhead, rfl⟩ b hb
    apply Fault.spare hroom (Fault.below_all hhead hn.below)
    by_contra hfar
    exact hb ((f.entered_outside l (by omega)).trans (congrArg (·.mem b) hu))
  · rintro f y ⟨fs, hx, hesp, rfl⟩ b hb
    have hbelow := hn.below
    have hmem : (f, Stage.handling) ∈ x.faults := hx ▸ List.mem_cons_self
    rw [hx] at hbelow ⊢
    apply Fault.spare (hn.room _ hmem) (List.pairwise_cons.mp hbelow).1
    by_contra hfar
    apply hb
    change (l.runs upcallLeave x.user).mem b = _
    rw [(runs_leave l hesp (hn.frames _ hmem)).2]
    apply store_of_le
    have := b.toNat_lt
    have := f.addr.toNat_lt
    simp only [UInt32.toNat_sub, UInt32.toNat_add, UInt32.reduceToNat] at *
    omega
  · rintro f y ⟨fs, hx, rfl⟩
    have hheld := hn.held
    have hmem : (f, Stage.leaving) ∈ x.faults := hx ▸ List.mem_cons_self
    rw [hx] at hheld
    obtain ⟨hback, hstore⟩ := runs_resume l (hheld.1 rfl) (hn.frames _ hmem)
    refine ⟨hback, fun b hb => ?_⟩
    by_contra hfar
    apply hb
    change (l.runs upcallResume x.user).mem b = _
    rw [hstore, store_of_le (by omega)]

theorem upcall_restores_two :
    innerFault.addr.toNat + 56 ≤ outerFault.addr.toNat ∧
      Restored innerFault (testLayout.runs upcallResume twoFaults.user) := by
  obtain ⟨hpair, -, -, hres⟩ := upcall_restores testLayout _ testUser twoFaults twoFaults_run
  exact ⟨(List.pairwise_cons.mp hpair).1 (outerFault, .handling) (List.mem_singleton.mpr rfl),
    (hres innerFault ⟨_, _⟩ ⟨_, rfl, rfl⟩).1⟩
/-! ### The kernel's part -/

/-- What an environment can read. -/
def userMem (pd : Nat) (vm : Vm) : Mem := fun a => if a.toNat < utop then (loadByte pd a.toNat vm).getD 0 else 0

def UserState.of (pd : Nat) (vm : Vm) (tf : Trapframe) : UserState where
  edi := tf.tfRegs.regEdi
  esi := tf.tfRegs.regEsi
  ebp := tf.tfRegs.regEbp
  ebx := tf.tfRegs.regEbx
  edx := tf.tfRegs.regEdx
  ecx := tf.tfRegs.regEcx
  eax := tf.tfRegs.regEax
  eip := tf.tfEip
  esp := tf.tfEsp
  eflags := tf.tfEflags
  mem := userMem pd vm

def Fault.of (pd : Nat) (vm : Vm) (tf : Trapframe) (va : UInt32) : Fault :=
  ⟨UserState.of pd vm tf, tf.tfRegs.regOesp, tf.tfErr, va⟩

lemma wordBytes_eq (w : UInt32) : wordBytes w.toNat = bytes w := by
  simp [wordBytes, bytes, byte]

lemma byte_lt (ws : List UInt32) : ∀ b ∈ ws.flatMap bytes, b < 256 := by
  intro b hb
  obtain ⟨w, -, hw⟩ := List.mem_flatMap.mp hb
  simp only [bytes, byte, List.mem_cons, List.not_mem_nil, or_false] at hw
  omega

lemma userMem_fill {vm vm' : Vm} {pd : Nat} {va : UInt32} {bs : List Nat} (hfit : va.toNat + bs.length ≤ utop)
    (hview : ∀ a < utop, loadByte pd a vm' =
      if va.toNat ≤ a ∧ a < va.toNat + bs.length then bs[a - va.toNat]? else loadByte pd a vm) :
    userMem pd vm' = fill (userMem pd vm) va bs := by
  funext a
  have hlt := a.toNat_lt
  have hvlt := va.toNat_lt
  have htop : utop < 2 ^ 32 := by decide
  unfold userMem fill
  rw [UInt32.toNat_sub]
  by_cases hin : va.toNat ≤ a.toNat ∧ a.toNat < va.toNat + bs.length
  · have hd : (2 ^ 32 - va.toNat + a.toNat) % 2 ^ 32 = a.toNat - va.toNat := by omega
    have hlen : a.toNat - va.toNat < bs.length := by omega
    rw [if_pos (by omega), hview _ (by omega), if_pos hin, hd, List.getElem?_eq_getElem hlen]
    rfl
  · have hd : bs.length ≤ (2 ^ 32 - va.toNat + a.toNat) % 2 ^ 32 := by omega
    rw [List.getElem?_eq_none hd, Option.getD_none]
    dsimp only
    split
    · rename_i ha
      rw [hview _ ha, if_neg hin]
    · rfl

theorem userPageFault_pushed {cpu cur pd p : Nat} {va : UInt32} {k : Kernel} {free : List Nat} {l : Layout}
    (h : Paged k.vm k.spaces free) (hs : k.spaces cur = some pd)
    (hown : Private k.vm k.spaces cur (uxstacktop - pgsize) p) (hup : (k.envs cur).envPgfaultUpcall ≠ 0)
    (hl : l.upcall = (k.envs cur).envPgfaultUpcall.toUInt32) (hroom : (Fault.of pd k.vm (k.envs cur).envTf va).Room)
    (hassert : userMemAssert cpu cur (utfAddr (k.envs cur).envTf.tfEsp.toNat) 56
      (pteP ||| pteU ||| pteW) k = .ret () k) :
    ∃ vm tf, userPageFault cpu cur va k = .exit (envRun cpu cur ({ k with vm := vm }.setTf cur tf)) ∧
      UserState.of pd vm tf = (Fault.of pd k.vm (k.envs cur).envTf va).pushed l := by
  set f := Fault.of pd k.vm (k.envs cur).envTf va with hf
  have haddr : f.addr.toNat = utfAddr (k.envs cur).envTf.tfEsp.toNat := f.addr_toNat
  have hframe : utrapframe va (k.envs cur).envTf = utrapframe f.va f.trapframe := rfl
  have hlow : 0xEEBFF008 ≤ f.addr.toNat := haddr ▸ hroom
  have hhigh : f.addr.toNat + 56 ≤ 0xEEC00000 := f.addr_le
  have hlen : ((utrapframe f.va f.trapframe).flatMap bytes).length = 52 := by
    rw [length_bytes, show (utrapframe f.va f.trapframe).length = 13 from rfl]
  have hfit : f.addr.toNat + ((utrapframe f.va f.trapframe).flatMap bytes).length ≤ utop := by
    rw [hlen, utop]
    omega
  obtain ⟨vm, hstore, -, -, -, hview⟩ := Paged.storeBytes hs _ h hfit (byte_lt _) fun a hlo hhi =>
    ⟨p, hown.congr (pteSlot_page cur (by rw [uxstacktop_eq, pgsize]; omega))⟩
  refine ⟨vm, { (k.envs cur).envTf with
    tfEip := (k.envs cur).envPgfaultUpcall.toUInt32
    tfEsp := (utfAddr (k.envs cur).envTf.tfEsp.toNat).toUInt32 }, ?_, ?_⟩
  · rw [← haddr] at hassert ⊢
    simp only [userPageFault, hup, ne_eq, not_false_eq_true, if_true, ← haddr, hassert, Outcome.bind,
      Kernel.spaces_eq_some hs, wordBytes_eq, hframe, hstore]
  · simp only [UserState.of, userMem_fill hfit hview, Fault.pushed, hl]
    rfl

end Jos
