import Jos.Base.CInt
import Jos.Base.CString
import Jos.Kern.Pmap

/-!
# The first stack page of a spawned program

`init_stack` of `lib/spawn.c`. The arguments are given as lists of bytes, the answers of
the three system calls by `Answers`. Pointers and `size_t` wrap around at 2^32, and a store
to a page that cannot be written stops the environment.
-/

namespace Jos.InitStack
open CInt Function

variable {a argvStore s : Nat} {argv : List (List Nat)} {m : Nat → Nat}

/-- The memory of the caller, by address; `writable` is by page number, and `stores` the addresses written so far. -/
structure Mem where
  byte : Nat → Nat
  writable : Nat → Bool
  stores : List Nat

inductive Stop where
  | fault
  | assertion
  deriving DecidableEq

def store (a b : Nat) (m : Mem) : Except Stop Mem :=
  if m.writable (a / pgsize) then
    .ok { m with byte := update m.byte a b, stores := a :: m.stores }
  else .error .fault

def storeBytes (a : Nat) : List Nat → Mem → Except Stop Mem
  | [], m => .ok m
  | b :: bs, m => do
    let m ← store a b m
    storeBytes (toU32 (a + 1)) bs m

def storeWord (a w : Nat) (m : Mem) : Except Stop Mem := storeBytes a (wordBytes w) m

def strcpy (dst : Nat) (src : List Nat) (m : Mem) : Except Stop Mem := storeBytes dst (src ++ [0]) m

/-- The page `sys_page_alloc` maps at `va`. -/
def Mem.alloc (m : Mem) (va : Nat) : Mem :=
  { m with
    byte := fun a => if a / pgsize = va / pgsize then 0 else m.byte a
    writable := update m.writable (va / pgsize) true }

def Mem.unmap (m : Mem) (va : Nat) : Mem := { m with writable := update m.writable (va / pgsize) false }

def utemp2ustack (addr : Nat) : Nat := toU32 (addr + (ustacktop - pgsize : Nat) - utemp)

structure Answers where
  alloc : Int
  map : Int
  unmap : Int

/-- The value returned, `*init_esp`, the bytes of the child's stack page and the caller's memory. -/
structure Init where
  ret : Int
  esp : Option Nat
  page : Option (Nat → Nat)
  mem : Mem

/-- `argc` and `string_size` -/
def countArgs : List (List Nat) → Int → Nat → Int × Nat
  | [], argc, size => (argc, size)
  | arg :: argv, argc, size => countArgs argv (toI32 (argc + 1)) (toU32 (size + arg.length + 1))

/-- The loop that fills `argv_store` and copies the strings. -/
def copyArgs (argvStore : Nat) : List (List Nat) → Nat → Nat → Mem → Except Stop (Nat × Mem)
  | [], _, stringStore, m => .ok (stringStore, m)
  | arg :: argv, i, stringStore, m => do
    let m ← storeWord (toU32 (argvStore + 4 * i)) (utemp2ustack stringStore) m
    let m ← strcpy stringStore arg m
    copyArgs argvStore argv (i + 1) (toU32 (stringStore + arg.length + 1)) m

/-- The stores of `init_stack`, which are made once the page is allocated. -/
def fillPage (argv : List (List Nat)) (argc : Int) (stringStore argvStore : Nat) (m : Mem) : Except Stop Mem := do
  let (s, m) ← copyArgs argvStore (argv.take argc.toNat) 0 stringStore m
  let m ← storeWord (toU32 (argvStore + 4 * argc)) 0 m
  if s ≠ utemp + pgsize then .error .assertion
  else
    let m ← storeWord (toU32 (argvStore - 4)) (utemp2ustack argvStore) m
    storeWord (toU32 (argvStore - 8)) (toU32 argc) m

/-- From `*init_esp` on: the page is mapped into the child and taken out of the caller. -/
def handOver (ans : Answers) (argvStore : Nat) (m : Mem) : Init :=
  let esp := utemp2ustack (toU32 (argvStore - 8))
  let page := fun j => m.byte (utemp + j)
  if ans.map < 0 then ⟨ans.map, some esp, none, m.unmap utemp⟩
  else if ans.unmap < 0 then ⟨ans.unmap, some esp, some page, m.unmap utemp⟩
  else ⟨0, some esp, some page, m.unmap utemp⟩

def initStack (argv : List (List Nat)) (ans : Answers) (m : Mem) : Except Stop Init :=
  let (argc, stringSize) := countArgs argv 0 0
  let stringStore := toU32 (utemp + pgsize - stringSize)
  let argvStore := toU32 ((stringStore / 4 * 4 : Nat) - 4 * (argc + 1))
  if toU32 (argvStore - 8) < utemp then .ok ⟨-eNoMem, none, none, m⟩
  else if ans.alloc < 0 then .ok ⟨ans.alloc, none, none, m⟩
  else (fillPage argv argc stringStore argvStore (m.alloc utemp)).map (handOver ans argvStore)

/-! ## What the child is to find -/

def stringSize : List (List Nat) → Nat
  | [] => 0
  | arg :: argv => arg.length + 1 + stringSize argv

def Fits (argv : List (List Nat)) : Prop := stringSize argv + 4 * (argv.length + 1) + 8 ≤ pgsize

def ustackPage : Nat := ustacktop - pgsize

def word (m : Nat → Nat) (a : Nat) : Nat := m a + 256 * m (a + 1) + 65536 * m (a + 2) + 16777216 * m (a + 3)

structure Passed (argv : List (List Nat)) (child : Nat → Nat) (esp : Nat) : Prop where
  room : ustackPage ≤ esp ∧ esp + 8 ≤ ustacktop
  argc : word child esp = argv.length
  vector : ustackPage ≤ word child (esp + 4) ∧ word child (esp + 4) + 4 * (argv.length + 1) ≤ ustacktop
  null : word child (word child (esp + 4) + 4 * argv.length) = 0
  strings : ∀ i (hi : i < argv.length), ∃ a, word child (word child (esp + 4) + 4 * i) = a ∧
    ustackPage ≤ a ∧ a + argv[i].length < ustacktop ∧ IsString child a argv[i]

def childMem (page : Nat → Nat) (a : Nat) : Nat := page (a - ustackPage)

structure Delivers (argv : List (List Nat)) (m : Mem) (r : Init) : Prop where
  ret : r.ret = 0
  inside : ∃ log, r.mem.stores = log ++ m.stores ∧ ∀ a ∈ log, utemp ≤ a ∧ a < utemp + pgsize
  stack : ∃ esp page, r.esp = some esp ∧ r.page = some page ∧ Passed argv (childMem page) esp

structure StackRight (argv : List (List Nat)) (ans : Answers) (m : Mem) : Prop where
  delivers : Fits argv → 0 ≤ ans.alloc → 0 ≤ ans.map → 0 ≤ ans.unmap →
    ∃ r, initStack argv ans m = .ok r ∧ Delivers argv m r
  refuses : ¬ Fits argv → ∃ r, initStack argv ans m = .ok r ∧ r.ret = -eNoMem ∧ r.mem.stores = m.stores

def wrapped (argv : List (List Nat)) : Nat := ((stringSize argv + 3) / 4 * 4 + 4 * (argv.length + 1) + 8) % 4294967296

/-! ## Stores -/

lemma word_wordBytes {w : Nat} (hw : w < 4294967296)
    (h : ∀ i, i < 4 → m (a + i) = (wordBytes w)[i]?.getD 0) : word m a = w := by
  have h0 := h 0 (by omega)
  have h1 := h 1 (by omega)
  have h2 := h 2 (by omega)
  have h3 := h 3 (by omega)
  simp only [wordBytes, List.getElem?_cons_zero, List.getElem?_cons_succ, Option.getD_some] at h0 h1 h2 h3
  unfold word
  rw [← add_zero a, h0, add_zero, h1, h2, h3]
  omega

structure Filled (m m' : Mem) (s : Nat → Prop) : Prop where
  writable : m'.writable = m.writable
  log : ∃ log, m'.stores = log ++ m.stores ∧ ∀ a ∈ log, utemp ≤ a ∧ a < utemp + pgsize
  frame : ∀ a, ¬ s a → m'.byte a = m.byte a

lemma Filled.trans {m m' m'' : Mem} {s s' : Nat → Prop} (h : Filled m m' s) (h' : Filled m' m'' s') :
    Filled m m'' (fun a => s a ∨ s' a) := by
  refine ⟨h'.writable.trans h.writable, ?_, ?_⟩
  · obtain ⟨log, hlog, hin⟩ := h.log
    obtain ⟨log', hlog', hin'⟩ := h'.log
    refine ⟨log' ++ log, by rw [hlog', hlog, List.append_assoc], ?_⟩
    intro a ha
    rcases List.mem_append.1 ha with ha | ha
    · exact hin' a ha
    · exact hin a ha
  · intro a ha
    rw [h'.frame a fun hs => ha (.inr hs), h.frame a fun hs => ha (.inl hs)]

lemma Filled.mono {m m' : Mem} {s s' : Nat → Prop} (h : Filled m m' s) (hs : ∀ a, s a → s' a) : Filled m m' s' :=
  ⟨h.writable, h.log, fun a ha => h.frame a fun hsa => ha (hs a hsa)⟩

lemma store_spec {m : Mem} (hw : m.writable (utemp / pgsize)) (ha : utemp ≤ a)
    (hend : a < utemp + pgsize) (b : Nat) :
    ∃ m', store a b m = .ok m' ∧ Filled m m' (fun x => x = a) ∧ m'.byte a = b := by
  have hpage : a / pgsize = utemp / pgsize := by
    unfold utemp ptsize pgsize at *
    omega
  refine ⟨{ m with byte := update m.byte a b, stores := a :: m.stores }, ?_, ⟨rfl, ⟨[a], rfl, ?_⟩, ?_⟩, ?_⟩
  · unfold store
    rw [hpage, if_pos hw]
  · intro x hx
    rw [List.mem_singleton.1 hx]
    exact ⟨ha, hend⟩
  · intro x hx
    exact update_of_ne hx _ _
  · exact update_self _ _ _

lemma storeBytes_spec (bs : List Nat) : ∀ {m : Mem} {a : Nat}, m.writable (utemp / pgsize) → utemp ≤ a →
    a + bs.length ≤ utemp + pgsize →
    ∃ m', storeBytes a bs m = .ok m' ∧ Filled m m' (fun x => a ≤ x ∧ x < a + bs.length) ∧
      ∀ i, i < bs.length → m'.byte (a + i) = bs[i]?.getD 0 := by
  induction bs with
  | nil =>
    intro m a _ _ _
    exact ⟨m, rfl, ⟨rfl, ⟨[], rfl, by simp⟩, fun _ _ => rfl⟩, by simp⟩
  | cons b bs ih =>
    intro m a hw ha hend
    simp only [List.length_cons] at hend
    have hnext : toU32 (a + 1) = a + 1 := by
      unfold toU32 utemp ptsize pgsize at *
      omega
    obtain ⟨m1, hstore, hone, hfirst⟩ := store_spec hw ha (by omega) b
    obtain ⟨m', hrun, hrest, hbytes⟩ := ih (m := m1) (a := a + 1) (by rw [hone.writable, hw]) (by omega) (by omega)
    refine ⟨m', ?_, (hone.trans hrest).mono ?_, ?_⟩
    · unfold storeBytes
      rw [hstore, hnext]
      exact hrun
    · intro x hx
      simp only [List.length_cons]
      omega
    · intro i hi
      cases i with
      | zero =>
        rw [add_zero, hrest.frame a (by omega), hfirst]
        rfl
      | succ i =>
        rw [List.getElem?_cons_succ, ← hbytes i (by simpa using hi)]
        congr 1
        omega

section
variable {m : Mem} (hw : m.writable (utemp / pgsize)) (ha : utemp ≤ a)
include hw ha

lemma storeWord_spec {w : Nat} (hend : a + 4 ≤ utemp + pgsize) (hword : w < 4294967296) :
    ∃ m', storeWord a w m = .ok m' ∧ Filled m m' (fun x => a ≤ x ∧ x < a + 4) ∧ word m'.byte a = w := by
  obtain ⟨m', hrun, hfilled, hbytes⟩ := storeBytes_spec (wordBytes w) hw ha hend
  exact ⟨m', hrun, hfilled, word_wordBytes hword hbytes⟩

lemma strcpy_spec {src : List Nat} (hend : a + src.length + 1 ≤ utemp + pgsize) (hsrc : ∀ c ∈ src, c ≠ 0) :
    ∃ m', strcpy a src m = .ok m' ∧ Filled m m' (fun x => a ≤ x ∧ x < a + src.length + 1) ∧ IsString m'.byte a src := by
  obtain ⟨m', hrun, hfilled, hbytes⟩ := storeBytes_spec (src ++ [0]) hw ha (by simp; omega)
  refine ⟨m', hrun, hfilled.mono (by simp; omega), hsrc, ?_⟩
  intro i hi
  rw [hbytes i (by simp; omega)]
  by_cases hlast : i < src.length
  · rw [List.getElem?_append_left hlast]
  · obtain rfl : i = src.length := by omega
    simp

end

lemma word_congr {m' : Nat → Nat} (h : ∀ x, a ≤ x → x < a + 4 → m' x = m x) : word m' a = word m a := by
  unfold word
  rw [h a (by omega) (by omega), h (a + 1) (by omega) (by omega), h (a + 2) (by omega) (by omega),
    h (a + 3) (by omega) (by omega)]

/-! ## The layout -/

lemma countArgs_eq (argv : List (List Nat)) : ∀ (argc : Int) (size : Nat),
    countArgs argv (toI32 argc) (toU32 size) = (toI32 (argc + argv.length), toU32 (size + stringSize argv)) := by
  induction argv with
  | nil =>
    intro argc size
    simp only [countArgs, stringSize, List.length_nil, Int.natCast_zero, add_zero]
  | cons arg argv ih =>
    intro argc size
    have hsize : toU32 (toU32 size + arg.length + 1) = toU32 ((size + arg.length + 1 : Nat) : Int) := by
      unfold toU32
      omega
    rw [countArgs, toI32_add, hsize, ih, stringSize, List.length_cons]
    congr 2 <;> push_cast <;> ring

lemma lowest_eq (argv : List (List Nat)) (argc : Int) (hargc : argc = toI32 argv.length) :
    toU32 (toU32 ((toU32 (utemp + pgsize - toU32 (stringSize argv)) / 4 * 4 : Nat) - 4 * (argc + 1)) - 8) =
      toU32 (0x401000 - wrapped argv) := by
  have hmod : argc % 4294967296 = argv.length % 4294967296 := by rw [hargc, toI32_mod]
  unfold wrapped toU32 utemp ptsize pgsize
  omega

/-- The pointers from the slot `slot` on and the strings from `s` on, in the caller's page. -/
def Laid (m : Nat → Nat) (slot s : Nat) (argv : List (List Nat)) : Prop :=
  ∀ i (hi : i < argv.length), ∃ a, word m (slot + 4 * i) = utemp2ustack a ∧ s ≤ a ∧
    a + argv[i].length < utemp + pgsize ∧ IsString m a argv[i]

lemma Laid.cons {slot : Nat} {arg : List Nat}
    (hslot : word m slot = utemp2ustack s) (hend : s + arg.length < utemp + pgsize) (hstring : IsString m s arg)
    (h : Laid m (slot + 4) (s + arg.length + 1) argv) : Laid m slot s (arg :: argv) := by
  intro i hi
  cases i with
  | zero => exact ⟨s, hslot, Nat.le_refl s, hend, hstring⟩
  | succ i =>
    obtain ⟨a, hword, hle, hlt, hchars⟩ := h i (by simpa using hi)
    refine ⟨a, ?_, by omega, hlt, hchars⟩
    rw [← hword]
    congr 1
    omega

lemma Laid.congr {m' : Nat → Nat} {slot : Nat} (h : Laid m slot s argv)
    (hslots : ∀ x, slot ≤ x → x < slot + 4 * argv.length → m' x = m x)
    (hstrings : ∀ x, s ≤ x → x < utemp + pgsize → m' x = m x) : Laid m' slot s argv := by
  intro i hi
  obtain ⟨a, hword, hle, hlt, hchars⟩ := h i hi
  refine ⟨a, ?_, hle, hlt, hchars.congr fun x hx hx' => hstrings x (by omega) (by omega)⟩
  rw [← hword]
  exact word_congr fun x hx hx' => hslots x (by omega) (by omega)

lemma utemp2ustack_lt (a : Nat) : utemp2ustack a < 4294967296 := toU32_lt _

lemma copyArgs_spec (hlow : utemp ≤ argvStore) (argv : List (List Nat)) :
    ∀ {m : Mem} {i s : Nat}, m.writable (utemp / pgsize) → (∀ arg ∈ argv, ∀ c ∈ arg, c ≠ 0) →
      argvStore + 4 * (i + argv.length) ≤ s → s + stringSize argv = utemp + pgsize →
      ∃ m', copyArgs argvStore argv i s m = .ok (utemp + pgsize, m') ∧
        Filled m m' (fun x => (argvStore + 4 * i ≤ x ∧ x < argvStore + 4 * (i + argv.length)) ∨
          s ≤ x ∧ x < utemp + pgsize) ∧
        Laid m'.byte (argvStore + 4 * i) s argv := by
  induction argv with
  | nil =>
    intro m i s _ _ _ hs
    refine ⟨m, ?_, ⟨rfl, ⟨[], rfl, by simp⟩, fun _ _ => rfl⟩, fun i hi => absurd hi (Nat.not_lt_zero i)⟩
    rw [copyArgs, ← hs]
    rfl
  | cons arg argv ih =>
    intro m i s hw hargv hslots hs
    simp only [List.length_cons, stringSize] at hslots hs
    have hslot : toU32 (argvStore + 4 * i) = argvStore + 4 * i := by
      unfold toU32 utemp ptsize pgsize at *
      omega
    have hnext : toU32 (s + arg.length + 1) = s + arg.length + 1 := by
      unfold toU32 utemp ptsize pgsize at *
      omega
    obtain ⟨m1, hword, hfilled1, hpointer⟩ :=
      storeWord_spec hw (by omega : utemp ≤ argvStore + 4 * i) (by omega) (utemp2ustack_lt s)
    obtain ⟨m2, hcopy, hfilled2, hstring⟩ :=
      strcpy_spec (m := m1) (a := s) (by rw [hfilled1.writable, hw]) (by omega) (by omega)
        (hargv arg List.mem_cons_self)
    obtain ⟨m', hrun, hfilled, hlaid⟩ :=
      ih (m := m2) (i := i + 1) (s := s + arg.length + 1) (by rw [hfilled2.writable, hfilled1.writable, hw])
        (fun a ha => hargv a (List.mem_cons_of_mem arg ha)) (by omega) (by omega)
    refine ⟨m', ?_, ((hfilled1.trans hfilled2).trans hfilled).mono ?_, ?_⟩
    · rw [copyArgs, hslot, hnext, hword]
      change (strcpy s arg m1 >>= _) = _
      rw [hcopy]
      exact hrun
    · intro x hx
      simp only [List.length_cons]
      omega
    · apply Laid.cons
      · rw [← hpointer]
        -- the later stores are above this slot
        refine (word_congr fun x hx hx' => hfilled.frame x (by omega)).trans ?_
        exact word_congr fun x hx hx' => hfilled2.frame x (by omega)
      · omega
      · exact hstring.congr fun x hx hx' => hfilled.frame x (by omega)
      · exact hlaid

structure Layout (argv : List (List Nat)) (argvStore s : Nat) : Prop where
  low : utemp + 8 ≤ argvStore
  slots : argvStore + 4 * (argv.length + 1) ≤ s
  strings : s + stringSize argv = utemp + pgsize

lemma fillPage_spec (hl : Layout argv argvStore s) {m : Mem}
    (hw : m.writable (utemp / pgsize)) (hargv : ∀ arg ∈ argv, ∀ c ∈ arg, c ≠ 0) :
    ∃ m', fillPage argv argv.length s argvStore m = .ok m' ∧ Filled m m' (fun _ => True) ∧
      word m'.byte (argvStore - 8) = argv.length ∧ word m'.byte (argvStore - 4) = utemp2ustack argvStore ∧
      word m'.byte (argvStore + 4 * argv.length) = 0 ∧ Laid m'.byte argvStore s argv := by
  obtain ⟨hlow, hslots, hstrings⟩ := hl
  have hlength : argv.length < 4294967296 := by
    unfold utemp ptsize pgsize at *
    omega
  have hnull : toU32 (argvStore + 4 * (argv.length : Int)) = argvStore + 4 * argv.length := by
    unfold toU32 utemp ptsize pgsize at *
    omega
  have hargv' : toU32 (argvStore - 4) = argvStore - 4 := by
    unfold toU32 utemp ptsize pgsize at *
    omega
  have hargc : toU32 (argvStore - 8) = argvStore - 8 := by
    unfold toU32 utemp ptsize pgsize at *
    omega
  have hcount : toU32 (argv.length : Int) = argv.length := by
    unfold toU32
    omega
  obtain ⟨m1, hrun1, hf1, hlaid⟩ := copyArgs_spec (by omega : utemp ≤ argvStore) argv (i := 0) (s := s) hw hargv (by omega) hstrings
  obtain ⟨m2, hrun2, hf2, hzero⟩ :=
    storeWord_spec (m := m1) (a := argvStore + 4 * argv.length) (by rw [hf1.writable, hw]) (by omega) (by omega)
      (by omega : 0 < 4294967296)
  obtain ⟨m3, hrun3, hf3, hvector⟩ :=
    storeWord_spec (m := m2) (a := argvStore - 4) (by rw [hf2.writable, hf1.writable, hw]) (by omega) (by omega)
      (utemp2ustack_lt argvStore)
  obtain ⟨m4, hrun4, hf4, hcount'⟩ :=
    storeWord_spec (m := m3) (a := argvStore - 8) (by rw [hf3.writable, hf2.writable, hf1.writable, hw]) (by omega)
      (by omega) hlength
  refine ⟨m4, ?_, (((hf1.trans hf2).trans hf3).trans hf4).mono fun _ _ => trivial, hcount', ?_, ?_, ?_⟩
  · unfold fillPage
    rw [Int.toNat_natCast, List.take_length, hrun1, hnull, hargv', hargc, hcount]
    change (storeWord _ 0 m1 >>= _) = _
    rw [hrun2]
    change (storeWord _ _ m2 >>= _) = _
    rw [hrun3]
    exact hrun4
  · rw [← hvector]
    exact word_congr fun x hx hx' => hf4.frame x (by omega)
  · rw [← hzero]
    refine word_congr fun x hx hx' => ?_
    rw [hf4.frame x (by omega), hf3.frame x (by omega)]
  · refine hlaid.congr ?_ ?_ <;>
      intro x hx hx' <;>
      rw [hf4.frame x (by omega), hf3.frame x (by omega), hf2.frame x (by omega)]

lemma word_childMem (m : Nat → Nat) (j : Nat) :
    word (childMem fun j => m (utemp + j)) (ustackPage + j) = word m (utemp + j) := by
  simp only [word, childMem, add_assoc, Nat.add_sub_cancel_left]

lemma isString_childMem {j : Nat} {cs : List Nat} (h : IsString m (utemp + j) cs) :
    IsString (childMem fun j => m (utemp + j)) (ustackPage + j) cs := by
  refine ⟨h.nonzero, fun i hi => ?_⟩
  rw [← h.chars i hi]
  simp only [childMem, add_assoc, Nat.add_sub_cancel_left]

lemma utemp2ustack_add {j : Nat} (h : j ≤ pgsize) : utemp2ustack (utemp + j) = ustackPage + j := by
  unfold utemp2ustack toU32 ustackPage ustacktop utop utemp ptsize pgsize at *
  omega

lemma ustackPage_add : ustackPage + pgsize = ustacktop := rfl

lemma passed_of_page (hl : Layout argv argvStore s)
    (hcount : word m (argvStore - 8) = argv.length) (hvector : word m (argvStore - 4) = utemp2ustack argvStore)
    (hnull : word m (argvStore + 4 * argv.length) = 0) (hlaid : Laid m argvStore s argv) :
    Passed argv (childMem fun j => m (utemp + j)) (utemp2ustack (argvStore - 8)) := by
  obtain ⟨hlow, hslots, hstrings⟩ := hl
  obtain ⟨j, rfl⟩ := Nat.exists_eq_add_of_le hlow
  have hpage : j + 8 + 4 * (argv.length + 1) ≤ pgsize := by omega
  have htop := ustackPage_add
  have hargv : word (childMem fun j => m (utemp + j)) (ustackPage + (j + 4)) = ustackPage + (j + 8) := by
    rw [word_childMem, show utemp + (j + 4) = utemp + 8 + j - 4 by omega, hvector,
      show utemp + 8 + j = utemp + (j + 8) by omega, utemp2ustack_add (by omega)]
  rw [show utemp + 8 + j - 8 = utemp + j by omega] at hcount ⊢
  rw [utemp2ustack_add (by omega)]
  refine ⟨by omega, by rw [word_childMem, hcount], ?_, ?_, ?_⟩ <;>
    rw [add_assoc ustackPage j 4, hargv]
  · omega
  · rw [add_assoc ustackPage, word_childMem, ← hnull]
    congr 1
    omega
  · intro i hi
    obtain ⟨a, hword, hle, hlt, hstring⟩ := hlaid i hi
    obtain ⟨b, rfl⟩ := Nat.exists_eq_add_of_le (show utemp ≤ a by omega)
    refine ⟨ustackPage + b, ?_, by omega, by omega, isString_childMem hstring⟩
    rw [add_assoc ustackPage, word_childMem, ← utemp2ustack_add (by omega), ← hword]
    congr 1
    omega

/-! ## The result -/

lemma initStack_eq (argv : List (List Nat)) (ans : Answers) (m : Mem) : ∃ argc stringStore argvStore,
    argc = toI32 argv.length ∧ stringStore = toU32 (utemp + pgsize - toU32 (stringSize argv)) ∧
    argvStore = toU32 ((stringStore / 4 * 4 : Nat) - 4 * (argc + 1)) ∧ initStack argv ans m =
      if toU32 (0x401000 - wrapped argv) < utemp then .ok ⟨-eNoMem, none, none, m⟩
      else if ans.alloc < 0 then .ok ⟨ans.alloc, none, none, m⟩
      else (fillPage argv argc stringStore argvStore (m.alloc utemp)).map (handOver ans argvStore) := by
  refine ⟨_, _, _, rfl, rfl, rfl, ?_⟩
  have hcount := countArgs_eq argv 0 0
  rw [show toI32 0 = 0 by decide, show toU32 ((0 : Nat) : Int) = 0 by decide, zero_add, Int.natCast_zero,
    zero_add] at hcount
  unfold initStack
  rw [hcount, ← lowest_eq argv _ rfl]

lemma lowest_of_fits (h : Fits argv) : utemp ≤ toU32 (0x401000 - wrapped argv) := by
  unfold Fits at h
  unfold wrapped toU32 utemp ptsize pgsize at *
  omega

lemma layout_of_fits (h : Fits argv) :
    Layout argv (toU32 ((toU32 (utemp + pgsize - toU32 (stringSize argv)) / 4 * 4 : Nat) - 4 * ((argv.length : Int) + 1)))
      (toU32 (utemp + pgsize - toU32 (stringSize argv))) := by
  unfold Fits at h
  constructor <;>
    unfold toU32 utemp ptsize pgsize at * <;>
    omega

lemma initStack_delivers (hfits : Fits argv) (hargv : ∀ arg ∈ argv, ∀ c ∈ arg, c ≠ 0)
    {ans : Answers} (halloc : 0 ≤ ans.alloc) (hmap : 0 ≤ ans.map) (hunmap : 0 ≤ ans.unmap) (m : Mem) :
    ∃ r, initStack argv ans m = .ok r ∧ Delivers argv m r := by
  obtain ⟨argc, stringStore, argvStore, hargc, hstrings, hslots, hrun⟩ := initStack_eq argv ans m
  have hlayout := layout_of_fits hfits
  have hsmall : argc = argv.length := by
    rw [hargc]
    unfold Fits pgsize at hfits
    exact toI32_of_range (by omega) (by omega)
  rw [← hstrings, ← hsmall, ← hslots] at hlayout
  have hw : (m.alloc utemp).writable (utemp / pgsize) := by simp [Mem.alloc]
  obtain ⟨m', hfill, hfilled, hcount, hvector, hnull, hlaid⟩ := fillPage_spec hlayout hw hargv
  have hesp : toU32 (argvStore - 8) = argvStore - 8 := by
    have := hlayout.low
    have := hlayout.slots
    have := hlayout.strings
    unfold toU32 utemp ptsize pgsize at *
    omega
  rw [if_neg (Nat.not_lt.2 (lowest_of_fits hfits)), if_neg (by omega), hsmall, hfill] at hrun
  refine ⟨_, hrun, ?_⟩
  unfold handOver
  rw [if_neg (by omega), if_neg (by omega), hesp]
  exact ⟨rfl, hfilled.log, _, _, rfl, rfl, passed_of_page hlayout hcount hvector hnull hlaid⟩

/-! ### Arguments that do not fit -/

lemma storeBytes_stores (bs : List Nat) : ∀ {m m' : Mem} {a : Nat}, storeBytes a bs m = .ok m' →
    m'.stores.length = m.stores.length + bs.length := by
  induction bs with
  | nil =>
    intro m m' a h
    cases h
    rfl
  | cons b bs ih =>
    intro m m' a h
    unfold storeBytes store at h
    split at h
    · have hrest := ih h
      rw [hrest, List.length_cons, List.length_cons]
      omega
    · cases h

lemma copyArgs_stores (argvStore : Nat) (argv : List (List Nat)) : ∀ {m m' : Mem} {i s s' : Nat},
    copyArgs argvStore argv i s m = .ok (s', m') → m.stores.length ≤ m'.stores.length := by
  induction argv with
  | nil =>
    intro m m' i s s' h
    cases h
    exact le_rfl
  | cons arg argv ih =>
    intro m m' i s s' h
    rw [copyArgs] at h
    rcases hword : storeWord (toU32 (argvStore + 4 * i)) (utemp2ustack s) m with _ | m1 <;> rw [hword] at h
    · cases h
    change (strcpy s arg m1 >>= _) = _ at h
    rcases hcopy : strcpy s arg m1 with _ | m2 <;> rw [hcopy] at h
    · cases h
    have h1 := storeBytes_stores _ hword
    have h2 := storeBytes_stores _ hcopy
    have h3 := ih h
    omega

lemma fillPage_stores {argc : Int} {m m' : Mem}
    (h : fillPage argv argc s argvStore m = .ok m') : m.stores.length < m'.stores.length := by
  unfold fillPage at h
  rcases hcopy : copyArgs argvStore (argv.take argc.toNat) 0 s m with _ | ⟨s', m1⟩ <;> rw [hcopy] at h
  · cases h
  change (storeWord _ 0 m1 >>= _) = _ at h
  rcases hnull : storeWord (toU32 (argvStore + 4 * argc)) 0 m1 with _ | m2 <;> rw [hnull] at h
  · cases h
  change (if _ then _ else _) = _ at h
  split at h
  · cases h
  rcases hvector : storeWord (toU32 (argvStore - 4)) (utemp2ustack argvStore) m2 with _ | m3 <;> rw [hvector] at h
  · cases h
  have h1 := copyArgs_stores _ _ hcopy
  have h2 := storeBytes_stores _ hnull
  have h3 := storeBytes_stores _ hvector
  have h4 := storeBytes_stores _ h
  simp only [wordBytes, List.length_cons, List.length_nil] at h2 h3 h4
  omega

lemma handOver_mem (ans : Answers) (argvStore : Nat) (m : Mem) : (handOver ans argvStore m).mem = m.unmap utemp := by
  unfold handOver
  dsimp only
  split
  · rfl
  · split <;> rfl

lemma initStack_unmaps {ans : Answers} {m : Mem} {r : Init} (h : initStack argv ans m = .ok r) :
    (r.esp.isSome && r.mem.writable (utemp / pgsize)) = false := by
  obtain ⟨argc, stringStore, argvStore, -, -, -, hrun⟩ := initStack_eq argv ans m
  rw [hrun] at h
  split at h
  · cases h
    rfl
  split at h
  · cases h
    rfl
  rcases hfill : fillPage argv argc stringStore argvStore (m.alloc utemp) with _ | m' <;> rw [hfill] at h
  · cases h
  · cases h
    rw [handOver_mem]
    simp [Mem.unmap]

lemma lowest_refused_iff (argv : List (List Nat)) :
    toU32 (0x401000 - wrapped argv) < utemp ↔ pgsize < wrapped argv ∧ wrapped argv ≤ utemp + pgsize := by
  have hlt : wrapped argv < 4294967296 := Nat.mod_lt _ (by decide)
  unfold toU32 utemp ptsize pgsize
  omega

lemma initStack_refuses_iff (argv : List (List Nat)) (ans : Answers) (m : Mem) :
    (∃ r, initStack argv ans m = .ok r ∧ r.ret = -eNoMem ∧ r.mem.stores = m.stores) ↔
      (pgsize < wrapped argv ∧ wrapped argv ≤ utemp + pgsize) ∨ ans.alloc = -eNoMem := by
  obtain ⟨argc, stringStore, argvStore, -, -, -, hrun⟩ := initStack_eq argv ans m
  rw [hrun]
  by_cases hlow : toU32 (0x401000 - wrapped argv) < utemp
  · rw [if_pos hlow]
    exact ⟨fun _ => .inl ((lowest_refused_iff argv).1 hlow), fun _ => ⟨_, rfl, rfl, rfl⟩⟩
  · rw [if_neg hlow]
    by_cases halloc : ans.alloc < 0
    · rw [if_pos halloc]
      constructor
      · rintro ⟨r, hr, hret, -⟩
        cases hr
        exact .inr hret
      · rintro (hsize | hnomem)
        · exact absurd ((lowest_refused_iff argv).2 hsize) hlow
        · exact ⟨_, rfl, hnomem, rfl⟩
    · rw [if_neg halloc]
      constructor
      · rintro ⟨r, hr, -, hstores⟩
        rcases hfill : fillPage argv argc stringStore argvStore (m.alloc utemp) with _ | m' <;> rw [hfill] at hr
        · cases hr
        · cases hr
          have hmore := fillPage_stores hfill
          rw [handOver_mem] at hstores
          exact absurd (congrArg List.length hstores) (ne_of_gt hmore)
      · rintro (hsize | hnomem)
        · exact absurd ((lowest_refused_iff argv).2 hsize) hlow
        · rw [hnomem] at halloc
          exact absurd (by decide : (-eNoMem : Int) < 0) halloc

/-- `init_stack` is right exactly for arguments that fit and for those whose layout, modulo 2^32, is refused by the
test; and where no page is left the answer is the same. -/
theorem initStack_right_iff {argv : List (List Nat)} (hargv : ∀ arg ∈ argv, ∀ c ∈ arg, c ≠ 0) (ans : Answers) (m : Mem) :
    StackRight argv ans m ↔
      Fits argv ∨ (pgsize < wrapped argv ∧ wrapped argv ≤ utemp + pgsize) ∨ ans.alloc = -eNoMem := by
  constructor
  · intro hright
    by_cases hfits : Fits argv
    · exact .inl hfits
    · exact .inr ((initStack_refuses_iff argv ans m).1 (hright.refuses hfits))
  · intro hcond
    refine ⟨fun hfits halloc hmap hunmap => initStack_delivers hfits hargv halloc hmap hunmap m, fun hfits => ?_⟩
    exact (initStack_refuses_iff argv ans m).2 (hcond.resolve_left hfits)

def noPages : Mem := ⟨fun _ => 0, fun _ => false, []⟩

theorem initStack_right_ls :
    (∀ arg ∈ [[108, 115], [45, 108]], ∀ c ∈ arg, c ≠ 0) ∧ StackRight [[108, 115], [45, 108]] ⟨0, 0, 0⟩ noPages := by
  have hargv : ∀ arg ∈ [[108, 115], [45, 108]], ∀ c ∈ arg, c ≠ 0 := by decide
  exact ⟨hargv, (initStack_right_iff hargv ⟨0, 0, 0⟩ noPages).2 (.inl (by unfold Fits; decide))⟩

lemma initStack_long {arg : List Nat} (harg : arg.length = 0x401000) :
    ¬ StackRight [arg] ⟨0, 0, 0⟩ noPages ∧ initStack [arg] ⟨0, 0, 0⟩ noPages = .error .fault := by
  have hsize : stringSize [arg] = 0x401001 := by
    rw [stringSize, harg, stringSize]
  have hfits : ¬ Fits [arg] := by
    unfold Fits pgsize
    omega
  have hwrapped : wrapped [arg] = 0x401014 := by
    unfold wrapped
    rw [hsize, List.length_singleton]
  refine ⟨fun hright => ?_, ?_⟩
  · have hrefused := (initStack_refuses_iff _ _ _).1 (hright.refuses hfits)
    rw [hwrapped] at hrefused
    exact absurd hrefused (by decide)
  · obtain ⟨argc, stringStore, argvStore, hargc, hstrings, hslots, hrun⟩ := initStack_eq [arg] ⟨0, 0, 0⟩ noPages
    rw [hsize] at hstrings
    rw [List.length_singleton] at hargc
    obtain rfl : argc = 1 := hargc.trans (by decide)
    obtain rfl : stringStore = 0xFFFFFFFF := hstrings.trans (by decide)
    obtain rfl : argvStore = 0xFFFFFFF4 := hslots.trans (by decide)
    rw [hrun, hwrapped, if_neg (by decide), if_neg (by decide)]
    rfl

theorem initStack_overruns : ∃ arg : List Nat, (∀ c ∈ arg, c ≠ 0) ∧ ¬ StackRight [arg] ⟨0, 0, 0⟩ noPages ∧
    initStack [arg] ⟨0, 0, 0⟩ noPages = .error .fault := by
  refine ⟨List.replicate 0x401000 97, fun c hc => ?_, initStack_long List.length_replicate⟩
  rw [List.eq_of_mem_replicate hc]
  decide

end Jos.InitStack
