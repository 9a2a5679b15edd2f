import Jos.Kern.Boot

/-!
# Checking user pointers

`user_mem_check` rounds the range to pages in 32-bit arithmetic, walks the page
table and looks at the page table entry alone. The range is what decides: an end
in the last page wraps to an empty loop, an end past `2 ^ 32` leaves at most one
page, and a range of length 0 may still visit a page.
-/

namespace Jos
open Bits

def allows (w perm : Nat) : Bool := w &&& (perm ||| pteP) == perm ||| pteP

def Vm.pdeAt (vm : Vm) (pd a : Nat) : Nat := vm.mem pd (pdx a)

def Vm.pteAt (vm : Vm) (pd a : Nat) : Nat := vm.mem (ppn (vm.pdeAt pd a)) (ptx a)

/-- What the program may do: the address lies below `ULIM`, and both words on the way to it
allow `perm`. -/
structure Accessible (vm : Vm) (pd perm a : Nat) : Prop where
  below : a < ulim
  pde : allows (vm.pdeAt pd a) perm = true
  pte : allows (vm.pteAt pd a) perm = true

/-- What `user_mem_check` looks at. -/
def Passes (vm : Vm) (pd perm a : Nat) : Prop :=
  present (vm.pdeAt pd a) = true ∧ allows (vm.pteAt pd a) perm = true

instance (vm : Vm) (pd perm a : Nat) : Decidable (Passes vm pd perm a) := inferInstanceAs (Decidable (_ ∧ _))

/-- A page table built by the kernel: page tables lie in memory, and above `ULIM` nothing is
mapped for the user. -/
structure KernelBuilt (vm : Vm) (pd : Nat) : Prop where
  tables : ∀ a, present (vm.pdeAt pd a) = true → ppn (vm.pdeAt pd a) < vm.npages
  high : ∀ a, ulim ≤ a → a < 2 ^ 32 → present (vm.pdeAt pd a) = true → flag (vm.pteAt pd a) pteU = false

lemma present_of_allows {w perm : Nat} (h : allows w perm) : present w := by
  refine flag_of_and_eq (beq_iff_eq.1 h) ?_
  rw [flag_or]
  exact Bool.or_true _

section
variable {vm : Vm} {pd perm va len : Nat}

lemma Accessible.passes {a : Nat} (h : Accessible vm pd perm a) : Passes vm pd perm a :=
  ⟨present_of_allows h.pde, h.pte⟩

lemma KernelBuilt.passes_below (hb : KernelBuilt vm pd) (hU : flag perm pteU) {a : Nat}
    (ha : a < 2 ^ 32) (h : Passes vm pd perm a) : a < ulim := by
  by_contra hlim
  have hflag := hb.high a (by omega) ha h.1
  have huser : flag (vm.pteAt pd a) pteU := by
    refine flag_of_and_eq (beq_iff_eq.1 h.2) ?_
    rw [flag_or, hU, Bool.true_or]
  rw [huser] at hflag
  cases hflag

lemma passes_congr {a b : Nat} (h : a / 4096 = b / 4096) : Passes vm pd perm a ↔ Passes vm pd perm b := by
  have hd : pdx a = pdx b := by
    unfold pdx
    omega
  have ht : ptx a = ptx b := by
    unfold ptx
    omega
  simp only [Passes, Vm.pdeAt, Vm.pteAt, hd, ht]

lemma pgdirWalk_built (hb : KernelBuilt vm pd) (a : Nat) : pgdirWalk pd a false vm =
      some (if present (vm.pdeAt pd a) then some (ppn (vm.pdeAt pd a), ptx a) else none, vm) := by
  unfold pgdirWalk
  cases hp : present (vm.pdeAt pd a) with
  | true =>
    have hp' : present (vm.mem pd (pdx a)) := hp
    have hlt : ppn (vm.mem pd (pdx a)) < vm.npages := hb.tables a hp
    simp [hp', hlt, Vm.pdeAt]
  | false =>
    have hp' : present (vm.mem pd (pdx a)) = false := hp
    simp [hp']

lemma userMemLoop_succ (hb : KernelBuilt vm pd) (n start : Nat) : userMemLoop pd va perm vm (n + 1) start =
      if Passes vm pd perm start then userMemLoop pd va perm vm n (start + 4096)
      else some (.fault (max start va)) := by
  rw [userMemLoop, pgdirWalk_built hb]
  by_cases hp : present (vm.pdeAt pd start)
  · simp only [hp, if_true, Option.bind_eq_bind, Option.bind_some, Passes, true_and]
    by_cases ha : allows (vm.pteAt pd start) perm
    · have ha' : vm.mem (ppn (vm.pdeAt pd start)) (ptx start) &&& (perm ||| pteP) = perm ||| pteP :=
        beq_iff_eq.mp ha
      simp [ha, ha']
    · have ha' : ¬ vm.mem (ppn (vm.pdeAt pd start)) (ptx start) &&& (perm ||| pteP) = perm ||| pteP :=
        fun heq => ha (beq_iff_eq.mpr heq)
      simp [ha, ha']
  · simp [hp, Passes]

lemma userMemLoop_spec (hb : KernelBuilt vm pd) (n start : Nat) :
    userMemLoop pd va perm vm n start = some .ok ∧ (∀ i < n, Passes vm pd perm (start + i * 4096)) ∨
    ∃ i < n, userMemLoop pd va perm vm n start = some (.fault (max (start + i * 4096) va)) ∧
      ¬ Passes vm pd perm (start + i * 4096) ∧ ∀ j < i, Passes vm pd perm (start + j * 4096) := by
  induction n generalizing start with
  | zero => exact Or.inl ⟨rfl, by simp⟩
  | succ n ih =>
    rw [userMemLoop_succ hb]
    by_cases hp : Passes vm pd perm start
    · rw [if_pos hp]
      rcases ih (start + 4096) with ⟨hok, hall⟩ | ⟨i, hi, hfault, hbad, hall⟩
      · refine Or.inl ⟨hok, fun i hi => ?_⟩
        cases i with
        | zero => simpa using hp
        | succ i =>
          have := hall i (by omega)
          rwa [show start + 4096 + i * 4096 = start + (i + 1) * 4096 by ring] at this
      · refine Or.inr ⟨i + 1, by omega, ?_, ?_, fun j hj => ?_⟩
        · rw [hfault, show start + 4096 + i * 4096 = start + (i + 1) * 4096 by ring]
        · rwa [show start + 4096 + i * 4096 = start + (i + 1) * 4096 by ring] at hbad
        · cases j with
          | zero => simpa using hp
          | succ j =>
            have := hall j (by omega)
            rwa [show start + 4096 + j * 4096 = start + (j + 1) * 4096 by ring] at this
    · rw [if_neg hp]
      refine Or.inr ⟨0, by omega, by simp, by simpa using hp, by simp⟩

lemma userMemCheck_eq : userMemCheck pd va len perm vm =
    userMemLoop pd va perm vm ((roundup ((va + len) % 2 ^ 32) - rounddown va) / 4096) (rounddown va) := rfl

/-- A range that is not empty and ends below the last page: the check stops at the first address
that does not pass. -/
theorem userMemCheck_range (perm : Nat) (hb : KernelBuilt vm pd) (hlen : 0 < len) (hend : va + len ≤ 2 ^ 32 - 4096) :
    userMemCheck pd va len perm vm = some .ok ∧ (∀ a, va ≤ a → a < va + len → Passes vm pd perm a) ∨
    ∃ x, userMemCheck pd va len perm vm = some (.fault x) ∧ va ≤ x ∧ x < va + len ∧ ¬ Passes vm pd perm x ∧
      ∀ a, va ≤ a → a < x → Passes vm pd perm a := by
  have hstop : roundup ((va + len) % 2 ^ 32) = (va + len + 4095) / 4096 * 4096 := by
    unfold roundup rounddown
    omega
  have hstart : rounddown va = va / 4096 * 4096 := by
    unfold rounddown
    omega
  have hcheck : userMemCheck pd va len perm vm =
      userMemLoop pd va perm vm ((va + len + 4095) / 4096 - va / 4096) (va / 4096 * 4096) := by
    have hcount : ((va + len + 4095) / 4096 * 4096 - va / 4096 * 4096) / 4096 =
        (va + len + 4095) / 4096 - va / 4096 := by omega
    rw [userMemCheck_eq, hstop, hstart, hcount]
  have hpage : ∀ a, va ≤ a → (Passes vm pd perm (va / 4096 * 4096 + (a / 4096 - va / 4096) * 4096) ↔
      Passes vm pd perm a) := fun a ha => passes_congr (by omega)
  rw [hcheck]
  rcases userMemLoop_spec hb ((va + len + 4095) / 4096 - va / 4096) (va / 4096 * 4096) with
    ⟨hok, hall⟩ | ⟨i, hi, hfault, hbad, hall⟩
  · refine Or.inl ⟨hok, fun a ha hlt => ?_⟩
    rw [← hpage a ha]
    exact hall _ (by omega)
  · refine Or.inr ⟨_, hfault, by omega, by omega, ?_, fun a ha hlt => ?_⟩
    · rw [← passes_congr (a := va / 4096 * 4096 + i * 4096) (by omega)]
      exact hbad
    · rw [← hpage a ha]
      exact hall _ (by omega)

lemma userMemCheck_empty (h : roundup ((va + len) % 2 ^ 32) ≤ rounddown va) :
    userMemCheck pd va len perm vm = some .ok := by
  rw [userMemCheck_eq, Nat.sub_eq_zero_of_le h]
  rfl

lemma userMemCheck_page (perm : Nat) (hb : KernelBuilt vm pd)
    (h : roundup ((va + len) % 2 ^ 32) = rounddown va + 4096) :
    userMemCheck pd va len perm vm = if Passes vm pd perm va then some .ok else some (.fault va) := by
  have hva : Passes vm pd perm (rounddown va) ↔ Passes vm pd perm va :=
    passes_congr (by unfold rounddown; omega)
  have hmax : max (rounddown va) va = va := by
    unfold rounddown
    omega
  rw [userMemCheck_eq, h, Nat.add_sub_cancel_left, Nat.div_self (show 0 < 4096 by decide),
    userMemLoop_succ hb, hmax]
  simp only [hva, userMemLoop]

end

/-- The result is right: success only if every address of the range is accessible, and otherwise
the lowest address that is not. -/
def CheckRight (vm : Vm) (pd va len perm : Nat) : Prop :=
  match userMemCheck pd va len perm vm with
  | none => False
  | some .ok => ∀ a, va ≤ a → a < va + len → Accessible vm pd perm a
  | some (.fault x) => va ≤ x ∧ x < va + len ∧ ¬ Accessible vm pd perm x ∧
      ∀ a, va ≤ a → a < x → Accessible vm pd perm a

/-- Where the result is right. The range is empty, and no page is visited or the one visited
passes; or it ends below the last page, and the directory entries on the way allow `perm`, up to
the first page that does not pass; or it wraps past `2 ^ 32` into the page it starts in, and that
page does not pass. -/
def CheckExact (vm : Vm) (pd va len perm : Nat) : Prop :=
  (len = 0 ∧ (rounddown va < roundup va → Passes vm pd perm va)) ∨
  (0 < len ∧ va + len ≤ 2 ^ 32 - 4096 ∧ ∀ a, va ≤ a → a < va + len →
    (∀ b, va ≤ b → b ≤ a → Passes vm pd perm b) → allows (vm.pdeAt pd a) perm = true) ∨
  (2 ^ 32 ≤ va + len ∧ rounddown va < roundup ((va + len) % 2 ^ 32) ∧ ¬ Passes vm pd perm va)

section
variable {vm : Vm} {pd perm va len : Nat}

lemma not_accessible_of_le {a : Nat} (h : ulim ≤ a) : ¬ Accessible vm pd perm a :=
  fun hacc => by
    have := hacc.below
    omega

lemma not_checkRight_of_ok (hok : userMemCheck pd va len perm vm = some .ok) (hlen : 0 < len)
    (hend : ulim < va + len) : ¬ CheckRight vm pd va len perm := by
  intro hright
  simp only [CheckRight, hok] at hright
  exact not_accessible_of_le (show ulim ≤ va + len - 1 by omega) (hright _ (by omega) (by omega))

lemma checkRight_empty_iff (hb : KernelBuilt vm pd) (hva : va < 2 ^ 32) :
    CheckRight vm pd va 0 perm ↔ (rounddown va < roundup va → Passes vm pd perm va) := by
  have hmod : (va + 0) % 2 ^ 32 = va := by omega
  by_cases hlt : rounddown va < roundup va
  · have hpage : roundup ((va + 0) % 2 ^ 32) = rounddown va + 4096 := by
      rw [hmod]
      unfold roundup rounddown at *
      omega
    simp only [CheckRight, userMemCheck_page perm hb hpage, hlt, true_imp_iff]
    split <;> rename_i hp
    · split at hp <;> simp at hp
    · split at hp
      · rename_i hpass
        simp only [hpass, iff_true]
        intro a ha hlt'
        omega
      · simp at hp
    · split at hp
      · simp at hp
      · rename_i hpass
        simp only [hpass, iff_false]
        omega
  · have hempty : roundup ((va + 0) % 2 ^ 32) ≤ rounddown va := by
      rw [hmod]
      omega
    simp only [CheckRight, userMemCheck_empty hempty, hlt, false_imp_iff, iff_true]
    intro a ha hlt'
    omega

lemma checkRight_range_iff (hb : KernelBuilt vm pd) (hU : flag perm pteU) (hlen : 0 < len)
    (hend : va + len ≤ 2 ^ 32 - 4096) : CheckRight vm pd va len perm ↔ ∀ a, va ≤ a → a < va + len →
      (∀ b, va ≤ b → b ≤ a → Passes vm pd perm b) → allows (vm.pdeAt pd a) perm := by
  have hacc : ∀ a, a < va + len → Passes vm pd perm a → allows (vm.pdeAt pd a) perm →
      Accessible vm pd perm a :=
    fun a ha hp hpde => ⟨hb.passes_below hU (by omega) hp, hpde, hp.2⟩
  rcases userMemCheck_range perm hb hlen hend with ⟨hok, hall⟩ | ⟨x, hfault, hx, hxlt, hbad, hall⟩
  · simp only [CheckRight, hok]
    constructor
    · exact fun hright a ha hlt _ => (hright a ha hlt).pde
    · exact fun hpde a ha hlt => hacc a hlt (hall a ha hlt)
        (hpde a ha hlt fun b hb' hba => hall b hb' (by omega))
  · simp only [CheckRight, hfault]
    constructor
    · rintro ⟨-, -, -, hright⟩ a ha hlt hpass
      have hax : a < x := by
        by_contra hxa
        exact hbad (hpass x hx (by omega))
      exact (hright a ha hax).pde
    · intro hpde
      refine ⟨hx, hxlt, fun h => hbad h.passes, fun a ha hax => ?_⟩
      exact hacc a (by omega) (hall a ha hax) (hpde a ha (by omega) fun b hb' hba => hall b hb' (by omega))

lemma checkRight_wrapped_iff (hb : KernelBuilt vm pd) (hva : va < 2 ^ 32) (hl : len < 2 ^ 32)
    (hend : 2 ^ 32 ≤ va + len) : CheckRight vm pd va len perm ↔
      rounddown va < roundup ((va + len) % 2 ^ 32) ∧ ¬ Passes vm pd perm va := by
  have hlim : ulim < va + len := lt_of_lt_of_le (by decide) hend
  by_cases hlt : rounddown va < roundup ((va + len) % 2 ^ 32)
  · have hpage : roundup ((va + len) % 2 ^ 32) = rounddown va + 4096 := by
      unfold roundup rounddown at *
      omega
    have hcheck := userMemCheck_page perm hb hpage
    by_cases hp : Passes vm pd perm va
    · rw [if_pos hp] at hcheck
      simp [not_checkRight_of_ok hcheck (by omega) hlim, hp]
    · rw [if_neg hp] at hcheck
      simp only [CheckRight, hcheck, hlt, hp, not_false_eq_true, and_self, iff_true]
      refine ⟨le_rfl, by omega, fun h => hp h.passes, fun a ha hlt' => by omega⟩
  · have hcheck : userMemCheck pd va len perm vm = some .ok := userMemCheck_empty (by omega)
    exact iff_of_false (not_checkRight_of_ok hcheck (by omega) hlim) fun h => hlt h.1

lemma kernelBuilt_of_dir (htables : ∀ d, d < 1024 → present (vm.mem pd d) → ppn (vm.mem pd d) < vm.npages)
    (hhigh : ∀ d, d < 1024 → pdx ulim ≤ d → present (vm.mem pd d) →
      ∀ t, t < 1024 → flag (vm.mem (ppn (vm.mem pd d)) t) pteU = false) : KernelBuilt vm pd where
  tables := fun a hp => htables (pdx a) (pdx_lt a) hp
  high := by
    intro a hlim ha hp
    refine hhigh (pdx a) (pdx_lt a) ?_ hp (ptx a) (ptx_lt a)
    unfold ulim at *
    unfold pdx
    omega

end

def stackTest (k : Kernel) (pd : Nat) : Bool :=
  (k.envs 0).envPgdir == some pd &&
  ((List.range 1024).all fun d => !present (k.vm.mem pd d) || decide (ppn (k.vm.mem pd d) < k.vm.npages)) &&
  ((List.range 1024).all fun d => !decide (pdx ulim ≤ d) || !present (k.vm.mem pd d))

lemma pgdir_of_stackTest {k : Kernel} {pd : Nat} (h : stackTest k pd) : (k.envs 0).envPgdir = some pd := by
  simp only [stackTest, Bool.and_eq_true, beq_iff_eq] at h
  exact h.1.1

lemma kernelBuilt_of_stackTest {k : Kernel} {pd : Nat} (h : stackTest k pd) : KernelBuilt k.vm pd := by
  simp only [stackTest, Bool.and_eq_true, List.all_eq_true, List.mem_range, Bool.or_eq_true, Bool.not_eq_true',
    decide_eq_true_eq, decide_eq_false_iff_not] at h
  refine kernelBuilt_of_dir ?_ ?_
  · intro d hd hp
    rcases h.1.2 d hd with hn | hn
    · simp [hp] at hn
    · exact hn
  · intro d hd hlim hp
    rcases h.2 d hd with hn | hn
    · exact absurd hlim hn
    · simp [hp] at hn

/-- The first program's check of `0x800` bytes at `0xFFFFF000`: the rounded end wraps to 0, no page
is visited, and the kernel's own memory is declared accessible. -/
theorem check_of_last_page_succeeds : ∃ k pd, Started k ∧ (k.envs 0).envPgdir = some pd ∧
    KernelBuilt k.vm pd ∧ userMemCheck pd 0xFFFFF000 0x800 pteU k.vm = some .ok ∧
    ¬ CheckRight k.vm pd 0xFFFFF000 0x800 pteU := by
  have htest : ((envCreate emptyElf .user smallKernel).any fun k => stackTest k 2) = true := by decide +kernel
  obtain ⟨k, hstart, hk⟩ := exists_created htest
  have hok : userMemCheck 2 0xFFFFF000 0x800 pteU k.vm = some .ok := userMemCheck_empty (by decide)
  exact ⟨k, 2, hstart, pgdir_of_stackTest hk,
    kernelBuilt_of_stackTest hk, hok,
    not_checkRight_of_ok hok (by decide) (by decide)⟩

/-- For every page table built by the kernel, every range and every permission with `PTE_U`, the
result of `user_mem_check` is right exactly under `CheckExact`. -/
theorem user_mem_check_right_iff {vm : Vm} {pd va len perm : Nat} (hb : KernelBuilt vm pd) (hva : va < 2 ^ 32)
    (hl : len < 2 ^ 32) (hU : flag perm pteU = true) :
    CheckRight vm pd va len perm ↔ CheckExact vm pd va len perm := by
  unfold CheckExact
  by_cases hlen : len = 0
  · subst len
    rw [checkRight_empty_iff hb hva]
    constructor
    · exact fun h => Or.inl ⟨rfl, h⟩
    · rintro (h | h | h)
      · exact h.2
      · exact absurd h.1 (by decide)
      · omega
  by_cases hend : va + len ≤ 2 ^ 32 - 4096
  · rw [checkRight_range_iff hb hU (by omega) hend]
    constructor
    · exact fun h => Or.inr (Or.inl ⟨by omega, hend, h⟩)
    · rintro (h | h | h)
      · exact absurd h.1 hlen
      · exact h.2.2
      · omega
  by_cases hwrap : 2 ^ 32 ≤ va + len
  · rw [checkRight_wrapped_iff hb hva hl hwrap]
    constructor
    · exact fun h => Or.inr (Or.inr ⟨hwrap, h⟩)
    · rintro (h | h | h)
      · exact absurd h.1 hlen
      · omega
      · exact h.2
  · -- the end lies in the last page: its rounding wraps to 0
    have hcheck : userMemCheck pd va len perm vm = some .ok := by
      apply userMemCheck_empty
      unfold roundup rounddown
      omega
    apply iff_of_false (not_checkRight_of_ok hcheck (by omega) (by unfold ulim; omega))
    rintro (h | h | h) <;> omega

/-- The first program's check of its stack page, with `PTE_W`. -/
theorem user_mem_check_right_stack : ∃ k pd, Started k ∧ KernelBuilt k.vm pd ∧
    CheckExact k.vm pd 0xEEBFD000 4096 (pteU ||| pteW) ∧ CheckRight k.vm pd 0xEEBFD000 4096 (pteU ||| pteW) := by
  have htest : ((envCreate emptyElf .user smallKernel).any fun k => stackTest k 2 &&
      allows (k.vm.pdeAt 2 0xEEBFD000) (pteU ||| pteW)) = true := by decide +kernel
  obtain ⟨k, hstart, hk⟩ := exists_created htest
  simp only [Bool.and_eq_true] at hk
  have hb := kernelBuilt_of_stackTest hk.1
  have hexact : CheckExact k.vm 2 0xEEBFD000 4096 (pteU ||| pteW) := by
    refine Or.inr (Or.inl ⟨by decide, by decide, fun a ha hlt _ => ?_⟩)
    have hpdx : pdx a = pdx 0xEEBFD000 := by
      unfold pdx
      omega
    rw [Vm.pdeAt, hpdx]
    exact hk.2
  exact ⟨k, 2, hstart, hb, hexact,
    (user_mem_check_right_iff hb (by decide) (by decide) (by decide)).mpr hexact⟩

end Jos
