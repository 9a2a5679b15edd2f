import Jos.Kern.Books

/-!
# The state after boot

`mem_init` and `env_init` leave every page not used by the kernel unreferenced and
every environment free. From there `env_create` loads the first environments; the
books are right in every state it reaches.
-/

namespace Jos
open LinkedList RefCount

/-- What `mem_init` and `env_init` establish. -/
structure Booted (k : Kernel) (l fl : List Nat) : Prop where
  size : k.vm.npages ≤ 2 ^ 20
  chain : Chain k.vm.ppLink k.vm.pageFreeList l
  unlinked : ∀ p, p < k.vm.npages → p ∉ l → k.vm.ppLink p = none
  free_page : ∀ p ∈ l, p < k.vm.npages ∧ ¬ KernUses k.vm p
  ppRef : ∀ p, p < k.vm.npages → ¬ KernUses k.vm p → k.vm.ppRef p = 0
  kern_low : ∀ d < npdeUser, present (k.vm.mem k.vm.kernPgdir d) = false
  envs : ∀ e, e < nenv → (k.envs e).envStatus = .free
  envChain : Chain (fun e => (k.envs e).envLink) k.envFreeList fl
  env_lt : ∀ e ∈ fl, e < nenv
  idle : ∀ cpu, k.curenv cpu = none

def UserElf (elf : Elf) : Prop :=
  ∀ ph ∈ elf.ph, ph.pType = elfProgLoad → ph.pVa + ph.pMemsz ≤ utop ∧ ph.pVa + ph.pFilesz ≤ utop

/-- The states reached from boot by `env_create`. -/
inductive Started : Kernel → Prop where
  | boot {k : Kernel} {l fl : List Nat} (h : Booted k l fl) : Started k
  | create {k k' : Kernel} {elf : Elf} {type : EnvType} (h : Started k) (helf : UserElf elf)
      (hrun : envCreate elf type k = some k') : Started k'

lemma Booted.books {k : Kernel} {l fl : List Nat} (h : Booted k l fl) : Books k l fl := by
  have hsp : ∀ e, k.spaces e = none := by
    intro e
    by_cases he : e < nenv
    · exact spaces_free (h.envs e he)
    · exact if_neg fun hl => he hl.1
  have href : ∀ s, slotRef k.vm k.spaces s = none := fun s => slotRef_none (hsp s.env)
  have hrefs : ∀ p, pageRefs k.vm k.spaces p = 0 := fun p => refs_eq_zero_iff.mpr fun s _ => by simp [href s]
  refine ⟨⟨h.size, h.chain, h.unlinked, ?_, ?_, ?_, ?_, ?_, h.kern_low⟩, ?_, ?_, ⟨h.envChain, ?_, ?_⟩⟩
  · intro p hp
    exact ⟨(h.free_page p hp).1, (h.free_page p hp).2, hrefs p⟩
  · intro p hp hk
    rw [h.ppRef p hp hk, hrefs]
  · intro s _ p hp
    simp [href s] at hp
  · intro s _ _ p hp
    simp [href s] at hp
  · intro e pd he
    simp [hsp e] at he
  · intro p
    rw [hrefs]
    omega
  · intro s _ _ _
    exact slotWord_none (hsp s.env)
  · intro e he
    exact ⟨h.env_lt e he, h.envs e (h.env_lt e he)⟩
  · intro e he
    exact absurd (h.envs e he.1) he.2

section
variable {sp : Spaces} {e pd : Nat} {vm vm' : Vm} {l : List Nat}

lemma region_fits {va len : Nat} (h : va + len ≤ utop) :
    rounddown va + (roundup ((va + len) % 2 ^ 32) - rounddown va) / 4096 * 4096 ≤ utop := by
  unfold utop at *
  unfold roundup rounddown
  omega

structure Loadable (sp : Spaces) (vm : Vm) : Prop where
  accounted : ∃ l, Accounted vm sp (fun _ => 0) l
  bound : ∀ p, pageRefs vm sp p ≤ 65535
  tidy : Tidy vm sp

section
variable (hs : sp e = some pd) (h : Loadable sp vm)
include hs h

lemma Loadable.regionAlloc {va len : Nat} (hfit : va + len ≤ utop) (hrun : regionAlloc pd va len vm = some vm') : Loadable sp vm' := by
  obtain ⟨l, hacc⟩ := h.accounted
  obtain ⟨l', hacc', hb, ht⟩ := Accounted.regionLoop_spec hs _ hacc h.bound h.tidy (region_fits hfit) hrun
  exact ⟨⟨l', hacc'⟩, hb, ht⟩

lemma Loadable.storeBytes {va : Nat} {bs : List Nat} (hfit : va + bs.length ≤ utop)
    (hrun : storeBytes pd va bs vm = some vm') : Loadable sp vm' := by
  obtain ⟨l, hacc⟩ := h.accounted
  obtain ⟨hacc', hw⟩ := Accounted.storeBytes_spec hs bs hacc hfit hrun
  refine ⟨⟨l, hacc'⟩, fun p => ?_, h.tidy.of_words fun k hk _ => Or.inl (hw k hk)⟩
  rw [pageRefs, refs_congr (slotRef_congr hw) p]
  exact h.bound p

lemma Loadable.loadSegment {image : List Nat} {ph : Proghdr}
    (hfit : ph.pType = elfProgLoad → ph.pVa + ph.pMemsz ≤ utop ∧ ph.pVa + ph.pFilesz ≤ utop)
    (hrun : loadSegment pd image ph vm = some vm') : Loadable sp vm' := by
  unfold Jos.loadSegment at hrun
  split at hrun
  · rename_i hload
    obtain ⟨vm1, hregion, hrun⟩ := Option.bind_eq_some_iff.mp hrun
    obtain ⟨vm2, hzero, hrun⟩ := Option.bind_eq_some_iff.mp hrun
    have hlen : ph.pVa + ((image.drop ph.pOffset).take ph.pFilesz).length ≤ utop := by
      have := List.length_take_le ph.pFilesz (image.drop ph.pOffset)
      have := (hfit hload).2
      omega
    have h1 := h.regionAlloc hs (hfit hload).1 hregion
    have h2 := h1.storeBytes hs (by simpa using (hfit hload).1) hzero
    exact h2.storeBytes hs hlen hrun
  · cases hrun
    exact h

end

lemma Loadable.loadSegments (hs : sp e = some pd) {image : List Nat} (phs : List Proghdr) :
    ∀ {vm vm' : Vm}, Loadable sp vm →
      (∀ ph ∈ phs, ph.pType = elfProgLoad → ph.pVa + ph.pMemsz ≤ utop ∧ ph.pVa + ph.pFilesz ≤ utop) →
      loadSegments pd image phs vm = some vm' → Loadable sp vm' := by
  induction phs with
  | nil =>
    intro vm vm' h _ hrun
    cases hrun
    exact h
  | cons ph phs ih =>
    intro vm vm' h hfit hrun
    obtain ⟨vm1, hone, hrun⟩ := Option.bind_eq_some_iff.mp hrun
    exact ih (h.loadSegment hs (hfit ph List.mem_cons_self) hone)
      (fun ph hph => hfit ph (List.mem_cons_of_mem _ hph)) hrun

end

lemma Books.loadIcode_spec {k k' : Kernel} {l fl : List Nat} (h : Books k l fl) {e : Nat} (hl : Live k e)
    {elf : Elf} (helf : UserElf elf) (hrun : loadIcode e elf k = some k') : ∃ l', Books k' l' fl := by
  obtain ⟨pd, hpd, hs⟩ := h.space hl
  unfold loadIcode at hrun
  split at hrun
  · simp at hrun
  · obtain ⟨pd', hpd', hrun⟩ := Option.bind_eq_some_iff.mp hrun
    cases hpd.symm.trans hpd'
    obtain ⟨vm1, hseg, hrun⟩ := Option.bind_eq_some_iff.mp hrun
    obtain ⟨vm2, hstack, hrun⟩ := Option.bind_eq_some_iff.mp hrun
    cases hrun
    have h0 : Loadable k.spaces k.vm := ⟨⟨l, h.vm⟩, h.bound, h.tidy⟩
    have h2 := (h0.loadSegments hs elf.ph helf hseg).regionAlloc hs (by decide) hstack
    obtain ⟨l2, hacc⟩ := h2.accounted
    have hsame : SameEnv (k.envs e) (loadedEnv (k.envs e) elf.eEntry) := ⟨by simp [loadedEnv, hl.2], rfl, rfl⟩
    exact ⟨l2, (SameKernel.setEnv { k with vm := vm2 } hsame).books (h.setVm hacc h2.bound h2.tidy)⟩

lemma Books.envCreate_spec {k k' : Kernel} {l fl : List Nat} (h : Books k l fl) {elf : Elf} {type : EnvType}
    (helf : UserElf elf) (hrun : envCreate elf type k = some k') : ∃ l' fl', Books k' l' fl' := by
  rcases h.envAlloc_spec 0 with ⟨r, -, halloc, -⟩ | ⟨e, k1, halloc, ha⟩
  · simp [envCreate, halloc] at hrun
  · obtain ⟨l1, fl1, hb1, -⟩ := ha.books
    rw [envCreate, halloc] at hrun
    obtain ⟨k2, hload, rfl⟩ := Option.map_eq_some_iff.mp hrun
    obtain ⟨l2, hb2⟩ := hb1.loadIcode_spec ha.live helf hload
    refine ⟨l2, fl1, (SameKernel.setEnv k2 ?_).books hb2⟩
    unfold typedEnv
    split <;> exact ⟨Iff.rfl, rfl, rfl⟩

lemma Started.books {k : Kernel} (h : Started k) : ∃ l fl, Books k l fl := by
  induction h with
  | boot h => exact ⟨_, _, h.books⟩
  | create _ helf hrun ih =>
    obtain ⟨l, fl, hb⟩ := ih
    exact hb.envCreate_spec helf hrun

def smallVm : Vm where
  npages := 64
  mem := fun p i => if p = 1 ∧ i = pdx uvpt then entry 1 (pteP ||| pteU) else 0
  ppRef := fun _ => 0
  ppLink := fun p => if 2 ≤ p ∧ p < 15 then some (p + 1) else none
  pageFreeList := some 2
  kernPgdir := 1

/-- A slot of `envs[]` as `env_init` leaves it. -/
def blankEnv (link : Option Nat) : Env where
  envTf := ⟨⟨0, 0, 0, 0, 0, 0, 0, 0⟩, 0, 0, 0, 0, 0, 0, 0, 0, 0⟩
  envLink := link
  envId := 0
  envParentId := 0
  envType := .user
  envStatus := .free
  envRuns := 0
  envCpunum := 0
  envPgdir := none
  envPgfaultUpcall := 0
  envIpcRecving := false
  envIpcDstva := 0
  envIpcValue := 0
  envIpcFrom := 0
  envIpcPerm := 0

def smallKernel : Kernel where
  vm := smallVm
  envs := fun e => blankEnv (if e < nenv - 1 then some (e + 1) else none)
  envFreeList := some 0
  cpus := fun _ => ⟨.started, none⟩
  envsPage := 16
  kernelPage := fun p => 47 ≤ p

lemma smallKernel_kernUses {p : Nat} : KernUses smallKernel.vm p ↔ p = 1 := by
  constructor
  · rintro (rfl | ⟨d, -, hd⟩)
    · rfl
    · simp only [smallKernel, smallVm] at hd
      split at hd
      · exact (Option.some.inj ((target_entry (show pteU < 4096 by decide) 1).symm.trans hd)).symm
      · simp at hd
  · rintro rfl
    exact Or.inl rfl

lemma smallKernel_booted : Booted smallKernel (List.range' 2 14) (List.range' 0 1024) where
  size := by decide
  chain := by
    apply chain_range' 13 2
    · intro i hi hu
      simp only [smallKernel, smallVm]
      rw [if_pos (by omega)]
    · rfl
  unlinked := by
    intro p _ hp
    simp only [smallKernel, smallVm]
    rw [if_neg]
    rintro ⟨h2, h15⟩
    exact hp (List.mem_range'_1.mpr ⟨h2, by omega⟩)
  free_page := by
    intro p hp
    have := List.mem_range'_1.mp hp
    refine ⟨by change p < 64; omega, ?_⟩
    rw [smallKernel_kernUses]
    omega
  ppRef := fun _ _ _ => rfl
  kern_low := by
    intro d hd
    have hne : d ≠ pdx uvpt := by
      rintro rfl
      exact absurd hd (by decide)
    simp [smallKernel, smallVm, hne]
  envs := fun _ _ => rfl
  envChain := by
    apply chain_range' 1023 0
    · intro i _ hu
      simp only [smallKernel, blankEnv]
      rw [if_pos (by unfold nenv; omega)]
    · rfl
  env_lt := by
    intro e he
    have := List.mem_range'_1.mp he
    unfold nenv
    omega
  idle := fun _ => rfl

def emptyElf : Elf := ⟨elfMagic, 0x800020, [], []⟩

lemma emptyElf_user : UserElf emptyElf := fun ph hph => by simp [emptyElf] at hph

lemma Started.exists_create {k : Kernel} (h : Started k) {P : Kernel → Bool}
    (htest : (envCreate emptyElf .user k).any P) : ∃ k', Started k' ∧ P k' := by
  obtain ⟨k', hcreate, hk⟩ := (Option.any_eq_true _ _).mp htest
  exact ⟨k', h.create emptyElf_user hcreate, hk⟩

lemma exists_created {P : Kernel → Bool} (htest : (envCreate emptyElf .user smallKernel).any P) :
    ∃ k, Started k ∧ P k :=
  Started.exists_create (.boot smallKernel_booted) htest

end Jos
