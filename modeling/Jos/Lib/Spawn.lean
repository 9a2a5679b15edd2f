import Jos.Kern.Loader

/-!
# Loading a program with `spawn`

`spawn` reads the ELF header and the program headers from the first 512 bytes of the file.
`map_segment` moves the segment down to a page boundary and goes through it page by page.
A page with bytes from the file is filled at `UTEMP` in the parent, mapped into the child
and unmapped again; the others are blank. `readn` is taken to return the file's bytes.
-/

namespace Jos.Lib
open Bits

def eNotExec : Int := 14
def elfProgFlagWrite : Nat := 2

def pFlags (buf : List Nat) (off : Nat) : Nat := field buf (off + 24) 4

def returned : Outcome Int → Option (Int × Kernel)
  | .ret r k => some (r, k)
  | .exit _ => none

def readTemp (cur : Nat) (bytes : List Nat) (k : Kernel) : Option Kernel := do
  let pgdir ← (k.envs cur).envPgdir
  let vm ← storeBytes pgdir utemp bytes k.vm
  some { k with vm := vm }

/-- One turn of the loop in `map_segment`; it panics if the page cannot be mapped into the child. -/
def mapPage (cur child : Nat) (file : List Nat) (va filesz fileoffset perm i : Nat) (k : Kernel) : Option (Int × Kernel) :=
  if filesz ≤ i then returned (sysPageAlloc cur child ((va + i) % 2 ^ 32) perm k)
  else do
    let (r, k) ← returned (sysPageAlloc cur 0 utemp (pteP ||| pteU ||| pteW) k)
    if r < 0 then some (r, k)
    else
      let k ← readTemp cur ((file.drop (fileoffset + i)).take (min pgsize (filesz - i))) k
      let (r, k) ← returned (sysPageMap cur 0 utemp child ((va + i) % 2 ^ 32) perm k)
      if r < 0 then none
      else
        let (_, k) ← returned (sysPageUnmap cur 0 utemp k)
        some (0, k)

def mapLoop (cur child : Nat) (file : List Nat) (va filesz fileoffset perm : Nat) : Nat → Nat → Kernel → Option (Int × Kernel)
  | 0, _, k => some (0, k)
  | n + 1, i, k => do
    let (r, k) ← mapPage cur child file va filesz fileoffset perm i k
    if r < 0 then some (r, k) else mapLoop cur child file va filesz fileoffset perm n (i + 4096) k

def mapSegment (cur child va memsz : Nat) (file : List Nat) (filesz fileoffset perm : Nat) (k : Kernel) : Option (Int × Kernel) :=
  let i := va % 4096
  mapLoop cur child file (va - i) ((filesz + i) % 2 ^ 32) (fileoffset - i) perm (((memsz + i) % 2 ^ 32 + 4095) / 4096) 0 k

def segmentPerm (flags : Nat) : Nat := if flag flags elfProgFlagWrite then pteP ||| pteU ||| pteW else pteP ||| pteU

/-- The loop over the program headers at these offsets of `elf_buf`. -/
def mapSegments (cur child : Nat) (file buf : List Nat) : List Nat → Kernel → Option (Int × Kernel)
  | [], k => some (0, k)
  | off :: offs, k =>
    let ph := proghdr buf off
    if ph.pType ≠ elfProgLoad then mapSegments cur child file buf offs k
    else do
      let (r, k) ← mapSegment cur child ph.pVa ph.pMemsz file ph.pFilesz ph.pOffset (segmentPerm (pFlags buf off)) k
      if r < 0 then some (r, k) else mapSegments cur child file buf offs k

def spawnSegments (cur child : Nat) (file : List Nat) (k : Kernel) : Option (Int × Kernel) :=
  let elfBuf := file.take 512
  if elfBuf.length ≠ 512 ∨ field elfBuf 0 4 ≠ elfMagic then some (-eNotExec, k)
  else mapSegments cur child file elfBuf (headers elfBuf) k

structure Spawning (k : Kernel) (cur child c ppd cpd : Nat) : Prop where
  parent : k.spaces cur = some ppd
  found : envid2env cur child true k = some c
  space : k.spaces c = some cpd
  other : c ≠ cur

/-- The call changes the mappings at `S` only and leaves memory with `R`; it fails only with fewer than `3 * n` free pages. -/
def Fills (k : Kernel) (l : List Nat) (n : Nat) (S : Slot → Prop) (R : Vm → Prop) (o : Option (Int × Kernel)) : Prop :=
  (l.length < 3 * n ∧ ∀ r k', o = some (r, k') → r < 0) ∨
  ∃ vm' l', o = some (0, { k with vm := vm' }) ∧ Paged vm' k.spaces l' ∧ l.length ≤ l'.length + 3 * n ∧
    OnlyAt k.spaces S k.vm vm' ∧ R vm'

lemma Fills.bind {k : Kernel} {l : List Nat} {n n' t : Nat} {S S' T : Slot → Prop} {R R1 R' : Vm → Prop}
    {o : Option (Int × Kernel)} {f : Kernel → Option (Int × Kernel)} (h : Fills k l n S R o) (ht : t = n + n')
    (hS : ∀ s, S s → T s) (hS' : ∀ s, S' s → T s)
    (hf : ∀ vm1 l1, Paged vm1 k.spaces l1 → Fills { k with vm := vm1 } l1 n' S' R1 (f { k with vm := vm1 }))
    (hR : ∀ vm1 vm', R vm1 → OnlyAt k.spaces S' vm1 vm' → R1 vm' → R' vm') :
    Fills k l t T R' (o.bind fun out => if out.1 < 0 then some out else f out.2) := by
  rcases h with ⟨hfew, hfail⟩ | ⟨vm1, l1, rfl, h1, hlen1, honly1, hR1⟩
  · refine .inl ⟨by omega, fun r k' hk' => ?_⟩
    obtain ⟨out, hout, hrest⟩ := Option.bind_eq_some_iff.mp hk'
    have hneg := hfail out.1 out.2 hout
    rw [if_pos hneg] at hrest
    cases hrest
    exact hneg
  rw [Option.bind_some, if_neg (lt_irrefl _)]
  rcases hf vm1 l1 h1 with ⟨hfew, hfail⟩ | ⟨vm', l', hrun, h', hlen', honly, hR2⟩
  · exact .inl ⟨by omega, hfail⟩
  · exact .inr ⟨vm', l', hrun, h', by omega, (honly1.mono hS).trans (honly.mono hS'), hR vm1 vm' hR1 honly hR2⟩

/-- The `n` bytes at `va + i` of a segment. -/
def Filled (file : List Nat) (cpd va filesz fileoffset i n : Nat) (vm : Vm) : Prop :=
  ∀ j < n, loadByte cpd (va + i + j) vm = some (if i + j < filesz then file.getD (fileoffset + i + j) 0 else 0)

section
variable {k : Kernel} {l file : List Nat} {cur child c ppd cpd va filesz fileoffset perm i : Nat}

lemma fillTemp (h : Paged k.vm k.spaces l) (hs : k.spaces cur = some ppd) {bytes : List Nat} (hlen : bytes.length ≤ 4096)
    (hbytes : ∀ b ∈ bytes, b < 256) :
    (l.length < 2 ∧ ∃ k', sysPageAlloc cur 0 utemp (pteP ||| pteU ||| pteW) k = .ret (-eNoMem) k') ∨
    ∃ vm1 vm2 l2 p, sysPageAlloc cur 0 utemp (pteP ||| pteU ||| pteW) k = .ret 0 { k with vm := vm1 } ∧
      readTemp cur bytes { k with vm := vm1 } = some { k with vm := vm2 } ∧ Paged vm2 k.spaces l2 ∧
      l.length ≤ l2.length + 2 ∧ OnlyAt k.spaces (· = pteSlot cur utemp) k.vm vm2 ∧ Private vm2 k.spaces cur utemp p ∧
      ∀ a, pageByte (vm2.mem p) a = bytes[a % 4096]?.getD 0 := by
  have hself : envid2env cur 0 true k = some cur := rfl
  have hcur : cur < nenv := h.acc.space_lt cur ppd hs
  have htemp : pteSlot cur utemp ∈ slots := pteSlot_mem hcur (by decide)
  have hpage : ∀ a, utemp ≤ a → a < utemp + 4096 → pteSlot cur a = pteSlot cur utemp := by
    intro a hlo hhi
    apply pteSlot_page
    unfold utemp ptsize at *
    omega
  rcases sysPageAlloc_maps h hself hs (show badVa utemp = false by decide) (show badPerm (pteP ||| pteU ||| pteW) = false by decide)
    (by decide) with hfail | ⟨vm1, l1, p, hr, h1, hlen1, hunused, hmap⟩
  · exact .inl hfail
  have hown : Private vm1 k.spaces cur utemp p := hmap.private (by decide) (by decide) hunused
  have hfit : utemp + 4096 ≤ utop := by decide
  obtain ⟨vm2, hst, h2, hw2, honly, hview⟩ := Paged.storeBytes hs bytes h1 (by omega) hbytes fun a hlo hhi =>
    ⟨p, hown.congr (hpage a hlo (by omega))⟩
  have hown2 := hown.of_words htemp hw2
  refine .inr ⟨vm1, vm2, l1, p, hr, ?_, h2, hlen1, ?_, hown2, fun a => ?_⟩
  · simp only [readTemp, Kernel.spaces_eq_some hs, Option.bind_eq_bind, Option.bind_some, hst]
  · refine hmap.toOnlyAt.trans (honly.mono ?_)
    rintro s ⟨a, hlo, hhi, rfl⟩
    exact hpage a hlo (by omega)
  · -- what the parent reads back at `UTEMP`
    have hoff : a % 4096 < 4096 := Nat.mod_lt a (by decide)
    have hslot := hpage (utemp + a % 4096) (Nat.le_add_right ..) (by omega)
    have hread := hview (utemp + a % 4096) (by omega)
    rw [loadByte_slot hs, hslot, hown2.ref, Option.map_some, hmap.loadByte_here (by decide) hs hslot,
      Nat.add_sub_cancel_left] at hread
    have hbyte : pageByte (vm2.mem p) (utemp + a % 4096) = pageByte (vm2.mem p) a := by
      apply pageByte_congr
      unfold utemp ptsize
      omega
    rw [hbyte] at hread
    by_cases hin : a % 4096 < bytes.length
    · rw [if_pos (by omega)] at hread
      rw [← hread]
      rfl
    · rw [if_neg (by omega)] at hread
      rw [Option.some.inj hread, List.getElem?_eq_none (by omega)]
      simp [pageByte]

variable (h : Paged k.vm k.spaces l) (hsp : Spawning k cur child c ppd cpd) (hva : badVa (va + i) = false)
  (hbad : badPerm perm = false) (hperm : perm < 4096) (hfile : fileoffset + filesz ≤ file.length)
  (hbytes : ∀ b ∈ file, b < 256)
include h hsp hva hbad hperm hfile hbytes

lemma mapPage_file (hi : i < filesz) : Fills k l 1 (fun s => s = pteSlot c (va + i) ∨ s = pteSlot cur utemp)
    (Filled file cpd va filesz fileoffset i 4096) (mapPage cur child file va filesz fileoffset perm i k) := by
  have hself : ∀ vm, envid2env cur 0 true { k with vm := vm } = some cur := fun _ => rfl
  have hutemp : badVa utemp = false := by decide
  have hlt := badVa_lt hva
  have hwrap : (va + i) % 2 ^ 32 = va + i := Nat.mod_eq_of_lt (hlt.trans_le (by decide))
  have htemp : pteSlot cur utemp ∈ slots := pteSlot_mem (h.acc.space_lt cur ppd hsp.parent) (by decide)
  have hne : pteSlot cur utemp ≠ pteSlot c (va + i) := fun heq => hsp.other ((pteSlot_eq_iff hlt (by decide)).mp heq).1.symm
  simp only [mapPage, Nat.not_le_of_lt hi, if_false, hwrap]
  generalize hdef : (file.drop (fileoffset + i)).take (min pgsize (filesz - i)) = bytes
  have hlength : bytes.length = min 4096 (filesz - i) := by
    rw [← hdef, List.length_take, List.length_drop, pgsize]
    omega
  have hsmall : ∀ b ∈ bytes, b < 256 := by
    intro b hb
    rw [← hdef] at hb
    exact hbytes b (List.mem_of_mem_drop (List.mem_of_mem_take hb))
  rcases fillTemp h hsp.parent (show bytes.length ≤ 4096 by omega) hsmall with
    ⟨hfew, k1, hr⟩ | ⟨vm1, vm2, l2, p, hr, hread, h2, hlen2, honly2, hown, hpage⟩
  · refine .inl ⟨by omega, fun r k' hk' => ?_⟩
    rw [hr] at hk'
    cases hk'
    exact show -eNoMem < 0 by decide
  simp only [hr, returned, Option.bind_eq_bind, Option.bind_some, lt_irrefl, if_false, hread]
  have hroom : pageRefs vm2 k.spaces p < 65535 := by
    rw [hown.refs h2 htemp]
    decide
  rcases sysPageMap_maps (k := { k with vm := vm2 }) h2 (hself vm2) hsp.found hsp.parent hsp.space hutemp hva hbad hperm
      hown.ref (.inl hroom) with ⟨hl, hno⟩ | ⟨vm3, l3, hm, h3, hlen3, hmap⟩
  · refine .inl ⟨by rw [hl, List.length_nil] at hlen2; omega, fun r k' hk' => ?_⟩
    rw [hno] at hk'
    cases hk'
  obtain ⟨vm4, l4, hu, h4, hlen4, hclear⟩ := sysPageUnmap_clears (k := { k with vm := vm3 }) h3 (hself vm3) hsp.parent hutemp
    ((hmap.toOnlyAt.slotRef_eq htemp id hne).trans hown.ref)
  refine .inr ⟨vm4, l4, ?_, h4, by omega, ?_, fun j hj => ?_⟩
  · simp only [hm, Option.bind_some, lt_irrefl, if_false, hu]
  · refine ((honly2.mono fun s => .inr).trans (hmap.toOnlyAt.mono fun s => .inl)).trans (hclear.toOnlyAt.mono fun s => .inr)
  · have halign := badVa_aligned hva
    have hslot : pteSlot c (va + i + j) = pteSlot c (va + i) := pteSlot_page c (by omega)
    have hmem : pteSlot c (va + i + j) ∈ slots := by
      rw [hslot]
      exact pteSlot_mem (h.acc.space_lt c cpd hsp.space) hlt
    rw [hclear.toOnlyAt.loadByte_eq hsp.space hmem (by rw [hslot]; exact hne.symm), hmap.loadByte_here hperm hsp.space hslot,
      hpage, show (va + i + j) % 4096 = j by omega]
    by_cases hin : i + j < filesz
    · rw [if_pos hin, ← hdef, List.getElem?_take_of_lt (by unfold pgsize; omega), List.getElem?_drop, List.getD_eq_getElem?_getD]
    · rw [if_neg hin, List.getElem?_eq_none (by omega)]
      rfl

lemma mapPage_spec : Fills k l 1 (fun s => s = pteSlot c (va + i) ∨ s = pteSlot cur utemp)
    (Filled file cpd va filesz fileoffset i 4096) (mapPage cur child file va filesz fileoffset perm i k) := by
  by_cases hi : i < filesz
  · exact mapPage_file h hsp hva hbad hperm hfile hbytes hi
  have hwrap : (va + i) % 2 ^ 32 = va + i := Nat.mod_eq_of_lt ((badVa_lt hva).trans_le (by decide))
  simp only [mapPage, Nat.le_of_not_lt hi, if_true, hwrap]
  rcases sysPageAlloc_maps h hsp.found hsp.space hva hbad hperm with
    ⟨hfew, k', hr⟩ | ⟨vm', l', p, hr, h', hlen, -, hmap⟩
  · refine .inl ⟨by omega, fun r k' hk' => ?_⟩
    rw [hr] at hk'
    cases hk'
    decide
  refine .inr ⟨vm', l', by rw [hr]; rfl, h', by omega, hmap.toOnlyAt.mono fun s => .inl, fun j hj => ?_⟩
  have hslot : pteSlot c (va + i + j) = pteSlot c (va + i) := pteSlot_page c (by have := badVa_aligned hva; omega)
  rw [hmap.loadByte_here hperm hsp.space hslot, if_neg (by omega)]
  simp [pageByte]

end

section
variable {file : List Nat} {cur child c ppd cpd va filesz fileoffset perm : Nat}

lemma mapLoop_spec (hbad : badPerm perm = false) (hperm : perm < 4096) (hfile : fileoffset + filesz ≤ file.length)
    (hbytes : ∀ b ∈ file, b < 256) (hva : va % 4096 = 0) (n : Nat) :
    ∀ {k : Kernel} {l : List Nat} {i : Nat}, Paged k.vm k.spaces l → Spawning k cur child c ppd cpd → i % 4096 = 0 →
      va + i + n * 4096 ≤ utop →
      Fills k l n (fun s => InRange c (va + i) (va + i + n * 4096) s ∨ s = pteSlot cur utemp)
        (Filled file cpd va filesz fileoffset i (n * 4096)) (mapLoop cur child file va filesz fileoffset perm n i k) := by
  induction n with
  | zero =>
    intro k l i h _ _ _
    exact .inr ⟨k.vm, l, rfl, h, le_rfl, OnlyAt.refl .., fun j hj => by omega⟩
  | succ n ih =>
    intro k l i h hsp hi hroom
    have hgood : badVa (va + i) = false := badVa_eq_false (by omega) (by omega)
    refine (mapPage_spec h hsp hgood hbad hperm hfile hbytes).bind (add_comm n 1) ?_ ?_
      (fun vm1 l1 h1 => ih h1 ⟨hsp.parent, hsp.found, hsp.space, hsp.other⟩ (show (i + 4096) % 4096 = 0 by omega) (by omega)) ?_
    · rintro s (rfl | rfl)
      · exact .inl ⟨va + i, by omega, by omega, rfl⟩
      · exact .inr rfl
    · rintro s (⟨a, hlo, hhi, rfl⟩ | rfl)
      · exact .inl ⟨a, by omega, by omega, rfl⟩
      · exact .inr rfl
    · intro vm1 vm' hfirst honly hrest j hj
      by_cases hj' : j < 4096
      · -- the first page, which the later turns leave alone
        have hlt : va + i + j < utop := by omega
        rw [honly.loadByte_eq hsp.space (pteSlot_mem (h.acc.space_lt c cpd hsp.space) hlt), hfirst j hj']
        rintro (⟨a, hlo, hhi, heq⟩ | heq)
        · have := ((pteSlot_eq_iff (by omega) hlt).mp heq).2
          omega
        · exact hsp.other ((pteSlot_eq_iff (by decide) hlt).mp heq).1
      · have := hrest (j - 4096) (by omega)
        rwa [show va + (i + 4096) + (j - 4096) = va + i + j by omega, show i + 4096 + (j - 4096) = i + j by omega,
          show fileoffset + (i + 4096) + (j - 4096) = fileoffset + i + j by omega] at this

end

lemma segmentPerm_ok (flags : Nat) : badPerm (segmentPerm flags) = false ∧ segmentPerm flags < 4096 := by
  unfold segmentPerm
  split
  · decide
  · decide

section
variable {file buf : List Nat} {cur child c ppd cpd : Nat}

lemma mapSegment_holds {k : Kernel} {l : List Nat} {ph : Proghdr} (h : Paged k.vm k.spaces l)
    (hsp : Spawning k cur child c ppd cpd) (hl : Loads file ph) (hoff : ph.pVa % 4096 ≤ ph.pOffset)
    (hbytes : ∀ b ∈ file, b < 256) (flags : Nat) :
    Fills k l ph.pages (fun s => InSegments c [ph] s ∨ s = pteSlot cur utemp) (Holds file cpd · ph)
      (mapSegment cur child ph.pVa ph.pMemsz file ph.pFilesz ph.pOffset (segmentPerm flags) k) := by
  obtain ⟨-, hpages⟩ := hl.stop_eq
  have hbelow := hl.below
  have hfilesz := hl.filesz
  have hinside := hl.inside
  have hdown : ph.pVa - ph.pVa % 4096 = rounddown ph.pVa := rfl
  have hn : ((ph.pMemsz + ph.pVa % 4096) % 2 ^ 32 + 4095) / 4096 = ph.pages := by
    clear hpages hdown
    unfold ustacktop utop pgsize at *
    unfold Proghdr.pages roundup rounddown
    omega
  have hsize : (ph.pFilesz + ph.pVa % 4096) % 2 ^ 32 = ph.pFilesz + ph.pVa % 4096 := by
    clear hpages hdown hn
    unfold ustacktop utop pgsize at *
    omega
  have hend : rounddown ph.pVa + 0 + ph.pages * 4096 ≤ utop := by
    rw [add_zero, ← hpages]
    clear hpages hdown hn hsize
    unfold ustacktop utop pgsize at *
    unfold roundup rounddown
    omega
  obtain ⟨hbad, hperm⟩ := segmentPerm_ok flags
  simp only [mapSegment, hn, hsize, hdown]
  rcases mapLoop_spec hbad hperm (show ph.pOffset - ph.pVa % 4096 + (ph.pFilesz + ph.pVa % 4096) ≤ file.length by omega)
      hbytes (show rounddown ph.pVa % 4096 = 0 by unfold rounddown; omega) ph.pages h hsp (Nat.zero_mod 4096) hend with
    hfail | ⟨vm', l', hrun, h', hlen, honly, hview⟩
  · exact .inl hfail
  refine .inr ⟨vm', l', hrun, h', hlen, honly.mono ?_, fun j hj => ?_⟩
  · rintro s (⟨a, hlo, hhi, rfl⟩ | rfl)
    · exact .inl ⟨ph, List.mem_singleton_self ph, a, ⟨hlo, by rw [hpages]; exact hhi⟩, rfl⟩
    · exact .inr rfl
  · have hin : ph.pVa % 4096 + j < ph.pages * 4096 := by
      have := (hl.touches hj).2
      unfold rounddown at hpages
      omega
    have hbyte := hview (ph.pVa % 4096 + j) hin
    rw [← hdown, show ph.pVa - ph.pVa % 4096 + 0 + (ph.pVa % 4096 + j) = ph.pVa + j by omega,
      show ph.pOffset - ph.pVa % 4096 + 0 + (ph.pVa % 4096 + j) = ph.pOffset + j by omega] at hbyte
    have hiff : 0 + (ph.pVa % 4096 + j) < ph.pFilesz + ph.pVa % 4096 ↔ j < ph.pFilesz := by omega
    rw [hbyte, segmentByte, if_congr hiff rfl rfl]

lemma mapSegments_holds (hbytes : ∀ b ∈ file, b < 256) (offs : List Nat) :
    ∀ {k : Kernel} {l : List Nat}, Paged k.vm k.spaces l → Spawning k cur child c ppd cpd →
      (∀ ph ∈ loadable (offs.map (proghdr buf)), Loads file ph ∧ ph.pVa % 4096 ≤ ph.pOffset) →
      (loadable (offs.map (proghdr buf))).Pairwise PagesApart →
      Fills k l (totalPages (offs.map (proghdr buf)))
        (fun s => InSegments c (loadable (offs.map (proghdr buf))) s ∨ s = pteSlot cur utemp)
        (fun vm => ∀ ph ∈ loadable (offs.map (proghdr buf)), Holds file cpd vm ph) (mapSegments cur child file buf offs k) := by
  induction offs with
  | nil =>
    intro k l h _ _ _
    exact .inr ⟨k.vm, l, rfl, h, Nat.le_add_right .., OnlyAt.refl .., nofun⟩
  | cons off offs ih =>
    intro k l h hsp hloads hapart
    rw [List.map_cons] at hloads hapart ⊢
    by_cases hload : (proghdr buf off).pType = elfProgLoad
    · rw [loadable_cons_pos hload] at hloads hapart ⊢
      rw [totalPages_cons_pos hload]
      obtain ⟨hfirst, hrest⟩ := List.pairwise_cons.mp hapart
      obtain ⟨hl, hoff⟩ := hloads _ List.mem_cons_self
      simp only [mapSegments, hload, ne_eq, not_true_eq_false, if_false, Option.bind_eq_bind]
      refine (mapSegment_holds h hsp hl hoff hbytes (pFlags buf off)).bind rfl ?_ ?_ (fun vm1 l1 h1 => ih h1
        ⟨hsp.parent, hsp.found, hsp.space, hsp.other⟩ (fun ph hph => hloads ph (List.mem_cons_of_mem _ hph)) hrest) ?_
      · rintro s (⟨ph, hph, hs⟩ | hs)
        · exact .inl ⟨ph, List.mem_singleton.mp hph ▸ List.mem_cons_self, hs⟩
        · exact .inr hs
      · rintro s (⟨ph, hph, hs⟩ | hs)
        · exact .inl ⟨ph, List.mem_cons_of_mem _ hph, hs⟩
        · exact .inr hs
      · intro vm1 vm' hholds honly hall ph hph
        rcases List.mem_cons.mp hph with rfl | hmem
        · refine hholds.keep hl hsp.space (h.acc.space_lt c cpd hsp.space) honly ?_
            (fun ph hph => (hloads ph (List.mem_cons_of_mem _ hph)).1) hfirst
          rintro s rfl
          exact hsp.other.symm
        · exact hall ph hmem
    · rw [loadable_cons_neg hload] at hloads hapart ⊢
      rw [totalPages_cons_neg hload]
      simp only [mapSegments, hload, ne_eq, not_false_eq_true, if_true]
      exact ih h hsp hloads hapart

end

section
variable {image : List Nat}

lemma field_take {off n m : Nat} (h : off + n ≤ m) : field (image.take m) off n = field image off n := by
  rw [field, List.drop_take, List.take_take, min_eq_left (by omega), field]

lemma headers_take (h : ePhoff image + 32 * ePhnum image ≤ 512) : headers (image.take 512) = headers image ∧
      (headers image).map (proghdr (image.take 512)) = (headers image).map (proghdr image) := by
  constructor
  · rw [headers, ePhnum, ePhoff, field_take (by decide), field_take (by decide)]
    rfl
  · apply List.map_congr_left
    intro off hoff
    obtain ⟨i, hi, rfl⟩ := List.mem_map.mp hoff
    rw [List.mem_range] at hi
    simp only [proghdr]
    rw [field_take (by omega), field_take (by omega), field_take (by omega), field_take (by omega), field_take (by omega)]

end

/-- An image that both loaders accept: `p_offset` reaches back to the start of the segment's first page. -/
structure Program (image : List Nat) : Prop where
  bytes : ∀ b ∈ image, b < 256
  magic : field image 0 4 = elfMagic
  table : ePhoff image + 32 * ePhnum image ≤ 512
  loads : ∀ ph ∈ loadable (elfOf image).ph, Loads image ph ∧ ph.pVa % 4096 ≤ ph.pOffset
  apart : (loadable (elfOf image).ph).Pairwise PagesApart

lemma spawnSegments_holds {image : List Nat} (hi : Program image) {k : Kernel} {l : List Nat} {cur child c ppd cpd : Nat}
    (h : Paged k.vm k.spaces l) (hsp : Spawning k cur child c ppd cpd) :
    ((image.length < 512 ∨ l.length < 3 * totalPages (elfOf image).ph) ∧
      ∀ r k', spawnSegments cur child image k = some (r, k') → r < 0) ∨
    ∃ vm', spawnSegments cur child image k = some (0, { k with vm := vm' }) ∧
      ∀ ph ∈ loadable (elfOf image).ph, Holds image cpd vm' ph := by
  obtain ⟨hheaders, hmap⟩ := headers_take hi.table
  have hmagic : field (image.take 512) 0 4 = elfMagic := by rw [field_take (by decide), hi.magic]
  simp only [spawnSegments, List.length_take, hmagic, ne_eq, not_true_eq_false, or_false, hheaders]
  by_cases hshort : image.length < 512
  · refine .inl ⟨.inl hshort, fun r k' hk' => ?_⟩
    rw [if_pos (by omega)] at hk'
    cases hk'
    exact show -eNotExec < 0 by decide
  rw [if_neg (by omega)]
  have hloads := hi.loads
  have hapart := hi.apart
  rw [show (elfOf image).ph = (headers image).map (proghdr (image.take 512)) from hmap.symm] at hloads hapart ⊢
  rcases mapSegments_holds hi.bytes (headers image) h hsp hloads hapart with
    ⟨hfew, hfail⟩ | ⟨vm', l', hrun, -, -, -, hall⟩
  · exact .inl ⟨.inr hfew, hfail⟩
  · exact .inr ⟨vm', hrun, hall⟩

/-- For a program both loaders accept, they build the same segments: the file's bytes followed by zeros. Each of them does
so whenever there are enough free pages. -/
theorem loaders_agree {image : List Nat} (hi : Program image) (type : EnvType) {k k' : Kernel} {l fl l' fl' : List Nat}
    (hk : Books k l fl) (hd : DirsWritable k.vm k.spaces) (hk' : Books k' l' fl') (hd' : DirsWritable k'.vm k'.spaces)
    {cur child c ppd cpd : Nat} (hsp : Spawning k' cur child c ppd cpd) :
    (fl ≠ [] → 2 * totalPages (elfOf image).ph + 3 ≤ l.length → ∃ k1, envCreate (elfOf image) type k = some k1) ∧
    (512 ≤ image.length → 3 * totalPages (elfOf image).ph ≤ l'.length → ∃ k2, spawnSegments cur child image k' = some (0, k2)) ∧
    ∀ k1 k2, envCreate (elfOf image) type k = some k1 → spawnSegments cur child image k' = some (0, k2) →
      ∃ e pd, k.envFreeList = some e ∧ (k1.envs e).envPgdir = some pd ∧ (k2.envs c).envPgdir = some cpd ∧
        ∀ ph ∈ loadable (elfOf image).ph, ∀ j < ph.pMemsz,
          loadByte pd (ph.pVa + j) k1.vm = some (segmentByte image ph j) ∧
          loadByte cpd (ph.pVa + j) k2.vm = some (segmentByte image ph j) := by
  have hkernel := hk.envCreate_loads hd type (show (elfOf image).eMagic = elfMagic from hi.magic)
    (fun ph hph => (hi.loads ph hph).1) hi.apart hi.bytes
  have hspawn := spawnSegments_holds hi (hk'.paged hd') hsp
  refine ⟨fun hfl hroom => ?_, fun hlong hroom => ?_, fun k1 k2 hrun1 hrun2 => ?_⟩
  · rcases hkernel with ⟨-, hnil | hfew⟩ | ⟨e, fl1, pd, k1, -, hrun, -⟩
    · exact absurd hnil hfl
    · omega
    · exact ⟨k1, hrun⟩
  · rcases hspawn with ⟨hshort | hfew, -⟩ | ⟨vm', hrun, -⟩
    · omega
    · omega
    · exact ⟨_, hrun⟩
  · rcases hkernel with ⟨hnone, -⟩ | ⟨e, fl1, pd, k1', hfl, hrun, hpd, hall⟩
    · rw [hnone] at hrun1
      cases hrun1
    rcases hspawn with ⟨-, hfail⟩ | ⟨vm', hrun', hall'⟩
    · exact absurd (hfail 0 k2 hrun2) (lt_irrefl 0)
    cases hrun.symm.trans hrun1
    cases hrun'.symm.trans hrun2
    refine ⟨e, pd, ?_, hpd, Kernel.spaces_eq_some hsp.space, fun ph hph j hj => ⟨hall ph hph j hj, hall' ph hph j hj⟩⟩
    have hchain := hk.envs.chain
    rw [hfl] at hchain
    exact hchain.1

/-- A program of two segments. The first starts inside a page, the second ends with a page of zeros. -/
def twoSegments : List Nat :=
  [0x7F, 0x45, 0x4C, 0x46] ++ List.replicate 20 0 ++ [0x20, 0, 0x80, 0] ++ [52, 0, 0, 0] ++ List.replicate 12 0 ++ [2, 0] ++
  List.replicate 6 0 ++
  [1, 0, 0, 0] ++ [0, 2, 0, 0] ++ [0x10, 0, 0x80, 0] ++ [0, 0, 0, 0] ++ [8, 0, 0, 0] ++ [32, 0, 0, 0] ++ [5, 0, 0, 0] ++ [0, 0x10, 0, 0] ++
  [1, 0, 0, 0] ++ [8, 2, 0, 0] ++ [0, 0x10, 0x80, 0] ++ [0, 0, 0, 0] ++ [8, 0, 0, 0] ++ [1, 0x10, 0, 0] ++ [6, 0, 0, 0] ++ [0, 0x10, 0, 0] ++
  List.replicate 396 0 ++ [1, 2, 3, 4, 5, 6, 7, 8] ++ [11, 12, 13, 14, 15, 16, 17, 18]

lemma twoSegments_headers : (elfOf twoSegments).ph = [⟨1, 512, 0x800010, 8, 32⟩, ⟨1, 520, 0x801000, 8, 4097⟩] := by rfl

lemma twoSegments_length : twoSegments.length = 528 := by decide +kernel

lemma twoSegments_program : Program twoSegments where
  bytes := by
    have hall : twoSegments.all (fun b => decide (b < 256)) := by decide +kernel
    intro b hb
    exact of_decide_eq_true (List.all_eq_true.mp hall b hb)
  magic := by decide
  table := by decide
  loads := by
    rw [twoSegments_headers]
    intro ph hph
    have hcases : ph = ⟨1, 512, 0x800010, 8, 32⟩ ∨ ph = ⟨1, 520, 0x801000, 8, 4097⟩ := by simpa [loadable, elfProgLoad] using hph
    rcases hcases with rfl | rfl
    · exact ⟨⟨by decide, by decide, by rw [twoSegments_length]; decide⟩, by decide⟩
    · exact ⟨⟨by decide, by decide, by rw [twoSegments_length]; decide⟩, by decide⟩
  apart := by
    rw [twoSegments_headers, loadable_cons_pos rfl, loadable_cons_pos rfl]
    refine List.pairwise_pair.mpr ?_
    rintro a ⟨ha, ha'⟩
    simp only [Proghdr.Touches, roundup, rounddown] at ha ha'
    omega

def pairKernel : Kernel :=
  let k := (envAlloc 0 smallKernel).2
  (envAlloc (k.envs 0).envId k).2

lemma pairKernel_child : envid2env 0 (pairKernel.envs 1).envId true pairKernel = some 1 := by decide

lemma smallKernel_dirs : DirsWritable smallKernel.vm smallKernel.spaces := by
  intro e d _ hn
  exact absurd (slotRef_none (spaces_free rfl)) hn

lemma pairKernel_books : ∃ l fl ppd cpd, Books pairKernel l fl ∧ DirsWritable pairKernel.vm pairKernel.spaces ∧ l.length = 12 ∧
    Spawning pairKernel 0 (pairKernel.envs 1).envId 1 ppd cpd := by
  rcases smallKernel_booted.books.envAlloc_spec 0 with ⟨r, -, -, hnone⟩ | ⟨e, k1, hr1, ha1⟩
  · simp at hnone
  obtain ⟨l1, fl1, hb1, -, hfl1, hlen1⟩ := ha1.books
  have hk1 : (envAlloc 0 smallKernel).2 = k1 := by rw [hr1]
  rw [show List.range' 0 1024 = 0 :: 1 :: List.range' 2 1022 from rfl, List.cons.injEq] at hfl1
  obtain ⟨rfl, rfl⟩ := hfl1
  rcases hb1.envAlloc_spec (k1.envs 0).envId with ⟨r, -, -, rfl | hnone⟩ | ⟨e2, k2, hr2, ha2⟩
  · simp at hlen1
  · cases hnone
  obtain ⟨l2, fl2, hb2, -, hfl2, hlen2⟩ := ha2.books
  rw [List.cons.injEq] at hfl2
  obtain ⟨rfl, rfl⟩ := hfl2
  have hk2 : pairKernel = k2 := by simp only [pairKernel, hk1, hr2]
  have hchild := pairKernel_child
  rw [hk2] at hchild ⊢
  have hlive0 : Live k2 0 := by
    rw [Live, ha2.others 0 (by decide)]
    exact ha1.live
  obtain ⟨ppd, -, hparent⟩ := hb2.space hlive0
  obtain ⟨cpd, -, hspace⟩ := hb2.space ha2.live
  rw [List.length_range'] at hlen1
  exact ⟨l2, _, ppd, cpd, hb2, ha2.dirsWritable (ha1.dirsWritable smallKernel_dirs), by omega, hparent, hchild, hspace, by decide⟩

theorem loaders_agree_twoSegments :
    (∃ k1, envCreate (elfOf twoSegments) .user smallKernel = some k1) ∧
    (∃ k2, spawnSegments 0 (pairKernel.envs 1).envId twoSegments pairKernel = some (0, k2)) ∧
    ∀ k1 k2, envCreate (elfOf twoSegments) .user smallKernel = some k1 →
      spawnSegments 0 (pairKernel.envs 1).envId twoSegments pairKernel = some (0, k2) →
      ∃ pd cpd, (k1.envs 0).envPgdir = some pd ∧ (k2.envs 1).envPgdir = some cpd ∧
        ∀ ph ∈ loadable (elfOf twoSegments).ph, ∀ j < ph.pMemsz,
          loadByte pd (ph.pVa + j) k1.vm = some (segmentByte twoSegments ph j) ∧
          loadByte cpd (ph.pVa + j) k2.vm = some (segmentByte twoSegments ph j) := by
  obtain ⟨l', fl', ppd, cpd, hb, hd, hlen, hsp⟩ := pairKernel_books
  obtain ⟨hcreate, hspawn, hsame⟩ := loaders_agree twoSegments_program .user smallKernel_booted.books smallKernel_dirs hb hd hsp
  have htotal : totalPages (elfOf twoSegments).ph = 3 := by
    rw [twoSegments_headers]
    decide
  refine ⟨hcreate (by simp) (by rw [htotal, List.length_range']; decide), hspawn (by rw [twoSegments_length]; decide) (by omega),
    fun k1 k2 h1 h2 => ?_⟩
  obtain ⟨e, pd, he, hpd, hcpd, hbytes⟩ := hsame k1 k2 h1 h2
  cases he
  exact ⟨pd, cpd, hpd, hcpd, hbytes⟩

end Jos.Lib
