import Jos.Kern.SyscallSpec
import Jos.Kern.UserMem
import Mathlib.Tactic.IntervalCases

/-!
# Address spaces as the programs see them

What a program sees of the page tables is one entry for each page below `UTOP`, and the
contents of the pages that are present. `page_insert` and `page_remove` change one entry,
and a store changes one byte of one page. Everything else stays as it was, in all address
spaces.
-/

namespace Jos
open RefCount Function

variable {a e p pd va : Nat} {page : Nat → Nat} {vm' : Vm}

def pteSlot (e va : Nat) : Slot := .pte e (pdx va) (ptx va)

/-- `pgdir_walk` makes every directory entry writable. -/
def DirsWritable (vm : Vm) (sp : Spaces) : Prop :=
  ∀ e d, Slot.pde e d ∈ slots → slotRef vm sp (.pde e d) ≠ none → writable (slotWord vm sp (.pde e d)) = true

structure Paged (vm : Vm) (sp : Spaces) (l : List Nat) : Prop where
  acc : Accounted vm sp (fun _ => 0) l
  bound : ∀ p, pageRefs vm sp p ≤ 65535
  tidy : Tidy vm sp
  dirs : DirsWritable vm sp

section
variable {vm : Vm} {sp : Spaces} {l : List Nat} {e pd va : Nat}

lemma pteSlot_mem (he : e < nenv) (hva : va < utop) : pteSlot e va ∈ slots := by
  rw [pteSlot, pte_mem_slots]
  unfold utop at hva
  unfold pdx ptx npdeUser
  omega

lemma pteSlot_eq_iff {e' va' : Nat} (hva : va < utop) (hva' : va' < utop) :
    pteSlot e' va' = pteSlot e va ↔ e' = e ∧ va' / 4096 = va / 4096 := by
  unfold pteSlot pdx ptx
  rw [Slot.pte.injEq]
  unfold utop at hva hva'
  omega

lemma pteSlot_page (e : Nat) (h : a / 4096 = va / 4096) : pteSlot e a = pteSlot e va := by
  unfold pteSlot pdx ptx
  rw [Slot.pte.injEq]
  omega

lemma byte_of_put (w b : Nat) (hb : b < 256) (i j : Nat) (hi : i < 4) (hj : j < 4) :
    (w / 256 ^ (i + 1) * 256 ^ (i + 1) + b * 256 ^ i + w % 256 ^ i) / 256 ^ j % 256 =
      if j = i then b else w / 256 ^ j % 256 := by
  interval_cases i <;> interval_cases j <;> simp only [Nat.reduceAdd, Nat.reducePow, Nat.reduceEqDiff,
    if_true, if_false] <;> omega

def pageByte (page : Nat → Nat) (va : Nat) : Nat := page (va % 4096 / 4) / 256 ^ (va % 4) % 256

lemma pageByte_congr (page : Nat → Nat) (h : a % 4096 = va % 4096) : pageByte page a = pageByte page va := by
  unfold pageByte
  rw [h, show a % 4 = va % 4 by omega]

lemma slotWord_pteSlot (hs : sp e = some pd) (vm : Vm) (va : Nat) : slotWord vm sp (pteSlot e va) =
    if present (vm.mem pd (pdx va)) then vm.mem (ppn (vm.mem pd (pdx va))) (ptx va) else 0 := by
  unfold pteSlot slotWord
  simp only [hs]

lemma loadByte_slot (hs : sp e = some pd) (vm : Vm) (va : Nat) :
    loadByte pd va vm = (slotRef vm sp (pteSlot e va)).map fun p => pageByte (vm.mem p) va := by
  unfold loadByte slotRef target
  rw [slotWord_pteSlot hs]
  cases hpde : present (vm.mem pd (pdx va)) with
  | false => simp [hpde, show present 0 = false by decide]
  | true =>
    cases hpte : present (vm.mem (ppn (vm.mem pd (pdx va))) (ptx va)) with
    | false => simp [hpte]
    | true => simp [hpde, hpte, pageByte]

end

structure OnlyAt (sp : Spaces) (R : Slot → Prop) (vm vm' : Vm) : Prop where
  words : ∀ k ∈ slots, ¬ k.IsTable → ¬ R k → slotWord vm' sp k = slotWord vm sp k
  data : ∀ k ∈ slots, ¬ k.IsTable → ¬ R k → ∀ p, slotRef vm' sp k = some p → vm'.mem p = vm.mem p

structure Remap (sp : Spaces) (k0 : Slot) (w : Nat) (page : Nat → Nat) (vm vm' : Vm) : Prop
    extends OnlyAt sp (· = k0) vm vm' where
  here : slotWord vm' sp k0 = w
  page : ∀ p, slotRef vm' sp k0 = some p → vm'.mem p = page

def Unused (vm : Vm) (sp : Spaces) (p : Nat) : Prop := ∀ k ∈ slots, ¬ k.IsTable → slotRef vm sp k ≠ some p

structure Private (vm : Vm) (sp : Spaces) (e va p : Nat) : Prop where
  ref : slotRef vm sp (pteSlot e va) = some p
  write : writable (slotWord vm sp (pteSlot e va)) = true
  sole : ∀ k ∈ slots, ¬ k.IsTable → slotRef vm sp k = some p → k = pteSlot e va

namespace OnlyAt
variable {sp : Spaces} {R R' : Slot → Prop} {vm vm1 vm' : Vm} {e pd va : Nat} {k : Slot}

lemma slotRef_eq (h : OnlyAt sp R vm vm') (hk : k ∈ slots) (hkt : ¬ k.IsTable) (hR : ¬ R k) :
    slotRef vm' sp k = slotRef vm sp k := by
  rw [slotRef, h.words k hk hkt hR, slotRef]

lemma refl (sp : Spaces) (R : Slot → Prop) (vm : Vm) : OnlyAt sp R vm vm :=
  ⟨fun _ _ _ _ => rfl, fun _ _ _ _ _ _ => rfl⟩

lemma mono (h : OnlyAt sp R vm vm') (hR : ∀ k, R k → R' k) : OnlyAt sp R' vm vm' :=
  ⟨fun k hk hkt hn => h.words k hk hkt (mt (hR k) hn), fun k hk hkt hn => h.data k hk hkt (mt (hR k) hn)⟩

lemma trans (h : OnlyAt sp R vm vm1) (h' : OnlyAt sp R vm1 vm') : OnlyAt sp R vm vm' where
  words := fun k hk hkt hn => (h'.words k hk hkt hn).trans (h.words k hk hkt hn)
  data := fun k hk hkt hn p hp =>
    (h'.data k hk hkt hn p hp).trans (h.data k hk hkt hn p ((h'.slotRef_eq hk hkt hn).symm.trans hp))

lemma loadByte_eq (h : OnlyAt sp R vm vm') (hs : sp e = some pd) (hk : pteSlot e va ∈ slots) (hR : ¬ R (pteSlot e va)) :
    loadByte pd va vm' = loadByte pd va vm := by
  rw [loadByte_slot hs, loadByte_slot hs]
  cases hp : slotRef vm' sp (pteSlot e va) with
  | none => rw [← h.slotRef_eq hk id hR, hp]; rfl
  | some p => rw [← h.slotRef_eq hk id hR, hp, Option.map_some, Option.map_some, h.data _ hk id hR p hp]

end OnlyAt

lemma Private.keep {vm : Vm} {sp : Spaces} {R : Slot → Prop} (h : Private vm sp e va p)
    (ho : OnlyAt sp R vm vm') (hk : pteSlot e va ∈ slots) (hR : ¬ R (pteSlot e va))
    (hnew : ∀ k ∈ slots, ¬ k.IsTable → R k → slotRef vm' sp k ≠ some p) : Private vm' sp e va p where
  ref := (ho.slotRef_eq hk id hR).trans h.ref
  write := by rw [ho.words _ hk id hR]; exact h.write
  sole := by
    intro k hks hkt hp
    by_cases hRk : R k
    · exact absurd hp (hnew k hks hkt hRk)
    · exact h.sole k hks hkt ((ho.slotRef_eq hks hkt hRk).symm.trans hp)

section
variable {vm vm' : Vm} {sp : Spaces} {l : List Nat} {e pd va pp perm p : Nat}

lemma Remap.slotRef_eq {k0 : Slot} {q flags : Nat} (hflags : flags < 4096)
    (h : Remap sp k0 (entry q (pteP ||| flags)) page vm vm') : slotRef vm' sp k0 = some q := by
  rw [slotRef, h.here]
  exact target_entry hflags q

lemma Remap.loadByte_here (hperm : perm < 4096)
    (h : Remap sp (pteSlot e va) (entry p (pteP ||| perm)) page vm vm') (hs : sp e = some pd) (ha : pteSlot e a = pteSlot e va) :
    loadByte pd a vm' = some (pageByte page a) := by
  have href := h.slotRef_eq hperm
  rw [loadByte_slot hs, ha, href, Option.map_some, h.page p href]

lemma Paged.pageInsert (h : Paged vm sp l) (hs : sp e = some pd) (hva : va < utop) (hpp : Mappable vm sp l pp)
    (hperm : perm < 4096) (hroom : pageRefs vm sp pp < 65535 ∨ slotRef vm sp (pteSlot e va) = some pp) :
    (l = [] ∧ Jos.pageInsert pd pp va perm vm = some (-eNoMem, vm)) ∨
    ∃ vm' l', Jos.pageInsert pd pp va perm vm = some (0, vm') ∧ Paged vm' sp l' ∧ l.length ≤ l'.length + 1 ∧
      Remap sp (pteSlot e va) (entry pp (pteP ||| perm)) (vm.mem pp) vm vm' := by
  rcases h.acc.pageInsert_spec hs hva hpp hperm h.bound rfl with ⟨-, hl, hr⟩ | ⟨vm', l', hr, hacc, hi, -, hlen⟩
  · exact .inl ⟨hl, hr⟩
  have hdata : ∀ k ∈ slots, ¬ k.IsTable → ∀ q, slotRef vm' sp k = some q → vm'.mem q = vm.mem q :=
    fun k hk hkt q hq => hi.data q (hacc.notTable hk hkt hq)
  have hbound : ∀ q, pageRefs vm' sp q ≤ 65535 := by
    intro q
    have hq := hi.refs q
    have hb := h.bound q
    by_cases hcase : q = pp ∧ slotRef vm sp (.pte e (pdx va) (ptx va)) ≠ some pp
    · rw [if_pos hcase, hcase.1] at hq
      rw [hcase.1]
      have := hroom.resolve_right hcase.2
      omega
    · rw [if_neg hcase] at hq
      omega
  have hdirs : DirsWritable vm' sp := by
    intro e' d hk hnew
    by_cases hsame : Slot.pde e' d = .pde e (pdx va)
    · cases hsame
      obtain ⟨q, -, ⟨hq, hword⟩ | ⟨hnone, -⟩⟩ := hi.pde
      · rw [hword]
        exact h.dirs _ _ hk (by rw [hq]; exact Option.some_ne_none q)
      · exact hi.made hnone
    · have hword := hi.words _ hk hsame nofun
      rw [slotRef, hword] at hnew
      rw [hword]
      exact h.dirs _ _ hk hnew
  refine .inr ⟨vm', l', hr, ⟨hacc, hbound, hi.tidy hperm h.tidy, hdirs⟩, hlen, ⟨fun k hk hkt hne => ?_, fun k hk hkt _ => hdata k hk hkt⟩,
    hi.pte, fun q hq => ?_⟩
  · exact hi.words k hk (by rintro rfl; exact hkt trivial) hne
  · have hqp : q = pp := by
      rw [slotRef, pteSlot, hi.pte, target_entry hperm] at hq
      exact (Option.some.inj hq).symm
    subst hqp
    exact hdata (.pte e (pdx va) (ptx va)) (h.acc.pte_mem hs hva) id q (by rw [slotRef, hi.pte]; exact target_entry hperm q)

/-- A page from the free list is mapped, unless there are not enough free pages for it and a page table. -/
theorem Paged.mapNew (h : Paged vm sp (p :: l)) (hs : sp e = some pd) (hva : va < utop) (hperm : perm < 4096) (zero : Bool) :
    ∃ vm1, pageAlloc zero vm = (some p, vm1) ∧
      ((l = [] ∧ (∃ vm2, pageDecref p vm1 = some vm2) ∧ Jos.pageInsert pd p va perm vm1 = some (-eNoMem, vm1)) ∨
        ∃ vm' l', Jos.pageInsert pd p va perm vm1 = some (0, vm') ∧ Paged vm' sp l' ∧ l.length ≤ l'.length + 1 ∧
          Remap sp (pteSlot e va) (entry p (pteP ||| perm)) (if zero then fun _ => 0 else vm.mem p) vm vm' ∧ Unused vm sp p) := by
  obtain ⟨vm1, halloc, htaken, hacc, hfresh, hw⟩ := h.acc.pageAlloc_cons zero
  have href := slotRef_congr hw
  have hunused : ∀ k ∈ slots, slotRef vm sp k ≠ some p :=
    fun k hk => by rw [← href k hk]; exact refs_eq_zero_iff.mp hfresh.refs k hk
  have h1 : Paged vm1 sp l :=
    { acc := hacc
      bound := fun q => by rw [pageRefs, refs_congr href]; exact h.bound q
      tidy := h.tidy.of_words fun k hk _ => .inl (hw k hk)
      dirs := fun e' d hk hn => by rw [hw _ hk]; exact h.dirs e' d hk (by rw [← href _ hk]; exact hn) }
  refine ⟨vm1, halloc, ?_⟩
  rcases h1.pageInsert hs hva hfresh.mappable hperm (.inl (by rw [hfresh.refs]; decide)) with
    ⟨hl, hno⟩ | ⟨vm', l', hins, h', hlen, hmap⟩
  · obtain ⟨link, head, -, hdec, -⟩ := pageDecref_unlinked hacc.chain hfresh.notMem (hacc.unlinked p hfresh.lt hfresh.notMem)
    exact .inl ⟨hl, ⟨_, hdec⟩, hno⟩
  refine .inr ⟨vm', l', hins, h', hlen, ⟨⟨fun k hk hkt hne => (hmap.words k hk hkt hne).trans (hw k hk),
    fun k hk hkt hne q hq => ?_⟩, hmap.here, fun q hq => (hmap.page q hq).trans htaken.page⟩, fun k hk _ => hunused k hk⟩
  have hold : slotRef vm sp k = some q := by rw [← href k hk, ← hmap.toOnlyAt.slotRef_eq hk hkt hne, hq]
  have hne : q ≠ p := by
    rintro rfl
    exact hunused k hk hold
  rw [hmap.data k hk hkt ‹_› q hq, htaken.mem q hne]

lemma Paged.pageRemove (h : Paged vm sp l) (hs : sp e = some pd) (hva : va < utop)
    (hp : slotRef vm sp (pteSlot e va) = some p) :
    ∃ vm' l', Jos.pageRemove pd va vm = some vm' ∧ Paged vm' sp l' ∧ l.length ≤ l'.length ∧
      Remap sp (pteSlot e va) 0 (vm.mem p) vm vm' := by
  have hb := h.bound p
  obtain ⟨vm', l', hr, hacc, hw, -, hlen, -⟩ := h.acc.pageRemove_present hs hva hp (by omega)
  have hk0 : pteSlot e va ∈ slots := h.acc.pte_mem hs hva
  have hshrunk := Shrunk.of_slotWrite hk0 hw
  have hother : ∀ k ∈ slots, k ≠ pteSlot e va → slotWord vm' sp k = slotWord vm sp k := by
    intro k hk hne
    rw [hw.words k hk]
    exact update_of_ne hne ..
  have hhere : slotWord vm' sp (pteSlot e va) = 0 := by rw [hw.words _ hk0]; exact update_self ..
  refine ⟨vm', l', hr, ⟨hacc, fun q => (hshrunk.refs q).trans (h.bound q), hshrunk.tidy h.tidy, fun e' d hk hn => ?_⟩, hlen,
    ⟨fun k hk _ hne => hother k hk hne, fun k hk hkt hne q hq => ?_⟩, hhere, fun q hq => ?_⟩
  · have hword := hother _ hk (show Slot.pde e' d ≠ pteSlot e va from nofun)
    rw [hword]
    exact h.dirs e' d hk (by rwa [slotRef, hword] at hn)
  · exact hw.data q (h.acc.notTable hk hkt (hshrunk.ref hk hq))
  · rw [slotRef, hhere] at hq
    cases hq

lemma Remap.private (h : Remap sp (pteSlot e va) (entry p (pteP ||| perm)) page vm vm')
    (hperm : perm < 4096) (hw : writable perm) (hp : Unused vm sp p) : Private vm' sp e va p where
  ref := h.slotRef_eq hperm
  write := by rw [h.here, writable_entry]; exact hw
  sole := by
    intro k hk hkt href
    by_contra hne
    exact hp k hk hkt ((h.toOnlyAt.slotRef_eq hk hkt hne).symm.trans href)

end

def putByte (page : Nat → Nat) (va b : Nat) : Nat → Nat :=
  update page (va % 4096 / 4)
    (page (va % 4096 / 4) / 256 ^ (va % 4 + 1) * 256 ^ (va % 4 + 1) + b * 256 ^ (va % 4) +
      page (va % 4096 / 4) % 256 ^ (va % 4))

lemma pageByte_putByte (page : Nat → Nat) {b : Nat} (hb : b < 256) (va a : Nat) :
    pageByte (putByte page va b) a = if a % 4096 = va % 4096 then b else pageByte page a := by
  unfold pageByte putByte
  by_cases hi : a % 4096 / 4 = va % 4096 / 4
  · rw [hi, update_self, byte_of_put _ b hb _ _ (by omega) (by omega)]
    have hiff : a % 4 = va % 4 ↔ a % 4096 = va % 4096 := by omega
    simp only [hiff]
  · have hne : a % 4096 ≠ va % 4096 := by
      intro h
      rw [h] at hi
      exact hi rfl
    rw [update_of_ne hi, if_neg hne]

section
variable {vm : Vm} {sp : Spaces} {l : List Nat} {e pd va p b : Nat}

lemma Paged.storeByte (h : Paged vm sp l) (hs : sp e = some pd) (hva : va < utop) (hp : Private vm sp e va p) (b : Nat) :
    ∃ vm', Jos.storeByte pd va b vm = some vm' ∧ Paged vm' sp l ∧ (∀ k ∈ slots, slotWord vm' sp k = slotWord vm sp k) ∧
      vm'.mem p = putByte (vm.mem p) va b ∧ ∀ q, q ≠ p → vm'.mem q = vm.mem q := by
  have hk : pteSlot e va ∈ slots := h.acc.pte_mem hs hva
  have hpde : present (vm.mem pd (pdx va)) := by
    obtain ⟨q, hq⟩ := Accounted.pde_of_pte hp.ref
    rw [slotRef_pde hs] at hq
    exact (target_eq_some.mp hq).1
  have hdir : writable (vm.mem pd (pdx va)) := by
    rw [← slotWord_pde hs]
    refine h.dirs e (pdx va) (h.acc.pde_mem hs hva) ?_
    rw [slotRef_pde hs, target_eq_some.mpr ⟨hpde, rfl⟩]
    exact Option.some_ne_none _
  have hword := slotWord_pteSlot hs vm va
  rw [if_pos hpde] at hword
  obtain ⟨hpte, hpage⟩ := target_eq_some.mp hp.ref
  have hwrite := hp.write
  rw [hword] at hpte hpage hwrite
  have hstore : Jos.storeByte pd va b vm = some (vm.setWord p (va % 4096 / 4)
      (vm.mem p (va % 4096 / 4) / 256 ^ (va % 4 + 1) * 256 ^ (va % 4 + 1) + b * 256 ^ (va % 4) +
        vm.mem p (va % 4096 / 4) % 256 ^ (va % 4))) := by
    simp only [Jos.storeByte, hpde, hpte, hdir, hwrite, hpage, Bool.and_self, if_true]
  obtain ⟨hacc, hw⟩ := h.acc.storeByte_spec hs hva hstore
  have href := slotRef_congr hw
  refine ⟨_, hstore, ⟨hacc, fun q => ?_, h.tidy.of_words fun k hk _ => .inl (hw k hk), fun e' d hk hn => ?_⟩, hw, ?_, fun q hq => ?_⟩
  · rw [pageRefs, refs_congr href]
    exact h.bound q
  · rw [hw _ hk]
    exact h.dirs e' d hk (by rw [← href _ hk]; exact hn)
  · funext i
    by_cases hi : i = va % 4096 / 4
    · simp [putByte, hi]
    · simp [putByte, hi]
  · funext i
    simp [hq]

section
variable (h : Private vm sp e va p)
include h

lemma Private.of_words (hk : pteSlot e va ∈ slots) (hw : ∀ k ∈ slots, slotWord vm' sp k = slotWord vm sp k) : Private vm' sp e va p where
  ref := (slotRef_congr hw _ hk).trans h.ref
  write := by rw [hw _ hk]; exact h.write
  sole := fun k hks hkt href => h.sole k hks hkt ((slotRef_congr hw k hks).symm.trans href)

lemma Private.congr (ha : pteSlot e a = pteSlot e va) : Private vm sp e a p := by
  obtain ⟨href, hwrite, hsole⟩ := h
  rw [← ha] at href hwrite hsole
  exact ⟨href, hwrite, hsole⟩

lemma Private.onlyAt (hw : ∀ k ∈ slots, slotWord vm' sp k = slotWord vm sp k)
    (hmem : ∀ q, q ≠ p → vm'.mem q = vm.mem q) : OnlyAt sp (· = pteSlot e va) vm vm' where
  words := fun k hk _ _ => hw k hk
  data := by
    intro k hk hkt hne q hq
    apply hmem
    rintro rfl
    exact hne (h.sole k hk hkt ((slotRef_congr hw k hk).symm.trans hq))

lemma Private.loadByte_put (hs : sp e = some pd) (hva : va < utop)
    (hw : ∀ k ∈ slots, slotWord vm' sp k = slotWord vm sp k) (hpage : vm'.mem p = putByte (vm.mem p) va b)
    (hmem : ∀ q, q ≠ p → vm'.mem q = vm.mem q) (hb : b < 256) (he : e < nenv) (ha : a < utop) :
    loadByte pd a vm' = if a = va then some b else loadByte pd a vm := by
  by_cases hslot : pteSlot e a = pteSlot e va
  · have hdiv := ((pteSlot_eq_iff hva ha).mp hslot).2
    have href : slotRef vm sp (pteSlot e a) = some p := by rw [hslot, h.ref]
    rw [loadByte_slot hs, loadByte_slot hs, slotRef_congr hw _ (pteSlot_mem he ha), href, Option.map_some, Option.map_some,
      hpage, pageByte_putByte _ hb]
    have hiff : a % 4096 = va % 4096 ↔ a = va := by omega
    simp only [hiff]
    split_ifs <;> rfl
  · have hne : a ≠ va := by
      rintro rfl
      exact hslot rfl
    rw [if_neg hne]
    exact (h.onlyAt hw hmem).loadByte_eq hs (pteSlot_mem he ha) hslot

end

end

def InRange (e lo hi : Nat) (k : Slot) : Prop := ∃ a, lo ≤ a ∧ a < hi ∧ k = pteSlot e a

section
variable {sp : Spaces} {e pd : Nat}

lemma Paged.storeBytes (hs : sp e = some pd) (bs : List Nat) : ∀ {vm : Vm} {l : List Nat} {va : Nat}, Paged vm sp l →
    va + bs.length ≤ utop → (∀ b ∈ bs, b < 256) → (∀ a, va ≤ a → a < va + bs.length → ∃ p, Private vm sp e a p) →
    ∃ vm', Jos.storeBytes pd va bs vm = some vm' ∧ Paged vm' sp l ∧ (∀ k ∈ slots, slotWord vm' sp k = slotWord vm sp k) ∧
      OnlyAt sp (InRange e va (va + bs.length)) vm vm' ∧
      ∀ a < utop, loadByte pd a vm' = if va ≤ a ∧ a < va + bs.length then bs[a - va]? else loadByte pd a vm := by
  induction bs with
  | nil =>
    intro vm l va h _ _ _
    refine ⟨vm, rfl, h, fun _ _ => rfl, OnlyAt.refl .., fun a _ => ?_⟩
    rw [List.length_nil, if_neg (by omega)]
  | cons b bs ih =>
    intro vm l va h hlen hbs hpriv
    rw [List.length_cons] at hlen hpriv ⊢
    have hva : va < utop := by omega
    have he : e < nenv := h.acc.space_lt e pd hs
    obtain ⟨p, hp⟩ := hpriv va (Nat.le_refl va) (by omega)
    obtain ⟨vm1, hst, h1, hw1, hpage, hmem⟩ := h.storeByte hs hva hp b
    have hpriv1 : ∀ a, va + 1 ≤ a → a < va + 1 + bs.length → ∃ q, Private vm1 sp e a q := by
      intro a hlo hhi
      obtain ⟨q, hq⟩ := hpriv a (by omega) (by omega)
      exact ⟨q, hq.of_words (pteSlot_mem he (by omega)) hw1⟩
    obtain ⟨vm', hst', h', hw', honly, hview⟩ :=
      ih h1 (by omega) (fun c hc => hbs c (List.mem_cons_of_mem b hc)) hpriv1
    have hwrap : (va + 1) % 2 ^ 32 = va + 1 := by
      apply Nat.mod_eq_of_lt
      unfold utop at hva
      omega
    refine ⟨vm', ?_, h', fun k hk => (hw' k hk).trans (hw1 k hk), ?_, fun a ha => ?_⟩
    · rw [Jos.storeBytes, hst, Option.bind_eq_bind, Option.bind_some, hwrap]
      exact hst'
    · have hfirst : OnlyAt sp (InRange e va (va + (bs.length + 1))) vm vm1 :=
        (hp.onlyAt hw1 hmem).mono fun k hk => ⟨va, Nat.le_refl va, by omega, hk⟩
      exact hfirst.trans (honly.mono fun k ⟨a, hlo, hhi, hk⟩ => ⟨a, by omega, by omega, hk⟩)
    · rw [hview a ha, hp.loadByte_put hs hva hw1 hpage hmem (hbs b List.mem_cons_self) he ha]
      by_cases hav : a = va
      · rw [if_neg (by omega), if_pos hav, if_pos (by omega), hav, Nat.sub_self]
        rfl
      · by_cases hin : va + 1 ≤ a ∧ a < va + 1 + bs.length
        · rw [if_pos hin, if_pos (by omega), show a - va = (a - (va + 1)) + 1 by omega, List.getElem?_cons_succ]
        · rw [if_neg hin, if_neg hav, if_neg (by omega)]

lemma Paged.regionLoop (hs : sp e = some pd) (n : Nat) : ∀ {vm : Vm} {l : List Nat} {start : Nat}, Paged vm sp l →
    start % 4096 = 0 → start + n * 4096 ≤ utop → (Jos.regionLoop pd n start vm = none ∧ l.length < 2 * n) ∨
    ∃ vm' l', Jos.regionLoop pd n start vm = some vm' ∧ Paged vm' sp l' ∧ l.length ≤ l'.length + 2 * n ∧
      OnlyAt sp (InRange e start (start + n * 4096)) vm vm' ∧
      ∀ a, start ≤ a → a < start + n * 4096 → ∃ p, Private vm' sp e a p := by
  induction n with
  | zero =>
    intro vm l start h _ _
    exact .inr ⟨vm, l, rfl, h, by omega, OnlyAt.refl .., fun a hlo hhi => by omega⟩
  | succ n ih =>
    intro vm l start h halign hroom
    have he : e < nenv := h.acc.space_lt e pd hs
    have hva : start < utop := by omega
    cases l with
    | nil =>
      refine .inl ⟨?_, by simp⟩
      rw [Jos.regionLoop, h.acc.pageAlloc_nil false]
    | cons p l =>
      obtain ⟨vm1, halloc, ⟨hl, -, hno⟩ | ⟨vm2, l2, hins, h2, hlen, hmap, hunused⟩⟩ :=
        h.mapNew hs hva (show pteW ||| pteU < 4096 by decide) false
      · refine .inl ⟨?_, by rw [hl]; simp; omega⟩
        rw [Jos.regionLoop, halloc]
        dsimp only
        rw [hno]
        exact if_pos (by decide)
      have hstep : Jos.regionLoop pd (n + 1) start vm = Jos.regionLoop pd n (start + 4096) vm2 := by
        rw [Jos.regionLoop, halloc]
        dsimp only
        rw [hins]
        exact if_neg (by decide)
      rw [hstep]
      have hfirst : OnlyAt sp (InRange e start (start + (n + 1) * 4096)) vm vm2 :=
        hmap.toOnlyAt.mono fun k hk => ⟨start, le_rfl, by omega, hk⟩
      rcases ih h2 (show (start + 4096) % 4096 = 0 by omega) (by omega) with
        ⟨hnone, hfew⟩ | ⟨vm', l', hloop, h', hlen', honly, hpriv⟩
      · exact .inl ⟨hnone, by rw [List.length_cons]; omega⟩
      refine .inr ⟨vm', l', hloop, h', by rw [List.length_cons]; omega, hfirst.trans (honly.mono ?_),
        fun a hlo hhi => ?_⟩
      · rintro k ⟨a, hlo, hhi, hk⟩
        exact ⟨a, by omega, by omega, hk⟩
      by_cases hpage : a < start + 4096
      · -- the later pages are the program's own too, so none of them is the first page
        have hmem : pteSlot e a ∈ slots := pteSlot_mem he (by omega)
        have hout : ¬ InRange e (start + 4096) (start + 4096 + n * 4096) (pteSlot e a) := by
          rintro ⟨a', hlo', hhi', heq⟩
          have := ((pteSlot_eq_iff (by omega) (by omega)).mp heq).2
          omega
        have hslot : pteSlot e a = pteSlot e start := (pteSlot_eq_iff hva (by omega)).mpr ⟨rfl, by omega⟩
        have hown := (hmap.private (by decide) (by decide) hunused).congr hslot
        refine ⟨p, hown.keep honly hmem hout ?_⟩
        rintro k hk hkt ⟨a', hlo', hhi', rfl⟩ href
        obtain ⟨q, hq⟩ := hpriv a' hlo' (by omega)
        rw [hq.ref] at href
        cases href
        exact hout ⟨a', hlo', hhi', hq.sole _ hmem id ((honly.slotRef_eq hmem id hout).trans hown.ref)⟩
      · exact hpriv a (by omega) (by omega)

end

lemma Private.refs {vm : Vm} {sp : Spaces} {l : List Nat} (h : Private vm sp e va p) (hp : Paged vm sp l)
    (hk : pteSlot e va ∈ slots) : pageRefs vm sp p = 1 := by
  refine refs_eq_one hk h.ref fun k hks href => ?_
  by_cases hkt : k.IsTable
  · exact absurd href (hp.acc.notTable hk id h.ref k hks hkt)
  · exact h.sole k hks hkt href

lemma Kernel.spaces_eq_some {k : Kernel} (h : k.spaces e = some pd) : (k.envs e).envPgdir = some pd := by
  unfold Kernel.spaces at h
  split at h
  · exact h
  · cases h

lemma badVa_aligned (h : badVa va = false) : va % 4096 = 0 := by
  simp only [badVa, Bool.or_eq_false_iff, bne_eq_false_iff_eq, pgsize] at h
  exact h.2

lemma badVa_eq_false (hlt : va < utop) (h : va % 4096 = 0) : badVa va = false := by
  simp [badVa, pgsize, h, hlt]

section
variable {k : Kernel} {l : List Nat} {cur : Nat} (h : Paged k.vm k.spaces l)
include h

lemma sysPageAlloc_maps {envid perm : Nat} (he : envid2env cur envid true k = some e) (hs : k.spaces e = some pd)
    (hva : badVa va = false) (hbad : badPerm perm = false) (hperm : perm < 4096) :
    (l.length < 2 ∧ ∃ k', sysPageAlloc cur envid va perm k = .ret (-eNoMem) k') ∨
    ∃ vm' l' p, sysPageAlloc cur envid va perm k = .ret 0 { k with vm := vm' } ∧ Paged vm' k.spaces l' ∧
      l.length ≤ l'.length + 2 ∧ Unused k.vm k.spaces p ∧
      Remap k.spaces (pteSlot e va) (entry p (pteP ||| perm)) (fun _ => 0) k.vm vm' := by
  have hpd := Kernel.spaces_eq_some hs
  cases l with
  | nil =>
    refine .inl ⟨by decide, k, ?_⟩
    simp only [sysPageAlloc, he, hbad, hva, Bool.false_eq_true, if_false, h.acc.pageAlloc_nil true]
  | cons p l =>
    obtain ⟨vm1, halloc, ⟨hl, ⟨vm2, hdec⟩, hno⟩ | ⟨vm', l', hins, h', hlen, hmap, hunused⟩⟩ :=
      h.mapNew hs (badVa_lt hva) hperm true
    · refine .inl ⟨by rw [hl]; exact Nat.lt_succ_self 1, { k with vm := vm2 }, ?_⟩
      simp only [sysPageAlloc, he, hbad, hva, Bool.false_eq_true, if_false, halloc, hpd, hno, hdec]
      exact if_pos (by decide)
    · refine .inr ⟨vm', l', p, ?_, h', by rw [List.length_cons]; omega, hunused, hmap⟩
      simp only [sysPageAlloc, he, hbad, hva, Bool.false_eq_true, if_false, halloc, hpd, hins]
      exact if_neg (by decide)

lemma sysPageMap_maps {srcid dstid src dst spd dpd srcva dstva perm : Nat} (hsrc : envid2env cur srcid true k = some src)
    (hdst : envid2env cur dstid true k = some dst) (hspd : k.spaces src = some spd) (hdpd : k.spaces dst = some dpd)
    (hsva : badVa srcva = false) (hdva : badVa dstva = false) (hbad : badPerm perm = false) (hperm : perm < 4096)
    (hp : slotRef k.vm k.spaces (pteSlot src srcva) = some p)
    (hroom : pageRefs k.vm k.spaces p < 65535 ∨ slotRef k.vm k.spaces (pteSlot dst dstva) = some p) :
    (l = [] ∧ sysPageMap cur srcid srcva dstid dstva perm k = .ret (-eNoMem) k) ∨
    ∃ vm' l', sysPageMap cur srcid srcva dstid dstva perm k = .ret 0 { k with vm := vm' } ∧ Paged vm' k.spaces l' ∧
      l.length ≤ l'.length + 1 ∧
      Remap k.spaces (pteSlot dst dstva) (entry p (pteP ||| perm)) (k.vm.mem p) k.vm vm' := by
  obtain ⟨q, hq⟩ := Accounted.pde_of_pte hp
  have hlook := h.acc.pageLookup_present hspd (badVa_lt hsva) hp hq
  have hpp : Mappable k.vm k.spaces l p := h.acc.mappable (h.acc.pte_mem hspd (badVa_lt hsva)) hp
  rw [sysPageMap_eq hsrc hdst hbad hsva hdva (Kernel.spaces_eq_some hspd), hlook]
  simp only [Kernel.spaces_eq_some hdpd]
  rcases h.pageInsert hdpd (badVa_lt hdva) hpp hperm hroom with ⟨hl, hno⟩ | ⟨vm', l', hins, h', hlen, hmap⟩
  · rw [hno]
    exact .inl ⟨hl, rfl⟩
  · rw [hins]
    exact .inr ⟨vm', l', rfl, h', hlen, hmap⟩

lemma sysPageUnmap_clears {envid : Nat} (he : envid2env cur envid true k = some e) (hs : k.spaces e = some pd)
    (hva : badVa va = false) (hp : slotRef k.vm k.spaces (pteSlot e va) = some p) :
    ∃ vm' l', sysPageUnmap cur envid va k = .ret 0 { k with vm := vm' } ∧ Paged vm' k.spaces l' ∧ l.length ≤ l'.length ∧
      Remap k.spaces (pteSlot e va) 0 (k.vm.mem p) k.vm vm' := by
  obtain ⟨vm', l', hrem, h', hlen, hmap⟩ := h.pageRemove hs (badVa_lt hva) hp
  refine ⟨vm', l', ?_, h', hlen, hmap⟩
  simp only [sysPageUnmap, he, hva, Bool.false_eq_true, if_false, Kernel.spaces_eq_some hs, hrem]

end

end Jos
