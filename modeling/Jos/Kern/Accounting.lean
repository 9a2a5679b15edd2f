import Jos.Base.LinkedList
import Jos.Kern.Slots

/-!
# Reference counts and the free list

`Accounted vm sp held l` ties the counters of `pages[]` and the list `l` threaded
through `page_free_list` to the slots that refer to each page. `held` counts the
references a kernel function has taken and not yet stored anywhere. The operations
of `kern/pmap.c` keep the invariant; counters are compared modulo `2 ^ 16`, and
only a release needs to know that the counter has not wrapped.
-/

namespace Jos
open LinkedList RefCount Function

variable {k : Slot} {sp : Spaces} {vm vm' : Vm}

/-- The page is `kern_pgdir` or one of its page tables. -/
def KernUses (vm : Vm) (p : Nat) : Prop :=
  p = vm.kernPgdir ∨ ∃ d, d < npdentries ∧ target (vm.mem vm.kernPgdir d) = some p

instance (vm : Vm) (p : Nat) : Decidable (KernUses vm p) :=
  inferInstanceAs (Decidable (p = vm.kernPgdir ∨ ∃ d, d < npdentries ∧ target (vm.mem vm.kernPgdir d) = some p))

structure Accounted (vm : Vm) (sp : Spaces) (held : Nat → Nat) (l : List Nat) : Prop where
  size : vm.npages ≤ 2 ^ 20
  chain : Chain vm.ppLink vm.pageFreeList l
  unlinked : ∀ p, p < vm.npages → p ∉ l → vm.ppLink p = none
  free_page : ∀ p ∈ l, p < vm.npages ∧ ¬ KernUses vm p ∧ pageRefs vm sp p + held p = 0
  count : ∀ p, p < vm.npages → ¬ KernUses vm p → vm.ppRef p = (pageRefs vm sp p + held p) % 65536
  mapped : ∀ k ∈ slots, ∀ p, slotRef vm sp k = some p → p < vm.npages ∧ ¬ KernUses vm p
  tables : TablesPrivate vm sp
  space_lt : ∀ e pd, sp e = some pd → e < nenv
  kern_low : ∀ d < npdeUser, present (vm.mem vm.kernPgdir d) = false

/-- Nothing but the contents of pages other than `kern_pgdir` has changed. -/
structure SameBooks (vm vm' : Vm) : Prop where
  npages : vm'.npages = vm.npages
  ppRef : vm'.ppRef = vm.ppRef
  ppLink : vm'.ppLink = vm.ppLink
  pageFreeList : vm'.pageFreeList = vm.pageFreeList
  kernPgdir : vm'.kernPgdir = vm.kernPgdir
  kernMem : vm'.mem vm.kernPgdir = vm.mem vm.kernPgdir

lemma sameBooks_refl (vm : Vm) : SameBooks vm vm := ⟨rfl, rfl, rfl, rfl, rfl, rfl⟩

lemma sameBooks_setWord {q : Nat} (i v : Nat) (hq : q ≠ vm.kernPgdir) : SameBooks vm (vm.setWord q i v) := by
  refine ⟨rfl, rfl, rfl, rfl, rfl, ?_⟩
  funext j
  simp [hq.symm]

lemma sameBooks_setPage {q : Nat} (f : Nat → Nat) (hq : q ≠ vm.kernPgdir) : SameBooks vm (vm.setPage q f) := by
  refine ⟨rfl, rfl, rfl, rfl, rfl, ?_⟩
  funext j
  simp [hq.symm]

lemma SameBooks.kernUses (h : SameBooks vm vm') (p : Nat) : KernUses vm' p ↔ KernUses vm p := by
  simp only [KernUses, h.kernPgdir, h.kernMem]

lemma slotWord_of_mem (sp : Spaces) (h : vm'.mem = vm.mem) : slotWord vm' sp = slotWord vm sp := by
  funext k
  cases k <;> simp [slotWord, h]

lemma slotRef_of_mem (sp : Spaces) (h : vm'.mem = vm.mem) : slotRef vm' sp = slotRef vm sp := by
  funext k
  rw [slotRef, slotRef, slotWord_of_mem sp h]

lemma pageRefs_of_mem (sp : Spaces) (h : vm'.mem = vm.mem) : pageRefs vm' sp = pageRefs vm sp := by
  funext p
  rw [pageRefs, pageRefs, slotRef_of_mem sp h]

lemma slotRef_congr (h : ∀ k ∈ slots, slotWord vm' sp k = slotWord vm sp k) :
    ∀ k ∈ slots, slotRef vm' sp k = slotRef vm sp k := by
  intro k hk
  rw [slotRef, slotRef, h k hk]

@[simp] lemma slotRef_incref (vm : Vm) (sp : Spaces) (p : Nat) :
    slotRef (vm.incref p) sp = slotRef vm sp := slotRef_of_mem sp rfl

@[simp] lemma notTable_incref (vm : Vm) (sp : Spaces) (p q : Nat) :
    NotTable (vm.incref p) sp q ↔ NotTable vm sp q := by
  simp only [NotTable, slotRef_incref]

@[simp] lemma kernUses_incref (vm : Vm) (p q : Nat) : KernUses (vm.incref p) q ↔ KernUses vm q := Iff.rfl

@[simp] lemma pageRefs_incref (vm : Vm) (sp : Spaces) (p : Nat) :
    pageRefs (vm.incref p) sp = pageRefs vm sp := pageRefs_of_mem sp rfl

lemma pageRefs_update {k0 : Slot} {v : Nat} (hk0 : k0 ∈ slots)
    (h : ∀ k ∈ slots, slotWord vm' sp k = update (slotWord vm sp) k0 v k) (p : Nat) :
    pageRefs vm' sp p + (if slotRef vm sp k0 = some p then 1 else 0) =
      pageRefs vm sp p + (if target v = some p then 1 else 0) := by
  rw [pageRefs, refs_congr (slotRef_update h) p]
  exact refs_update hk0 (target v) p

lemma pageRefs_emptied {sp' : Spaces} {k0 : Slot} (hk0 : k0 ∈ slots)
    (h : ∀ k ∈ slots, slotRef vm' sp' k = update (slotRef vm sp) k0 none k) (p : Nat) :
    pageRefs vm' sp' p + (if slotRef vm sp k0 = some p then 1 else 0) = pageRefs vm sp p := by
  rw [pageRefs, refs_congr h p]
  exact refs_update hk0 none p

lemma notTable_of_pageRefs {p : Nat} (h : pageRefs vm sp p = 0) : NotTable vm sp p :=
  fun k hk _ => refs_eq_zero_iff.mp h k hk

namespace Accounted
variable {vm vm' : Vm} {sp sp' : Spaces} {held held' : Nat → Nat} {l : List Nat} {p e d pd : Nat}

section
variable (h : Accounted vm sp held l)
include h

lemma ne_kernPgdir (hk : k ∈ slots) (hp : slotRef vm sp k = some p) : p ≠ vm.kernPgdir :=
  fun he => (h.mapped k hk p hp).2 (Or.inl he)

section
variable (hb : SameBooks vm vm')
include hb

lemma transfer (hcount : ∀ p, pageRefs vm' sp' p + held' p = pageRefs vm sp p + held p)
    (hmapped : ∀ k ∈ slots, ∀ p, slotRef vm' sp' k = some p → p < vm.npages ∧ ¬ KernUses vm p)
    (htables : TablesPrivate vm' sp') (hsp : ∀ e pd, sp' e = some pd → e < nenv) : Accounted vm' sp' held' l where
  size := hb.npages ▸ h.size
  chain := by
    rw [hb.ppLink, hb.pageFreeList]
    exact h.chain
  unlinked := by
    rw [hb.npages, hb.ppLink]
    exact h.unlinked
  free_page := by
    intro p hp
    rw [hb.npages, hb.kernUses, hcount]
    exact h.free_page p hp
  count := by
    intro p hp hk
    rw [hb.npages] at hp
    rw [hb.kernUses] at hk
    rw [hb.ppRef, hcount]
    exact h.count p hp hk
  mapped := by
    intro k hk p hp
    rw [hb.npages, hb.kernUses]
    exact hmapped k hk p hp
  tables := htables
  space_lt := hsp
  kern_low := by
    rw [hb.kernPgdir, hb.kernMem]
    exact h.kern_low

lemma sameRefs (hr : ∀ k ∈ slots, slotRef vm' sp k = slotRef vm sp k) : Accounted vm' sp held l := by
  refine h.transfer hb ?_ ?_ ?_ h.space_lt
  · intro p
    rw [pageRefs, refs_congr hr p, pageRefs]
  · intro k hk p hp
    exact h.mapped k hk p ((hr k hk).symm.trans hp)
  · intro k hk hkt p hp k' hk' hp'
    exact h.tables k hk hkt p ((hr k hk).symm.trans hp) k' hk' ((hr k' hk').symm.trans hp')

lemma attach (hk : k ∈ slots) (hnone : slotRef vm sp k = none)
    (hr : ∀ j ∈ slots, slotRef vm' sp' j = update (slotRef vm sp) k (some p) j) (hheld : 0 < held p)
    (hlt : p < vm.npages) (hkern : ¬ KernUses vm p) (htable : k.IsTable → pageRefs vm sp p = 0)
    (hnt : NotTable vm sp p) (hsp : ∀ e pd, sp' e = some pd → e < nenv) :
    Accounted vm' sp' (update held p (held p - 1)) l := by
  have hother : ∀ j ∈ slots, j ≠ k → slotRef vm' sp' j = slotRef vm sp j := by
    intro j hj hjk
    rw [hr j hj, update_of_ne hjk]
  have hself : slotRef vm' sp' k = some p := by rw [hr k hk, update_self]
  refine h.transfer hb ?_ ?_ ?_ hsp
  · intro q
    have hq := refs_update hk (f := slotRef vm sp) (some p) q
    rw [hnone] at hq
    rw [pageRefs, refs_congr hr q, pageRefs]
    by_cases hqp : q = p
    · subst q
      simp at hq
      rw [update_self]
      omega
    · rw [update_of_ne hqp]
      simp [Ne.symm hqp] at hq
      omega
  · intro j hj q hq
    by_cases hjk : j = k
    · subst j
      cases Option.some.inj (hself.symm.trans hq)
      exact ⟨hlt, hkern⟩
    · exact h.mapped j hj q ((hother j hj hjk).symm.trans hq)
  · intro j hj hjt q hq i hi hiq
    by_cases hjk : j = k
    · subst j
      cases Option.some.inj (hself.symm.trans hq)
      by_contra hne
      exact refs_eq_zero_iff.mp (htable hjt) i hi ((hother i hi hne).symm.trans hiq)
    · rw [hother j hj hjk] at hq
      by_cases hik : i = k
      · subst i
        cases Option.some.inj (hself.symm.trans hiq)
        exact absurd hq (hnt j hj hjt)
      · exact h.tables j hj hjt q hq i hi ((hother i hi hik).symm.trans hiq)

lemma detach (hk : k ∈ slots) (hsome : slotRef vm sp k = some p)
    (hr : ∀ j ∈ slots, slotRef vm' sp' j = update (slotRef vm sp) k none j) (hsp : ∀ e pd, sp' e = some pd → e < nenv) :
    Accounted vm' sp' (update held p (held p + 1)) l := by
  have hold : ∀ j ∈ slots, ∀ q, slotRef vm' sp' j = some q → slotRef vm sp j = some q := by
    intro j hj q hq
    rw [hr j hj] at hq
    by_cases hjk : j = k
    · subst j
      rw [update_self] at hq
      simp at hq
    · rwa [update_of_ne hjk] at hq
  refine h.transfer hb ?_ ?_ ?_ hsp
  · intro q
    have hq := refs_update hk (f := slotRef vm sp) none q
    rw [hsome] at hq
    rw [pageRefs, refs_congr hr q, pageRefs]
    by_cases hqp : q = p
    · subst q
      simp at hq
      rw [update_self]
      omega
    · rw [update_of_ne hqp]
      simp [Ne.symm hqp] at hq
      omega
  · intro j hj q hq
    exact h.mapped j hj q (hold j hj q hq)
  · intro j hj hjt q hq i hi hiq
    exact h.tables j hj hjt q (hold j hj q hq) i hi (hold i hi q hiq)

end

end

end Accounted

end Jos
