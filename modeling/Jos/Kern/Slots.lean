import Jos.Base.RefCount
import Jos.Kern.Env
import Mathlib.Data.Finset.Prod
import Mathlib.Data.Set.Finite.Basic

/-!
# The places that refer to a page

A page is referred to by the directory pointer of a live environment, by an entry
of such a directory below `utop`, or by an entry of a page table below `utop`.
Read off memory, these places form one table of words; each store the kernel makes
rewrites one word of it, as long as no table page is used twice.
-/

namespace Jos
open Function

inductive Slot where
  | pgdir (e : Nat)
  | pde (e d : Nat)
  | pte (e d t : Nat)
  deriving DecidableEq, Repr

abbrev Spaces := Nat → Option Nat

def Slot.env : Slot → Nat
  | .pgdir e => e
  | .pde e _ => e
  | .pte e _ _ => e

def Slot.IsTable : Slot → Prop
  | .pgdir _ => True
  | .pde _ _ => True
  | .pte _ _ _ => False

def Slot.isPde : Slot → Bool
  | .pde _ _ => true
  | _ => false

def Slot.isPte : Slot → Bool
  | .pte _ _ _ => true
  | _ => false

def Slot.Valid : Slot → Prop
  | .pgdir e => e < nenv
  | .pde e d => e < nenv ∧ d < npdeUser
  | .pte e d t => e < nenv ∧ d < npdeUser ∧ t < 1024

lemma finite_valid : {k : Slot | k.Valid}.Finite := by
  let pgdirs := (Finset.range nenv).image Slot.pgdir
  let pdes := (Finset.range nenv ×ˢ Finset.range npdeUser).image fun x => Slot.pde x.1 x.2
  let ptes := (Finset.range nenv ×ˢ Finset.range npdeUser ×ˢ Finset.range 1024).image
    fun x => Slot.pte x.1 x.2.1 x.2.2
  apply (pgdirs ∪ pdes ∪ ptes).finite_toSet.subset
  intro k hk
  cases k <;> simpa [pgdirs, pdes, ptes, Slot.Valid] using hk

noncomputable def slots : Finset Slot := finite_valid.toFinset

@[simp] lemma pgdir_mem_slots {e : Nat} : Slot.pgdir e ∈ slots ↔ e < nenv := by
  simp [slots, Slot.Valid]

@[simp] lemma pde_mem_slots {e d : Nat} : Slot.pde e d ∈ slots ↔ e < nenv ∧ d < npdeUser := by
  simp [slots, Slot.Valid]

@[simp] lemma pte_mem_slots {e d t : Nat} : Slot.pte e d t ∈ slots ↔ e < nenv ∧ d < npdeUser ∧ t < 1024 := by
  simp [slots, Slot.Valid]

attribute [irreducible] slots

def slotWord (vm : Vm) (sp : Spaces) : Slot → Nat
  | .pgdir e =>
    match sp e with
    | none => 0
    | some pd => entry pd pteP
  | .pde e d =>
    match sp e with
    | none => 0
    | some pd => vm.mem pd d
  | .pte e d t =>
    match sp e with
    | none => 0
    | some pd => if present (vm.mem pd d) then vm.mem (ppn (vm.mem pd d)) t else 0

def slotRef (vm : Vm) (sp : Spaces) (k : Slot) : Option Nat := target (slotWord vm sp k)

noncomputable def pageRefs (vm : Vm) (sp : Spaces) (p : Nat) : Nat := RefCount.refs slots (slotRef vm sp) p

def NotTable (vm : Vm) (sp : Spaces) (p : Nat) : Prop :=
  ∀ k ∈ slots, k.IsTable → slotRef vm sp k ≠ some p

def Tidy (vm : Vm) (sp : Spaces) : Prop :=
  ∀ k ∈ slots, ¬ k.IsTable → slotRef vm sp k = none → slotWord vm sp k = 0

lemma Tidy.of_words {vm vm' : Vm} {sp sp' : Spaces} (h : Tidy vm sp)
    (hw : ∀ k ∈ slots, ¬ k.IsTable → slotWord vm' sp' k = slotWord vm sp k ∨ slotWord vm' sp' k = 0 ∨
      slotRef vm' sp' k ≠ none) : Tidy vm' sp' := by
  intro k hk hkt hn
  rcases hw k hk hkt with hsame | hzero | hsome
  · rw [slotRef, hsame] at hn
    rw [hsame]
    exact h k hk hkt hn
  · exact hzero
  · exact absurd hn hsome

def TablesPrivate (vm : Vm) (sp : Spaces) : Prop :=
  ∀ k ∈ slots, k.IsTable → ∀ p, slotRef vm sp k = some p →
    ∀ k' ∈ slots, slotRef vm sp k' = some p → k' = k

section
variable {vm : Vm} {sp : Spaces} {e d t pd q : Nat}

lemma slotWord_pde (h : sp e = some pd) : slotWord vm sp (.pde e d) = vm.mem pd d := by
  simp [slotWord, h]

lemma slotRef_pgdir (h : sp e = some pd) : slotRef vm sp (.pgdir e) = some pd := by
  have hw : slotWord vm sp (.pgdir e) = entry pd (pteP ||| 0) := by simp [slotWord, h]
  rw [slotRef, hw]
  exact target_entry (by decide) pd

lemma slotRef_pde (h : sp e = some pd) : slotRef vm sp (.pde e d) = target (vm.mem pd d) := by
  rw [slotRef, slotWord_pde h]

lemma slotWord_none {k : Slot} (h : sp k.env = none) : slotWord vm sp k = 0 := by
  cases k <;> simp_all [slotWord, Slot.env]

lemma slotRef_none {k : Slot} (h : sp k.env = none) : slotRef vm sp k = none := by
  rw [slotRef, slotWord_none h, target_zero]

lemma slotWord_congr_space {sp' : Spaces} {k : Slot} (h : sp' k.env = sp k.env) :
    slotWord vm sp' k = slotWord vm sp k := by
  cases k <;> simp only [Slot.env] at h <;> simp only [slotWord, h]

lemma slotWord_pte (hq : slotRef vm sp (.pde e d) = some q) : slotWord vm sp (.pte e d t) = vm.mem q t := by
  cases hs : sp e with
  | none => rw [slotRef_none hs] at hq; simp at hq
  | some pd =>
    rw [slotRef_pde hs, target_eq_some] at hq
    simp [slotWord, hs, hq.1, hq.2]

lemma slotWord_pte_absent (hq : slotRef vm sp (.pde e d) = none) : slotWord vm sp (.pte e d t) = 0 := by
  cases hs : sp e with
  | none => simp [slotWord, hs]
  | some pd =>
    rw [slotRef_pde hs, target_eq_none] at hq
    simp [slotWord, hs, hq]

lemma slotWord_congr {vm' : Vm} (h : ∀ k ∈ slots, k.IsTable → ∀ p, slotRef vm sp k = some p → vm'.mem p = vm.mem p) :
    ∀ k ∈ slots, slotWord vm' sp k = slotWord vm sp k := by
  intro k hk
  cases k with
  | pgdir e => rfl
  | pde e d =>
    cases hs : sp e with
    | none => simp [slotWord, hs]
    | some pd =>
      have hpd := h (.pgdir e) (pgdir_mem_slots.mpr (pde_mem_slots.mp hk).1) trivial pd (slotRef_pgdir hs)
      simp [slotWord, hs, hpd]
  | pte e d t =>
    obtain ⟨he, hd, ht⟩ := pte_mem_slots.mp hk
    cases hs : sp e with
    | none => simp [slotWord, hs]
    | some pd =>
      have hpd := h (.pgdir e) (pgdir_mem_slots.mpr he) trivial pd (slotRef_pgdir hs)
      simp only [slotWord, hs, hpd]
      by_cases hp : present (vm.mem pd d)
      · have hpt := h (.pde e d) (pde_mem_slots.mpr ⟨he, hd⟩) trivial (ppn (vm.mem pd d))
          (by rw [slotRef_pde hs]; exact target_eq_some.mpr ⟨hp, rfl⟩)
        simp [hp, hpt]
      · simp [hp]

lemma slotWord_setWord_data (i v : Nat) (hq : NotTable vm sp q) :
    ∀ k ∈ slots, slotWord (vm.setWord q i v) sp k = slotWord vm sp k := by
  apply slotWord_congr
  intro k hk hkt p hp
  have hne : p ≠ q := fun he => hq k hk hkt (he ▸ hp)
  funext j
  simp [hne]

lemma slotWord_setPage_data (f : Nat → Nat) (hq : NotTable vm sp q) :
    ∀ k ∈ slots, slotWord (vm.setPage q f) sp k = slotWord vm sp k := by
  apply slotWord_congr
  intro k hk hkt p hp
  have hne : p ≠ q := fun he => hq k hk hkt (he ▸ hp)
  funext j
  simp [hne]

section
variable (ht : TablesPrivate vm sp)
include ht

lemma TablesPrivate.page_ne {k k' : Slot} {q' : Nat} (hk : k ∈ slots) (hkt : k.IsTable)
    (hq : slotRef vm sp k = some q) (hk' : k' ∈ slots) (hq' : slotRef vm sp k' = some q') (hne : k' ≠ k) : q' ≠ q :=
  fun heq => hne (ht k hk hkt q hq k' hk' (heq ▸ hq'))

lemma slotWord_setWord_pte (he : e < nenv) (hd : d < npdeUser) (hq : slotRef vm sp (.pde e d) = some q) (v : Nat) :
    ∀ k ∈ slots, slotWord (vm.setWord q t v) sp k =
      update (slotWord vm sp) (.pte e d t) v k := by
  intro k hk
  have hqs : Slot.pde e d ∈ slots := pde_mem_slots.mpr ⟨he, hd⟩
  have hpde : ∀ e' d', e' < nenv → slotWord (vm.setWord q t v) sp (.pde e' d') = slotWord vm sp (.pde e' d') := by
    intro e' d' he'
    cases hs : sp e' with
    | none => simp [slotWord, hs]
    | some pd =>
      have hne := ht.page_ne hqs trivial hq (pgdir_mem_slots.mpr he') (slotRef_pgdir hs) (by simp)
      simp [slotWord, hs, hne]
  cases k with
  | pgdir e' => simp [slotWord]
  | pde e' d' => rw [update_of_ne (by simp), hpde e' d' (pde_mem_slots.mp hk).1]
  | pte e' d' t' =>
    obtain ⟨he', hd', -⟩ := pte_mem_slots.mp hk
    have href : slotRef (vm.setWord q t v) sp (.pde e' d') = slotRef vm sp (.pde e' d') :=
      congrArg target (hpde e' d' he')
    by_cases hsame : Slot.pde e' d' = .pde e d
    · cases hsame
      rw [slotWord_pte (href.trans hq)]
      by_cases htt : t' = t
      · subst t'
        simp
      · rw [update_of_ne (by simp [htt]), slotWord_pte hq]
        simp [htt]
    · have hne : Slot.pte e' d' t' ≠ .pte e d t := by
        rintro ⟨⟩
        exact hsame rfl
      rw [update_of_ne hne]
      cases hr : slotRef vm sp (.pde e' d') with
      | none => rw [slotWord_pte_absent hr, slotWord_pte_absent (href.trans hr)]
      | some q' =>
        have hpage := ht.page_ne hqs trivial hq (pde_mem_slots.mpr ⟨he', hd'⟩) hr hsame
        rw [slotWord_pte hr, slotWord_pte (href.trans hr)]
        simp [hpage]

section
variable (he : e < nenv) (hs : sp e = some pd)
include he hs

lemma slotWord_setWord_pde (v : Nat) : ∀ k ∈ slots, (∀ t, k ≠ .pte e d t) →
      slotWord (vm.setWord pd d v) sp k = update (slotWord vm sp) (.pde e d) v k := by
  intro k hk hkt
  have hself : slotRef vm sp (.pgdir e) = some pd := slotRef_pgdir hs
  have hes : Slot.pgdir e ∈ slots := pgdir_mem_slots.mpr he
  have hpde : ∀ e' d', e' < nenv → Slot.pde e' d' ≠ .pde e d →
      slotWord (vm.setWord pd d v) sp (.pde e' d') = slotWord vm sp (.pde e' d') := by
    intro e' d' he' hne
    cases hs' : sp e' with
    | none => simp [slotWord, hs']
    | some pd' =>
      by_cases hee : e' = e
      · subst e'
        obtain rfl := Option.some.inj (hs.symm.trans hs')
        have hdd : d' ≠ d := fun h => hne (h ▸ rfl)
        simp [slotWord, hs, hdd]
      · have hpage := ht.page_ne hes trivial hself (pgdir_mem_slots.mpr he') (slotRef_pgdir hs') (by simp [hee])
        simp [slotWord, hs', hpage]
  cases k with
  | pgdir e' => simp [slotWord]
  | pde e' d' =>
    by_cases hsame : Slot.pde e' d' = .pde e d
    · cases hsame
      simp [slotWord, hs]
    · rw [update_of_ne hsame, hpde e' d' (pde_mem_slots.mp hk).1 hsame]
  | pte e' d' t' =>
    obtain ⟨he', hd', -⟩ := pte_mem_slots.mp hk
    have hne : Slot.pde e' d' ≠ .pde e d := by
      rintro ⟨⟩
      exact hkt t' rfl
    have href : slotRef (vm.setWord pd d v) sp (.pde e' d') = slotRef vm sp (.pde e' d') :=
      congrArg target (hpde e' d' he' hne)
    rw [update_of_ne (by simp)]
    cases hr : slotRef vm sp (.pde e' d') with
    | none => rw [slotWord_pte_absent hr, slotWord_pte_absent (href.trans hr)]
    | some q' =>
      have hpage := ht.page_ne hes trivial hself (pde_mem_slots.mpr ⟨he', hd'⟩) hr (by simp)
      rw [slotWord_pte hr, slotWord_pte (href.trans hr)]
      simp [hpage]

lemma slotWord_install (hqpd : q ≠ pd) (hnone : slotRef vm sp (.pde e d) = none) (hzero : ∀ i, vm.mem q i = 0)
    {v : Nat} (hv : target v = some q) :
    ∀ k ∈ slots, slotWord (vm.setWord pd d v) sp k =
      update (slotWord vm sp) (.pde e d) v k := by
  intro k hk
  by_cases hkt : ∃ t, k = .pte e d t
  · obtain ⟨t, rfl⟩ := hkt
    have hq : slotRef (vm.setWord pd d v) sp (.pde e d) = some q := by
      rw [slotRef_pde hs]
      simpa using hv
    rw [update_of_ne (by simp), slotWord_pte_absent hnone, slotWord_pte hq]
    simp [hqpd, hzero]
  · exact slotWord_setWord_pde ht he hs v k hk fun t he => hkt ⟨t, he⟩

lemma slotRef_clear_pde (hnone : ∀ t < 1024, slotRef vm sp (.pte e d t) = none) :
    ∀ k ∈ slots, slotRef (vm.setWord pd d 0) sp k = update (slotRef vm sp) (.pde e d) none k := by
  intro k hk
  by_cases hkt : ∃ t, k = .pte e d t
  · obtain ⟨t, rfl⟩ := hkt
    have hq : slotRef (vm.setWord pd d 0) sp (.pde e d) = none := by
      rw [slotRef_pde hs]
      simp
    rw [update_of_ne (by simp), hnone t (pte_mem_slots.mp hk).2.2, slotRef, slotWord_pte_absent hq,
      target_zero]
  · rw [slotRef, slotWord_setWord_pde ht he hs 0 k hk fun t he => hkt ⟨t, he⟩]
    by_cases hkd : k = .pde e d
    · subst k
      simp
    · rw [update_of_ne hkd, update_of_ne hkd, slotRef]

end

end

end

lemma slotRef_update {vm vm' : Vm} {sp : Spaces} {k0 : Slot} {v : Nat}
    (h : ∀ k ∈ slots, slotWord vm' sp k = update (slotWord vm sp) k0 v k) :
    ∀ k ∈ slots, slotRef vm' sp k = update (slotRef vm sp) k0 (target v) k := by
  intro k hk
  rw [slotRef, h k hk]
  by_cases hk0 : k = k0
  · subst k
    rw [update_self, update_self]
  · rw [update_of_ne hk0, update_of_ne hk0, slotRef]

end Jos
