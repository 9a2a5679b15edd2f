import Jos.Kern.PmapSpec

/-!
# Address spaces come and go

`env_setup_vm` adds a page directory to the books, `env_free` empties an address
space slot by slot and takes it away again, and the loader fills one.
-/

namespace Jos
open LinkedList RefCount Function

variable {e : Nat} {l : List Nat} {sp : Spaces} {vm : Vm}

lemma pgaddr_lt_utop {d t : Nat} (hd : d < npdeUser) (ht : t < 1024) : pgaddr d t 0 < utop := by
  unfold npdeUser at hd
  unfold pgaddr utop
  omega

lemma pdx_pgaddr_user {d t : Nat} (hd : d < npdeUser) (ht : t < 1024) : pdx (pgaddr d t 0) = d :=
  pdx_pgaddr (lt_trans hd (by decide)) ht

namespace Accounted
variable {sp : Spaces} {held : Nat → Nat} {e pd d pt : Nat}

lemma envFreePtes_spec (hs : sp e = some pd) (hd : d < npdeUser) (n : Nat) :
    ∀ {pteno : Nat} {vm : Vm} {l : List Nat}, pteno + n ≤ 1024 → Accounted vm sp held l →
      slotRef vm sp (.pde e d) = some pt → (∀ p, pageRefs vm sp p + held p ≤ 65536) →
      ∃ vm' l', envFreePtes pd d pt n pteno vm = some vm' ∧ Accounted vm' sp held l' ∧ Shrunk sp vm sp vm' ∧
        Returned (fun p => pageRefs vm sp p + held p) (fun p => pageRefs vm' sp p + held p) vm l vm' l' ∧
        (∀ k ∈ slots, (∀ t, k ≠ .pte e d t) → slotWord vm' sp k = slotWord vm sp k) ∧
        ∀ t, pteno ≤ t → t < pteno + n → slotRef vm' sp (.pte e d t) = none := by
  induction n with
  | zero =>
    intro pteno vm l _ h _ _
    exact ⟨vm, l, rfl, h, Shrunk.refl sp vm, .refl _ vm l, fun _ _ _ => rfl, by omega⟩
  | succ n ih =>
    intro pteno vm l hn h hq hb
    have ht : pteno < 1024 := by omega
    have hva := pgaddr_lt_utop hd ht
    have hpdx := pdx_pgaddr_user hd ht
    have hptx : ptx (pgaddr d pteno 0) = pteno := ptx_pgaddr ht
    have hmem : Slot.pte e d pteno ∈ slots := pte_mem_slots.mpr ⟨h.space_lt e pd hs, hd, ht⟩
    obtain ⟨vm1, l1, hclear, h1, hshrunk, hnone, hw, -, -, -, hret⟩ :=
      h.clear_slot hs hva (by rw [hpdx]; exact hq) fun p _ => hb p
    simp only [hpdx, hptx] at hclear hnone hw
    have hq1 : slotRef vm1 sp (.pde e d) = some pt := by
      rw [slotRef, hw _ (pde_mem_slots.mpr ⟨h.space_lt e pd hs, hd⟩) (by simp)]
      exact hq
    have hn1 : pteno + 1 + n ≤ 1024 := by omega
    obtain ⟨vm2, l2, hrun, h2, hshrunk2, hret2, hw2, hnone2⟩ := ih hn1 h1 hq1 fun p =>
      le_trans (Nat.add_le_add_right (hshrunk.refs p) _) (hb p)
    refine ⟨vm2, l2, ?_, h2, hshrunk.trans hshrunk2, hret.trans hret2, ?_, ?_⟩
    · rw [envFreePtes, hclear, Option.bind_some, hrun]
    · intro k hk hkt
      rw [hw2 k hk hkt, hw k hk (hkt pteno)]
    · intro t htl htu
      rcases Nat.eq_or_lt_of_le htl with rfl | hlt
      · exact hshrunk2.ref_none hmem hnone
      · exact hnone2 t hlt (by omega)

lemma envFreeTable_spec (h : Accounted vm sp held l) (hs : sp e = some pd)
    (hd : d < npdeUser) (hq : slotRef vm sp (.pde e d) = some pt) (hb : ∀ p, pageRefs vm sp p + held p ≤ 65536) :
    ∃ vm' l', envFreeTable pd d pt vm = some vm' ∧ Accounted vm' sp held l' ∧ Shrunk sp vm sp vm' ∧
      Returned (fun p => pageRefs vm sp p + held p) (fun p => pageRefs vm' sp p + held p) vm l vm' l' ∧
      slotRef vm' sp (.pde e d) = none := by
  have he := h.space_lt e pd hs
  have hpde : Slot.pde e d ∈ slots := pde_mem_slots.mpr ⟨he, hd⟩
  obtain ⟨vm1, l1, hrun, h1, hsh1, hret1, hw1, hnone1⟩ :=
    envFreePtes_spec hs hd 1024 (show 0 + 1024 ≤ 1024 from le_rfl) h hq hb
  have hq1 : slotRef vm1 sp (.pde e d) = some pt := by
    rw [slotRef, hw1 _ hpde (by simp)]
    exact hq
  have hpdk : pd ≠ vm1.kernPgdir := h1.ne_kernPgdir (pgdir_mem_slots.mpr he) (slotRef_pgdir hs)
  have hb1 := sameBooks_setWord d 0 hpdk
  have hr := slotRef_clear_pde h1.tables he hs fun t ht => hnone1 t (Nat.zero_le t) (by omega)
  obtain ⟨vm2, l2, hdec, h2, hmem, hnp, hkp, hku, -, -, hret2⟩ := h1.drop_slot hb1 hpde hq1 hr h.space_lt
    ((Nat.add_le_add_right (hsh1.refs pt) _).trans (hb pt))
  have hr2 := slotRef_of_mem sp hmem
  refine ⟨vm2, l2, ?_, h2, hsh1.trans ⟨hnp, hkp, hku, ?_, fun p => Nat.le_of_add_le_add_right (hret2.le p), ?_⟩,
    hret1.trans hret2, ?_⟩
  · rw [envFreeTable, if_neg (Nat.not_le.mpr (h.mapped _ hpde pt hq).1), hrun, Option.bind_some, hdec]
  · intro k hk
    rw [slotWord_of_mem sp hmem]
    by_cases hkt : ∃ t, k = .pte e d t
    · obtain ⟨t, rfl⟩ := hkt
      exact Or.inr (slotWord_pte_absent (by rw [hr _ hpde, update_self]))
    · rw [slotWord_setWord_pde h1.tables he hs 0 k hk fun t he => hkt ⟨t, he⟩]
      by_cases hkd : k = .pde e d
      · exact Or.inr (by rw [hkd, update_self])
      · exact Or.inl (update_of_ne hkd _ _)
  · intro p hp
    rw [hmem]
    have hppd : p ≠ pd := by
      rintro rfl
      exact hp _ (pgdir_mem_slots.mpr he) trivial (slotRef_pgdir hs)
    funext i
    simp [hppd]
  · rw [hr2, hr _ hpde, update_self]

lemma envFreePdes_spec (hs : sp e = some pd) (n : Nat) :
    ∀ {pdeno : Nat} {vm : Vm} {l : List Nat}, pdeno + n ≤ npdeUser → Accounted vm sp held l →
      (∀ p, pageRefs vm sp p + held p ≤ 65536) →
      ∃ vm' l', envFreePdes pd n pdeno vm = some vm' ∧ Accounted vm' sp held l' ∧ Shrunk sp vm sp vm' ∧
        Returned (fun p => pageRefs vm sp p + held p) (fun p => pageRefs vm' sp p + held p) vm l vm' l' ∧
        ∀ d, pdeno ≤ d → d < pdeno + n → slotRef vm' sp (.pde e d) = none := by
  induction n with
  | zero =>
    intro pdeno vm l _ h _
    exact ⟨vm, l, rfl, h, Shrunk.refl sp vm, .refl _ vm l, by omega⟩
  | succ n ih =>
    intro pdeno vm l hn h hb
    have hd : pdeno < npdeUser := by omega
    have hmem : Slot.pde e pdeno ∈ slots := pde_mem_slots.mpr ⟨h.space_lt e pd hs, hd⟩
    have hstep : ∃ vm1 l1, (if present (vm.mem pd pdeno) then envFreeTable pd pdeno (ppn (vm.mem pd pdeno)) vm
        else some vm) = some vm1 ∧ Accounted vm1 sp held l1 ∧ Shrunk sp vm sp vm1 ∧
        Returned (fun p => pageRefs vm sp p + held p) (fun p => pageRefs vm1 sp p + held p) vm l vm1 l1 ∧
        slotRef vm1 sp (.pde e pdeno) = none := by
      by_cases hp : present (vm.mem pd pdeno)
      · rw [if_pos hp]
        exact h.envFreeTable_spec hs hd (by rw [slotRef_pde hs]; exact target_eq_some.mpr ⟨hp, rfl⟩) hb
      · rw [if_neg hp]
        refine ⟨vm, l, rfl, h, Shrunk.refl sp vm, .refl _ vm l, ?_⟩
        rw [slotRef_pde hs]
        exact target_eq_none.mpr (Bool.eq_false_iff.mpr hp)
    obtain ⟨vm1, l1, hone, h1, hsh1, hret1, hnone1⟩ := hstep
    have hn1 : pdeno + 1 + n ≤ npdeUser := by omega
    obtain ⟨vm2, l2, hrun, h2, hsh2, hret2, hnone2⟩ := ih hn1 h1 fun p =>
      le_trans (Nat.add_le_add_right (hsh1.refs p) _) (hb p)
    refine ⟨vm2, l2, ?_, h2, hsh1.trans hsh2, hret1.trans hret2, ?_⟩
    · rw [envFreePdes, hone, Option.bind_some, hrun]
    · intro d hdl hdu
      rcases Nat.eq_or_lt_of_le hdl with rfl | hlt
      · exact hsh2.ref_none hmem hnone1
      · exact hnone2 d hlt (by omega)

end Accounted

lemma slotRef_dropSpace (hnone : ∀ d < npdeUser, slotRef vm sp (.pde e d) = none) :
    ∀ k ∈ slots, slotRef vm (update sp e none) k =
      update (slotRef vm sp) (.pgdir e) none k := by
  intro k hk
  by_cases hke : k.env = e
  · rw [slotRef_none (by rw [hke, update_self])]
    cases k with
    | pgdir e' =>
      obtain rfl : e' = e := hke
      rw [update_self]
    | pde e' d =>
      obtain rfl : e' = e := hke
      rw [update_of_ne (by simp), hnone d (pde_mem_slots.mp hk).2]
    | pte e' d t =>
      obtain rfl : e' = e := hke
      rw [update_of_ne (by simp), slotRef, slotWord_pte_absent (hnone d (pte_mem_slots.mp hk).2.1),
        target_zero]
  · rw [update_of_ne (by rintro rfl; exact hke rfl), slotRef, slotWord_congr_space (update_of_ne hke _ _), slotRef]

lemma Accounted.freeSpace {held : Nat → Nat} {pd : Nat}
    (h : Accounted vm sp held l) (hs : sp e = some pd) (hb : ∀ p, pageRefs vm sp p + held p ≤ 65536) :
    ∃ vm' l', (envFreePdes pd npdeUser 0 vm).bind (pageDecref pd) = some vm' ∧
      Accounted vm' (update sp e none) held l' ∧ Shrunk sp vm (update sp e none) vm' ∧
      Returned (fun p => pageRefs vm sp p + held p) (fun p => pageRefs vm' (update sp e none) p + held p) vm l vm' l' := by
  have he := h.space_lt e pd hs
  have hpgdir : Slot.pgdir e ∈ slots := pgdir_mem_slots.mpr he
  obtain ⟨vm1, l1, hrun, h1, hsh1, hret1, hnone1⟩ :=
    Accounted.envFreePdes_spec hs npdeUser (show 0 + npdeUser ≤ npdeUser by omega) h hb
  have hr := slotRef_dropSpace fun d hd => hnone1 d (Nat.zero_le d) (by omega)
  have hsp : ∀ e' pd', update sp e none e' = some pd' → e' < nenv := by
    intro e' pd' hs'
    by_cases hee : e' = e
    · exact hee ▸ he
    · rw [update_of_ne hee] at hs'
      exact h.space_lt e' pd' hs'
  obtain ⟨vm2, l2, hdec, h2, hmem, hnp, hkp, hku, -, -, hret2⟩ := h1.drop_slot (sameBooks_refl vm1) hpgdir
    (slotRef_pgdir hs) hr hsp ((Nat.add_le_add_right (hsh1.refs pd) _).trans (hb pd))
  refine ⟨vm2, l2, by rw [hrun, Option.bind_some, hdec], h2,
    hsh1.trans ⟨hnp, hkp, hku, ?_, fun p => Nat.le_of_add_le_add_right (hret2.le p), fun p _ => by rw [hmem]⟩,
    hret1.trans hret2⟩
  intro k hk
  by_cases hke : k.env = e
  · exact Or.inr (slotWord_none (by rw [hke, update_self]))
  · left
    rw [slotWord_of_mem _ hmem, slotWord_congr_space (update_of_ne hke _ _)]

structure SpaceAdded (sp : Spaces) (e p : Nat) (vm vm' : Vm) : Prop where
  npages : vm'.npages = vm.npages
  kernPgdir : vm'.kernPgdir = vm.kernPgdir
  kernUses : ∀ q, KernUses vm' q ↔ KernUses vm q
  others : ∀ k ∈ slots, k.env ≠ e → slotWord vm' (update sp e (some p)) k = slotWord vm sp k
  empty : ∀ k ∈ slots, k.env = e → ¬ k.IsTable → slotWord vm' (update sp e (some p)) k = 0
  noTables : ∀ d, Slot.pde e d ∈ slots → slotRef vm' (update sp e (some p)) (.pde e d) = none
  refs : ∀ q, pageRefs vm' (update sp e (some p)) q ≤ max 1 (pageRefs vm sp q)
  data : ∀ q, q ≠ p → vm'.mem q = vm.mem q

lemma slotRef_addSpace {vm' : Vm} {p : Nat} (hnone : sp e = none)
    (hnt : NotTable vm sp p) (hmem : ∀ q, q ≠ p → vm'.mem q = vm.mem q)
    (hlow : ∀ d < npdeUser, present (vm'.mem p d) = false) :
    (∀ k ∈ slots, k.env ≠ e → slotWord vm' (update sp e (some p)) k = slotWord vm sp k) ∧
    ∀ k ∈ slots, slotRef vm' (update sp e (some p)) k =
      update (slotRef vm sp) (.pgdir e) (some p) k := by
  have hwords : ∀ k ∈ slots, slotWord vm' sp k = slotWord vm sp k := by
    apply slotWord_congr
    intro k hk hkt q hq
    exact hmem q fun he => hnt k hk hkt (he ▸ hq)
  have hothers : ∀ k ∈ slots, k.env ≠ e →
      slotWord vm' (update sp e (some p)) k = slotWord vm sp k := by
    intro k hk hke
    rw [slotWord_congr_space (update_of_ne hke _ _), hwords k hk]
  refine ⟨hothers, ?_⟩
  intro k hk
  have hs : update sp e (some p) e = some p := update_self ..
  have hpde : ∀ d < npdeUser, slotRef vm' (update sp e (some p)) (.pde e d) = none := by
    intro d hd
    rw [slotRef_pde hs]
    exact target_eq_none.mpr (hlow d hd)
  by_cases hke : k.env = e
  · cases k with
    | pgdir e' =>
      obtain rfl : e' = e := hke
      rw [update_self, slotRef_pgdir hs]
    | pde e' d =>
      obtain rfl : e' = e := hke
      rw [update_of_ne (by simp), hpde d (pde_mem_slots.mp hk).2, slotRef_none hnone]
    | pte e' d t =>
      obtain rfl : e' = e := hke
      rw [update_of_ne (by simp), slotRef, slotWord_pte_absent (hpde d (pte_mem_slots.mp hk).2.1),
        target_zero, slotRef_none hnone]
  · rw [update_of_ne (by rintro rfl; exact hke rfl), slotRef, hothers k hk hke, slotRef]

lemma Accounted.envSetupVm_spec {held : Nat → Nat}
    (h : Accounted vm sp held l) (he : e < nenv) (hnone : sp e = none) : (l = [] ∧ envSetupVm vm = (none, vm)) ∨
    ∃ p l' vm', l = p :: l' ∧ envSetupVm vm = (some p, vm') ∧
      Accounted vm' (update sp e (some p)) held l' ∧ SpaceAdded sp e p vm vm' := by
  cases l with
  | nil =>
    refine Or.inl ⟨rfl, ?_⟩
    rw [envSetupVm, h.pageAlloc_nil]
  | cons p l =>
    right
    obtain ⟨vm1, halloc, htaken, h1, hfresh, hw1⟩ := h.pageAlloc_cons true
    have hpk : p ≠ vm1.kernPgdir := fun he => hfresh.kern (Or.inl he)
    let vm2 := (vm1.setPage p (vm1.mem vm1.kernPgdir)).setWord p (pdx uvpt) (entry p (pteP ||| pteU))
    have hb : SameBooks vm1 vm2 := by
      refine ⟨rfl, rfl, rfl, rfl, rfl, ?_⟩
      funext i
      simp [vm2, hpk.symm]
    have hmem : ∀ q, q ≠ p → vm2.mem q = vm1.mem q := by
      intro q hq
      funext i
      simp [vm2, hq]
    have hlow : ∀ d < npdeUser, present (vm2.mem p d) = false := by
      intro d hd
      have hdne : d ≠ pdx uvpt := by
        rintro rfl
        exact absurd hd (by decide)
      have hword : vm2.mem p d = vm1.mem vm1.kernPgdir d := by simp [vm2, hdne]
      rw [hword]
      exact h1.kern_low d hd
    obtain ⟨hothers, hr⟩ := slotRef_addSpace hnone (notTable_of_pageRefs hfresh.refs) hmem hlow
    have hpgdir : Slot.pgdir e ∈ slots := pgdir_mem_slots.mpr he
    have hsp : ∀ e' pd', update sp e (some p) e' = some pd' → e' < nenv := by
      intro e' pd' hs'
      by_cases hee : e' = e
      · exact hee ▸ he
      · rw [update_of_ne hee] at hs'
        exact h.space_lt e' pd' hs'
    refine ⟨p, l, vm2.incref p, rfl, by rw [envSetupVm, halloc]; rfl,
      h1.install hfresh hpgdir (slotRef_none hnone) hb hr hsp, ?_⟩
    have hpk' : p ≠ vm.kernPgdir := htaken.kernPgdir ▸ hpk
    have hnoTables : ∀ d, Slot.pde e d ∈ slots →
        slotRef (vm2.incref p) (update sp e (some p)) (.pde e d) = none := by
      intro d hd
      rw [slotRef_incref, hr _ hd, update_of_ne (by simp)]
      exact slotRef_none hnone
    refine ⟨htaken.npages, htaken.kernPgdir, fun q => (hb.kernUses q).trans (htaken.kernUses hpk' q), ?_, ?_, hnoTables,
      ?_, ?_⟩
    · intro k hk hke
      rw [← hw1 k hk, ← hothers k hk hke]
      rfl
    · intro k hk hke hkt
      cases k with
      | pgdir e' => exact absurd trivial hkt
      | pde e' d => exact absurd trivial hkt
      | pte e' d t =>
        obtain rfl : e' = e := hke
        obtain ⟨he', hd, -⟩ := pte_mem_slots.mp hk
        exact slotWord_pte_absent (hnoTables d (pde_mem_slots.mpr ⟨he', hd⟩))
    · intro q
      have hup := refs_update hpgdir (f := slotRef vm1 sp) (some p) q
      have hsame : pageRefs vm1 sp q = pageRefs vm sp q := refs_congr (slotRef_congr hw1) q
      rw [slotRef_none hnone] at hup
      rw [pageRefs_incref, ← hsame, pageRefs, refs_congr hr q]
      by_cases hqp : q = p
      · subst q
        have := hfresh.refs
        rw [pageRefs] at this ⊢
        simp at hup
        omega
      · simp [Ne.symm hqp] at hup
        rw [pageRefs]
        omega
    · intro q hq
      rw [← htaken.mem q hq]
      exact hmem q hq

section
variable {sp : Spaces} {held : Nat → Nat} {e pd : Nat}

/-- A store in a page that an environment has mapped changes no entry. -/
lemma Accounted.setWord_data {s : Slot} {p : Nat} (h : Accounted vm sp held l) (hs : s ∈ slots) (hst : ¬ s.IsTable)
    (hp : slotRef vm sp s = some p) (i v : Nat) : Accounted (vm.setWord p i v) sp held l ∧
      ∀ k ∈ slots, slotWord (vm.setWord p i v) sp k = slotWord vm sp k := by
  have hnt : NotTable vm sp p := by
    intro k hk hkt hkp
    cases h.tables k hk hkt _ hkp _ hs hp
    exact hst hkt
  have hw := slotWord_setWord_data i v hnt
  exact ⟨h.sameRefs (sameBooks_setWord _ _ (h.ne_kernPgdir hs hp)) (slotRef_congr hw), hw⟩

lemma Accounted.storeByte_spec {vm' : Vm} {va b : Nat} (h : Accounted vm sp held l)
    (hs : sp e = some pd) (hva : va < utop) (hst : storeByte pd va b vm = some vm') :
    Accounted vm' sp held l ∧ ∀ k ∈ slots, slotWord vm' sp k = slotWord vm sp k := by
  simp only [storeByte] at hst
  split at hst
  case isFalse => simp at hst
  rename_i hp
  simp only [Bool.and_eq_true] at hp
  obtain ⟨⟨⟨hpde, hpte⟩, -⟩, -⟩ := hp
  cases hst
  have hq : slotRef vm sp (.pde e (pdx va)) = some (ppn (vm.mem pd (pdx va))) := by
    rw [slotRef_pde hs]
    exact target_eq_some.mpr ⟨hpde, rfl⟩
  have hr : slotRef vm sp (.pte e (pdx va) (ptx va)) =
      some (ppn (vm.mem (ppn (vm.mem pd (pdx va))) (ptx va))) := by
    rw [slotRef, slotWord_pte hq]
    exact target_eq_some.mpr ⟨hpte, rfl⟩
  exact h.setWord_data (h.pte_mem hs hva) id hr _ _

lemma Accounted.storeBytes_spec (hs : sp e = some pd) (bs : List Nat) :
    ∀ {vm vm' : Vm} {va : Nat}, Accounted vm sp held l → va + bs.length ≤ utop →
      storeBytes pd va bs vm = some vm' →
      Accounted vm' sp held l ∧ ∀ k ∈ slots, slotWord vm' sp k = slotWord vm sp k := by
  induction bs with
  | nil =>
    intro vm vm' va h _ hst
    cases hst
    exact ⟨h, fun _ _ => rfl⟩
  | cons b bs ih =>
    intro vm vm' va h hlen hst
    simp only [List.length_cons] at hlen
    obtain ⟨vm1, hone, hrest⟩ := Option.bind_eq_some_iff.mp hst
    obtain ⟨h1, hw1⟩ := h.storeByte_spec hs (by omega) hone
    have hnext : (va + 1) % 2 ^ 32 = va + 1 := Nat.mod_eq_of_lt (by unfold utop at hlen; omega)
    rw [hnext] at hrest
    obtain ⟨h2, hw2⟩ := ih h1 (by omega) hrest
    exact ⟨h2, fun k hk => (hw2 k hk).trans (hw1 k hk)⟩

lemma Accounted.regionLoop_spec (hs : sp e = some pd) (n : Nat) :
    ∀ {vm vm' : Vm} {l : List Nat} {start : Nat}, Accounted vm sp (fun _ => 0) l →
      (∀ p, pageRefs vm sp p ≤ 65535) → Tidy vm sp → start + n * 4096 ≤ utop →
      regionLoop pd n start vm = some vm' →
      ∃ l', Accounted vm' sp (fun _ => 0) l' ∧ (∀ p, pageRefs vm' sp p ≤ 65535) ∧ Tidy vm' sp := by
  induction n with
  | zero =>
    intro vm vm' l start h hb ht _ hrun
    cases hrun
    exact ⟨l, h, hb, ht⟩
  | succ n ih =>
    intro vm vm' l start h hb ht hlen hrun
    cases l with
    | nil =>
      rw [regionLoop, h.pageAlloc_nil] at hrun
      simp at hrun
    | cons p l =>
      obtain ⟨vm1, halloc, -, h1, hfresh, hw1⟩ := h.pageAlloc_cons false
      have hrefs : ∀ q, pageRefs vm1 sp q = pageRefs vm sp q := fun q => refs_congr (slotRef_congr hw1) q
      have hva : start < utop := by omega
      have hperm : pteW ||| pteU < 4096 := by decide
      rw [regionLoop, halloc] at hrun
      rcases h1.pageInsert_spec hs hva hfresh.mappable hperm (fun q => by rw [hrefs]; exact hb q) rfl with
        ⟨-, -, hins⟩ | ⟨vm2, l2, hins, h2, hi, -⟩
      · simp [hins, eNoMem] at hrun
      · simp only [hins, ne_eq, not_true_eq_false, if_false] at hrun
        have ht1 : Tidy vm1 sp := ht.of_words fun k hk _ => Or.inl (hw1 k hk)
        refine ih h2 (fun q => ?_) (hi.tidy hperm ht1) (by omega) hrun
        have := hi.refs q
        have := hb q
        have := hrefs q
        by_cases hq : q = p
        · subst q
          have := hfresh.refs
          split at * <;> omega
        · simp only [hq, false_and, if_false] at *
          omega

end

end Jos
