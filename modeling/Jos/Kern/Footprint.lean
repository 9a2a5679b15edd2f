import Jos.Kern.Env

/-!
# Which words the memory routines write

In any memory, well formed or not: `page_insert` and `page_remove` write the page
table entry of their address, `page_insert` also the directory entry and the page it
takes for a new table, and `env_free` the user half of the directory and its tables.
-/

namespace Jos

def SameOff (F : Nat → Nat → Prop) (vm vm' : Vm) : Prop := ∀ p i, ¬ F p i → vm'.mem p i = vm.mem p i

namespace SameOff
variable {F G : Nat → Nat → Prop} {vm vm1 vm2 : Vm}

lemma refl (F : Nat → Nat → Prop) (vm : Vm) : SameOff F vm vm := fun _ _ _ => rfl

lemma trans (h : SameOff F vm vm1) (h' : SameOff F vm1 vm2) : SameOff F vm vm2 :=
  fun p i hp => (h' p i hp).trans (h p i hp)

lemma mono (h : SameOff F vm vm1) (hFG : ∀ p i, F p i → G p i) : SameOff G vm vm1 :=
  fun p i hp => h p i fun hF => hp (hFG p i hF)

lemma of_mem (F : Nat → Nat → Prop) (h : vm1.mem = vm.mem) : SameOff F vm vm1 := fun _ _ _ => by rw [h]

lemma setWord (vm : Vm) {p i : Nat} (v : Nat) (h : F p i) : SameOff F vm (vm.setWord p i v) := by
  intro q j hq
  have hne : ¬ (q = p ∧ j = i) := by
    rintro ⟨rfl, rfl⟩
    exact hq h
  simp only [Vm.setWord, if_neg hne]

end SameOff

def EntryOf (vm : Vm) (pgdir va p i : Nat) : Prop :=
  p = pgdir ∧ i = pdx va ∨ present (vm.mem pgdir (pdx va)) = true ∧ p = ppn (vm.mem pgdir (pdx va)) ∧ i = ptx va

section
variable {vm vm' : Vm} {pgdir pp va perm p : Nat} {zero create : Bool}

lemma pageDecref_mem (h : pageDecref p vm = some vm') : vm'.mem = vm.mem := by
  simp only [pageDecref] at h
  split at h
  · simp only [pageFree] at h
    split at h
    · cases h
    · cases h
      rfl
  · cases h
    rfl

lemma pageLookup_slot {q j : Nat} (h : pageLookup pgdir va vm = some (some (p, (q, j)))) :
    present (vm.mem pgdir (pdx va)) ∧ q = ppn (vm.mem pgdir (pdx va)) ∧ j = ptx va ∧
      p = ppn (vm.mem q j) := by
  simp only [pageLookup, pgdirWalk, Option.bind_eq_bind] at h
  cases hp : present (vm.mem pgdir (pdx va)) with
  | false => simp [hp] at h
  | true =>
    simp only [hp, if_true] at h
    split at h
    · simp only [Option.bind_some] at h
      split at h
      · cases h
        exact ⟨rfl, rfl, rfl, rfl⟩
      · cases h
    · cases h

lemma pageRemove_same (h : pageRemove pgdir va vm = some vm') : SameOff (fun p i =>
    present (vm.mem pgdir (pdx va)) ∧ p = ppn (vm.mem pgdir (pdx va)) ∧ i = ptx va) vm vm' := by
  unfold pageRemove at h
  split at h
  · cases h
  · cases h
    exact .refl _ _
  · rename_i pp q j hlookup
    obtain ⟨vm1, hdec, rfl⟩ := Option.map_eq_some_iff.mp h
    obtain ⟨hpde, hq, hj, -⟩ := pageLookup_slot hlookup
    exact (SameOff.of_mem _ (pageDecref_mem hdec)).trans (.setWord vm1 0 ⟨hpde, hq, hj⟩)

end

section
variable {vm vm' : Vm} {pgdir d pt : Nat}

lemma envFreePtes_same {n t : Nat} (hd : d < 1024) (ht : t + n ≤ 1024)
    (hpde : present (vm.mem pgdir d)) (hpt : ppn (vm.mem pgdir d) = pt) (hne : pt ≠ pgdir)
    (h : envFreePtes pgdir d pt n t vm = some vm') : SameOff (fun p _ => p = pt) vm vm' := by
  induction n generalizing t vm with
  | zero =>
    cases h
    exact .refl _ _
  | succ n ih =>
    obtain ⟨vm1, hstep, hrest⟩ := Option.bind_eq_some_iff.mp h
    have hsame : SameOff (fun p _ => p = pt) vm vm1 := by
      split at hstep
      · refine SameOff.mono (pageRemove_same hstep) ?_
        rintro p i ⟨-, rfl, -⟩
        rw [pdx_pgaddr hd (by omega)]
        exact hpt
      · cases hstep
        exact .refl _ _
    have hdir : vm1.mem pgdir d = vm.mem pgdir d := hsame _ _ hne.symm
    exact hsame.trans (ih (by omega) (by rw [hdir]; exact hpde) (by rw [hdir]; exact hpt) hrest)

lemma envFreeTable_same (hd : d < 1024) (hpde : present (vm.mem pgdir d))
    (hne : ppn (vm.mem pgdir d) ≠ pgdir) (h : envFreeTable pgdir d (ppn (vm.mem pgdir d)) vm = some vm') :
    SameOff (fun p i => p = pgdir ∧ i = d ∨ p = ppn (vm.mem pgdir d)) vm vm' := by
  simp only [envFreeTable] at h
  split at h
  · cases h
  · obtain ⟨vm1, hptes, hdec⟩ := Option.bind_eq_some_iff.mp h
    have hsame := envFreePtes_same hd (by omega) hpde rfl hne hptes
    refine (hsame.mono fun _ _ hp => .inr hp).trans ((SameOff.setWord vm1 0 (.inl ⟨rfl, rfl⟩)).trans ?_)
    exact .of_mem _ (pageDecref_mem hdec)

lemma envFreePdes_same {n : Nat} (hn : d + n ≤ npdeUser)
    (hne : ∀ d', d ≤ d' → d' < npdeUser → present (vm.mem pgdir d') → ppn (vm.mem pgdir d') ≠ pgdir)
    (h : envFreePdes pgdir n d vm = some vm') : SameOff (fun p i => p = pgdir ∧ i < npdeUser ∨
      ∃ d', d ≤ d' ∧ d' < npdeUser ∧ present (vm.mem pgdir d') ∧ p = ppn (vm.mem pgdir d')) vm vm' := by
  induction n generalizing d vm with
  | zero =>
    cases h
    exact .refl _ _
  | succ n ih =>
    obtain ⟨vm1, hstep, hrest⟩ := Option.bind_eq_some_iff.mp h
    have hd : d < npdeUser := by omega
    have hd' : d < 1024 := lt_trans hd (by decide)
    have hsame : SameOff (fun p i => p = pgdir ∧ i = d ∨
        present (vm.mem pgdir d) ∧ p = ppn (vm.mem pgdir d)) vm vm1 := by
      split at hstep
      · rename_i hp
        exact (envFreeTable_same hd' hp (hne d le_rfl hd hp) hstep).mono fun p i hF => hF.imp_right fun hp' => ⟨hp, hp'⟩
      · cases hstep
        exact .refl _ _
    -- the directory entries after `d` are still the ones that were there
    have hdir : ∀ d', d + 1 ≤ d' → vm1.mem pgdir d' = vm.mem pgdir d' := by
      intro d' hle
      refine hsame _ _ ?_
      rintro (⟨-, rfl⟩ | ⟨hp, heq⟩)
      · omega
      · exact hne d le_rfl hd hp heq.symm
    have hrest' := ih (by omega) (fun d' hle hlt => by
      rw [hdir d' hle]
      exact hne d' (by omega) hlt) hrest
    refine (hsame.mono ?_).trans (hrest'.mono ?_)
    · rintro p i (⟨rfl, rfl⟩ | ⟨hp, rfl⟩)
      · exact .inl ⟨rfl, hd⟩
      · exact .inr ⟨d, le_rfl, hd, hp, rfl⟩
    · rintro p i (hF | ⟨d', hle, hlt, hp, rfl⟩)
      · exact .inl hF
      · rw [hdir d' hle] at hp ⊢
        exact .inr ⟨d', by omega, hlt, hp, rfl⟩

end

section
variable {k k' : Kernel} {e pd : Nat}

end

end Jos
