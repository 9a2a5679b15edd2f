import Jos.Kern.PageLookup

/-!
# `page_insert`

What one call does to a page directory, to the counters and to the free list, for any
directory whose tables and pages are in use. Nothing is assumed about other directories.
-/

namespace Jos
open Bits LinkedList Function

def walkEntry (pd va : Nat) (vm : Vm) : Option Nat :=
  let pde := vm.mem pd (pdx va)
  let pte := vm.mem (ppn pde) (ptx va)
  if present pde && present pte then some pte else none

/-- A page directory, with `l` on the free list. Only the part above `utop` may contain a
table twice, or the directory itself. -/
structure DirOk (vm : Vm) (pd : Nat) (l : List Nat) : Prop where
  size : vm.npages ≤ 2 ^ 20
  chain : Chain vm.ppLink vm.pageFreeList l
  free : ∀ p ∈ l, p < vm.npages
  unlinked : ∀ p, p < vm.npages → p ∉ l → vm.ppLink p = none
  dir : pd ∉ l
  table : ∀ d, d < 1024 → present (vm.mem pd d) = true → ppn (vm.mem pd d) < vm.npages ∧ ppn (vm.mem pd d) ∉ l
  user : ∀ d, d < npdeUser → present (vm.mem pd d) = true → ppn (vm.mem pd d) ≠ pd ∧
    ∀ d', d' < 1024 → d' ≠ d → present (vm.mem pd d') = true → ppn (vm.mem pd d') ≠ ppn (vm.mem pd d)
  page : ∀ va w, va < utop → walkEntry pd va vm = some w → ppn w < vm.npages ∧ ppn w ∉ l ∧
    0 < vm.ppRef (ppn w) ∧ vm.ppRef (ppn w) < 65536

/-- The page `page_insert` takes for a missing page table. -/
def takenTable (vm : Vm) (pd va : Nat) (l : List Nat) : Option Nat :=
  if present (vm.mem pd (pdx va)) then none else l.head?

def oldPage (vm : Vm) (pd va : Nat) : Option Nat := (walkEntry pd va vm).map ppn

def freeAfter (vm : Vm) (pd pp va : Nat) (l : List Nat) : List Nat :=
  match takenTable vm pd va l, oldPage vm pd va with
  | some _, _ => l.tail
  | none, some p => if p ≠ pp ∧ vm.ppRef p = 1 then p :: l else l
  | none, none => l

/-- Through a directory entry that names the directory itself, `a` shows the page table of `va`. -/
def Shows (vm : Vm) (pd va a : Nat) : Prop :=
  present (vm.mem pd (pdx a)) = true ∧ ppn (vm.mem pd (pdx a)) = pd ∧ ptx a = pdx va

structure MappedAt (vm : Vm) (pd pp va perm : Nat) (l : List Nat) (vm' : Vm) : Prop where
  here : walkEntry pd va vm' = some (entry pp (pteP ||| perm)) ∧ oldPage vm' pd va = some pp
  others : ∀ a, a < 2 ^ 32 → pgnum a ≠ pgnum va → (takenTable vm pd va l = none ∨ ¬ Shows vm pd va a) →
    walkEntry pd a vm' = walkEntry pd a vm
  shown : ∀ a q, a < 2 ^ 32 → takenTable vm pd va l = some q → Shows vm pd va a →
    walkEntry pd a vm' = some (entry q (pteP ||| (pteW ||| pteU)))
  pp_ref : vm'.ppRef pp = if oldPage vm pd va = some pp then vm.ppRef pp else vm.ppRef pp + 1
  lost : ∀ p, p ≠ pp → oldPage vm pd va = some p → vm'.ppRef p + 1 = vm.ppRef p
  kept : ∀ p, p ≠ pp → oldPage vm pd va ≠ some p → takenTable vm pd va l ≠ some p → vm'.ppRef p = vm.ppRef p
  free : Chain vm'.ppLink vm'.pageFreeList (freeAfter vm pd pp va l)
  new : ∀ q, takenTable vm pd va l = some q → vm'.mem pd (pdx va) = entry q (pteP ||| (pteW ||| pteU)) ∧
    vm'.ppRef q = 1 ∧ ∀ i, i ≠ ptx va → vm'.mem q i = 0

lemma pgnum_ne {a b : Nat} (ha : a < 2 ^ 32) (hb : b < 2 ^ 32) (h : pgnum a ≠ pgnum b) : pdx a ≠ pdx b ∨ ptx a ≠ ptx b := by
  unfold pgnum at h
  unfold pdx ptx
  omega

lemma entry_table (q : Nat) : present (entry q (pteP ||| (pteW ||| pteU))) ∧
    ppn (entry q (pteP ||| (pteW ||| pteU))) = q :=
  ⟨present_entry q _, ppn_entry (by decide) q⟩

lemma walkEntry_absent {vm : Vm} {pd va : Nat} (h : present (vm.mem pd (pdx va)) = false) : walkEntry pd va vm = none := by
  simp only [walkEntry, h, Bool.false_and, Bool.false_eq_true, if_false]

lemma walkEntry_table {vm : Vm} {pd va : Nat} (h : present (vm.mem pd (pdx va))) : walkEntry pd va vm =
    if present (vm.mem (ppn (vm.mem pd (pdx va))) (ptx va)) then some (vm.mem (ppn (vm.mem pd (pdx va))) (ptx va))
    else none := by
  simp only [walkEntry, h, Bool.true_and]

structure Written (vm : Vm) (pd va q v : Nat) (vm' : Vm) : Prop where
  dir : present (vm'.mem pd (pdx va)) = true ∧ ppn (vm'.mem pd (pdx va)) = q
  here : vm'.mem q (ptx va) = v
  old : present (vm.mem pd (pdx va)) = true → vm'.mem pd (pdx va) = vm.mem pd (pdx va) ∧
    ∀ i, i ≠ ptx va → vm'.mem q i = vm.mem q i
  new : present (vm.mem pd (pdx va)) = false → ∀ i, i ≠ ptx va → vm'.mem q i = 0
  other : ∀ p i, p ≠ q → p ≠ pd ∨ i ≠ pdx va → vm'.mem p i = vm.mem p i

section
variable {vm vm' : Vm} {pd va q v : Nat} {l : List Nat} (h : Written vm pd va q v vm') (hne : q ≠ pd)
include h in
lemma Written.walk_here (hv : present v) : walkEntry pd va vm' = some v := by
  simp only [walkEntry, h.dir.1, h.dir.2, h.here, hv, Bool.and_self, if_true]

include h in
lemma Written.mapped {pp perm : Nat} (hv : v = entry pp (pteP ||| perm)) (hperm : perm < 4096) :
    walkEntry pd va vm' = some v ∧ oldPage vm' pd va = some pp := by
  have hwalk := h.walk_here (hv ▸ present_entry pp perm)
  refine ⟨hwalk, ?_⟩
  unfold oldPage
  rw [hwalk, hv, Option.map_some, ppn_entry (or_pteP_lt hperm)]

include h hne in
lemma Written.walk_other (hq : ∀ d, d < 1024 → d ≠ pdx va → present (vm.mem pd d) → ppn (vm.mem pd d) ≠ q)
    {a : Nat} (ha : pdx a ≠ pdx va ∨ ptx a ≠ ptx va)
    (hshow : present (vm.mem pd (pdx va)) ∨ ¬ Shows vm pd va a) : walkEntry pd a vm' = walkEntry pd a vm := by
  by_cases hd : pdx a = pdx va
  · have ht : ptx a ≠ ptx va := ha.resolve_left fun hne => hne hd
    have hdir : present (vm'.mem pd (pdx a)) := hd ▸ h.dir.1
    rw [walkEntry_table hdir, hd, h.dir.2]
    cases hp : present (vm.mem pd (pdx va)) with
    | true =>
      have hq : ppn (vm.mem pd (pdx va)) = q := by rw [← (h.old hp).1, h.dir.2]
      rw [(h.old hp).2 _ ht, walkEntry_table (hd ▸ hp), hd, hq]
    | false =>
      rw [h.new hp _ ht, walkEntry_absent (hd ▸ hp)]
      rfl
  · have hpde : vm'.mem pd (pdx a) = vm.mem pd (pdx a) := h.other pd _ (Ne.symm hne) (.inr hd)
    cases hp : present (vm.mem pd (pdx a)) with
    | false => rw [walkEntry_absent (hpde ▸ hp), walkEntry_absent hp]
    | true =>
      have hword : vm'.mem (ppn (vm.mem pd (pdx a))) (ptx a) = vm.mem (ppn (vm.mem pd (pdx a))) (ptx a) := by
        by_cases hself : ppn (vm.mem pd (pdx a)) = pd ∧ ptx a = pdx va
        · rcases hshow with hold | hnot
          · rw [hself.1, hself.2, (h.old hold).1]
          · exact absurd ⟨hp, hself⟩ hnot
        · rw [not_and_or] at hself
          exact h.other _ _ (hq _ (pdx_lt a) hd hp) hself
      rw [walkEntry_table (hpde ▸ hp), walkEntry_table hp, hpde, hword]

end

section
variable {vm : Vm} {pd va pp perm : Nat}

lemma pgdirWalk_table (create : Bool) (hp : present (vm.mem pd (pdx va)))
    (hlt : ppn (vm.mem pd (pdx va)) < vm.npages) :
    pgdirWalk pd va create vm = some (some (ppn (vm.mem pd (pdx va)), ptx va), vm) := by
  simp only [pgdirWalk, hp, hlt, if_true]

lemma bootMapRegion_table (hp : present (vm.mem pd (pdx va))) (hlt : ppn (vm.mem pd (pdx va)) < vm.npages)
    (hva : va < 2 ^ 32) (hpp : pp < 2 ^ 20) : bootMapRegion pd va pgsize (pp * 4096) perm vm =
      some (vm.setWord (ppn (vm.mem pd (pdx va))) (ptx va) (entry pp (pteP ||| perm))) := by
  have hpa : (pp * 4096 + 0) % 2 ^ 32 = pp * 4096 := by omega
  have hva' : (va + 0) % 2 ^ 32 = va := by omega
  have hn : (pgsize + 4095) / 4096 = 1 := by decide
  unfold bootMapRegion
  rw [hn, bootMapLoop, hva', pgdirWalk_table true hp hlt]
  simp only [Option.bind_eq_bind, Option.bind_some, bootMapLoop, hpa, entry]

lemma ppRef_incref (h : vm.ppRef pp < 65535) (p : Nat) :
    (vm.incref pp).ppRef p = if p = pp then vm.ppRef pp + 1 else vm.ppRef p := by
  simp only [Vm.incref, Vm.setRef, update_apply, Nat.mod_eq_of_lt (show vm.ppRef pp + 1 < 65536 by omega)]

lemma oldPage_eq_some {p : Nat} : oldPage vm pd va = some p ↔ present (vm.mem pd (pdx va)) ∧
    target (vm.mem (ppn (vm.mem pd (pdx va))) (ptx va)) = some p := by
  unfold oldPage
  cases hp : present (vm.mem pd (pdx va)) with
  | false => simp [walkEntry_absent hp]
  | true =>
    rw [walkEntry_table hp, target_eq_some]
    split <;> simp_all

lemma clearEntry {l : List Nat} (hp : present (vm.mem pd (pdx va))) (hlt : ppn (vm.mem pd (pdx va)) < vm.npages)
    (hchain : Chain vm.ppLink vm.pageFreeList l) (hold : ∀ p, oldPage vm pd va = some p →
      p < vm.npages ∧ p ∉ l ∧ vm.ppLink p = none ∧ 0 < vm.ppRef p ∧ vm.ppRef p < 65536) :
    ∃ vm', (if present (vm.mem (ppn (vm.mem pd (pdx va))) (ptx va)) then pageRemove pd va vm else some vm) = some vm' ∧
      vm'.npages = vm.npages ∧
      (∀ p i, p ≠ ppn (vm.mem pd (pdx va)) ∨ i ≠ ptx va → vm'.mem p i = vm.mem p i) ∧
      (∀ p, vm'.ppRef p = if oldPage vm pd va = some p then vm.ppRef p - 1 else vm.ppRef p) ∧
      Chain vm'.ppLink vm'.pageFreeList (match oldPage vm pd va with
        | some p => if vm.ppRef p = 1 then p :: l else l
        | none => l) := by
  cases ho : oldPage vm pd va with
  | some p =>
    obtain ⟨hpte, hppn⟩ := target_eq_some.mp (oldPage_eq_some.mp ho).2
    obtain ⟨hplt, hnot, hlink, h0, h1⟩ := hold p ho
    obtain ⟨link, head, l', hdec, -, hfree, hl'⟩ := pageDecref_unlinked hchain hnot hlink
    have hr : (vm.ppRef p + 65535) % 65536 = vm.ppRef p - 1 := by omega
    have hlast : vm.ppRef p - 1 = 0 ↔ vm.ppRef p = 1 := by omega
    simp only [hr, hlast] at hdec hl'
    rw [hl'] at hfree
    have hlook := pageLookup_table hp hlt
    rw [hppn, if_pos hplt] at hlook
    rw [if_pos hpte, pageRemove_of_lookup hlook, hdec]
    refine ⟨_, rfl, rfl, fun q i hne => if_neg fun h => hne.elim (· h.1) (· h.2), fun q => ?_, hfree⟩
    simp only [Vm.setWord, update_apply, Option.some.injEq, eq_comm (a := q)]
    split <;> simp_all
  | none =>
    have hpte : ¬ present (vm.mem (ppn (vm.mem pd (pdx va))) (ptx va)) := by
      intro hpte
      rw [oldPage_eq_some.mpr ⟨hp, target_eq_some.mpr ⟨hpte, rfl⟩⟩] at ho
      cases ho
    rw [if_neg hpte]
    exact ⟨vm, rfl, rfl, fun _ _ _ => rfl, fun p => rfl, hchain⟩

end

section
variable {vm : Vm} {pd va pp perm : Nat} {l : List Nat} (h : DirOk vm pd l) (hpp : pp < vm.npages) (hnot : pp ∉ l)
  (href : vm.ppRef pp < 65535) (hva : va < utop) (hperm : perm < 4096)
include h hpp href hva in
lemma pageInsert_table (hp : present (vm.mem pd (pdx va))) :
    ∃ vm', pageInsert pd pp va perm vm = some (0, vm') ∧
      Written vm pd va (ppn (vm.mem pd (pdx va))) (entry pp (pteP ||| perm)) vm' ∧
      (∀ p, vm'.ppRef p = if oldPage vm pd va = some p then (vm.incref pp).ppRef p - 1 else (vm.incref pp).ppRef p) ∧
      Chain vm'.ppLink vm'.pageFreeList (match oldPage vm pd va with
        | some p => if (vm.incref pp).ppRef p = 1 then p :: l else l
        | none => l) := by
  obtain ⟨hlt, htable⟩ := h.table _ (pdx_lt va) hp
  obtain ⟨hself, -⟩ := h.user _ (pdx_lt_npdeUser hva) hp
  have hold : ∀ p, oldPage (vm.incref pp) pd va = some p → p < vm.npages ∧ p ∉ l ∧ vm.ppLink p = none ∧
      0 < (vm.incref pp).ppRef p ∧ (vm.incref pp).ppRef p < 65536 := by
    intro p hold
    obtain ⟨w, hw, rfl⟩ := Option.map_eq_some_iff.mp (show oldPage vm pd va = some p from hold)
    obtain ⟨h1, h2, h3, h4⟩ := h.page va w hva hw
    refine ⟨h1, h2, h.unlinked _ h1 h2, ?_, ?_⟩ <;> rw [ppRef_incref href] <;> split <;> omega
  obtain ⟨vm1, hclear, hnp, hmem, hrefs, hfree⟩ := @clearEntry (vm.incref pp) pd va l hp hlt h.chain hold
  have hpde : vm1.mem pd (pdx va) = vm.mem pd (pdx va) := hmem _ _ (.inl (Ne.symm hself))
  have hva' : va < 2 ^ 32 := lt_trans hva (by decide)
  have hboot := @bootMapRegion_table vm1 pd va pp perm (hpde ▸ hp) (by rw [hpde, hnp]; exact hlt) hva'
    (lt_of_lt_of_le hpp h.size)
  rw [hpde] at hboot
  refine ⟨vm1.setWord (ppn (vm.mem pd (pdx va))) (ptx va) (entry pp (pteP ||| perm)), ?_, ?_, hrefs, hfree⟩
  · rw [pageInsert_of_walk (pgdirWalk_table true hp hlt), show (vm.incref pp).mem = vm.mem from rfl]
    rw [show (vm.incref pp).mem = vm.mem from rfl] at hclear
    rw [hclear, Option.bind_some, hboot]
    rfl
  · have hword : ∀ p i, p ≠ ppn (vm.mem pd (pdx va)) ∨ i ≠ ptx va →
        (vm1.setWord (ppn (vm.mem pd (pdx va))) (ptx va) (entry pp (pteP ||| perm))).mem p i = vm.mem p i := by
      intro p i hne
      have hm : vm1.mem p i = vm.mem p i := hmem p i hne
      simp only [Vm.setWord]
      rw [if_neg (fun heq => hne.elim (· heq.1) (· heq.2)), hm]
    have hdir := hword pd (pdx va) (.inl (Ne.symm hself))
    exact {
      dir := ⟨by rw [hdir]; exact hp, by rw [hdir]⟩
      here := if_pos ⟨rfl, rfl⟩
      old := fun _ => ⟨hdir, fun i hi => hword _ i (.inr hi)⟩
      new := fun habs => absurd hp (by simp [habs])
      other := fun p i hne _ => hword p i (.inl hne) }

include h hpp hva in
lemma pageInsert_new {q : Nat} {l' : List Nat} (hl : l = q :: l') (hp : present (vm.mem pd (pdx va)) = false) :
    ∃ vm', pageInsert pd pp va perm vm = some (0, vm') ∧
      Written vm pd va q (entry pp (pteP ||| perm)) vm' ∧
      vm'.mem pd (pdx va) = entry q (pteP ||| (pteW ||| pteU)) ∧
      vm'.ppRef = ((({ vm with ppRef := update vm.ppRef q 0 } : Vm).incref q).incref pp).ppRef ∧
      Chain vm'.ppLink vm'.pageFreeList l' := by
  subst hl
  have hq : q ≠ pd := fun heq => h.dir (heq ▸ List.mem_cons_self)
  have hhead : vm.pageFreeList = some q := h.chain.1
  -- the state once the table is there
  let vm1 : Vm := ((({ vm with
    pageFreeList := vm.ppLink q
    ppRef := update vm.ppRef q 0
    ppLink := update vm.ppLink q none } : Vm).setPage q fun _ => 0).setWord pd (pdx va)
      (entry q (pteP ||| (pteW ||| pteU)))).incref q
  have hwalk : pgdirWalk pd va true vm = some (some (q, ptx va), vm1) := by
    simp only [pgdirWalk, hp, Bool.false_eq_true, if_false, if_true, pageAlloc, hhead]
    rfl
  have hpde : vm1.mem pd (pdx va) = entry q (pteP ||| (pteW ||| pteU)) := if_pos ⟨rfl, rfl⟩
  have hzero : ∀ i, vm1.mem q i = 0 := by
    intro i
    change (if q = pd ∧ i = pdx va then _ else if q = q then 0 else _) = 0
    rw [if_neg fun heq => hq heq.1, if_pos rfl]
  have hother : ∀ p i, p ≠ q → p ≠ pd ∨ i ≠ pdx va → vm1.mem p i = vm.mem p i := by
    intro p i hne hor
    change (if p = pd ∧ i = pdx va then _ else if p = q then 0 else vm.mem p i) = vm.mem p i
    rw [if_neg fun heq => hor.elim (· heq.1) (· heq.2), if_neg hne]
  obtain ⟨hpres, hppn⟩ := entry_table q
  have hboot := @bootMapRegion_table (vm1.incref pp) pd va pp perm
    (show present (vm1.mem pd (pdx va)) by rw [hpde]; exact hpres)
    (show ppn (vm1.mem pd (pdx va)) < vm.npages by rw [hpde, hppn]; exact h.free q List.mem_cons_self)
    (lt_trans hva (by decide)) (lt_of_lt_of_le hpp h.size)
  rw [show (vm1.incref pp).mem pd (pdx va) = vm1.mem pd (pdx va) from rfl, hpde, hppn] at hboot
  have hword : ∀ p i, p ≠ q ∨ i ≠ ptx va →
      ((vm1.incref pp).setWord q (ptx va) (entry pp (pteP ||| perm))).mem p i = vm1.mem p i := by
    intro p i hne
    exact if_neg fun heq => hne.elim (· heq.1) (· heq.2)
  have hdir := (hword pd (pdx va) (.inl (Ne.symm hq))).trans hpde
  have hempty : present ((vm1.incref pp).mem q (ptx va)) = false := by
    rw [show (vm1.incref pp).mem q (ptx va) = 0 from hzero _]
    exact present_zero
  refine ⟨(vm1.incref pp).setWord q (ptx va) (entry pp (pteP ||| perm)), ?_, ?_, hdir, rfl, ?_⟩
  · rw [pageInsert_of_walk hwalk, hempty]
    simp only [Bool.false_eq_true, if_false, Option.bind_some, hboot, Option.map_some]
  · exact {
      dir := ⟨by rw [hdir]; exact hpres, by rw [hdir]; exact hppn⟩
      here := if_pos ⟨rfl, rfl⟩
      old := fun hpos => absurd hpos (by simp [hp])
      new := fun _ i hi => (hword q i (.inr hi)).trans (hzero i)
      other := fun p i hne hor => (hword p i (.inl hne)).trans (hother p i hne hor) }
  · have hchain := h.chain
    rw [hhead] at hchain
    exact hchain.pop

include h hva in
lemma DirOk.old_ref {p : Nat} (hold : oldPage vm pd va = some p) : 0 < vm.ppRef p := by
  obtain ⟨w, hw, rfl⟩ := Option.map_eq_some_iff.mp hold
  exact (h.page va w hva hw).2.2.1

include h hpp href hva hperm in
lemma mappedAt_table (hp : present (vm.mem pd (pdx va))) :
    ∃ vm', pageInsert pd pp va perm vm = some (0, vm') ∧ MappedAt vm pd pp va perm l vm' := by
  obtain ⟨vm', hrun, hw, hrefs, hfree⟩ := @pageInsert_table vm pd va pp perm l h hpp href hva hp
  obtain ⟨hself, hprivate⟩ := h.user _ (pdx_lt_npdeUser hva) hp
  have htaken : takenTable vm pd va l = none := if_pos hp
  have hva' : va < 2 ^ 32 := lt_trans hva (by decide)
  refine ⟨vm', hrun, ?_⟩
  exact {
    here := hw.mapped rfl hperm
    others := fun a ha hne _ => hw.walk_other hself hprivate (pgnum_ne ha hva' hne) (.inl hp)
    shown := fun a q _ hq => nomatch htaken.symm.trans hq
    pp_ref := by
      rw [hrefs, ppRef_incref href, if_pos rfl]
      split <;> rfl
    lost := by
      intro p hne hold
      have hpos := h.old_ref hva hold
      rw [hrefs, if_pos hold, ppRef_incref href, if_neg hne]
      omega
    kept := by
      intro p hne hold _
      rw [hrefs, if_neg hold, ppRef_incref href, if_neg hne]
    free := by
      unfold freeAfter
      rw [htaken]
      cases hold : oldPage vm pd va with
      | none =>
        rw [hold] at hfree
        exact hfree
      | some p =>
        have hpos := h.old_ref hva hold
        rw [hold] at hfree
        dsimp only at hfree ⊢
        rw [ppRef_incref href] at hfree
        by_cases heq : p = pp
        · rw [if_neg (fun hc => hc.1 heq)]
          rw [if_pos heq, if_neg (by rw [← heq]; omega)] at hfree
          exact hfree
        · rw [if_neg heq] at hfree
          simpa only [heq, ne_eq, not_false_eq_true, true_and] using hfree
    new := fun q hq => nomatch htaken.symm.trans hq }

include h hpp hnot href hva hperm in
lemma mappedAt_new (hl : l ≠ []) (hp : present (vm.mem pd (pdx va)) = false) :
    ∃ vm', pageInsert pd pp va perm vm = some (0, vm') ∧ MappedAt vm pd pp va perm l vm' := by
  obtain ⟨q, l', rfl⟩ := List.exists_cons_of_ne_nil hl
  obtain ⟨vm', hrun, hw, hdir, hrefs, hfree⟩ := @pageInsert_new vm pd va pp perm (q :: l') h hpp hva q l' rfl hp
  have hq : q ≠ pd := fun heq => h.dir (heq ▸ List.mem_cons_self)
  have hqp : pp ≠ q := fun heq => hnot (heq ▸ List.mem_cons_self)
  have htaken : takenTable vm pd va (q :: l') = some q := by
    unfold takenTable
    rw [hp]
    rfl
  have hold : oldPage vm pd va = none := by
    unfold oldPage
    rw [walkEntry_absent hp]
    rfl
  have hva' : va < 2 ^ 32 := lt_trans hva (by decide)
  have href' : ∀ p, vm'.ppRef p = if p = pp then vm.ppRef pp + 1 else if p = q then 1 else vm.ppRef p := by
    intro p
    have hone : ∀ x, (({ vm with ppRef := update vm.ppRef q 0 } : Vm).incref q).ppRef x =
        if x = q then 1 else vm.ppRef x := by
      intro x
      simp only [Vm.incref, Vm.setRef, update_self, update_idem, update_apply]
    rw [hrefs, ppRef_incref (by rw [hone, if_neg hqp]; exact href), hone, hone, if_neg hqp]
  have hprivate : ∀ d, d < 1024 → d ≠ pdx va → present (vm.mem pd d) → ppn (vm.mem pd d) ≠ q :=
    fun d hd _ hpd heq => (h.table d hd hpd).2 (heq ▸ List.mem_cons_self)
  refine ⟨vm', hrun, ?_⟩
  exact {
    here := hw.mapped rfl hperm
    others := fun a ha hne hshow => hw.walk_other hq hprivate (pgnum_ne ha hva' hne)
      (.inr (hshow.resolve_left (by simp [htaken])))
    shown := by
      intro a q' _ hq' hshow
      cases htaken.symm.trans hq'
      have hne : pdx a ≠ pdx va := fun heq => by simp [← heq, hshow.1] at hp
      have hpde : vm'.mem pd (pdx a) = vm.mem pd (pdx a) := hw.other pd _ (Ne.symm hq) (.inr hne)
      rw [walkEntry_table (hpde ▸ hshow.1), hpde, hshow.2.1, hshow.2.2, hdir, if_pos (entry_table q).1]
    pp_ref := by rw [href', if_pos rfl, hold, if_neg (by simp)]
    lost := by simp [hold]
    kept := by
      intro p hne _ hq'
      have hpq : p ≠ q := by
        rintro rfl
        exact hq' htaken
      rw [href', if_neg hne, if_neg hpq]
    free := by
      unfold freeAfter
      rw [htaken]
      exact hfree
    new := by
      intro q' hq'
      cases htaken.symm.trans hq'
      exact ⟨hdir, by rw [href', if_neg (Ne.symm hqp), if_pos rfl], hw.new hp⟩ }

include h hpp hnot href hva hperm in
/-- `page_insert` fails exactly when the page table is missing and no page is free, and then
changes nothing; otherwise it maps `pp` at `va` and changes nothing else. -/
theorem page_insert_exact :
    (present (vm.mem pd (pdx va)) = false ∧ l = [] → pageInsert pd pp va perm vm = some (-eNoMem, vm)) ∧
      (¬ (present (vm.mem pd (pdx va)) = false ∧ l = []) →
        ∃ vm', pageInsert pd pp va perm vm = some (0, vm') ∧ MappedAt vm pd pp va perm l vm') := by
  constructor
  · rintro ⟨hp, rfl⟩
    have hnone : vm.pageFreeList = none := h.chain
    simp only [pageInsert, pgdirWalk, hp, Bool.false_eq_true, if_false, if_true, pageAlloc, hnone]
  · intro hroom
    cases hp : present (vm.mem pd (pdx va)) with
    | true => exact mappedAt_table h hpp href hva hperm hp
    | false => exact mappedAt_new h hpp hnot href hva hperm (fun hnil => hroom ⟨hp, hnil⟩) hp

end

lemma smallVm_absent {d : Nat} (hd : d ≠ pdx uvpt) : present (smallVm.mem 1 d) = false := by
  simp [smallVm, hd]

lemma smallVm_dirOk : DirOk smallVm 1 (List.range' 2 14) := by
  have hself : ppn (smallVm.mem 1 (pdx uvpt)) = 1 := by decide
  have huser : ∀ d, d < npdeUser → present (smallVm.mem 1 d) = false := by
    intro d hd
    refine smallVm_absent fun heq => ?_
    exact absurd (heq ▸ hd) (by decide)
  refine ⟨by decide, smallKernel_booted.chain, fun p hp => (smallKernel_booted.free_page p hp).1,
    smallKernel_booted.unlinked, by decide, fun d _ hp => ?_, fun d hd hp => ?_, fun va w hva hw => ?_⟩
  · by_cases hd : d = pdx uvpt
    · rw [hd, hself]
      decide
    · exact absurd hp (by simp [smallVm_absent hd])
  · exact absurd hp (by simp [huser d hd])
  · rw [walkEntry_absent (huser _ (pdx_lt_npdeUser hva))] at hw
    cases hw

theorem page_insert_small : ∃ vm', pageInsert 1 0 0x400000 (pteU ||| pteW) smallVm = some (0, vm') ∧
    MappedAt smallVm 1 0 0x400000 (pteU ||| pteW) (List.range' 2 14) vm' :=
  (page_insert_exact smallVm_dirOk (by decide) (by decide) (by decide) (by decide) (by decide)).2
    fun h => absurd h.2 (by decide)

/-- The window at `UVPT` shows the page table that `page_insert` has added. -/
theorem window_shows_new_table : ∃ vm', DirOk smallVm 1 (List.range' 2 14) ∧
    pageInsert 1 0 0x400000 (pteU ||| pteW) smallVm = some (0, vm') ∧ pgnum (uvpt + 4096) ≠ pgnum 0x400000 ∧
    walkEntry 1 (uvpt + 4096) smallVm = none ∧
    walkEntry 1 (uvpt + 4096) vm' = some (entry 2 (pteP ||| (pteW ||| pteU))) := by
  have htest : ((pageInsert 1 0 0x400000 (pteU ||| pteW) smallVm).any fun out => out.1 == 0 &&
      walkEntry 1 (uvpt + 4096) out.2 == some (entry 2 (pteP ||| (pteW ||| pteU)))) = true := by decide +kernel
  obtain ⟨⟨r, vm'⟩, hrun, hout⟩ := (Option.any_eq_true _ _).mp htest
  simp only [Bool.and_eq_true, beq_iff_eq] at hout
  refine ⟨vm', smallVm_dirOk, ?_, by decide, by decide, hout.2⟩
  rw [hrun, hout.1]

end Jos
