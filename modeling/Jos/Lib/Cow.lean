import Jos.Lib.Fork

/-!
# Copy-on-write

The environments that descend from one by `fork`, with their page tables and the pages in them.
Between two calls of `duppage` any of them can write. What `duppage` itself pushes on the stack
between its system calls is left out.
-/

namespace Jos.Fork
open Bits Function

/-- The entries of every environment, by page number, and the bytes of every physical page. -/
structure Family where
  uvpt : Nat × Nat → Nat
  bytes : Nat → Nat → Nat

inductive Event where
  | write (e a v : Nat)
  | dup (e c pn : Nat)

abbrev Memories := Nat × Nat → Option (Nat → Nat)

/-- What an event is meant to do: a write changes one memory, and a child gets the page of its parent as it is. -/
def Event.apply (m : Memories) : Event → Memories
  | .write e a v => update m (e, a / pgsize) ((m (e, a / pgsize)).map fun b => update b (a % pgsize) v)
  | .dup e c pn => update m (c, pn) (m (e, pn))

namespace Family

def setPte (c : Nat × Nat) (w : Nat) (s : Family) : Family := { s with uvpt := update s.uvpt c w }

def setPage (p : Nat) (b : Nat → Nat) (s : Family) : Family := { s with bytes := update s.bytes p b }

/-- `pgfault` for a write to page `pn`, where `sys_page_alloc` hands out the page `q`. -/
def pgfault (e pn q : Nat) (s : Family) : Option Family :=
  if flag (s.uvpt (e, pn)) pteCow = false then none
  else
    let s := s.setPte (e, tempPn) (mapped (entry q 0) (pteP ||| pteU ||| pteW))
    let s := s.setPage (ppn (s.uvpt (e, tempPn))) (s.bytes (ppn (s.uvpt (e, pn))))
    let s := s.setPte (e, pn) (mapped (s.uvpt (e, tempPn)) (pteP ||| pteU ||| pteW))
    some (s.setPte (e, tempPn) 0)

def store (e a v : Nat) (s : Family) : Family :=
  let p := ppn (s.uvpt (e, a / pgsize))
  s.setPage p (update (s.bytes p) (a % pgsize) v)

/-- The program writes a byte. If that faults, it writes again when the handler has returned. -/
def write (e a v q : Nat) (s : Family) : Option Family :=
  if writable (s.uvpt (e, a / pgsize)) then some (s.store e a v)
  else (s.pgfault e (a / pgsize) q).map (store e a v)

/-- `duppage` as one step. -/
def dup (e c pn : Nat) (s : Family) : Family :=
  (s.setPte (e, pn) (dupSelf (s.uvpt (e, pn)))).setPte (c, pn) (dupChild (s.uvpt (e, pn)))

/-- The step is what `duppage` makes of the tables of the two, if the parent writes nothing meanwhile. -/
lemma dup_duppage {s : Family} {e c pn : Nat} (hne : e ≠ c) {sched : Schedule} {f f' : Forking}
    (hself : ∀ p, f.parent.uvpt p = s.uvpt (e, p)) (hchild : ∀ p, f.child p = s.uvpt (c, p))
    (hw : ∀ i, sched.writes (.page pn i) = []) (h : sched.duppage pn f = some f') (p : Nat) :
    f'.parent.uvpt p = (s.dup e c pn).uvpt (e, p) ∧ f'.child p = (s.dup e c pn).uvpt (c, p) := by
  obtain ⟨hparent, hkid⟩ := duppage_alone hw h
  rw [hparent, hkid, hself pn]
  by_cases hp : p = pn
  · subst hp
    simp [dup, setPte, hne]
  · simp [dup, setPte, hne, hp, hself, hchild]

/-- No environment has the page `q` mapped. -/
def Fresh (s : Family) (q : Nat) : Prop := ∀ c, isUser (s.uvpt c) → ppn (s.uvpt c) ≠ q

inductive Run (s0 : Family) : List Event → Family → Prop where
  | nil : Run s0 [] s0
  | write {l : List Event} {s s' : Family} {e a v q : Nat} (hrun : Run s0 l s) (huser : isUser (s.uvpt (e, a / pgsize)))
      (hq : s.Fresh q) (h : s.write e a v q = some s') : Run s0 (l ++ [.write e a v]) s'
  | dup {l : List Event} {s : Family} {e c pn : Nat} (hrun : Run s0 l s) (huser : isUser (s.uvpt (e, pn))) :
      Run s0 (l ++ [.dup e c pn]) (s.dup e c pn)

def pages (s : Family) : Memories := fun c => if isUser (s.uvpt c) then some (s.bytes (ppn (s.uvpt c))) else none

/-- A page that can be written is in one place only. -/
structure Sole (s : Family) : Prop where
  sole : ∀ c d, isUser (s.uvpt c) → writable (s.uvpt c) → isUser (s.uvpt d) → ppn (s.uvpt d) = ppn (s.uvpt c) → d = c
  temp : ∀ e, s.uvpt (e, tempPn) = 0

/-- The entry `x` shows the page of `w` and does not let it be written. -/
structure Copied (w x : Nat) : Prop where
  user : isUser x
  fixed : writable x = false
  ppn : ppn x = ppn w

section
variable {w perm : Nat}

lemma user_mapped (w : Nat) (hu : flag perm pteU) : isUser (mapped w perm) := by
  rw [isUser, mapped, present_entry, flag_entry (by decide), flag_or, hu, Bool.or_true, Bool.and_true]

lemma copied_mapped (hlt : perm < 4096) (hu : flag perm pteU) (hw : writable perm = false) : Copied w (mapped w perm) :=
  ⟨user_mapped _ hu, (writable_entry _ _).trans hw, ppn_entry (or_pteP_lt hlt) _⟩

lemma copied_dup (huser : isUser w) : Copied w (dupSelf w) ∧ Copied w (dupChild w) := by
  have hcopied : Copied w (mapped w (pteU ||| pteP ||| pteCow)) := copied_mapped (by decide) (by decide) (by decide)
  unfold dupSelf dupChild
  cases hcow : isCow w with
  | true => exact ⟨hcopied, hcopied⟩
  | false =>
    have hfixed : writable w = false := (Bool.or_eq_false_iff.mp hcow).1
    refine ⟨⟨huser, hfixed, rfl⟩, ?_⟩
    rw [if_neg Bool.false_ne_true]
    split
    · refine copied_mapped (lt_of_le_of_lt Nat.and_le_right (by decide)) ?_ ?_
      · rw [flag_and]
        exact (Bool.and_eq_true_iff.1 huser).2
      · rw [writable, flag_and]
        exact hfixed
    · exact copied_mapped (by decide) (by decide) (by decide)

end

section
variable {s s' : Family} {e a v q pn x : Nat} {c d : Nat × Nat}

lemma pages_setPte (s : Family) (c : Nat × Nat) (x : Nat) :
    (s.setPte c x).pages = update s.pages c (if isUser x then some (s.bytes (ppn x)) else none) := by
  funext d
  by_cases hd : d = c <;> simp [pages, setPte, hd]

lemma pages_setPage {b : Nat → Nat} (h : isUser (s.uvpt c) → ppn (s.uvpt c) ≠ q) :
    (s.setPage q b).pages c = s.pages c := by
  simp only [pages, setPage, update_apply]
  split_ifs with huser hp
  · exact absurd hp (h huser)
  all_goals rfl

variable (hs : Sole s)
include hs

lemma Sole.ne_temp (huser : isUser (s.uvpt (e, pn))) : pn ≠ tempPn := by
  rintro rfl
  rw [hs.temp] at huser
  cases huser

lemma Sole.setPte (htemp : pn ≠ tempPn) (hx : ∀ d, d ≠ (e, pn) → isUser (s.uvpt d) → ppn (s.uvpt d) = ppn x →
    writable x = false ∧ writable (s.uvpt d) = false) : Sole (s.setPte (e, pn) x) := by
  refine ⟨fun c d => ?_, fun e' => (update_of_ne (fun h => htemp (Prod.mk.inj h).2.symm) _ _).trans (hs.temp e')⟩
  simp only [Family.setPte, update_apply]
  split_ifs with hc hd hd
  · exact fun _ _ _ _ => hd.trans hc.symm
  · exact fun _ hw hu hp => absurd hw (by simp [(hx d hd hu hp).1])
  · exact fun hu hw _ hp => absurd hw (by simp [(hx c hc hu hp.symm).2])
  · exact hs.sole c d

/-- The page at `d` appears at `(e, pn)` too, and can be written in neither place. -/
lemma Sole.share (htemp : pn ≠ tempPn) (huser : isUser (s.uvpt d)) (hx : Copied (s.uvpt d) x)
    (hd : d = (e, pn) ∨ writable (s.uvpt d) = false) :
    Sole (s.setPte (e, pn) x) ∧ (s.setPte (e, pn) x).pages = update s.pages (e, pn) (s.pages d) := by
  refine ⟨hs.setPte htemp fun c hc hu hp => ⟨hx.fixed, Bool.eq_false_iff.mpr fun hw => ?_⟩, ?_⟩
  · obtain rfl := hs.sole c d hu hw huser (hx.ppn.symm.trans hp.symm)
    rcases hd with rfl | hd
    · exact hc rfl
    · exact absurd hw (by simp [hd])
  · rw [pages_setPte, if_pos hx.user, hx.ppn, pages, if_pos huser]

lemma Sole.dup (huser : isUser (s.uvpt (e, pn))) (c : Nat) :
    Sole (s.dup e c pn) ∧ (s.dup e c pn).pages = (Event.dup e c pn).apply s.pages := by
  obtain ⟨hself, hchild⟩ := copied_dup huser
  obtain ⟨hs1, hpages⟩ := hs.share (hs.ne_temp huser) huser hself (.inl rfl)
  have hnew : (s.setPte (e, pn) (dupSelf (s.uvpt (e, pn)))).uvpt (e, pn) = dupSelf (s.uvpt (e, pn)) := update_self ..
  rw [update_eq_self] at hpages
  rw [Event.apply, ← hpages]
  refine hs1.share (hs.ne_temp huser) ?_ ⟨hchild.user, hchild.fixed, ?_⟩ (.inr ?_) <;> rw [hnew]
  · exact hself.user
  · exact hchild.ppn.trans hself.ppn.symm
  · exact hself.fixed

lemma Sole.store (huser : isUser (s.uvpt (e, a / pgsize))) (hw : writable (s.uvpt (e, a / pgsize))) :
    Sole (s.store e a v) ∧ (s.store e a v).pages = (Event.write e a v).apply s.pages := by
  refine ⟨⟨hs.sole, hs.temp⟩, funext fun c => ?_⟩
  by_cases hc : c = (e, a / pgsize)
  · simp [Event.apply, pages, Family.store, setPage, huser, hc]
  · rw [Event.apply, update_of_ne hc]
    exact pages_setPage fun hu hp => hc (hs.sole _ _ huser hw hu hp)

lemma Sole.pgfault (huser : isUser (s.uvpt (e, pn))) (hq : s.Fresh q) (h : s.pgfault e pn q = some s') :
    Sole s' ∧ s'.pages = s.pages ∧ isUser (s'.uvpt (e, pn)) ∧ writable (s'.uvpt (e, pn)) := by
  unfold Family.pgfault at h
  split at h
  · cases h
  have htemp := hs.ne_temp huser
  have hne : (e, pn) ≠ (e, tempPn) := fun h => htemp (Prod.mk.inj h).2
  have hppn : ∀ w, ppn (mapped w (pteP ||| pteU ||| pteW)) = ppn w := fun w => ppn_entry (by decide) _
  have hq0 : ppn (entry q 0) = q := ppn_entry (by decide) q
  have hback : update s.uvpt (e, tempPn) 0 = s.uvpt := by rw [update_eq_self_iff, hs.temp]
  obtain ⟨w, hw, rfl⟩ : ∃ w, ppn w = q ∧ s' = (s.setPage q (s.bytes (ppn (s.uvpt (e, pn))))).setPte (e, pn)
      (mapped w (pteP ||| pteU ||| pteW)) := ⟨mapped (entry q 0) (pteP ||| pteU ||| pteW), (hppn _).trans hq0, by
    simpa [Family.setPte, setPage, htemp, hppn, hq0, update_comm hne, hback] using h.symm⟩
  have hx : isUser (mapped w (pteP ||| pteU ||| pteW)) := user_mapped w (by decide)
  have hs1 : Sole (s.setPage q (s.bytes (ppn (s.uvpt (e, pn))))) := ⟨hs.sole, hs.temp⟩
  refine ⟨hs1.setPte htemp fun d _ hu hp => absurd (hp.trans ((hppn w).trans hw)) (hq d hu), ?_, ?_, ?_⟩
  · rw [pages_setPte, if_pos hx, hppn, hw, show (setPage q _ s).pages = s.pages from funext fun c => pages_setPage (hq c),
      update_eq_self_iff]
    simp [setPage, pages, huser]
  · exact (congrArg isUser (update_self ..)).trans hx
  · exact (congrArg writable (update_self ..)).trans ((writable_entry _ _).trans (by decide))

lemma Sole.write (huser : isUser (s.uvpt (e, a / pgsize))) (hq : s.Fresh q) (h : s.write e a v q = some s') :
    Sole s' ∧ s'.pages = (Event.write e a v).apply s.pages := by
  unfold Family.write at h
  split at h
  · cases h
    exact hs.store huser ‹_›
  · obtain ⟨s1, hfault, rfl⟩ := Option.map_eq_some_iff.mp h
    obtain ⟨hs1, hpages, huser1, hw1⟩ := hs.pgfault huser hq hfault
    exact hpages ▸ hs1.store huser1 hw1

end

/-- Each environment has in its memory what it wrote, or else what its parent had when the page was copied. -/
theorem fork_isolates {s0 s : Family} {l : List Event} (h0 : Sole s0) (hrun : Run s0 l s) :
    s.pages = l.foldl Event.apply s0.pages := by
  have hkept : Sole s ∧ s.pages = l.foldl Event.apply s0.pages := by
    induction hrun with
    | nil => exact ⟨h0, rfl⟩
    | write _ huser hq h ih =>
      rw [List.foldl_append, ← ih.2]
      exact ih.1.write huser hq h
    | dup _ huser ih =>
      rw [List.foldl_append, ← ih.2]
      exact ih.1.dup huser _
  exact hkept.2

/-- One environment with one page. -/
def firstPage : Family := ⟨fun c => if c = (0, 0) then mapped (entry 5 0) (pteP ||| pteU ||| pteW) else 0, fun _ _ => 0⟩

/-- After the `duppage` the parent writes a byte, which copies its page; the child has the old one. -/
theorem fork_isolates_child : ∃ s, Run firstPage [.dup 0 1 0, .write 0 3 7] s ∧
    s.pages (1, 0) = firstPage.pages (0, 0) ∧ s.pages (0, 0) = some (update (fun _ => 0) 3 7) := by
  have honly : ∀ c, isUser (firstPage.uvpt c) → c = (0, 0) := by
    intro c hc
    by_contra hne
    simp only [firstPage, if_neg hne] at hc
    cases hc
  have h0 : Sole firstPage := ⟨fun c d hc _ hd _ => (honly d hd).trans (honly c hc).symm, fun e => if_neg fun h => by
    cases (Prod.mk.inj h).2⟩
  have hdup : Run firstPage [.dup 0 1 0] (firstPage.dup 0 1 0) := .dup (c := 1) .nil (by decide)
  have hfresh : (firstPage.dup 0 1 0).Fresh 8 := by
    intro c hc
    by_cases h1 : c = (1, 0)
    · subst h1
      decide
    · by_cases h2 : c = (0, 0)
      · subst h2
        decide
      · simp only [dup, setPte, update_of_ne h1, update_of_ne h2] at hc
        exact absurd (honly c hc) h2
  have hrun : Run firstPage [.dup 0 1 0, .write 0 3 7] _ := .write hdup (by decide) hfresh rfl
  refine ⟨_, hrun, ?_, ?_⟩ <;> rw [fork_isolates h0 hrun] <;> rfl

end Family
end Jos.Fork
