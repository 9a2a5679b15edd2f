import Jos.Kern.AddressSpace

/-!
# The kernel's program loader

`load_icode` maps new pages under each segment, clears the segment and copies the file's
part of it. The segments share no page, so what one turn of the loop has written is still
there at the end.
-/

namespace Jos

variable {e : Nat} {fl l : List Nat} {k : Kernel}

def field (image : List Nat) (off n : Nat) : Nat := ofBytes ((image.drop off).take n)

def proghdr (image : List Nat) (off : Nat) : Proghdr where
  pType := field image off 4
  pOffset := field image (off + 4) 4
  pVa := field image (off + 8) 4
  pFilesz := field image (off + 16) 4
  pMemsz := field image (off + 20) 4

def ePhoff (image : List Nat) : Nat := field image 28 4
def ePhnum (image : List Nat) : Nat := field image 44 2

def headers (image : List Nat) : List Nat := (List.range (ePhnum image)).map fun i => ePhoff image + 32 * i

/-- The image as `load_icode` reads it. -/
def elfOf (image : List Nat) : Elf where
  eMagic := field image 0 4
  eEntry := field image 24 4
  ph := (headers image).map (proghdr image)
  image := image

def Proghdr.Touches (ph : Proghdr) (a : Nat) : Prop := rounddown ph.pVa ≤ a ∧ a < roundup (ph.pVa + ph.pMemsz)

def Proghdr.pages (ph : Proghdr) : Nat := (roundup (ph.pVa + ph.pMemsz) - rounddown ph.pVa) / 4096

def PagesApart (ph ph' : Proghdr) : Prop := ∀ a, ¬ (ph.Touches a ∧ ph'.Touches a)

def segmentByte (image : List Nat) (ph : Proghdr) (j : Nat) : Nat :=
  if j < ph.pFilesz then image.getD (ph.pOffset + j) 0 else 0

structure Loads (image : List Nat) (ph : Proghdr) : Prop where
  below : ph.pVa + ph.pMemsz ≤ ustacktop - pgsize
  filesz : ph.pFilesz ≤ ph.pMemsz
  inside : ph.pOffset + ph.pFilesz ≤ image.length

def Holds (image : List Nat) (pd : Nat) (vm : Vm) (ph : Proghdr) : Prop :=
  ∀ j < ph.pMemsz, loadByte pd (ph.pVa + j) vm = some (segmentByte image ph j)

def InSegments (e : Nat) (phs : List Proghdr) (k : Slot) : Prop := ∃ ph ∈ phs, ∃ a, ph.Touches a ∧ k = pteSlot e a

section
variable {image : List Nat} {ph : Proghdr} {phs : List Proghdr}

lemma Loads.lt_utop (h : Loads image ph) {a : Nat} (ha : ph.Touches a) : a < utop := by
  have := h.below
  obtain ⟨-, ha⟩ := ha
  unfold ustacktop utop pgsize at *
  unfold roundup rounddown at ha
  omega

lemma Loads.touches (h : Loads image ph) {j : Nat} (hj : j < ph.pMemsz) : ph.Touches (ph.pVa + j) := by
  have := h.below
  unfold ustacktop utop pgsize at *
  unfold Proghdr.Touches roundup rounddown
  omega

lemma Loads.stop_eq (h : Loads image ph) : roundup ((ph.pVa + ph.pMemsz) % 2 ^ 32) = roundup (ph.pVa + ph.pMemsz) ∧
    roundup (ph.pVa + ph.pMemsz) = rounddown ph.pVa + ph.pages * 4096 := by
  have := h.below
  unfold ustacktop utop pgsize at *
  unfold Proghdr.pages roundup rounddown
  omega

lemma Holds.keep {sp : Spaces} {R : Slot → Prop} {vm vm' : Vm} {pd : Nat} (h : Holds image pd vm ph)
    (hl : Loads image ph) (hs : sp e = some pd) (he : e < nenv) (ho : OnlyAt sp (fun k => InSegments e phs k ∨ R k) vm vm')
    (hR : ∀ k, R k → k.env ≠ e) (hloads : ∀ ph' ∈ phs, Loads image ph') (hapart : ∀ ph' ∈ phs, PagesApart ph ph') :
    Holds image pd vm' ph := by
  intro j hj
  have htouch := hl.touches hj
  have hlt := hl.lt_utop htouch
  rw [ho.loadByte_eq hs (pteSlot_mem he hlt), h j hj]
  rintro (⟨ph', hph', a, ha, heq⟩ | hRk)
  · -- the two addresses are in one page, so the other segment touches this page too
    have halt := (hloads ph' hph').lt_utop ha
    have hpage := ((pteSlot_eq_iff halt hlt).mp heq).2
    refine hapart ph' hph' (ph.pVa + j) ⟨htouch, ?_⟩
    have := (hloads ph' hph').below
    unfold Proghdr.Touches at ha ⊢
    unfold ustacktop utop pgsize at *
    unfold roundup rounddown at *
    omega
  · exact hR _ hRk rfl

end

section
variable {image : List Nat} {ph : Proghdr} {sp : Spaces} {e pd : Nat} {vm : Vm} {l : List Nat}

lemma Paged.loadSegment (h : Paged vm sp l) (hs : sp e = some pd) (hload : ph.pType = elfProgLoad) (hl : Loads image ph)
    (hbytes : ∀ b ∈ image, b < 256) : (Jos.loadSegment pd image ph vm = none ∧ l.length < 2 * ph.pages) ∨
    ∃ vm' l', Jos.loadSegment pd image ph vm = some vm' ∧ Paged vm' sp l' ∧ l.length ≤ l'.length + 2 * ph.pages ∧
      OnlyAt sp (InSegments e [ph]) vm vm' ∧ Holds image pd vm' ph := by
  obtain ⟨hstop, hpages⟩ := hl.stop_eq
  have hbelow := hl.below
  have hsmall : ustacktop - pgsize ≤ utop := by decide
  have hregion : regionAlloc pd ph.pVa ph.pMemsz vm = Jos.regionLoop pd ph.pages (rounddown ph.pVa) vm := by
    simp only [regionAlloc, hstop, Proghdr.pages]
  have hrange : ∀ {lo hi : Nat} (k : Slot), rounddown ph.pVa ≤ lo → hi ≤ roundup (ph.pVa + ph.pMemsz) →
      InRange e lo hi k → InSegments e [ph] k := by
    rintro lo hi k hlo hhi ⟨a, hla, hha, rfl⟩
    exact ⟨ph, List.mem_singleton_self ph, a, ⟨hlo.trans hla, hha.trans_le hhi⟩, rfl⟩
  have hfirst : rounddown ph.pVa ≤ ph.pVa := Nat.sub_le _ _
  have hlast : ph.pVa + ph.pMemsz ≤ roundup (ph.pVa + ph.pMemsz) := by
    clear hpages hstop hregion hrange
    unfold ustacktop utop pgsize at *
    unfold roundup rounddown
    omega
  have haligned : rounddown ph.pVa % 4096 = 0 := by
    unfold rounddown
    omega
  have hend : rounddown ph.pVa + ph.pages * 4096 ≤ utop := by
    rw [← hpages]
    unfold ustacktop utop pgsize at *
    unfold roundup rounddown
    omega
  rw [Jos.loadSegment, if_pos hload, hregion]
  rcases Paged.regionLoop hs ph.pages h haligned hend with ⟨hnone, hfew⟩ | ⟨vm1, l1, hloop, h1, hlen, honly1, hpriv⟩
  · rw [hnone]
    exact .inl ⟨rfl, hfew⟩
  have hown : ∀ a, ph.pVa ≤ a → a < ph.pVa + ph.pMemsz → ∃ p, Private vm1 sp e a p := by
    intro a hlo hhi
    exact hpriv a (hfirst.trans hlo) (hpages ▸ hhi.trans_le hlast)
  let zeros := List.replicate ph.pMemsz 0
  let bytes := (image.drop ph.pOffset).take ph.pFilesz
  have hzeros : zeros.length = ph.pMemsz := List.length_replicate
  have hlength : bytes.length = ph.pFilesz := by
    have := hl.inside
    simp only [bytes, List.length_take, List.length_drop]
    omega
  have hfilesz := hl.filesz
  obtain ⟨vm2, hclear, h2, hw2, honly2, hview2⟩ := Paged.storeBytes hs zeros h1 (show ph.pVa + zeros.length ≤ utop by omega)
    (fun b hb => by rw [List.eq_of_mem_replicate hb]; decide) (by rw [hzeros]; exact hown)
  obtain ⟨vm', hcopy, h', -, honly3, hview3⟩ := Paged.storeBytes hs bytes h2 (show ph.pVa + bytes.length ≤ utop by omega)
    (fun b hb => hbytes b (List.mem_of_mem_drop (List.mem_of_mem_take hb))) (by
      intro a hlo hhi
      obtain ⟨p, hp⟩ := hown a hlo (by omega)
      exact ⟨p, hp.of_words (pteSlot_mem (h.acc.space_lt e pd hs) (by omega)) hw2⟩)
  refine .inr ⟨vm', l1, ?_, h', hlen, ?_, fun j hj => ?_⟩
  · rw [hloop, Option.bind_eq_bind, Option.bind_some, hclear]
    exact hcopy
  · refine ((honly1.mono ?_).trans (honly2.mono ?_)).trans (honly3.mono ?_)
    · exact fun k => hrange k le_rfl (le_of_eq hpages.symm)
    · exact fun k => hrange k hfirst (by rw [hzeros]; exact hlast)
    · exact fun k => hrange k hfirst (by omega)
  · rw [hview3 _ (by omega), hview2 _ (by omega), hlength, hzeros, Nat.add_sub_cancel_left, segmentByte]
    by_cases hjf : j < ph.pFilesz
    · rw [if_pos (by omega), if_pos hjf, List.getElem?_take_of_lt hjf, List.getElem?_drop,
        List.getD_eq_getElem?_getD]
      have := hl.inside
      rw [List.getElem?_eq_getElem (by omega)]
      rfl
    · rw [if_neg (by omega), if_pos (by omega), if_neg hjf, List.getElem?_replicate, if_pos hj]

end

def loadable (phs : List Proghdr) : List Proghdr := phs.filter fun ph => ph.pType = elfProgLoad

def totalPages (phs : List Proghdr) : Nat := ((loadable phs).map Proghdr.pages).sum

section
variable {ph : Proghdr} {phs : List Proghdr}

lemma loadable_cons_pos (h : ph.pType = elfProgLoad) : loadable (ph :: phs) = ph :: loadable phs := by simp [loadable, h]

lemma loadable_cons_neg (h : ph.pType ≠ elfProgLoad) : loadable (ph :: phs) = loadable phs := by simp [loadable, h]

lemma totalPages_cons_pos (h : ph.pType = elfProgLoad) : totalPages (ph :: phs) = ph.pages + totalPages phs := by
  rw [totalPages, loadable_cons_pos h, List.map_cons, List.sum_cons, totalPages]

lemma totalPages_cons_neg (h : ph.pType ≠ elfProgLoad) : totalPages (ph :: phs) = totalPages phs := by
  rw [totalPages, loadable_cons_neg h, totalPages]

end

section
variable {image : List Nat} {sp : Spaces} {e pd : Nat}

lemma Paged.loadSegments (hs : sp e = some pd) (hbytes : ∀ b ∈ image, b < 256) (phs : List Proghdr) :
    ∀ {vm : Vm} {l : List Nat}, Paged vm sp l → (∀ ph ∈ loadable phs, Loads image ph) → (loadable phs).Pairwise PagesApart →
      (Jos.loadSegments pd image phs vm = none ∧ l.length < 2 * totalPages phs) ∨
      ∃ vm' l', Jos.loadSegments pd image phs vm = some vm' ∧ Paged vm' sp l' ∧ l.length ≤ l'.length + 2 * totalPages phs ∧
        OnlyAt sp (InSegments e (loadable phs)) vm vm' ∧ ∀ ph ∈ loadable phs, Holds image pd vm' ph := by
  induction phs with
  | nil =>
    intro vm l h _ _
    exact .inr ⟨vm, l, rfl, h, Nat.le_add_right .., OnlyAt.refl .., nofun⟩
  | cons ph phs ih =>
    intro vm l h hloads hapart
    by_cases hload : ph.pType = elfProgLoad
    · rw [loadable_cons_pos hload] at hloads hapart ⊢
      obtain ⟨hfirst, hrest⟩ := List.pairwise_cons.mp hapart
      have hl := hloads ph List.mem_cons_self
      rw [totalPages_cons_pos hload, Jos.loadSegments, Option.bind_eq_bind]
      rcases h.loadSegment hs hload hl hbytes with ⟨hnone, hfew⟩ | ⟨vm1, l1, hone, h1, hlen, honly1, hholds⟩
      · rw [hnone]
        exact .inl ⟨rfl, by omega⟩
      rw [hone, Option.bind_some]
      rcases ih h1 (fun ph' hph' => hloads ph' (List.mem_cons_of_mem ph hph')) hrest with
        ⟨hnone, hfew⟩ | ⟨vm', l', hrun, h', hlen', honly, hall⟩
      · exact .inl ⟨hnone, by omega⟩
      refine .inr ⟨vm', l', hrun, h', by omega, ?_, fun ph' hph' => ?_⟩
      · refine (honly1.mono ?_).trans (honly.mono ?_)
        · rintro k ⟨ph', hph', hk⟩
          exact ⟨ph', List.mem_singleton.mp hph' ▸ List.mem_cons_self, hk⟩
        · rintro k ⟨ph', hph', hk⟩
          exact ⟨ph', List.mem_cons_of_mem ph hph', hk⟩
      · rcases List.mem_cons.mp hph' with rfl | hmem
        · exact hholds.keep hl hs (h.acc.space_lt e pd hs) (honly.mono fun k => Or.inl) (show ∀ k : Slot, False → k.env ≠ e from nofun)
            (fun ph2 hph2 => hloads ph2 (List.mem_cons_of_mem _ hph2)) hfirst
        · exact hall ph' hmem
    · have hskip : Jos.loadSegments pd image (ph :: phs) vm = Jos.loadSegments pd image phs vm := by
        rw [Jos.loadSegments, Jos.loadSegment, if_neg hload]
        rfl
      rw [loadable_cons_neg hload] at hloads hapart ⊢
      rw [totalPages_cons_neg hload, hskip]
      exact ih h hloads hapart

end

lemma Books.paged (h : Books k l fl) (hd : DirsWritable k.vm k.spaces) : Paged k.vm k.spaces l :=
  ⟨h.vm, h.bound, h.tidy, hd⟩

lemma Allocated.dirsWritable {k' : Kernel} (h : Allocated k l fl e k')
    (hd : DirsWritable k.vm k.spaces) : DirsWritable k'.vm k'.spaces := by
  obtain ⟨p, -, hspaces, hadd⟩ := h.space
  rw [hspaces]
  intro e' d hk hn
  by_cases he : e' = e
  · subst he
    exact absurd (hadd.noTables d hk) hn
  · have hword := hadd.others (.pde e' d) hk he
    rw [hword]
    exact hd e' d hk (by rwa [slotRef, hword] at hn)

section
variable {image : List Nat}

lemma Paged.stack {sp : Spaces} {pd : Nat} {vm : Vm} {phs : List Proghdr} (h : Paged vm sp l) (hs : sp e = some pd)
    (hloads : ∀ ph ∈ phs, Loads image ph) (hholds : ∀ ph ∈ phs, Holds image pd vm ph) :
    (regionAlloc pd (ustacktop - pgsize) pgsize vm = none ∧ l.length < 2) ∨
    ∃ vm', regionAlloc pd (ustacktop - pgsize) pgsize vm = some vm' ∧ ∀ ph ∈ phs, Holds image pd vm' ph := by
  have hregion : regionAlloc pd (ustacktop - pgsize) pgsize vm = Jos.regionLoop pd 1 (ustacktop - pgsize) vm := rfl
  rw [hregion]
  rcases Paged.regionLoop hs 1 h (show (ustacktop - pgsize) % 4096 = 0 by decide) (by decide) with
    hfail | ⟨vm', l', hloop, -, -, honly, -⟩
  · exact .inl hfail
  refine .inr ⟨vm', hloop, fun ph hph j hj => ?_⟩
  have htouch := (hloads ph hph).touches hj
  have hlt := (hloads ph hph).lt_utop htouch
  rw [honly.loadByte_eq hs (pteSlot_mem (h.acc.space_lt e pd hs) hlt), hholds ph hph j hj]
  rintro ⟨a, hlo, hhi, heq⟩
  have hbelow := (hloads ph hph).below
  have halt : a < utop := hhi.trans_le (by decide)
  have hpage := ((pteSlot_eq_iff halt hlt).mp heq).2
  unfold ustacktop utop pgsize at *
  omega

lemma Books.envCreate_loads (h : Books k l fl) (hd : DirsWritable k.vm k.spaces)
    (type : EnvType) {elf : Elf} (hmagic : elf.eMagic = elfMagic) (hloads : ∀ ph ∈ loadable elf.ph, Loads elf.image ph)
    (hapart : (loadable elf.ph).Pairwise PagesApart) (hbytes : ∀ b ∈ elf.image, b < 256) :
    (envCreate elf type k = none ∧ (fl = [] ∨ l.length < 2 * totalPages elf.ph + 3)) ∨
    ∃ e fl' pd k', fl = e :: fl' ∧ envCreate elf type k = some k' ∧ (k'.envs e).envPgdir = some pd ∧
      ∀ ph ∈ loadable elf.ph, Holds elf.image pd k'.vm ph := by
  rcases h.envAlloc_spec 0 with ⟨r, -, halloc, hnone⟩ | ⟨e, k1, halloc, ha⟩
  · refine .inl ⟨by simp only [envCreate, halloc], hnone.symm.imp id fun hl => ?_⟩
    rw [hl, List.length_nil]
    omega
  obtain ⟨l1, fl1, hb1, -, hfl, hlen1⟩ := ha.books
  obtain ⟨pd, hpd, hs⟩ := hb1.space ha.live
  have hload : ∀ vm, Jos.loadSegments pd elf.image elf.ph k1.vm = some vm →
      loadIcode e elf k1 = (regionAlloc pd (ustacktop - pgsize) pgsize vm).map fun vm' =>
        { k1.setEnv e (loadedEnv (k1.envs e) elf.eEntry) with vm := vm' } := by
    intro vm hvm
    simp only [loadIcode, hmagic, ne_eq, not_true_eq_false, if_false, hpd, hvm, Option.bind_eq_bind, Option.bind_some]
    cases regionAlloc pd (ustacktop - pgsize) pgsize vm <;> rfl
  rcases Paged.loadSegments hs hbytes elf.ph (hb1.paged (ha.dirsWritable hd)) hloads hapart with
    ⟨hnone, hfew⟩ | ⟨vm2, l2, hsegs, h2, hlen2, -, hholds⟩
  · refine .inl ⟨?_, .inr (by omega)⟩
    simp only [envCreate, halloc, loadIcode, hmagic, ne_eq, not_true_eq_false, if_false, hpd, hnone, Option.bind_eq_bind,
      Option.bind_some, Option.bind_none, Option.map_none]
  rcases h2.stack hs hloads hholds with ⟨hnone, hfew⟩ | ⟨vm3, hstack, hholds3⟩
  · refine .inl ⟨?_, .inr (by omega)⟩
    simp only [envCreate, halloc, hload vm2 hsegs, hnone, Option.map_none]
  · let k2 : Kernel := { k1.setEnv e (loadedEnv (k1.envs e) elf.eEntry) with vm := vm3 }
    have hpgdir : ((k2.setEnv e (typedEnv (k2.envs e) type)).envs e).envPgdir = (k1.envs e).envPgdir := by
      simp only [Kernel.setEnv, Function.update_self, typedEnv, loadedEnv, k2]
      split <;> rfl
    refine .inr ⟨e, fl1, pd, k2.setEnv e (typedEnv (k2.envs e) type), hfl, ?_, hpgdir.trans hpd, hholds3⟩
    simp only [envCreate, halloc, hload vm2 hsegs, hstack, Option.map_some, k2]

end

end Jos
