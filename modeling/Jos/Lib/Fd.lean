import Jos.Kern.Syscall

/-!
# Duplicating a descriptor

`close` and `dup` of `lib/fd.c` on the page table of the environment, which they read through
`uvpd` and `uvpt` and change by `sys_page_map` and `sys_page_unmap`. The table is given page
by page; the calls do not run out of memory. Addresses wrap around at 2^32.
-/

namespace Jos.FdTable
open CInt

variable {i j : Int} {n newfd nva : Nat}

/-- A present entry of the page table: the page, and `uvpt[..] & PTE_SYSCALL`, which `sys_page_map` takes. -/
structure Mapping where
  page : Nat
  perm : Nat
  user : badPerm perm = false

/-- The entries by page number, and `fd_dev_id` in the pages. -/
structure Table where
  entry : Nat → Option Mapping
  devId : Nat → Nat

def maxfd : Nat := 32
def fdtable : Nat := 0xD0000000
def filedata : Nat := fdtable + maxfd * pgsize

def index2fd (i : Int) : Nat := toU32 (fdtable + i * pgsize)
def index2data (i : Int) : Nat := toU32 (filedata + i * pgsize)
def fd2num (fd : Nat) : Nat := toU32 (fd - fdtable) / pgsize
def fd2data (fd : Nat) : Nat := index2data (fd2num fd)

namespace Table
variable (t : Table)

/-- `(uvpd[PDX(va)] & PTE_P) && (uvpt[PGNUM(va)] & PTE_P)` -/
def mapped (va : Nat) : Bool := (t.entry (va / pgsize)).isSome

def set (va : Nat) (m : Option Mapping) : Table := { t with entry := Function.update t.entry (va / pgsize) m }

/-- `uvpt[PGNUM(va)] & PTE_SYSCALL` -/
def perm (va : Nat) : Nat := ((t.entry (va / pgsize)).map Mapping.perm).getD 0

/-- `sys_page_map(0, src, 0, dst, uvpt[PGNUM(src)] & PTE_SYSCALL)` -/
def pageMap (src dst : Nat) : Int × Table :=
  if badPerm (t.perm src) then (-eInval, t)
  else if badVa src || badVa dst then (-eInval, t)
  else (0, t.set dst (t.entry (src / pgsize)))

/-- `sys_page_unmap(0, va)` -/
def pageUnmap (va : Nat) : Table := if badVa va then t else t.set va none

def fdLookup (fdnum : Int) : Except Int Nat :=
  if fdnum < 0 ∨ maxfd ≤ fdnum then .error (-eInval)
  else if t.mapped (index2fd fdnum) then .ok (index2fd fdnum)
  else .error (-eInval)

/-- `devpipe.dev_id` -/
def devpipe : Nat := 112

/-- What `dev_close` does to the table: the other devices leave it alone. -/
def devClose (fd : Nat) : Table :=
  if (t.entry (fd / pgsize)).map (fun m => t.devId m.page) = some devpipe then (t.pageUnmap fd).pageUnmap (fd2data fd) else t

/-- `fd_close(fd, 1)` -/
def fdClose (fd : Nat) : Table :=
  match t.fdLookup (fd2num fd) with
  | .error _ => t
  | .ok fd2 => if fd ≠ fd2 then t else (t.devClose fd).pageUnmap fd

def close (fdnum : Int) : Table :=
  match t.fdLookup fdnum with
  | .error _ => t
  | .ok fd => t.fdClose fd

def dupErr (newfd nva : Nat) (r : Int) : Int × Table := (r, (t.pageUnmap newfd).pageUnmap nva)

def dupFd (oldfd newfd nva : Nat) (newfdnum : Int) : Int × Table :=
  let (r, t') := t.pageMap oldfd newfd
  if r < 0 then t'.dupErr newfd nva r else (newfdnum, t')

def dup (oldfdnum newfdnum : Int) : Int × Table :=
  match t.fdLookup oldfdnum with
  | .error r => (r, t)
  | .ok oldfd =>
    let t := t.close newfdnum
    let newfd := index2fd newfdnum
    let ova := fd2data oldfd
    let nva := fd2data newfd
    if t.mapped ova then
      let (r, t) := t.pageMap ova nva
      if r < 0 then t.dupErr newfd nva r else t.dupFd oldfd newfd nva newfdnum
    else t.dupFd oldfd newfd nva newfdnum

def fdPage (k : Nat) : Option Nat := (t.entry (index2fd k / pgsize)).map Mapping.page
def dataPage (k : Nat) : Option Nat := (t.entry (index2data k / pgsize)).map Mapping.page

def Open (i : Int) : Prop := 0 ≤ i ∧ i < maxfd ∧ t.mapped (index2fd i) = true

instance (i : Int) : Decidable (t.Open i) := inferInstanceAs (Decidable (_ ∧ _))

def Same (t' : Table) (k : Nat) : Prop :=
  t'.entry (index2fd k / pgsize) = t.entry (index2fd k / pgsize) ∧
    t'.entry (index2data k / pgsize) = t.entry (index2data k / pgsize)

/-- What `dup(i, j)` is to do. -/
structure DupRight (i j : Int) : Prop where
  returns : (t.dup i j).1 = j ↔ t.Open i ∧ 0 ≤ j ∧ j < maxfd
  done : t.Open i → 0 ≤ j → j < maxfd →
    (t.dup i j).2.fdPage j.toNat = t.fdPage i.toNat ∧
    (∀ p, t.dataPage i.toNat = some p → (t.dup i j).2.dataPage j.toNat = some p) ∧
    (t.dup i j).2.Open i ∧ ∀ k, k < maxfd → (k : Int) ≠ j → t.Same (t.dup i j).2 k
  refused : ¬ (t.Open i ∧ 0 ≤ j ∧ j < maxfd) → (t.dup i j).1 < 0 ∧ ∀ k, k < maxfd → t.Same (t.dup i j).2 k

def Dups (i j : Int) : Prop :=
  if t.Open i then
    (0 ≤ j ∧ j < maxfd ∧ j ≠ i) ∨
      (¬ (0 ≤ j ∧ j < maxfd) ∧
        (utop ≤ index2fd j ∨ t.mapped (index2data i) = true ∧ utop ≤ index2data j))
  else j ≠ -eInval

end Table

/-! ### The two arrays of pages -/

lemma index2fd_page (i : Int) : (index2fd i / pgsize : Nat) = ((0xD0000 + i) % 0x100000).toNat := by
  unfold index2fd toU32 fdtable pgsize
  omega

lemma index2data_page (i : Int) : (index2data i / pgsize : Nat) = ((0xD0020 + i) % 0x100000).toNat := by
  unfold index2data toU32 filedata fdtable maxfd pgsize
  omega

lemma fd2num_index2fd (i : Int) : (fd2num (index2fd i) : Int) = i % 0x100000 := by
  unfold fd2num index2fd toU32 fdtable pgsize
  omega

lemma fd2data_index2fd (i : Int) : fd2data (index2fd i) = index2data i := by
  unfold fd2data
  rw [fd2num_index2fd]
  unfold index2data toU32 filedata fdtable maxfd pgsize
  omega

lemma badVa_index2fd (i : Int) : badVa (index2fd i) = decide (utop ≤ index2fd i) := by
  have haligned : index2fd i % pgsize = 0 := by
    unfold index2fd toU32 fdtable pgsize
    omega
  simp [badVa, haligned]

lemma badVa_index2data (i : Int) : badVa (index2data i) = decide (utop ≤ index2data i) := by
  have haligned : index2data i % pgsize = 0 := by
    unfold index2data toU32 filedata fdtable maxfd pgsize
    omega
  simp [badVa, haligned]

section
variable {i : Int} (h0 : 0 ≤ i) (h1 : i < maxfd)
include h0 h1

lemma index2fd_page_of : (index2fd i / pgsize : Nat) = 0xD0000 + i.toNat := by
  rw [index2fd_page]
  unfold maxfd at h1
  omega

lemma index2data_page_of : (index2data i / pgsize : Nat) = 0xD0020 + i.toNat := by
  rw [index2data_page]
  unfold maxfd at h1
  omega

lemma good_index2fd : badVa (index2fd i) = false := by
  rw [badVa_index2fd]
  have hpage := index2fd_page_of h0 h1
  unfold maxfd at h1
  unfold pgsize at hpage
  apply decide_eq_false
  unfold utop
  omega

lemma good_index2data : badVa (index2data i) = false := by
  rw [badVa_index2data]
  have hpage := index2data_page_of h0 h1
  unfold maxfd at h1
  unfold pgsize at hpage
  apply decide_eq_false
  unfold utop
  omega

lemma fd2num_of : (fd2num (index2fd i) : Int) = i := by
  rw [fd2num_index2fd]
  unfold maxfd at h1
  omega

end

lemma pages_apart (h : utop ≤ index2fd j ∨ utop ≤ index2data j)
    (h0 : 0xD0000 ≤ n) (h1 : n < 0xD0040) : n ≠ index2fd j / pgsize ∧ n ≠ index2data j / pgsize := by
  have hfd := index2fd_page j
  have hdata := index2data_page j
  unfold utop at h
  unfold pgsize at *
  omega

namespace Table
variable {t : Table}

/-! ### Mapping and unmapping -/

lemma set_entry (va n : Nat) (m : Option Mapping) : (t.set va m).entry n = if n = va / pgsize then m else t.entry n :=
  Function.update_apply _ _ _ _

lemma pageUnmap_entry_ne {va : Nat} (h : n ≠ va / pgsize) : (t.pageUnmap va).entry n = t.entry n := by
  unfold pageUnmap
  split
  · rfl
  · rw [set_entry, if_neg h]

lemma pageUnmap_entry_self {va : Nat} (h : badVa va = false) : (t.pageUnmap va).entry (va / pgsize) = none := by
  unfold pageUnmap
  rw [h, if_neg Bool.false_ne_true, set_entry, if_pos rfl]

lemma pageMap_of {src dst : Nat} {m : Mapping} (hm : t.entry (src / pgsize) = some m) (hs : badVa src = false)
    (hd : badVa dst = false) : t.pageMap src dst = (0, t.set dst (some m)) := by
  have hperm : badPerm (t.perm src) = false := by
    simp only [perm, hm, Option.map_some, Option.getD_some, m.user]
  unfold pageMap
  rw [hperm, hs, hd, hm]
  rfl

lemma pageMap_refused {src dst : Nat} (h : t.entry (src / pgsize) = none ∨ badVa dst) :
    t.pageMap src dst = (-eInval, t) := by
  unfold pageMap
  rcases h with hm | hd
  · have hperm : badPerm (t.perm src) := by
      simp only [perm, hm, Option.map_none, Option.getD_none]
      decide
    rw [hperm, if_pos rfl]
  · rw [hd, Bool.or_true, if_pos rfl, ite_self]

lemma dupErr_entry {r : Int} (h : n ≠ newfd / pgsize) (h' : n ≠ nva / pgsize) :
    (t.dupErr newfd nva r).2.entry n = t.entry n := by
  unfold dupErr
  rw [pageUnmap_entry_ne h', pageUnmap_entry_ne h]

lemma dupFd_of {oldfd : Nat} {m : Mapping} (hm : t.entry (oldfd / pgsize) = some m)
    (hs : badVa oldfd = false) (hd : badVa newfd = false) :
    t.dupFd oldfd newfd nva j = (j, t.set newfd (some m)) := by
  unfold dupFd
  rw [pageMap_of hm hs hd]
  rfl

lemma dupFd_refused {oldfd : Nat} (h : t.entry (oldfd / pgsize) = none ∨ badVa newfd) :
    t.dupFd oldfd newfd nva j = t.dupErr newfd nva (-eInval) := by
  unfold dupFd
  rw [pageMap_refused h]
  rfl

/-! ### Closing the target -/

lemma fdLookup_open (h : t.Open i) : t.fdLookup i = .ok (index2fd i) := by
  obtain ⟨h0, h1, hmapped⟩ := h
  unfold fdLookup
  rw [if_neg (by omega), if_pos hmapped]

lemma fdLookup_closed (h : ¬ t.Open i) : t.fdLookup i = .error (-eInval) := by
  unfold fdLookup
  split
  · rfl
  · rename_i hrange
    rw [if_neg fun hmapped => h ⟨by omega, by omega, hmapped⟩]

lemma devClose_entry {fd : Nat} (h : n ≠ fd / pgsize) (h' : n ≠ fd2data fd / pgsize) :
    (t.devClose fd).entry n = t.entry n := by
  unfold devClose
  split
  · rw [pageUnmap_entry_ne h', pageUnmap_entry_ne h]
  · rfl

lemma close_closed (h : ¬ t.Open j) : t.close j = t := by
  unfold close
  rw [fdLookup_closed h]

lemma close_open (h : t.Open j) : t.close j = (t.devClose (index2fd j)).pageUnmap (index2fd j) := by
  have hclose : t.close j = t.fdClose (index2fd j) := by
    unfold close
    rw [fdLookup_open h]
  rw [hclose]
  unfold fdClose
  rw [fd2num_of h.1 h.2.1, fdLookup_open h]
  exact if_neg fun hne => hne rfl

lemma close_entry (h : n ≠ index2fd j / pgsize) (h' : n ≠ index2data j / pgsize) :
    (t.close j).entry n = t.entry n := by
  by_cases hopen : t.Open j
  · rw [close_open hopen, pageUnmap_entry_ne h]
    apply devClose_entry h
    rwa [fd2data_index2fd]
  · rw [close_closed hopen]

lemma close_unmaps (h : t.Open j) : (t.close j).entry (index2fd j / pgsize) = none := by
  rw [close_open h]
  exact pageUnmap_entry_self (good_index2fd h.1 h.2.1)

/-! ### The calls of `dup` -/

lemma dup_closed (h : ¬ t.Open i) : t.dup i j = (-eInval, t) := by
  unfold dup
  rw [fdLookup_closed h]

section
variable {d : Mapping} (h : t.Open i) (hd : (t.close j).entry (index2data i / pgsize) = some d)
include h hd

lemma dup_data (hgood : badVa (index2data j) = false) : t.dup i j =
      ((t.close j).set (index2data j) (some d)).dupFd (index2fd i) (index2fd j) (index2data j) j := by
  unfold dup
  rw [fdLookup_open h]
  simp only [fd2data_index2fd, mapped, hd, Option.isSome_some, if_true,
    pageMap_of hd (good_index2data h.1 h.2.1) hgood]
  rfl

lemma dup_data_refused (hbad : badVa (index2data j)) :
    t.dup i j = (t.close j).dupErr (index2fd j) (index2data j) (-eInval) := by
  unfold dup
  rw [fdLookup_open h]
  simp only [fd2data_index2fd, mapped, hd, Option.isSome_some, if_true, pageMap_refused (.inr hbad)]
  rfl

end

lemma dup_nodata (h : t.Open i) (hd : (t.close j).entry (index2data i / pgsize) = none) :
    t.dup i j = (t.close j).dupFd (index2fd i) (index2fd j) (index2data j) j := by
  unfold dup
  rw [fdLookup_open h]
  simp only [fd2data_index2fd, mapped, hd, Option.isSome_none, if_neg Bool.false_ne_true]

lemma dup_self (h : t.Open i) : (t.dup i i).1 = -eInval := by
  have hgood := good_index2data h.1 h.2.1
  rcases hd : (t.close i).entry (index2data i / pgsize) with _ | d
  · rw [dup_nodata h hd, dupFd_refused (.inl (close_unmaps h))]
    rfl
  · rw [dup_data h hd hgood, dupFd_refused]
    · rfl
    · left
      rw [set_entry, if_neg, close_unmaps h]
      rw [index2fd_page_of h.1 h.2.1, index2data_page_of h.1 h.2.1]
      omega

structure Duped (t t' : Table) (i j : Int) : Prop where
  fd : t'.entry (index2fd j / pgsize) = t.entry (index2fd i / pgsize)
  data : t.mapped (index2data i) = true → t'.entry (index2data j / pgsize) = t.entry (index2data i / pgsize)
  others : ∀ n, n ≠ index2fd j / pgsize → n ≠ index2data j / pgsize → t'.entry n = t.entry n

lemma dup_other (h : t.Open i) (h0 : 0 ≤ j) (h1 : j < maxfd) (hne : j ≠ i) :
    (t.dup i j).1 = j ∧ Duped t (t.dup i j).2 i j := by
  have hfdi := index2fd_page_of h.1 h.2.1
  have hdatai := index2data_page_of h.1 h.2.1
  have hfdj := index2fd_page_of h0 h1
  have hdataj := index2data_page_of h0 h1
  have hi := h.1
  have hi' := h.2.1
  unfold maxfd at h1 hi'
  have hclosefd : (t.close j).entry (index2fd i / pgsize) = t.entry (index2fd i / pgsize) :=
    close_entry (by omega) (by omega)
  have hclosedata : (t.close j).entry (index2data i / pgsize) = t.entry (index2data i / pgsize) :=
    close_entry (by omega) (by omega)
  obtain ⟨m, hm⟩ := Option.isSome_iff_exists.1 h.2.2
  have hgood := good_index2fd h0 h1
  rcases hd : t.entry (index2data i / pgsize) with _ | d
  · have hrun := dup_nodata h (hclosedata.trans hd)
    rw [dupFd_of (hclosefd.trans hm) (good_index2fd h.1 h.2.1) hgood] at hrun
    rw [hrun]
    refine ⟨rfl, ?_, ?_, ?_⟩
    · rw [set_entry, if_pos rfl, hm]
    · intro hmapped
      simp only [mapped, hd] at hmapped
      cases hmapped
    · intro n hn hn'
      rw [set_entry, if_neg hn, close_entry hn hn']
  · have hrun := dup_data h (hclosedata.trans hd) (good_index2data h0 h1)
    have hstill : ((t.close j).set (index2data j) (some d)).entry (index2fd i / pgsize) = some m := by
      rw [set_entry, if_neg (by omega), hclosefd, hm]
    rw [dupFd_of hstill (good_index2fd h.1 h.2.1) hgood] at hrun
    rw [hrun]
    refine ⟨rfl, ?_, ?_, ?_⟩
    · rw [set_entry, if_pos rfl, hm]
    · intro _
      rw [set_entry, if_neg (by omega), set_entry, if_pos rfl, hd]
    · intro n hn hn'
      rw [set_entry, if_neg hn, set_entry, if_neg hn', close_entry hn hn']

lemma dup_outside_refused (h : t.Open i) (hj : ¬ (0 ≤ j ∧ j < maxfd))
    (hbad : utop ≤ index2fd j ∨ t.mapped (index2data i) ∧ utop ≤ index2data j) :
    (t.dup i j).1 = -eInval ∧ ∀ n, 0xD0000 ≤ n → n < 0xD0040 → (t.dup i j).2.entry n = t.entry n := by
  have hclose : t.close j = t := close_closed fun hopen => hj ⟨hopen.1, hopen.2.1⟩
  have happart : ∀ n, 0xD0000 ≤ n → n < 0xD0040 → n ≠ index2fd j / pgsize ∧ n ≠ index2data j / pgsize :=
    fun n h0 h1 => pages_apart (hbad.imp_right And.right) h0 h1
  rcases hd : t.entry (index2data i / pgsize) with _ | d
  · have hfd : badVa (index2fd j) := by
      rw [badVa_index2fd]
      rcases hbad with hfd | hdata
      · exact decide_eq_true hfd
      · simp only [mapped, hd] at hdata
        cases hdata.1
    rw [dup_nodata h (by rw [hclose, hd]), dupFd_refused (.inr hfd), hclose]
    refine ⟨rfl, fun n h0 h1 => ?_⟩
    exact dupErr_entry (happart n h0 h1).1 (happart n h0 h1).2
  · by_cases hdata : utop ≤ index2data j
    · rw [dup_data_refused h (by rw [hclose, hd]) (by rw [badVa_index2data]; exact decide_eq_true hdata), hclose]
      refine ⟨rfl, fun n h0 h1 => ?_⟩
      exact dupErr_entry (happart n h0 h1).1 (happart n h0 h1).2
    · have hfd : badVa (index2fd j) := by
        rw [badVa_index2fd]
        exact decide_eq_true (hbad.resolve_right fun hboth => hdata hboth.2)
      rw [dup_data h (by rw [hclose, hd]) (by rw [badVa_index2data]; exact decide_eq_false hdata),
        dupFd_refused (.inr hfd), hclose]
      refine ⟨rfl, fun n h0 h1 => ?_⟩
      rw [dupErr_entry (happart n h0 h1).1 (happart n h0 h1).2, set_entry, if_neg (happart n h0 h1).2]

lemma dup_outside_accepted (h : t.Open i) (hj : ¬ (0 ≤ j ∧ j < maxfd))
    (hgood : ¬ (utop ≤ index2fd j ∨ t.mapped (index2data i) ∧ utop ≤ index2data j)) : (t.dup i j).1 = j := by
  have hclose : t.close j = t := close_closed fun hopen => hj ⟨hopen.1, hopen.2.1⟩
  obtain ⟨m, hm⟩ := Option.isSome_iff_exists.1 h.2.2
  have hfd : badVa (index2fd j) = false := by
    rw [badVa_index2fd]
    exact decide_eq_false fun hhigh => hgood (.inl hhigh)
  rcases hd : t.entry (index2data i / pgsize) with _ | d
  · rw [dup_nodata h (by rw [hclose, hd]), hclose, dupFd_of hm (good_index2fd h.1 h.2.1) hfd]
  · have hdata : badVa (index2data j) = false := by
      rw [badVa_index2data]
      refine decide_eq_false fun hhigh => hgood (.inr ⟨?_, hhigh⟩)
      simp only [mapped, hd, Option.isSome_some]
    -- the data page of `j` may be the `Fd` page of `i`, which then holds the data page of `i`
    obtain ⟨m', hm'⟩ : ∃ m', (t.set (index2data j) (some d)).entry (index2fd i / pgsize) = some m' := by
      rw [set_entry]
      split
      · exact ⟨d, rfl⟩
      · exact ⟨m, hm⟩
    rw [dup_data h (by rw [hclose, hd]) hdata, hclose, dupFd_of hm' (good_index2fd h.1 h.2.1) hfd]

lemma Same.of_entries {t' : Table} (h : ∀ n, 0xD0000 ≤ n → n < 0xD0040 → t'.entry n = t.entry n) {k : Nat}
    (hk : k < maxfd) : t.Same t' k := by
  have hfd := index2fd_page_of (Int.natCast_nonneg k) (Int.ofNat_lt.2 hk)
  have hdata := index2data_page_of (Int.natCast_nonneg k) (Int.ofNat_lt.2 hk)
  unfold maxfd at hk
  exact ⟨h _ (by omega) (by omega), h _ (by omega) (by omega)⟩

lemma dupRight_closed (h : ¬ t.Open i) (hj : j ≠ -eInval) : t.DupRight i j where
  returns := by
    rw [dup_closed h]
    exact ⟨fun heq => absurd heq.symm hj, fun hboth => absurd hboth.1 h⟩
  done hopen := absurd hopen h
  refused _ := by
    rw [dup_closed h]
    exact ⟨show (-eInval : Int) < 0 by decide, fun k _ => ⟨rfl, rfl⟩⟩

lemma dupRight_other (h : t.Open i) (h0 : 0 ≤ j) (h1 : j < maxfd) (hne : j ≠ i) : t.DupRight i j := by
  obtain ⟨hreturn, hduped⟩ := dup_other h h0 h1 hne
  refine ⟨⟨fun _ => ⟨h, h0, h1⟩, fun _ => hreturn⟩, fun _ _ _ => ⟨?_, ?_, ?_, ?_⟩, fun hnot => absurd ⟨h, h0, h1⟩ hnot⟩
  · unfold fdPage
    rw [Int.toNat_of_nonneg h0, Int.toNat_of_nonneg h.1, hduped.fd]
  · unfold dataPage
    rw [Int.toNat_of_nonneg h0, Int.toNat_of_nonneg h.1]
    intro p hp
    rw [hduped.data, hp]
    obtain ⟨d, hd, -⟩ := Option.map_eq_some_iff.1 hp
    simp only [mapped, hd, Option.isSome_some]
  · refine ⟨h.1, h.2.1, ?_⟩
    have hi := h.2.1
    unfold mapped
    rw [hduped.others, ← mapped, h.2.2] <;>
      rw [index2fd_page_of h.1 h.2.1]
    · rw [index2fd_page_of h0 h1]
      have := h.1
      omega
    · rw [index2data_page_of h0 h1]
      unfold maxfd at hi
      omega
  · intro k hk hkj
    have hfd := index2fd_page_of (Int.natCast_nonneg k) (Int.ofNat_lt.2 hk)
    have hdata := index2data_page_of (Int.natCast_nonneg k) (Int.ofNat_lt.2 hk)
    have hfdj := index2fd_page_of h0 h1
    have hdataj := index2data_page_of h0 h1
    unfold maxfd at hk h1
    constructor
    · apply hduped.others <;> omega
    · apply hduped.others <;> omega

/-- `-E_INVAL` is returned as an error, and it is not the number of a descriptor out of range that is refused. -/
theorem refused_ne_eInval (h : utop ≤ index2fd j ∨ utop ≤ index2data j) : j ≠ -eInval := by
  rintro rfl
  revert h
  decide

lemma dupRight_outside (h : t.Open i) (hj : ¬ (0 ≤ j ∧ j < maxfd))
    (hbad : utop ≤ index2fd j ∨ t.mapped (index2data i) ∧ utop ≤ index2data j) : t.DupRight i j := by
  obtain ⟨hreturn, hsame⟩ := dup_outside_refused h hj hbad
  refine ⟨⟨fun heq => ?_, fun hboth => absurd hboth.2 hj⟩, fun _ h0 h1 => absurd ⟨h0, h1⟩ hj, fun _ => ⟨?_, ?_⟩⟩
  · exact absurd (heq.symm.trans hreturn) (refused_ne_eInval (hbad.imp_right And.right))
  · rw [hreturn]
    decide
  · exact fun k hk => Same.of_entries hsame hk

/-- `dup` is right exactly for a target in range other than the source, for one whose pages `sys_page_map` refuses,
and for a closed source, where the answer is `-E_INVAL` whatever the target is. -/
theorem dup_right_iff (t : Table) (i j : Int) : t.DupRight i j ↔ t.Dups i j := by
  unfold Dups
  split
  · rename_i hopen
    by_cases hj : 0 ≤ j ∧ j < maxfd
    · constructor
      · intro hright
        refine .inl ⟨hj.1, hj.2, ?_⟩
        rintro rfl
        have hreturn := hright.returns.2 ⟨hopen, hj⟩
        rw [dup_self hopen] at hreturn
        unfold eInval at hreturn
        omega
      · rintro (⟨-, -, hne⟩ | ⟨houtside, -⟩)
        · exact dupRight_other hopen hj.1 hj.2 hne
        · exact absurd hj houtside
    · constructor
      · intro hright
        refine .inr ⟨hj, Classical.byContradiction fun hgood => ?_⟩
        exact hj (hright.returns.1 (dup_outside_accepted hopen hj hgood)).2
      · rintro (⟨h0, h1, -⟩ | ⟨-, hbad⟩)
        · exact absurd ⟨h0, h1⟩ hj
        · exact dupRight_outside hopen hj hbad
  · rename_i hclosed
    constructor
    · intro hright hj
      have hreturn : (t.dup i j).1 = j := by rw [dup_closed hclosed, hj]
      exact hclosed (hright.returns.1 hreturn).1
    · exact dupRight_closed hclosed

def oneOpen : Table where
  entry n :=
    if n = 0xD0000 then some ⟨1, pteP ||| pteU ||| pteW, by decide⟩
    else if n = 0xD0020 then some ⟨2, pteP ||| pteU ||| pteW, by decide⟩
    else none
  devId _ := devpipe

/-- `dup(0, 0)` closes descriptor 0, and `dup(0, 32)` maps its `Fd` page over its data page. -/
theorem dup_breaks :
    ¬ oneOpen.DupRight 0 0 ∧ (oneOpen.dup 0 0).1 = -eInval ∧ (oneOpen.dup 0 0).2.fdPage 0 = none ∧
      ¬ oneOpen.DupRight 0 32 ∧ (oneOpen.dup 0 32).1 = 32 ∧ (oneOpen.dup 0 32).2.dataPage 0 = some 1 := by
  have hself : (oneOpen.dup 0 0).1 = -eInval := by decide
  have hover : (oneOpen.dup 0 32).1 = 32 := by decide
  refine ⟨fun hright => ?_, hself, by decide, fun hright => ?_, hover, by decide⟩
  · have hreturn := hright.returns.2 ⟨⟨by decide, by decide, by decide⟩, by decide, by decide⟩
    exact absurd (hreturn.symm.trans hself) (by decide)
  · exact absurd (hright.returns.1 hover).2.2 (by decide)

end Table

end Jos.FdTable
