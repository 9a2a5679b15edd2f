import Jos.Fs.FileSpec
import Jos.Base.Post

/-!
# What the directory functions do to the tree

Looking up a path only attaches blocks to directories. `file_create` may lengthen
one directory by a block and gives one entry a name.
-/

namespace Jos.Fs
open WordMem CInt Ownership Function
open Relation (ReflTransGen)

variable {dir e f g k : Nat} {m m' : Mem} {name path : List Nat}

def Fits (m : Mem) : Prop := ∀ d, IsFile m d → m (fType d) = ftypeDir → 0 ≤ size m d ∧ size m d + 4096 < 2147483648

structure Grows (m m' : Mem) : Prop extends GrownFrom m m' where
  agrees : Fits m → Agrees m → Agrees m'

lemma GrownFrom.fits (h : GrownFrom m m') (hfit : Fits m) : Fits m' := by
  intro d hd hdir
  have hd := (h.isFile_iff d).mp hd
  rw [h.type_eq hd] at hdir
  rw [h.size_eq hd]
  exact hfit d hd hdir

lemma Grows.refl (ho : Owned m) : Grows m m := ⟨.refl ho, fun _ ha => ha⟩

lemma Grows.trans {m1 : Mem} (h : Grows m m1) (h' : Grows m1 m') : Grows m m' :=
  ⟨h.toGrownFrom.trans h'.toGrownFrom, fun hfit ha => h'.agrees (h.fits hfit) (h.agrees hfit ha)⟩

def InDir (m : Mem) (dir a : Nat) : Prop := ∃ i c, Refers m (.block dir i) c ∧ a = 1024 * c

def EntryOf (m : Mem) (dir f : Nat) : Prop := ∃ i c j, Refers m (.block dir i) c ∧ j < blkfiles ∧ f = 1024 * c + 64 * j

lemma InDir.entry {m : Mem} {dir a : Nat} (h : InDir m dir a) {j : Nat} (hj : j < blkfiles) : EntryOf m dir (a + 64 * j) := by
  obtain ⟨i, c, href, rfl⟩ := h
  exact ⟨i, c, j, href, hj, rfl⟩

lemma GrownFrom.inDir (h : GrownFrom m m') {a : Nat} (ha : InDir m dir a) : InDir m' dir a := by
  obtain ⟨i, c, href, rfl⟩ := ha
  exact ⟨i, c, h.refers _ _ href, rfl⟩

def SearchRight (cond : Mem → Nat → Bool) (m : Mem) (dir : Nat) : Search → Prop
  | .found f => EntryOf m dir f ∧ cond m f = true
  | .failed r => r < 0
  | .missed blk => ∀ a, blk = some a → InDir m dir a

lemma dirSearch_spec (cond : Mem → Nat → Bool) (dir n : Nat) {i : Nat} (blk : Option Nat) (ho : Owned m)
    (hdir : IsFile m dir) (hblk : ∀ a, blk = some a → InDir m dir a) :
    Post (· = Crash.wild) (fun out => GrownFrom m out.2 ∧ SearchRight cond out.2 dir out.1 ∧
      (i + n ≤ nblocks (size m dir) → Agrees m → Agrees out.2)) (dirSearch cond dir n i blk m) := by
  induction n generalizing i blk m with
  | zero => exact .pure ⟨.refl ho, hblk, fun _ ha => ha⟩
  | succ n ih =>
    obtain ⟨r, b, m1, hget, hrun, hcases⟩ := fileGetBlock_spec ho hdir i
    have hgrown := AttachStep.run hrun ho
    have hdir1 := (hgrown.isFile_iff dir).mpr hdir
    have hsize := hgrown.size_eq hdir
    have hagr : i + (n + 1) ≤ nblocks (size m dir) → Agrees m → Agrees m1 := fun hle ha =>
      AttachStep.run_agrees hrun ha hdir (by omega)
    simp only [dirSearch, hget, ok_bind]
    by_cases hr : r < 0
    · rw [if_pos hr]
      exact .pure ⟨hgrown, hr, hagr⟩
    rw [if_neg hr]
    -- the block of this round, or the one of the round before
    have hblk1 : ∀ a, b.or blk = some a → InDir m1 dir a := by
      intro a ha
      rcases hcases with ⟨-, rfl, -, -⟩ | ⟨-, rfl, -⟩ | ⟨-, rfl, hyes, h0⟩
      · exact hgrown.inDir (hblk a ha)
      · exact hgrown.inDir (hblk a ha)
      · cases ha
        refine ⟨i, _, ⟨hdir1, ?_, rfl, h0⟩, rfl⟩
        by_contra hbig
        exact hyes (.inl (by omega))
    split
    · exact .throw rfl
    rename_i a ha
    split
    · rename_i j hfind
      have hj : j < blkfiles := List.mem_range.mp (List.mem_of_find?_eq_some hfind)
      exact .pure ⟨hgrown, ⟨(hblk1 a ha).entry hj, by simpa using List.find?_some hfind⟩, hagr⟩
    · refine (ih (some a) hgrown.owned hdir1 fun a' ha' => ?_).mono (fun _ h => h) fun out hout => ?_
      · cases ha'
        exact hblk1 a ha
      · obtain ⟨hg, hright, hagr'⟩ := hout
        refine ⟨hgrown.trans hg, hright, fun hle ha => hagr' ?_ (hagr hle ha)⟩
        rw [hsize]
        omega

def BadDir (m : Mem) : Prop := ∃ d, IsFile m d ∧ m (fType d) = ftypeDir ∧ (size m d).tmod blksize ≠ 0

def LookupError (m : Mem) (c : Crash) : Prop := c = .wild ∨ (∃ t, c = .assertion t) ∧ BadDir m

lemma GrownFrom.badDir (h : GrownFrom m m') (hbad : BadDir m') : BadDir m := by
  obtain ⟨d, hd, hdir, hsize⟩ := hbad
  have hd := (h.isFile_iff d).mp hd
  rw [h.type_eq hd] at hdir
  rw [h.size_eq hd] at hsize
  exact ⟨d, hd, hdir, hsize⟩

lemma GrownFrom.lookupError (h : GrownFrom m m') {c : Crash} (hc : LookupError m' c) : LookupError m c :=
  hc.imp id fun ⟨ht, hbad⟩ => ⟨ht, h.badDir hbad⟩

lemma dirNblock_spec (hdir : IsFile m dir) (htype : m (fType dir) = ftypeDir) :
    Post (LookupError m) (fun n => (size m dir).tmod blksize = 0 ∧ n = toU32 ((size m dir).tdiv blksize))
      (dirNblock dir m) := by
  unfold dirNblock
  by_cases h : (size m dir).tmod blksize = 0
  · rw [if_pos h]
    exact .pure ⟨h, rfl⟩
  · rw [if_neg h]
    exact .throw (.inr ⟨⟨_, rfl⟩, dir, hdir, htype, h⟩)

lemma dirNblock_eq {s : Int} (h0 : 0 ≤ s) (h1 : s + 4096 < 2147483648) (hmod : s.tmod blksize = 0) :
    toU32 (s.tdiv blksize) = nblocks s ∧ nblocks (s + 4096) = nblocks s + 1 := by
  unfold blksize at *
  rw [Int.tmod_eq_emod_of_nonneg h0] at hmod
  have hn := nblocks_of_fits h0 (by omega)
  have hn' := nblocks_of_fits (s := s + 4096) (by omega) (by omega)
  have hq : (toU32 (s.tdiv (4096 : Nat)) : Int) = s / 4096 := by
    rw [Int.tdiv_eq_ediv_of_nonneg h0, toU32_of_range] <;> omega
  omega

def Chars (p : List Nat) : Prop := ∀ c ∈ p, c ≠ 0 ∧ c < 256

lemma chars_singleton {x : Nat} (hx0 : x ≠ 0) (hx : x < 256) : Chars [x] := by
  intro y hy
  rw [List.mem_singleton.mp hy]
  exact ⟨hx0, hx⟩

lemma nameEmpty_of_nameIs (hne : name ≠ []) (hch : Chars name)
    (h : nameIs name m f) : nameEmpty m f = false := by
  cases name with
  | nil => exact absurd rfl hne
  | cons c name =>
    have heq : bytesAt m (4 * f) ((c :: name).length + 1) = (c :: name) ++ [0] := by simpa [nameIs] using h
    have hget := congrArg (fun l => l[0]?) heq
    simp only [getElem_bytesAt m (4 * f) _ (Nat.succ_pos _), add_zero, List.cons_append, List.getElem?_cons_zero,
      Option.some.injEq] at hget
    have hc := (hch c List.mem_cons_self).1
    simp [nameEmpty, hget, hc]

lemma EntryOf.isFile (h : EntryOf m dir f) (htype : m (fType dir) = ftypeDir)
    (hname : nameEmpty m f = false) : IsFile m f := by
  obtain ⟨i, c, j, ⟨hdir, hi, rfl, h0⟩, hj, rfl⟩ := h
  exact .entry hdir htype hi h0 hj hname

lemma dirLookup_spec (ho : Owned m) (hdir : IsFile m dir)
    (htype : m (fType dir) = ftypeDir) (hne : name ≠ []) (hch : Chars name) :
    Post (LookupError m) (fun out => Grows m out.2 ∧ (∀ f, out.1 = .ok f → IsFile out.2 f) ∧
      ∀ r, out.1 = .error r → r < 0) (dirLookup dir name m) := by
  unfold dirLookup
  refine (dirNblock_spec hdir htype).bind fun n hnblock => ?_
  obtain ⟨hmod, hn⟩ := hnblock
  refine ((dirSearch_spec (nameIs name) dir n none ho hdir nofun).mono (fun c hc => .inl hc) fun _ h => h).bind
    fun ⟨s, m1⟩ ⟨hgrown, hright, hagr⟩ => ?_
  have hgrows : Grows m m1 := by
    refine ⟨hgrown, fun hfit ha => hagr ?_ ha⟩
    obtain ⟨h0, h1⟩ := hfit dir hdir htype
    have := (dirNblock_eq h0 h1 hmod).1
    omega
  cases s with
  | found f =>
    refine .pure ⟨hgrows, fun g hg => ?_, nofun⟩
    cases hg
    exact hright.1.isFile (by rw [hgrown.type_eq hdir, htype]) (nameEmpty_of_nameIs hne hch hright.2)
  | failed r =>
    refine .pure ⟨hgrows, nofun, fun r' hr => ?_⟩
    cases hr
    exact hright
  | missed blk =>
    refine .pure ⟨hgrows, nofun, fun r' hr => ?_⟩
    cases hr
    decide

/-- A path component that `walk_path` looks up. -/
structure NameOk (name : List Nat) : Prop where
  ne : name ≠ []
  chars : Chars name
  short : name.length < maxnamelen

/-- What `walk_path` hands back. -/
structure WalkedRight (m : Mem) (w : Walked) : Prop where
  file : ∀ f, w.pf = some f → IsFile m f
  zero : w.r = 0 → ∃ f, w.pf = some f
  dir : ∀ d, w.pdir = some d → w.r ≠ 0 → IsFile m d ∧ m (fType d) = ftypeDir ∧ NameOk w.lastelem

lemma head_skipSlash (p : List Nat) : (skipSlash p).head? ≠ some slash := by
  intro h
  have hall := List.head?_dropWhile_not (· == slash) p
  rw [skipSlash] at h
  rw [h] at hall
  simp at hall

lemma chars_skipSlash {p : List Nat} (h : Chars p) : Chars (skipSlash p) :=
  fun c hc => h c ((List.dropWhile_sublist _).subset hc)

lemma takeWhile_ne_nil (hne : path ≠ []) (hhead : path.head? ≠ some slash) : path.takeWhile (· != slash) ≠ [] := by
  cases path with
  | nil => exact absurd rfl hne
  | cons c path =>
    have hc : c ≠ slash := by simpa using hhead
    simp [hc]

lemma walked_here (ho : Owned m) (hf : IsFile m f) (dir : Option Nat) :
    Grows m m ∧ WalkedRight m ⟨0, dir, some f, []⟩ := by
  refine ⟨.refl ho, fun g hg => ?_, fun _ => ⟨f, rfl⟩, fun _ _ h0 => absurd rfl h0⟩
  cases hg
  exact hf

lemma walkLoop_spec (n : Nat) {dir : Option Nat} (ho : Owned m) (hf : IsFile m f)
    (hch : Chars path) (hhead : path.head? ≠ some slash) :
    Post (LookupError m) (fun out => Grows m out.2 ∧ WalkedRight out.2 out.1) (walkLoop n path f dir m) := by
  induction n generalizing path f dir m with
  | zero => exact .pure (walked_here ho hf dir)
  | succ n ih =>
    simp only [walkLoop]
    by_cases hnil : path = []
    · rw [if_pos hnil]
      exact .pure (walked_here ho hf dir)
    rw [if_neg hnil]
    by_cases hlong : maxnamelen ≤ (path.takeWhile (· != slash)).length
    · rw [if_pos hlong]
      exact .pure ⟨.refl ho, nofun, nofun, nofun⟩
    rw [if_neg hlong]
    by_cases htype : m (fType f) ≠ ftypeDir
    · rw [if_pos htype]
      exact .pure ⟨.refl ho, nofun, nofun, nofun⟩
    rw [if_neg htype]
    have htype' : m (fType f) = ftypeDir := not_not.mp htype
    have hname : NameOk (path.takeWhile (· != slash)) :=
      ⟨takeWhile_ne_nil hnil hhead, fun c hc => hch c ((List.takeWhile_sublist _).subset hc), by omega⟩
    refine (dirLookup_spec ho hf htype' hname.ne hname.chars).bind fun out hout => ?_
    obtain ⟨r, m1⟩ := out
    obtain ⟨hgrows, hfound, hneg⟩ := hout
    have hf1 := (hgrows.isFile_iff f).mpr hf
    cases r with
    | ok g =>
      have hrest : Chars (skipSlash (path.dropWhile (· != slash))) :=
        chars_skipSlash fun c hc => hch c ((List.dropWhile_sublist _).subset hc)
      have hg := hfound g rfl
      refine (ih hgrows.owned hg hrest (head_skipSlash _)).mono
        (fun c hc => hgrows.lookupError hc) fun out' hout' => ?_
      exact ⟨hgrows.trans hout'.1, hout'.2⟩
    | error r =>
      have hr := hneg r rfl
      dsimp only
      by_cases hlast : r = -eNotFound ∧ skipSlash (path.dropWhile (· != slash)) = []
      · rw [if_pos hlast]
        refine .pure ⟨hgrows, nofun, fun h0 => ?_, fun d hd _ => ?_⟩
        · exact absurd h0 (ne_of_lt hr)
        · cases hd
          exact ⟨hf1, (hgrows.type_eq hf).trans htype', hname⟩
      · rw [if_neg hlast]
        refine .pure ⟨hgrows, nofun, fun h0 => ?_, nofun⟩
        exact absurd h0 (ne_of_lt hr)

lemma walkPath_spec (ho : Owned m) (hch : Chars path) :
    Post (LookupError m) (fun out => Grows m out.2 ∧ WalkedRight out.2 out.1) (walkPath path m) :=
  walkLoop_spec _ ho .root (chars_skipSlash hch) (head_skipSlash _)

lemma fileOpen_spec (ho : Owned m) (hch : Chars path) :
    Post (LookupError m) (fun out => Grows m out.2 ∧ ∀ f, out.1 = .ok f → IsFile out.2 f) (fileOpen path m) := by
  unfold fileOpen
  refine (walkPath_spec ho hch).bind fun out hout => ?_
  obtain ⟨w, m1⟩ := out
  obtain ⟨hgrows, hright⟩ := hout
  dsimp only at hgrows hright ⊢
  split
  · rename_i f hf
    refine .pure ⟨hgrows, fun g hg => ?_⟩
    cases hg
    exact hright.file f hf
  · exact .pure ⟨hgrows, nofun⟩

structure Expands (dir : Nat) (m m' : Mem) : Prop where
  owned : Owned m'
  isFile_iff : ∀ g, IsFile m' g ↔ IsFile m g
  field : ∀ g k, IsFile m g → k < 34 → (g ≠ dir ∨ k ≠ 32) → m' (g + k) = m (g + k)
  size : m' (fSize dir) = m (fSize dir) ∨ m' (fSize dir) = toU32 (size m dir + 4096)
  unusedBlank : ∀ lo, UnusedBlank lo m → UnusedBlank lo m'
  agrees : Fits m → Agrees m → Agrees m'

lemma Grows.expands (h : Grows m m') (hdir : IsFile m dir) : Expands dir m m' :=
  ⟨h.owned, h.isFile_iff, fun g k hg hk _ => h.field g k hg hk, .inl (h.field dir 32 hdir (by decide)),
    h.unusedBlank, h.agrees⟩

section
variable {m : Mem} (ho : Owned m) {f : Nat} (hf : IsFile m f) (v : Nat)
include ho hf

lemma resize_field (hg : IsFile m g) (hk : k < 64) (hne : g ≠ f ∨ k ≠ 32) :
    update m (fSize f) v (g + k) = m (g + k) := by
  refine update_of_ne (fun heq => ?_) _ _
  have hgf := ho.file_inj hg hf hk (show 32 < 64 by decide) heq
  unfold fSize at heq
  omega

lemma unusedBlank_resize {lo : Nat} (hu : UnusedBlank lo m) : UnusedBlank lo (update m (fSize f) v) := by
  intro d i c j href hdir hj hempty k hlo hk
  have hsame := sameTree_resize ho hf v
  have hold := hsame.refers_iff.mp href
  rw [hsame.type d hold.1] at hdir
  rw [hsame.names d i c j hold hdir hj] at hempty
  rw [update_of_ne, hu d i c j hold hdir hj hempty k hlo hk]
  intro heq
  have hfe := ho.entry_inj hf hold hj (show 32 < 64 by decide) (show k < 64 by omega) heq
  rcases hf.named with hroot | hname
  · have hr := (ho.range _ _ hold).1
    have h2 := two_le_reservedEnd m
    rw [hroot] at hfe
    unfold root at hfe
    unfold blkfiles at hj
    omega
  · rw [← hfe, hname] at hempty
    cases hempty

end

lemma dirAllocFile_spec (ho : Owned m) (hdir : IsFile m dir) (htype : m (fType dir) = ftypeDir) :
    Post (LookupError m) (fun out => Expands dir m out.2 ∧ ∀ f, out.1 = .ok f → EntryOf out.2 dir f)
      (dirAllocFile dir m) := by
  unfold dirAllocFile
  refine (dirNblock_spec hdir htype).bind fun n hnblock => ?_
  obtain ⟨hmod, hn⟩ := hnblock
  refine ((dirSearch_spec nameEmpty dir n none ho hdir nofun).mono (fun c hc => .inl hc) fun _ h => h).bind
    fun out hout => ?_
  obtain ⟨s, m1⟩ := out
  obtain ⟨hgrown, hright, hagr⟩ := hout
  dsimp only at hgrown hright hagr ⊢
  have hgrows : Grows m m1 := by
    refine ⟨hgrown, fun hfit ha => hagr ?_ ha⟩
    obtain ⟨h₀, h1⟩ := hfit dir hdir htype
    have := (dirNblock_eq h₀ h1 hmod).1
    omega
  cases s with
  | found f =>
    refine .pure ⟨hgrows.expands hdir, fun g hg => ?_⟩
    cases hg
    exact hright.1
  | failed r => exact .pure ⟨hgrows.expands hdir, nofun⟩
  | missed blk =>
    -- the directory gets longer, and then its new block is fetched
    have hdir1 := (hgrows.isFile_iff dir).mpr hdir
    have ho1 := hgrows.owned
    have hsame := sameTree_resize ho1 hdir1 (toU32 (size m1 dir + blksize))
    have ho2 := owned_resize ho1 hdir1 (toU32 (size m1 dir + blksize))
    have hfile2 := hsame.isFile_iff
    generalize hm2 : update m1 (fSize dir) (toU32 (size m1 dir + blksize)) = m2 at hsame ho2 hfile2 ⊢
    have hdir2 := (hfile2 dir).mpr hdir1
    obtain ⟨r, b, m3, hget, hrun, hcases⟩ := fileGetBlock_spec ho2 hdir2 n
    have hgrown3 := AttachStep.run hrun ho2
    have hfield2 : ∀ g k, IsFile m g → k < 34 → (g ≠ dir ∨ k ≠ 32) → m2 (g + k) = m (g + k) := by
      intro g k hg hk hne
      rw [← hm2, resize_field ho1 hdir1 _ ((hgrows.isFile_iff g).mpr hg) (by omega) hne, hgrows.field g k hg hk]
    have hsize2 : m2 (fSize dir) = toU32 (Fs.size m dir + 4096) := by
      rw [← hm2, update_self, hgrows.size_eq hdir, blksize_cast]
    have hexp : Expands dir m m3 := by
      refine ⟨hgrown3.owned, fun g => ?_, fun g k hg hk hne => ?_, .inr ?_, fun lo hu => ?_, fun hfit ha => ?_⟩
      · rw [hgrown3.isFile_iff, hfile2, hgrows.isFile_iff]
      · have hg2 := (hfile2 g).mpr ((hgrows.isFile_iff g).mpr hg)
        rw [hgrown3.field g k hg2 hk, hfield2 g k hg hk hne]
      · rw [show fSize dir = dir + 32 from rfl, hgrown3.field dir 32 hdir2 (by decide)]
        exact hsize2
      · refine hgrown3.unusedBlank lo ?_
        rw [← hm2]
        exact unusedBlank_resize ho1 hdir1 _ (hgrows.unusedBlank lo hu)
      · obtain ⟨h₀, h1⟩ := hfit dir hdir htype
        obtain ⟨hnb, hnb'⟩ := dirNblock_eq h₀ h1 hmod
        have ha1 := hgrows.agrees hfit ha
        have hge : -2147483648 ≤ Fs.size m dir + 4096 := le_trans (by decide) (Int.add_le_add_right h₀ 4096)
        have hsz : Fs.size m1 dir + blksize = Fs.size m dir + 4096 := by
          rw [hgrows.size_eq hdir, blksize_cast]
        have ha2 : Agrees m2 := by
          rw [← hm2, hsz]
          refine agrees_resize hdir1 ha1 hge h1 fun i hi hle => ha1.tail dir i hdir1 hi ?_
          rw [hgrows.size_eq hdir]
          omega
        refine AttachStep.run_agrees hrun ha2 hdir2 ?_
        have hs2 : Fs.size m2 dir = Fs.size m dir + 4096 := by
          rw [show Fs.size m2 dir = toI32 (m2 (fSize dir)) from rfl, hsize2, toI32_toU32, toI32_of_range hge h1]
        rw [hs2]
        omega
    dsimp only
    rw [hget, ok_bind]
    by_cases hr : r < 0
    · rw [if_pos hr]
      exact .pure ⟨hexp, nofun⟩
    rw [if_neg hr]
    split
    · exact .throw (.inl rfl)
    rename_i a ha
    refine .pure ⟨hexp, fun g hg => ?_⟩
    cases hg
    have hin : InDir m3 dir a := by
      rcases hcases with ⟨-, rfl, -, -⟩ | ⟨-, rfl, -⟩ | ⟨-, rfl, hyes, h0⟩
      · obtain ⟨i, c, href, rfl⟩ := hright a ha
        exact ⟨i, c, hgrown3.refers _ _ (hsame.refers_iff.mpr href), rfl⟩
      · obtain ⟨i, c, href, rfl⟩ := hright a ha
        exact ⟨i, c, hgrown3.refers _ _ (hsame.refers_iff.mpr href), rfl⟩
      · cases ha
        refine ⟨n, _, ⟨(hgrown3.isFile_iff dir).mpr hdir2, ?_, rfl, h0⟩, rfl⟩
        by_contra hbig
        exact hyes (.inl (by omega))
    exact hin.entry (j := 0) (by decide)

section
variable (hname : NameOk name)
include hname

lemma setName_of_lt {w : Nat} (h : w < e ∨ e + 32 ≤ w) : setName m e name w = m w := by
  have hlen := hname.short
  unfold maxnamelen at hlen
  refine putBytes_word m (4 * e) (name ++ [0]) ?_
  rw [List.length_append, List.length_singleton]
  omega

lemma nameEmpty_setName : nameEmpty (setName m e name) e = false := by
  cases name with
  | nil => exact absurd rfl hname.ne
  | cons c name =>
    obtain ⟨hc, hlt⟩ := hname.chars c List.mem_cons_self
    have hbyte : getByte (setName m e (c :: name)) (4 * e) = c := by
      unfold setName
      rw [getByte_putBytes, if_pos (by simp)]
      simp [Nat.mod_eq_of_lt hlt]
    simp [nameEmpty, hbyte, hc]

lemma setName_entry {c j c' j' : Nat} (hk : k < 64) (hne : 32 ≤ k ∨ 1024 * c' + 64 * j' ≠ 1024 * c + 64 * j) :
    setName m (1024 * c + 64 * j) name (1024 * c' + 64 * j' + k) = m (1024 * c' + 64 * j' + k) :=
  setName_of_lt hname (by omega)

lemma nameEmpty_setName_ne {c j c' j' : Nat} (hne : 1024 * c' + 64 * j' ≠ 1024 * c + 64 * j) :
    nameEmpty (setName m (1024 * c + 64 * j) name) (1024 * c' + 64 * j') = nameEmpty m (1024 * c' + 64 * j') := by
  unfold nameEmpty
  rw [getByte_congr]
  rw [Nat.mul_div_cancel_left _ (by decide)]
  exact setName_entry hname (k := 0) (by decide) (.inr hne)

lemma blockAt_setName_new (hblank : Blank 34 m e) (k : Nat) :
    blockAt (setName m e name) e k = 0 := by
  have hzero : ∀ l, 34 ≤ l → l < 45 → setName m e name (e + l) = 0 := by
    intro l hl hl'
    rw [setName_of_lt hname (.inr (by omega)), hblank l hl hl']
  by_cases hd : k < ndirect
  · rw [blockAt_direct hd]
    unfold ndirect at hd
    have h0 := hzero (34 + k) (by omega) (by omega)
    rwa [← add_assoc] at h0
  · exact blockAt_none (by omega) (hzero 44 (by decide) (by decide))

end

section
variable {m : Mem} {d i c j : Nat} {name : List Nat} (ho : Owned m) (href : Refers m (.block d i) c)
  (hj : j < blkfiles) (hname : NameOk name)
include ho href hj hname

lemma setName_slot {t : Slot} (ht : t.Exists m) : setName m (1024 * c + 64 * j) name (t.word m) = m (t.word m) := by
  refine setName_of_lt hname ?_
  by_contra hn
  have hne := ho.entry_ne_word ht href hj (k := t.word m - (1024 * c + 64 * j)) (by omega) (.inl (by omega))
  omega

lemma setName_field (hg : IsFile m g) (hk : k < 64) (hne : 32 ≤ k ∨ g ≠ 1024 * c + 64 * j) :
    setName m (1024 * c + 64 * j) name (g + k) = m (g + k) := by
  refine setName_of_lt hname ?_
  by_contra hn
  have hk' : g + k - (1024 * c + 64 * j) < 64 := by omega
  have heq := ho.entry_inj hg href hj hk hk' (by omega)
  omega

omit hj in
lemma sNblocks_setName : sNblocks (setName m (1024 * c + 64 * j) name) = sNblocks m := by
  refine setName_of_lt hname ?_
  have hr := (ho.range _ _ href).1
  have h2 := two_le_reservedEnd m
  omega

omit hj in
lemma blockIsFree_setName (b : Nat) : blockIsFree (setName m (1024 * c + 64 * j) name) b = blockIsFree m b := by
  refine blockIsFree_congr (sNblocks_setName (j := j) ho href hname) fun hb => setName_of_lt hname ?_
  have hr := (ho.range _ _ href).1
  have hres := bitmapWord_reserved hb
  omega

lemma blockAt_setName (hg : IsFile m g) (hk : k < ndirect + nindirect) :
    blockAt (setName m (1024 * c + 64 * j) name) g k = blockAt m g k := by
  refine blockAt_congr (fun hd => ?_) (setName_slot ho href hj hname (t := .indirect g) hg) fun hle hind => ?_
  · have heq := setName_slot ho href hj hname (t := .block g k) ⟨hg, hk, fun hle => absurd hd (by omega)⟩
    simpa only [Slot.word, if_pos hd] using heq
  · have heq := setName_slot ho href hj hname (t := .block g k) ⟨hg, hk, fun _ => hind⟩
    simpa only [Slot.word, if_neg (show ¬ k < ndirect by omega)] using heq

variable (hdir : m (fType d) = ftypeDir)
  (hblank : nameEmpty m (1024 * c + 64 * j) = true → Blank 34 m (1024 * c + 64 * j))
include hdir hblank

lemma isFile_setName (g : Nat) :
    IsFile (setName m (1024 * c + 64 * j) name) g ↔ IsFile m g ∨ g = 1024 * c + 64 * j := by
  constructor
  · intro hg
    induction hg with
    | root => exact .inl .root
    | @entry d' i' j' hd' hdir' hi' hb' hj' hname' ih =>
      have hold : IsFile m d' := by
        rcases ih with ih | rfl
        · exact ih
        · -- the new entry is named in the old tree, or it has no blocks
          cases hempty : nameEmpty m (1024 * c + 64 * j) with
          | true => exact absurd (blockAt_setName_new hname (hblank hempty) i') hb'
          | false =>
            obtain ⟨hd, hi, rfl, h0⟩ := href
            exact .entry hd hdir hi h0 hj hempty
      rw [blockAt_setName ho href hj hname hold hi'] at hb' hname' ⊢
      rw [show fType d' = d' + 33 from rfl,
        setName_field ho href hj hname hold (show 33 < 64 by decide) (.inl (by decide))] at hdir'
      by_cases heq : 1024 * blockAt m d' i' + 64 * j' = 1024 * c + 64 * j
      · exact .inr heq
      · rw [nameEmpty_setName_ne hname heq] at hname'
        exact .inl (.entry hold hdir' hi' hb' hj' hname')
  · have hkeep : ∀ g, IsFile m g → IsFile (setName m (1024 * c + 64 * j) name) g := by
      intro g hg
      induction hg with
      | root => exact .root
      | @entry d' i' j' hd' hdir' hi' hb' hj' hname' ih =>
        have hblk := blockAt_setName ho href hj hname hd' hi'
        rw [← hblk]
        refine .entry ih ?_ hi' (by rwa [hblk]) hj' ?_
        · rw [show fType d' = d' + 33 from rfl,
            setName_field ho href hj hname hd' (show 33 < 64 by decide) (.inl (by decide))]
          exact hdir'
        · rw [hblk]
          by_cases heq : 1024 * blockAt m d' i' + 64 * j' = 1024 * c + 64 * j
          · rw [heq]
            exact nameEmpty_setName hname
          · rw [nameEmpty_setName_ne hname heq]
            exact hname'
    rintro (hg | rfl)
    · exact hkeep g hg
    · obtain ⟨hd, hi, hb, h0⟩ := href
      have hblk := blockAt_setName ho ⟨hd, hi, hb, h0⟩ hj hname hd hi
      rw [hb] at hblk
      have hentry := IsFile.entry (m := setName m (1024 * c + 64 * j) name) (d := d) (i := i) (j := j) (hkeep d hd)
        ((setName_field ho ⟨hd, hi, hb, h0⟩ hj hname hd (show 33 < 64 by decide) (.inl (by decide))).trans hdir) hi
        (by rwa [hblk]) hj (by rw [hblk]; exact nameEmpty_setName hname)
      rwa [hblk] at hentry

lemma refers_setName {t : Slot} {b : Nat} : Refers (setName m (1024 * c + 64 * j) name) t b ↔ Refers m t b := by
  have hfile := isFile_setName ho href hj hname hdir hblank
  -- the new file is one of the old ones, or it has no blocks
  have hnew : IsFile m (1024 * c + 64 * j) ∨ nameEmpty m (1024 * c + 64 * j) := by
    cases hempty : nameEmpty m (1024 * c + 64 * j) with
    | true => exact .inr rfl
    | false =>
      obtain ⟨hd, hi, rfl, h0⟩ := href
      exact .inl (.entry hd hdir hi h0 hj hempty)
  cases t with
  | block g k =>
    constructor
    · rintro ⟨hg, hk, hb, h0⟩
      have hg : IsFile m g := by
        rcases (hfile g).mp hg with hg | rfl
        · exact hg
        · refine hnew.resolve_right fun hempty => h0 ?_
          rw [← hb, blockAt_setName_new hname (hblank hempty)]
      exact ⟨hg, hk, (blockAt_setName ho href hj hname hg hk).symm.trans hb, h0⟩
    · rintro ⟨hg, hk, hb, h0⟩
      exact ⟨(hfile g).mpr (.inl hg), hk, (blockAt_setName ho href hj hname hg hk).trans hb, h0⟩
  | indirect g =>
    constructor
    · rintro ⟨hg, hb, h0⟩
      have hg : IsFile m g := by
        rcases (hfile g).mp hg with hg | rfl
        · exact hg
        · refine hnew.resolve_right fun hempty => h0 ?_
          rw [← hb, fIndirect, setName_of_lt hname (.inr (by omega)), hblank hempty 44 (by decide) (by decide)]
      exact ⟨hg, (setName_slot ho href hj hname (t := .indirect g) hg).symm.trans hb, h0⟩
    · rintro ⟨hg, hb, h0⟩
      exact ⟨(hfile g).mpr (.inl hg), (setName_slot ho href hj hname (t := .indirect g) hg).trans hb, h0⟩

lemma owned_setName : Owned (setName m (1024 * c + 64 * j) name) := by
  have hn := sNblocks_setName (j := j) ho href hname
  have hfree := blockIsFree_setName (j := j) ho href hname
  have hres : reservedEnd (setName m (1024 * c + 64 * j) name) = reservedEnd m := by
    unfold reservedEnd
    rw [hn]
  have hrefs : ∀ t b, Refers (setName m (1024 * c + 64 * j) name) t b → Refers m t b := fun t b =>
    (refers_setName ho href hj hname hdir hblank).mp
  refine ⟨ho.exclusive.mono hrefs fun b hb => (hfree b).symm.trans hb, fun t b ht => ?_, fun b hb => ?_⟩
  · rw [hres, hn]
    exact ho.range t b (hrefs t b ht)
  · rw [hfree]
    exact ho.reserved b (by rwa [hres] at hb)

lemma agrees_setName (ha : Agrees m) : Agrees (setName m (1024 * c + 64 * j) name) := by
  have hn := sNblocks_setName (j := j) ho href hname
  have hfree := blockIsFree_setName (j := j) ho href hname
  have hres : reservedEnd (setName m (1024 * c + 64 * j) name) = reservedEnd m := by
    unfold reservedEnd
    rw [hn]
  refine ⟨owned_setName ho href hj hname hdir hblank, ?_, fun g k hg hk hle => ?_⟩
  · rw [hres, hn]
    intro b hb
    rcases ha.covers b hb with hb | ⟨t, ht⟩
    · exact .inl ((hfree b).trans hb)
    · exact .inr ⟨t, (refers_setName ho href hj hname hdir hblank).mpr ht⟩
  · by_contra h0
    obtain ⟨hg', hk', hb, -⟩ := (refers_setName ho href hj hname hdir hblank (t := .block g k)).mp ⟨hg, hk, rfl, h0⟩
    have hsize : size (setName m (1024 * c + 64 * j) name) g = size m g := by
      unfold size
      rw [show fSize g = g + 32 from rfl, setName_field ho href hj hname hg' (show 32 < 64 by decide) (.inl (by decide))]
    rw [hsize] at hle
    exact h0 (hb.symm.trans (ha.tail g k hg' hk hle))

lemma unusedBlank_setName {lo : Nat} (hu : UnusedBlank lo m) :
    UnusedBlank lo (setName m (1024 * c + 64 * j) name) := by
  intro d' i' c' j' href' hdir' hj' hempty k hk hk'
  have hold := (refers_setName ho href hj hname hdir hblank).mp href'
  have hne : 1024 * c' + 64 * j' ≠ 1024 * c + 64 * j := by
    intro heq
    rw [heq, nameEmpty_setName hname] at hempty
    cases hempty
  rw [nameEmpty_setName_ne hname hne] at hempty
  rw [show fType d' = d' + 33 from rfl,
    setName_field ho href hj hname hold.1 (show 33 < 64 by decide) (.inl (by decide))] at hdir'
  rw [setName_entry hname (by omega) (.inr hne)]
  exact hu d' i' c' j' hold hdir' hj' hempty k hk hk'

end

/-- What `file_create` leaves: one directory may be longer and one file may be new. -/
structure Created (m m' : Mem) : Prop where
  owned : Owned m'
  isFile : ∀ g, IsFile m g → IsFile m' g
  type : ∀ g, IsFile m g → m' (fType g) = m (fType g)
  size : ∀ g, IsFile m g → m' (fSize g) = m (fSize g) ∨
    m (fType g) = ftypeDir ∧ m' (fSize g) = toU32 (size m g + 4096)
  fresh : ∀ lo, 32 ≤ lo → UnusedBlank lo m → ∀ g, IsFile m' g → IsFile m g ∨ Blank lo m' g
  unusedBlank : ∀ lo, UnusedBlank lo m → UnusedBlank lo m'
  agrees : Fits m → Agrees m → Agrees m'

lemma Expands.created (h : Expands dir m m') (htype : m (fType dir) = ftypeDir) : Created m m' := by
  refine ⟨h.owned, fun g hg => (h.isFile_iff g).mpr hg, fun g hg => h.field g 33 hg (by decide) (.inr (by decide)),
    fun g hg => ?_, fun lo _ _ g hg => .inl ((h.isFile_iff g).mp hg), h.unusedBlank, h.agrees⟩
  by_cases hgd : g = dir
  · subst hgd
    exact h.size.imp id fun hs => ⟨htype, hs⟩
  · exact .inl (h.field g 32 hg (by decide) (.inl hgd))

lemma Grows.created (h : Grows m m') : Created m m' :=
  ⟨h.owned, fun g hg => (h.isFile_iff g).mpr hg, fun _ hg => h.type_eq hg, fun g hg => .inl (h.field g 32 hg (by decide)),
    fun _ _ _ g hg => .inl ((h.isFile_iff g).mp hg), h.unusedBlank, h.agrees⟩

lemma Expands.setName (h : Expands dir m m')
    (hdir : IsFile m dir) (htype : m (fType dir) = ftypeDir) (he : EntryOf m' dir e) (hname : NameOk name)
    (hu : UnusedBlank 34 m) : Created m (setName m' e name) ∧ IsFile (setName m' e name) e := by
  have hcr := h.created htype
  obtain ⟨i, c, j, href, hj, rfl⟩ := he
  have htype' : m' (fType dir) = ftypeDir := (hcr.type dir hdir).trans htype
  have hblank : nameEmpty m' (1024 * c + 64 * j) → Blank 34 m' (1024 * c + 64 * j) := fun hempty =>
    hcr.unusedBlank 34 hu dir i c j href htype' hj hempty
  have hfile := isFile_setName hcr.owned href hj hname htype' hblank
  have hkeep : ∀ g k, IsFile m g → 32 ≤ k → k < 64 →
      Fs.setName m' (1024 * c + 64 * j) name (g + k) = m' (g + k) := fun g k hg hk hk' =>
    setName_field hcr.owned href hj hname (hcr.isFile g hg) hk' (.inl hk)
  refine ⟨⟨owned_setName hcr.owned href hj hname htype' hblank, fun g hg => (hfile g).mpr (.inl (hcr.isFile g hg)),
    fun g hg => ?_, fun g hg => ?_, fun lo hlo hu' g hg => ?_, fun lo hu' => ?_, fun hfit ha => ?_⟩,
    (hfile _).mpr (.inr rfl)⟩
  · exact (hkeep g 33 hg (by decide) (by decide)).trans (hcr.type g hg)
  · rw [show fSize g = g + 32 from rfl, hkeep g 32 hg (by decide) (by decide)]
    exact hcr.size g hg
  · rcases (hfile g).mp hg with hg | rfl
    · exact .inl ((h.isFile_iff g).mp hg)
    · cases hempty : nameEmpty m' (1024 * c + 64 * j) with
      | true =>
        refine .inr fun k hk hk' => ?_
        rw [setName_of_lt hname (.inr (by omega))]
        exact hcr.unusedBlank lo hu' dir i c j href htype' hj hempty k hk hk'
      | false =>
        refine .inl ((h.isFile_iff _).mp ?_)
        exact EntryOf.isFile ⟨i, c, j, href, hj, rfl⟩ htype' hempty
  · exact unusedBlank_setName hcr.owned href hj hname htype' hblank (hcr.unusedBlank lo hu')
  · exact agrees_setName hcr.owned href hj hname htype' hblank (hcr.agrees hfit ha)

lemma Grows.then_created {m1 : Mem} (h : Grows m m1) (h' : Created m1 m') : Created m m' := by
  refine ⟨h'.owned, fun g hg => h'.isFile g ((h.isFile_iff g).mpr hg), fun g hg => ?_, fun g hg => ?_,
    fun lo hlo hu g hg => ?_, fun lo hu => h'.unusedBlank lo (h.unusedBlank lo hu), fun hfit ha => ?_⟩
  · rw [h'.type g ((h.isFile_iff g).mpr hg), h.type_eq hg]
  · have hs := h'.size g ((h.isFile_iff g).mpr hg)
    rwa [h.type_eq hg, h.size_eq hg, show m1 (fSize g) = m (fSize g) from h.field g 32 hg (by decide)] at hs
  · exact (h'.fresh lo hlo (h.unusedBlank lo hu) g hg).imp (h.isFile_iff g).mp id
  · exact h'.agrees (h.fits hfit) (h.agrees hfit ha)

lemma fileCreate_spec (ho : Owned m) (hch : Chars path) (hu : UnusedBlank 34 m) :
    Post (LookupError m) (fun out => Created m out.2 ∧ ∀ f, out.1 = .ok f → IsFile out.2 f) (fileCreate path m) := by
  unfold fileCreate
  refine (walkPath_spec ho hch).bind fun out hout => ?_
  obtain ⟨w, m1⟩ := out
  obtain ⟨hgrows, hright⟩ := hout
  dsimp only at hgrows hright ⊢
  by_cases h0 : w.r = 0
  · rw [if_pos h0]
    exact .pure ⟨hgrows.created, nofun⟩
  rw [if_neg h0]
  cases hpdir : w.pdir with
  | none => exact .pure ⟨hgrows.created, nofun⟩
  | some d =>
    dsimp only
    by_cases hnf : w.r ≠ -eNotFound
    · rw [if_pos hnf]
      exact .pure ⟨hgrows.created, nofun⟩
    rw [if_neg hnf]
    obtain ⟨hd, htype, hname⟩ := hright.dir d hpdir h0
    refine ((dirAllocFile_spec hgrows.owned hd htype).mono (fun c hc => hgrows.lookupError hc) fun _ h => h).bind
      fun out hout => ?_
    obtain ⟨e, m2⟩ := out
    obtain ⟨hexp, hentry⟩ := hout
    cases e with
    | error e => exact .pure ⟨hgrows.then_created (hexp.created htype), nofun⟩
    | ok f =>
      obtain ⟨hcr, hf⟩ := hexp.setName hd htype (hentry f rfl) hname (hgrows.unusedBlank 34 hu)
      dsimp only
      rw [fileFlush_ok hcr.owned (hcr.isFile d hd), ok_bind]
      refine .pure ⟨hgrows.then_created hcr, fun g hg => ?_⟩
      cases hg
      exact hf

end Jos.Fs
