import Jos.Base.Pieces
import Jos.Fs.Confined
import Jos.Fs.DirSpec

/-!
# Path names

A path is the list of the names between its slashes. On a disk whose directories have all
their blocks, `walk_path` follows this list from the root, one look at a directory for each
name, and changes nothing.
-/

namespace Jos.Fs
open WordMem CInt

variable {d f i : Nat} {m : Mem} {name path : List Nat}

def components (path : List Nat) : List (List Nat) := pieces (· == slash) path

/-- The files that can be reached: the root and the named entries of the blocks of its directories. -/
inductive InTree (m : Mem) : Nat → Prop where
  | root : InTree m Fs.root
  | entry {d i j : Nat} (hd : InTree m d) (hdir : m (fType d) = ftypeDir) (hi : i < nblocks (size m d)) (hj : j < blkfiles)
      (hname : nameEmpty m (1024 * blockAt m d i + 64 * j) = false) : InTree m (1024 * blockAt m d i + 64 * j)

structure Allocated (m : Mem) : Prop where
  sizes : ∀ d, InTree m d → m (fType d) = ftypeDir →
    0 ≤ size m d ∧ (blksize : Int) ∣ size m d ∧ nblocks (size m d) ≤ ndirect + nindirect
  blocks : ∀ d i, InTree m d → m (fType d) = ftypeDir → i < nblocks (size m d) →
    blockAt m d i ≠ 0 ∧ blockAt m d i < sNblocks m
  indirect : ∀ d, InTree m d → m (fType d) = ftypeDir → ndirect < nblocks (size m d) → m (fIndirect d) < sNblocks m

lemma InTree.isFile (h : ∀ d i, IsFile m d → m (fType d) = ftypeDir → i < nblocks (size m d) →
    i < ndirect + nindirect ∧ blockAt m d i ≠ 0) (hf : InTree m f) : IsFile m f := by
  induction hf with
  | root => exact .root
  | entry hd hdir hi hj hname ih =>
    obtain ⟨hlt, hb⟩ := h _ _ ih hdir hi
    exact .entry ih hdir hlt hb hj hname

def entriesFrom (m : Mem) (d i n : Nat) : List Nat :=
  (List.range' i n).flatMap fun k => (List.range blkfiles).map fun j => 1024 * blockAt m d k + 64 * j

def entries (m : Mem) (d : Nat) : List Nat := entriesFrom m d 0 (nblocks (size m d))

lemma entries_congr {m' : Mem} (hsize : size m' d = size m d)
    (hblocks : ∀ i, i < nblocks (size m d) → blockAt m' d i = blockAt m d i) : entries m' d = entries m d := by
  unfold entries entriesFrom
  rw [hsize]
  refine List.flatMap_congr fun i hi => ?_
  obtain ⟨-, hlt⟩ := List.mem_range'_1.1 hi
  rw [hblocks i (by omega)]

def lookup (m : Mem) (d : Nat) (name : List Nat) : Option Nat := (entries m d).find? (nameIs name m)

structure NameTree where
  isDir : Nat → Bool
  look : Nat → List Nat → Option Nat

def nameTree (m : Mem) : NameTree := ⟨fun f => m (fType f) == ftypeDir, lookup m⟩

namespace NameTree
variable (t : NameTree)

def follow : List (List Nat) → Nat → Option Nat
  | [], f => some f
  | name :: names, f =>
    if maxnamelen ≤ name.length ∨ t.isDir f = false then none else (t.look f name).bind (follow names)

/-- What `walk_path` returns for the names from `f` on, `dir` being the directory of `f`. -/
def resolve : List (List Nat) → Nat → Option Nat → Walked
  | [], f, dir => ⟨0, dir, some f, []⟩
  | name :: names, f, _ =>
    if maxnamelen ≤ name.length then ⟨-eBadPath, none, none, []⟩
    else if t.isDir f = false then ⟨-eNotFound, none, none, []⟩
    else
      match t.look f name with
      | some g => resolve names g (some f)
      | none => if names = [] then ⟨-eNotFound, some f, none, name⟩ else ⟨-eNotFound, none, none, []⟩

variable {t}

lemma follow_append (names names' : List (List Nat)) : ∀ f, t.follow (names ++ names') f = (t.follow names f).bind (t.follow names') := by
  induction names with
  | nil => exact fun f => rfl
  | cons name names ih =>
    intro f
    rw [List.cons_append, follow, follow]
    split
    · rfl
    · rw [Option.bind_assoc, funext ih]

/-- What a tree finds from files with `P` for names with `Q` is found in every tree that keeps these entries. -/
theorem follow_mono {t' : NameTree} {P : Nat → Prop} {Q : List Nat → Prop}
    (hkeeps : ∀ d name f, P d → Q name → name.length < maxnamelen → t.isDir d → t.look d name = some f →
      P f ∧ t'.isDir d ∧ t'.look d name = some f) (names : List (List Nat)) :
    ∀ {f g : Nat}, (∀ name ∈ names, Q name) → P f → t.follow names f = some g → P g ∧ t'.follow names f = some g := by
  induction names with
  | nil =>
    intro f g _ hf hfollow
    cases hfollow
    exact ⟨hf, rfl⟩
  | cons name names ih =>
    intro f g hQ hf hfollow
    rw [follow] at hfollow
    split at hfollow
    · cases hfollow
    · rename_i hgoes
      obtain ⟨hshort, hdir⟩ := not_or.1 hgoes
      obtain ⟨next, hlook, hrest⟩ := Option.bind_eq_some_iff.1 hfollow
      obtain ⟨hnext, hdir', hlook'⟩ :=
        hkeeps f name next hf (hQ name List.mem_cons_self) (Nat.lt_of_not_le hshort) (Bool.eq_true_of_not_eq_false hdir) hlook
      obtain ⟨hg, hfollow'⟩ := ih (fun n hn => hQ n (List.mem_cons_of_mem name hn)) hnext hrest
      refine ⟨hg, ?_⟩
      rw [follow, if_neg (not_or.2 ⟨hshort, by rw [hdir']; exact Bool.noConfusion⟩), hlook']
      exact hfollow'

lemma resolve_pf (names : List (List Nat)) : ∀ (f : Nat) (dir : Option Nat), (t.resolve names f dir).pf = t.follow names f := by
  induction names with
  | nil => exact fun f dir => rfl
  | cons name names ih =>
    intro f dir
    rw [resolve, follow]
    by_cases hlong : maxnamelen ≤ name.length
    · rw [if_pos hlong, if_pos (.inl hlong)]
    rw [if_neg hlong]
    by_cases hdir : t.isDir f = false
    · rw [if_pos hdir, if_pos (.inr hdir)]
    rw [if_neg hdir, if_neg (not_or.2 ⟨hlong, hdir⟩)]
    cases hlook : t.look f name with
    | none =>
      dsimp only [Option.bind]
      split <;> rfl
    | some g => exact ih g (some f)

lemma resolve_r (names : List (List Nat)) : ∀ (f : Nat) (dir : Option Nat), (t.resolve names f dir).pf.isSome ∨
    (t.resolve names f dir).r = -eBadPath ∧ (t.resolve names f dir).pdir = none ∨ (t.resolve names f dir).r = -eNotFound := by
  induction names with
  | nil => exact fun f dir => .inl rfl
  | cons name names ih =>
    intro f dir
    rw [resolve]
    split
    · exact .inr (.inl ⟨rfl, rfl⟩)
    · split
      · exact .inr (.inr rfl)
      · cases t.look f name with
        | none =>
          dsimp only
          split <;> exact .inr (.inr rfl)
        | some g => exact ih g (some f)

lemma resolve_found (names : List (List Nat)) : ∀ (f : Nat) (dir : Option Nat),
    (∀ g, (t.resolve names f dir).r = 0 ∧ (t.resolve names f dir).pf = some g ↔ t.follow names f = some g) ∧
    ((t.resolve names f dir).r = 0 → (t.resolve names f dir).pdir = if names = [] then dir else t.follow names.dropLast f) := by
  induction names with
  | nil =>
    intro f dir
    refine ⟨fun g => ⟨And.right, fun h => ⟨rfl, h⟩⟩, fun _ => rfl⟩
  | cons name names ih =>
    intro f dir
    rw [resolve, follow]
    by_cases hlong : maxnamelen ≤ name.length
    · rw [if_pos hlong, if_pos (.inl hlong)]
      exact ⟨fun g => ⟨fun h => (nomatch h.2), fun h => (nomatch h)⟩, fun h => absurd h (by decide)⟩
    rw [if_neg hlong]
    by_cases hdir : t.isDir f = false
    · rw [if_pos hdir, if_pos (.inr hdir)]
      exact ⟨fun g => ⟨fun h => (nomatch h.2), fun h => (nomatch h)⟩, fun h => absurd h (by decide)⟩
    have hgoes : ¬ (maxnamelen ≤ name.length ∨ t.isDir f = false) := fun h => h.elim hlong hdir
    rw [if_neg hdir, if_neg hgoes]
    cases hlook : t.look f name with
    | none =>
      dsimp only [Option.bind]
      split <;>
        exact ⟨fun g => ⟨fun h => (nomatch h.2), fun h => (nomatch h)⟩,
          fun h => absurd h (show ¬ (-eNotFound : Int) = 0 by decide)⟩
    | some g =>
      refine ⟨(ih g (some f)).1, fun hr => ?_⟩
      have hpdir := (ih g (some f)).2 hr
      cases names with
      | nil => exact hpdir
      | cons name' names =>
        rw [if_neg (List.cons_ne_nil _ _)] at hpdir
        rw [if_neg (List.cons_ne_nil _ _), List.dropLast_cons_of_ne_nil (List.cons_ne_nil _ _), follow,
          if_neg hgoes, hlook]
        exact hpdir

lemma resolve_missing (names : List (List Nat)) : ∀ (f : Nat) (dir : Option Nat) (d : Nat) (last : List Nat),
    (t.resolve names f dir).r = -eNotFound ∧ (t.resolve names f dir).pdir = some d ∧ (t.resolve names f dir).lastelem = last ↔
      ∃ init, names = init ++ [last] ∧ t.follow init f = some d ∧ t.isDir d ∧ last.length < maxnamelen ∧
        t.look d last = none := by
  induction names with
  | nil =>
    intro f dir d last
    refine ⟨fun h => absurd (show (0 : Int) = -eNotFound from h.1) (by decide), ?_⟩
    rintro ⟨init, hinit, -⟩
    exact absurd hinit.symm (by simp)
  | cons name names ih =>
    intro f dir d last
    rw [resolve]
    by_cases hlong : maxnamelen ≤ name.length
    · rw [if_pos hlong]
      refine ⟨fun h => absurd h.1 (show ¬ (-eBadPath : Int) = -eNotFound by decide), ?_⟩
      rintro ⟨_ | ⟨first, init⟩, hnames, hfollow, -, hlast, -⟩ <;> cases hnames
      · omega
      · rw [follow, if_pos (.inl hlong)] at hfollow
        cases hfollow
    rw [if_neg hlong]
    by_cases hdir : t.isDir f = false
    · rw [if_pos hdir]
      refine ⟨fun h => (nomatch h.2.1), ?_⟩
      rintro ⟨_ | ⟨first, init⟩, hnames, hfollow, hisDir, -, -⟩ <;> cases hnames
      · cases hfollow
        exact absurd (hdir.symm.trans hisDir) Bool.false_ne_true
      · rw [follow, if_pos (.inr hdir)] at hfollow
        cases hfollow
    rw [if_neg hdir]
    have hgoes : ¬ (maxnamelen ≤ name.length ∨ t.isDir f = false) := fun h => h.elim hlong hdir
    cases hlook : t.look f name with
    | some g =>
      refine (ih g (some f) d last).trans ⟨?_, ?_⟩
      · rintro ⟨init, rfl, hfollow, hrest⟩
        refine ⟨name :: init, rfl, ?_, hrest⟩
        rw [follow, if_neg hgoes, hlook]
        exact hfollow
      · rintro ⟨_ | ⟨first, init⟩, hnames, hfollow, hrest⟩ <;> cases hnames
        · cases hfollow
          exact nomatch hlook.symm.trans hrest.2.2
        · rw [follow, if_neg hgoes, hlook] at hfollow
          exact ⟨init, rfl, hfollow, hrest⟩
    | none =>
      by_cases hlast : names = []
      · subst hlast
        constructor
        · rintro ⟨-, hd, hname⟩
          cases hd
          cases hname
          exact ⟨[], rfl, rfl, Bool.eq_true_of_not_eq_false hdir, Nat.lt_of_not_le hlong, hlook⟩
        · rintro ⟨_ | ⟨first, init⟩, hnames, hfollow, -⟩
          · cases hnames
            cases hfollow
            exact ⟨rfl, rfl, rfl⟩
          · simp at hnames
      · dsimp only
        rw [if_neg hlast]
        refine ⟨fun h => (nomatch h.2.1), ?_⟩
        rintro ⟨_ | ⟨first, init⟩, hnames, hfollow, -⟩ <;> cases hnames
        · exact absurd rfl hlast
        · rw [follow, if_neg hgoes, hlook] at hfollow
          cases hfollow

end NameTree

/-! ## Names -/

lemma nameIs_iff_entryName (hch : Chars name) (hshort : name.length < maxnamelen) :
    nameIs name m f ↔ entryName m f = name := by
  have hprefix := take_bytesAt m (4 * f) (show name.length + 1 ≤ maxnamelen from hshort)
  have hall : ∀ c ∈ name, (c != 0) := fun c hc => by simpa using (hch c hc).1
  unfold nameIs entryName
  rw [beq_iff_eq, ← hprefix]
  have hlength : (bytesAt m (4 * f) maxnamelen).length = maxnamelen := by simp [bytesAt]
  generalize bytesAt m (4 * f) maxnamelen = bytes at hlength
  constructor
  · intro h
    rw [← List.take_append_drop (name.length + 1) bytes, h, List.append_assoc, List.takeWhile_append_of_pos hall,
      List.singleton_append, List.takeWhile_cons_of_neg (by decide), List.append_nil]
  · intro h
    have hsplit := List.takeWhile_append_dropWhile (p := (· != 0)) (l := bytes)
    rw [h] at hsplit
    rcases hrest : bytes.dropWhile (· != 0) with _ | ⟨c, rest⟩
    · rw [hrest, List.append_nil] at hsplit
      rw [hsplit, hlength] at hshort
      exact absurd hshort (lt_irrefl _)
    · have hzero : c = 0 := by
        have hhead := List.head?_dropWhile_not (· != 0) bytes
        rw [hrest] at hhead
        simpa using hhead
      rw [← hsplit, hrest, hzero, List.take_append, List.take_of_length_le (Nat.le_succ _), Nat.add_sub_cancel_left]
      rfl

lemma nameEmpty_iff : nameEmpty m f ↔ entryName m f = [] := by
  rw [← nameIs_iff_entryName (fun c hc => absurd hc List.not_mem_nil) (show ([] : List Nat).length < maxnamelen by decide)]
  simp [nameEmpty, nameIs, bytesAt]

/-! ## Looking at a directory -/

section
variable {m : Mem} (h : Allocated m) {d : Nat} (hd : InTree m d) (hdir : m (fType d) = ftypeDir)
include h hd hdir

lemma Allocated.nblock : dirNblock d m = .ok (nblocks (size m d)) ∧ size m d = 4096 * nblocks (size m d) := by
  obtain ⟨h0, hdvd, hmax⟩ := h.sizes d hd hdir
  have hmod : (size m d).tmod blksize = 0 := Int.tmod_eq_zero_of_dvd hdvd
  have hlt : size m d < 2147483648 := (toI32_range _).2
  rw [blksize_cast] at hdvd
  have hn := nblocks_of_fits h0 (by omega)
  unfold ndirect nindirect at hmax
  refine ⟨?_, by omega⟩
  unfold dirNblock
  rw [if_pos hmod, (dirNblock_eq h0 (by omega) hmod).1]

lemma Allocated.getBlock (hi : i < nblocks (size m d)) :
    fileGetBlock d i m = .ok (0, some (1024 * blockAt m d i), m) := by
  obtain ⟨-, -, hmax⟩ := h.sizes d hd hdir
  obtain ⟨hne, hlt⟩ := h.blocks d i hd hdir hi
  exact fileGetBlock_present (by omega) rfl hne hlt fun hle => h.indirect d hd hdir (by omega)

/-- A search of directory blocks finds the first entry that meets the condition, or it ends at the last block. -/
theorem Allocated.search (cond : Mem → Nat → Bool) (n : Nat) (blk : Option Nat) (hn : i + n ≤ nblocks (size m d)) :
    dirSearch cond d n i blk m = .ok (((entriesFrom m d i n).find? (cond m)).elim
      (.missed (if n = 0 then blk else some (1024 * blockAt m d (i + n - 1)))) .found, m) := by
  induction n generalizing i blk with
  | zero => rfl
  | succ n ih =>
    have hentries : entriesFrom m d i (n + 1) =
        ((List.range blkfiles).map fun j => 1024 * blockAt m d i + 64 * j) ++ entriesFrom m d (i + 1) n := by
      unfold entriesFrom
      rw [List.range'_succ, List.flatMap_cons]
    unfold dirSearch
    rw [h.getBlock hd hdir (show i < _ by omega), ok_bind, hentries, List.find?_append, List.find?_map]
    dsimp only [Option.or]
    rw [if_neg (by decide)]
    cases hfind : (List.range blkfiles).find? fun j => cond m (1024 * blockAt m d i + 64 * j) with
    | some j =>
      simp only [Function.comp_def, hfind]
      rfl
    | none =>
      simp only [Function.comp_def, hfind]
      refine (ih (some (1024 * blockAt m d i)) (show i + 1 + n ≤ _ by omega)).trans ?_
      have hlast : (if n = 0 then some (1024 * blockAt m d i) else some (1024 * blockAt m d (i + 1 + n - 1))) =
          some (1024 * blockAt m d (i + (n + 1) - 1)) := by
        split
        · rename_i hzero
          rw [hzero]
          rfl
        · rw [show i + 1 + n - 1 = i + (n + 1) - 1 by omega]
      rw [hlast]
      rfl

lemma Allocated.dirLookup (name : List Nat) :
    Fs.dirLookup d name m = .ok ((lookup m d name).elim (.error (-eNotFound)) .ok, m) := by
  unfold Fs.dirLookup
  rw [(h.nblock hd hdir).1, ok_bind,
    h.search hd hdir (nameIs name) (nblocks (size m d)) none (le_of_eq (zero_add _)), ok_bind]
  unfold lookup entries
  cases (entriesFrom m d 0 (nblocks (size m d))).find? (nameIs name m) <;> rfl

end

lemma mem_entries : f ∈ entries m d ↔
    ∃ i j, i < nblocks (size m d) ∧ j < blkfiles ∧ f = 1024 * blockAt m d i + 64 * j := by
  unfold entries entriesFrom
  simp only [List.mem_flatMap, List.mem_range'_1, List.mem_map, List.mem_range, Nat.zero_le, true_and, zero_add]
  constructor
  · rintro ⟨i, hi, j, hj, rfl⟩
    exact ⟨i, j, hi, hj, rfl⟩
  · rintro ⟨i, j, hi, hj, rfl⟩
    exact ⟨i, hi, j, hj, rfl⟩

lemma lookup_named (hne : name ≠ []) (hch : Chars name) (h : lookup m d name = some f) : nameEmpty m f = false := by
  unfold lookup at h
  exact nameEmpty_of_nameIs hne hch (List.find?_some h)

lemma InTree.lookup (hd : InTree m d) (hdir : m (fType d) = ftypeDir)
    (hne : name ≠ []) (hch : Chars name) (h : Fs.lookup m d name = some f) : InTree m f := by
  have hmem : f ∈ entries m d := by
    unfold Fs.lookup at h
    exact List.mem_of_find?_eq_some h
  have hnamed := lookup_named hne hch h
  obtain ⟨i, j, hi, hj, rfl⟩ := mem_entries.1 hmem
  exact .entry hd hdir hi hj hnamed

/-! ## Following a path -/

lemma components_cons (hne : path ≠ []) (hhead : path.head? ≠ some slash) :
    components path = path.takeWhile (· != slash) :: components (skipSlash (path.dropWhile (· != slash))) :=
  pieces_eq_cons (· == slash) (takeWhile_ne_nil hne hhead)

lemma components_skipSlash (path : List Nat) : components (skipSlash path) = components path :=
  pieces_dropWhile _ path

lemma components_eq_nil_iff (hhead : path.head? ≠ some slash) : components path = [] ↔ path = [] := by
  constructor
  · intro h
    by_contra hne
    rw [components_cons hne hhead] at h
    cases h
  · rintro rfl
    rfl

lemma isDir_false : (nameTree m).isDir f = false ↔ m (fType f) ≠ ftypeDir := by
  simp only [nameTree, beq_eq_false_iff_ne]

lemma isDir_true : (nameTree m).isDir f ↔ m (fType f) = ftypeDir := by
  simp only [nameTree, beq_iff_eq]

lemma nameTree_look (m : Mem) (d : Nat) (name : List Nat) : (nameTree m).look d name = lookup m d name := by
  simp only [nameTree]

lemma Allocated.walkLoop (h : Allocated m) (n : Nat) (dir : Option Nat)
    (hf : InTree m f) (hch : Chars path) (hhead : path.head? ≠ some slash) (hn : path.length ≤ n) :
    Fs.walkLoop n path f dir m = .ok ((nameTree m).resolve (components path) f dir, m) := by
  induction n generalizing path f dir with
  | zero =>
    obtain rfl : path = [] := List.eq_nil_of_length_eq_zero (Nat.le_zero.1 hn)
    rfl
  | succ n ih =>
    simp only [Fs.walkLoop]
    by_cases hnil : path = []
    · rw [if_pos hnil, hnil]
      rfl
    rw [if_neg hnil, components_cons hnil hhead, NameTree.resolve]
    by_cases hlong : maxnamelen ≤ (path.takeWhile (· != slash)).length
    · rw [if_pos hlong, if_pos hlong]
    rw [if_neg hlong, if_neg hlong]
    by_cases htype : m (fType f) ≠ ftypeDir
    · rw [if_pos htype, if_pos (isDir_false.2 htype)]
    rw [if_neg htype, if_neg fun hfalse => htype (isDir_false.1 hfalse)]
    have htype' : m (fType f) = ftypeDir := not_not.mp htype
    have hname : Chars (path.takeWhile (· != slash)) := fun c hc => hch c ((List.takeWhile_sublist _).subset hc)
    have hrest : Chars (skipSlash (path.dropWhile (· != slash))) :=
      chars_skipSlash fun c hc => hch c ((List.dropWhile_sublist _).subset hc)
    have hshort : (skipSlash (path.dropWhile (· != slash))).length ≤ n := by
      have hslash := (List.dropWhile_sublist (· == slash) (l := path.dropWhile (· != slash))).length_le
      have hfirst := List.length_pos_iff.2 (takeWhile_ne_nil hnil hhead)
      have hsplit := congrArg List.length (List.takeWhile_append_dropWhile (p := (· != slash)) (l := path))
      rw [List.length_append] at hsplit
      unfold skipSlash
      omega
    rw [h.dirLookup hf htype', ok_bind, nameTree_look]
    cases hlook : lookup m f (path.takeWhile (· != slash)) with
    | some g =>
      exact ih (some f) (hf.lookup htype' (takeWhile_ne_nil hnil hhead) hname hlook) hrest (head_skipSlash _) hshort
    | none =>
      dsimp only [Option.elim]
      simp only [true_and, components_eq_nil_iff (head_skipSlash _)]
      split <;> rfl

/-- What `walk_path` makes of a path: it follows the names, it sets the directory and the last name without a file when
only the last name is missing, and it looks up no empty name. -/
structure Resolves (m : Mem) (path : List Nat) (w : Walked) : Prop where
  result : w = (nameTree m).resolve (components path) root none
  found : ∀ f, w.r = 0 ∧ w.pf = some f ↔ (nameTree m).follow (components path) root = some f
  dir : w.r = 0 → w.pdir = if components path = [] then none else (nameTree m).follow (components path).dropLast root
  missing : ∀ d name, w.r = -eNotFound ∧ w.pdir = some d ∧ w.lastelem = name ↔
    ∃ names, components path = names ++ [name] ∧ (nameTree m).follow names root = some d ∧ m (fType d) = ftypeDir ∧
      name.length < maxnamelen ∧ lookup m d name = none
  named : ∀ name ∈ components path, name ≠ [] ∧ ∀ d f, lookup m d name = some f → nameEmpty m f = false

lemma chars_components (h : Chars path) (hname : name ∈ components path) : Chars name :=
  fun c hc => h c (mem_of_mem_pieces _ hname c hc)

lemma Allocated.walkPath_eq (h : Allocated m) (hch : Chars path) :
    walkPath path m = .ok ((nameTree m).resolve (components path) root none, m) := by
  unfold walkPath
  rw [h.walkLoop _ none .root (chars_skipSlash hch) (head_skipSlash path) le_rfl, components_skipSlash]

lemma Allocated.fileOpen_one (h : Allocated m) (hroot : m (fType root) = ftypeDir)
    (hch : Chars path) (hone : components path = [name]) (hshort : name.length < maxnamelen) :
    fileOpen path m = .ok ((lookup m root name).elim (.error (-eNotFound)) .ok, m) := by
  have hisDir : ¬ (nameTree m).isDir root = false := fun hfalse => isDir_false.1 hfalse hroot
  unfold fileOpen
  rw [h.walkPath_eq hch, ok_bind, hone, NameTree.resolve, if_neg (Nat.not_le.2 hshort), if_neg hisDir, nameTree_look]
  cases lookup m root name <;> rfl

/-- `walk_path` resolves the names of the path, whatever slashes stand between them. -/
theorem walkPath_resolves {m : Mem} (h : Allocated m) {path : List Nat} (hch : Chars path) :
    ∃ w, Resolves m path w ∧ walkPath path m = .ok (w, m) ∧ walkPath (slash :: path) m = .ok (w, m) ∧
      walkPath (path ++ [slash]) m = .ok (w, m) ∧
      ∀ a b, path = a ++ slash :: b → walkPath (a ++ slash :: slash :: b) m = .ok (w, m) := by
  have hslash : slash ≠ 0 ∧ slash < 256 := by decide
  have hother : ∀ path', Chars path' → components path' = components path →
      walkPath path' m = .ok ((nameTree m).resolve (components path) root none, m) := by
    intro path' hch' heq
    rw [h.walkPath_eq hch', heq]
  refine ⟨_, ⟨rfl, ?_, ?_, ?_, ?_⟩, h.walkPath_eq hch, ?_, ?_, ?_⟩
  · exact (NameTree.resolve_found _ _ _).1
  · exact (NameTree.resolve_found _ _ _).2
  · intro d name
    rw [NameTree.resolve_missing]
    simp only [isDir_true, nameTree_look]
  · intro name hname
    exact ⟨ne_nil_of_mem_pieces _ hname, fun d f => lookup_named (ne_nil_of_mem_pieces _ hname) (chars_components hch hname)⟩
  · refine hother _ (fun c hc => ?_) (pieces_cons _ (by decide) path)
    rcases List.mem_cons.1 hc with rfl | hc
    · exact hslash
    · exact hch c hc
  · refine hother _ (fun c hc => ?_) (pieces_append_singleton _ (by decide) path)
    rcases List.mem_append.1 hc with hc | hc
    · exact hch c hc
    · rw [List.mem_singleton.1 hc]
      exact hslash
  · rintro a b rfl
    refine hother _ (fun c hc => hch c ?_) ?_
    · simp only [List.mem_append, List.mem_cons] at hc ⊢
      tauto
    · unfold components
      rw [pieces_append_cons _ (by decide), pieces_append_cons _ (by decide), pieces_cons _ (by decide)]

lemma smallDisk_root (hi : i < nblocks (size smallDisk root)) :
    i < ndirect + nindirect ∧ blockAt smallDisk root i = 3 := by
  have hone : nblocks (size smallDisk root) = 1 := by decide
  obtain rfl : i = 0 := by omega
  decide

lemma smallDisk_allocated : Allocated smallDisk := by
  have hfile : ∀ d, InTree smallDisk d → IsFile smallDisk d := by
    refine fun d => InTree.isFile fun d i hd hdir hi => ?_
    obtain rfl := smallDisk_checked.eq_root hd hdir
    obtain ⟨hlt, hblock⟩ := smallDisk_root hi
    exact ⟨hlt, by rw [hblock]; decide⟩
  refine ⟨fun d hd hdir => ?_, fun d i hd hdir hi => ?_, fun d hd hdir hi => ?_⟩ <;>
    obtain rfl := smallDisk_checked.eq_root (hfile d hd) hdir
  · decide
  · rw [(smallDisk_root hi).2]
    decide
  · exact absurd hi (by decide)

theorem walkPath_resolves_small : Chars [47, 97, 47] ∧ ∃ w, Resolves smallDisk [47, 97, 47] w ∧
    walkPath [47, 97, 47] smallDisk = .ok (w, smallDisk) := by
  have hch : Chars [47, 97, 47] := by
    unfold Chars
    decide
  obtain ⟨w, hw, hrun, -⟩ := walkPath_resolves smallDisk_allocated hch
  exact ⟨hch, w, hw, hrun⟩

end Jos.Fs
