import Jos.Fs.File

/-!
# Directories and paths

A directory is a file whose blocks hold 16 `struct File`s each. A path is the
list of its characters before the terminating NUL.
-/

namespace Jos.Fs
open WordMem CInt

/-- `strcmp(f->f_name, name) == 0`. -/
def nameIs (name : List Nat) (m : Mem) (f : Nat) : Bool := bytesAt m (4 * f) (name.length + 1) == name ++ [0]

/-- `f->f_name[0] == '\0'`. -/
def nameEmpty (m : Mem) (f : Nat) : Bool := getByte m (4 * f) == 0

/-- The string in the field `f_name`. -/
def entryName (m : Mem) (f : Nat) : List Nat := (bytesAt m (4 * f) maxnamelen).takeWhile (· != 0)

/-- How the search of a directory ends; a search that finds nothing leaves `blk` behind. -/
inductive Search where
  | found (f : Nat)
  | failed (r : Int)
  | missed (blk : Option Nat)
  deriving Repr, DecidableEq

/-- `n` rounds of the loop over the blocks `i` of `dir`, for the first entry that meets `cond`. -/
def dirSearch (cond : Mem → Nat → Bool) (dir : Nat) : Nat → Nat → Option Nat → Mem → Res (Search × Mem)
  | 0, _, blk, m => .ok (.missed blk, m)
  | n + 1, i, blk, m => do
    let (r, b, m) ← fileGetBlock dir i m
    if r < 0 then return (.failed r, m)
    else
      match b.or blk with
      | none => .error .wild
      | some a =>
        match (List.range blkfiles).find? fun j => cond m (a + 64 * j) with
        | some j => return (.found (a + 64 * j), m)
        | none => dirSearch cond dir n (i + 1) (some a) m

def dirNblock (dir : Nat) (m : Mem) : Res Nat :=
  if (size m dir).tmod blksize = 0 then .ok (toU32 ((size m dir).tdiv blksize))
  else .error (.assertion "(dir->f_size % BLKSIZE) == 0")

def dirLookup (dir : Nat) (name : List Nat) (m : Mem) : Res (Except Int Nat × Mem) := do
  let nblock ← dirNblock dir m
  let (s, m) ← dirSearch (nameIs name) dir nblock 0 none m
  match s with
  | .found f => return (.ok f, m)
  | .failed r => return (.error r, m)
  | .missed _ => return (.error (-eNotFound), m)

def dirAllocFile (dir : Nat) (m : Mem) : Res (Except Int Nat × Mem) := do
  let nblock ← dirNblock dir m
  let (s, m) ← dirSearch nameEmpty dir nblock 0 none m
  match s with
  | .found f => return (.ok f, m)
  | .failed r => return (.error r, m)
  | .missed blk =>
    let m := Function.update m (fSize dir) (toU32 (size m dir + blksize))
    let (r, b, m) ← fileGetBlock dir nblock m
    if r < 0 then return (.error r, m)
    else
      match b.or blk with
      | none => .error .wild
      | some a => return (.ok a, m)

def slash : Nat := 47

def skipSlash (p : List Nat) : List Nat := p.dropWhile (· == slash)

/-- What `walk_path` returns and stores: `*pdir`, `*pf` and `lastelem`. -/
structure Walked where
  r : Int
  pdir : Option Nat
  pf : Option Nat
  lastelem : List Nat
  deriving Repr, DecidableEq

/-- The loop of `walk_path`; every round consumes a character of `path`. -/
def walkLoop : Nat → List Nat → Nat → Option Nat → Mem → Res (Walked × Mem)
  | 0, _, f, dir, m => .ok (⟨0, dir, some f, []⟩, m)
  | n + 1, path, f, dir, m =>
    if path = [] then .ok (⟨0, dir, some f, []⟩, m)
    else
      let name := path.takeWhile (· != slash)
      let rest := skipSlash (path.dropWhile (· != slash))
      if maxnamelen ≤ name.length then .ok (⟨-eBadPath, none, none, []⟩, m)
      else if m (fType f) ≠ ftypeDir then .ok (⟨-eNotFound, none, none, []⟩, m)
      else do
        let (r, m) ← dirLookup f name m
        match r with
        | .ok g => walkLoop n rest g (some f) m
        | .error r =>
          if r = -eNotFound ∧ rest = [] then return (⟨r, some f, none, name⟩, m)
          else return (⟨r, none, none, []⟩, m)

def walkPath (path : List Nat) (m : Mem) : Res (Walked × Mem) :=
  walkLoop (skipSlash path).length (skipSlash path) root none m

/-- `strcpy(f->f_name, name)`. -/
def setName (m : Mem) (f : Nat) (name : List Nat) : Mem := putBytes m (4 * f) (name ++ [0])

def fileCreate (path : List Nat) (m : Mem) : Res (Except Int Nat × Mem) := do
  let (w, m) ← walkPath path m
  if w.r = 0 then return (.error (-eFileExists), m)
  else
    match w.pdir with
    | none => return (.error w.r, m)
    | some dir =>
      if w.r ≠ -eNotFound then return (.error w.r, m)
      else
        let (r, m) ← dirAllocFile dir m
        match r with
        | .error r => return (.error r, m)
        | .ok f =>
          let m := setName m f w.lastelem
          fileFlush dir m
          return (.ok f, m)

def fileOpen (path : List Nat) (m : Mem) : Res (Except Int Nat × Mem) := do
  let (w, m) ← walkPath path m
  match w.pf with
  | some f => return (.ok f, m)
  | none => return (.error w.r, m)

end Jos.Fs
