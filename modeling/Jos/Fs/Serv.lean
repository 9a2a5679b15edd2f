import Jos.Fs.Dir

/-!
# The file server

`fs/serv.c`: the table of open files and the functions that serve the requests of
clients. A request is a code and a page, which the client fills as it likes; the
page is a memory of its own. Every open file has an `Fd` page that is shared with
the clients: of it the server reads and writes `fd_offset` only, and it looks at
the number of references to the page.
-/

namespace Jos.Fs
open WordMem CInt Bits Function

def maxopen : Nat := 1024
def maxpathlen : Nat := 1024

def oCreat : Nat := 0x0100
def oTrunc : Nat := 0x0200
def oExcl : Nat := 0x0400

def fsreqOpen : Nat := 1
def fsreqSetSize : Nat := 2
def fsreqRead : Nat := 3
def fsreqWrite : Nat := 4
def fsreqStat : Nat := 5
def fsreqFlush : Nat := 6
def fsreqSync : Nat := 8

/-- `o_fd` is the page of the entry's index. -/
structure OpenFile where
  oFileid : Nat
  oFile : Nat
  oMode : Nat
  deriving Repr, DecidableEq

/-- `pageref i` and `fdOffset i` are `pageref(opentab[i].o_fd)` and the word `opentab[i].o_fd->fd_offset`. -/
structure Server where
  disk : Mem
  opentab : Nat → OpenFile
  pageref : Nat → Nat
  fdOffset : Nat → Nat

/-- The value returned and the entry; `nomem` is whether `sys_page_alloc` fails. -/
def openfileAlloc (nomem : Bool) (s : Server) : Int × Option Nat × Server :=
  match (List.range maxopen).find? fun i => s.pageref i ≤ 1 with
  | none => (-eMaxOpen, none, s)
  | some i =>
    if s.pageref i = 0 ∧ nomem = true then (-eNoMem, none, s)
    else
      let fileid := ((s.opentab i).oFileid + maxopen) % 4294967296
      (toI32 fileid, some i,
        { s with
          opentab := update s.opentab i { s.opentab i with oFileid := fileid }
          pageref := update s.pageref i 1
          fdOffset := update s.fdOffset i 0 })

def openfileLookup (s : Server) (fileid : Nat) : Option Nat :=
  if s.pageref (fileid % maxopen) ≤ 1 ∨ (s.opentab (fileid % maxopen)).oFileid ≠ fileid then none
  else some (fileid % maxopen)

def cString (m : Mem) (a n : Nat) : List Nat := (bytesAt m a n).takeWhile (· != 0)

/-- The file that `serve_open` finds or creates. -/
def openPath (path : List Nat) (omode : Nat) (m : Mem) : Res (Except Int Nat × Mem) := do
  if flag omode oCreat = true then
    let (f, m) ← fileCreate path m
    match f with
    | .ok f => return (.ok f, m)
    | .error r =>
      if flag omode oExcl = false ∧ r = -eFileExists then fileOpen path m
      else return (.error r, m)
  else fileOpen path m

/-- The truncation in `serve_open`. -/
def openTrunc (f omode : Nat) (m : Mem) : Res (Int × Mem) :=
  if flag omode oTrunc = true then fileSetSize f 0 m else .ok (0, m)

def serveOpen (nomem : Bool) (page : Mem) (s : Server) : Res (Int × Option Nat × Server) := do
  let path := cString page 0 (maxpathlen - 1)
  let omode := page (maxpathlen / 4)
  let (r, o, s) := openfileAlloc nomem s
  match o with
  | none => return (r, none, s)
  | some i =>
    if r < 0 then return (r, none, s)
    else
      let (f, m) ← openPath path omode s.disk
      match f with
      | .error r => return (r, none, { s with disk := m })
      | .ok f =>
        let (_, m) ← openTrunc f omode m
        let (f, m) ← fileOpen path m
        match f with
        | .error r => return (r, none, { s with disk := m })
        | .ok f =>
          let o := { s.opentab i with oFile := f, oMode := omode }
          return (0, some i, { s with disk := m, opentab := update s.opentab i o })

def serveSetSize (page : Mem) (s : Server) : Res (Int × Server) :=
  match openfileLookup s (page 0) with
  | none => return (-eInval, s)
  | some i => do
    let (r, m) ← fileSetSize (s.opentab i).oFile (toI32 (page 1)) s.disk
    return (r, { s with disk := m })

/-- The value returned and the bytes stored in `ret_buf`, each with its address in the disk map. -/
def serveRead (cached : Nat → Bool) (page : Mem) (s : Server) : Res (Int × List (Nat × Nat) × Server) :=
  match openfileLookup s (page 0) with
  | none => return (-eInval, [], s)
  | some i => do
    let size := if page 1 ≤ pgsize then page 1 else pgsize
    let (r, out, m) ← fileRead cached (s.opentab i).oFile size (toI32 (s.fdOffset i)) s.disk
    let offset := if 0 < r then toU32 (toI32 (s.fdOffset i) + r) else s.fdOffset i
    return (r, out, { s with disk := m, fdOffset := update s.fdOffset i offset })

/-- The bytes from `req_buf` up; the request page is followed by block 0 of the disk map. -/
def reqBuf (page m : Mem) (i : Nat) : Nat := if i < pgsize - 8 then getByte page (8 + i) else getByte m (i - (pgsize - 8))

def serveWrite (cached : Nat → Bool) (page : Mem) (s : Server) : Res (Int × Server) :=
  match openfileLookup s (page 0) with
  | none => return (-eInval, s)
  | some i => do
    let n := if pgsize < page 1 then pgsize else page 1
    let (r, m) ← fileWrite cached (reqBuf page) (s.opentab i).oFile n (toI32 (s.fdOffset i)) s.disk
    let offset := if r < 0 then s.fdOffset i else toU32 (toI32 (s.fdOffset i) + r)
    return (r, { s with disk := m, fdOffset := update s.fdOffset i offset })

/-- `struct Fsret_stat`. -/
structure Stat where
  name : List Nat
  size : Int
  isdir : Bool

def serveStat (page : Mem) (s : Server) : Int × Option Stat :=
  match openfileLookup s (page 0) with
  | none => (-eInval, none)
  | some i =>
    let f := (s.opentab i).oFile
    (0, some ⟨cString s.disk (4 * f) maxnamelen, size s.disk f, s.disk (fType f) == ftypeDir⟩)

def serveFlush (page : Mem) (s : Server) : Res Int :=
  match openfileLookup s (page 0) with
  | none => return -eInval
  | some i => do
    fileFlush (s.opentab i).oFile s.disk
    return 0

inductive Answer where
  | none
  | fd (i : Nat)
  | data (out : List (Nat × Nat))
  | stat (st : Stat)

/-- One round of the loop of `serve`. `fs_sync` writes the blocks in the cache to the disk, which changes
nothing here. -/
def serve (cached : Nat → Bool) (nomem : Bool) (req : Nat) (page : Mem) (s : Server) : Res (Int × Answer × Server) := do
  if req = fsreqOpen then
    let (r, o, s) ← serveOpen nomem page s
    return (r, o.elim .none .fd, s)
  else if req = fsreqRead then
    let (r, out, s) ← serveRead cached page s
    return (r, .data out, s)
  else if req = fsreqStat then
    let (r, st) := serveStat page s
    return (r, st.elim .none .stat, s)
  else if req = fsreqFlush then
    let r ← serveFlush page s
    return (r, .none, s)
  else if req = fsreqWrite then
    let (r, s) ← serveWrite cached page s
    return (r, .none, s)
  else if req = fsreqSetSize then
    let (r, s) ← serveSetSize page s
    return (r, .none, s)
  else if req = fsreqSync then return (0, .none, s)
  else return (-eInval, .none, s)

end Jos.Fs
