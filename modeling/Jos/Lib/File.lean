import Jos.Fs.Contents

/-!
# Reading and writing through a file descriptor

`lib/fd.c` and `lib/file.c`: `read`, `readn` and `write` of a client send requests to the
file server in the page `fsipcbuf`, and the server puts its reply into the same page. The
offset is in the `Fd` page, which both have mapped. However many requests a `readn` takes,
it returns the bytes from the offset on, as one read of the whole would.
-/

namespace Jos.Lib
open Fs WordMem CInt Function

def maxfd : Nat := 32
def oRdonly : Nat := 0
def oWronly : Nat := 1
def oRdwr : Nat := 2
def eNotSupp : Int := 15

/-- `struct Fd`. The page it is in is that of entry `page` of the server's table, where `fd_offset` is kept. -/
structure Fd where
  page : Nat
  devId : Nat
  omode : Nat
  fileid : Nat
  deriving Repr, DecidableEq

/-- `fd` are the descriptors that are mapped, `mem` is the memory of the client apart from these and from `fsipcbuf`, and
`asked` counts the requests made. -/
structure Client where
  fd : Nat → Option Fd
  mem : Mem
  fsipcbuf : Mem
  server : Server
  asked : Nat

/-- What a client does not control: before request `k` the server serves others, and it finds the blocks `cached k` in
the cache. -/
structure Outside where
  others : Nat → Server → Server
  cached : Nat → Nat → Bool
  nomem : Nat → Bool

def replyPage (page : Mem) : Answer → Mem
  | .none => page
  | .fd _ => page
  | .data out => putBytes page 0 (out.map Prod.snd)
  | .stat st =>
    update (update (putBytes page 0 (st.name ++ [0])) (maxnamelen / 4) (toU32 st.size)) (maxnamelen / 4 + 1)
      st.isdir.toNat

def fsipc (o : Outside) (type : Nat) (c : Client) : Res (Int × Client) := do
  let s := o.others c.asked c.server
  let (r, ans, s) ← serve (o.cached c.asked) (o.nomem c.asked) type c.fsipcbuf s
  return (r, { c with server := s, fsipcbuf := replyPage c.fsipcbuf ans, asked := c.asked + 1 })

def devfileRead (o : Outside) (fd : Fd) (buf n : Nat) (c : Client) : Res (Int × Client) := do
  let req := update (update c.fsipcbuf 0 fd.fileid) 1 n
  let (r, c) ← fsipc o fsreqRead { c with fsipcbuf := req }
  if r < 0 then return (r, c)
  else if n < r.toNat then .error (.assertion "r <= n")
  else if pgsize < r.toNat then .error (.assertion "r <= PGSIZE")
  else return (r, { c with mem := putBytes c.mem buf (bytesAt c.fsipcbuf 0 r.toNat) })

def devfileWrite (o : Outside) (fd : Fd) (buf n : Nat) (c : Client) : Res (Int × Client) :=
  let n := if pgsize - 8 < n then pgsize - 8 else n
  let req := update (update c.fsipcbuf 0 fd.fileid) 1 n
  fsipc o fsreqWrite { c with fsipcbuf := putBytes req 8 (bytesAt c.mem buf n) }

structure Dev where
  devId : Nat
  devRead : Option (Outside → Fd → Nat → Nat → Client → Res (Int × Client))
  devWrite : Option (Outside → Fd → Nat → Nat → Client → Res (Int × Client))

def devfile : Dev := ⟨102, some devfileRead, some devfileWrite⟩

def fdLookup (fdnum : Int) (c : Client) : Except Int Fd :=
  if fdnum < 0 ∨ maxfd ≤ fdnum then .error (-eInval)
  else
    match c.fd fdnum.toNat with
    | none => .error (-eInval)
    | some fd => .ok fd

def devLookup (devtab : List Dev) (devId : Nat) : Option Dev := devtab.find? fun dev => dev.devId == devId

section
variable (devtab : List Dev) (o : Outside)

def read (fdnum : Int) (buf n : Nat) (c : Client) : Res (Int × Client) :=
  match fdLookup fdnum c with
  | .error r => return (r, c)
  | .ok fd =>
    match devLookup devtab fd.devId with
    | none => return (-eInval, c)
    | some dev =>
      if fd.omode % 4 = oWronly then return (-eInval, c)
      else
        match dev.devRead with
        | none => return (-eNotSupp, c)
        | some devRead => devRead o fd buf n c

def write (fdnum : Int) (buf n : Nat) (c : Client) : Res (Int × Client) :=
  match fdLookup fdnum c with
  | .error r => return (r, c)
  | .ok fd =>
    match devLookup devtab fd.devId with
    | none => return (-eInval, c)
    | some dev =>
      if fd.omode % 4 = oRdonly then return (-eInval, c)
      else
        match dev.devWrite with
        | none => return (-eNotSupp, c)
        | some devWrite => devWrite o fd buf n c

def readnLoop (fdnum : Int) (buf n : Nat) : Nat → Nat → Client → Res (Int × Client)
  | 0, tot, c => return (tot, c)
  | k + 1, tot, c =>
    if tot < n then do
      let (m, c) ← read devtab o fdnum (buf + tot) (n - tot) c
      if m < 0 then return (m, c)
      else if m = 0 then return (tot, c)
      else readnLoop fdnum buf n k (tot + m.toNat) c
    else return (tot, c)

def readn (fdnum : Int) (buf n : Nat) (c : Client) : Res (Int × Client) := readnLoop devtab o fdnum buf n n 0 c

end

/-- `fd` is open at the server as the file `f`, of size `sz` and with the bytes `content`, and the offset is `off`. There
is room for the blocks from there to `stop`. -/
structure Held (fd : Fd) (f sz : Nat) (content : Nat → Nat) (off stop : Nat) (s : Server) : Prop where
  lookup : openfileLookup s fd.fileid = some fd.page
  file : (s.opentab fd.page).oFile = f
  offset : s.fdOffset fd.page = off
  owned : Owned s.disk
  isFile : IsFile s.disk f
  regular : s.disk (fType f) ≠ ftypeDir
  size : size s.disk f = sz
  bytes : ∀ p, p / 4096 < ndirect + nindirect → byteAt s.disk f p = content p
  room : Enough s.disk f (off / 4096) (blockEnd off stop)

section
variable {fd : Fd} {f sz off stop : Nat} {content : Nat → Nat} {s : Server}

lemma blockEnd_mono {off off' stop stop' : Nat} (h0 : off ≤ off') (h1 : off' ≤ stop') (h2 : stop' ≤ stop) :
    blockEnd off' stop' ≤ blockEnd off stop := by
  unfold blockEnd
  split <;> split <;> omega

lemma enough_empty (m : Mem) (f : Nat) {lo hi : Nat} (h : hi ≤ lo) : Enough m f lo hi := by
  refine ⟨fun hlt => by omega, ?_⟩
  rw [needed_empty m f h]
  exact Nat.zero_le _

lemma capped_read (n : Nat) : (if n ≤ pgsize then n else pgsize) = min n 4096 := by
  unfold pgsize
  split <;> omega

lemma Held.serveRead (h : Held fd f sz content off stop s) (hsz : sz ≤ maxfilesize) (cached : Nat → Bool) {page : Mem}
    (hid : page 0 = fd.fileid) (hmax : off + page 1 ≤ maxfilesize) (hstop : stop = off + min (page 1) (sz - off)) {k : Nat}
    (hk : k = min (min (page 1) pgsize) (sz - off)) : ∃ out s', Fs.serveRead cached page s = .ok (k, out, s') ∧
      out.map Prod.snd = (List.range k).map (fun j => content (off + j)) ∧ Held fd f sz content (off + k) stop s' := by
  have hsize := h.size
  have hcount : readCount s.disk f (min (page 1) 4096) off = k := by
    rw [hk, readCount, hsize]
    exact congrArg _ (Int.toNat_sub sz off)
  have hall : k ≤ page 1 := by
    rw [hk]
    exact le_trans (min_le_left _ _) (min_le_left _ _)
  have hle : off + k ≤ stop := by
    rw [hk, hstop]
    exact Nat.add_le_add_left (min_le_min_right _ (min_le_left _ _)) off
  have hlim : off + k ≤ maxfilesize := le_trans (Nat.add_le_add_left hall off) hmax
  rw [maxfilesize_eq] at hlim
  clear hk hstop hall hmax
  have hoff : toI32 (s.fdOffset fd.page) = (off : Int) := by
    rw [h.offset]
    exact toI32_of_range (by omega) (by omega)
  have hroom : Enough s.disk f (off / 4096) (blockEnd off (off + readCount s.disk f (min (page 1) 4096) off)) := by
    rw [hcount]
    exact h.room.subrange le_rfl (blockEnd_mono le_rfl (Nat.le_add_right _ _) hle)
  obtain ⟨out, m', hrun, ho', hout, hkeeps, hbytes⟩ := fileRead_contents h.owned h.isFile h.regular cached
    (min (page 1) 4096) off (by rw [hsize]; exact_mod_cast hsz) hroom
  rw [hcount] at hrun hout hkeeps
  have hnext : (if (0 : Int) < k then toU32 ((off : Int) + k) else s.fdOffset fd.page) = off + k := by
    have hword := toU32_of_range (i := (off : Int) + k) (by omega) (by omega)
    have hold := h.offset
    split <;> omega
  refine ⟨out, { s with disk := m', fdOffset := update s.fdOffset fd.page (off + k) }, ?_, ?_, ?_⟩
  · unfold Fs.serveRead
    rw [hid, h.lookup]
    dsimp only
    rw [capped_read, h.file, hoff, hrun, ok_bind]
    dsimp only
    rw [hnext]
    rfl
  · rw [hout]
    refine List.map_congr_left fun j hj => h.bytes _ ?_
    have hj' := List.mem_range.mp hj
    unfold ndirect nindirect
    omega
  · refine ⟨h.lookup, h.file, update_self .., ho', (hkeeps.isFile_iff f).mpr h.isFile, ?_, ?_, fun p hp => ?_, ?_⟩
    · have htype : m' (fType f) = s.disk (fType f) := hkeeps.field f 33 h.isFile (by decide)
      exact fun hdir => h.regular (htype.symm.trans hdir)
    · exact (hkeeps.size_eq h.isFile).trans hsize
    · exact (hbytes f p h.isFile h.regular hp).trans (h.bytes p hp)
    · by_cases hlt : off < stop
      · have hend : blockEnd off stop = (stop + 4095) / 4096 := if_pos hlt
        have hall : Enough m' f (off / 4096) (blockEnd off stop) :=
          hkeeps.enough le_rfl (by rw [hend]; omega) h.room (by rw [hend]; omega)
        exact hall.subrange (Nat.div_le_div_right (Nat.le_add_right _ _)) (blockEnd_mono (Nat.le_add_right _ _) hle le_rfl)
      · have hend : blockEnd (off + k) stop = (off + k) / 4096 := if_neg (by omega)
        exact enough_empty _ _ (le_of_eq hend)

end

section
variable {devtab : List Dev} {o : Outside} {fdnum : Nat} {fd : Fd} {f sz : Nat} {content : Nat → Nat}

structure OfFile (c : Client) (fdnum : Nat) (fd : Fd) : Prop where
  range : fdnum < maxfd
  mapped : c.fd fdnum = some fd
  dev : fd.devId = devfile.devId
  mode : fd.omode % 4 = oRdwr

section
variable {c : Client} (h : OfFile c fdnum fd)
include h

lemma OfFile.fdLookup : fdLookup fdnum c = .ok fd := by
  have hrange := h.range
  unfold Lib.fdLookup
  rw [if_neg (by omega), Int.toNat_natCast, h.mapped]

lemma OfFile.devLookup : devLookup (devfile :: devtab) fd.devId = some devfile := by
  unfold Lib.devLookup
  rw [List.find?_cons_of_pos (by rw [h.dev]; rfl)]

lemma OfFile.read (buf n : Nat) : read (devfile :: devtab) o fdnum buf n c = devfileRead o fd buf n c := by
  unfold Lib.read
  rw [h.fdLookup]
  dsimp only
  rw [h.devLookup]
  dsimp only
  rw [if_neg (by rw [h.mode]; decide)]
  rfl

lemma OfFile.write (buf n : Nat) : write (devfile :: devtab) o fdnum buf n c = devfileWrite o fd buf n c := by
  unfold Lib.write
  rw [h.fdLookup]
  dsimp only
  rw [h.devLookup]
  dsimp only
  rw [if_neg (by rw [h.mode]; decide)]
  rfl

end

end

section

variable {o : Outside} {fd : Fd} {f sz off : Nat} {content : Nat → Nat}

structure Wrote (fd : Fd) (f sz : Nat) (content : Nat → Nat) (off n : Nat) (bytes : Nat → Nat) (s : Server) : Prop where
  offset : s.fdOffset fd.page = off + n
  owned : Owned s.disk
  isFile : IsFile s.disk f
  size : size s.disk f = max sz (off + n)
  bytes : ∀ p, p / 4096 < ndirect + nindirect →
    byteAt s.disk f p = if off ≤ p ∧ p < off + n then bytes (p - off) else content p

lemma Held.serveWrite {s : Server} {n : Nat} (h : Held fd f sz content off (off + n) s) (hmax : off + n ≤ maxfilesize)
    (hn : n ≤ pgsize - 8) (cached : Nat → Bool) {page : Mem} (hid : page 0 = fd.fileid) (hcount : page 1 = n) :
    ∃ s', Fs.serveWrite cached page s = .ok (n, s') ∧
      Wrote fd f sz content off n (fun j => getByte page (8 + j)) s' := by
  have hsize := h.size
  have hbuf : ∀ m i, i < n → reqBuf page m i = getByte page (8 + i) := fun m i hi => if_pos (lt_of_lt_of_le hi hn)
  obtain ⟨m', hrun, hwrote⟩ := fileWrite_contents h.owned h.isFile h.regular cached (fun j => getByte page (8 + j))
    (by rw [hsize]; omega) hmax h.room
  rw [maxfilesize_eq] at hmax
  have hoff : toI32 (s.fdOffset fd.page) = (off : Int) := by
    rw [h.offset]
    exact toI32_of_range (by omega) (by omega)
  have hnext : (if (n : Int) < 0 then s.fdOffset fd.page else toU32 ((off : Int) + n)) = off + n := by
    have hword := toU32_of_range (i := (off : Int) + n) (by omega) (by omega)
    rw [if_neg (by omega)]
    omega
  refine ⟨{ s with disk := m', fdOffset := update s.fdOffset fd.page (off + n) }, ?_, update_self ..,
    hwrote.owned, (hwrote.isFile_iff f).mpr h.isFile, ?_, fun p hp => ?_⟩
  · unfold Fs.serveWrite
    rw [hid, h.lookup]
    dsimp only
    rw [hcount, if_neg (Nat.not_lt.mpr (le_trans hn (Nat.sub_le _ _))), h.file, hoff,
      fileWrite_congr h.owned h.isFile cached (by rw [hsize]; omega) (by omega) hbuf, hrun, ok_bind]
    dsimp only
    rw [hnext]
    rfl
  · rw [hwrote.size, hsize]
    omega
  · rw [hwrote.bytes f p h.isFile h.regular hp, h.bytes p hp]
    exact if_congr (by simp) (Nat.mod_eq_of_lt (getByte_lt _ _)) rfl

end

/-- `fdnum` is a descriptor for the regular file `f`, open for reading and writing, with the offset `off`. -/
structure OpenedAt (c : Client) (fdnum : Nat) (fd : Fd) (f off : Nat) : Prop extends OfFile c fdnum fd where
  lookup : openfileLookup c.server fd.fileid = some fd.page
  file : (c.server.opentab fd.page).oFile = f
  offset : c.server.fdOffset fd.page = off
  consistent : Consistent c.server.disk
  isFile : IsFile c.server.disk f
  regular : c.server.disk (fType f) = ftypeReg

lemma OpenedAt.held {c : Client} {fdnum f off : Nat} {fd : Fd} (h : OpenedAt c fdnum fd f off) {stop : Nat}
    (hroom : Enough c.server.disk f (off / 4096) (blockEnd off stop)) :
    Held fd f (size c.server.disk f).toNat (byteAt c.server.disk f) off stop c.server := by
  have hsize := (h.consistent.sizes f h.isFile).1
  refine ⟨h.lookup, h.file, h.offset, h.consistent.toOwned, h.isFile, ?_, (Int.toNat_of_nonneg hsize).symm, fun _ _ => rfl, hroom⟩
  rw [h.regular]
  decide

def alone : Outside := ⟨fun _ s => s, fun _ _ => false, fun _ => false⟩

end Jos.Lib
