import Jos.Fs.Clients

/-!
# Who may use an open file

The server passes the sender of a request to every handler, but no handler looks at
it, nor at the mode in which the file was opened: both are left to the library of
the client. Requests that come from the library, for an `Fd` page that the sender has
mapped and whose mode allows them, are the ones that the server ought to accept.
-/

namespace Jos.Fs
open WordMem CInt Bits Relation Function

variable {m : Mem} {w w' : World}

def fileByte (m : Mem) (f pos : Nat) : Nat :=
  if pos / 4096 < ndirect + nindirect ∧ blockAt m f (pos / 4096) ≠ 0 then
    getByte m (4096 * blockAt m f (pos / 4096) + pos % 4096)
  else 0

def Changes (m m' : Mem) (f : Nat) : Prop :=
  size m' f ≠ size m f ∨ ∃ pos : Nat, pos < size m f ∧ fileByte m' f pos ≠ fileByte m f pos

lemma not_changes_self (m : Mem) (f : Nat) : ¬ Changes m m f := by
  rintro (hsize | ⟨pos, -, hne⟩)
  · exact hsize rfl
  · exact hne rfl

lemma getByte_zero {a : Nat} (h : m (a / 4) = 0) : getByte m a = 0 := by
  unfold getByte byteOf
  rw [h, Nat.zero_div]

lemma AttachStep.fileByte_eq {f bno : Nat} {m' : Mem} (h : AttachStep f bno m m') (ho : Owned m) (hf : IsFile m f)
    (pos : Nat) : fileByte m' f pos = fileByte m f pos := by
  have hdata : ∀ w, InData m f w → m' w = m w := fun w hw => Growth.data (.single ⟨bno, h⟩) ho hw
  obtain ⟨s, b, hs, hempty, hatt, -⟩ := h
  unfold fileByte
  by_cases hi : pos / 4096 < ndirect + nindirect
  · rw [hatt.blockAt_eq ho hs hempty hf hi]
    split
    · rename_i hslot
      subst hslot
      -- the block was not there before and is clear now
      have h0 : blockAt m f (pos / 4096) = 0 := (blockAt_word hs).trans hempty
      split
      · rw [if_neg (fun h => h.2 h0)]
        exact getByte_zero (hatt.clear _ (by omega))
      · rw [if_neg (fun h => h.2 h0)]
    · by_cases h0 : blockAt m f (pos / 4096) = 0
      · rw [if_neg (fun h => h.2 h0), if_neg (fun h => h.2 h0)]
      · rw [if_pos ⟨hi, h0⟩, if_pos ⟨hi, h0⟩]
        refine getByte_congr (hdata _ ⟨pos / 4096, hf, hi, ?_, ?_⟩) <;> omega
  · rw [if_neg (fun h => hi h.1), if_neg (fun h => hi h.1)]

lemma Growth.not_changes {f : Nat} {m' : Mem} (h : ReflTransGen (Growth f) m m') (ho : Owned m) (hf : IsFile m f) :
    ¬ Changes m m' f := by
  have hbyte : ∀ pos, fileByte m' f pos = fileByte m f pos := by
    intro pos
    induction h with
    | refl => rfl
    | tail hrun hstep ih =>
      have hgrown := Growth.grownFrom hrun ho
      obtain ⟨bno, hstep⟩ := hstep
      rw [hstep.fileByte_eq hgrown.owned ((hgrown.isFile_iff f).mpr hf), ih]
  rintro (hsize | ⟨pos, -, hne⟩)
  · exact hsize ((Growth.grownFrom h ho).size_eq hf)
  · exact hne (hbyte pos)

def NamesFile (req : Nat) : Prop := req = fsreqRead ∨ req = fsreqWrite ∨ req = fsreqSetSize ∨ req = fsreqStat

/-- `O_ACCMODE` is 3 and `O_RDONLY` is 0. -/
def Writable (mode : Nat) : Prop := mode % 4 ≠ 0

/-- A request that `read`, `write`, `fstat` or `ftruncate` send for an `Fd` page of the environment; they leave
the id and the mode in the page alone. -/
def Honest (w : World) : Event → Prop
  | .share _ _ _ => True
  | .unmap _ => True
  | .poke i _ page => page = w.fd i
  | .request env _ _ req page _ => Careful req page w.server ∧
      (NamesFile req → ∃ i va, (env, va) ∈ w.maps i ∧ page 0 = (w.fd i).fileid ∧
        (req = fsreqWrite ∨ req = fsreqSetSize → Writable (w.fd i).omode))

def FdRight (w : World) : Prop := ∀ i, (w.maps i).Nonempty →
  (w.fd i).fileid = (w.opentab i).oFileid ∧ (w.fd i).omode = (w.opentab i).oMode % 4

structure Served (w : World) : Prop where
  ledger : Ledger w
  running : Running w.server
  fdRight : FdRight w

lemma Takes.fdRight {i omode : Nat} {ans : Answer} (h : Takes w w' i omode ans) (hl : Ledger w)
    (hfd : FdRight w) : FdRight w' := by
  intro j hmap
  rcases h.maps j hmap with hold | ⟨rfl, -, hpage, hmode⟩
  · have hji : j ≠ i := by
      rintro rfl
      rw [hl.unmapped h.first.2.1] at hold
      exact Finset.not_nonempty_empty hold
    rw [(h.other j hji).1, (h.other j hji).2]
    exact hfd j hold
  · rw [hpage, hmode]
    exact ⟨rfl, rfl⟩

lemma Quiet.fdRight (h : Quiet w w') (hfd : FdRight w) : FdRight w' := by
  intro j hmap
  rw [h.maps] at hmap
  rw [h.fd, h.opentab]
  exact hfd j hmap

lemma Running.of_world (hgood : Good w.disk)
    (hfiles : ∀ i, (w.maps i).Nonempty → IsFile w.disk (w.opentab i).oFile) : Running w.server :=
  ⟨hgood, fun i hi => hfiles i (World.mapped_of_refs hi)⟩

lemma Served.isFile (h : Served w) {i : Nat} (hmap : (w.maps i).Nonempty) : IsFile w.disk (w.opentab i).oFile :=
  h.running.files i (h.ledger.refs_of_mapped hmap)

lemma Served.request {w : World} (hw : Served w) {cached : Nat → Bool} {nomem : Bool} {req : Nat} {page : Mem} {r : Int}
    {ans : Answer} {s : Server} (h : serve cached nomem req page w.server = .ok (r, ans, s))
    (hcare : Careful req page w.server) (dst : Option Place) :
    Served (w.answered (w.allocates nomem req) (page (maxpathlen / 4)) dst ans s) := by
  have hrunning := (serve_running cached page hw.running nomem req).ok _ h hcare
  have hs : Running s := hrunning s (.inl rfl)
  have hold : ∀ i, (w.maps i).Nonempty → IsFile s.disk (s.opentab i).oFile := fun i hmap => by
    have hrefs : 1 < w.server.pageref i := hw.ledger.refs_of_mapped hmap
    exact hs.files i (by rwa [serve_pageref h hrefs])
  rcases answered_cases h dst with hquiet | ⟨i, htakes⟩
  · refine ⟨hquiet.ledger hw.ledger, .of_world hs.good fun i hmap => ?_, hquiet.fdRight hw.fdRight⟩
    rw [hquiet.maps] at hmap
    exact hold i hmap
  · refine ⟨htakes.ledger hw.ledger, .of_world hs.good fun j hmap => ?_, htakes.fdRight hw.ledger hw.fdRight⟩
    rcases htakes.maps j hmap with hmap | ⟨rfl, rfl, -, -⟩
    · exact hold j hmap
    · have hsent := hrunning { s with pageref := update s.pageref j 2 } (.inr ⟨j, 2, rfl, rfl⟩)
      have htwo : 1 < update s.pageref j 2 j := by
        rw [update_self]
        decide
      exact hsent.files j htwo

lemma Happens.served {ev : Event} (h : Happens w ev w') (hhonest : Honest w ev) (hw : Served w) : Served w' := by
  have hl := h.ledger hw.ledger
  cases h with
  | @share i src dst hsrc =>
    have hmaps : ∀ j, (mapAt dst i w.maps j).Nonempty → (w.maps j).Nonempty := fun j hmap => by
      rcases mapAt_nonempty hmap with rfl | hmap
      · exact ⟨_, hsrc⟩
      · exact hmap
    exact ⟨hl, .of_world hw.running.good fun j hmap => hw.isFile (hmaps j hmap),
      fun j hmap => hw.fdRight j (hmaps j hmap)⟩
  | unmap p =>
    have hmaps : ∀ j, ((w.maps j).erase p).Nonempty → (w.maps j).Nonempty := fun j hmap =>
      hmap.mono (Finset.erase_subset _ _)
    exact ⟨hl, .of_world hw.running.good fun j hmap => hw.isFile (hmaps j hmap),
      fun j hmap => hw.fdRight j (hmaps j hmap)⟩
  | @poke i offset page hmap =>
    obtain rfl : page = w.fd i := hhonest
    refine ⟨hl, .of_world hw.running.good fun j hmap => hw.isFile hmap, fun j hmap => ?_⟩
    dsimp only
    rw [update_eq_self]
    exact hw.fdRight j hmap
  | request env dst h => exact hw.request h hhonest.1 dst

lemma serveRead_not_changes (hw : Served w) (cached : Nat → Bool) (page : Mem) :
    Post (fun _ => True) (fun out => ¬ Changes w.disk out.2.2.disk (reqFile page w.server)) (serveRead cached page w.server) := by
  unfold serveRead
  split
  · exact .pure (not_changes_self w.disk _)
  · rename_i i hlook
    obtain ⟨rfl, hrefs, -⟩ := openfileLookup_eq_some.mp hlook
    have hf : IsFile w.disk (reqFile page w.server) := hw.running.files _ hrefs
    refine ((fileRead_growth hw.running.good.owned hf cached _ _).mono (fun _ _ => trivial) fun _ h => h).bind ?_
    exact fun out hout => .pure (Growth.not_changes hout hw.running.good.owned hf)

lemma WorldStep.served {w0 : World} (hboot : Booted w0) (hstart : Running w0.server)
    (hrun : ReflTransGen (WorldStep Honest) w0 w) : Served w := by
  induction hrun with
  | refl =>
    refine ⟨hboot.ledger, hstart, fun i hmap => ?_⟩
    rw [hboot.maps i] at hmap
    exact absurd hmap Finset.not_nonempty_empty
  | tail _ hstep ih =>
    obtain ⟨ev, hhonest, hev⟩ := hstep
    exact hev.served hhonest ih

lemma serve_not_changes (hw : Served w) {cached : Nat → Bool} {nomem : Bool} {req : Nat} {page : Mem} {r : Int}
    {ans : Answer} {s : Server} (hreq : req = fsreqRead ∨ req = fsreqStat)
    (h : serve cached nomem req page w.server = .ok (r, ans, s)) : ¬ Changes w.disk s.disk (reqFile page w.server) := by
  have hpost : Post (fun _ => True) (fun out => ¬ Changes w.disk out.2.2.disk (reqFile page w.server))
      (serve cached nomem req page w.server) := by
    unfold serve
    rcases hreq with rfl | rfl
    · rw [if_neg (by decide), if_pos rfl]
      exact (serveRead_not_changes hw cached page).bind fun out hout => .pure hout
    · rw [if_neg (by decide), if_neg (by decide), if_pos rfl]
      exact .pure (not_changes_self w.disk _)
  exact hpost.ok (r, ans, s) h

/-- Requests that the library of a client sends for one of its open files: the sender has the page of the file
mapped, and the file is changed only if it was opened for writing. -/
theorem access_controlled {w0 w : World} (hboot : Booted w0) (hstart : Running w0.server)
    (hrun : ReflTransGen (WorldStep Honest) w0 w) {env : Nat} {cached : Nat → Bool} {nomem : Bool} {req : Nat} {page : Mem}
    {dst : Option Place} {r : Int} {ans : Answer} {s : Server} (hreq : NamesFile req)
    (hhonest : Honest w (.request env cached nomem req page dst))
    (h : serve cached nomem req page w.server = .ok (r, ans, s)) :
    (0 ≤ r → ∃ va, (env, va) ∈ w.maps (page 0 % maxopen)) ∧
      (Changes w.disk s.disk (reqFile page w.server) → Writable (w.opentab (page 0 % maxopen)).oMode) := by
  have hw := WorldStep.served hboot hstart hrun
  obtain ⟨i, va, hmap, hid, hmode⟩ := hhonest.2 hreq
  obtain ⟨hfileid, homode⟩ := hw.fdRight i ⟨_, hmap⟩
  obtain ⟨hi, -⟩ := hw.ledger.mapped i ⟨_, hmap⟩
  have hslot : page 0 % maxopen = i := by
    rw [hid, hfileid, hw.ledger.fileid i hi, nthId_mod hi]
  have hwrite : req = fsreqWrite ∨ req = fsreqSetSize → Writable (w.opentab i).oMode := fun hreq => by
    have h := hmode hreq
    unfold Writable at h ⊢
    omega
  rw [hslot]
  refine ⟨fun _ => ⟨va, hmap⟩, fun hchange => ?_⟩
  rcases hreq with hreq | hreq | hreq | hreq
  · exact absurd hchange (serve_not_changes hw (.inl hreq) h)
  · exact hwrite (.inl hreq)
  · exact hwrite (.inr hreq)
  · exact absurd hchange (serve_not_changes hw (.inr hreq) h)

theorem access_controlled_truncate : WorldStep Honest bootWorld openedWorld ∧
    Honest openedWorld (.request 1 (fun _ => true) false fsreqSetSize setSizeReq none) ∧
    ∃ va, (1, va) ∈ openedWorld.maps (setSizeReq 0 % maxopen) := by
  have hcare : Careful fsreqOpen (openReq 24879) bootWorld.server :=
    ⟨fun _ => ⟨fun h => absurd h (by decide), fun h => absurd h (by decide)⟩, fun h => absurd h (by decide),
      fun h => absurd h (by decide)⟩
  have hopen : WorldStep Honest bootWorld openedWorld :=
    bootWorld_opens Honest ⟨hcare, fun h => absurd h (by unfold NamesFile; decide)⟩
  have hhonest : Honest openedWorld (.request 1 (fun _ => true) false fsreqSetSize setSizeReq none) := by
    refine ⟨⟨fun h => absurd h (by decide), fun _ i hi => ?_, fun h => absurd h (by decide)⟩, fun _ => ⟨0, 0, ?_⟩⟩
    · obtain ⟨rfl, -⟩ := openfileLookup_eq_some.mp hi
      decide
    · exact ⟨Finset.mem_insert_self _ _, rfl, fun _ => (by decide : 2 % 4 ≠ 0)⟩
  have hserve : serve (fun _ => true) false fsreqSetSize setSizeReq openedWorld.server =
      .ok (0, .none, { openedWorld.server with disk := update smallDisk 3104 1 }) := rfl
  exact ⟨hopen, hhonest,
    (access_controlled bootWorld_booted bootServer_running (.single hopen) (.inr (.inr (.inl rfl))) hhonest hserve).1
      (Int.le_refl 0)⟩

/-- A request to open `/a` with `O_RDONLY`. -/
def readonlyReq : Mem := fun w => if w = 0 then 24879 else 0

lemma readonlyReq_path : cString readonlyReq 0 (maxpathlen - 1) = [47, 97] := cString_short rfl (by decide)

def readonlyServer : Server :=
  { openedServer 3072 1 with opentab := update (update bootServer.opentab 0 ⟨1024, 0, 0⟩) 0 ⟨1024, 3072, 0⟩ }

lemma open_readonly :
    serve (fun _ => true) false fsreqOpen readonlyReq bootWorld.server = .ok (0, .fd 0, readonlyServer) := by
  unfold serve serveOpen
  rw [if_pos rfl, readonlyReq_path, show bootWorld.server = bootServer from rfl, bootServer_alloc]
  rfl

/-- Environment 1 opens a file for reading, and a request of environment 2 changes its size. -/
theorem readonly_file_resized : ∃ w s, ReflTransGen (WorldStep fun _ _ => True) bootWorld w ∧
    serve (fun _ => true) false fsreqSetSize setSizeReq w.server = .ok (0, .none, s) ∧
    (∀ va, (2, va) ∉ w.maps (setSizeReq 0 % maxopen)) ∧ ¬ Writable (w.opentab (setSizeReq 0 % maxopen)).oMode ∧
    Changes w.disk s.disk (reqFile setSizeReq w.server) := by
  have hev := Happens.request (w := bootWorld) 1 (some (1, 0)) open_readonly
  rw [bootWorld_allocates] at hev
  refine ⟨_, _, .single ⟨_, trivial, hev⟩, rfl, fun va hmap => ?_, fun h => h rfl, .inl (by decide)⟩
  rcases Finset.mem_insert.mp hmap with h | h
  · cases h
  · cases h

end Jos.Fs
