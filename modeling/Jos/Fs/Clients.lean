import Jos.Fs.Directories
import Mathlib.Data.Finset.Card

/-!
# The clients of the file server

The server and its clients share the `Fd` page of every open file. The server looks
only at the number of references to the page, which clients change by themselves:
they map it at a second place (`dup`, `fork`, `spawn`) and unmap it. Here the counts
are those of the mappings, and the ids that an entry of `opentab` has had are kept.
-/

namespace Jos.Fs
open WordMem CInt Bits Relation Function

variable {ans : Answer} {cached : Nat → Bool} {i j n req : Nat} {nomem : Bool} {page : Mem} {r : Int} {s : Server}

abbrev Place := Nat × Nat

/-- `fd_file.id` and `fd_omode` of an `Fd` page. -/
structure FdPage where
  fileid : Nat
  omode : Nat
  deriving Repr, DecidableEq

/-- `own i` is whether the server has mapped the `Fd` page of entry `i`, `maps i` are the places where clients
map it, and `issued i` are the ids of the entry since boot, the latest one first. -/
@[ext]
structure World where
  disk : Mem
  opentab : Nat → OpenFile
  fdOffset : Nat → Nat
  fd : Nat → FdPage
  own : Nat → Bool
  maps : Nat → Finset Place
  issued : Nat → List Nat

variable {w w' : World}

def World.refs (w : World) (i : Nat) : Nat := (w.own i).toNat + (w.maps i).card

def World.server (w : World) : Server := ⟨w.disk, w.opentab, w.refs, w.fdOffset⟩

def mapAt (p : Place) (i : Nat) (maps : Nat → Finset Place) (j : Nat) : Finset Place :=
  if j = i then insert p (maps j) else (maps j).erase p

inductive Event where
  /-- `dup`, `fork` or `spawn` map the page that is mapped at `src` at `dst` too. -/
  | share (i : Nat) (src dst : Place)
  | unmap (p : Place)
  /-- A client stores into an `Fd` page. -/
  | poke (i offset : Nat) (page : FdPage)
  /-- The server serves a request of `env`; a page that it sends back is mapped at `dst`. -/
  | request (env : Nat) (cached : Nat → Bool) (nomem : Bool) (req : Nat) (page : Mem) (dst : Option Place)

def World.allocates (w : World) (nomem : Bool) (req : Nat) : Option Nat :=
  if req = fsreqOpen then (openfileAlloc nomem w.server).2.1 else none

def World.answered (w : World) (o : Option Nat) (omode : Nat) (dst : Option Place) (ans : Answer) (s : Server) : World where
  disk := s.disk
  opentab := s.opentab
  fdOffset := s.fdOffset
  fd :=
    match ans, o with
    | .fd i, _ => update w.fd i ⟨(s.opentab i).oFileid, omode % 4⟩
    | _, some i => update w.fd i ⟨0, 0⟩
    | _, none => w.fd
  own := o.elim w.own fun i => update w.own i true
  maps :=
    match ans, dst with
    | .fd i, some p => mapAt p i w.maps
    | _, _ => w.maps
  issued := o.elim w.issued fun i => update w.issued i ((s.opentab i).oFileid :: w.issued i)

inductive Happens (w : World) : Event → World → Prop where
  | share {i : Nat} {src : Place} (dst : Place) (hsrc : src ∈ w.maps i) :
      Happens w (.share i src dst) { w with maps := mapAt dst i w.maps }
  | unmap (p : Place) : Happens w (.unmap p) { w with maps := fun i => (w.maps i).erase p }
  | poke {i : Nat} (offset : Nat) (page : FdPage) (hmap : (w.maps i).Nonempty) :
      Happens w (.poke i offset page)
        { w with fdOffset := update w.fdOffset i offset, fd := update w.fd i page }
  | request {cached : Nat → Bool} {nomem : Bool} {req : Nat} {page : Mem} {r : Int} {ans : Answer} {s : Server}
      (env : Nat) (dst : Option Place) (h : serve cached nomem req page w.server = .ok (r, ans, s)) :
      Happens w (.request env cached nomem req page dst)
        (w.answered (w.allocates nomem req) (page (maxpathlen / 4)) dst ans s)

def WorldStep (allowed : World → Event → Prop) (w w' : World) : Prop := ∃ ev, allowed w ev ∧ Happens w ev w'

/-- The state that `serve_init` leaves. -/
structure Booted (w : World) : Prop where
  fileid : ∀ i, i < maxopen → (w.opentab i).oFileid = i
  own : ∀ i, w.own i = false
  maps : ∀ i, w.maps i = ∅
  issued : ∀ i, w.issued i = []

/-- `i` is the entry that `openfile_alloc` takes. -/
def FirstFree (s : Server) (i : Nat) : Prop := i < maxopen ∧ s.pageref i ≤ 1 ∧ ∀ j, j < i → 1 < s.pageref j

/-- `openfile_alloc` when it takes entry `i`. -/
def takeEntry (s : Server) (i : Nat) : Server :=
  { s with
    opentab := update s.opentab i
      { s.opentab i with oFileid := ((s.opentab i).oFileid + maxopen) % 4294967296 }
    pageref := update s.pageref i 1
    fdOffset := update s.fdOffset i 0 }

lemma takeEntry_fileid (s : Server) (i j : Nat) : ((takeEntry s i).opentab j).oFileid =
    if j = i then ((s.opentab i).oFileid + maxopen) % 4294967296 else (s.opentab j).oFileid := by
  unfold takeEntry
  dsimp only
  split
  · subst j
    rw [update_self]
  · rw [update_of_ne ‹_›]

lemma openfileAlloc_cases (nomem : Bool) (s : Server) :
    (∀ i, i < maxopen → 1 < s.pageref i) ∧ openfileAlloc nomem s = (-eMaxOpen, none, s) ∨ ∃ i, FirstFree s i ∧
      (s.pageref i = 0 ∧ nomem ∧ openfileAlloc nomem s = (-eNoMem, none, s) ∨
        ¬ (s.pageref i = 0 ∧ nomem) ∧ openfileAlloc nomem s =
          (toI32 (((s.opentab i).oFileid + maxopen) % 4294967296 : Nat), some i, takeEntry s i)) := by
  unfold openfileAlloc
  split
  · rename_i hnone
    refine .inl ⟨fun i hi => ?_, rfl⟩
    have hbusy := List.find?_eq_none.mp hnone i (List.mem_range.mpr hi)
    exact Nat.lt_of_not_le fun hle => hbusy (decide_eq_true hle)
  · rename_i i hsome
    have hfree : s.pageref i ≤ 1 := by simpa using List.find?_some hsome
    have hfirst : FirstFree s i := by
      obtain ⟨-, hlt, hbefore⟩ := List.find?_range_eq_some.mp hsome
      refine ⟨List.mem_range.mp hlt, hfree, fun j hj => ?_⟩
      simpa using hbefore j hj
    refine .inr ⟨i, hfirst, ?_⟩
    split
    · rename_i hfail
      exact .inl ⟨hfail.1, hfail.2, rfl⟩
    · rename_i hfail
      exact .inr ⟨hfail, rfl⟩

/-- `serve_open` when it has taken entry `i` and opened `f`. -/
def openEntry (s : Server) (i f omode : Nat) : Server :=
  { takeEntry s i with
    opentab := update (takeEntry s i).opentab i { (takeEntry s i).opentab i with oFile := f, oMode := omode } }

lemma openEntry_fileid (s : Server) (i f omode j : Nat) :
    ((openEntry s i f omode).opentab j).oFileid = ((takeEntry s i).opentab j).oFileid := by
  unfold openEntry
  dsimp only
  by_cases hj : j = i
  · subst hj
    rw [update_self]
  · rw [update_of_ne hj]

lemma openEntry_mode (s : Server) (i f omode : Nat) : ((openEntry s i f omode).opentab i).oMode = omode := by
  unfold openEntry
  dsimp only
  rw [update_self]

lemma serveOpen_cases (nomem : Bool) (page : Mem) (s : Server) : Post (fun _ => True) (fun out =>
      (openfileAlloc nomem s).2.1 = none ∧ out.2 = (none, s) ∨
      ∃ i m, FirstFree s i ∧ (openfileAlloc nomem s).2.1 = some i ∧
        (out.2 = (none, { takeEntry s i with disk := m }) ∨
          ∃ f, out.2 = (some i, { openEntry s i f (page (maxpathlen / 4)) with disk := m })))
      (serveOpen nomem page s) := by
  unfold serveOpen
  rcases openfileAlloc_cases nomem s with ⟨-, ha⟩ | ⟨i, hfirst, ⟨-, -, ha⟩ | ⟨-, ha⟩⟩
  · rw [ha]
    exact .pure (.inl ⟨rfl, rfl⟩)
  · rw [ha]
    exact .pure (.inl ⟨rfl, rfl⟩)
  · rw [ha]
    dsimp only
    split
    · exact .pure (.inr ⟨i, s.disk, hfirst, rfl, .inl rfl⟩)
    refine (Post.trivial _).bind fun ⟨f, m⟩ _ => ?_
    cases f with
    | error r => exact .pure (.inr ⟨i, m, hfirst, rfl, .inl rfl⟩)
    | ok f =>
      refine (Post.trivial _).bind fun ⟨_, m⟩ _ => (Post.trivial _).bind fun ⟨f, m⟩ _ => ?_
      cases f with
      | error r => exact .pure (.inr ⟨i, m, hfirst, rfl, .inl rfl⟩)
      | ok f => exact .pure (.inr ⟨i, m, hfirst, rfl, .inr ⟨f, rfl⟩⟩)

lemma serve_open_cases {s' : Server} (h : serve cached nomem fsreqOpen page s = .ok (r, ans, s')) :
    (openfileAlloc nomem s).2.1 = none ∧ ans = .none ∧ s' = s ∨
    ∃ i m, FirstFree s i ∧ (openfileAlloc nomem s).2.1 = some i ∧
      (ans = .none ∧ s' = { takeEntry s i with disk := m } ∨
        ∃ f, ans = .fd i ∧ s' = { openEntry s i f (page (maxpathlen / 4)) with disk := m }) := by
  unfold serve at h
  rw [if_pos rfl] at h
  cases hopen : serveOpen nomem page s with
  | error c =>
    rw [hopen] at h
    cases h
  | ok out =>
    obtain ⟨r', o, s1⟩ := out
    rw [hopen] at h
    cases h
    rcases (serveOpen_cases nomem page s).ok _ hopen with ⟨hnone, heq⟩ | ⟨i, m, hfirst, ha, heq | ⟨f, heq⟩⟩
    · cases heq
      exact .inl ⟨hnone, rfl, rfl⟩
    · cases heq
      exact .inr ⟨i, m, hfirst, ha, .inl ⟨rfl, rfl⟩⟩
    · cases heq
      exact .inr ⟨i, m, hfirst, ha, .inr ⟨f, rfl, rfl⟩⟩

lemma serve_tables (cached : Nat → Bool) (nomem : Bool) (page : Mem) (s : Server) (hreq : req ≠ fsreqOpen) :
    Post (fun _ => True)
      (fun out => (out.2.2.opentab = s.opentab ∧ out.2.2.pageref = s.pageref) ∧ ∀ i, out.2.1 ≠ .fd i)
      (serve cached nomem req page s) := by
  have hread : Post (fun _ => True) (fun out => out.2.2.opentab = s.opentab ∧ out.2.2.pageref = s.pageref)
      (serveRead cached page s) := by
    unfold serveRead
    split
    · exact .pure ⟨rfl, rfl⟩
    · exact (Post.trivial _).bind fun _ _ => .pure ⟨rfl, rfl⟩
  have hwrite : Post (fun _ => True) (fun out => out.2.opentab = s.opentab ∧ out.2.pageref = s.pageref)
      (serveWrite cached page s) := by
    unfold serveWrite
    split
    · exact .pure ⟨rfl, rfl⟩
    · exact (Post.trivial _).bind fun _ _ => .pure ⟨rfl, rfl⟩
  have hsize : Post (fun _ => True) (fun out => out.2.opentab = s.opentab ∧ out.2.pageref = s.pageref)
      (serveSetSize page s) := by
    unfold serveSetSize
    split
    · exact .pure ⟨rfl, rfl⟩
    · exact (Post.trivial _).bind fun _ _ => .pure ⟨rfl, rfl⟩
  unfold serve
  rw [if_neg hreq]
  split
  · exact hread.bind fun out hout => .pure ⟨hout, fun _ => nofun⟩
  split
  · obtain ⟨r, _ | st⟩ := serveStat page s <;> exact .pure ⟨⟨rfl, rfl⟩, fun _ => nofun⟩
  split
  · exact (Post.trivial _).bind fun _ _ => .pure ⟨⟨rfl, rfl⟩, fun _ => nofun⟩
  split
  · exact hwrite.bind fun out hout => .pure ⟨hout, fun _ => nofun⟩
  split
  · exact hsize.bind fun out hout => .pure ⟨hout, fun _ => nofun⟩
  split
  · exact .pure ⟨⟨rfl, rfl⟩, fun _ => nofun⟩
  · exact .pure ⟨⟨rfl, rfl⟩, fun _ => nofun⟩

lemma serve_pageref {s' : Server} (h : serve cached nomem req page s = .ok (r, ans, s')) (hj : 1 < s.pageref j) :
    s'.pageref j = s.pageref j := by
  by_cases hreq : req = fsreqOpen
  · subst hreq
    rcases serve_open_cases h with ⟨-, -, rfl⟩ | ⟨i, m, hfirst, -, hs⟩
    · rfl
    · have hji : j ≠ i := by
        rintro rfl
        exact absurd hj (Nat.not_lt.mpr hfirst.2.1)
      rcases hs with ⟨-, rfl⟩ | ⟨f, -, rfl⟩ <;> exact update_of_ne hji _ _
  · exact congrFun ((serve_tables cached nomem page s hreq).ok _ h).1.2 j

lemma mapAt_nonempty {p : Place} {maps : Nat → Finset Place} (h : (mapAt p i maps j).Nonempty) :
    j = i ∨ (maps j).Nonempty := by
  unfold mapAt at h
  split at h
  · exact .inl ‹_›
  · exact .inr (h.mono (Finset.erase_subset _ _))

structure Quiet (w w' : World) : Prop where
  opentab : w'.opentab = w.opentab
  fd : w'.fd = w.fd
  own : w'.own = w.own
  maps : w'.maps = w.maps
  issued : w'.issued = w.issued

/-- A request that takes entry `i`; the page of the entry is sent back only if it has been filled. -/
structure Takes (w w' : World) (i omode : Nat) (ans : Answer) : Prop where
  first : FirstFree w.server i
  fileid : ∀ j, (w'.opentab j).oFileid = ((takeEntry w.server i).opentab j).oFileid
  other : ∀ j, j ≠ i → w'.opentab j = w.opentab j ∧ w'.fd j = w.fd j
  own : w'.own = update w.own i true
  issued : w'.issued = update w.issued i ((w'.opentab i).oFileid :: w.issued i)
  maps : ∀ j, (w'.maps j).Nonempty → (w.maps j).Nonempty ∨
    j = i ∧ ans = .fd i ∧ w'.fd i = ⟨(w'.opentab i).oFileid, omode % 4⟩ ∧ (w'.opentab i).oMode = omode

lemma answered_cases (h : serve cached nomem req page w.server = .ok (r, ans, s)) (dst : Option Place) :
    Quiet w (w.answered (w.allocates nomem req) (page (maxpathlen / 4)) dst ans s) ∨
    ∃ i, Takes w (w.answered (w.allocates nomem req) (page (maxpathlen / 4)) dst ans s) i (page (maxpathlen / 4)) ans := by
  unfold World.allocates
  by_cases hreq : req = fsreqOpen
  · subst hreq
    rw [if_pos rfl]
    rcases serve_open_cases h with ⟨ha, rfl, rfl⟩ | ⟨i, m, hfirst, ha, ⟨rfl, rfl⟩ | ⟨f, rfl, rfl⟩⟩
    · rw [ha]
      exact .inl ⟨rfl, rfl, rfl, rfl, rfl⟩
    · rw [ha]
      refine .inr ⟨i, hfirst, fun _ => rfl, fun j hj => ⟨?_, ?_⟩, rfl, rfl, fun j hmap => .inl hmap⟩ <;>
        exact update_of_ne hj _ _
    · rw [ha]
      refine .inr ⟨i, hfirst, openEntry_fileid w.server i f _, fun j hj => ⟨?_, ?_⟩, rfl, rfl, fun j hmap => ?_⟩
      · exact (update_of_ne hj _ _).trans (update_of_ne hj _ _)
      · exact update_of_ne hj _ _
      · cases dst with
        | none => exact .inl hmap
        | some p =>
          rcases mapAt_nonempty hmap with rfl | hmap
          · exact .inr ⟨rfl, rfl, update_self .., openEntry_mode w.server j f _⟩
          · exact .inl hmap
  · rw [if_neg hreq]
    obtain ⟨⟨htab, -⟩, hans⟩ := (serve_tables cached nomem page w.server hreq).ok _ h
    refine .inl ⟨htab, ?_, rfl, ?_, rfl⟩ <;>
    · unfold World.answered
      cases ans with
      | fd i => exact absurd rfl (hans i)
      | none => rfl
      | data out => rfl
      | stat st => rfl

/-! ## The ids of an entry -/

def nthId (i n : Nat) : Nat := (i + maxopen * n) % 4294967296

def idsOf (i : Nat) : Nat → List Nat
  | 0 => []
  | n + 1 => nthId i (n + 1) :: idsOf i n

lemma nthId_succ (i n : Nat) : (nthId i n + maxopen) % 4294967296 = nthId i (n + 1) := by
  unfold nthId maxopen
  omega

lemma nthId_mod (hi : i < maxopen) (n : Nat) : nthId i n % maxopen = i := by
  unfold nthId maxopen at *
  omega

lemma head_idsOf (i : Nat) (h : n ≠ 0) : (idsOf i n).head? = some (nthId i n) := by
  cases n with
  | zero => exact absurd rfl h
  | succ n => rfl

structure Ledger (w : World) : Prop where
  issued : ∀ i, i < maxopen → w.issued i = idsOf i (w.issued i).length
  fileid : ∀ i, i < maxopen → (w.opentab i).oFileid = nthId i (w.issued i).length
  own : ∀ i, i < maxopen → w.own i = true → w.issued i ≠ []
  mapped : ∀ i, (w.maps i).Nonempty → i < maxopen ∧ w.own i = true

lemma Booted.ledger (h : Booted w) : Ledger w := by
  refine ⟨fun i _ => ?_, fun i hi => ?_, fun i _ hown => ?_, fun i hmap => ?_⟩
  · rw [h.issued i]
    rfl
  · rw [h.fileid i hi, h.issued i]
    unfold nthId maxopen at *
    simp only [List.length_nil]
    omega
  · rw [h.own i] at hown
    cases hown
  · rw [h.maps i] at hmap
    exact absurd hmap Finset.not_nonempty_empty

section
variable {w : World}

lemma World.mapped_of_refs (h : 1 < w.refs i) : (w.maps i).Nonempty := by
  rw [← Finset.card_pos]
  have hown := Bool.toNat_le (w.own i)
  unfold World.refs at h
  omega

variable (hl : Ledger w)
include hl

lemma Ledger.unmapped (h : w.refs i ≤ 1) : w.maps i = ∅ := by
  by_contra hne
  have hmap := Finset.nonempty_iff_ne_empty.mpr hne
  have hcard := Finset.card_pos.mpr hmap
  unfold World.refs at h
  rw [(hl.mapped i hmap).2, Bool.toNat_true] at h
  omega

lemma Ledger.refs_of_mapped (h : (w.maps i).Nonempty) : 1 < w.refs i := by
  by_contra hle
  rw [hl.unmapped (Nat.not_lt.mp hle)] at h
  exact Finset.not_nonempty_empty h

end

lemma Takes.ledger {omode : Nat} (h : Takes w w' i omode ans) (hl : Ledger w) : Ledger w' := by
  have hi := h.first.1
  have hid : (w'.opentab i).oFileid = nthId i ((w.issued i).length + 1) := by
    rw [h.fileid i, ← nthId_succ, ← hl.fileid i hi, takeEntry_fileid, if_pos rfl]
    rfl
  refine ⟨fun j hj => ?_, fun j hj => ?_, fun j hj hown => ?_, fun j hmap => ?_⟩
  · rw [h.issued]
    by_cases hji : j = i
    · subst hji
      rw [update_self, List.length_cons, hid, idsOf, ← hl.issued j hj]
    · rw [update_of_ne hji]
      exact hl.issued j hj
  · rw [h.issued]
    by_cases hji : j = i
    · subst hji
      rw [update_self, List.length_cons, hid]
    · rw [update_of_ne hji, (h.other j hji).1]
      exact hl.fileid j hj
  · rw [h.issued]
    by_cases hji : j = i
    · subst hji
      rw [update_self]
      exact List.cons_ne_nil _ _
    · rw [h.own, update_of_ne hji] at hown
      rw [update_of_ne hji]
      exact hl.own j hj hown
  · rw [h.own]
    by_cases hji : j = i
    · subst hji
      exact ⟨hi, update_self ..⟩
    · rw [update_of_ne hji]
      exact hl.mapped j ((h.maps j hmap).resolve_right fun h => hji h.1)

lemma Quiet.ledger (h : Quiet w w') (hl : Ledger w) : Ledger w' := by
  refine ⟨?_, ?_, ?_, ?_⟩
  · rw [h.issued]
    exact hl.issued
  · rw [h.issued, h.opentab]
    exact hl.fileid
  · rw [h.issued, h.own]
    exact hl.own
  · rw [h.maps, h.own]
    exact hl.mapped

lemma Happens.ledger {ev : Event} (h : Happens w ev w') (hl : Ledger w) : Ledger w' := by
  cases h with
  | share dst hsrc =>
    refine ⟨hl.issued, hl.fileid, hl.own, fun j hmap => ?_⟩
    rcases mapAt_nonempty hmap with rfl | hmap
    · exact hl.mapped j ⟨_, hsrc⟩
    · exact hl.mapped j hmap
  | unmap p => exact ⟨hl.issued, hl.fileid, hl.own, fun j hmap => hl.mapped j (hmap.mono (Finset.erase_subset _ _))⟩
  | poke offset page hmap => exact ⟨hl.issued, hl.fileid, hl.own, hl.mapped⟩
  | request env dst h =>
    rcases answered_cases h dst with hquiet | ⟨i, htakes⟩
    · exact hquiet.ledger hl
    · exact htakes.ledger hl

lemma WorldStep.ledger {allowed : World → Event → Prop} {w0 : World} (hboot : Booted w0)
    (hrun : ReflTransGen (WorldStep allowed) w0 w) : Ledger w := by
  induction hrun with
  | refl => exact hboot.ledger
  | tail _ hstep ih =>
    obtain ⟨ev, -, hev⟩ := hstep
    exact hev.ledger ih

lemma Ledger.head (hl : Ledger w) (hi : i < maxopen) (hne : w.issued i ≠ []) :
    (w.issued i).head? = some (w.opentab i).oFileid :=
  calc (w.issued i).head? = (idsOf i (w.issued i).length).head? := congrArg List.head? (hl.issued i hi)
    _ = some (nthId i (w.issued i).length) := head_idsOf i fun h => hne (List.length_eq_zero_iff.mp h)
    _ = some (w.opentab i).oFileid := by rw [hl.fileid i hi]

lemma openfileLookup_eq_some {id : Nat} :
    openfileLookup s id = some i ↔ i = id % maxopen ∧ 1 < s.pageref i ∧ (s.opentab i).oFileid = id := by
  unfold openfileLookup
  split
  · rename_i hbad
    refine ⟨nofun, ?_⟩
    rintro ⟨rfl, hrefs, hid⟩
    exact absurd hbad (not_or.mpr ⟨Nat.not_le.mpr hrefs, fun h => h hid⟩)
  · rename_i hgood
    obtain ⟨hrefs, hid⟩ := not_or.mp hgood
    constructor
    · rintro ⟨⟩
      exact ⟨rfl, Nat.not_le.mp hrefs, not_not.mp hid⟩
    · rintro ⟨rfl, -⟩
      rfl

def bootWorld : World where
  disk := smallDisk
  opentab := fun i => ⟨i, 0, 0⟩
  fdOffset := fun _ => 0
  fd := fun _ => ⟨0, 0⟩
  own := fun _ => false
  maps := fun _ => ∅
  issued := fun _ => []

lemma bootWorld_booted : Booted bootWorld := ⟨fun _ _ => rfl, fun _ => rfl, fun _ => rfl, fun _ => rfl⟩

lemma bootWorld_allocates : bootWorld.allocates false fsreqOpen = some 0 := by
  unfold World.allocates
  rw [if_pos rfl, show bootWorld.server = bootServer from rfl, bootServer_alloc]

def openedWorld : World := bootWorld.answered (some 0) 2 (some (1, 0)) (.fd 0) (openedServer 3072 1)

lemma bootWorld_opens (allowed : World → Event → Prop)
    (hallowed : allowed bootWorld (.request 1 (fun _ => true) false fsreqOpen (openReq 24879) (some (1, 0)))) :
    WorldStep allowed bootWorld openedWorld := by
  have hopen := Happens.request (w := bootWorld) 1 (some (1, 0)) open_file
  rw [bootWorld_allocates] at hopen
  exact ⟨_, hallowed, hopen⟩

/-- `serve_open` finds the path of the request each time it looks. -/
def Existing (page m : Mem) : Prop :=
  ∃ f m1 m2 f' m3, fileOpen (cString page 0 (maxpathlen - 1)) m = .ok (.ok f, m1) ∧
    openTrunc f (page (maxpathlen / 4)) m1 = .ok (0, m2) ∧
    fileOpen (cString page 0 (maxpathlen - 1)) m2 = .ok (.ok f', m3)

def IdFits (w : World) : Prop :=
  ∀ i, FirstFree w.server i → ((w.issued i).length + 1) % 4194304 < 2097152

lemma toI32_nthId (hi : i < maxopen) (n : Nat) : 0 ≤ toI32 (nthId i n) ↔ n % 4194304 < 2097152 := by
  have hid : nthId i n = i + 1024 * (n % 4194304) := by
    unfold nthId maxopen at *
    omega
  have hi' : i < 1024 := hi
  rw [toI32_eq, hid]
  split <;> omega

lemma exists_firstFree (hi : i < maxopen) (h : s.pageref i ≤ 1) : ∃ j, FirstFree s j := by
  rcases openfileAlloc_cases false s with ⟨hbusy, -⟩ | ⟨j, hfirst, -⟩
  · exact absurd (hbusy i hi) (Nat.not_lt.mpr h)
  · exact ⟨j, hfirst⟩

lemma FirstFree.unique (hi : FirstFree s i) (hj : FirstFree s j) : i = j := by
  rcases lt_trichotomy i j with h | h | h
  · exact absurd (hj.2.2 i h) (Nat.not_lt.mpr hi.2.1)
  · exact h
  · exact absurd (hi.2.2 j h) (Nat.not_lt.mpr hj.2.1)

section
variable (hl : Ledger w) (hfirst : FirstFree w.server i) (hmem : ¬ (w.refs i = 0 ∧ nomem))
include hl hfirst hmem

lemma Ledger.alloc_eq :
    openfileAlloc nomem w.server = (toI32 (nthId i ((w.issued i).length + 1)), some i, takeEntry w.server i) := by
  rcases openfileAlloc_cases nomem w.server with ⟨hbusy, -⟩ | ⟨j, hj, h⟩
  · exact absurd (hbusy i hfirst.1) (Nat.not_lt.mpr hfirst.2.1)
  · obtain rfl := hj.unique hfirst
    rcases h with ⟨hzero, hno, -⟩ | ⟨-, h⟩
    · exact absurd ⟨hzero, hno⟩ hmem
    · rw [h, ← nthId_succ, ← hl.fileid j hfirst.1]
      rfl

lemma Ledger.alloc_value :
    0 ≤ (openfileAlloc nomem w.server).1 ↔ ((w.issued i).length + 1) % 4194304 < 2097152 := by
  rw [← toI32_nthId hfirst.1, hl.alloc_eq hfirst hmem]

end

lemma serveOpen_existing {s1 : Server}
    (ha : openfileAlloc nomem s = (r, some i, s1)) (hr : 0 ≤ r) (hdisk : s1.disk = s.disk)
    (hcreat : flag (page (maxpathlen / 4)) oCreat = false) (hex : Existing page s.disk) :
    ∃ s', serveOpen nomem page s = .ok (0, some i, s') := by
  obtain ⟨f, m1, m2, f', m3, hfirst, htrunc, hagain⟩ := hex
  have hpath : openPath (cString page 0 (maxpathlen - 1)) (page (maxpathlen / 4)) s1.disk = .ok (.ok f, m1) := by
    unfold openPath
    rw [hcreat, hdisk]
    exact hfirst
  refine ⟨{ s1 with
    disk := m3
    opentab := update s1.opentab i { s1.opentab i with oFile := f', oMode := page (maxpathlen / 4) } }, ?_⟩
  unfold serveOpen
  rw [ha]
  dsimp only
  rw [if_neg (Int.not_lt.mpr hr), hpath, ok_bind]
  dsimp only
  rw [htrunc, ok_bind]
  dsimp only
  rw [hagain]
  rfl

/-- At any point of a run: `openfile_alloc` fails only for want of an entry or of memory, and opening an existing
path succeeds, exactly if the id that is next in line is not negative. -/
theorem opens_succeed_iff {w0 w : World} (hboot : Booted w0) (hrun : ReflTransGen (WorldStep fun _ _ => True) w0 w) :
    ((∀ i, i < maxopen → w.refs i ≤ 1 → 0 ≤ (openfileAlloc false w.server).1) ∧
      (∀ nomem, (openfileAlloc nomem w.server).1 < 0 →
        (openfileAlloc nomem w.server).1 = -eMaxOpen ∧ (∀ i, i < maxopen → 1 < w.refs i) ∨
          (openfileAlloc nomem w.server).1 = -eNoMem ∧ nomem = true) ∧
      ∀ i page, i < maxopen → w.refs i ≤ 1 → flag (page (maxpathlen / 4)) oCreat = false → Existing page w.disk →
        ∃ o s, serveOpen false page w.server = .ok (0, o, s)) ↔ IdFits w := by
  have hl := WorldStep.ledger hboot hrun
  have hmem : ∀ i, ¬ (w.refs i = 0 ∧ false = true) := fun i h => Bool.false_ne_true h.2
  constructor
  · rintro ⟨hnonneg, -⟩ i hfirst
    exact (hl.alloc_value hfirst (hmem i)).mp (hnonneg i hfirst.1 hfirst.2.1)
  · intro hfits
    refine ⟨fun i hi hfree => ?_, fun nomem hneg => ?_, fun i page hi hfree hcreat hex => ?_⟩
    · obtain ⟨j, hfirst⟩ := exists_firstFree (s := w.server) hi hfree
      exact (hl.alloc_value hfirst (hmem j)).mpr (hfits j hfirst)
    · rcases openfileAlloc_cases nomem w.server with ⟨hbusy, h⟩ | ⟨i, hfirst, ⟨-, hno, h⟩ | ⟨hfull, -⟩⟩
      · rw [h]
        exact .inl ⟨rfl, hbusy⟩
      · rw [h]
        exact .inr ⟨rfl, hno⟩
      · exact absurd hneg (Int.not_lt.mpr ((hl.alloc_value hfirst hfull).mpr (hfits i hfirst)))
    · obtain ⟨j, hfirst⟩ := exists_firstFree (s := w.server) hi hfree
      have hr := (toI32_nthId hfirst.1 _).mpr (hfits j hfirst)
      obtain ⟨s, hs⟩ := serveOpen_existing (hl.alloc_eq hfirst (hmem j)) hr rfl hcreat hex
      exact ⟨_, s, hs⟩

theorem opens_succeed_boot : 0 ≤ (openfileAlloc false bootWorld.server).1 := by
  refine ((opens_succeed_iff bootWorld_booted .refl).mpr fun i _ => ?_).1 0 (by decide) (by decide)
  exact (by decide : 1 % 4194304 < 2097152)

def wornWorld (n : Nat) : World :=
  { bootWorld with
    opentab := update bootWorld.opentab 0 ⟨nthId 0 n, 0, 0⟩
    own := update bootWorld.own 0 (decide (0 < n))
    issued := update bootWorld.issued 0 (idsOf 0 n) }

lemma wornWorld_zero : wornWorld 0 = bootWorld := by
  have htab : update bootWorld.opentab 0 ⟨nthId 0 0, 0, 0⟩ = bootWorld.opentab := update_eq_self ..
  have hown : update bootWorld.own 0 (decide (0 < 0)) = bootWorld.own := update_eq_self ..
  have hissued : update bootWorld.issued 0 (idsOf 0 0) = bootWorld.issued := update_eq_self ..
  unfold wornWorld
  rw [htab, hown, hissued]

lemma wornWorld_first (n : Nat) : FirstFree (wornWorld n).server 0 := by
  refine ⟨by decide, ?_, fun j hj => absurd hj (Nat.not_lt_zero j)⟩
  exact Bool.toNat_le _

lemma openReq_missing : cString (openReq 25135) 0 (maxpathlen - 1) = [47, 98] := cString_short rfl (by decide)

lemma openPath_missing : openPath [47, 98] 2 smallDisk = .ok (.error (-eNotFound), smallDisk) := rfl

lemma length_idsOf (i n : Nat) : (idsOf i n).length = n := by
  induction n with
  | zero => rfl
  | succ n ih => exact congrArg Nat.succ ih

lemma wornWorld_issued (n : Nat) : ((wornWorld n).issued 0).length = n := by
  unfold wornWorld
  dsimp only
  rw [update_self, length_idsOf]

lemma wornWorld_entry (n : Nat) :
    (takeEntry (wornWorld n).server 0).opentab = update bootWorld.opentab 0 ⟨nthId 0 (n + 1), 0, 0⟩ := by
  have hold : (wornWorld n).opentab 0 = ⟨nthId 0 n, 0, 0⟩ := update_self 0 _ bootWorld.opentab
  calc (takeEntry (wornWorld n).server 0).opentab
      = update (wornWorld n).opentab 0
          { (wornWorld n).opentab 0 with oFileid := (((wornWorld n).opentab 0).oFileid + maxopen) % 4294967296 } := rfl
    _ = update (wornWorld n).opentab 0 ⟨nthId 0 (n + 1), 0, 0⟩ := by rw [hold, nthId_succ]
    _ = update bootWorld.opentab 0 ⟨nthId 0 (n + 1), 0, 0⟩ := update_idem ..

lemma wornWorld_answered (n : Nat) :
    (wornWorld n).answered (some 0) 2 none .none (takeEntry (wornWorld n).server 0) = wornWorld (n + 1) := by
  have hid : ((takeEntry (wornWorld n).server 0).opentab 0).oFileid = nthId 0 (n + 1) := by
    rw [wornWorld_entry, update_self]
  have hissued : (wornWorld n).issued 0 = idsOf 0 n := update_self 0 _ bootWorld.issued
  apply World.ext
  case disk => rfl
  case opentab => exact wornWorld_entry n
  case fdOffset => exact update_eq_self ..
  case fd => exact update_eq_self ..
  case own =>
    calc update (wornWorld n).own 0 true = update bootWorld.own 0 true := update_idem ..
      _ = update bootWorld.own 0 (decide (0 < n + 1)) := by rw [decide_eq_true (Nat.succ_pos n)]
  case maps => rfl
  case issued =>
    calc update (wornWorld n).issued 0
          (((takeEntry (wornWorld n).server 0).opentab 0).oFileid :: (wornWorld n).issued 0)
        = update (wornWorld n).issued 0 (idsOf 0 (n + 1)) := by rw [hid, hissued]; rfl
      _ = update bootWorld.issued 0 (idsOf 0 (n + 1)) := update_idem ..

section
variable {n : Nat} (hl : Ledger (wornWorld n))
include hl

lemma wornWorld_alloc : openfileAlloc false (wornWorld n).server =
    (toI32 (nthId 0 (n + 1)), some 0, takeEntry (wornWorld n).server 0) := by
  have ha := hl.alloc_eq (wornWorld_first n) (fun h => Bool.false_ne_true h.2)
  rwa [wornWorld_issued] at ha

lemma wornWorld_missing (hn : n + 1 < 2097152) :
    serve (fun _ => true) false fsreqOpen (openReq 25135) (wornWorld n).server =
      .ok (-eNotFound, .none, takeEntry (wornWorld n).server 0) := by
  have hr : 0 ≤ toI32 (nthId 0 (n + 1)) := (toI32_nthId (by decide) _).mpr (by omega)
  have hserve : serveOpen false (openReq 25135) (wornWorld n).server =
      .ok (-eNotFound, none, takeEntry (wornWorld n).server 0) := by
    unfold serveOpen
    rw [wornWorld_alloc hl]
    dsimp only
    rw [if_neg (Int.not_lt.mpr hr), openReq_missing, show openReq 25135 (maxpathlen / 4) = 2 from rfl,
      show (takeEntry (wornWorld n).server 0).disk = smallDisk from rfl, openPath_missing, ok_bind]
    rfl
  unfold serve
  rw [if_pos rfl, hserve]
  rfl

lemma wornWorld_step (hn : n + 1 < 2097152) : WorldStep (fun _ _ => True) (wornWorld n) (wornWorld (n + 1)) := by
  have hev := Happens.request (w := wornWorld n) 1 none (wornWorld_missing hl hn)
  have halloc : (wornWorld n).allocates false fsreqOpen = some 0 := by
    unfold World.allocates
    rw [if_pos rfl, wornWorld_alloc hl]
  rw [halloc, show openReq 25135 (maxpathlen / 4) = 2 from rfl, wornWorld_answered] at hev
  exact ⟨_, trivial, hev⟩

end

lemma wornWorld_run (hn : n < 2097152) : ReflTransGen (WorldStep fun _ _ => True) bootWorld (wornWorld n) := by
  induction n with
  | zero => rw [wornWorld_zero]
  | succ n ih =>
    have hrun := ih (Nat.lt_of_succ_lt hn)
    exact .tail hrun (wornWorld_step (WorldStep.ledger bootWorld_booted hrun) hn)

/-- After 2097151 requests that found no file, a page has one reference only, but opening the file that exists
fails with the id of the entry as its error. -/
theorem id_turns_negative : ∃ w s, ReflTransGen (WorldStep fun _ _ => True) bootWorld w ∧ w.refs 0 ≤ 1 ∧
    Existing (openReq 24879) w.disk ∧ (openfileAlloc false w.server).1 = -2147483648 ∧
    serveOpen false (openReq 24879) w.server = .ok (-2147483648, none, s) := by
  have hrun := wornWorld_run (n := 2097151) (by decide)
  have hl := WorldStep.ledger bootWorld_booted hrun
  have hid : toI32 (nthId 0 2097152) = -2147483648 := by decide
  have ha := wornWorld_alloc hl
  rw [hid] at ha
  refine ⟨wornWorld 2097151, takeEntry (wornWorld 2097151).server 0, hrun, (wornWorld_first _).2.1, ?_, ?_, ?_⟩
  · refine ⟨3072, smallDisk, smallDisk, 3072, smallDisk, ?_, rfl, ?_⟩ <;>
    · rw [openReq_file]
      rfl
  · rw [ha]
  · unfold serveOpen
    rw [ha]
    rfl

end Jos.Fs
