import Jos.Lib.InitStack
import Jos.Lib.Spawn

/-!
# What `spawn` leaves behind

The control flow of `spawn` and `map_segment` of `lib/spawn.c`, with the descriptor, the
environment and the page at `UTEMP` that the call holds. The system calls and the calls of
the file system are answered by `Answers`; what is not an answer is the test of an address
against `UTOP`, which the kernel makes. The permissions and the offset in the file have no
bearing on the answers and are left out.
-/

namespace Jos.SpawnRun
open CInt Lib

/-- The answers of one round of `map_segment`. -/
structure PageAnswers where
  alloc : Int
  seek : Int
  readn : Int
  map : Int

structure Answers where
  fd : Int
  header : Int
  exofork : Int
  stack : InitStack.Answers
  page : Nat → Nat → PageAnswers
  shared : Int
  trapframe : Int
  status : Int

/-- The caller: the address of `elf_buf`, the memory around it as it is when header `i` is read, the memory
`init_stack` stores into and the pages of the caller that are present and shared. -/
structure Caller where
  buf : Nat
  around : Nat → Nat → Option Nat
  mem : InitStack.Mem
  shares : Nat → Bool
  room : buf + 512 ≤ 4294967296

/-- What the call holds and did: the pages mapped in the child and the addresses of the headers read. -/
structure Held where
  fd : Bool
  child : Bool
  temp : Bool
  pages : List Nat
  examined : List Nat

inductive Ended where
  | done
  | failed (r : Int)
  | panicked
  | faulted
  deriving DecidableEq

/-- The code after a statement that ended in `x` goes on where the statement did not leave the function. -/
def andThen (x : Ended × Held) (f : Held → Ended × Held) : Ended × Held := if x.1 = .done then f x.2 else x

/-- One round of the loop of `map_segment`. -/
def mapRound (a : PageAnswers) (va filesz i : Nat) (s : Held) : Ended × Held :=
  let page := toU32 (va + i)
  if filesz ≤ i then
    let r := if badVa page then -eInval else a.alloc
    if r < 0 then (.failed r, s) else (.done, { s with pages := page :: s.pages })
  else if a.alloc < 0 then (.failed a.alloc, s)
  else
    let s := { s with temp := true }
    if a.seek < 0 then (.failed a.seek, s)
    else if a.readn < 0 then (.failed a.readn, s)
    else
      let r := if badVa page then -eInval else a.map
      if r < 0 then (.panicked, s)
      else (.done, { s with pages := page :: s.pages, temp := false })

def mapRounds (ans : Nat → PageAnswers) (va filesz : Nat) : Nat → Nat → Held → Ended × Held
  | 0, _, s => (.done, s)
  | n + 1, k, s => andThen (mapRound (ans k) va filesz (4096 * k) s) (mapRounds ans va filesz n (k + 1))

/-- The number of rounds is that of the values 0, 4096, .. of `i` below `memsz`; only a `memsz` above 0xFFFFF000 would
bring `i` back to 0, and then a page at `UTOP` or above comes first. -/
def mapSegment (ans : Nat → PageAnswers) (va memsz filesz : Nat) (s : Held) : Ended × Held :=
  let i := va % pgsize
  mapRounds ans (va - i) (toU32 (filesz + i)) ((toU32 (memsz + i) + 4095) / 4096) 0 s

def readField (byte : Nat → Option Nat) (ph off n : Nat) : Option Nat :=
  ofBytes <$> (List.range n).mapM fun j => byte (toU32 (ph + off + j))

/-- `p_va`, `p_memsz` and `p_filesz`; the flags and the offset are read with them. -/
def readSegment (byte : Nat → Option Nat) (ph : Nat) : Option (Nat × Nat × Nat) := do
  let _ ← readField byte ph 24 4
  let va ← readField byte ph 8 4
  let memsz ← readField byte ph 20 4
  let filesz ← readField byte ph 16 4
  let _ ← readField byte ph 4 4
  some (va, memsz, filesz)

def loadHeader (byte : Nat → Option Nat) (ans : Nat → PageAnswers) (ph : Nat) (s : Held) : Ended × Held :=
  let s := { s with examined := ph :: s.examined }
  match readField byte ph 0 4 with
  | none => (.faulted, s)
  | some type =>
    if type ≠ elfProgLoad then (.done, s)
    else
      match readSegment byte ph with
      | none => (.faulted, s)
      | some (va, memsz, filesz) => mapSegment ans va memsz filesz s

def Caller.byte (c : Caller) (elfBuf : List Nat) (i a : Nat) : Option Nat :=
  if c.buf ≤ a ∧ a < c.buf + 512 then some (elfBuf[a - c.buf]?.getD 0) else c.around i a

def loadHeaders (c : Caller) (ans : Nat → Nat → PageAnswers) (elfBuf : List Nat) : Nat → Nat → Held → Ended × Held
  | 0, _, s => (.done, s)
  | n + 1, i, s =>
    andThen (loadHeader (c.byte elfBuf i) (ans i) (toU32 (c.buf + ePhoff elfBuf + 32 * i)) s)
      (loadHeaders c ans elfBuf n (i + 1))

def nothing : Held := ⟨false, false, false, [], []⟩

def copySharedPages (c : Caller) (s : Held) : Held :=
  { s with pages := ((List.range (ustacktop / pgsize)).filter c.shares).map (· * pgsize) ++ s.pages }

def spawnChild (c : Caller) (ans : Answers) (elfBuf : List Nat) (s : Held) : Ended × Held :=
  match loadHeaders c ans.page elfBuf (ePhnum elfBuf) 0 s with
  | (.failed r, s) => (.failed r, { s with child := false, fd := false })
  | (.done, s) =>
    let s := copySharedPages c { s with fd := false }
    if ans.shared < 0 ∨ ans.trapframe < 0 ∨ ans.status < 0 then (.panicked, s) else (.done, s)
  | (e, s) => (e, s)

/-- What is held when `init_stack` returns; `*init_esp` is set when the page at `UTEMP` was allocated. -/
def afterStack (r : InitStack.Init) : Held :=
  { fd := true
    child := true
    temp := r.esp.isSome && r.mem.writable (utemp / pgsize)
    pages := if r.page.isSome then [InitStack.ustackPage] else []
    examined := [] }

/-- `spawn`; it ends with `done` where it returns the child. -/
def spawn (c : Caller) (ans : Answers) (file : List Nat) (argv : List (List Nat)) : Ended × Held :=
  if ans.fd < 0 then (.failed ans.fd, nothing)
  else
    let elfBuf := file.take 512
    if ans.header ≠ 512 ∨ field elfBuf 0 4 ≠ elfMagic then (.failed (-eNotExec), nothing)
    else if ans.exofork < 0 then (.failed ans.exofork, { nothing with fd := true })
    else
      match InitStack.initStack argv ans.stack c.mem with
      | .error _ => (.faulted, { nothing with fd := true, child := true })
      | .ok r => if r.ret < 0 then (.failed r.ret, afterStack r) else spawnChild c ans elfBuf (afterStack r)

/-! ## The run as a list of events -/

/-- A header that is read, a byte of a header that is not there, and the two kinds of rounds of `map_segment`. -/
inductive Event where
  | examine (ph : Nat)
  | unreadable
  | blank (page : Nat) (a : PageAnswers)
  | fromFile (page : Nat) (a : PageAnswers)

variable {e : Event}

namespace Event

def outcome : Event → Ended
  | examine _ => .done
  | unreadable => .faulted
  | blank page a => if badVa page then .failed (-eInval) else if a.alloc < 0 then .failed a.alloc else .done
  | fromFile page a =>
    if a.alloc < 0 then .failed a.alloc
    else if a.seek < 0 then .failed a.seek
    else if a.readn < 0 then .failed a.readn
    else if badVa page ∨ a.map < 0 then .panicked
    else .done

def Leaves : Event → Prop
  | fromFile _ a => 0 ≤ a.alloc ∧ (a.seek < 0 ∨ a.readn < 0)
  | _ => False

def effect (e : Event) (s : Held) : Held :=
  match e, e.outcome with
  | examine ph, _ => { s with examined := ph :: s.examined }
  | unreadable, _ => s
  | blank page _, .done => { s with pages := page :: s.pages }
  | blank _ _, _ => s
  | fromFile page _, .done => { s with pages := page :: s.pages, temp := false }
  | fromFile _ a, _ => if a.alloc < 0 then s else { s with temp := true }

end Event

def run : List Event → Held → Ended × Held
  | [], s => (.done, s)
  | e :: es, s => andThen (e.outcome, e.effect s) (run es)

def roundEvent (a : PageAnswers) (va filesz i : Nat) : Event :=
  if filesz ≤ i then .blank (toU32 (va + i)) a else .fromFile (toU32 (va + i)) a

def roundEvents (ans : Nat → PageAnswers) (va filesz : Nat) : Nat → Nat → List Event
  | 0, _ => []
  | n + 1, k => roundEvent (ans k) va filesz (4096 * k) :: roundEvents ans va filesz n (k + 1)

def segmentEvents (ans : Nat → PageAnswers) (va memsz filesz : Nat) : List Event :=
  roundEvents ans (va - va % pgsize) (toU32 (filesz + (va % pgsize : Nat))) ((toU32 (memsz + (va % pgsize : Nat)) + 4095) / 4096) 0

def headerEvents (byte : Nat → Option Nat) (ans : Nat → PageAnswers) (ph : Nat) : List Event :=
  .examine ph ::
    match readField byte ph 0 4 with
    | none => [.unreadable]
    | some type =>
      if type ≠ elfProgLoad then []
      else
        match readSegment byte ph with
        | none => [.unreadable]
        | some (va, memsz, filesz) => segmentEvents ans va memsz filesz

def events (c : Caller) (ans : Nat → Nat → PageAnswers) (elfBuf : List Nat) : Nat → Nat → List Event
  | 0, _ => []
  | n + 1, i =>
    headerEvents (c.byte elfBuf i) (ans i) (toU32 (c.buf + ePhoff elfBuf + 32 * i)) ++ events c ans elfBuf n (i + 1)

lemma mapRound_eq (a : PageAnswers) (va filesz i : Nat) (s : Held) :
    mapRound a va filesz i s = ((roundEvent a va filesz i).outcome, (roundEvent a va filesz i).effect s) := by
  unfold mapRound roundEvent
  dsimp only
  by_cases hblank : filesz ≤ i
  · rw [if_pos hblank, if_pos hblank]
    by_cases hbad : badVa (toU32 (va + i))
    · simp [hbad, Event.outcome, Event.effect, eInval]
    · by_cases halloc : a.alloc < 0 <;> simp [hbad, halloc, Event.outcome, Event.effect]
  · rw [if_neg hblank, if_neg hblank]
    by_cases halloc : a.alloc < 0
    · simp [halloc, Event.outcome, Event.effect]
    by_cases hseek : a.seek < 0
    · simp [halloc, hseek, Event.outcome, Event.effect]
    by_cases hread : a.readn < 0
    · simp [halloc, hseek, hread, Event.outcome, Event.effect]
    by_cases hbad : badVa (toU32 (va + i))
    · simp [halloc, hseek, hread, hbad, Event.outcome, Event.effect, eInval]
    by_cases hmap : a.map < 0 <;> simp [halloc, hseek, hread, hbad, hmap, Event.outcome, Event.effect]

lemma andThen_done {x : Ended × Held} (h : x.1 = .done) (f : Held → Ended × Held) : andThen x f = f x.2 := if_pos h

lemma andThen_stop {x : Ended × Held} (h : x.1 ≠ .done) (f : Held → Ended × Held) : andThen x f = x := if_neg h

lemma andThen_assoc (x : Ended × Held) (f g : Held → Ended × Held) :
    andThen (andThen x f) g = andThen x fun s => andThen (f s) g := by
  by_cases h : x.1 = .done
  · rw [andThen_done h, andThen_done h]
  · rw [andThen_stop h, andThen_stop h, andThen_stop h]

lemma run_append (es es' : List Event) : ∀ s : Held, run (es ++ es') s = andThen (run es s) (run es') := by
  induction es with
  | nil => exact fun s => rfl
  | cons e es ih =>
    intro s
    rw [List.cons_append, run, run, andThen_assoc, funext ih]

lemma mapRounds_eq (ans : Nat → PageAnswers) (va filesz n : Nat) : ∀ (k : Nat) (s : Held),
    mapRounds ans va filesz n k s = run (roundEvents ans va filesz n k) s := by
  induction n with
  | zero => exact fun k s => rfl
  | succ n ih =>
    intro k s
    rw [mapRounds, roundEvents, run, mapRound_eq, funext (ih (k + 1))]

lemma loadHeader_eq (byte : Nat → Option Nat) (ans : Nat → PageAnswers) (ph : Nat) (s : Held) :
    loadHeader byte ans ph s = run (headerEvents byte ans ph) s := by
  unfold loadHeader headerEvents
  rw [run, andThen_done rfl]
  rcases readField byte ph 0 4 with _ | type
  · rfl
  dsimp only
  split
  · rfl
  rcases readSegment byte ph with _ | ⟨va, memsz, filesz⟩
  · rfl
  exact mapRounds_eq _ _ _ _ _ _

lemma loadHeaders_eq (c : Caller) (ans : Nat → Nat → PageAnswers) (elfBuf : List Nat) (n : Nat) :
    ∀ (i : Nat) (s : Held), loadHeaders c ans elfBuf n i s = run (events c ans elfBuf n i) s := by
  induction n with
  | zero => exact fun i s => rfl
  | succ n ih =>
    intro i s
    rw [loadHeaders, events, run_append, loadHeader_eq, funext (ih (i + 1))]

/-! ## Where a run stops -/

def firstFailure (es : List Event) : Option Event := es.find? fun e => e.outcome ≠ .done

def Event.header : Event → Option Nat
  | examine ph => some ph
  | _ => none

def examinedBefore (es : List Event) : List Nat := (es.takeWhile fun e => e.outcome = .done).filterMap Event.header

/-- What one event does: a header is examined, a page below `UTOP` is mapped, a call is refused without or with a page
at `UTEMP`, or the environment stops. -/
inductive Taken (e : Event) (s : Held) : Prop where
  | examined (ph : Nat) (header : e.header = some ph) (out : e.outcome = .done)
      (effect : e.effect s = { s with examined := ph :: s.examined })
  | mapped (page : Nat) (temp : Bool) (header : e.header = none) (out : e.outcome = .done) (below : page < utop)
      (effect : e.effect s = { s with pages := page :: s.pages, temp := temp }) (clear : temp = true → s.temp = true)
  | refused (r : Int) (neg : r < 0) (out : e.outcome = .failed r) (clean : ¬ e.Leaves) (effect : e.effect s = s)
  | left (r : Int) (neg : r < 0) (out : e.outcome = .failed r) (leaves : e.Leaves)
      (effect : e.effect s = { s with temp := true })
  | stopped (temp : Bool) (out : e.outcome = .panicked ∨ e.outcome = .faulted) (effect : e.effect s = { s with temp := temp })

lemma lt_utop_of_not_badVa {page : Nat} (h : badVa page = false) : page < utop := by
  unfold badVa at h
  exact Nat.lt_of_not_le (of_decide_eq_false (Bool.or_eq_false_iff.1 h).1)

lemma blank_taken (page : Nat) (a : PageAnswers) (s : Held) : Taken (.blank page a) s := by
  rcases hbad : badVa page with _ | _
  · by_cases halloc : a.alloc < 0
    · have hout : (Event.blank page a).outcome = .failed a.alloc := by simp [Event.outcome, hbad, halloc]
      exact .refused _ halloc hout id (by simp only [Event.effect, hout])
    · have hout : (Event.blank page a).outcome = .done := by simp [Event.outcome, hbad, halloc]
      exact .mapped page s.temp rfl hout (lt_utop_of_not_badVa hbad) (by simp only [Event.effect, hout]) id
  · have hout : (Event.blank page a).outcome = .failed (-eInval) := by simp [Event.outcome, hbad]
    exact .refused _ (by decide) hout id (by simp only [Event.effect, hout])

lemma fromFile_taken (page : Nat) (a : PageAnswers) (s : Held) : Taken (.fromFile page a) s := by
  by_cases halloc : a.alloc < 0
  · have hout : (Event.fromFile page a).outcome = .failed a.alloc := by simp [Event.outcome, halloc]
    refine .refused _ halloc hout (fun hleaves => ?_) (by simp only [Event.effect, hout, if_pos halloc])
    exact absurd halloc (Int.not_lt.2 hleaves.1)
  by_cases hseek : a.seek < 0
  · have hout : (Event.fromFile page a).outcome = .failed a.seek := by simp [Event.outcome, halloc, hseek]
    exact .left _ hseek hout ⟨by omega, .inl hseek⟩ (by simp only [Event.effect, hout, if_neg halloc])
  by_cases hread : a.readn < 0
  · have hout : (Event.fromFile page a).outcome = .failed a.readn := by simp [Event.outcome, halloc, hseek, hread]
    exact .left _ hread hout ⟨by omega, .inr hread⟩ (by simp only [Event.effect, hout, if_neg halloc])
  by_cases hmap : badVa page ∨ a.map < 0
  · have hout : (Event.fromFile page a).outcome = .panicked := by simp [Event.outcome, halloc, hseek, hread, hmap]
    exact .stopped true (.inl hout) (by simp only [Event.effect, hout, if_neg halloc])
  · have hout : (Event.fromFile page a).outcome = .done := by simp [Event.outcome, halloc, hseek, hread, hmap]
    have hbelow := lt_utop_of_not_badVa (Bool.eq_false_iff.2 fun hbad => hmap (.inl hbad))
    exact .mapped page false rfl hout hbelow (by simp only [Event.effect, hout]) fun hfalse => absurd hfalse Bool.false_ne_true

lemma taken (e : Event) (s : Held) : Taken e s := by
  cases e with
  | examine ph => exact .examined ph rfl rfl rfl
  | unreadable => exact .stopped s.temp (.inr rfl) rfl
  | blank page a => exact blank_taken page a s
  | fromFile page a => exact fromFile_taken page a s

lemma Event.Leaves.failed (h : e.Leaves) : ∃ r, e.outcome = .failed r := by
  cases e with
  | fromFile page a =>
    have halloc : ¬ a.alloc < 0 := Int.not_lt.2 h.1
    by_cases hseek : a.seek < 0
    · exact ⟨a.seek, by simp [outcome, halloc, hseek]⟩
    · have hread : a.readn < 0 := h.2.resolve_left hseek
      exact ⟨a.readn, by simp [outcome, halloc, hseek, hread]⟩
  | _ => exact h.elim

lemma firstFailure_cons_done (h : e.outcome = .done) (es : List Event) :
    firstFailure (e :: es) = firstFailure es := by
  unfold firstFailure
  rw [List.find?_cons_of_neg (by simp [h])]

lemma firstFailure_cons_stop (h : e.outcome ≠ .done) (es : List Event) : firstFailure (e :: es) = some e := by
  unfold firstFailure
  rw [List.find?_cons_of_pos (by simp [h])]

lemma mem_examinedBefore_cons (h : e.outcome = .done) (es : List Event) (a : Nat) :
    a ∈ examinedBefore (e :: es) ↔ e.header = some a ∨ a ∈ examinedBefore es := by
  unfold examinedBefore
  rw [List.takeWhile_cons_of_pos (by simp [h]), List.mem_filterMap, List.mem_filterMap]
  simp only [List.mem_cons, exists_eq_or_imp]

lemma examinedBefore_cons_stop (h : e.outcome ≠ .done) (es : List Event) : examinedBefore (e :: es) = [] := by
  unfold examinedBefore
  rw [List.takeWhile_cons_of_neg (by simp [h])]
  rfl

structure Ran (es : List Event) (s : Held) (out : Ended × Held) : Prop where
  ended : out.1 = ((firstFailure es).map Event.outcome).getD .done
  fd : out.2.fd = s.fd
  child : out.2.child = s.child
  temp : s.temp = false → ∀ r, out.1 = .failed r → r < 0 ∧ (out.2.temp = true ↔ ∃ e, firstFailure es = some e ∧ e.Leaves)
  pages : ∀ p ∈ out.2.pages, p ∈ s.pages ∨ p < utop
  examined : ∀ a, a ∈ out.2.examined ↔ a ∈ s.examined ∨ a ∈ examinedBefore es

lemma Ran.of_stop {s : Held} (hout : e.outcome ≠ .done) (hkeeps : ∃ temp, e.effect s = { s with temp := temp })
    (htemp : s.temp = false → ∀ r, e.outcome = .failed r → r < 0 ∧ ((e.effect s).temp ↔ e.Leaves))
    (es : List Event) : Ran (e :: es) s (run (e :: es) s) := by
  obtain ⟨temp, hkeeps⟩ := hkeeps
  have hfirst := firstFailure_cons_stop hout es
  rw [run, andThen_stop hout]
  refine ⟨?_, by rw [hkeeps], by rw [hkeeps], fun hs r hr => ?_, ?_, fun a => ?_⟩
  · rw [hfirst]
    rfl
  · obtain ⟨hneg, hleaves⟩ := htemp hs r hr
    refine ⟨hneg, hleaves.trans ⟨fun h => ⟨e, hfirst, h⟩, ?_⟩⟩
    rintro ⟨e', he', h⟩
    obtain rfl : e = e' := Option.some.inj (hfirst.symm.trans he')
    exact h
  · rw [hkeeps]
    exact fun p hp => .inl hp
  · rw [hkeeps, examinedBefore_cons_stop hout]
    exact ⟨.inl, fun h => h.resolve_right List.not_mem_nil⟩

lemma run_spec (es : List Event) : ∀ s : Held, Ran es s (run es s) := by
  induction es with
  | nil =>
    intro s
    refine ⟨rfl, rfl, rfl, fun _ r h => absurd h ?_, fun p hp => .inl hp, fun a => ?_⟩
    · exact fun hdone => Ended.noConfusion hdone
    · exact ⟨.inl, fun h => h.resolve_right (List.not_mem_nil)⟩
  | cons e es ih =>
    intro s
    cases taken e s with
    | examined ph header out effect =>
      obtain ⟨hended, hfd, hchild, htemp, hpages, hexamined⟩ := ih (e.effect s)
      rw [run, andThen_done out]
      rw [effect] at *
      refine ⟨?_, hfd, hchild, ?_, hpages, fun a => ?_⟩
      · rw [hended, firstFailure_cons_done out]
      · rw [firstFailure_cons_done out]
        exact htemp
      · rw [hexamined, mem_examinedBefore_cons out, header, List.mem_cons, Option.some_inj]
        tauto
    | mapped page temp header out below effect clear =>
      obtain ⟨hended, hfd, hchild, htemp, hpages, hexamined⟩ := ih (e.effect s)
      rw [run, andThen_done out]
      rw [effect] at *
      refine ⟨?_, hfd, hchild, fun hs => ?_, fun p hp => ?_, fun a => ?_⟩
      · rw [hended, firstFailure_cons_done out]
      · rw [firstFailure_cons_done out]
        exact htemp (Bool.eq_false_iff.2 fun htrue => Bool.false_ne_true (hs.symm.trans (clear htrue)))
      · rcases hpages p hp with hp | hp
        · rcases List.mem_cons.1 hp with rfl | hp
          · exact .inr below
          · exact .inl hp
        · exact .inr hp
      · rw [hexamined, mem_examinedBefore_cons out, header]
        simp only [reduceCtorEq, false_or]
    | refused r neg out clean effect =>
      refine .of_stop (by rw [out]; exact Ended.noConfusion) ⟨s.temp, effect⟩ (fun hs r' hr' => ?_) es
      obtain rfl : r = r' := Ended.failed.inj (out.symm.trans hr')
      rw [effect, hs]
      exact ⟨neg, fun hfalse => absurd hfalse Bool.false_ne_true, fun hleaves => absurd hleaves clean⟩
    | left r neg out leaves effect =>
      refine .of_stop (by rw [out]; exact Ended.noConfusion) ⟨true, effect⟩ (fun hs r' hr' => ?_) es
      obtain rfl : r = r' := Ended.failed.inj (out.symm.trans hr')
      rw [effect]
      exact ⟨neg, fun _ => leaves, fun _ => rfl⟩
    | stopped temp out effect =>
      refine .of_stop ?_ ⟨temp, effect⟩ (fun _ r hr => ?_) es <;> rcases out with out | out
      · rw [out]
        exact Ended.noConfusion
      · rw [out]
        exact Ended.noConfusion
      · exact Ended.noConfusion (out.symm.trans hr)
      · exact Ended.noConfusion (out.symm.trans hr)

/-! ## Cleaning up -/

section
variable (c : Caller) (ans : Answers) (file : List Nat) (argv : List (List Nat))

def Opens : Prop := 0 ≤ ans.fd ∧ ans.header = 512 ∧ field (file.take 512) 0 4 = elfMagic

def plan : List Event := events c ans.page (file.take 512) (ePhnum (file.take 512)) 0

def CleansUp : Prop :=
  ∀ r, (spawn c ans file argv).1 = .failed r → r < 0 →
    (spawn c ans file argv).2.child = false ∧ (spawn c ans file argv).2.fd = false ∧ (spawn c ans file argv).2.temp = false

variable {ans file}

lemma spawn_not_opens (h : ¬ Opens ans file) :
    (∃ r, r < 0 ∧ (spawn c ans file argv).1 = .failed r) ∧ (spawn c ans file argv).2 = nothing := by
  unfold spawn
  by_cases hfd : ans.fd < 0
  · rw [if_pos hfd]
    exact ⟨⟨_, hfd, rfl⟩, rfl⟩
  · rw [if_neg hfd]
    have hheader : ans.header ≠ 512 ∨ field (file.take 512) 0 4 ≠ elfMagic := by
      by_contra hboth
      simp only [not_or, not_not] at hboth
      exact h ⟨by omega, hboth⟩
    rw [if_pos hheader]
    exact ⟨⟨_, by decide, rfl⟩, rfl⟩

lemma spawn_opens (h : Opens ans file) : spawn c ans file argv =
    if ans.exofork < 0 then (.failed ans.exofork, { nothing with fd := true })
    else
      match InitStack.initStack argv ans.stack c.mem with
      | .error _ => (.faulted, { nothing with fd := true, child := true })
      | .ok r => if r.ret < 0 then (.failed r.ret, afterStack r) else spawnChild c ans (file.take 512) (afterStack r) := by
  obtain ⟨hfd, hheader, hmagic⟩ := h
  unfold spawn
  rw [if_neg (by omega), if_neg (by simp [hheader, hmagic])]

variable {c argv}

structure Loaded (c : Caller) (ans : Answers) (file : List Nat) (out : Ended × Held) : Prop where
  ended : ∀ r, out.1 = .failed r ↔ ∃ e, firstFailure (plan c ans file) = some e ∧ e.outcome = .failed r
  held : ∀ r, out.1 = .failed r → r < 0 ∧ out.2.child = false ∧ out.2.fd = false ∧
    (out.2.temp = true ↔ ∃ e, firstFailure (plan c ans file) = some e ∧ e.Leaves)
  pages : ∀ p ∈ out.2.pages, p < utop
  examined : ∀ a, a ∈ out.2.examined ↔ a ∈ examinedBefore (plan c ans file)

lemma sharedPages_below {p : Nat}
    (h : p ∈ ((List.range (ustacktop / pgsize)).filter c.shares).map (· * pgsize)) : p < utop := by
  obtain ⟨n, hn, rfl⟩ := List.mem_map.1 h
  have hrange := List.mem_range.1 (List.mem_filter.1 hn).1
  unfold ustacktop utop pgsize at *
  omega

lemma spawnChild_loaded {s : Held} (htemp : s.temp = false) (hpages : ∀ p ∈ s.pages, p < utop) (hexamined : s.examined = []) :
    Loaded c ans file (spawnChild c ans (file.take 512) s) := by
  have hran := run_spec (plan c ans file) s
  have hpages' : ∀ p ∈ (run (plan c ans file) s).2.pages, p < utop :=
    fun p hp => (hran.pages p hp).elim (hpages p) id
  have hexamined' : ∀ a, a ∈ (run (plan c ans file) s).2.examined ↔ a ∈ examinedBefore (plan c ans file) := by
    intro a
    rw [hran.examined, hexamined]
    exact ⟨fun h => h.resolve_left List.not_mem_nil, .inr⟩
  have hended : ∀ r, (run (plan c ans file) s).1 = .failed r ↔
      ∃ e, firstFailure (plan c ans file) = some e ∧ e.outcome = .failed r := by
    intro r
    rw [hran.ended]
    rcases firstFailure (plan c ans file) with _ | e
    · simp
    · simp
  unfold spawnChild
  rw [loadHeaders_eq, ← plan]
  rcases hrun : run (plan c ans file) s with ⟨_ | r | _ | _, s'⟩ <;>
    rw [hrun] at hran hpages' hexamined' hended
  · -- the segments are all mapped, and what follows returns the child or stops the environment
    dsimp only
    have hnot : ∀ r, ¬ ∃ e, firstFailure (plan c ans file) = some e ∧ e.outcome = .failed r :=
      fun r h => Ended.noConfusion ((hended r).2 h)
    have hshared : ∀ p ∈ (copySharedPages c { s' with fd := false }).pages, p < utop := by
      intro p hp
      rcases List.mem_append.1 hp with hp | hp
      · exact sharedPages_below hp
      · exact hpages' p hp
    split <;>
      exact ⟨fun r => ⟨fun h => Ended.noConfusion h, fun h => absurd h (hnot r)⟩, fun r h => Ended.noConfusion h, hshared, hexamined'⟩
  · obtain ⟨hneg, hleaves⟩ := hran.temp htemp r rfl
    refine ⟨hended, fun r' h => ?_, hpages', hexamined'⟩
    obtain rfl : r = r' := Ended.failed.inj h
    exact ⟨hneg, rfl, rfl, hleaves⟩
  · exact ⟨hended, fun r h => Ended.noConfusion h, hpages', hexamined'⟩
  · exact ⟨hended, fun r h => Ended.noConfusion h, hpages', hexamined'⟩

lemma afterStack_pages (r : InitStack.Init) : ∀ p ∈ (afterStack r).pages, p < utop := by
  intro p hp
  unfold afterStack at hp
  dsimp only at hp
  split at hp
  · rw [List.mem_singleton.1 hp]
    decide
  · cases hp

lemma spawn_loaded (hopens : Opens ans file) (hfork : 0 ≤ ans.exofork) {r : InitStack.Init}
    (hstack : InitStack.initStack argv ans.stack c.mem = .ok r) (hret : 0 ≤ r.ret) :
    Loaded c ans file (spawn c ans file argv) := by
  rw [spawn_opens c argv hopens, if_neg (by omega), hstack]
  dsimp only
  rw [if_neg (by omega)]
  exact spawnChild_loaded (InitStack.initStack_unmaps hstack) (afterStack_pages r) rfl

/-- `spawn` cleans up exactly when it does not end at `sys_exofork`, in `init_stack`, or at a `seek` or `readn` of
`map_segment`. -/
theorem spawn_cleans_up_iff (c : Caller) (ans : Answers) (file : List Nat) (argv : List (List Nat)) :
    CleansUp c ans file argv ↔
      (Opens ans file → 0 ≤ ans.exofork ∧ ∀ r, InitStack.initStack argv ans.stack c.mem = .ok r →
        0 ≤ r.ret ∧ ∀ e, firstFailure (plan c ans file) = some e → ¬ e.Leaves) := by
  unfold CleansUp
  by_cases hopens : Opens ans file
  · constructor
    · intro hclean _
      have hfork : 0 ≤ ans.exofork := by
        by_contra hneg
        have hspawn := spawn_opens c argv hopens
        rw [if_pos (by omega)] at hspawn
        rw [hspawn] at hclean
        exact Bool.noConfusion (hclean _ rfl (by omega)).2.1
      refine ⟨hfork, fun r hstack => ?_⟩
      have hret : 0 ≤ r.ret := by
        by_contra hneg
        have hspawn := spawn_opens c argv hopens
        rw [if_neg (by omega), hstack] at hspawn
        dsimp only at hspawn
        rw [if_pos (by omega)] at hspawn
        rw [hspawn] at hclean
        exact Bool.noConfusion (hclean _ rfl (by omega)).1
      refine ⟨hret, fun e he hleaves => ?_⟩
      have hloaded := spawn_loaded hopens hfork hstack hret
      obtain ⟨r', hout⟩ := hleaves.failed
      have hfailed := (hloaded.ended r').2 ⟨e, he, hout⟩
      obtain ⟨hneg, -, -, htemp⟩ := hloaded.held r' hfailed
      exact Bool.false_ne_true ((hclean r' hfailed hneg).2.2.symm.trans (htemp.2 ⟨e, he, hleaves⟩))
    · intro hcond r hfailed _
      obtain ⟨hfork, hstacks⟩ := hcond hopens
      have hspawn := spawn_opens c argv hopens
      rw [if_neg (by omega)] at hspawn
      rcases hstack : InitStack.initStack argv ans.stack c.mem with stop | init
      · rw [hstack] at hspawn
        rw [hspawn] at hfailed
        exact Ended.noConfusion hfailed
      · obtain ⟨hret, hleaves⟩ := hstacks init hstack
        have hloaded := spawn_loaded hopens hfork hstack hret
        obtain ⟨-, hchild, hfd, htemp⟩ := hloaded.held r hfailed
        refine ⟨hchild, hfd, Bool.eq_false_iff.2 fun htrue => ?_⟩
        obtain ⟨e, he, hleft⟩ := htemp.1 htrue
        exact hleaves e he hleft
  · obtain ⟨-, hnothing⟩ := spawn_not_opens c argv hopens
    rw [hnothing]
    exact ⟨fun _ h => absurd h hopens, fun _ _ _ _ => ⟨rfl, rfl, rfl⟩⟩

/-- A file with one program header of type `ELF_PROG_LOAD` at byte 52. -/
def elfFile (phoff va filesz memsz : Nat) : List Nat :=
  wordBytes elfMagic ++ List.replicate 24 0 ++ wordBytes phoff ++ List.replicate 12 0 ++ [1, 0] ++ List.replicate 6 0 ++
    (wordBytes elfProgLoad ++ wordBytes 0 ++ wordBytes va ++ wordBytes 0 ++ wordBytes filesz ++ wordBytes memsz ++
      List.replicate 8 0) ++ List.replicate 428 0

def quietCaller : Caller := ⟨0xEEBFD000, fun _ _ => none, InitStack.noPages, fun _ => false, by decide⟩

def granted : Answers := ⟨0, 512, 0x1001, ⟨0, 0, 0⟩, fun _ _ => ⟨0, 0, 0, 0⟩, 0, 0, 0⟩

lemma not_cleansUp {c : Caller} {ans : Answers} {file : List Nat} {argv : List (List Nat)} {r : Int}
    (h : (spawn c ans file argv).1 = .failed r ∧ r < 0 ∧ ((spawn c ans file argv).2.child = true ∨
      (spawn c ans file argv).2.fd = true ∨ (spawn c ans file argv).2.temp = true)) : ¬ CleansUp c ans file argv := by
  intro hclean
  obtain ⟨hfailed, hneg, hleft⟩ := h
  have hnone := hclean r hfailed hneg
  simp [hnone] at hleft

/-- Without a free environment the descriptor stays open; where the stack is refused the child stays too; and where the
file cannot be read its page stays at `UTEMP`. -/
theorem spawn_leaves_behind :
    ¬ CleansUp quietCaller { granted with exofork := -eNoFreeEnv } (elfFile 52 0x800000 16 16) [] ∧
      ¬ CleansUp quietCaller { granted with stack := ⟨-eNoMem, 0, 0⟩ } (elfFile 52 0x800000 16 16) [] ∧
      ¬ CleansUp quietCaller { granted with page := fun _ _ => ⟨0, 0, -eInval, 0⟩ } (elfFile 52 0x800000 16 16) [] := by
  exact ⟨not_cleansUp (r := -eNoFreeEnv) (by decide +kernel), not_cleansUp (r := -eNoMem) (by decide +kernel),
    not_cleansUp (r := -eInval) (by decide +kernel)⟩

/-! ## Headers and pages -/

/-- The header at `a` lies in the 512 bytes of `elf_buf`. -/
def Inside (c : Caller) (a : Nat) : Prop := c.buf ≤ a ∧ a + 32 ≤ c.buf + 512

/-- The table of headers does not end in the first 512 bytes, or a segment does not end below `UTOP`. -/
def Misdescribes (file : List Nat) : Prop :=
  (0 < ePhnum (file.take 512) ∧ 512 < ePhoff (file.take 512) + 32 * ePhnum (file.take 512)) ∨
    ∃ i, i < ePhnum (file.take 512) ∧
      (proghdr (file.take 512) (ePhoff (file.take 512) + 32 * i)).pType = elfProgLoad ∧
      0 < (proghdr (file.take 512) (ePhoff (file.take 512) + 32 * i)).pMemsz ∧
      utop < (proghdr (file.take 512) (ePhoff (file.take 512) + 32 * i)).pVa +
        (proghdr (file.take 512) (ePhoff (file.take 512) + 32 * i)).pMemsz

structure Tolerates (c : Caller) (ans : Answers) (file : List Nat) (argv : List (List Nat)) : Prop where
  examined : ∀ a ∈ (spawn c ans file argv).2.examined, Inside c a
  pages : ∀ p ∈ (spawn c ans file argv).2.pages, p < utop
  fails : Misdescribes file → ∃ r, r < 0 ∧ (spawn c ans file argv).1 = .failed r

def FailsEarly (c : Caller) (ans : Answers) (file : List Nat) (argv : List (List Nat)) : Prop :=
  ¬ Opens ans file ∨ ans.exofork < 0 ∨ ∃ r, InitStack.initStack argv ans.stack c.mem = .ok r ∧ r.ret < 0

/-- The first call that fails is one whose value `map_segment` returns, and the headers before it are in `elf_buf`. -/
def FailsInside (c : Caller) (ans : Answers) (file : List Nat) (argv : List (List Nat)) : Prop :=
  (∃ r, InitStack.initStack argv ans.stack c.mem = .ok r) ∧
    (∃ e r, firstFailure (plan c ans file) = some e ∧ e.outcome = .failed r) ∧
    ∀ a ∈ examinedBefore (plan c ans file), Inside c a

lemma headers_of_roundEvents {ans : Nat → PageAnswers} {va filesz n : Nat} : ∀ {k : Nat} {e : Event},
    e ∈ roundEvents ans va filesz n k → e.header = none := by
  induction n with
  | zero => exact fun h => absurd h List.not_mem_nil
  | succ n ih =>
    intro k e h
    rcases List.mem_cons.1 h with rfl | h
    · unfold roundEvent
      split <;> rfl
    · exact ih h

lemma headers_of_headerEvents {byte : Nat → Option Nat} {ans : Nat → PageAnswers} {ph a : Nat}
    (h : e ∈ headerEvents byte ans ph) (ha : e.header = some a) : a = ph := by
  unfold headerEvents at h
  rcases List.mem_cons.1 h with rfl | h
  · exact (Option.some.inj ha).symm
  exfalso
  split at h
  · rw [List.mem_singleton.1 h] at ha
    cases ha
  split at h
  · cases h
  split at h
  · rw [List.mem_singleton.1 h] at ha
    cases ha
  · rw [headers_of_roundEvents h] at ha
    cases ha

lemma headers_of_events {c : Caller} {ans : Nat → Nat → PageAnswers} {elfBuf : List Nat} {n : Nat} : ∀ {i a : Nat} {e : Event},
    e ∈ events c ans elfBuf n i → e.header = some a → ∃ j, j < i + n ∧ a = toU32 (c.buf + ePhoff elfBuf + 32 * j) := by
  induction n with
  | zero => exact fun h _ => absurd h List.not_mem_nil
  | succ n ih =>
    intro i a e h ha
    rcases List.mem_append.1 h with h | h
    · exact ⟨i, by omega, headers_of_headerEvents h ha⟩
    · obtain ⟨j, hj, ha⟩ := ih h ha
      exact ⟨j, by omega, ha⟩

lemma inside_of_table {c : Caller} {ans : Answers} {file : List Nat} (h : ¬ Misdescribes file) :
    ∀ a ∈ examinedBefore (plan c ans file), Inside c a := by
  intro a ha
  obtain ⟨e, he, hheader⟩ := List.mem_filterMap.1 ha
  obtain ⟨j, hj, rfl⟩ := headers_of_events ((List.takeWhile_prefix _).subset he) hheader
  have htable : ¬ (0 < ePhnum (file.take 512) ∧ 512 < ePhoff (file.take 512) + 32 * ePhnum (file.take 512)) :=
    fun htable => h (.inl htable)
  have hroom := c.room
  unfold Inside toU32
  omega

lemma spawn_fails_early (h : FailsEarly c ans file argv) : (∃ r, r < 0 ∧ (spawn c ans file argv).1 = .failed r) ∧
    (spawn c ans file argv).2.examined = [] ∧ ∀ p ∈ (spawn c ans file argv).2.pages, p < utop := by
  by_cases hopens : Opens ans file
  · have hspawn := spawn_opens c argv hopens
    by_cases hfork : ans.exofork < 0
    · rw [hspawn, if_pos hfork]
      exact ⟨⟨_, hfork, rfl⟩, rfl, fun p hp => absurd hp List.not_mem_nil⟩
    · obtain ⟨r, hstack, hret⟩ := (h.resolve_left fun hnot => hnot hopens).resolve_left hfork
      rw [hspawn, if_neg hfork, hstack]
      dsimp only
      rw [if_pos hret]
      exact ⟨⟨_, hret, rfl⟩, rfl, afterStack_pages r⟩
  · obtain ⟨hfailed, hnothing⟩ := spawn_not_opens c argv hopens
    rw [hnothing]
    exact ⟨hfailed, rfl, fun p hp => absurd hp List.not_mem_nil⟩

/-- `spawn` keeps to `elf_buf` and fails on other headers exactly when there are none, when it fails before it reads a
header, or when the first page it cannot map is refused in a way that `map_segment` returns. -/
theorem spawn_tolerates_iff (c : Caller) (ans : Answers) (file : List Nat) (argv : List (List Nat)) :
    Tolerates c ans file argv ↔ ¬ Misdescribes file ∨ FailsEarly c ans file argv ∨ FailsInside c ans file argv := by
  by_cases hearly : FailsEarly c ans file argv
  · obtain ⟨hfailed, hexamined, hpages⟩ := spawn_fails_early hearly
    refine ⟨fun _ => .inr (.inl hearly), fun _ => ⟨fun a ha => ?_, hpages, fun _ => hfailed⟩⟩
    rw [hexamined] at ha
    cases ha
  have hopens : Opens ans file := Classical.not_not.1 fun hnot => hearly (.inl hnot)
  have hfork : 0 ≤ ans.exofork := Int.not_lt.1 fun hneg => hearly (.inr (.inl hneg))
  rcases hstack : InitStack.initStack argv ans.stack c.mem with stop | r
  · have hspawn := spawn_opens c argv hopens
    rw [if_neg (by omega), hstack] at hspawn
    constructor
    · intro htolerates
      refine .inl fun hmis => ?_
      obtain ⟨r, -, hfailed⟩ := htolerates.fails hmis
      rw [hspawn] at hfailed
      exact Ended.noConfusion hfailed
    · rintro (hmis | hearly' | ⟨⟨r, hok⟩, -⟩)
      · refine ⟨?_, ?_, fun h => absurd h hmis⟩ <;>
          rw [hspawn] <;>
          exact fun a ha => absurd ha List.not_mem_nil
      · exact absurd hearly' hearly
      · rw [hstack] at hok
        cases hok
  · have hret : 0 ≤ r.ret := Int.not_lt.1 fun hneg => hearly (.inr (.inr ⟨r, hstack, hneg⟩))
    have hloaded := spawn_loaded hopens hfork hstack hret
    constructor
    · intro htolerates
      by_cases hmis : Misdescribes file
      · obtain ⟨r', -, hfailed⟩ := htolerates.fails hmis
        obtain ⟨e, he, hout⟩ := (hloaded.ended r').1 hfailed
        refine .inr (.inr ⟨⟨r, hstack⟩, ⟨e, r', he, hout⟩, fun a ha => ?_⟩)
        exact htolerates.examined a ((hloaded.examined a).2 ha)
      · exact .inl hmis
    · rintro (hmis | hearly' | ⟨-, ⟨e, r', he, hout⟩, hinside⟩)
      · refine ⟨fun a ha => ?_, hloaded.pages, fun h => absurd h hmis⟩
        exact inside_of_table hmis a ((hloaded.examined a).1 ha)
      · exact absurd hearly' hearly
      · have hfailed := (hloaded.ended r').2 ⟨e, he, hout⟩
        refine ⟨fun a ha => hinside a ((hloaded.examined a).1 ha), hloaded.pages, fun _ => ⟨r', ?_, hfailed⟩⟩
        exact (hloaded.held r' hfailed).1

end

/-- A table of headers past `elf_buf` is read there, a file page at `UTOP` stops the environment, and a segment of
2^32 - 1 bytes is taken for an empty one. -/
theorem spawn_misled :
    ¬ Tolerates quietCaller granted (elfFile 4096 0 0 0) [] ∧ ¬ Tolerates quietCaller granted (elfFile 52 utop 4096 4096) [] ∧
      (spawn quietCaller granted (elfFile 52 utop 4096 4096) []).1 = .panicked ∧
      ¬ Tolerates quietCaller granted (elfFile 52 0x800001 0 0xFFFFFFFF) [] ∧
      (spawn quietCaller granted (elfFile 52 0x800001 0 0xFFFFFFFF) []).1 = .done := by
  have hread : 0xEEBFE000 ∈ (spawn quietCaller granted (elfFile 4096 0 0 0) []).2.examined := by decide +kernel
  have hpanic : (spawn quietCaller granted (elfFile 52 utop 4096 4096) []).1 = .panicked := by decide +kernel
  have hdone : (spawn quietCaller granted (elfFile 52 0x800001 0 0xFFFFFFFF) []).1 = .done := by decide +kernel
  refine ⟨fun h => ?_, fun h => ?_, hpanic, fun h => ?_, hdone⟩
  · exact absurd (h.examined _ hread).2 (by decide)
  · obtain ⟨r, -, hr⟩ := h.fails (.inr ⟨0, by decide +kernel⟩)
    exact Ended.noConfusion (hpanic.symm.trans hr)
  · obtain ⟨r, -, hr⟩ := h.fails (.inr ⟨0, by decide +kernel⟩)
    exact Ended.noConfusion (hdone.symm.trans hr)

end Jos.SpawnRun
