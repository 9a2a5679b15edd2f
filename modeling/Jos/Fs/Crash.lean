import Jos.Fs.Contents
import Jos.Fs.Tracks

/-!
# What a crash finds on the disk

A sequence of calls may stop at any `flush_block`. Unless a file is made shorter through
an indirect block that it keeps, no pointer to a free block is ever on the disk.
-/

namespace Jos.Fs
open Relation WordMem Durable

inductive FileOp where
  | create (path : List Nat)
  | write (cached : Nat → Bool) (buf : Mem → Nat → Nat) (f count off : Nat)
  | setSize (f newsize : Nat)
  | flush (f : Nat)

namespace FileOp

def proc : FileOp → Durable.Proc Unit
  | create path => do
    let _ ← Durable.fileCreate path
    return ()
  | write cached buf f count off => do
    let _ ← Durable.fileWrite cached buf f count off
    return ()
  | setSize f newsize => do
    let _ ← Durable.fileSetSize f newsize
    return ()
  | flush f => Durable.fileFlush f

/-- Paths are strings, the files are regular ones, and no file is to be larger than `MAXFILESIZE`. -/
def Allowed (m : Mem) : FileOp → Prop
  | create path => Chars path
  | write _ _ f count off => (IsFile m f ∧ m (fType f) = ftypeReg) ∧ off + count ≤ maxfilesize
  | setSize f newsize => (IsFile m f ∧ m (fType f) = ftypeReg) ∧ newsize ≤ maxfilesize
  | flush f => IsFile m f ∧ m (fType f) = ftypeReg

/-- The call does not write through a pointer that was never set, and it frees no block through an indirect block that
its file keeps. -/
def Orderly (s : Store) (op : FileOp) : Prop :=
  (op.proc.run s).1 ≠ .error .wild ∧ ∀ f newsize, op = setSize f newsize → KeepsIndirect s.mem f newsize

lemma keeps {P : Nat → Prop} {s : Store} {op : FileOp} (hop : op.Allowed s.mem)
    (hkeep : ∀ f newsize, op = setSize f newsize → P f → KeepsIndirect s.mem f newsize) : Proc.Keeps (Tracks (Behind P) (Behind P)) op.proc s := by
  have hreg : ∀ f, IsFile s.mem f ∧ s.mem (fType f) = ftypeReg → s.mem (fType f) ≠ ftypeDir := by
    intro f hf
    rw [hf.2]
    decide
  cases op with
  | create path => exact .bind (fileCreate_keeps (Behind.lag P).toLag hop) fun _ _ _ => .pure _ _
  | write cached buf f count off =>
    obtain ⟨hf, hmax⟩ := hop
    rw [maxfilesize_eq] at hmax
    intro h
    refine (Proc.Keeps.bind (fileWrite_keeps (Behind.lag P) cached buf (by omega) hf.1 (hreg f hf) (fun _ hbehind => ?_)
      fun _ _ _ _ _ _ => trivial) fun _ _ _ => .pure _ _) h
    exact hbehind.shrink h.owned hf.1 (hreg f hf) .refl _ fun _ _ => ⟨rfl, fun _ _ _ => rfl⟩
  | setSize f newsize =>
    obtain ⟨hf, -⟩ := hop
    exact .bind (fileSetSize_behind hf.1 (hreg f hf) (hkeep f newsize rfl)) fun _ _ _ => .pure _ _
  | flush f => exact fileFlush_keeps (Behind.lag P).toLag f

end FileOp

def OrderlyStep (s s' : Store) : Prop := ∃ op : FileOp, op.Allowed s.mem ∧ op.Orderly s ∧ (op.proc.run s).2 = s'

def mounted (m : Mem) : Store := ⟨m, m, []⟩

lemma mounted_tracks (P : Nat → Prop) {m : Mem} (ho : Owned m) (hu : UnusedBlank 34 m) : Tracks (Behind P) (Behind P) (mounted m) :=
  ⟨ho, hu, .refl P m, fun _ hd => absurd hd List.not_mem_nil⟩

lemma OrderlyStep.tracks {s s' : Store} (h : Tracks (Behind fun _ => True) (Behind fun _ => True) s) (hstep : OrderlyStep s s') :
    Tracks (Behind fun _ => True) (Behind fun _ => True) s' := by
  obtain ⟨op, hop, horderly, rfl⟩ := hstep
  exact FileOp.keeps hop (fun f n heq _ => horderly.2 f n heq) h

/-- Whenever the machine stops, the disk is one of those listed. -/
theorem crash_no_stale {m : Mem} (ho : Owned m) (hu : UnusedBlank 34 m) {s : Store} (hrun : ReflTransGen OrderlyStep (mounted m) s) :
    ∀ d ∈ s.disk :: s.past, NoStale d := by
  have htracks : Tracks (Behind fun _ => True) (Behind fun _ => True) s := by
    induction hrun with
    | refl => exact mounted_tracks _ ho hu
    | tail _ hstep ih => exact hstep.tracks ih
  intro d hd
  rcases List.mem_cons.1 hd with rfl | hd
  · exact htracks.lags.noStale htracks.owned
  · obtain ⟨m', ho', hbehind⟩ := htracks.past d hd
    exact hbehind.noStale ho'

/-- The first byte of an empty file. -/
theorem crash_no_stale_small : ∃ s, OrderlyStep (mounted smallDisk) s ∧ s.past.length = 3 ∧ ∀ d ∈ s.disk :: s.past, NoStale d := by
  have hop : (FileOp.write (fun _ => false) (fun _ _ => 120) 3072 1 0).Allowed smallDisk := by
    refine ⟨⟨smallDisk_file, rfl⟩, ?_⟩
    rw [maxfilesize_eq]
    decide
  have hstep : OrderlyStep (mounted smallDisk) ((FileOp.write (fun _ => false) (fun _ _ => 120) 3072 1 0).proc.run (mounted smallDisk)).2 :=
    ⟨_, hop, ⟨by decide +kernel, fun f n heq => nomatch heq⟩, rfl⟩
  refine ⟨_, hstep, by decide +kernel, crash_no_stale smallDisk_checked.agrees.toOwned ?_ (.single hstep)⟩
  exact smallDisk_checked.unusedBlank (by decide)

/-- A disk of 7 blocks: the file `a` has 12 blocks, of which only the last is there. It is block 6, numbered in the
indirect block 4. Block 5 is free. -/
def sparseDisk : Mem := fun w =>
  if w = 1025 then 7
  else if w = 1058 then 4096
  else if w = 1059 then ftypeDir
  else if w = 1060 then 3
  else if w = 2048 then 32
  else if w = 3072 then 97
  else if w = 3104 then 49152
  else if w = 3116 then 4
  else if w = 4097 then 6
  else 0

lemma sparseDisk_checked : Checked sparseDisk := by decide +kernel

lemma sparseDisk_file : IsFile sparseDisk 3072 := FirstNamed.isFile (by decide)

def shortened : Store := ((FileOp.setSize 3072 45056).proc.run (mounted sparseDisk)).2

def rewritten : Store := ((FileOp.write (fun _ => false) (fun _ _ => 120) 3072 1 0).proc.run shortened).2

theorem crash_stale : Consistent sparseDisk ∧ UnusedBlank 34 sparseDisk ∧
    (FileOp.setSize 3072 45056).Allowed sparseDisk ∧ ((FileOp.setSize 3072 45056).proc.run (mounted sparseDisk)).1 = .ok () ∧
    (FileOp.write (fun _ => false) (fun _ _ => 120) 3072 1 0).Allowed shortened.mem ∧
    ((FileOp.write (fun _ => false) (fun _ _ => 120) 3072 1 0).proc.run shortened).1 = .ok () ∧
    Refers rewritten.disk (.block 3072 11) 6 ∧ blockIsFree rewritten.disk 6 = true ∧ ¬ NoStale rewritten.disk := by
  obtain ⟨hset, hfirst, hreg, hwrite, hfirst', hblock, hfree⟩ :
      ((FileOp.setSize 3072 45056).proc.run (mounted sparseDisk)).1 = .ok () ∧ FirstNamed shortened.mem ∧
      shortened.mem (fType 3072) = ftypeReg ∧
      ((FileOp.write (fun _ => false) (fun _ _ => 120) 3072 1 0).proc.run shortened).1 = .ok () ∧ FirstNamed rewritten.disk ∧
      blockAt rewritten.disk 3072 11 = 6 ∧ blockIsFree rewritten.disk 6 = true := by decide +kernel
  have href : Refers rewritten.disk (.block 3072 11) 6 := ⟨hfirst'.isFile, by decide, hblock, by decide⟩
  refine ⟨sparseDisk_checked.consistent, sparseDisk_checked.unusedBlank (by decide), ⟨⟨sparseDisk_file, rfl⟩, ?_⟩, hset,
    ⟨⟨hfirst.isFile, hreg⟩, ?_⟩, hwrite, href, hfree, fun hno => ?_⟩
  · rw [maxfilesize_eq]
    decide
  · rw [maxfilesize_eq]
    decide
  · exact nomatch hfree.symm.trans (hno _ _ href)

end Jos.Fs
