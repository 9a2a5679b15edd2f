import Jos.Fs.Format
import Jos.Fs.Path

/-!
# The server reads what `fsformat` has written

Nothing here depends on the slots that `fsformat` leaves unset: the server looks at the
blocks before the end of a file only.
-/

namespace Jos.Fs
open CInt WordMem

variable {F : HostFile} {i k : Nat} {name : List Nat}

lemma HostFile.name_chars (F : HostFile) : Chars F.name := fun c hc =>
  F.chars c (List.mem_reverse.mp ((List.takeWhile_sublist _).subset (List.mem_reverse.mp hc)))

def entryAt (files : List HostFile) (k : Nat) : Nat := 1024 * dirStart files + 64 * k

section
variable {nb : Nat} {garbage : Mem} {files : List HostFile} {m : Mem} (h : Image nb garbage files m)
include h

lemma Image.type_entry (hk : k < 16 * rootBlocks files.length) : m (fType (entryAt files k)) = ftypeReg := by
  rcases hF : files[k]? with _ | F
  · have hlen := List.getElem?_eq_none_iff.mp hF
    exact h.unused (64 * k + 33) (by omega) (by omega)
  · exact (h.laid k F hF).type

lemma Image.unused_entry (hlen : files.length ≤ k) (hk : k < 16 * rootBlocks files.length) :
    nameEmpty m (entryAt files k) := by
  have hzero : m (entryAt files k) = 0 := h.unused (64 * k) (by omega) (by omega)
  unfold nameEmpty getByte
  rw [Nat.mul_div_cancel_left _ (by decide), hzero, Nat.mul_mod_right]
  rfl

lemma Image.entryName_eq (hF : files[k]? = some F) : entryName m (entryAt files k) = F.name.take maxnamelen := by
  have hname := (h.laid k F hF).name
  have hlen : (bytesAt m (4 * entryAt files k) maxnamelen).length = maxnamelen := length_bytesAt ..
  have hbytes : ∀ j, j < maxnamelen → j ≤ F.name.length →
      (bytesAt m (4 * entryAt files k) maxnamelen)[j]? = some ((F.name ++ [0])[j]?.getD 0) := fun j hj hle => by
    rw [getElem_bytesAt _ _ _ hj]
    exact congrArg some (hname j hj hle)
  have htake : (bytesAt m (4 * entryAt files k) maxnamelen).take F.name.length = F.name.take maxnamelen := by
    refine List.ext_getElem? fun j => ?_
    rw [List.getElem?_take, List.getElem?_take]
    by_cases hj : j < F.name.length
    · by_cases hj' : j < maxnamelen
      · rw [if_pos hj, if_pos hj', hbytes j hj' (by omega), List.getElem?_append_left hj, List.getElem?_eq_getElem hj]
        rfl
      · rw [if_pos hj, if_neg hj', List.getElem?_eq_none (by omega)]
    · rw [if_neg hj, List.getElem?_eq_none (Nat.not_lt.mp hj), ite_self]
  have hdrop : ((bytesAt m (4 * entryAt files k) maxnamelen).drop F.name.length).takeWhile (· != 0) = [] := by
    by_cases hshort : F.name.length < maxnamelen
    · have hzero := hbytes _ hshort le_rfl
      rw [List.getElem?_append_right le_rfl, Nat.sub_self] at hzero
      rw [List.drop_eq_getElem_cons (by omega), (List.getElem?_eq_some_iff.mp hzero).2]
      rfl
    · rw [List.drop_eq_nil_of_le (by omega)]
      rfl
  unfold entryName
  rw [← List.take_append_drop F.name.length (bytesAt m (4 * entryAt files k) maxnamelen), htake,
    List.takeWhile_append_of_pos, hdrop, List.append_nil]
  intro c hc
  exact bne_iff_ne.mpr (F.name_chars c (List.mem_of_mem_take hc)).1

variable (hfit : Fit nb files)
include hfit

lemma Image.blockAt_root (i : Nat) :
    blockAt m root i = if i < rootBlocks files.length then dirStart files + i else 0 := by
  have hsmall := rootBlocks_le hfit.count
  have hn : ndirect = 10 := rfl
  by_cases hi : i < ndirect
  · rw [blockAt_direct hi]
    split
    · exact h.direct i ‹_›
    · exact h.beyond i (by omega) (by omega)
  · rw [if_neg (by omega)]
    exact blockAt_none (by omega) (h.beyond ndirect (by omega) le_rfl)

lemma Image.entry_eq (hi : i < rootBlocks files.length) (j : Nat) :
    1024 * blockAt m root i + 64 * j = entryAt files (16 * i + j) := by
  rw [h.blockAt_root hfit, if_pos hi]
  unfold entryAt
  ring

lemma Image.size_root : Fs.size m root = 4096 * (rootBlocks files.length : Int) := by
  have hsmall := rootBlocks_le hfit.count
  unfold Fs.size
  rw [h.size, toI32_of_range] <;> omega

lemma Image.nblocks_root : Fs.nblocks (Fs.size m root) = rootBlocks files.length := by
  have hsmall := rootBlocks_le hfit.count
  have := nblocks_of_fits (s := 4096 * (rootBlocks files.length : Int)) (by omega) (by omega)
  rw [h.size_root hfit]
  omega

lemma Image.allocated : Allocated m := by
  have hdir : ∀ d, InTree m d → m (fType d) = ftypeDir → d = root := by
    intro d hd
    induction hd with
    | root => exact fun _ => rfl
    | @entry d i j hd hdir hi hj hname ih =>
      intro htype
      obtain rfl := ih hdir
      rw [h.nblocks_root hfit] at hi
      have hj' : j < 16 := hj
      rw [h.entry_eq hfit hi, h.type_entry (by omega)] at htype
      exact absurd htype (by decide)
  have hn := h.nblocks_root hfit
  have hsmall := rootBlocks_le hfit.count
  have hroom := hfit.dir_room
  have h3 : 3 ≤ dirStart files := Nat.le_add_right _ _
  have h10 : ndirect = 10 := rfl
  refine ⟨fun d hd htype => ?_, fun d i hd htype hi => ?_, fun d hd htype hlt => ?_⟩ <;> obtain rfl := hdir d hd htype
  · rw [hn, h.size_root hfit, blksize_cast]
    exact ⟨by omega, Int.dvd_mul_right .., by omega⟩
  · rw [hn] at hi
    rw [h.blockAt_root hfit, if_pos hi, h.nblocks]
    omega
  · omega

omit hfit in
lemma Image.nameIs_entry (hshort : ∀ F ∈ files, F.name.length < maxnamelen) (hname : NameOk name)
    (hk : k < 16 * rootBlocks files.length) :
    nameIs name m (entryAt files k) ↔ ∃ F, files[k]? = some F ∧ F.name = name := by
  rcases hF : files[k]? with _ | F
  · refine ⟨fun hyes => ?_, fun ⟨F, hnone, _⟩ => nomatch hnone⟩
    have hnamed := nameEmpty_of_nameIs hname.ne hname.chars hyes
    exact nomatch hnamed.symm.trans (h.unused_entry (List.getElem?_eq_none_iff.mp hF) hk)
  · rw [nameIs_iff_entryName hname.chars hname.short, h.entryName_eq hF,
      List.take_of_length_le (le_of_lt (hshort F (List.mem_of_getElem? hF)))]
    exact ⟨fun heq => ⟨F, rfl, heq⟩, fun ⟨_, hsome, heq⟩ => Option.some.inj hsome ▸ heq⟩

lemma Image.lookup_root (hshort : ∀ F ∈ files, F.name.length < maxnamelen) (hname : NameOk name) {e : Nat}
    (hlook : lookup m root name = some e) : ∃ k F, files[k]? = some F ∧ F.name = name ∧ e = entryAt files k := by
  unfold lookup at hlook
  obtain ⟨i, j, hi, hj, rfl⟩ := mem_entries.1 (List.mem_of_find?_eq_some hlook)
  have hyes := List.find?_some hlook
  rw [h.nblocks_root hfit] at hi
  have hj' : j < 16 := hj
  rw [h.entry_eq hfit hi] at hyes ⊢
  obtain ⟨F, hF, heq⟩ := (h.nameIs_entry hshort hname (by omega)).1 hyes
  exact ⟨_, F, hF, heq, rfl⟩

end

section
variable {m : Mem} {f b : Nat} {F : HostFile}

lemma HostFile.blocks_le {F : HostFile} (h : F.data.length < maxfilesize) : F.blocks ≤ ndirect + nindirect := by
  have h' : F.data.length < 4235264 := h
  unfold HostFile.blocks ndirect nindirect
  omega

section
variable (h : FileLaid m f b F) (hsize : F.data.length < maxfilesize)
include h hsize

lemma FileLaid.size_eq : Fs.size m f = F.data.length := by
  have hlt : F.data.length < 4235264 := hsize
  unfold Fs.size
  rw [h.size]
  exact toI32_of_range (by omega) (by omega)

lemma FileLaid.blockAt (hi : i < F.blocks)
     : Fs.blockAt m f i = b + i := by
  have hmax := HostFile.blocks_le hsize
  by_cases hd : i < ndirect
  · rw [blockAt_direct hd, h.direct i hi hd]
  · have hind : ndirect ≤ F.blocks := by omega
    have hne : m (fIndirect f) ≠ 0 := by
      rw [h.indirect hind]
      omega
    have hn : nindirect = 1024 := rfl
    rw [blockAt_indirect (by omega) hne, h.indirect hind, h.entries hind _ (by omega), if_pos (by omega)]
    omega

section
variable (h0 : b ≠ 0) (hend : b + F.span ≤ sNblocks m)
include h0 hend

lemma FileLaid.getBlock (hi : i < F.blocks) :
    fileGetBlock f i m = .ok (0, some (1024 * (b + i)), m) := by
  have hmax := HostFile.blocks_le hsize
  have hspan := F.blocks_le_span
  refine fileGetBlock_present (by omega) (h.blockAt hsize hi) (by omega) (by omega) fun hle => ?_
  have hind : ndirect ≤ F.blocks := by omega
  rw [h.indirect hind]
  unfold HostFile.span at hend
  rw [if_pos hind] at hend
  omega

lemma FileLaid.moveBlocks (hused : ∀ i, i < F.blocks → blockIsFree m (b + i) = false) (cached : Nat → Bool) (n : Nat)
    {p : Nat} (blk : Option Nat) (out : List (Nat × Nat)) (hp : p ≤ F.data.length) (hn : F.data.length ≤ p + n) :
    Fs.moveBlocks (readMove cached) f F.data.length n p blk out m =
      .ok (none, out ++ (List.range (F.data.length - p)).map (fun i => (4096 * b + p + i, getByte m (4096 * b + p + i))), m) := by
  induction n generalizing p blk out with
  | zero =>
    obtain rfl : p = F.data.length := by omega
    rw [Nat.sub_self, List.range_zero, List.map_nil, List.append_nil]
    rfl
  | succ n ih =>
    have hlt : F.data.length < 4235264 := hsize
    rcases lt_or_ge p F.data.length with hp' | hp'
    · have hi : p / 4096 < F.blocks := by
        unfold HostFile.blocks
        omega
      have hspan := F.blocks_le_span
      generalize hc : min (4096 - p % 4096) (F.data.length - p) = c
      have hsplit : List.range (F.data.length - p) =
          List.range c ++ (List.range (F.data.length - (p + c))).map (c + ·) := by
        rw [← List.range_add]
        congr 1
        omega
      have hat : 4 * (1024 * (b + p / 4096)) + p % 4096 = 4096 * b + p := by omega
      rw [moveBlocks_at _ _ _ _ _ _ hp' (by omega), toI32_next (by omega), h.getBlock hsize h0 hend hi, ok_bind, hc]
      change (readMove cached (4 * (1024 * (b + p / 4096)) + p % 4096) c out m >>= _) = _
      rw [hat, readMove_used (hused _ hi) (by omega) (by omega) (by omega) (by omega), ok_bind]
      change Fs.moveBlocks (readMove cached) f F.data.length n (p + c : Nat) (some (1024 * (b + p / 4096))) _ m = _
      rw [ih _ _ (by omega) (by omega), hsplit, List.map_append, List.map_map, List.append_assoc]
      simp only [Function.comp_def, add_assoc]
    · have hend' : F.data.length ≤ toU32 (p : Int) := by
        have := toU32_of_range (i := (p : Int)) (by omega) (by omega)
        omega
      rw [moveBlocks_end _ _ _ _ _ _ hend', Nat.sub_eq_zero_of_le hp', List.range_zero, List.map_nil, List.append_nil]

lemma FileLaid.fileRead (hused : ∀ i, i < F.blocks → blockIsFree m (b + i) = false) (cached : Nat → Bool) : ∃ out, Fs.fileRead cached f F.data.length 0 m = .ok (F.data.length, out, m) ∧
      out.map Prod.snd = F.data := by
  have hlt : F.data.length < 4235264 := hsize
  have hlen := h.size_eq hsize
  rcases Nat.eq_zero_or_pos F.data.length with hz | hpos
  · refine ⟨[], ?_, (List.eq_nil_of_length_eq_zero hz).symm⟩
    unfold Fs.fileRead
    rw [hlen, hz]
    rfl
  · refine ⟨(List.range F.data.length).map (fun i => (4096 * b + i, getByte m (4096 * b + i))), ?_, ?_⟩
    · have hcount : readCount m f F.data.length 0 = F.data.length := by
        unfold readCount
        omega
      have hstop : toU32 ((0 : Int) + F.data.length) = F.data.length := by
        have := toU32_of_range (i := (0 : Int) + F.data.length) (by omega) (by omega)
        omega
      have hcast : toI32 F.data.length = F.data.length := toI32_of_range (by omega) (by omega)
      rw [fileRead_eq (by omega) (by omega), hcount, hstop, hcast]
      have hmove := h.moveBlocks hsize h0 hend hused cached F.data.length none [] (Nat.zero_le _) (by omega)
      rw [Nat.sub_zero, List.nil_append] at hmove
      rw [← Int.natCast_zero, hmove]
      rfl
    · refine List.ext_getElem? fun j => ?_
      rw [List.map_map, List.getElem?_map]
      rcases lt_or_ge j F.data.length with hj | hj
      · rw [List.getElem?_range hj, List.getElem?_eq_getElem hj]
        change some (getByte m (4096 * b + j)) = _
        rw [h.data j hj, List.getElem?_eq_getElem hj]
        rfl
      · rw [List.getElem?_eq_none (by rwa [List.length_range]), List.getElem?_eq_none hj]
        rfl

end

end

end

/-- The blocks up to the end of the file are in use, so that `bc_pgfault` reads them in without a panic. -/
def Readable (m : Mem) (f : Nat) : Prop :=
  ∀ i : Nat, 4096 * (i : Int) < size m f →
    blockIsFree m (blockAt m f i) = false ∧ (ndirect ≤ i → blockIsFree m (m (fIndirect f)) = false)

section
variable {nb : Nat} {garbage : Mem} {files : List HostFile} {m : Mem}

lemma HostFile.slash_notMem (F : HostFile) : slash ∉ F.name := by
  intro h
  have := List.mem_takeWhile_imp (List.mem_reverse.mp h)
  exact absurd this (by decide)

lemma components_name (hname : NameOk name) (hslash : slash ∉ name) :
    components name = [name] ∧ components (slash :: name) = [name] := by
  have hone : components name = [name] := by
    refine pieces_of_not _ hname.ne fun x hx => ?_
    rw [beq_eq_false_iff_ne]
    rintro rfl
    exact hslash hx
  exact ⟨hone, (pieces_cons _ (by decide) name).trans hone⟩

section
variable (h : Image nb garbage files m) (hfit : Fit nb files)
include h hfit

lemma Image.fileOpen_other (hshort : ∀ F ∈ files, F.name.length < maxnamelen) {path : List Nat}
    (hname : NameOk name) (hch : Chars path) (hone : components path = [name]) (hno : ∀ F ∈ files, name ≠ F.name) :
    fileOpen path m = .ok (.error (-eNotFound), m) := by
  rw [(h.allocated hfit).fileOpen_one h.type hch hone hname.short]
  cases hlook : lookup m root name with
  | none => rfl
  | some e =>
    obtain ⟨k, F, hF, heq, -⟩ := h.lookup_root hfit hshort hname hlook
    exact absurd heq.symm (hno F (List.mem_of_getElem? hF))

lemma Image.fileOpen_name (hshort : ∀ F ∈ files, F.name.length < maxnamelen)
    (hnodup : (files.map HostFile.name).Nodup) (hF : files[k]? = some F) : fileOpen (slash :: F.name) m = .ok (.ok (entryAt files k), m) := by
  have hk := (List.getElem?_eq_some_iff.mp hF).1
  have hroot := le_rootBlocks files.length
  have hname : NameOk F.name := ⟨F.base, F.name_chars, hshort F (List.mem_of_getElem? hF)⟩
  have hch : Chars (slash :: F.name) := List.forall_mem_cons.2 ⟨by decide, F.name_chars⟩
  have hentry : entryAt files k ∈ entries m root := by
    refine mem_entries.2 ⟨k / 16, k % 16, ?_, Nat.mod_lt _ (by decide), ?_⟩
    · rw [h.nblocks_root hfit]
      omega
    · rw [h.entry_eq hfit (by omega), Nat.div_add_mod]
  have hsome : (lookup m root F.name).isSome :=
    List.find?_isSome.2 ⟨_, hentry, (h.nameIs_entry hshort hname (by omega)).2 ⟨F, hF, rfl⟩⟩
  obtain ⟨e, hlook⟩ := Option.isSome_iff_exists.1 hsome
  obtain ⟨k', F', hF', heq, rfl⟩ := h.lookup_root hfit hshort hname hlook
  have hsame : (files.map HostFile.name)[k']? = (files.map HostFile.name)[k]? := by
    rw [List.getElem?_map, List.getElem?_map, hF', hF, Option.map_some, Option.map_some, heq]
  have hk' := (List.getElem?_eq_some_iff.mp hF').1
  obtain rfl := (List.getElem?_inj (by rwa [List.length_map]) hnodup).mp hsame
  rw [(h.allocated hfit).fileOpen_one h.type hch (components_name hname F.slash_notMem).2 hname.short, hlook]
  rfl

lemma Image.fileRead (hF : files[k]? = some F) (cached : Nat → Bool) :
    ∃ out, Fs.fileRead cached (1024 * dirStart files + 64 * k) F.data.length 0 m = .ok (F.data.length, out, m) ∧
      out.map Prod.snd = F.data := by
  have hend := startOf_end hF
  have hroom := hfit.room
  have hspan := F.blocks_le_span
  have h3 : 3 ≤ startOf files k := Nat.le_add_right _ _
  refine (h.laid k F hF).fileRead (hfit.sizes F (List.mem_of_getElem? hF)) (by omega) (by rw [h.nblocks]; omega)
    (fun i hi => ?_) cached
  rw [Bool.eq_false_iff, ne_eq, h.free]
  omega

lemma Image.readable_root (hne : files ≠ []) : Readable m root := by
  intro i hi
  have hlen : files.length ≠ 0 := fun h0 => hne (List.eq_nil_of_length_eq_zero h0)
  have hsmall := rootBlocks_le hfit.count
  have hblocks : rootBlocks files.length = dirBlocks files := if_neg hlen
  rw [h.size_root hfit] at hi
  have hi' : i < rootBlocks files.length := by omega
  have hd : i < ndirect := by
    unfold ndirect
    omega
  refine ⟨?_, fun hle => absurd hd (by omega)⟩
  rw [blockAt_direct hd, h.direct i hi', Bool.eq_false_iff, ne_eq, h.free]
  omega

lemma Image.readable_entry (hF : files[k]? = some F) : Readable m (1024 * dirStart files + 64 * k) := by
  intro i hi
  have hend := startOf_end hF
  have hsizes := hfit.sizes F (List.mem_of_getElem? hF)
  rw [(h.laid k F hF).size_eq hsizes] at hi
  have hi' : i < F.blocks := by
    unfold HostFile.blocks
    omega
  have hspan := F.blocks_le_span
  refine ⟨?_, fun hle => ?_⟩
  · rw [(h.laid k F hF).blockAt hsizes hi', Bool.eq_false_iff, ne_eq, h.free]
    omega
  · have hind : ndirect ≤ F.blocks := by omega
    unfold HostFile.span at hend
    rw [if_pos hind] at hend
    rw [(h.laid k F hF).indirect hind, Bool.eq_false_iff, ne_eq, h.free]
    omega

end

end

/-- The server finds in the image every file, with its size and its bytes, and no other name. The image exists
if the blocks fit on the disk; `alloc` keeps the last block back. -/
theorem server_reads_fsformat (nb : Nat) (garbage : Mem) (files : List HostFile) (hne : files ≠ [])
    (hcount : files.length ≤ 128) (hnodup : (files.map HostFile.name).Nodup)
    (hshort : ∀ F ∈ files, F.name.length < maxnamelen) (hsizes : ∀ F ∈ files, F.data.length < maxfilesize) :
    ((∃ m, fsformat nb garbage files = .ok m) ↔ dirStart files + dirBlocks files < nb ∧ nb ≤ 1024) ∧
    ∀ m, fsformat nb garbage files = .ok m → Readable m root ∧
      (∀ F ∈ files, ∃ f, fileOpen (slash :: F.name) m = .ok (.ok f, m) ∧ size m f = F.data.length ∧ Readable m f ∧
        ∀ cached, ∃ out, fileRead cached f F.data.length 0 m = .ok (F.data.length, out, m) ∧ out.map Prod.snd = F.data) ∧
      ∀ name, NameOk name → slash ∉ name → (∀ F ∈ files, name ≠ F.name) →
        fileOpen name m = .ok (.error (-eNotFound), m) ∧ fileOpen (slash :: name) m = .ok (.error (-eNotFound), m) := by
  refine ⟨⟨?_, ?_⟩, ?_⟩
  · rintro ⟨m, hm⟩
    have hfit := (fsformat_ok.mp hm).1
    exact ⟨hfit.room, hfit.disk⟩
  · rintro ⟨hroom, hdisk⟩
    refine ⟨_, fsformat_ok.mpr ⟨⟨hsizes, hcount, fun k F hF => ?_, hroom, hdisk⟩, rfl⟩⟩
    have hk := (List.getElem?_eq_some_iff.mp hF).1
    have hlen : F.name.length < 128 := hshort F (List.mem_of_getElem? hF)
    unfold maxDirEnts
    omega
  · intro m hm
    obtain ⟨hfit, rfl⟩ := fsformat_ok.mp hm
    have himage : Image nb garbage files _ := hfit.image
    refine ⟨himage.readable_root hfit hne, fun F hmem => ?_, fun name hname hslash hno => ?_⟩
    · obtain ⟨k, hF⟩ := List.getElem?_of_mem hmem
      exact ⟨_, himage.fileOpen_name hfit hshort hnodup hF, (himage.laid k F hF).size_eq (hsizes F hmem),
        himage.readable_entry hfit hF, fun cached => himage.fileRead hfit hF cached⟩
    · have hch : Chars (slash :: name) := List.forall_mem_cons.2 ⟨by decide, hname.chars⟩
      obtain ⟨hone, hslashed⟩ := components_name hname hslash
      exact ⟨himage.fileOpen_other hfit hshort hname hname.chars hone hno,
        himage.fileOpen_other hfit hshort hname hch hslashed hno⟩

def smallFile : HostFile := ⟨[slash, 104], [1, 2, 3], by decide, by decide, by decide⟩

theorem server_reads_smallFile : ∃ m, fsformat 6 (fun _ => 7) [smallFile] = .ok m ∧
    ∃ f out, fileOpen [slash, 104] m = .ok (.ok f, m) ∧ fileRead (fun _ => false) f 3 0 m = .ok (3, out, m) ∧
      out.map Prod.snd = [1, 2, 3] := by
  obtain ⟨hsome, hread⟩ := server_reads_fsformat 6 (fun _ => 7) [smallFile] (by decide) (by decide) (by decide) (by decide)
    (by decide)
  obtain ⟨m, hm⟩ := hsome.mpr ⟨by decide, by decide⟩
  obtain ⟨f, hopen, _, _, hbytes⟩ := (hread m hm).2.1 smallFile List.mem_cons_self
  obtain ⟨out, hout⟩ := hbytes fun _ => false
  exact ⟨m, hm, f, out, hopen, hout⟩

end Jos.Fs
