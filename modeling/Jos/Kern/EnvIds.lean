import Jos.Kern.Entries

/-!
# Environment ids

An id is the generation of its slot times 4096 plus the index of the slot. The
generations of a slot run through 1, …, 2^19 - 1 and start again at 1 when the
sign bit would be reached, so an id comes back after 2^19 - 1 allocations of
the slot and not before.
-/

namespace Jos
open LinkedList

/-- Everything that is no `env_alloc` and no `env_free`: ids, links and the free slots stay. -/
structure SameIds (k k' : Kernel) : Prop where
  id : ∀ e, (k'.envs e).envId = (k.envs e).envId
  link : ∀ e, (k'.envs e).envLink = (k.envs e).envLink
  free : ∀ e, (k'.envs e).envStatus = .free ↔ (k.envs e).envStatus = .free
  envFreeList : k'.envFreeList = k.envFreeList

inductive EnvStep (k : Kernel) : List Nat → Kernel → Prop where
  | alloc {k' : Kernel} {e : Nat} (parentId : Nat) (h : envAlloc parentId k = (.ok e, k')) : EnvStep k [e] k'
  | fail {k' : Kernel} {r : Int} (parentId : Nat) (h : envAlloc parentId k = (.error r, k')) : EnvStep k [] k'
  | free {k' : Kernel} (e : Nat) (hlive : Live k e) (h : envFree e k = some k') : EnvStep k [] k'
  | other {k' : Kernel} (h : SameIds k k') : EnvStep k [] k'

inductive EnvRun (k : Kernel) : List Nat → Kernel → Prop where
  | refl : EnvRun k [] k
  | tail {l l' : List Nat} {k1 k2 : Kernel} (h : EnvRun k l k1) (hs : EnvStep k1 l' k2) : EnvRun k (l ++ l') k2

def generations : Nat := 2 ^ 19 - 1

def mkId (g e : Nat) : Nat := 4096 * (g % generations + 1) + e

section
variable {g e : Nat}

lemma mkId_pos : 0 < mkId g e := by
  unfold mkId
  omega

lemma mkId_lt (he : e < nenv) : mkId g e < 2 ^ 31 := by
  unfold mkId generations nenv at *
  have := Nat.mod_lt g (show 0 < 2 ^ 19 - 1 by decide)
  omega

lemma envx_mkId (he : e < nenv) : envx (mkId g e) = e := by
  unfold envx mkId nenv at *
  omega

lemma mkId_inj {g' : Nat} (h : mkId g e = mkId g' e) : g % generations = g' % generations := by
  unfold mkId at h
  omega

lemma generation_or (he : e < nenv) (m : Nat) : 4096 * m ||| e = 4096 * m + e := by
  have h := Nat.two_pow_add_eq_or_of_lt (i := 10) he (4 * m)
  rw [show 4096 * m = 2 ^ 10 * (4 * m) by omega]
  exact h.symm

lemma nextEnvId_zero (he : e < nenv) : nextEnvId 0 e = mkId 0 e := generation_or he 1

/-- The id that `env_alloc` computes is of the next generation, also where the sum reaches the sign bit. -/
theorem nextEnvId_mkId (he : e < nenv) : nextEnvId (mkId g e) e = mkId (g + 1) e := by
  have hg := Nat.mod_lt g (show 0 < generations by decide)
  have hgen : (mkId g e + 4096) % 2 ^ 32 / 1024 * 1024 = 4096 * (g % generations + 2) := by
    unfold mkId nenv generations at *
    omega
  have hsucc : (g + 1) % generations = if g % generations + 1 = generations then 0 else g % generations + 1 := by
    rw [Nat.add_mod]
    split
    · rename_i h
      rw [Nat.mod_eq_of_lt (show 1 < generations by decide), h, Nat.mod_self]
    · rw [Nat.mod_eq_of_lt (show 1 < generations by decide), Nat.mod_eq_of_lt (by omega)]
  simp only [nextEnvId, hgen]
  rw [mkId, hsucc]
  by_cases hlast : g % generations + 1 = generations
  · rw [if_pos (.inr (by unfold generations at *; omega)), if_pos hlast]
    exact generation_or he 1
  · rw [if_neg (by unfold generations at *; omega), if_neg hlast]
    exact generation_or he _

lemma mkId_add_ne {n : Nat} (hpos : 1 ≤ n) (hn : n ≤ 2 ^ 19 - 2) : mkId (g + n) e ≠ mkId g e := by
  intro h
  have hmod := mkId_inj h
  have hg := Nat.mod_lt g (show 0 < generations by decide)
  have hn' : n < generations := by
    unfold generations
    omega
  rw [Nat.add_mod, Nat.mod_eq_of_lt hn'] at hmod
  by_cases hwrap : g % generations + n < generations
  · rw [Nat.mod_eq_of_lt hwrap] at hmod
    omega
  · rw [Nat.mod_eq_sub_mod (by omega), Nat.mod_eq_of_lt (by omega)] at hmod
    omega

end

/-- The ids have the form that `env_alloc` gives them and the free list holds the free slots. -/
structure IdTable (k : Kernel) : Prop where
  ids : ∀ e, e < nenv → ((k.envs e).envId = 0 ∧ (k.envs e).envStatus = .free) ∨ ∃ g, (k.envs e).envId = mkId g e
  chain : ∃ fl, Chain (fun e => (k.envs e).envLink) k.envFreeList fl ∧
    ∀ e, e ∈ fl ↔ e < nenv ∧ (k.envs e).envStatus = .free

section

lemma envInitLoop_table {n : Nat} {k : Kernel} (hn : n ≤ nenv)
    (hids : ∀ e, n ≤ e → e < nenv → (k.envs e).envId = 0 ∧ (k.envs e).envStatus = .free)
    (hchain : Chain (fun e => (k.envs e).envLink) k.envFreeList (List.range' n (nenv - n))) :
    (∀ e, e < nenv → ((envInitLoop n k).envs e).envId = 0 ∧ ((envInitLoop n k).envs e).envStatus = .free) ∧
      Chain (fun e => ((envInitLoop n k).envs e).envLink) (envInitLoop n k).envFreeList
        (List.range' 0 nenv) := by
  induction n generalizing k with
  | zero => exact ⟨fun e => hids e (Nat.zero_le e), hchain⟩
  | succ i ih =>
    apply ih (Nat.le_of_succ_le hn)
    · intro e hle he
      by_cases hei : e = i
      · subst hei
        simp
      · simpa [hei] using hids e (by omega) he
    · have hpush := hchain.push (a := i) (by simp)
      have hlist : List.range' i (nenv - i) = i :: List.range' (i + 1) (nenv - (i + 1)) := by
        rw [← List.range'_succ]
        congr 1
        omega
      rw [hlist]
      refine hpush.congr fun e _ => ?_
      by_cases hei : e = i
      · subst hei
        simp
      · simp [hei]

lemma envInit_slots (k : Kernel) :
    (∀ e, e < nenv → ((envInit k).envs e).envId = 0 ∧ ((envInit k).envs e).envStatus = .free) ∧
      Chain (fun e => ((envInit k).envs e).envLink) (envInit k).envFreeList (List.range' 0 nenv) := by
  unfold envInit
  exact envInitLoop_table (k := { k with envFreeList := none }) le_rfl
    (fun e hle he => absurd hle (by omega)) (by simp [Chain])

lemma envInit_table (k : Kernel) : IdTable (envInit k) := by
  obtain ⟨hids, hchain⟩ := envInit_slots k
  refine ⟨fun e he => .inl (hids e he), _, hchain, fun e => ?_⟩
  have hmem : e ∈ List.range' 0 nenv ↔ e < nenv := by simp
  rw [hmem]
  exact ⟨fun he => ⟨he, (hids e he).2⟩, And.left⟩

end

section
variable {k k' : Kernel} {l : List Nat}

lemma IdTable.alloc (h : IdTable k) {parentId e : Nat} (halloc : envAlloc parentId k = (.ok e, k')) :
    IdTable k' ∧ e < nenv ∧ (k'.envs e).envId = nextEnvId (k.envs e).envId e ∧
      ∀ t, t ≠ e → (k'.envs t).envId = (k.envs t).envId := by
  rcases envAlloc_eq parentId k with ⟨r, vm, heq⟩ | ⟨e', pd, vm, hhead, heq⟩
  · rw [heq] at halloc
    cases halloc
  rw [heq] at halloc
  cases halloc
  obtain ⟨fl, hchain, hmem⟩ := h.chain
  cases fl with
  | nil =>
    rw [show k.envFreeList = none from hchain] at hhead
    cases hhead
  | cons a fl =>
    have ha : a = e := by
      have h1 : k.envFreeList = some a := hchain.1
      rw [hhead] at h1
      exact (Option.some.inj h1).symm
    subst ha
    have hfree := (hmem a).mp List.mem_cons_self
    have hnodup := hchain.nodup
    refine ⟨⟨?_, fl, ?_, ?_⟩, hfree.1, by simp, fun t ht => by simp [ht]⟩
    · intro t ht
      by_cases hta : t = a
      · subst hta
        right
        simp only [Kernel.setEnv, Function.update_self, newEnv]
        rcases h.ids t ht with ⟨h0, -⟩ | ⟨g, hg⟩
        · exact ⟨0, by rw [h0, nextEnvId_zero ht]⟩
        · exact ⟨g + 1, by rw [hg, nextEnvId_mkId ht]⟩
      · simpa [hta] using h.ids t ht
    · refine Chain.congr hchain.2 fun t ht => ?_
      have hta : t ≠ a := fun heq => (List.nodup_cons.mp hnodup).1 (heq ▸ ht)
      simp [hta]
    · intro t
      by_cases hta : t = a
      · subst hta
        simp [(List.nodup_cons.mp hnodup).1]
      · have ht := hmem t
        simp only [List.mem_cons, hta, false_or] at ht
        simpa [hta] using ht

lemma IdTable.free (h : IdTable k) {e : Nat} (hlive : Live k e) (hfree : envFree e k = some k') :
    IdTable k' ∧ ∀ t, (k'.envs t).envId = (k.envs t).envId := by
  obtain ⟨vm, rfl⟩ := envFree_eq hfree
  obtain ⟨fl, hchain, hmem⟩ := h.chain
  have hid : ∀ t, ((k.setEnv e (freedEnv (k.envs e) k.envFreeList)).envs t).envId = (k.envs t).envId := by
    intro t
    by_cases hte : t = e
    · subst hte
      simp
    · simp [hte]
  have he : e ∉ fl := fun hin => hlive.2 ((hmem e).mp hin).2
  refine ⟨⟨?_, e :: fl, ?_, ?_⟩, hid⟩
  · intro t ht
    by_cases hte : t = e
    · subst hte
      right
      rcases h.ids t ht with ⟨-, hst⟩ | ⟨g, hg⟩
      · exact absurd hst hlive.2
      · exact ⟨g, by rw [← hg]; exact hid t⟩
    · simpa [hte] using h.ids t ht
  · refine (hchain.push he).congr fun t _ => ?_
    by_cases hte : t = e
    · subst hte
      simp
    · simp [hte]
  · intro t
    by_cases hte : t = e
    · subst hte
      simp [hlive.1]
    · simpa [hte] using hmem t

lemma IdTable.same (h : IdTable k) (hs : SameIds k k') : IdTable k' := by
  obtain ⟨fl, hchain, hmem⟩ := h.chain
  refine ⟨fun e he => ?_, fl, ?_, fun e => by rw [hs.free]; exact hmem e⟩
  · rw [hs.id, hs.free]
    exact h.ids e he
  · rw [hs.envFreeList]
    exact hchain.congr fun e _ => hs.link e

lemma SameIds.setVm (k : Kernel) (vm : Vm) : SameIds k { k with vm := vm } :=
  ⟨fun _ => rfl, fun _ => rfl, fun _ => Iff.rfl, rfl⟩

lemma EnvStep.table (hs : EnvStep k l k') (h : IdTable k) : IdTable k' ∧
    ∀ e g, e < nenv → (k.envs e).envId = mkId g e → (k'.envs e).envId = mkId (g + l.count e) e := by
  cases hs with
  | @alloc _ t parentId halloc =>
    obtain ⟨htable, -, hid, hothers⟩ := h.alloc halloc
    refine ⟨htable, fun e g he hg => ?_⟩
    by_cases het : t = e
    · subst het
      rw [hid, hg, nextEnvId_mkId he]
      simp
    · rw [hothers e (Ne.symm het), hg]
      simp [het]
  | fail parentId hfail =>
    rcases envAlloc_eq parentId k with ⟨r, vm, heq⟩ | ⟨t, pd, vm, -, heq⟩
    · rw [heq] at hfail
      cases hfail
      exact ⟨h.same (.setVm k vm), fun e g _ hg => hg⟩
    · rw [heq] at hfail
      cases hfail
  | free t hlive hfree =>
    obtain ⟨htable, hid⟩ := h.free hlive hfree
    exact ⟨htable, fun e g _ hg => (hid e).trans hg⟩
  | other hsame => exact ⟨h.same hsame, fun e g _ hg => (hsame.id e).trans hg⟩

lemma EnvRun.table (hr : EnvRun k l k') (h : IdTable k) : IdTable k' ∧
    ∀ e g, e < nenv → (k.envs e).envId = mkId g e → (k'.envs e).envId = mkId (g + l.count e) e := by
  induction hr with
  | refl => exact ⟨h, fun _ _ _ hg => hg⟩
  | tail _ hs ih =>
    obtain ⟨htable, hid⟩ := ih
    obtain ⟨htable', hid'⟩ := hs.table htable
    refine ⟨htable', fun e g he hg => ?_⟩
    rw [hid' e _ he (hid e g he hg), List.count_append, add_assoc]

end

structure IdsRight (k : Kernel) : Prop where
  positive : ∀ e, Live k e → 0 < (k.envs e).envId ∧ (k.envs e).envId < 2 ^ 31
  index : ∀ e, Live k e → envx (k.envs e).envId = e
  distinct : ∀ e e', Live k e → Live k e' → (k.envs e).envId = (k.envs e').envId → e = e'
  free : ∃ fl, Chain (fun e => (k.envs e).envLink) k.envFreeList fl ∧ fl.Nodup ∧
    ∀ e, e ∈ fl ↔ e < nenv ∧ (k.envs e).envStatus = .free
  found : ∀ cur id, id ≠ 0 →
    ((∃ e, envid2env cur id false k = some e) ↔ ∃ e, Live k e ∧ (k.envs e).envId = id)

section
variable {k : Kernel}

lemma IdTable.live (h : IdTable k) {e : Nat} (he : Live k e) : ∃ g, (k.envs e).envId = mkId g e :=
  (h.ids e he.1).resolve_left fun h0 => he.2 h0.2

lemma envid2env_found {cur id e : Nat} (hid : id ≠ 0) (h : envid2env cur id false k = some e) :
    e = envx id ∧ Live k e ∧ (k.envs e).envId = id := by
  rcases envid2env_cases h with ⟨h0, -⟩ | ⟨rfl, hst, heq, -⟩
  · exact absurd h0 hid
  · exact ⟨rfl, ⟨Nat.mod_lt _ (by decide), hst⟩, heq⟩

lemma IdTable.right (h : IdTable k) : IdsRight k := by
  have hindex : ∀ e, Live k e → envx (k.envs e).envId = e := by
    intro e he
    obtain ⟨g, hg⟩ := h.live he
    rw [hg, envx_mkId he.1]
  refine ⟨?_, hindex, ?_, ?_, ?_⟩
  · intro e he
    obtain ⟨g, hg⟩ := h.live he
    rw [hg]
    exact ⟨mkId_pos, mkId_lt he.1⟩
  · intro e e' he he' heq
    rw [← hindex e he, heq, hindex e' he']
  · obtain ⟨fl, hchain, hmem⟩ := h.chain
    exact ⟨fl, hchain, hchain.nodup, hmem⟩
  · intro cur id hid
    constructor
    · rintro ⟨e, he⟩
      exact ⟨e, (envid2env_found hid he).2⟩
    · rintro ⟨e, hlive, rfl⟩
      have hx := hindex e hlive
      refine ⟨e, ?_⟩
      simp only [envid2env, if_neg hid, hx]
      rw [if_neg (by simp [hlive.2])]
      simp

end

/-- In every state reached from `env_init` the ids are right, and an id given to a slot is neither given
to it again nor accepted by `envid2env` during the next 2^19 - 2 allocations of the slot. -/
theorem env_ids {k0 k : Kernel} {l : List Nat} (h : EnvRun (envInit k0) l k) : IdsRight k ∧
    ∀ e, e < nenv → (k.envs e).envId ≠ 0 → ∀ l' k', EnvRun k l' k' → l'.count e ≤ 2 ^ 19 - 2 →
      (1 ≤ l'.count e → (k'.envs e).envId ≠ (k.envs e).envId) ∧
      (1 ≤ l'.count e ∨ ¬ Live k' e → ∀ cur, envid2env cur (k.envs e).envId false k' = none) := by
  have htable := (h.table (envInit_table k0)).1
  refine ⟨htable.right, fun e he hid l' k' hrun hcount => ?_⟩
  obtain ⟨g, hg⟩ := (htable.ids e he).resolve_left fun h0 => hid h0.1
  have hid' := (hrun.table htable).2 e g he hg
  have hne : 1 ≤ l'.count e → (k'.envs e).envId ≠ (k.envs e).envId := by
    intro hpos
    rw [hid', hg]
    exact mkId_add_ne hpos hcount
  refine ⟨hne, fun hstale cur => ?_⟩
  cases hfound : envid2env cur (k.envs e).envId false k' with
  | none => rfl
  | some t =>
    obtain ⟨hx, hlive, heq⟩ := envid2env_found hid hfound
    rw [hg, envx_mkId he] at hx
    subst hx
    rcases hstale with hpos | hdead
    · exact absurd heq (hne hpos)
    · exact absurd hlive hdead

/-- Slot 0 is allocated, freed and allocated again: its first id is rejected. -/
theorem env_ids_stale : ∃ k k1 k2 : Kernel, EnvRun (envInit smallKernel) [0] k ∧ EnvRun k [0] k2 ∧
    envFree 0 k = some k1 ∧ (k.envs 0).envId = 4096 ∧ (k2.envs 0).envId = 8192 ∧
    envid2env 5 4096 false k1 = none ∧ envid2env 5 4096 false k2 = none := by
  have htest : ((envAlloc 0 (envInit smallKernel)).1.toOption == some 0 &&
      ((envAlloc 0 (envInit smallKernel)).2.envs 0).envId == 4096 &&
      ((envAlloc 0 (envInit smallKernel)).2.envs 0).envStatus == .runnable &&
      (envFree 0 (envAlloc 0 (envInit smallKernel)).2).any fun k1 => (k1.envs 0).envStatus == .free &&
        (envAlloc 0 k1).1.toOption == some 0 && ((envAlloc 0 k1).2.envs 0).envId == 8192) = true := by decide +kernel
  simp only [Bool.and_eq_true, beq_iff_eq, Option.any_eq_true] at htest
  obtain ⟨⟨⟨hzero, hid⟩, hst⟩, k1, hfree, ⟨hst1, hzero2⟩, hid2⟩ := htest
  rcases halloc : envAlloc 0 (envInit smallKernel) with ⟨_ | e, k⟩
  · simp [halloc, Except.toOption] at hzero
  rcases halloc2 : envAlloc 0 k1 with ⟨_ | e', k2⟩
  · simp [halloc2, Except.toOption] at hzero2
  rw [halloc] at hzero hid hst hfree
  rw [halloc2] at hzero2 hid2
  obtain rfl := Option.some.inj hzero
  obtain rfl := Option.some.inj hzero2
  have hrun : EnvRun (envInit smallKernel) [0] k := .tail .refl (.alloc 0 halloc)
  have hlive : Live k 0 := ⟨by decide, by rw [hst]; decide⟩
  have hrun1 : EnvRun k [] k1 := .tail .refl (.free 0 hlive hfree)
  have hrun2 : EnvRun k [0] k2 := hrun1.tail (.alloc 0 halloc2)
  have hstale := (env_ids hrun).2 0 (by decide) (by rw [hid]; decide)
  refine ⟨k, k1, k2, hrun, hrun2, hfree, hid, hid2, ?_, ?_⟩
  · rw [← hid]
    exact (hstale [] k1 hrun1 (by decide)).2 (.inr fun hl => hl.2 hst1) 5
  · rw [← hid]
    exact (hstale [0] k2 hrun2 (by decide)).2 (.inl (by decide)) 5

end Jos
