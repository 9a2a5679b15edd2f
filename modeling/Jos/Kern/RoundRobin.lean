import Jos.Kern.Boot

/-!
# Round robin

`sched_yield` against the order it is meant to follow: every slot but `curenv` once,
from the one after `curenv` on. The loop makes `NENV - 1` turns, which leaves out the
last slot when there is no `curenv`, and it starts behind the end of `envs[]` when
`curenv` is the last slot.
-/

namespace Jos

def turns (n idle : Nat) : List Nat := (List.range n).map fun i => (idle + i) % nenv

def order : Option Nat → List Nat
  | none => turns nenv 0
  | some c => turns (nenv - 1) (c + 1)

def isRunnable (k : Kernel) (e : Nat) : Bool := (k.envs e).envStatus == .runnable

/-- What `sched_yield` is meant to do. -/
def roundRobin (cpu : Nat) (k : Kernel) : Exit :=
  match (order (k.curenv cpu)).find? (isRunnable k) with
  | some e => envRun cpu e k
  | none =>
    match k.curenv cpu with
    | none => schedHalt cpu k
    | some c => if (k.envs c).envStatus = .running then envRun cpu c k else schedHalt cpu k

lemma turns_succ (n idle : Nat) : turns (n + 1) idle = idle % nenv :: turns n (idle + 1) := by
  unfold turns
  rw [List.range_succ_eq_map, List.map_cons, List.map_map]
  refine congrArg _ (List.map_congr_left fun i _ => ?_)
  simp only [Function.comp_apply, Nat.succ_eq_add_one, add_comm i 1, add_assoc]

lemma turns_mod (n idle : Nat) : turns n (idle % nenv) = turns n idle :=
  List.map_congr_left fun i _ => Nat.mod_add_mod idle nenv i

lemma mem_turns {n idle e : Nat} : e ∈ turns n idle ↔ ∃ i, i < n ∧ (idle + i) % nenv = e := by
  simp only [turns, List.mem_map, List.mem_range]

lemma schedScan_eq (k : Kernel) (n : Nat) {idle : Nat} (h : idle < nenv) : schedScan k n idle =
    match (turns n idle).find? (isRunnable k) with
    | some e => .found e
    | none => .none ((idle + n) % nenv) := by
  induction n generalizing idle with
  | zero => rw [add_zero, Nat.mod_eq_of_lt h]; rfl
  | succ n ih =>
    have hnext : (if idle = nenv - 1 then 0 else idle + 1) = (idle + 1) % nenv := by
      unfold nenv at h ⊢
      split <;> omega
    rw [schedScan, if_neg (Nat.not_le.mpr h), turns_succ, Nat.mod_eq_of_lt h, List.find?_cons]
    by_cases hrun : (k.envs idle).envStatus = .runnable
    · have htrue : isRunnable k idle := beq_iff_eq.mpr hrun
      simp only [if_pos hrun, htrue]
    · have hfalse : isRunnable k idle = false := beq_eq_false_iff_ne.mpr hrun
      simp only [if_neg hrun, hfalse, hnext]
      rw [ih (Nat.mod_lt _ (by decide)), turns_mod, Nat.mod_add_mod, Nat.add_right_comm]
      rfl

lemma envRun_cases (cpu e : Nat) (k : Kernel) : envRun cpu e k = .panic ∨ ∃ k', envRun cpu e k = .user k' := by
  unfold envRun
  dsimp only
  split
  · exact .inl rfl
  · exact .inr ⟨_, rfl⟩

lemma schedHalt_cases (cpu : Nat) (k : Kernel) : schedHalt cpu k = .monitor k ∨ ∃ k', schedHalt cpu k = .halt k' := by
  unfold schedHalt
  split
  · exact .inl rfl
  · exact .inr ⟨_, rfl⟩

lemma envRun_ne_schedHalt (cpu e : Nat) (k : Kernel) : envRun cpu e k ≠ schedHalt cpu k := by
  rcases envRun_cases cpu e k with h | ⟨k', h⟩ <;> rcases schedHalt_cases cpu k with h' | ⟨k'', h'⟩ <;>
    rw [h, h'] <;> exact nofun

lemma roundRobin_ne_wild (cpu : Nat) (k : Kernel) : roundRobin cpu k ≠ .wild := by
  have hrun : ∀ e, envRun cpu e k ≠ .wild := by
    intro e
    rcases envRun_cases cpu e k with h | ⟨k', h⟩ <;> rw [h] <;> exact nofun
  have hhalt : schedHalt cpu k ≠ .wild := by
    rcases schedHalt_cases cpu k with h | ⟨k', h⟩ <;> rw [h] <;> exact nofun
  unfold roundRobin
  split
  · exact hrun _
  split
  · exact hhalt
  · split
    · exact hrun _
    · exact hhalt

section
variable {cpu : Nat} {k : Kernel}

lemma schedYield_last (h : k.curenv cpu = some (nenv - 1)) : schedYield cpu k = .wild := by
  simp only [schedYield, h]
  rfl

lemma schedYield_some {c : Nat} (h : k.curenv cpu = some c) (hc : c < nenv - 1) :
    schedYield cpu k = roundRobin cpu k := by
  have hback : (c + 1 + (nenv - 1)) % nenv = c := by
    unfold nenv at hc ⊢
    omega
  simp only [schedYield, roundRobin, h, order]
  rw [schedScan_eq k (nenv - 1) (show c + 1 < nenv by unfold nenv at hc ⊢; omega), hback]
  cases (turns (nenv - 1) (c + 1)).find? (isRunnable k) with
  | some e => rfl
  | none => simp only [true_and]

lemma turns_all : turns nenv 0 = turns (nenv - 1) 0 ++ [nenv - 1] := by
  unfold turns
  rw [show nenv = nenv - 1 + 1 from rfl, List.range_succ, List.map_append]
  rfl

lemma schedYield_none (h : k.curenv cpu = none) : schedYield cpu k =
    match (turns (nenv - 1) 0).find? (isRunnable k) with
    | some e => envRun cpu e k
    | none => schedHalt cpu k := by
  simp only [schedYield, h]
  rw [schedScan_eq k (nenv - 1) (show 0 < nenv by decide)]
  cases (turns (nenv - 1) 0).find? (isRunnable k) with
  | some e => rfl
  | none => simp only [reduceCtorEq, false_and, if_false]

lemma schedYield_idle_ne_wild (h : k.curenv cpu = none) : schedYield cpu k ≠ .wild := by
  rw [schedYield_none h]
  split
  · rename_i e _
    rcases envRun_cases cpu e k with hx | ⟨k', hx⟩ <;> rw [hx] <;> intro heq <;> cases heq
  · rcases schedHalt_cases cpu k with hx | ⟨k', hx⟩ <;> rw [hx] <;> intro heq <;> cases heq

lemma roundRobin_none (h : k.curenv cpu = none) : roundRobin cpu k =
    match (turns (nenv - 1) 0).find? (isRunnable k) with
    | some e => envRun cpu e k
    | none => if isRunnable k (nenv - 1) then envRun cpu (nenv - 1) k else schedHalt cpu k := by
  simp only [roundRobin, h, order]
  rw [turns_all, List.find?_append]
  cases (turns (nenv - 1) 0).find? (isRunnable k) with
  | some e => rfl
  | none =>
    rw [Option.none_or, List.find?_cons]
    cases isRunnable k (nenv - 1) <;> rfl

def OnlyLast (k : Kernel) (cpu : Nat) : Prop :=
  k.curenv cpu = none ∧ (k.envs (nenv - 1)).envStatus = .runnable ∧
    ∀ e, e < nenv - 1 → (k.envs e).envStatus ≠ .runnable

lemma onlyLast_iff (h : k.curenv cpu = none) :
    OnlyLast k cpu ↔ isRunnable k (nenv - 1) ∧ (turns (nenv - 1) 0).find? (isRunnable k) = none := by
  have hmem : ∀ e, e ∈ turns (nenv - 1) 0 ↔ e < nenv - 1 := by
    intro e
    rw [mem_turns]
    constructor
    · rintro ⟨i, hi, rfl⟩
      rw [zero_add, Nat.mod_eq_of_lt (lt_of_lt_of_le hi (Nat.sub_le _ _))]
      exact hi
    · intro he
      exact ⟨e, he, by rw [zero_add, Nat.mod_eq_of_lt (lt_of_lt_of_le he (Nat.sub_le _ _))]⟩
  simp only [OnlyLast, h, true_and, List.find?_eq_none, hmem, isRunnable, beq_iff_eq]

/-- `sched_yield` keeps the order unless `curenv` is the last slot, or there is none and
only the last slot can run. -/
theorem schedYield_round_robin_iff (hcur : ∀ c, k.curenv cpu = some c → c < nenv) :
    schedYield cpu k = roundRobin cpu k ↔ k.curenv cpu ≠ some (nenv - 1) ∧ ¬ OnlyLast k cpu := by
  cases h : k.curenv cpu with
  | some c =>
    have hnone : ¬ OnlyLast k cpu := fun hlast => nomatch h.symm.trans hlast.1
    rcases lt_or_ge c (nenv - 1) with hc | hc
    · have hne : some c ≠ some (nenv - 1) := fun heq => ne_of_lt hc (Option.some.inj heq)
      exact iff_of_true (schedYield_some h hc) ⟨hne, hnone⟩
    · have heq : c = nenv - 1 := by
        have := hcur c h
        unfold nenv at *
        omega
      rw [heq] at h ⊢
      refine iff_of_false (fun hsame => ?_) fun hne => hne.1 rfl
      exact roundRobin_ne_wild cpu k (hsame.symm.trans (schedYield_last h))
  | none =>
    rw [schedYield_none h, roundRobin_none h, onlyLast_iff h]
    simp only [ne_eq, reduceCtorEq, not_false_eq_true, true_and, not_and]
    cases (turns (nenv - 1) 0).find? (isRunnable k) with
    | some e => exact iff_of_true rfl fun _ => nofun
    | none =>
      cases isRunnable k (nenv - 1) with
      | false => exact iff_of_true rfl nofun
      | true => exact iff_of_false (envRun_ne_schedHalt cpu _ k).symm fun hne => hne rfl rfl

end

/-- `curenv` is slot 5, and what can run is in slots 2 and 3, behind the end of `envs[]`. -/
def wrapKernel : Kernel :=
  ((((smallKernel.setStatus 2 .runnable).setStatus 3 .runnable).setStatus 5 .running).setCurenv 0 (some 5))

theorem schedYield_small : wrapKernel.curenv 0 = some 5 ∧ schedYield 0 wrapKernel = roundRobin 0 wrapKernel ∧
    (order (some 5)).find? (isRunnable wrapKernel) = some 2 := by
  have hcur : wrapKernel.curenv 0 = some 5 := rfl
  refine ⟨hcur, (schedYield_round_robin_iff fun c hc => ?_).mpr ⟨?_, fun h => ?_⟩, ?_⟩
  · cases hcur.symm.trans hc
    decide
  · rw [hcur]
    decide
  · cases hcur.symm.trans h.1
  · decide +kernel

lemma smallKernel_onlyLast : OnlyLast (smallKernel.setStatus (nenv - 1) .runnable) 0 := by
  refine ⟨rfl, rfl, fun e he => ?_⟩
  simp only [Kernel.setStatus, Kernel.setEnv, Function.update_of_ne (ne_of_lt he)]
  intro h
  cases h

/-- The last environment yields into memory behind `envs[]`; on an idle CPU it is never chosen. -/
theorem last_slot_skipped : (∃ k, k.curenv 0 = some (nenv - 1) ∧ schedYield 0 k = .wild) ∧
    ∃ k, k.curenv 0 = none ∧ (k.envs (nenv - 1)).envStatus = .runnable ∧ schedYield 0 k = schedHalt 0 k ∧
      schedYield 0 k ≠ roundRobin 0 k := by
  obtain ⟨hrun, hnone⟩ := (onlyLast_iff rfl).mp smallKernel_onlyLast
  have hhalt : schedYield 0 (smallKernel.setStatus (nenv - 1) .runnable) =
      schedHalt 0 (smallKernel.setStatus (nenv - 1) .runnable) := by
    rw [schedYield_none rfl, hnone]
  refine ⟨⟨smallKernel.setCurenv 0 (some (nenv - 1)), rfl, schedYield_last rfl⟩,
    smallKernel.setStatus (nenv - 1) .runnable, rfl, rfl, hhalt, ?_⟩
  rw [hhalt, roundRobin_none rfl, hnone, hrun]
  dsimp only
  rw [if_pos rfl]
  exact (envRun_ne_schedHalt 0 _ _).symm

/-- How far the slot `e` is behind `c` in circular order. -/
def gap (c e : Nat) : Nat := (e + nenv - c) % nenv

/-- `n` decisions of `cpu` that passed over `e`, which could run at each of them, from a state with
`curenv` `c₀` on. Between two decisions anything may happen but a change of `curenv`. -/
inductive Passed (cpu e : Nat) (c₀ : Option Nat) : Nat → Kernel → Prop where
  | start {k : Kernel} (hcur : k.curenv cpu = c₀) (hc : ∀ c, c₀ = some c → c < nenv) : Passed cpu e c₀ 0 k
  | yield {n : Nat} {k k1 k' : Kernel} (h : Passed cpu e c₀ n k) (hwait : k.curenv cpu ≠ some e)
      (hrun : isRunnable k e) (hyield : schedYield cpu k = .user k1) (hcur : k'.curenv cpu = k1.curenv cpu) :
      Passed cpu e c₀ (n + 1) k'

section
variable {cpu c e n : Nat} {k k1 : Kernel}

lemma envRun_curenv (h : envRun cpu e k = .user k1) : k1.curenv cpu = some e := by
  unfold envRun at h
  dsimp only at h
  split at h
  · cases h
  · cases h
    simp [Kernel.curenv]

/-- A decision brings `cpu` closer to every environment that can run. -/
theorem schedYield_gap (hcur : k.curenv cpu = some c) (hc : c < nenv) (he : e < nenv) (hne : c ≠ e)
    (hrun : isRunnable k e) (hyield : schedYield cpu k = .user k1) :
    ∃ c', k1.curenv cpu = some c' ∧ c' < nenv ∧ gap c' e < gap c e := by
  have hlast : c < nenv - 1 := by
    by_contra hge
    obtain rfl : c = nenv - 1 := by omega
    rw [schedYield_last hcur] at hyield
    cases hyield
  obtain ⟨j, hj, hje⟩ : ∃ j, j < nenv - 1 ∧ (c + 1 + j) % nenv = e :=
    ⟨(e + nenv - (c + 1)) % nenv, by unfold nenv at *; omega, by unfold nenv at *; omega⟩
  rw [schedYield_some hcur hlast] at hyield
  simp only [roundRobin, hcur, order] at hyield
  cases hfind : (turns (nenv - 1) (c + 1)).find? (isRunnable k) with
  | none => exact absurd hrun (List.find?_eq_none.mp hfind e (mem_turns.mpr ⟨j, hj, hje⟩))
  | some c' =>
    rw [hfind] at hyield
    obtain ⟨-, i, hi, hc', hbefore⟩ := List.find?_eq_some_iff_getElem.mp hfind
    simp only [turns, List.length_map, List.length_range, List.getElem_map, List.getElem_range] at hi hc' hbefore
    refine ⟨c', envRun_curenv hyield, hc' ▸ Nat.mod_lt _ (by decide), ?_⟩
    -- the slots before `c'` cannot run, so `e` is not one of them
    have hle : i ≤ j := not_lt.mp fun hlt => by simpa [hje, hrun] using hbefore j hlt
    unfold gap nenv at *
    omega

lemma schedYield_idle (hcur : k.curenv cpu = none) (hyield : schedYield cpu k = .user k1) :
    ∃ c, k1.curenv cpu = some c ∧ c < nenv := by
  rw [schedYield_none hcur] at hyield
  cases hfind : (turns (nenv - 1) 0).find? (isRunnable k) with
  | none =>
    rw [hfind] at hyield
    rcases schedHalt_cases cpu k with h | ⟨k', h⟩ <;> cases h.symm.trans hyield
  | some c =>
    rw [hfind] at hyield
    obtain ⟨i, -, rfl⟩ := mem_turns.mp (List.mem_of_find?_eq_some hfind)
    exact ⟨_, envRun_curenv hyield, Nat.mod_lt _ (by decide)⟩

/-- Every decision but the first of an idle CPU makes the gap smaller. -/
lemma Passed.gap {c₀ : Option Nat} (h : Passed cpu e c₀ n k) (he : e < nenv) :
    (n = 0 ∧ k.curenv cpu = none ∧ c₀ = none) ∨
    ∃ c, k.curenv cpu = some c ∧ c < nenv ∧ n + Jos.gap c e < nenv + if c₀ = none then 1 else 0 := by
  have hgap : ∀ c, Jos.gap c e < nenv := fun c => Nat.mod_lt _ (by decide)
  induction h with
  | start hcur hc =>
    cases c₀ with
    | none => exact .inl ⟨rfl, hcur, rfl⟩
    | some c => exact .inr ⟨c, hcur, hc c rfl, by simpa using hgap c⟩
  | yield _ hwait hrun hyield hcur' ih =>
    refine .inr ?_
    rcases ih with ⟨rfl, hnone, rfl⟩ | ⟨c, hcur, hc, hn⟩
    · obtain ⟨c, hc1, hlt⟩ := schedYield_idle hnone hyield
      exact ⟨c, hcur'.trans hc1, hlt, by have := hgap c; rw [if_pos rfl]; omega⟩
    · obtain ⟨c', hc1, hlt, hless⟩ := schedYield_gap hcur hc he (fun h => hwait (h ▸ hcur)) hrun hyield
      exact ⟨c', hcur'.trans hc1, hlt, by omega⟩

end

/-- An environment that can run is passed over by less than `NENV` decisions in a row, and by less
than `NENV - 1` if the CPU has not been idle before the first. -/
theorem passed_bounded {cpu e n : Nat} {c₀ : Option Nat} {k : Kernel} (he : e < nenv) (h : Passed cpu e c₀ n k)
    (hwait : k.curenv cpu ≠ some e) : n < nenv ∧ (c₀ ≠ none → n < nenv - 1) := by
  rcases h.gap he with ⟨rfl, -, -⟩ | ⟨c, hcur, hc, hn⟩
  · exact ⟨by decide, fun _ => by decide⟩
  have hne : c ≠ e := fun h => hwait (h ▸ hcur)
  have hpos : 0 < Jos.gap c e := by
    unfold gap nenv at *
    omega
  split at hn
  · rename_i hidle
    exact ⟨by omega, fun h => absurd hidle h⟩
  · exact ⟨by omega, fun _ => by omega⟩

theorem passed_bounded_small : ∃ k, Passed 0 2 none 2 k ∧ 2 < nenv := by
  let k : Kernel := ⟨smallVm, fun _ => { blankEnv none with envStatus := .runnable, envPgdir := some 1 }, none,
    fun _ => ⟨.started, none⟩, 16, fun _ => false⟩
  have h1 : Passed 0 2 none 1 (k.setCurenv 0 (some 0)) :=
    .yield (.start (k := k) rfl fun _ h => by cases h) (fun h => by cases h) rfl rfl rfl
  have h : Passed 0 2 none 2 (k.setCurenv 0 (some 1)) := .yield h1 (fun h => by cases h) rfl rfl rfl
  exact ⟨_, h, (passed_bounded (by decide) h fun h => by cases h).1⟩

end Jos
