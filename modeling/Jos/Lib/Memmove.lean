import Jos.Base.CInt

/-!
# Word-wise and byte-wise memory routines

`memset` and `memmove` of `lib/string.c`: the versions that use the string
instructions, and the portable ones under `#else`. Registers hold addresses modulo `2^32`.
-/

namespace Jos.Memmove
open CInt Function

variable {d n s size v : Nat}

/-- The bytes from `s` on go to `d`, all read before the first is written. -/
def moved (m : Nat → Nat) (d s n : Nat) : Nat → Nat := fun x => if d ≤ x ∧ x < d + n then m (s + (x - d)) else m x

/-- An address register moved by a unit of `size` bytes. -/
def step (down : Bool) (size a : Nat) : Nat := toU32 (if down then (a : Int) - size else (a : Int) + size)

/-- `rep movs` with `c` units of `size` bytes left; `down` is the direction flag that `std` sets. -/
def repMovs (size : Nat) (down : Bool) : Nat → Nat → Nat → (Nat → Nat) → Nat → Nat
  | 0, _, _, m => m
  | c + 1, d, s, m => repMovs size down c (step down size d) (step down size s) (moved m d s size)

/-- `cld; rep stos`: the bytes of `eax`, the lowest first. -/
def repStos (size eax : Nat) : Nat → Nat → (Nat → Nat) → Nat → Nat
  | 0, _, m => m
  | c + 1, d, m =>
    repStos size eax c (step false size d) fun x => if d ≤ x ∧ x < d + size then eax / 256 ^ (x - d) % 256 else m x

def memsetAsm (v c n : Nat) (m : Nat → Nat) : Nat → Nat :=
  if n = 0 then m
  else if v % 4 = 0 ∧ n % 4 = 0 then
    let c := c &&& 0xff
    repStos 4 (c <<< 24 ||| c <<< 16 ||| c <<< 8 ||| c) (n / 4) v m
  else repStos 1 c n v m

def memmoveAsm (dst src n : Nat) (m : Nat → Nat) : Nat → Nat :=
  if src < dst ∧ dst < (src + n) % 2 ^ 32 then
    let s := (src + n) % 2 ^ 32
    let d := (dst + n) % 2 ^ 32
    if s % 4 = 0 ∧ d % 4 = 0 ∧ n % 4 = 0 then
      repMovs 4 true (n / 4) (step true 4 d) (step true 4 s) m
    else repMovs 1 true n (step true 1 d) (step true 1 s) m
  else if src % 4 = 0 ∧ dst % 4 = 0 ∧ n % 4 = 0 then repMovs 4 false (n / 4) dst src m
  else repMovs 1 false n dst src m

/-- `while (--m >= 0) *p++ = c;` -/
def setLoop (c : Nat) : Nat → Nat → (Nat → Nat) → Nat → Nat
  | 0, _, m => m
  | n + 1, p, m => setLoop c n (step false 1 p) (update m p (c % 256))

def memset (v c n : Nat) (m : Nat → Nat) : Nat → Nat := setLoop c (toI32 n).toNat v m

/-- `while (n-- > 0) *--d = *--s;` -/
def copyDown : Nat → Nat → Nat → (Nat → Nat) → Nat → Nat
  | 0, _, _, m => m
  | n + 1, d, s, m => copyDown n (step true 1 d) (step true 1 s) (update m (step true 1 d) (m (step true 1 s)))

/-- `while (n-- > 0) *d++ = *s++;` -/
def copyUp : Nat → Nat → Nat → (Nat → Nat) → Nat → Nat
  | 0, _, _, m => m
  | n + 1, d, s, m => copyUp n (step false 1 d) (step false 1 s) (update m d (m s))

def memmove (dst src n : Nat) (m : Nat → Nat) : Nat → Nat :=
  if src < dst ∧ dst < (src + n) % 2 ^ 32 then copyDown n ((dst + n) % 2 ^ 32) ((src + n) % 2 ^ 32) m
  else copyUp n dst src m

lemma step_up {a : Nat} (h : a + size < 2 ^ 32) : step false size a = a + size := by
  have := toU32_cast ((a : Int) + size)
  simp only [step, Bool.false_eq_true, if_false]
  omega

lemma step_down {size a : Nat} (h : size ≤ a) (ha : a ≤ 2 ^ 32) (hpos : 0 < size) :
    step true size (a % 2 ^ 32) = a - size := by
  have := toU32_cast ((a % 2 ^ 32 : Nat) - (size : Int))
  simp only [step, if_true]
  omega

lemma moved_one (m : Nat → Nat) (d s : Nat) : moved m d s 1 = update m d (m s) := by
  funext x
  by_cases h : x = d
  · subst h
    rw [update_self, moved, if_pos (by omega), Nat.sub_self, add_zero]
  · rw [update_of_ne h, moved, if_neg (by omega)]

/-- One unit after the other is one move, if the units still to be read are not written. -/
theorem moved_moved {m : Nat → Nat} {d' s' k : Nat} (hd : d' = d + k ∧ s' = s + k ∨ d = d' + n ∧ s = s' + n)
    (h : ∀ i < n, ¬ (d ≤ s' + i ∧ s' + i < d + k)) :
    moved (moved m d s k) d' s' n = moved m (min d d') (min s s') (k + n) := by
  funext x
  unfold moved
  by_cases hx : d' ≤ x ∧ x < d' + n
  · have := h (x - d') (by omega)
    rw [if_pos hx, if_neg this, if_pos (by omega)]
    congr 1
    omega
  · rw [if_neg hx]
    refine if_ctx_congr (by omega) (fun hin => ?_) fun _ => rfl
    congr 1
    omega

lemma moved_zero (m : Nat → Nat) (d s : Nat) : moved m d s 0 = m := by
  funext x
  exact if_neg (by omega)

lemma repMovs_up (hsize : 0 < size) (c : Nat) (m : Nat → Nat) (hd : d + size * c ≤ 2 ^ 32)
    (hs : s + size * c ≤ 2 ^ 32) (h : d ≤ s ∨ s + size * c ≤ d) :
    repMovs size false c d s m = moved m d s (size * c) := by
  induction c generalizing d s m with
  | zero => exact (moved_zero m d s).symm
  | succ c ih =>
    rw [Nat.mul_succ] at *
    rw [repMovs]
    rcases Nat.eq_zero_or_pos c with rfl | hc
    · rw [repMovs, mul_zero, zero_add]
    · have hle := Nat.le_mul_of_pos_right size hc
      rw [step_up (by omega), step_up (by omega), ih _ (by omega) (by omega) (by omega), moved_moved (.inl ⟨rfl, rfl⟩) (by omega), min_eq_left (by omega), min_eq_left (by omega), add_comm]

lemma repMovs_down (hsize : 0 < size) (c : Nat) (m : Nat → Nat) (hd : d + size * c < 2 ^ 32) (h : s ≤ d) :
    repMovs size true (c + 1) (d + size * c) (s + size * c) m = moved m d s (size * (c + 1)) := by
  induction c generalizing m with
  | zero => rw [repMovs, repMovs, mul_zero, add_zero, add_zero, Nat.mul_succ, mul_zero, zero_add]
  | succ c ih =>
    rw [repMovs]
    rw [Nat.mul_succ] at hd
    have hnext : ∀ a, a ≤ d → step true size (a + size * (c + 1)) = a + size * c := by
      intro a ha
      have hstep := @step_down size (a + size * c + size) (by omega) (by omega) hsize
      rw [Nat.mod_eq_of_lt (by omega)] at hstep
      rw [Nat.mul_succ, ← add_assoc, hstep, Nat.add_sub_cancel]
    rw [hnext d (Nat.le_refl d), hnext s h, ih _ (by omega), moved_moved (.inr ⟨rfl, rfl⟩) (by omega), min_eq_right (by omega),
      min_eq_right (by omega), Nat.mul_succ size (c + 1), add_comm]

lemma copyUp_eq (n d s : Nat) (m : Nat → Nat) : copyUp n d s m = repMovs 1 false n d s m := by
  induction n generalizing d s m with
  | zero => rfl
  | succ n ih => rw [copyUp, repMovs, ih, moved_one]

lemma copyDown_eq (n d s : Nat) (m : Nat → Nat) :
    copyDown n d s m = repMovs 1 true n (step true 1 d) (step true 1 s) m := by
  induction n generalizing d s m with
  | zero => rfl
  | succ n ih => rw [copyDown, repMovs, ih, moved_one]

lemma memmove_moves {dst src : Nat} (m : Nat → Nat) (hd : dst + n ≤ 2 ^ 32) (hs : src + n ≤ 2 ^ 32) :
    memmoveAsm dst src n m = moved m dst src n ∧ memmove dst src n m = moved m dst src n := by
  have hdown : ∀ size c, 0 < size → n = size * c → src < dst → dst < src + n →
      repMovs size true c (step true size ((dst + n) % 2 ^ 32)) (step true size ((src + n) % 2 ^ 32)) m =
        moved m dst src n := by
    rintro size c hsize rfl hlt hover
    obtain ⟨c, rfl⟩ := Nat.exists_eq_succ_of_ne_zero (fun h : c = 0 => by simp [h] at hover; omega)
    have hmul : size * c.succ = size * c + size := Nat.mul_succ size c
    rw [step_down (by omega) hd hsize, step_down (by omega) hs hsize, Nat.succ_eq_add_one,
      ← repMovs_down hsize c m (by omega) (by omega), hmul, ← add_assoc, ← add_assoc, Nat.add_sub_cancel,
      Nat.add_sub_cancel]
  have hup : ∀ size c, 0 < size → n = size * c → ¬ (src < dst ∧ dst < src + n) →
      repMovs size false c dst src m = moved m dst src n := by
    rintro size c hsize rfl hnot
    exact repMovs_up hsize c m hd hs (by omega)
  have hone : n = 1 * n := (one_mul n).symm
  have htest : src < dst ∧ dst < (src + n) % 2 ^ 32 ↔ src < dst ∧ dst < src + n := by omega
  unfold memmoveAsm memmove
  simp only [htest, copyUp_eq, copyDown_eq]
  split
  case isTrue h =>
    refine ⟨?_, hdown 1 n (by decide) hone h.1 h.2⟩
    split
    · exact hdown 4 (n / 4) (by decide) (by omega) h.1 h.2
    · exact hdown 1 n (by decide) hone h.1 h.2
  case isFalse h =>
    refine ⟨?_, hup 1 n (by decide) hone h⟩
    split
    · exact hup 4 (n / 4) (by decide) (by omega) h
    · exact hup 1 n (by decide) hone h

/-- `n` bytes `b` from `v` on. -/
def filled (m : Nat → Nat) (v b n : Nat) : Nat → Nat := fun x => if v ≤ x ∧ x < v + n then b else m x

lemma filled_filled (m : Nat → Nat) (v b k n : Nat) : filled (filled m v b k) (v + k) b n = filled m v b (k + n) := by
  funext x
  unfold filled
  split <;> split <;> first | rfl | omega | skip
  all_goals split <;> first | rfl | omega

lemma repStos_fills {eax b : Nat} (hsize : 0 < size) (heax : ∀ i < size, eax / 256 ^ i % 256 = b) (c : Nat) (m : Nat → Nat)
    (hv : v + size * c ≤ 2 ^ 32) : repStos size eax c v m = filled m v b (size * c) := by
  induction c generalizing v m with
  | zero =>
    funext x
    exact (if_neg (by omega)).symm
  | succ c ih =>
    have hunit : (fun x => if v ≤ x ∧ x < v + size then eax / 256 ^ (x - v) % 256 else m x) = filled m v b size := by
      funext x
      exact if_ctx_congr Iff.rfl (fun hx => heax _ (by omega)) fun _ => rfl
    rw [repStos, hunit]
    rw [Nat.mul_succ] at *
    rcases Nat.eq_zero_or_pos c with rfl | hc
    · rw [repStos, mul_zero, zero_add]
    · have hle := Nat.le_mul_of_pos_right size hc
      rw [step_up (by omega), ih _ (by omega), filled_filled, add_comm]

lemma setLoop_fills (c n : Nat) (m : Nat → Nat) : setLoop c n v m = repStos 1 c n v m := by
  induction n generalizing v m with
  | zero => rfl
  | succ n ih =>
    rw [setLoop, repStos, ih]
    congr 1
    funext x
    by_cases h : x = v
    · subst h
      rw [update_self, if_pos (by omega), Nat.sub_self, Nat.pow_zero, Nat.div_one]
    · rw [update_of_ne h, if_neg (by omega)]

lemma memset_fills (c : Nat) (m : Nat → Nat) (hn : n < 2 ^ 31) (hv : v + n ≤ 2 ^ 32) :
    memsetAsm v c n m = filled m v (c % 256) n ∧ memset v c n m = filled m v (c % 256) n := by
  have hbyte : ∀ i < 1, c / 256 ^ i % 256 = c % 256 := by
    intro i hi
    obtain rfl : i = 0 := by omega
    rw [Nat.pow_zero, Nat.div_one]
  have hbytes : repStos 1 c n v m = filled m v (c % 256) n := by
    have h := repStos_fills (by decide) hbyte n m (show v + 1 * n ≤ 2 ^ 32 by omega)
    rwa [one_mul] at h
  have hword : ∀ c < 256, ∀ i < 4, (c <<< 24 ||| c <<< 16 ||| c <<< 8 ||| c) / 256 ^ i % 256 = c := by decide +kernel
  constructor
  · unfold memsetAsm
    split
    · funext x
      exact (if_neg (by omega)).symm
    split
    · have hmask : c &&& 0xff = c % 256 := Nat.and_two_pow_sub_one_eq_mod c 8
      have hfour : n = 4 * (n / 4) := by omega
      rw [hmask, repStos_fills (by decide) (hword _ (Nat.mod_lt _ (by decide))) (n / 4) m (by omega), ← hfour]
    · exact hbytes
  · rw [memset, toI32_of_range (by omega) (by omega), Int.toNat_natCast, setLoop_fills, hbytes]

/-- The string instructions leave memory as the portable loops do, and `memmove` as a copy through a temporary does. -/
theorem word_wise_agrees {dst src n : Nat} (c : Nat) (m : Nat → Nat) (hn : n < 2 ^ 31) (hd : dst + n ≤ 2 ^ 32)
    (hs : src + n ≤ 2 ^ 32) : memmoveAsm dst src n m = memmove dst src n m ∧ memmove dst src n m = moved m dst src n ∧
      memsetAsm dst c n m = memset dst c n m := by
  obtain ⟨hasm, hport⟩ := memmove_moves m hd hs
  obtain ⟨hset, hset'⟩ := memset_fills c m hn hd
  exact ⟨hasm.trans hport.symm, hport, hset.trans hset'.symm⟩

theorem word_wise_agrees_overlap : memmoveAsm 104 100 8 id = memmove 104 100 8 id ∧ memmove 104 100 8 id 108 = 104 := by
  have h := word_wise_agrees 0 id (show 8 < 2 ^ 31 by decide) (show 104 + 8 ≤ 2 ^ 32 by decide)
    (show 100 + 8 ≤ 2 ^ 32 by decide)
  exact ⟨h.1, by rw [h.2.1]; rfl⟩

end Jos.Memmove
