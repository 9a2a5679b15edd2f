import Mathlib.Data.UInt

/-!
# Byte-addressed memory

The memory a program sees on a 32-bit machine: bytes, words read and written in
little-endian order at any address, and addresses that wrap around. The distance
`(b - a).toNat` from `a` up to `b` takes the place of comparisons of addresses.
-/

namespace Jos.ByteMem

abbrev Mem := UInt32 → Nat

def byte (w : UInt32) (i : Nat) : Nat := w.toNat / 256 ^ i % 256

def bytes (w : UInt32) : List Nat := [byte w 0, byte w 1, byte w 2, byte w 3]

def load (m : Mem) (a : UInt32) : UInt32 :=
  (m a + 256 * m (a + 1) + 65536 * m (a + 2) + 16777216 * m (a + 3)).toUInt32

def store (m : Mem) (a w : UInt32) : Mem :=
  fun b => if (b - a).toNat < 4 then byte w (b - a).toNat else m b

/-- The bytes `bs` laid out from `a` up. -/
def fill (m : Mem) (a : UInt32) (bs : List Nat) : Mem := fun b => bs[(b - a).toNat]?.getD (m b)

/-- The words at `a` and `b` do not overlap. -/
def Apart (a b : UInt32) : Prop := 4 ≤ (b - a).toNat ∧ 4 ≤ (a - b).toNat

lemma store_of_le {a b : UInt32} (h : 4 ≤ (b - a).toNat) (m : Mem) (w : UInt32) : store m a w b = m b := by
  have hn : ¬ (b - a).toNat < 4 := by omega
  simp [store, hn]

lemma fill_of_le {a b : UInt32} {bs : List Nat} (h : bs.length ≤ (b - a).toNat) (m : Mem) : fill m a bs b = m b := by
  simp [fill, List.getElem?_eq_none h]

lemma ofBytes_byte (w : UInt32) : byte w 0 + 256 * byte w 1 + 65536 * byte w 2 + 16777216 * byte w 3 = w.toNat := by
  have := w.toNat_lt
  simp only [byte]
  omega

lemma load_of_bytes {m : Mem} {a w : UInt32}
    (h : ∀ c : UInt32, c.toNat < 4 → m (a + c) = byte w c.toNat) : load m a = w := by
  have h0 := h 0 (by decide)
  rw [UInt32.add_zero] at h0
  rw [load, h0, h 1 (by decide), h 2 (by decide), h 3 (by decide)]
  exact (congrArg Nat.toUInt32 (ofBytes_byte w)).trans UInt32.ofNat_toNat

lemma load_congr {m m' : Mem} {a : UInt32} (h : ∀ b, (b - a).toNat < 4 → m' b = m b) : load m' a = load m a := by
  have hi : ∀ c : UInt32, c.toNat < 4 → m' (a + c) = m (a + c) := by
    intro c hc
    apply h
    rw [add_sub_cancel_left]
    exact hc
  have h0 := hi 0 (by decide)
  rw [UInt32.add_zero] at h0
  rw [load, load, h0, hi 1 (by decide), hi 2 (by decide), hi 3 (by decide)]

lemma load_store_self (m : Mem) (a w : UInt32) : load (store m a w) a = w := by
  apply load_of_bytes
  intro c hc
  simp [store, hc]

lemma load_store_apart {a b : UInt32} (h : Apart a b) (m : Mem) (w : UInt32) : load (store m a w) b = load m b := by
  apply load_congr
  intro c hc
  apply store_of_le
  obtain ⟨h1, h2⟩ := h
  simp only [UInt32.toNat_sub] at *
  have := a.toNat_lt
  have := b.toNat_lt
  have := c.toNat_lt
  omega

lemma bytes_getElem (ws : List UInt32) (i j : Nat) (hj : j < 4) :
    (ws.flatMap bytes)[4 * i + j]? = ws[i]?.map fun w => byte w j := by
  induction ws generalizing i with
  | nil => simp
  | cons w ws ih =>
    cases i with
    | zero =>
      obtain rfl | rfl | rfl | rfl : j = 0 ∨ j = 1 ∨ j = 2 ∨ j = 3 := by omega
      all_goals simp [bytes]
    | succ i =>
      have hs : 4 * (i + 1) + j = (4 * i + j) + 4 := by omega
      rw [hs]
      simpa [bytes] using ih i

lemma length_bytes (ws : List UInt32) : (ws.flatMap bytes).length = 4 * ws.length := by
  induction ws with
  | nil => rfl
  | cons w ws ih =>
    simp only [List.flatMap_cons, List.length_append, ih, List.length_cons]
    simp only [bytes, List.length_cons, List.length_nil]
    omega

/-- A block of words reads back word by word. -/
theorem load_fill {ws : List UInt32} {i : Nat} {w : UInt32} (h : ws[i]? = some w)
    (hi : i < 2 ^ 29) (m : Mem) (a : UInt32) : load (fill m a (ws.flatMap bytes)) (a + (4 * i).toUInt32) = w := by
  apply load_of_bytes
  intro c hc
  have hd : (a + (4 * i).toUInt32 + c - a).toNat = 4 * i + c.toNat := by
    rw [UInt32.add_assoc, add_sub_cancel_left, UInt32.toNat_add, Nat.toUInt32, UInt32.toNat_ofNat']
    omega
  rw [fill, hd, bytes_getElem ws i c.toNat hc, h]
  rfl

end Jos.ByteMem
