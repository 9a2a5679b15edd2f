import Mathlib.Logic.Basic

/-!
# Computations whose state outlives a failure

A `Proc σ ε α` runs on a state `σ` and returns a value or an error; the state it has
reached is there in both cases. `Follows π x f` relates it to a pure computation on
the part `π` of the state, and `Keeps I x s` says that `I` holds at the end if it
holds in `s`.
-/

namespace Jos

universe u
variable {σ τ ε α β : Type u}

structure Proc (σ ε α : Type u) : Type u where
  run : σ → Except ε α × σ

namespace Proc

def bind (x : Proc σ ε α) (f : α → Proc σ ε β) : Proc σ ε β where
  run s :=
    match (x.run s).1 with
    | .ok a => (f a).run (x.run s).2
    | .error e => (.error e, (x.run s).2)

instance : Monad (Proc σ ε) where
  pure a := ⟨fun s => (.ok a, s)⟩
  bind := bind

def read (f : σ → Except ε α) : Proc σ ε α := ⟨fun s => (f s, s)⟩

def modify (g : σ → σ) : Proc σ ε PUnit := ⟨fun s => (.ok ⟨⟩, g s)⟩

@[simp] lemma run_pure (a : α) (s : σ) : (pure a : Proc σ ε α).run s = (.ok a, s) := rfl

@[simp] lemma run_read (f : σ → Except ε α) (s : σ) : (read f).run s = (f s, s) := rfl

@[simp] lemma run_modify (g : σ → σ) (s : σ) : (modify g : Proc σ ε PUnit).run s = (.ok ⟨⟩, g s) := rfl

lemma run_bind (x : Proc σ ε α) (f : α → Proc σ ε β) (s : σ) : (x >>= f).run s =
    match (x.run s).1 with
    | .ok a => (f a).run (x.run s).2
    | .error e => (.error e, (x.run s).2) := rfl

lemma run_bind_ok {x : Proc σ ε α} {f : α → Proc σ ε β} {s : σ} {a : α} (h : (x.run s).1 = .ok a) :
    (x >>= f).run s = (f a).run (x.run s).2 := by
  rw [run_bind, h]

lemma run_bind_error {x : Proc σ ε α} {f : α → Proc σ ε β} {s : σ} {e : ε} (h : (x.run s).1 = .error e) :
    (x >>= f).run s = (.error e, (x.run s).2) := by
  rw [run_bind, h]

/-- `x` does to the part `π` of the state what `f` does, and returns what `f` returns. -/
def Follows (π : σ → τ) (x : Proc σ ε α) (f : τ → Except ε (α × τ)) : Prop :=
  ∀ s, (fun a => (a, π (x.run s).2)) <$> (x.run s).1 = f (π s)

section
variable {π : σ → τ} {x : Proc σ ε α} {f : τ → Except ε (α × τ)}

lemma Follows.ok (h : Follows π x f) {s : σ} {a : α} {t : τ} (hf : f (π s) = .ok (a, t)) :
    (x.run s).1 = .ok a ∧ π (x.run s).2 = t := by
  have hs := h s
  rw [hf] at hs
  cases hx : (x.run s).1 with
  | ok b =>
    rw [hx] at hs
    cases hs
    exact ⟨rfl, rfl⟩
  | error e =>
    rw [hx] at hs
    cases hs

lemma Follows.of_ok (h : Follows π x f) {s : σ} {a : α} (hx : (x.run s).1 = .ok a) :
    f (π s) = .ok (a, π (x.run s).2) := by
  rw [← h s, hx]
  rfl

lemma Follows.pure (a : α) : Follows π (Pure.pure a : Proc σ ε α) fun t => .ok (a, t) := fun _ => rfl

lemma Follows.read (g : τ → Except ε α) : Follows π (Proc.read fun s => g (π s)) fun t => (·, t) <$> g t := fun _ => rfl

lemma Follows.modify {g : σ → σ} {k : τ → τ} (h : ∀ s, π (g s) = k (π s)) :
    Follows π (Proc.modify g : Proc σ ε PUnit) fun t => .ok (⟨⟩, k t) := fun s => by
  dsimp only
  rw [← h s]
  rfl

lemma Follows.bind {g : α → Proc σ ε β} {k : α → τ → Except ε (β × τ)} (h : Follows π x f)
    (hg : ∀ a, Follows π (g a) (k a)) : Follows π (x >>= g) fun t => f t >>= fun out => k out.1 out.2 := by
  intro s
  dsimp only
  rw [← h s]
  cases hx : (x.run s).1 with
  | ok a =>
    rw [run_bind_ok hx]
    exact hg a _
  | error e =>
    rw [run_bind_error hx]
    rfl

lemma Follows.congr {f' : τ → Except ε (α × τ)} (h : Follows π x f) (heq : ∀ t, f t = f' t) : Follows π x f' :=
  fun s => (h s).trans (heq _)

lemma Follows.ite {c : Prop} [Decidable c] {y : Proc σ ε α} {g : τ → Except ε (α × τ)} (hx : Follows π x f)
    (hy : Follows π y g) : Follows π (if c then x else y) fun t => if c then f t else g t := by
  by_cases h : c
  · simp only [if_pos h]
    exact hx
  · simp only [if_neg h]
    exact hy

end

/-- `x` keeps `I`, whether it returns or fails. -/
def Keeps (I : σ → Prop) (x : Proc σ ε α) (s : σ) : Prop := I s → I (x.run s).2

section
variable {I : σ → Prop} {x : Proc σ ε α} {s : σ}

lemma Keeps.pure (a : α) (s : σ) : Keeps I (Pure.pure a : Proc σ ε α) s := id

lemma Keeps.read (f : σ → Except ε α) (s : σ) : Keeps I (Proc.read f) s := id

lemma Keeps.modify {g : σ → σ} (h : I s → I (g s)) : Keeps I (Proc.modify g : Proc σ ε PUnit) s := h

lemma Keeps.bind {f : α → Proc σ ε β} (h : Keeps I x s)
    (hf : ∀ a, I (x.run s).2 → (x.run s).1 = .ok a → Keeps I (f a) (x.run s).2) : Keeps I (x >>= f) s := by
  intro hI
  have hI' := h hI
  cases hx : (x.run s).1 with
  | ok a =>
    rw [run_bind_ok hx]
    exact hf a hI' hx hI'
  | error e =>
    rw [run_bind_error hx]
    exact hI'

lemma Keeps.ite {c : Prop} [Decidable c] {y : Proc σ ε α} (hx : c → Keeps I x s) (hy : ¬ c → Keeps I y s) :
    Keeps I (if c then x else y) s := by
  by_cases h : c
  · rw [if_pos h]
    exact hx h
  · rw [if_neg h]
    exact hy h

end

end Proc

end Jos
