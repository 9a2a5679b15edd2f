import Mathlib.Logic.Basic

/-!
# Exclusive ownership

Slots refer to resources of which some are free. The references are exclusive
when no resource has two of them and no free resource has one; they are exact
when moreover every resource that is not free has one. A slot is attached to a
free resource, or detached from its own, which is free afterwards.
-/

namespace Jos.Ownership

universe u v
variable {ι : Type u} {β : Type v}

structure Exclusive (R : ι → β → Prop) (free : β → Prop) : Prop where
  unique : ∀ s t b, R s b → R t b → s = t
  used : ∀ s b, R s b → ¬ free b

/-- Every resource in `D` is free or referred to. -/
def Covers (D : β → Prop) (R : ι → β → Prop) (free : β → Prop) : Prop := ∀ b, D b → free b ∨ ∃ s, R s b

variable {D : β → Prop} {R R' : ι → β → Prop} {free free' : β → Prop} {s : ι} {b : β}

lemma Exclusive.mono (h : Exclusive R free) (hR : ∀ t c, R' t c → R t c) (hfree : ∀ c, free' c → free c) :
    Exclusive R' free' :=
  ⟨fun t u c ht hu => h.unique t u c (hR t c ht) (hR u c hu), fun t c ht hc => h.used t c (hR t c ht) (hfree c hc)⟩

lemma Exclusive.attach (h : Exclusive R free) (hb : free b) (hR : ∀ t c, R' t c → R t c ∨ t = s ∧ c = b)
    (hfree : ∀ c, free' c → free c ∧ c ≠ b) : Exclusive R' free' := by
  constructor
  · intro t u c ht hu
    rcases hR t c ht with ht | ⟨rfl, rfl⟩
    · rcases hR u c hu with hu | ⟨rfl, rfl⟩
      · exact h.unique t u c ht hu
      · exact absurd hb (h.used t c ht)
    · rcases hR u c hu with hu | ⟨rfl, -⟩
      · exact absurd hb (h.used u c hu)
      · rfl
  · intro t c ht hc
    obtain ⟨hc, hne⟩ := hfree c hc
    rcases hR t c ht with ht | ⟨-, rfl⟩
    · exact h.used t c ht hc
    · exact hne rfl

lemma Exclusive.detach (h : Exclusive R free) (hs : R s b) (hR : ∀ t c, R' t c → R t c ∧ t ≠ s)
    (hfree : ∀ c, free' c → free c ∨ c = b) : Exclusive R' free' := by
  constructor
  · intro t u c ht hu
    exact h.unique t u c (hR t c ht).1 (hR u c hu).1
  · intro t c ht hc
    obtain ⟨ht, hne⟩ := hR t c ht
    rcases hfree c hc with hc | rfl
    · exact h.used t c ht hc
    · exact hne (h.unique t s c ht hs)

lemma Covers.attach (h : Covers D R free) (hR : ∀ t c, R t c → R' t c) (hs : R' s b)
    (hfree : ∀ c, free c → free' c ∨ c = b) : Covers D R' free' := by
  intro c hc
  rcases h c hc with hc | ⟨t, ht⟩
  · rcases hfree c hc with hc | rfl
    · exact .inl hc
    · exact .inr ⟨s, hs⟩
  · exact .inr ⟨t, hR t c ht⟩

lemma Covers.detach (h : Covers D R free) (hR : ∀ t c, R t c → R' t c ∨ c = b) (hb : free' b)
    (hfree : ∀ c, free c → free' c) : Covers D R' free' := by
  intro c hc
  rcases h c hc with hc | ⟨t, ht⟩
  · exact .inl (hfree c hc)
  · rcases hR t c ht with ht | rfl
    · exact .inr ⟨t, ht⟩
    · exact .inl hb

end Jos.Ownership
