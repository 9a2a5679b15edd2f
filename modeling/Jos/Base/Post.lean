/-!
# Postconditions of computations that may fail

`Post E P x`: if `x` returns, its result satisfies `P`, and if it fails, its error
satisfies `E`.
-/

namespace Jos

universe u v
variable {ε : Type u} {α β : Type v}

structure Post (E : ε → Prop) (P : α → Prop) (x : Except ε α) : Prop where
  ok : ∀ a, x = .ok a → P a
  error : ∀ e, x = .error e → E e

variable {E E' : ε → Prop} {P Q : α → Prop} {x : Except ε α}

theorem Post.pure {a : α} (h : P a) : Post E P (.ok a) := by
  refine ⟨fun b hb => ?_, nofun⟩
  cases hb
  exact h

theorem Post.throw {e : ε} (h : E e) : Post E P (.error e) := by
  refine ⟨nofun, fun e' he => ?_⟩
  cases he
  exact h

theorem Post.trivial (x : Except ε α) : Post (fun _ => True) (fun _ => True) x := ⟨fun _ _ => ⟨⟩, fun _ _ => ⟨⟩⟩

theorem Post.mono (h : Post E P x) (hE : ∀ e, E e → E' e) (hP : ∀ a, P a → Q a) : Post E' Q x :=
  ⟨fun a ha => hP a (h.ok a ha), fun e he => hE e (h.error e he)⟩

theorem Post.bind {R : β → Prop} {f : α → Except ε β} (h : Post E P x) (hf : ∀ a, P a → Post E R (f a)) :
    Post E R (x >>= f) := by
  cases x with
  | ok a => exact hf a (h.ok a rfl)
  | error e => exact .throw (h.error e rfl)

theorem Post.map {R : β → Prop} {g : α → β} (h : Post E (fun a => R (g a)) x) : Post E R (g <$> x) := by
  cases x with
  | ok a => exact .pure (h.ok a rfl)
  | error e => exact .throw (h.error e rfl)

theorem Post.bind_ok_iff {R : β → Prop} {g : α → β} (h : ∀ a, R (g a) ↔ P a) :
    Post E R (x >>= fun a => .ok (g a)) ↔ Post E P x := by
  cases x with
  | ok a => exact ⟨fun hx => .pure ((h a).mp (hx.ok _ rfl)), fun hx => .pure ((h a).mpr (hx.ok _ rfl))⟩
  | error e => exact ⟨fun hx => .throw (hx.error _ rfl), fun hx => .throw (hx.error _ rfl)⟩

end Jos
