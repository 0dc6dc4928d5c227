import Cordon.World
/-!
How actions run: an equation for each way to put actions together, and which actions never break
off.
-/
namespace Cordon.Act

variable {ε α β : Type} {x : Act ε α} {a : α} {w w' : World ε}

@[simp] theorem run_pure (a : α) (w : World ε) : (pure a : Act ε α).run w = (.ok a, w) := rfl

@[simp] theorem run_ofStep (f : World ε → α × World ε) (w : World ε) :
    (ofStep f).run w = (.ok (f w).1, (f w).2) := rfl

@[simp] theorem run_read (f : World ε → α) (w : World ε) : (read f).run w = (.ok (f w), w) := rfl

theorem run_bind_ok (h : x.run w = (.ok a, w')) (f : α → Act ε β) :
    (x >>= f).run w = (f a).run w' := by
  rw [ExceptT.run_bind]
  change StateT.bind x.run _ w = _
  rw [StateT.bind, h]
  rfl

theorem run_bind_error {fault : Fault} (h : x.run w = (.error fault, w')) (f : α → Act ε β) :
    (x >>= f).run w = (.error fault, w') := by
  rw [ExceptT.run_bind]
  change StateT.bind x.run _ w = _
  rw [StateT.bind, h]
  rfl

theorem run_map_ok (h : x.run w = (.ok a, w')) (f : α → β) :
    (f <$> x).run w = (.ok (f a), w') := by
  rw [map_eq_pure_bind, run_bind_ok h, run_pure]

/-- What comes of a sequence comes of its second action, in the state that the first one left. -/
theorem run_bind_eq_ok {f : α → Act ε β} {b : β} (h : (x >>= f).run w = (.ok b, w')) :
    ∃ a w₁, x.run w = (.ok a, w₁) ∧ (f a).run w₁ = (.ok b, w') := by
  rw [ExceptT.run_bind] at h
  change StateT.bind x.run _ w = _ at h
  rw [StateT.bind] at h
  rcases hx : x.run w with ⟨fault | a, w₁⟩
  · rw [hx] at h
    exact nomatch congrArg Prod.fst h
  · rw [hx] at h
    exact ⟨a, w₁, rfl, h⟩

theorem run_orElse_ok (h : x.run w = (.ok a, w')) (fallback : α) :
    (x.orElse fallback).run w = (.ok a, w') := by
  rw [orElse, ExceptT.run_mk, h]

theorem run_bracket_ok {before : World ε → World ε} (h : x.run (before w) = (.ok a, w'))
    (after : World ε → World ε) : (x.bracket before after).run w = (.ok a, after w') := by
  rw [bracket, ExceptT.run_mk, h]

/-! ## Actions that return -/

/-- The action never breaks off. -/
def Returns (x : Act ε α) : Prop := ∀ w, ∃ a w', x.run w = (.ok a, w')

theorem returns_pure (a : α) : Returns (pure a : Act ε α) := fun w => ⟨a, w, rfl⟩

theorem returns_read (f : World ε → α) : Returns (read f) := fun w => ⟨f w, w, rfl⟩

theorem returns_orElse (x : Act ε α) (fallback : α) : Returns (x.orElse fallback) := by
  intro w
  rw [orElse, ExceptT.run_mk]
  rcases x.run w with ⟨fault | a, w'⟩
  · exact ⟨fallback, w', rfl⟩
  · exact ⟨a, w', rfl⟩

theorem Returns.bind {f : α → Act ε β} (hx : Returns x) (hf : ∀ a, Returns (f a)) :
    Returns (x >>= f) := by
  intro w
  obtain ⟨a, w', hx⟩ := hx w
  rw [run_bind_ok hx]
  exact hf a w'

end Cordon.Act
