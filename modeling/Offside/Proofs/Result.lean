/-!
# Results of stateful programs

How the programs that may fail and keep their state are taken apart.
-/

namespace Offside

variable {ε σ α β : Type}

/-- A sequence that succeeds is two successes, one after the other. -/
theorem bind_ok {m : EStateM ε σ α} {f : α → EStateM ε σ β} {s t : σ} {b : β}
    (h : (m >>= f) s = .ok b t) : ∃ a u, m s = .ok a u ∧ f a u = .ok b t := by
  change EStateM.bind m f s = .ok b t at h
  unfold EStateM.bind at h
  split at h
  · exact ⟨_, _, ‹_›, h⟩
  · cases h

theorem pure_ok {a b : α} {s t : σ} (h : (pure a : EStateM ε σ α) s = .ok b t) : b = a ∧ t = s := by
  cases h
  exact ⟨rfl, rfl⟩

/-- A sequence that fails does so in its first or in its second program. -/
theorem bind_error {m : EStateM ε σ α} {f : α → EStateM ε σ β} {s t : σ} {e : ε}
    (h : (m >>= f) s = .error e t) :
    m s = .error e t ∨ ∃ a u, m s = .ok a u ∧ f a u = .error e t := by
  change EStateM.bind m f s = .error e t at h
  unfold EStateM.bind at h
  split at h
  · exact .inr ⟨_, _, ‹_›, h⟩
  · next failed =>
    cases h
    exact .inl failed

/-- The state that a program leaves, be it by success or by failure. -/
def leaves : EStateM.Result ε σ α → σ
  | .ok _ s => s
  | .error _ s => s

theorem bind_of_ok {m : EStateM ε σ α} {f : α → EStateM ε σ β} {s t : σ} {a : α}
    (h : m s = .ok a t) : (m >>= f) s = f a t := by
  change EStateM.bind m f s = f a t
  simp only [EStateM.bind, h]

theorem bind_of_error {m : EStateM ε σ α} {f : α → EStateM ε σ β} {s t : σ} {e : ε}
    (h : m s = .error e t) : (m >>= f) s = .error e t := by
  change EStateM.bind m f s = .error e t
  simp only [EStateM.bind, h]

end Offside
