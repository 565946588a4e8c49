import TestWriter.Error

/-!
# Builds

A build works on a state and may be given up.  What it did to the state by then stays there, so
whoever goes on after a failure has to put the state in order.  Main statements: a sequence of two
builds succeeds when both do, and fails when the first one fails or the second one after it.
-/

namespace TestWriter

/-- A computation on a state that may end in an error. -/
abbrev Build (σ α : Type) := EStateM Error σ α

namespace Build

variable {σ α β : Type}

/-- Give a build up for a recoverable cause. -/
def refuse (cause : BuildFailure) : Build σ α := throw (.build cause)

theorem pure_eq_ok {a b : α} {s s' : σ} :
    (pure a : Build σ α) s = .ok b s' ↔ a = b ∧ s = s' :=
  ⟨fun h => by cases h; exact ⟨rfl, rfl⟩, fun ⟨ha, hs⟩ => by subst ha; subst hs; rfl⟩

theorem refuse_ne_ok {cause : BuildFailure} {a : α} {s s' : σ} :
    (refuse cause : Build σ α) s ≠ .ok a s' :=
  fun h => by cases h

theorem bind_eq_ok {m : Build σ α} {f : α → Build σ β} {b : β} {s t : σ} :
    (m >>= f) s = .ok b t ↔ ∃ a s', m s = .ok a s' ∧ f a s' = .ok b t := by
  change EStateM.bind m f s = .ok b t ↔ _
  unfold EStateM.bind
  cases h : m s with
  | ok a s' =>
    constructor
    · exact fun hf => ⟨a, s', rfl, hf⟩
    · rintro ⟨a', t', ha, hf⟩
      cases ha
      exact hf
  | error e s' =>
    constructor
    · exact fun hf => by cases hf
    · rintro ⟨a', t', ha, -⟩
      cases ha

theorem bind_eq_error {m : Build σ α} {f : α → Build σ β} {e : Error} {s t : σ} :
    (m >>= f) s = .error e t ↔
      m s = .error e t ∨ ∃ a s', m s = .ok a s' ∧ f a s' = .error e t := by
  change EStateM.bind m f s = .error e t ↔ _
  unfold EStateM.bind
  cases h : m s with
  | ok a s' =>
    constructor
    · exact fun hf => .inr ⟨a, s', rfl, hf⟩
    · rintro (he | ⟨a', t', ha, hf⟩)
      · cases he
      · cases ha
        exact hf
  | error e' s' =>
    constructor
    · intro he
      cases he
      exact .inl rfl
    · rintro (he | ⟨a', t', ha, -⟩)
      · cases he
        rfl
      · cases ha

end Build

end TestWriter
