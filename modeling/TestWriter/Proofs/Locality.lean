import TestWriter.Proofs.Inversion
import TestWriter.Proofs.Steps

/-!
# What a build reads and writes

The build of a method reads the record of use in its generation and writes to nothing else, whether
it succeeds or is given up.  Main statements: moved into another generation of the same
configuration, a build does the same; and a build that is given up has changed the record of use
alone, so going back to the earlier record takes back all that it did.
-/

namespace TestWriter

namespace Build

variable {σ α β : Type} {f : σ → σ}

/-- Change the state that a result leaves behind. -/
def onState (f : σ → σ) : EStateM.Result Error σ α → EStateM.Result Error σ α
  | .ok a s => .ok a (f s)
  | .error e s => .error e (f s)

/-- A build does the same before and after a change of the state. -/
def Commutes (m : Build σ α) (f : σ → σ) : Prop := ∀ s, m (f s) = onState f (m s)

theorem Commutes.pure (a : α) : (Pure.pure a : Build σ α).Commutes f := fun _ => rfl

theorem Commutes.refuse (cause : BuildFailure) : (refuse cause : Build σ α).Commutes f :=
  fun _ => rfl

theorem Commutes.bind {m : Build σ α} {k : α → Build σ β} (hm : m.Commutes f)
    (hk : ∀ a, (k a).Commutes f) : (m >>= k).Commutes f := by
  intro s
  change EStateM.bind m k (f s) = onState f (EStateM.bind m k s)
  simp only [EStateM.bind]
  rw [hm s]
  cases m s with
  | ok a s' => exact hk a s'
  | error e s' => rfl

end Build

namespace Draft

open Build

/-- A draft moved into another generation, with its record of use. -/
def within (h : Generation) (d : Draft) : Draft :=
  { d with generation := h.restore d.generation.usage }

/-- A build that reads and writes nothing of the generation but the record of use. -/
def Local {α : Type} (m : Build Draft α) : Prop := ∀ h : Generation, m.Commutes (within h)

/-- No step looks at the rest of the generation. -/
theorem local_composable : Composable Local where
  pure a _ := Commutes.pure a
  refuse cause _ := Commutes.refuse cause
  bind hm hk h := (hm h).bind fun a => hk a h
  freshVariable _ _ _ := rfl
  push _ _ _ := rfl
  drain _ _ := rfl
  require _ _ _ := rfl
  markMocks _ _ := rfl

end Draft

namespace Generation

open Build

/-- A build that reads and writes nothing of the generation but the record of use. -/
def Local {α : Type} (m : Build Generation α) : Prop :=
  ∀ h : Generation, m.Commutes fun g => h.restore g.usage

theorem Local.pure {α : Type} (a : α) : Local (Pure.pure a) := fun _ => Commutes.pure a

theorem Local.refuse {α : Type} (cause : BuildFailure) :
    Local (refuse cause : Build Generation α) :=
  fun _ => Commutes.refuse cause

theorem Local.bind {α β : Type} {m : Build Generation α} {k : α → Build Generation β}
    (hm : Local m) (hk : ∀ a, Local (k a)) : Local (m >>= k) :=
  fun h => (hm h).bind fun a => hk a h

theorem takeName_local (take : MethodNames → String × MethodNames) : Local (takeName take) :=
  fun _ _ => rfl

theorem Local.writing {α : Type} {m : Build Draft α} (hm : Draft.Local m) :
    Local (Draft.writing m) := by
  intro h g
  have hs := hm h (Draft.start g)
  change m (Draft.start (h.restore g.usage)) = _ at hs
  simp only [Draft.writing]
  rw [hs]
  cases m (Draft.start g) <;> rfl

end Generation

open Generation (Local)

theorem Execution.toTestUnder_local (run : Execution) (config : Config) (e : Executable) :
    Local (run.toTestUnder config e) := by
  have hcheck : Local (run.checkStaticMocking config) := by
    rcases run.checkStaticMocking_cases config with hpure | ⟨cause, hrefuse⟩
    · rw [hpure]
      exact Local.pure ()
    · rw [hrefuse]
      exact Local.refuse cause
  refine hcheck.bind fun _ => ?_
  refine (Local.writing (Draft.local_composable.bodyOfRun config e run)).bind fun body => ?_
  exact (Generation.takeName_local _).bind fun name => Local.pure _

theorem TestSet.toTableUnder_local (set : TestSet) (config : Config) :
    Local (set.toTableUnder config) := by
  have hcheck : Local (set.checkTable config) := by
    rcases set.checkTable_cases config with hpure | ⟨cause, hrefuse⟩
    · rw [hpure]
      exact Local.pure ()
    · rw [hrefuse]
      exact Local.refuse cause
  refine hcheck.bind fun _ => ?_
  refine (Generation.takeName_local _).bind fun providerName => ?_
  refine (Local.writing (Draft.local_composable.providerBody _ _ _ _)).bind fun providerBody => ?_
  refine (Local.writing (Draft.local_composable.tableBody _ _ _)).bind fun testBody => ?_
  exact (Generation.takeName_local _).bind fun testName => Local.pure _

/-- A build that is given up has changed nothing but the record of use. -/
theorem Generation.Local.restore_of_error {α : Type} {m : Build Generation α} (hm : Local m)
    {g g' : Generation} {e : Error} (h : m g = .error e g') : g'.restore g.usage = g := by
  have hg := hm g g
  change m g = _ at hg
  rw [h] at hg
  injection hg with _ hstate
  rw [hstate]
  rfl

/-- A build that succeeds has changed nothing but the record of use. -/
theorem Generation.Local.restore_of_ok {α : Type} {m : Build Generation α} (hm : Local m)
    {g g' : Generation} {a : α} (h : m g = .ok a g') : g'.restore g.usage = g := by
  have hg := hm g g
  change m g = _ at hg
  rw [h] at hg
  injection hg with _ hstate
  rw [hstate]
  rfl

end TestWriter
