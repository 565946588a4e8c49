import TestWriter.Proofs.FreshNames
import TestWriter.Proofs.Scope

/-!
# Tidy traces

The invariant that carries the scoping of built methods.  A trace in the making is tidy when it is
scoped, the names that are taken are the reserved ones and those of its variables, and every
declared variable is used later or still at hand: it stands in an expression that is not written
yet.  Main statements: a tidy trace stays tidy when it reads variables at hand, when it declares a
variable with a claimed name, and when it enters and leaves a scope.
-/

namespace TestWriter

/-! ## Variables at hand -/

/-- A variable that a trace uses. -/
abbrev Uses (trace : List Event) (x : String) : Prop := Event.use x ∈ trace

/-- A trace reads variables at hand, and puts some of them down; none of those goes unread. -/
structure Spends (hand : String → Prop) (trace : List Event) (hand' : String → Prop) : Prop where
  reads : Reads trace
  atHand : ∀ x, Uses trace x → hand x
  kept : ∀ x, hand x → hand' x ∨ Uses trace x
  sub : ∀ x, hand' x → hand x

namespace Spends

variable {hand hand' hand'' : String → Prop} {trace more : List Event}

theorem nil : Spends hand [] hand where
  reads := Reads.nil
  atHand _ hx := absurd hx List.not_mem_nil
  kept _ hx := Or.inl hx
  sub _ hx := hx

/-- Read variables and keep them at hand. -/
theorem look (hreads : Reads trace) (hhand : ∀ x, Uses trace x → hand x) :
    Spends hand trace hand where
  reads := hreads
  atHand := hhand
  kept _ hx := Or.inl hx
  sub _ hx := hx

/-- Read variables that were at hand for nothing else. -/
theorem spend (hreads : Reads trace) :
    Spends (fun x => hand x ∨ Uses trace x) trace hand where
  reads := hreads
  atHand _ hx := Or.inr hx
  kept _ hx := hx
  sub _ hx := Or.inl hx

theorem append (h : Spends hand trace hand') (hmore : Spends hand' more hand'') :
    Spends hand (trace ++ more) hand'' where
  reads := h.reads.append hmore.reads
  atHand := by
    intro x hx
    rcases List.mem_append.mp hx with hx | hx
    · exact h.atHand x hx
    · exact h.sub x (hmore.atHand x hx)
  kept := by
    intro x hx
    rcases h.kept x hx with hx | hread
    · exact (hmore.kept x hx).imp_right (List.mem_append_right _)
    · exact Or.inr (List.mem_append_left _ hread)
  sub x hx := h.sub x (hmore.sub x hx)

/-- What else is at hand stays there. -/
theorem frame (h : Spends hand trace hand') (other : String → Prop) :
    Spends (fun x => hand x ∨ other x) trace fun x => hand' x ∨ other x where
  reads := h.reads
  atHand x hx := Or.inl (h.atHand x hx)
  kept := by
    rintro x (hx | hx)
    · exact (h.kept x hx).imp_left Or.inl
    · exact Or.inl (Or.inr hx)
  sub x hx := hx.imp_left (h.sub x)

end Spends

/-! ## The invariant -/

/-- A tidy trace: the reserved names are taken and not introduced by it, and the variables at hand
may still be used. -/
structure Tidy (scopes : Scopes) (reserved : List String) (hand : String → Prop)
    (supply : NameSupply) (trace : List Event) : Prop where
  inScope : Scoped scopes trace
  visible : ∀ x, hand x → (scopesAfter scopes trace).Holds x
  distinct : (reserved ++ boundIn trace).Nodup
  taken : ∀ x, supply.isTaken x = true ↔ x ∈ reserved ++ boundIn trace
  used : ∀ before x after, trace = before ++ .declare x :: after → Uses after x ∨ hand x

namespace Tidy

variable {scopes : Scopes} {reserved others : List String} {hand hand' : String → Prop}
  {supply supply' : NameSupply} {trace more : List Event} {name : String}

/-- The parameters of a method are at hand from the start. -/
theorem ofParameters {parameters : List String} (hnodup : parameters.Nodup)
    (htaken : ∀ x, supply.isTaken x = true ↔ x ∈ parameters) :
    Tidy [parameters] parameters (· ∈ parameters) supply [] where
  inScope := trivial
  visible x hx := ⟨parameters, List.mem_singleton_self parameters, hx⟩
  distinct := by
    change (parameters ++ []).Nodup
    rw [List.append_nil]
    exact hnodup
  taken := by
    intro x
    change supply.isTaken x = true ↔ x ∈ parameters ++ []
    rw [List.append_nil]
    exact htaken x
  used before x after heq := by
    have hempty := List.append_eq_nil_iff.mp heq.symm
    cases hempty.2

theorem congr (h : Tidy scopes reserved hand supply trace) (hiff : ∀ x, hand' x ↔ hand x) :
    Tidy scopes reserved hand' supply trace where
  inScope := h.inScope
  visible x hx := h.visible x ((hiff x).mp hx)
  distinct := h.distinct
  taken := h.taken
  used before x after heq := (h.used before x after heq).imp_right (hiff x).mpr

/-- A declaration in a longer trace stands in the first part or in the second one. -/
theorem declare_cases {before after : List Event} {x : String}
    (h : trace ++ more = before ++ .declare x :: after) :
    (∃ rest, trace = before ++ .declare x :: rest ∧ after = rest ++ more) ∨
      Event.declare x ∈ more := by
  rcases List.append_eq_append_iff.mp h with ⟨start, -, hmore⟩ | ⟨rest, htrace, hafter⟩
  · refine Or.inr ?_
    rw [hmore]
    exact List.mem_append_right _ List.mem_cons_self
  · cases rest with
    | nil =>
        refine Or.inr ?_
        rw [List.nil_append] at hafter
        rw [← hafter]
        exact List.mem_cons_self
    | cons event rest =>
        rw [List.cons_append] at hafter
        injection hafter with hevent hrest
        subst hevent
        exact Or.inl ⟨rest, htrace, hrest⟩

/-- Going on without a new variable. -/
theorem append (h : Tidy scopes reserved hand supply trace)
    (hscoped : Scoped (scopesAfter scopes trace) more) (hbound : boundIn more = [])
    (hvisible : ∀ x, hand' x → (scopesAfter scopes (trace ++ more)).Holds x)
    (hkept : ∀ x, hand x → hand' x ∨ Uses more x) :
    Tidy scopes reserved hand' supply (trace ++ more) where
  inScope := scoped_append.mpr ⟨h.inScope, hscoped⟩
  visible := hvisible
  distinct := by
    rw [boundIn_append, hbound, List.append_nil]
    exact h.distinct
  taken := by
    intro x
    rw [boundIn_append, hbound, List.append_nil]
    exact h.taken x
  used := by
    intro before x after heq
    rcases declare_cases heq with ⟨rest, htrace, rfl⟩ | hdeclare
    · rcases h.used before x rest htrace with huse | hx
      · exact Or.inl (List.mem_append_left _ huse)
      · exact (hkept x hx).symm.imp_left (List.mem_append_right _)
    · have hnone := List.filterMap_eq_nil_iff.mp hbound _ hdeclare
      cases hnone

/-- Reading variables at hand. -/
theorem read (h : Tidy scopes reserved hand supply trace) (hmore : Spends hand more hand') :
    Tidy scopes reserved hand' supply (trace ++ more) := by
  refine h.append (hmore.reads.scoped_iff.mpr ?_) hmore.reads.boundIn_eq ?_ hmore.kept
  · intro x hx
    exact h.visible x (hmore.atHand x hx)
  · intro x hx
    rw [scopesAfter_append, hmore.reads.scopesAfter_eq]
    exact h.visible x (hmore.sub x hx)

/-- Entering a scope. -/
theorem enter (h : Tidy scopes reserved hand supply trace) :
    Tidy scopes reserved hand supply (trace ++ [.enter]) := by
  refine h.append ⟨trivial, trivial⟩ rfl ?_ fun _ hx => Or.inl hx
  intro x hx
  obtain ⟨scope, hscope, hmem⟩ := h.visible x hx
  rw [scopesAfter_append]
  exact ⟨scope, List.mem_cons_of_mem _ hscope, hmem⟩

/-- Leaving the scopes that are open, with nothing at hand. -/
theorem leaves (h : Tidy scopes reserved hand supply trace) (hnone : ∀ x, ¬hand x) (n : Nat) :
    Tidy scopes reserved hand supply (trace ++ List.replicate n .leave) := by
  induction n with
  | zero =>
      rw [List.replicate_zero, List.append_nil]
      exact h
  | succ n ih =>
      rw [List.replicate_succ', ← List.append_assoc]
      exact ih.append ⟨trivial, trivial⟩ rfl (fun x hx => absurd hx (hnone x)) fun _ => Or.inl

/-- Code in a scope of its own; what is at hand afterwards was so before. -/
theorem within (h : Tidy scopes reserved hand supply trace)
    (hinner : Tidy scopes reserved hand' supply' (trace ++ [.enter] ++ more))
    (hmore : Level more) (hsub : ∀ x, hand' x → hand x) :
    Tidy scopes reserved hand' supply' (trace ++ (.enter :: more ++ [.leave])) := by
  rw [show trace ++ (.enter :: more ++ [.leave]) = trace ++ [.enter] ++ more ++ [.leave] by simp]
  refine hinner.append ⟨trivial, trivial⟩ rfl ?_ fun _ hx => Or.inl hx
  intro x hx
  obtain ⟨inner, heq⟩ := hmore [] (scopesAfter scopes trace)
  rw [scopesAfter_append, scopesAfter_append, scopesAfter_append]
  change Scopes.Holds (scopesAfter ([] :: scopesAfter scopes trace) more).tail x
  rw [heq]
  exact h.visible x (hsub x hx)

/-- Reading variables at hand in a scope of its own. -/
theorem readWithin (h : Tidy scopes reserved hand supply trace) (hmore : Spends hand more hand') :
    Tidy scopes reserved hand' supply (trace ++ (.enter :: more ++ [.leave])) :=
  h.within (h.enter.read hmore) hmore.reads.level hmore.sub

/-- A name that is claimed is neither reserved nor that of a variable. -/
theorem not_mem_of_claim (h : Tidy scopes reserved hand supply trace) (base : String) :
    (supply.claimVariable base).1 ∉ reserved ++ boundIn trace := by
  intro hmem
  have hfree : supply.isTaken (supply.claimVariable base).1 = false :=
    NameSupply.claimVariable_free
  rw [(h.taken _).mpr hmem] at hfree
  cases hfree

/-- Declaring a variable with a claimed name puts it at hand. -/
theorem declare (h : Tidy scopes reserved hand supply trace) (base : String) :
    Tidy scopes reserved (fun x => hand x ∨ x = (supply.claimVariable base).1)
      (supply.claimVariable base).2
      (trace ++ [.declare (supply.claimVariable base).1]) where
  inScope := scoped_append.mpr ⟨h.inScope, trivial, trivial⟩
  visible := by
    intro x hx
    rw [scopesAfter_append]
    refine Scopes.holds_add.mpr ?_
    rcases hx with hx | hx
    · exact Or.inr (h.visible x hx)
    · exact Or.inl hx
  distinct := by
    rw [boundIn_append, ← List.append_assoc]
    refine List.perm_append_comm.nodup_iff.mpr ?_
    exact List.nodup_cons.mpr ⟨h.not_mem_of_claim base, h.distinct⟩
  taken := by
    intro x
    rw [boundIn_append, ← List.append_assoc, List.mem_append, NameSupply.isTaken_claimVariable,
      h.taken]
    exact or_congr_right List.mem_singleton.symm
  used := by
    intro before x after heq
    rcases declare_cases heq with ⟨rest, htrace, rfl⟩ | hdeclare
    · rcases h.used before x rest htrace with huse | hx
      · exact Or.inl (List.mem_append_left _ huse)
      · exact Or.inr (Or.inl hx)
    · have hname : x = (supply.claimVariable base).1 := by simpa using hdeclare
      exact Or.inr (Or.inr hname)

/-- Claiming a name without introducing it reserves it. -/
theorem reserve (h : Tidy scopes reserved hand supply trace) (base : String) :
    Tidy scopes (reserved ++ [(supply.claimVariable base).1]) hand
      (supply.claimVariable base).2 trace where
  inScope := h.inScope
  visible := h.visible
  distinct := by
    have hnew := h.not_mem_of_claim base
    rw [List.append_assoc]
    exact List.perm_middle.nodup_iff.mpr (List.nodup_cons.mpr ⟨hnew, h.distinct⟩)
  taken := by
    intro x
    rw [NameSupply.isTaken_claimVariable, h.taken]
    simp only [List.mem_append, List.mem_singleton]
    exact or_right_comm
  used := h.used

/-- Binding a variable with a reserved name. -/
theorem bind (h : Tidy scopes (reserved ++ name :: others) hand supply trace) :
    Tidy scopes (reserved ++ others) hand supply (trace ++ [.bind name]) := by
  have hperm : (reserved ++ name :: others ++ boundIn trace).Perm
      (reserved ++ others ++ boundIn (trace ++ [.bind name])) := by
    rw [boundIn_append, ← List.append_assoc, List.append_assoc, List.cons_append]
    refine List.perm_middle.trans ?_
    rw [← List.append_assoc]
    exact (List.perm_append_singleton name _).symm
  refine ⟨?_, ?_, ?_, ?_, ?_⟩
  · exact scoped_append.mpr ⟨h.inScope, trivial, trivial⟩
  · intro x hx
    rw [scopesAfter_append]
    exact Scopes.holds_add.mpr (Or.inr (h.visible x hx))
  · exact hperm.nodup_iff.mp h.distinct
  · intro x
    exact (h.taken x).trans hperm.mem_iff
  · intro before x after heq
    rcases declare_cases heq with ⟨rest, htrace, rfl⟩ | hdeclare
    · exact (h.used before x rest htrace).imp_left (List.mem_append_left _)
    · simp at hdeclare

/-- A tidy trace is well scoped once nothing but parameters is at hand. -/
theorem wellScoped (h : Tidy [reserved] reserved hand supply trace)
    (hhand : ∀ x, hand x → x ∈ reserved) : WellScoped reserved trace where
  inScope := h.inScope
  distinct := h.distinct
  used := by
    intro before x after heq
    rcases h.used before x after heq with huse | hx
    · exact huse
    · -- a declared variable has the name of no parameter
      have hbound : x ∈ boundIn trace := by
        rw [heq, boundIn_append]
        exact List.mem_append_right _ List.mem_cons_self
      exact absurd rfl ((List.nodup_append.mp h.distinct).2.2 x (hhand x hx) x hbound)

end Tidy

end TestWriter
