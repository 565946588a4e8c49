import Mathlib.Data.List.Flatten
import Mathlib.Data.List.Nodup
import Mathlib.Data.List.Perm.Subperm
import TestWriter.Proofs.HelperClosure

/-!
# Resolving helpers step by step

The queue grows while it is consumed, and the calls of helpers form cycles; it is emptied because
a helper joins the names that were seen when it is resolved.  Main statements: resolving ends after
as many rounds as there are helpers required and called by those resolved, the result depends only
on which helpers are required, and to resolve some helpers after others resolves what both resolve
together.
-/

namespace TestWriter

namespace Helper

variable {language : Language} {seen names : List String} {required queue more : List Helper}
  {h k l : Helper} {name : String}

theorem resolve_cons_of_isFresh (hfresh : IsFresh language seen h) :
    resolve language seen (h :: queue) =
      (h :: (resolve language (h.name :: seen) (queue ++ h.dependencies)).1,
        (resolve language (h.name :: seen) (queue ++ h.dependencies)).2) := by
  rw [resolve]
  exact dif_pos hfresh

theorem resolve_cons_of_stale (hstale : ¬ IsFresh language seen h) :
    resolve language seen (h :: queue) = resolve language seen queue := by
  rw [resolve]
  exact dif_neg hstale

/-! ## Rounds of the queue -/

/-- A queue is emptied in a number of rounds.  A round takes the first helper from the queue; if it
is fresh, it is resolved, its name is seen, and the helpers that it calls join the queue. -/
inductive Empties (language : Language) :
    Nat → List String → List Helper → List Helper × List String → Prop
  | done {seen : List String} : Empties language 0 seen [] ([], seen)
  | pass {rounds : Nat} {seen : List String} {h : Helper} {queue : List Helper}
      {result : List Helper × List String} (stale : ¬ IsFresh language seen h)
      (rest : Empties language rounds seen queue result) :
      Empties language (rounds + 1) seen (h :: queue) result
  | resolve {rounds : Nat} {seen names : List String} {h : Helper} {queue resolved : List Helper}
      (fresh : IsFresh language seen h)
      (rest : Empties language rounds (h.name :: seen) (queue ++ h.dependencies)
        (resolved, names)) :
      Empties language (rounds + 1) seen (h :: queue) (h :: resolved, names)

/-- The calls of some helpers. -/
def callsOf (helpers : List Helper) : List Helper := helpers.flatMap dependencies

/-- There is a round for each helper in the queue and for each call of a resolved helper. -/
theorem empties_resolve (language : Language) (seen : List String) (queue : List Helper) :
    Empties language (queue.length + (callsOf (resolve language seen queue).1).length) seen queue
      (resolve language seen queue) := by
  fun_induction resolve language seen queue with
  | case1 seen => exact .done
  | case2 seen h queue hh resolved names heq ih =>
      rw [heq, List.length_append] at ih
      have hrounds : (h :: queue).length + (callsOf (h :: resolved)).length =
          queue.length + h.dependencies.length + (callsOf resolved).length + 1 := by
        simp only [callsOf, List.length_cons, List.flatMap_cons, List.length_append]
        omega
      rw [hrounds]
      exact .resolve hh ih
  | case3 seen h queue hh ih =>
      rw [List.length_cons, Nat.add_right_comm]
      exact .pass hh ih

/-- Different helpers make ten calls at most. -/
theorem length_callsOf_le {helpers : List Helper} (hnodup : helpers.Nodup) :
    (callsOf helpers).length ≤ 10 := by
  have hsubset : helpers ⊆ all := fun h _ => mem_all h
  obtain ⟨sorted, hperm, hsublist⟩ := List.subperm_of_subset hnodup hsubset
  calc (callsOf helpers).length
    _ = (callsOf sorted).length := (hperm.symm.flatMap_right dependencies).length_eq
    _ ≤ (callsOf all).length := (hsublist.flatMap dependencies).length_le
    _ = 10 := rfl

/-! ## The names that are seen -/

/-- The names of the resolved helpers join those that were seen. -/
theorem seen_resolve (language : Language) (seen : List String) (queue : List Helper) :
    (resolve language seen queue).2 =
      ((resolve language seen queue).1.map Helper.name).reverse ++ seen := by
  fun_induction resolve language seen queue with
  | case1 seen => rfl
  | case2 seen h queue hh resolved names heq ih =>
      rw [heq] at ih
      simp only [List.map_cons, List.reverse_cons, List.append_assoc]
      exact ih
  | case3 seen h queue hh ih => exact ih

theorem mem_seen_resolve :
    name ∈ (resolve language seen queue).2 ↔
      name ∈ seen ∨ ∃ h ∈ (resolve language seen queue).1, name = h.name := by
  rw [seen_resolve, List.mem_append, List.mem_reverse, List.mem_map, or_comm]
  simp only [eq_comm]

theorem isFresh_congr (hsame : ∀ name, name ∈ seen ↔ name ∈ names) :
    IsFresh language seen h ↔ IsFresh language names h := by
  simp only [IsFresh, hsame]

/-- Only which names were seen matters. -/
theorem resolve_congr (hsame : ∀ name, name ∈ seen ↔ name ∈ names) (queue : List Helper) :
    (resolve language seen queue).1 = (resolve language names queue).1 := by
  fun_induction resolve language seen queue generalizing names with
  | case1 seen => simp [resolve]
  | case2 seen h queue hh resolved after heq ih =>
      have hcons : ∀ name, name ∈ h.name :: seen ↔ name ∈ h.name :: names := by
        intro name
        rw [List.mem_cons, List.mem_cons, hsame]
      have hrest := ih hcons
      rw [heq] at hrest
      rw [resolve_cons_of_isFresh ((isFresh_congr hsame).mp hh), ← hrest]
  | case3 seen h queue hh ih =>
      rw [ih hsame, resolve_cons_of_stale fun hfresh => hh ((isFresh_congr hsame).mpr hfresh)]

/-- A fresh helper is resolved when it is required. -/
theorem mem_resolve_of_isFresh (hmem : h ∈ required) (hfresh : IsFresh language seen h) :
    h ∈ (resolve language seen required).1 :=
  (mem_resolve_iff language seen required).mpr ⟨h, hmem, .self hfresh⟩

/-- Nothing is resolved from helpers that are not fresh. -/
theorem resolve_of_stale (hstale : ∀ h ∈ queue, ¬ IsFresh language seen h) :
    resolve language seen queue = ([], seen) := by
  induction queue with
  | nil => simp [resolve]
  | cons h rest ih =>
      rw [resolve_cons_of_stale (hstale h List.mem_cons_self)]
      apply ih
      intro k hk
      exact hstale k (List.mem_cons_of_mem _ hk)

/-- Once helpers are resolved, resolving any of them again resolves nothing. -/
theorem resolve_again {again : List Helper} (hsubset : again ⊆ required) :
    resolve language (resolve language seen required).2 again =
      ([], (resolve language seen required).2) := by
  apply resolve_of_stale
  rintro h hagain ⟨hsupported, hunseen⟩
  apply hunseen
  rw [mem_seen_resolve]
  by_cases hseen : h.name ∈ seen
  · exact Or.inl hseen
  · exact Or.inr ⟨h, mem_resolve_of_isFresh (hsubset hagain) ⟨hsupported, hseen⟩, rfl⟩

/-! ## Some helpers after others -/

/-- A fresh helper is still fresh when others are resolved, unless it is one of them. -/
theorem IsFresh.after (hfresh : IsFresh language seen h) :
    IsFresh language (resolve language seen required).2 h ∨
      h ∈ (resolve language seen required).1 := by
  by_cases hresolved : h ∈ (resolve language seen required).1
  · exact Or.inr hresolved
  · refine Or.inl ⟨hfresh.1, ?_⟩
    rw [mem_seen_resolve]
    rintro (hseen | ⟨k, hk, hname⟩)
    · exact hfresh.2 hseen
    · exact hresolved (name_injective hname ▸ hk)

/-- What a helper leads to is led to by fresh helpers alone when others are resolved, or it is one
of them: those are closed under calls. -/
theorem Reaches.after (hr : Reaches language seen h l) :
    Reaches language (resolve language seen required).2 h l ∨
      l ∈ (resolve language seen required).1 := by
  induction hr with
  | self fresh =>
      rcases fresh.after with hstill | hresolved
      · exact Or.inl (.self hstill)
      · exact Or.inr hresolved
  | call before calls fresh ih =>
      rcases ih with hbefore | hresolved
      · rcases fresh.after with hstill | hresolved
        · exact Or.inl (.call hbefore calls hstill)
        · exact Or.inr hresolved
      · obtain ⟨k, hk, hreaches⟩ := (mem_resolve_iff language seen required).mp hresolved
        exact Or.inr ((mem_resolve_iff language seen required).mpr
          ⟨k, hk, .call hreaches calls fresh⟩)

theorem subset_seen_resolve : seen ⊆ (resolve language seen required).2 :=
  fun _ hname => mem_seen_resolve.mpr (Or.inl hname)

/-- Some helpers and then others resolve what both resolve together. -/
theorem resolve_append_perm (language : Language) (seen : List String)
    (required more : List Helper) :
    ((resolve language seen required).1 ++
        (resolve language (resolve language seen required).2 more).1).Perm
      (resolve language seen (required ++ more)).1 := by
  have hdisjoint : List.Disjoint (resolve language seen required).1
      (resolve language (resolve language seen required).2 more).1 := by
    intro l hfirst hsecond
    obtain ⟨h, -, hr⟩ := (mem_resolve_iff _ _ _).mp hsecond
    exact hr.fresh_right.2 (mem_seen_resolve.mpr (Or.inr ⟨l, hfirst, rfl⟩))
  have hnodup := (nodup_resolve language seen required).append
    (nodup_resolve language (resolve language seen required).2 more) hdisjoint
  apply (List.perm_ext_iff_of_nodup hnodup (nodup_resolve _ _ _)).mpr
  intro l
  rw [List.mem_append, mem_resolve_iff language seen (required ++ more)]
  constructor
  · rintro (hfirst | hsecond)
    · obtain ⟨h, hh, hr⟩ := (mem_resolve_iff _ _ _).mp hfirst
      exact ⟨h, List.mem_append_left _ hh, hr⟩
    · obtain ⟨h, hh, hr⟩ := (mem_resolve_iff _ _ _).mp hsecond
      exact ⟨h, List.mem_append_right _ hh, hr.mono subset_seen_resolve⟩
  · rintro ⟨h, hh, hr⟩
    rcases List.mem_append.mp hh with hrequired | hmore
    · exact Or.inl ((mem_resolve_iff _ _ _).mpr ⟨h, hrequired, hr⟩)
    · rcases hr.after with hstill | hresolved
      · exact Or.inr ((mem_resolve_iff _ _ _).mpr ⟨h, hmore, hstill⟩)
      · exact Or.inl hresolved

/-- Resolving helpers is a least closure.  It ends; it resolves exactly the helpers that the
required ones lead to through fresh helpers, each of them once, and their names alone join those
that were seen.  Only which names were seen and which helpers are required matters.  Resolving any
of them again resolves nothing, and resolving more of them later resolves the rest of what both
resolve together. -/
theorem resolve_is_least_closure (language : Language) (seen : List String)
    (required : List Helper) :
    let result := resolve language seen required
    (∃ rounds ≤ required.length + 10, Empties language rounds seen required result) ∧
      result.1.Nodup ∧
      (∀ l, l ∈ result.1 ↔ ∃ h ∈ required, Reaches language seen h l) ∧
      (∀ name, name ∈ result.2 ↔ name ∈ seen ∨ ∃ h ∈ result.1, name = h.name) ∧
      (∀ names, (∀ name, name ∈ names ↔ name ∈ seen) →
        (resolve language names required).1 = result.1) ∧
      (∀ other, (∀ h, h ∈ other ↔ h ∈ required) →
        (resolve language seen other).1.Perm result.1) ∧
      (∀ again ⊆ required, resolve language result.2 again = ([], result.2)) ∧
      ∀ more, let later := resolve language result.2 more
        let together := resolve language seen (required ++ more)
        (result.1 ++ later.1).Perm together.1 ∧ ∀ name, name ∈ later.2 ↔ name ∈ together.2 := by
  intro result
  refine ⟨⟨_, ?_, empties_resolve language seen required⟩, nodup_resolve language seen required,
    fun l => mem_resolve_iff language seen required, fun name => mem_seen_resolve,
    fun names hsame => resolve_congr hsame required, ?_, fun again => resolve_again, ?_⟩
  · exact Nat.add_le_add_left (length_callsOf_le (nodup_resolve language seen required)) _
  · intro other hsame
    apply (List.perm_ext_iff_of_nodup (nodup_resolve _ _ _) (nodup_resolve _ _ _)).mpr
    intro l
    rw [mem_resolve_iff, mem_resolve_iff]
    simp only [hsame]
  · intro more later together
    have hperm : (result.1 ++ later.1).Perm together.1 :=
      resolve_append_perm language seen required more
    refine ⟨hperm, ?_⟩
    intro name
    have hmem : ∀ h, h ∈ together.1 ↔ h ∈ result.1 ∨ h ∈ later.1 := fun h => by
      rw [← hperm.mem_iff, List.mem_append]
    have hlater : name ∈ later.2 ↔
        (name ∈ seen ∨ ∃ h ∈ result.1, name = h.name) ∨ ∃ h ∈ later.1, name = h.name := by
      rw [mem_seen_resolve, mem_seen_resolve]
    have htogether : name ∈ together.2 ↔ name ∈ seen ∨ ∃ h ∈ together.1, name = h.name :=
      mem_seen_resolve
    rw [hlater, htogether, or_assoc]
    apply or_congr Iff.rfl
    simp only [hmem, or_and_right, exists_or]

end Helper

end TestWriter
