import TestWriter.Helper

/-!
# The closure of helpers

The helpers that a queue leads to through helpers that the language has and whose names were not
seen.  Main statement: exactly these are resolved, each of them once.
-/

namespace TestWriter

namespace Helper

/-- Whether a language has a helper whose name was not seen. -/
def IsFresh (language : Language) (seen : List String) (h : Helper) : Prop :=
  h.supported language = true ∧ h.name ∉ seen

/-- A helper leads to another one by calls, all helpers on the way being fresh. -/
inductive Reaches (language : Language) (seen : List String) : Helper → Helper → Prop
  | self {h : Helper} (fresh : IsFresh language seen h) : Reaches language seen h h
  | call {h k l : Helper} (before : Reaches language seen h k) (calls : l ∈ k.dependencies)
      (fresh : IsFresh language seen l) : Reaches language seen h l

variable {language : Language} {seen names : List String} {h k l : Helper}

theorem IsFresh.mono (hsubset : seen ⊆ names) (hfresh : IsFresh language names h) :
    IsFresh language seen h :=
  ⟨hfresh.1, fun hmem => hfresh.2 (hsubset hmem)⟩

theorem IsFresh.cons (hl : IsFresh language seen l) (hne : l ≠ k) :
    IsFresh language (k.name :: seen) l := by
  refine ⟨hl.1, ?_⟩
  intro hmem
  rcases List.mem_cons.mp hmem with hname | hseen
  · exact hne (name_injective hname)
  · exact hl.2 hseen

theorem Reaches.fresh_left (hr : Reaches language seen h l) : IsFresh language seen h := by
  induction hr with
  | self fresh => exact fresh
  | call before calls fresh ih => exact ih

theorem Reaches.fresh_right (hr : Reaches language seen h l) : IsFresh language seen l := by
  cases hr with
  | self fresh => exact fresh
  | call before calls fresh => exact fresh

/-- The fewer names were seen, the more a helper leads to. -/
theorem Reaches.mono (hsubset : seen ⊆ names) (hr : Reaches language names h l) :
    Reaches language seen h l := by
  induction hr with
  | self fresh => exact .self (fresh.mono hsubset)
  | call before calls fresh ih => exact .call ih calls (fresh.mono hsubset)

/-- A helper that calls another one leads to whatever the other one leads to. -/
theorem Reaches.head (fresh : IsFresh language seen h) (calls : k ∈ h.dependencies)
    (hr : Reaches language seen k l) : Reaches language seen h l := by
  induction hr with
  | self fresh' => exact .call (.self fresh) calls fresh'
  | call before calls' fresh' ih => exact .call ih calls' fresh'

/-- What a helper leads to is reached without `k`, or it is `k` or reached from a helper that `k`
calls, then without `k`. -/
theorem Reaches.avoid (hr : Reaches language seen h l) (k : Helper) :
    Reaches language (k.name :: seen) h l ∨ l = k ∨
      ∃ d ∈ k.dependencies, Reaches language (k.name :: seen) d l := by
  induction hr with
  | self fresh =>
      by_cases hk : h = k
      · exact Or.inr (Or.inl hk)
      · exact Or.inl (.self (fresh.cons hk))
  | call before calls fresh ih =>
      rename_i m n
      by_cases hk : n = k
      · exact Or.inr (Or.inl hk)
      · rcases ih with hfrom | rfl | ⟨d, hd, hfrom⟩
        · exact Or.inl (.call hfrom calls (fresh.cons hk))
        · exact Or.inr (Or.inr ⟨n, calls, .self (fresh.cons hk)⟩)
        · exact Or.inr (Or.inr ⟨d, hd, .call hfrom calls (fresh.cons hk)⟩)

/-- Exactly the helpers that the queue leads to are resolved. -/
theorem mem_resolve_iff (language : Language) (seen : List String) (queue : List Helper) :
    l ∈ (resolve language seen queue).1 ↔ ∃ h ∈ queue, Reaches language seen h l := by
  fun_induction resolve language seen queue with
  | case1 seen => simp
  | case2 seen k queue hk resolved names heq ih =>
      rw [heq] at ih
      rw [List.mem_cons, ih]
      constructor
      · rintro (rfl | ⟨h, hmem, hr⟩)
        · exact ⟨l, List.mem_cons_self, .self hk⟩
        · rcases List.mem_append.mp hmem with hqueue | hcalled
          · exact ⟨h, List.mem_cons_of_mem _ hqueue, hr.mono (List.subset_cons_self _ _)⟩
          · have hlead := hr.mono (List.subset_cons_self _ _)
            exact ⟨k, List.mem_cons_self, hlead.head hk hcalled⟩
      · rintro ⟨h, hmem, hr⟩
        rcases hr.avoid k with hfrom | hself | ⟨d, hd, hfrom⟩
        · refine Or.inr ⟨h, ?_, hfrom⟩
          have hne : h ≠ k := by
            rintro rfl
            exact hfrom.fresh_left.2 List.mem_cons_self
          exact List.mem_append_left _ ((List.mem_cons.mp hmem).resolve_left hne)
        · exact Or.inl hself
        · exact Or.inr ⟨d, List.mem_append_right _ hd, hfrom⟩
  | case3 seen k queue hk ih =>
      rw [ih]
      constructor
      · rintro ⟨h, hmem, hr⟩
        exact ⟨h, List.mem_cons_of_mem _ hmem, hr⟩
      · rintro ⟨h, hmem, hr⟩
        rcases List.mem_cons.mp hmem with rfl | hqueue
        · exact absurd hr.fresh_left hk
        · exact ⟨h, hqueue, hr⟩

/-- Nothing is resolved twice. -/
theorem nodup_resolve (language : Language) (seen : List String) (queue : List Helper) :
    (resolve language seen queue).1.Nodup := by
  fun_induction resolve language seen queue with
  | case1 seen => simp
  | case2 seen k queue hk resolved names heq ih =>
      rw [heq] at ih
      refine List.nodup_cons.mpr ⟨?_, ih⟩
      intro hmem
      have hresolved : k ∈ (resolve language (k.name :: seen) (queue ++ k.dependencies)).1 := by
        rw [heq]
        exact hmem
      obtain ⟨h, -, hr⟩ := (mem_resolve_iff _ _ _).mp hresolved
      exact hr.fresh_right.2 List.mem_cons_self
  | case3 seen k queue hk ih => exact ih

end Helper

end TestWriter
