import Mathlib.Order.Bounds.Basic
import TestWriter.Proofs.FreshNames

/-!
# Names are found by a linear search

A supply does not search from the start: each base keeps the last counter that was tried for it.
This is right because the counters before it stay taken, whatever other bases their candidates were
handed out for.  Main statement: whatever was asked for before, a supply hands out the base or its
candidate with the least counter that is free, and no name twice.
-/

namespace TestWriter

namespace NameSupply

variable {s t : NameSupply} {base separator name k : String} {used bases more : List String}
  {fuel n : Nat}

/-! ## The search of one claim -/

/-- The candidates before the one that is found are taken. -/
theorem nextFree_spec (s : NameSupply) (base separator : String) (fuel n : Nat) :
    n < s.nextFree base separator fuel n ∧
      ∀ i, n < i → i < s.nextFree base separator fuel n →
        s.isTaken (numbered base separator i) = true := by
  induction fuel generalizing n with
  | zero => exact ⟨Nat.lt_succ_self n, fun i hi hlt => absurd hlt (by simp only [nextFree]; omega)⟩
  | succ fuel ih =>
      simp only [nextFree]
      split
      · next htaken =>
        obtain ⟨hlt, hbefore⟩ := ih (n + 1)
        refine ⟨by omega, fun i hi hless => ?_⟩
        rcases Nat.lt_or_eq_of_le hi with hi | rfl
        · exact hbefore i hi hless
        · exact htaken
      · exact ⟨Nat.lt_succ_self n, fun i hi hless => absurd hless (by omega)⟩

/-- After a counter, the first one whose candidate is free, however far the search has to go. -/
inductive Finds (s : NameSupply) (base separator : String) : Nat → Nat → Prop
  | here {n : Nat} (free : s.isTaken (numbered base separator (n + 1)) = false) :
      Finds s base separator n (n + 1)
  | later {n m : Nat} (taken : s.isTaken (numbered base separator (n + 1)) = true)
      (rest : Finds s base separator (n + 1) m) : Finds s base separator n m

/-- A search that ends at a free candidate was not cut off. -/
theorem finds_of_free
    (h : s.isTaken (numbered base separator (s.nextFree base separator fuel n)) = false) :
    s.Finds base separator n (s.nextFree base separator fuel n) := by
  induction fuel generalizing n with
  | zero => exact .here h
  | succ fuel ih =>
      simp only [nextFree] at h ⊢
      split at h
      · next htaken =>
        rw [if_pos htaken]
        exact .later htaken (ih h)
      · next hfree =>
        rw [if_neg hfree]
        exact .here (Bool.eq_false_iff.mpr hfree)

/-- The counter of a name was raised past taken candidates only. -/
def Dense (s : NameSupply) (separator : String) : Prop :=
  ∀ base n, s.counter? base = some n → ∀ i, 0 < i → i ≤ n →
    s.isTaken (numbered base separator i) = true

/-- The counter that a dense supply finds is the least one, from one on, whose candidate is free. -/
theorem Dense.isLeast_nextFree (h : s.Dense separator) (hbase : s.counter? base = some n) :
    IsLeast {i | 1 ≤ i ∧ s.isTaken (numbered base separator i) = false}
      (s.nextFree base separator s.taken.length n) := by
  obtain ⟨hlt, hbetween⟩ := nextFree_spec s base separator s.taken.length n
  constructor
  · exact ⟨by omega, nextFree_free⟩
  · rintro i ⟨hpos, hfree⟩
    by_contra hless
    have htaken : s.isTaken (numbered base separator i) = true := by
      rcases Nat.lt_or_ge n i with hafter | hbefore
      · exact hbetween i hafter (by omega)
      · exact h base n hbase i hpos hbefore
    rw [hfree] at htaken
    cases htaken

theorem claim_of_counter (h : s.counter? base = some n) :
    (s.claim base separator).1 =
      numbered base separator (s.nextFree base separator s.taken.length n) := by
  simp only [claim, h]

theorem dense_empty : empty.Dense separator := by
  intro base n hbase
  cases hbase

theorem isTaken_reserve :
    (s.reserve name).isTaken k = true ↔ s.isTaken k = true ∨ k = name := by
  simp only [reserve]
  split
  · next htaken =>
    constructor
    · exact Or.inl
    · rintro (hk | rfl)
      · exact hk
      · exact htaken
  · rw [isTaken_record, Bool.or_eq_true, decide_eq_true_eq, or_comm]

theorem Dense.reserve (h : s.Dense separator) (name : String) :
    (s.reserve name).Dense separator := by
  intro base n hbase i hi hle
  apply isTaken_reserve.mpr
  simp only [NameSupply.reserve] at hbase
  split at hbase
  · exact Or.inl (h base n hbase i hi hle)
  · rw [counter?_record] at hbase
    split at hbase
    · cases hbase
      omega
    · exact Or.inl (h base n hbase i hi hle)

theorem Dense.claim (h : s.Dense separator) (base : String) :
    (s.claim base separator).2.Dense separator := by
  intro other m hother i hi hle
  rw [isTaken_claim]
  simp only [NameSupply.claim] at hother ⊢
  cases hbase : s.counter? base with
  | none =>
      rw [hbase] at hother
      simp only [counter?_record] at hother
      split at hother
      · cases hother
        omega
      · exact Or.inl (h other m hother i hi hle)
  | some n =>
      rw [hbase] at hother
      simp only [counter?_record] at hother ⊢
      -- The name handed out starts at zero, and the base goes on at the counter that was found.
      split at hother
      · cases hother
        omega
      · split at hother
        · next heq =>
          cases hother
          subst heq
          rcases Nat.lt_or_eq_of_le hle with hless | rfl
          · left
            by_contra hfree
            have hleast := (h.isLeast_nextFree hbase).2 ⟨hi, Bool.eq_false_iff.mpr hfree⟩
            omega
          · exact Or.inr rfl
        · exact Or.inl (h other m hother i hi hle)

/-- Dense supplies with the same names taken give the same name for a base. -/
theorem Dense.claim_eq (hs : s.Dense separator) (ht : t.Dense separator)
    (hsame : ∀ x, s.isTaken x = true ↔ t.isTaken x = true) (base : String) :
    (s.claim base separator).1 = (t.claim base separator).1 := by
  have hequal : ∀ x, s.isTaken x = t.isTaken x := fun x => Bool.eq_iff_iff.mpr (hsame x)
  cases hbase : s.isTaken base with
  | false =>
      have hbase' : t.isTaken base = false := by rw [← hequal, hbase]
      rw [claim_of_free hbase, claim_of_free hbase']
  | true =>
      obtain ⟨n, hn⟩ := Option.isSome_iff_exists.mp hbase
      obtain ⟨n', hn'⟩ := Option.isSome_iff_exists.mp ((hsame base).mp hbase)
      have hleast := hs.isLeast_nextFree hn
      have hleast' := ht.isLeast_nextFree hn'
      simp only [hequal] at hleast
      rw [claim_of_counter hn, claim_of_counter hn', hleast.unique hleast']

/-- What a supply finds for a base when some names are in use: the base if it is not in use, and
otherwise its candidate with the least counter that is not.  The search starts after the last
counter that was tried and ends there. -/
structure Searches (s : NameSupply) (used : List String) (base separator name : String) :
    Prop where
  base_of_free : base ∉ used → name = base
  candidate_of_taken : base ∈ used → ∃ tried n, s.counter? base = some tried ∧
    s.Finds base separator tried n ∧
    IsLeast {i | 1 ≤ i ∧ numbered base separator i ∉ used} n ∧
    name = numbered base separator n
  fresh : name ∉ used

theorem Dense.searches (h : s.Dense separator)
    (hused : ∀ x, s.isTaken x = true ↔ x ∈ used) (base : String) :
    s.Searches used base separator (s.claim base separator).1 := by
  have hfree : ∀ x, s.isTaken x = false ↔ x ∉ used := fun x => by
    rw [← hused, Bool.not_eq_true]
  constructor
  · intro hbase
    exact claim_of_free ((hfree base).mpr hbase)
  · intro hbase
    obtain ⟨tried, htried⟩ := Option.isSome_iff_exists.mp ((hused base).mpr hbase)
    have hleast := h.isLeast_nextFree htried
    simp only [hfree] at hleast
    exact ⟨tried, _, htried, finds_of_free nextFree_free, hleast, claim_of_counter htried⟩
  · exact (hfree _).mp claim_free

end NameSupply

/-! ## Names asked for one after the other -/

/-- What is asked of a supply. -/
inductive NameRequest
  /-- To hand out a name like a given one. -/
  | unique (base : String)
  /-- To take a name that exists already. -/
  | reserve (name : String)

/-- The names that some requests reserve. -/
def reservedNames : List NameRequest → List String
  | [] => []
  | .unique _ :: rest => reservedNames rest
  | .reserve name :: rest => name :: reservedNames rest

theorem reservedNames_map_unique (bases : List String) :
    reservedNames (bases.map .unique) = [] := by
  induction bases with
  | nil => rfl
  | cons base rest ih => exact ih

namespace NameSupply

variable {s t : NameSupply} {base separator k : String} {requests : List NameRequest}
  {bases more : List String}

/-- The names that are handed out for some requests, and the supply after them. -/
def serve (s : NameSupply) (separator : String) : List NameRequest → List String × NameSupply
  | [] => ([], s)
  | .unique base :: rest =>
    let claimed := s.claim base separator
    let others := claimed.2.serve separator rest
    (claimed.1 :: others.1, others.2)
  | .reserve name :: rest => (s.reserve name).serve separator rest

/-- A name is taken if it was taken before, or if it was handed out or reserved. -/
theorem isTaken_serve :
    (s.serve separator requests).2.isTaken k = true ↔ s.isTaken k = true ∨
      k ∈ (s.serve separator requests).1 ++ reservedNames requests := by
  induction requests generalizing s with
  | nil => simp [serve, reservedNames]
  | cons request rest ih =>
      cases request with
      | unique base =>
          simp only [serve, reservedNames]
          rw [ih, isTaken_claim, List.cons_append, List.mem_cons, or_assoc]
      | reserve name =>
          simp only [serve, reservedNames]
          rw [ih, isTaken_reserve, or_assoc]
          simp only [List.mem_append, List.mem_cons]
          apply or_congr Iff.rfl
          exact or_left_comm

theorem Dense.serve (h : s.Dense separator) (requests : List NameRequest) :
    (s.serve separator requests).2.Dense separator := by
  induction requests generalizing s with
  | nil => exact h
  | cons request rest ih =>
      cases request with
      | unique base => exact ih (h.claim base)
      | reserve name => exact ih (h.reserve name)

/-- No name is handed out twice, and none that was taken before. -/
theorem nodup_serve (s : NameSupply) (separator : String) (requests : List NameRequest) :
    (s.serve separator requests).1.Nodup ∧
      ∀ x ∈ (s.serve separator requests).1, s.isTaken x = false := by
  induction requests generalizing s with
  | nil => simp [serve]
  | cons request rest ih =>
      cases request with
      | unique base =>
          obtain ⟨hnodup, hfresh⟩ := ih (s.claim base separator).2
          have hlater : ∀ x ∈ ((s.claim base separator).2.serve separator rest).1,
              s.isTaken x = false ∧ x ≠ (s.claim base separator).1 := by
            intro x hx
            have hfree := hfresh x hx
            rwa [← Bool.not_eq_true, isTaken_claim, not_or, Bool.not_eq_true] at hfree
          simp only [serve, List.nodup_cons, List.forall_mem_cons]
          refine ⟨⟨?_, hnodup⟩, claim_free, fun x hx => (hlater x hx).1⟩
          intro hagain
          exact (hlater _ hagain).2 rfl
      | reserve name =>
          obtain ⟨hnodup, hfresh⟩ := ih (s.reserve name)
          refine ⟨hnodup, ?_⟩
          intro x hx
          have hfree := hfresh x hx
          rw [← Bool.not_eq_true, isTaken_reserve, not_or, Bool.not_eq_true] at hfree
          exact hfree.1

/-- After any requests, a new supply finds names like a linear search through the names that were
handed out or reserved. -/
theorem searches_serve (separator : String) (requests : List NameRequest) (base : String) :
    (empty.serve separator requests).2.Searches
      ((empty.serve separator requests).1 ++ reservedNames requests) base separator
      ((empty.serve separator requests).2.claim base separator).1 := by
  apply (dense_empty.serve requests).searches
  intro x
  rw [isTaken_serve, isTaken_empty]
  simp

/-! ### Names of variables -/

/-- The name that is asked for with a base. -/
def wanted (base : String) : String := if base.isEmpty then "value" else base

/-- The names for some bases, and the supply after them. -/
def handOut (s : NameSupply) : List String → List String × NameSupply
  | [] => ([], s)
  | base :: rest =>
    let claimed := s.claimVariable base
    let others := claimed.2.handOut rest
    (claimed.1 :: others.1, others.2)

/-- The names that a new supply hands out for some bases. -/
def handedOut (bases : List String) : List String := (empty.handOut bases).1

/-- Names for variables are handed out without a separator, for the names that are wanted. -/
theorem handOut_eq_serve (s : NameSupply) (bases : List String) :
    s.handOut bases = s.serve "" ((bases.map wanted).map .unique) := by
  induction bases generalizing s with
  | nil => rfl
  | cons base rest ih =>
      simp only [handOut, List.map_cons, serve]
      rw [ih]
      rfl

theorem handOut_append (s : NameSupply) (bases more : List String) :
    s.handOut (bases ++ more) =
      ((s.handOut bases).1 ++ ((s.handOut bases).2.handOut more).1,
        ((s.handOut bases).2.handOut more).2) := by
  induction bases generalizing s with
  | nil => rfl
  | cons base rest ih =>
      simp only [List.cons_append, handOut]
      rw [ih]

theorem isTaken_handOut :
    (s.handOut bases).2.isTaken k = true ↔ s.isTaken k = true ∨ k ∈ (s.handOut bases).1 := by
  rw [handOut_eq_serve, isTaken_serve, reservedNames_map_unique, List.append_nil]

/-- What is asked for is taken afterwards. -/
theorem isTaken_wanted_handOut (hbase : base ∈ bases) :
    (s.handOut bases).2.isTaken (wanted base) = true := by
  induction bases generalizing s with
  | nil => cases hbase
  | cons first rest ih =>
      rcases List.mem_cons.mp hbase with rfl | hbase
      · change ((s.claimVariable base).2.handOut rest).2.isTaken (wanted base) = true
        exact isTaken_handOut.mpr (Or.inl isTaken_base_claim)
      · exact ih hbase

theorem exists_base_of_mem_handOut (hname : k ∈ (s.handOut bases).1) :
    ∃ base ∈ bases, k = wanted base ∨ ∃ n, k = numbered (wanted base) "" n := by
  induction bases generalizing s with
  | nil => cases hname
  | cons base rest ih =>
      rcases List.mem_cons.mp hname with rfl | hname
      · exact ⟨base, List.mem_cons_self, claim_cases s (wanted base) ""⟩
      · obtain ⟨other, hother, hmade⟩ := ih hname
        exact ⟨other, List.mem_cons_of_mem _ hother, hmade⟩

/-- A name that is asked for is handed out. -/
theorem wanted_mem_handedOut (hbase : base ∈ bases) : wanted base ∈ handedOut bases := by
  have htaken : (empty.handOut bases).2.isTaken (wanted base) = true :=
    isTaken_wanted_handOut hbase
  rw [isTaken_handOut, isTaken_empty] at htaken
  exact htaken.resolve_left Bool.false_ne_true

theorem Dense.claimVariable (h : s.Dense "") (base : String) :
    (s.claimVariable base).2.Dense "" := h.claim _

theorem Dense.handOut (h : s.Dense "") (bases : List String) :
    (s.handOut bases).2.Dense "" := by
  rw [handOut_eq_serve]
  exact h.serve _

/-- Dense supplies with the same names taken hand out the same names. -/
theorem Dense.handOut_eq (hs : s.Dense "") (ht : t.Dense "")
    (hsame : ∀ x, s.isTaken x = true ↔ t.isTaken x = true) (bases : List String) :
    (s.handOut bases).1 = (t.handOut bases).1 := by
  induction bases generalizing s t with
  | nil => rfl
  | cons base rest ih =>
      have hclaim : (s.claimVariable base).1 = (t.claimVariable base).1 := hs.claim_eq ht hsame _
      have hsame' : ∀ x, (s.claimVariable base).2.isTaken x = true ↔
          (t.claimVariable base).2.isTaken x = true := by
        intro x
        rw [isTaken_claimVariable, isTaken_claimVariable, hsame, hclaim]
      have hrest := ih (hs.claimVariable base) (ht.claimVariable base) hsame'
      simp only [NameSupply.handOut]
      rw [hclaim, hrest]

end NameSupply

/-! ### Names of methods -/

namespace MethodNames

/-- The names that are handed out for some requests, and the names after them. -/
def serve (names : MethodNames) : List NameRequest → List String × MethodNames
  | [] => ([], names)
  | .unique base :: rest =>
    let handed := names.unique base
    let others := handed.2.serve rest
    (handed.1 :: others.1, others.2)
  | .reserve name :: rest => (names.reserve name).serve rest

/-- The names of a class come from one supply, with the separator of the language. -/
theorem serve_eq (names : MethodNames) (requests : List NameRequest) :
    names.serve requests =
      let served := names.supply.serve (separator names.language) requests
      (served.1, ⟨names.language, served.2⟩) := by
  induction requests generalizing names with
  | nil => rfl
  | cons request rest ih =>
      cases request with
      | unique base =>
          simp only [serve, NameSupply.serve]
          rw [ih]
          rfl
      | reserve name =>
          simp only [serve, NameSupply.serve]
          rw [ih]
          rfl

theorem separator_eq (language : Language) :
    separator language = if language = .python then "_" else "" := by
  cases language <;> rfl

end MethodNames

/-- Names are those of a linear search.  Whatever names a class has handed out and reserved before,
and whatever variables a method has, the next name is the base if it is not in use, and otherwise
its candidate with the least counter that is not; no name is handed out twice. -/
theorem names_are_searched_linearly :
    (∀ (language : Language) (requests : List NameRequest) (base : String),
      let served := (MethodNames.new language).serve requests
      let separator := if language = .python then "_" else ""
      served.1.Nodup ∧
        served.2.supply.Searches (served.1 ++ reservedNames requests) base separator
          (served.2.unique base).1) ∧
    ∀ (bases : List String) (base : String),
      let served := NameSupply.empty.handOut bases
      served.1.Nodup ∧
        served.2.Searches served.1 (if base.isEmpty then "value" else base) ""
          (served.2.claimVariable base).1 := by
  constructor
  · intro language requests base served separator
    have hseparator : separator = MethodNames.separator language :=
      (MethodNames.separator_eq language).symm
    have hserved : served = ((NameSupply.empty.serve separator requests).1,
        ⟨language, (NameSupply.empty.serve separator requests).2⟩) := by
      rw [hseparator]
      exact MethodNames.serve_eq (.new language) requests
    have hname : (served.2.unique base).1 =
        ((NameSupply.empty.serve separator requests).2.claim base separator).1 := by
      rw [hserved, hseparator]
      rfl
    rw [hname, hserved]
    exact ⟨(NameSupply.nodup_serve .empty separator requests).1,
      NameSupply.searches_serve separator requests base⟩
  · intro bases base served
    have hserved : served = NameSupply.empty.serve "" ((bases.map NameSupply.wanted).map .unique) :=
      NameSupply.handOut_eq_serve .empty bases
    have hsearches := NameSupply.searches_serve "" ((bases.map NameSupply.wanted).map .unique)
      (NameSupply.wanted base)
    rw [reservedNames_map_unique, List.append_nil, ← hserved] at hsearches
    refine ⟨?_, hsearches⟩
    rw [hserved]
    exact (NameSupply.nodup_serve _ _ _).1

end TestWriter
