import TestWriter.Names

/-!
# Names are fresh

Candidates of different counters differ, so among one more of them than there are names taken one
is free.  Main statements: a claimed name was free before, it is taken afterwards, and no other name
changes.
-/

namespace TestWriter

theorem isDigit_of_mem_toString {n : Nat} {c : Char} (h : c ∈ (toString n).toList) :
    c.isDigit = true := by
  have hdigits : (toString n).toList = Nat.toDigits 10 n := Nat.toList_repr
  rw [hdigits] at h
  exact Nat.isDigit_of_mem_toDigits (by omega) (by omega) h

namespace NameSupply

variable {s : NameSupply} {base separator k : String} {m n fuel : Nat}

theorem numbered_injective (h : numbered base separator m = numbered base separator n) : m = n := by
  simp only [numbered] at h
  have hrepr : m.repr.toList = n.repr.toList :=
    congrArg String.toList ((String.append_right_inj _).mp h)
  rw [Nat.toList_repr, Nat.toList_repr] at hrepr
  have hvalue := congrArg (fun digits => Nat.ofDigitChars 10 digits 0) hrepr
  simpa only [Nat.ofDigitChars_ten_toDigits] using hvalue

theorem isTaken_iff : s.isTaken k = true ↔ k ∈ s.taken.map Prod.fst := by
  simp only [isTaken, counter?]
  rw [List.lookup_isSome_iff]
  simp only [List.mem_map, beq_iff_eq]
  constructor
  · rintro ⟨entry, hentry, rfl⟩
    exact ⟨entry, hentry, rfl⟩
  · rintro ⟨entry, hentry, rfl⟩
    exact ⟨entry, hentry, rfl⟩

/-- When the candidate that is found is taken, all the candidates before it are taken as well. -/
theorem isTaken_of_nextFree_taken
    (h : s.isTaken (numbered base separator (s.nextFree base separator fuel n)) = true) :
    ∀ i ≤ fuel, s.isTaken (numbered base separator (n + 1 + i)) = true := by
  induction fuel generalizing n with
  | zero =>
      intro i hi
      have hzero : i = 0 := by omega
      subst hzero
      exact h
  | succ fuel ih =>
      simp only [nextFree] at h
      split at h
      · next htaken =>
        intro i hi
        cases i with
        | zero => exact htaken
        | succ i =>
            have hnext := ih h i (by omega)
            rwa [show n + 1 + (i + 1) = n + 1 + 1 + i by omega]
      · next hfree => exact absurd h hfree

/-- The candidate that is found is free: there are too few names for all candidates to be taken. -/
theorem nextFree_free :
    s.isTaken (numbered base separator (s.nextFree base separator s.taken.length n)) = false := by
  apply Bool.eq_false_iff.mpr
  intro htaken
  have hall := isTaken_of_nextFree_taken htaken
  let candidates := (List.range (s.taken.length + 1)).map fun i =>
    numbered base separator (n + 1 + i)
  have hnodup : candidates.Nodup := by
    refine List.pairwise_map.mpr (List.nodup_range.imp ?_)
    intro i j hij hname
    have hindex := numbered_injective hname
    omega
  have hsubset : candidates ⊆ s.taken.map Prod.fst := by
    intro name hname
    obtain ⟨i, hi, rfl⟩ := List.mem_map.mp hname
    exact isTaken_iff.mp (hall i (by have := List.mem_range.mp hi; omega))
  have hlength := hnodup.length_le_of_subset hsubset
  simp only [candidates, List.length_map, List.length_range] at hlength
  omega

/-- A claimed name was free before. -/
theorem claim_free : s.isTaken (s.claim base separator).1 = false := by
  simp only [claim]
  cases h : s.counter? base with
  | none => simp [isTaken, h]
  | some n => exact nextFree_free

/-- Claiming a name takes it and no other name. -/
theorem isTaken_claim :
    (s.claim base separator).2.isTaken k = true ↔
      s.isTaken k = true ∨ k = (s.claim base separator).1 := by
  simp only [claim]
  cases h : s.counter? base with
  | none =>
      dsimp only
      rw [isTaken_record, Bool.or_eq_true, decide_eq_true_eq, or_comm]
  | some n =>
      have hbase : s.isTaken base = true := by simp [isTaken, h]
      dsimp only
      rw [isTaken_record, isTaken_record]
      simp only [Bool.or_eq_true, decide_eq_true_eq]
      constructor
      · rintro (rfl | rfl | hk)
        · exact Or.inr rfl
        · exact Or.inl hbase
        · exact Or.inl hk
      · rintro (hk | rfl)
        · exact Or.inr (Or.inr hk)
        · exact Or.inl rfl

/-- A free name is claimed as it is. -/
theorem claim_of_free (h : s.isTaken base = false) : (s.claim base separator).1 = base := by
  have hnone : s.counter? base = none := by simpa [isTaken] using h
  simp only [claim]
  rw [hnone]

theorem claim_cases (s : NameSupply) (base separator : String) :
    (s.claim base separator).1 = base ∨
    ∃ n, (s.claim base separator).1 = numbered base separator n := by
  simp only [claim]
  cases s.counter? base with
  | none => exact Or.inl rfl
  | some n => exact Or.inr ⟨_, rfl⟩

/-- A base is taken once a name was made from it. -/
theorem isTaken_base_claim : (s.claim base separator).2.isTaken base = true := by
  simp only [claim]
  cases s.counter? base with
  | none => simp [isTaken_record]
  | some n => simp [isTaken_record]

theorem claimVariable_free : s.isTaken (s.claimVariable base).1 = false := claim_free

theorem isTaken_claimVariable :
    (s.claimVariable base).2.isTaken k = true ↔
      s.isTaken k = true ∨ k = (s.claimVariable base).1 :=
  isTaken_claim

theorem claimVariable_of_free (hbase : base ≠ "") (h : s.isTaken base = false) :
    (s.claimVariable base).1 = base := by
  simp only [claimVariable]
  have hempty : base.isEmpty = false := by simpa using hbase
  rw [hempty, if_neg Bool.false_ne_true]
  exact claim_of_free h

/-- No variable has an empty name. -/
theorem claimVariable_ne_empty : (s.claimVariable base).1 ≠ "" := by
  have hbase : (if base.isEmpty then "value" else base) ≠ "" := by
    split
    · decide
    · next h => simpa using h
  simp only [claimVariable, claim]
  generalize (if base.isEmpty then "value" else base) = name at hbase
  cases s.counter? name with
  | none => exact hbase
  | some n =>
      intro hname
      have hlength := congrArg String.length hname
      have hpos : 0 < name.length := by
        have hne : name.length ≠ 0 := fun h => hbase (String.length_eq_zero_iff.mp h)
        omega
      simp only [numbered, String.length_append, String.length_empty] at hlength
      omega

theorem isTaken_empty : NameSupply.empty.isTaken k = false := rfl

end NameSupply

end TestWriter
