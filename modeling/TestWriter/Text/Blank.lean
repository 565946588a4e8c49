/-!
# Blank and control characters

White space and control characters of Unicode, and trimming.
-/

namespace TestWriter.Text

/-- Whether a character has the property White_Space. -/
def isBlank (c : Char) : Bool :=
  let n := c.toNat
  (0x9 ≤ n && n ≤ 0xd) || n == 0x20 || n == 0x85 || n == 0xa0 || n == 0x1680 ||
    (0x2000 ≤ n && n ≤ 0x200a) || n == 0x2028 || n == 0x2029 || n == 0x202f || n == 0x205f ||
    n == 0x3000

/-- Whether a character is a control character (general category Cc). -/
def isControl (c : Char) : Bool :=
  c.toNat < 0x20 || (0x7f ≤ c.toNat && c.toNat ≤ 0x9f)

/-- Dropping characters at either end a second time changes nothing. -/
theorem stripped_twice (p : Char → Bool) (cs : List Char) :
    let strip := fun cs : List Char => ((cs.dropWhile p).reverse.dropWhile p).reverse
    strip (strip cs) = strip cs := by
  intro strip
  have hself : ∀ xs : List Char, (∀ c, xs.head? = some c → p c = false) → xs.dropWhile p = xs := by
    intro xs hxs
    cases xs with
    | nil => rfl
    | cons c rest => rw [List.dropWhile_cons_of_neg (by simp [hxs c rfl])]
  have hhead : ∀ (xs : List Char) c, (xs.dropWhile p).head? = some c → p c = false := by
    intro xs c hc
    have hnot := List.head?_dropWhile_not p xs
    rw [hc] at hnot
    exact hnot
  -- what is left is a prefix of what was left in front, so it begins with the same character
  have hprefix : strip cs <+: cs.dropWhile p := by
    have hsuffix := List.dropWhile_suffix p (l := (cs.dropWhile p).reverse)
    rwa [← List.reverse_prefix, List.reverse_reverse] at hsuffix
  have hfront : (strip cs).dropWhile p = strip cs := by
    refine hself _ fun c hc => hhead cs c ?_
    obtain ⟨rest, hrest⟩ := hprefix
    rw [← hrest, List.head?_append, hc]
    rfl
  change (((strip cs).dropWhile p).reverse.dropWhile p).reverse = _
  rw [hfront]
  change ((((cs.dropWhile p).reverse.dropWhile p).reverse).reverse.dropWhile p).reverse = _
  rw [List.reverse_reverse, hself _ (hhead _)]

/-- Characters without the blanks at either end. -/
def trim (cs : List Char) : List Char :=
  ((cs.dropWhile isBlank).reverse.dropWhile isBlank).reverse

theorem trim_trim (cs : List Char) : trim (trim cs) = trim cs :=
  stripped_twice isBlank cs

theorem trim_cons_of_isBlank {c : Char} (hc : isBlank c = true) (cs : List Char) :
    trim (c :: cs) = trim cs := by
  rw [trim, List.dropWhile_cons_of_pos hc, trim]

theorem mem_of_mem_trim {c : Char} {cs : List Char} (h : c ∈ trim cs) : c ∈ cs := by
  have hfront : c ∈ cs.dropWhile isBlank :=
    List.mem_reverse.mp ((List.dropWhile_suffix isBlank).subset (List.mem_reverse.mp h))
  exact (List.dropWhile_suffix isBlank).subset hfront

end TestWriter.Text
