/-!
# Lines and parts of a text

A line feed ends a line, a carriage return right before it belongs to the line end, and the text
after the last line feed is a line only when it is not empty.  Parts are what a separator
character leaves between its occurrences.  Main statements: no part holds the separator, the parts
joined by it are the text, and a text is cut exactly where a pattern stands for the first time.
-/

namespace TestWriter.Text

/-- The texts between line ends; at least one, the last of them empty after a final line end. -/
def lineParts : List Char → List (List Char)
  | [] => [[]]
  | '\r' :: '\n' :: rest => [] :: lineParts rest
  | '\n' :: rest => [] :: lineParts rest
  | c :: rest =>
    match lineParts rest with
    | [] => [[c]]
    | part :: more => (c :: part) :: more

/-- The lines of a text, without their ends. -/
def lines (s : String) : List String :=
  let parts := lineParts s.toList
  (if parts.getLast? = some [] then parts.dropLast else parts).map String.ofList

/-- The parts of a text between the occurrences of a separator; at least one. -/
def parts (separator : Char) : List Char → List (List Char)
  | [] => [[]]
  | c :: rest =>
    if c = separator then [] :: parts separator rest
    else
      match parts separator rest with
      | [] => [[c]]
      | part :: more => (c :: part) :: more

theorem parts_ne_nil (separator : Char) (cs : List Char) : parts separator cs ≠ [] := by
  cases cs with
  | nil => simp [parts]
  | cons c rest =>
    unfold parts
    split
    · simp
    · split <;> simp

theorem not_mem_of_mem_parts {separator : Char} {cs part : List Char}
    (h : part ∈ parts separator cs) : separator ∉ part := by
  induction cs generalizing part with
  | nil =>
    have hp : part = [] := by simpa [parts] using h
    simp [hp]
  | cons c rest ih =>
    unfold parts at h
    by_cases hc : c = separator
    · rcases List.mem_cons.1 (by simpa [hc] using h) with rfl | h
      · simp
      · exact ih h
    · obtain ⟨p, more, hp⟩ := List.exists_cons_of_ne_nil (parts_ne_nil separator rest)
      simp only [hc, if_false, hp] at h
      rcases List.mem_cons.1 h with rfl | h
      · have hs : ¬separator = c := fun e => hc e.symm
        simp only [List.mem_cons, hs, false_or]
        exact ih (hp ▸ List.mem_cons_self ..)
      · exact ih (hp ▸ List.mem_cons_of_mem _ h)

theorem parts_of_notMem {separator : Char} {cs : List Char} (h : separator ∉ cs) :
    parts separator cs = [cs] := by
  induction cs with
  | nil => rfl
  | cons c rest ih =>
      obtain ⟨hc, hrest⟩ := not_or.mp (mt List.mem_cons.mpr h)
      rw [parts, if_neg (Ne.symm hc), ih hrest]

/-- A separator keeps the parts before it and after it apart. -/
theorem parts_append_cons {separator : Char} (before after : List Char) :
    parts separator (before ++ separator :: after) =
      parts separator before ++ parts separator after := by
  induction before with
  | nil => simp [parts]
  | cons c rest ih =>
      rw [List.cons_append, parts, parts]
      split
      · rw [ih, List.cons_append]
      · obtain ⟨part, more, hparts⟩ :=
          List.exists_cons_of_ne_nil (parts_ne_nil separator rest)
        rw [ih, hparts]
        rfl

theorem parts_cons_of_ne {separator c : Char} (hc : c ≠ separator) {cs part : List Char}
    {more : List (List Char)} (h : parts separator cs = part :: more) :
    parts separator (c :: cs) = (c :: part) :: more := by
  rw [parts, if_neg hc, h]

/-- What follows a text without a separator belongs to its last part. -/
theorem exists_parts_append (separator : Char) (text : List Char) :
    ∃ init last, ∀ more, separator ∉ more →
      parts separator (text ++ more) = init ++ [last ++ more] := by
  induction text with
  | nil => exact ⟨[], [], fun more hmore => parts_of_notMem hmore⟩
  | cons c text ih =>
      obtain ⟨init, last, hparts⟩ := ih
      by_cases hc : c = separator
      · refine ⟨[] :: init, last, fun more hmore => ?_⟩
        rw [List.cons_append, parts, if_pos hc, hparts more hmore, List.cons_append]
      · cases init with
        | nil => exact ⟨[], c :: last, fun more hmore => parts_cons_of_ne hc (hparts more hmore)⟩
        | cons part init =>
            exact ⟨(c :: part) :: init, last, fun more hmore =>
              parts_cons_of_ne hc (hparts more hmore)⟩

/-- The part after the last separator. -/
def lastPart (separator : Char) (cs : List Char) : List Char :=
  ((parts separator cs).getLast?).getD []

/-- The texts before and after the first occurrence of a pattern, if it occurs. -/
def cut? (pattern : List Char) : List Char → Option (List Char × List Char)
  | [] => if pattern.isEmpty then some ([], []) else none
  | c :: rest =>
    if pattern.isPrefixOf (c :: rest) then some ([], (c :: rest).drop pattern.length)
    else (cut? pattern rest).map fun (before, after) => (c :: before, after)

/-- Split a text at the last occurrence of a separator, if there is one. -/
def splitLast? (separator : Char) (cs : List Char) : Option (List Char × List Char) :=
  let after := (cs.reverse.takeWhile (· ≠ separator)).reverse
  match cs.reverse.dropWhile (· ≠ separator) with
  | [] => none
  | _ :: before => some (before.reverse, after)

/-- A text is split at its last separator. -/
theorem splitLast?_append {separator : Char} (before : List Char) {after : List Char}
    (h : separator ∉ after) :
    splitLast? separator (before ++ separator :: after) = some (before, after) := by
  have hreverse : (before ++ separator :: after).reverse =
      after.reverse ++ separator :: before.reverse := by simp
  have hne : ∀ c ∈ after.reverse, decide (c ≠ separator) = true := by
    intro c hc
    have hmem : c ∈ after := List.mem_reverse.mp hc
    exact decide_eq_true fun heq => h (heq ▸ hmem)
  simp only [splitLast?, hreverse]
  rw [List.takeWhile_append_of_pos hne, List.dropWhile_append_of_pos hne]
  simp

/-! ## First occurrences -/

/-- Behind a text a pattern stands for the first time: in both together it occurs at the end
only. -/
def FirstBehind (before pattern : List Char) : Prop :=
  ∀ u v, before ++ pattern = u ++ pattern ++ v → v = []

section

variable {pattern text before after rest : List Char} {c : Char}

theorem firstBehind_nil : FirstBehind [] pattern := by
  intro u v h
  have hlength := congrArg List.length h
  simp only [List.nil_append, List.length_append] at hlength
  exact List.length_eq_zero_iff.mp (by omega)

/-- A character more in front leaves the first time where it is, unless the pattern begins there. -/
theorem firstBehind_cons_iff : FirstBehind (c :: before) pattern ↔
    ¬pattern <+: c :: (before ++ pattern) ∧ FirstBehind before pattern := by
  constructor
  · intro hfirst
    constructor
    · rintro ⟨v, heq⟩
      obtain rfl := hfirst [] v heq.symm
      have hlength := congrArg List.length heq
      simp only [List.append_nil, List.length_cons, List.length_append] at hlength
      omega
    · intro u v heq
      apply hfirst (c :: u) v
      rw [List.cons_append, heq]
      rfl
  · rintro ⟨hmatch, hfirst⟩ u v heq
    cases u with
    | nil => exact absurd ⟨v, heq.symm⟩ hmatch
    | cons d u =>
        rw [List.cons_append, List.cons_append, List.cons_append, List.cons.injEq] at heq
        exact hfirst u v heq.2

/-- A text is cut where the pattern stands for the first time. -/
theorem cut?_eq_some_iff : cut? pattern text = some (before, after) ↔
    text = before ++ pattern ++ after ∧ FirstBehind before pattern := by
  induction text generalizing before with
  | nil =>
      have hnil : [] = before ++ pattern ++ after ↔ before = [] ∧ pattern = [] ∧ after = [] := by
        rw [eq_comm, List.append_eq_nil_iff, List.append_eq_nil_iff, and_assoc]
      rw [hnil, cut?]
      split
      · next hempty =>
        obtain rfl := List.isEmpty_iff.mp hempty
        constructor
        · intro h
          cases h
          exact ⟨⟨rfl, rfl, rfl⟩, firstBehind_nil⟩
        · rintro ⟨⟨rfl, -, rfl⟩, -⟩
          rfl
      · next hpattern =>
        constructor
        · nofun
        · rintro ⟨⟨-, rfl, -⟩, -⟩
          exact absurd rfl hpattern
  | cons c rest ih =>
      rw [cut?]
      split
      · next hmatch =>
        obtain ⟨tail, htail⟩ := List.isPrefixOf_iff_prefix.mp hmatch
        rw [← htail, List.drop_left]
        constructor
        · intro h
          cases h
          exact ⟨rfl, firstBehind_nil⟩
        · rintro ⟨htext, hfirst⟩
          cases before with
          | nil => rw [List.append_cancel_left htext]
          | cons d before =>
              refine absurd ?_ (firstBehind_cons_iff.mp hfirst).1
              apply List.prefix_of_prefix_length_le ⟨tail, htext⟩ (List.prefix_append _ after)
              simp only [List.length_cons, List.length_append]
              omega
      · next hmatch =>
        have hmatch : ¬pattern <+: c :: rest := mt List.isPrefixOf_iff_prefix.mpr hmatch
        rw [Option.map_eq_some_iff]
        constructor
        · rintro ⟨⟨a, b⟩, h, heq⟩
          cases heq
          obtain ⟨rfl, hfirst⟩ := ih.mp h
          refine ⟨rfl, firstBehind_cons_iff.mpr ⟨fun hbegins => hmatch ?_, hfirst⟩⟩
          exact hbegins.trans ⟨after, rfl⟩
        · rintro ⟨htext, hfirst⟩
          cases before with
          | nil => exact absurd ⟨after, htext.symm⟩ hmatch
          | cons d before =>
              rw [List.cons_append, List.cons_append, List.cons.injEq] at htext
              obtain ⟨rfl, rfl⟩ := htext
              refine ⟨(before, after), ih.mpr ⟨rfl, (firstBehind_cons_iff.mp hfirst).2⟩, rfl⟩

theorem cut?_eq_none_iff : cut? pattern text = none ↔ ¬pattern <:+: text := by
  induction text with
  | nil =>
      rw [cut?, List.infix_nil]
      cases pattern <;> simp
  | cons c rest ih =>
      rw [cut?, List.infix_cons_iff]
      split
      · next hmatch => simp [List.isPrefixOf_iff_prefix.mp hmatch]
      · next hmatch =>
        rw [Option.map_eq_none_iff, ih, not_or]
        exact (and_iff_right (mt List.isPrefixOf_iff_prefix.mpr hmatch)).symm

/-- A pattern stands for the first time behind a text without one of its characters. -/
theorem firstBehind_of_notMem {mark : Char} {head tail : List Char} (hhead : mark ∉ head)
    (hbefore : mark ∉ before) : FirstBehind before (head ++ mark :: tail) := by
  intro u v heq
  have hcount := congrArg (List.count mark) heq
  simp only [List.count_append, List.count_cons_self, List.count_eq_zero.mpr hbefore] at hcount
  have hu : mark ∉ u := List.count_eq_zero.mp (by omega)
  have htake : ∀ xs rest : List Char, mark ∉ xs →
      (xs ++ mark :: rest).takeWhile (· ≠ mark) = xs := by
    intro xs rest hxs
    have hne : ∀ c ∈ xs, decide (c ≠ mark) = true := fun c hc => by
      exact decide_eq_true fun heq => hxs (heq ▸ hc)
    rw [List.takeWhile_append_of_pos hne]
    simp
  have hleft := htake (before ++ head) tail (by simp [hbefore, hhead])
  have hright := htake (u ++ head) (tail ++ v) (by simp [hu, hhead])
  have hsame : before ++ head ++ mark :: tail = u ++ head ++ mark :: (tail ++ v) := by
    simpa using heq
  rw [hsame, hright] at hleft
  obtain rfl := List.append_cancel_right hleft
  simpa using heq

/-- A pattern that is not in a text does not begin there either when a character follows that the
pattern does not have. -/
theorem FirstBehind.append_cons (h : FirstBehind rest pattern) (htext : ¬pattern <:+: text)
    (hc : c ∉ pattern) : FirstBehind (text ++ c :: rest) pattern := by
  induction text with
  | nil =>
      refine firstBehind_cons_iff.mpr ⟨?_, h⟩
      intro hmatch
      cases pattern with
      | nil => exact htext List.nil_infix
      | cons d pattern =>
          rw [List.cons_prefix_cons] at hmatch
          exact hc (hmatch.1 ▸ List.mem_cons_self)
  | cons d text ih =>
      rw [List.infix_cons_iff, not_or] at htext
      refine firstBehind_cons_iff.mpr ⟨?_, ih htext.2⟩
      intro hmatch
      have hlonger : d :: text ++ [c] <+: d :: (text ++ c :: rest ++ pattern) :=
        ⟨rest ++ pattern, by simp⟩
      rcases List.prefix_or_prefix_of_prefix hmatch hlonger with hwithin | hbeyond
      · rcases List.prefix_concat_iff.mp hwithin with heq | hwithin
        · exact hc (heq ▸ by simp)
        · exact htext.1 hwithin
      · exact hc (hbeyond.subset (by simp))

end

end TestWriter.Text
