/-!
# Maps in insertion order

Association lists without repeated keys.  Writing to a key that is present keeps its position;
a new key comes last.  Main statements: items inserted one after the other are added in the order of
their first appearance; a write changes the value of its key and of no other, and the keys after it
are the old ones with the written one inserted last.
-/

namespace TestWriter

/-- Append an element to a list without repetition, unless it is present. -/
def insertLast {α : Type} [DecidableEq α] (xs : List α) (a : α) : List α :=
  if a ∈ xs then xs else xs ++ [a]

theorem mem_insertLast {α : Type} [DecidableEq α] {xs : List α} {a b : α} :
    b ∈ insertLast xs a ↔ b ∈ xs ∨ b = a := by
  unfold insertLast
  split
  · next h =>
    constructor
    · exact Or.inl
    · rintro (hb | rfl)
      · exact hb
      · exact h
  · simp

theorem nodup_insertLast {α : Type} [DecidableEq α] {xs : List α} (h : xs.Nodup) (a : α) :
    (insertLast xs a).Nodup := by
  unfold insertLast
  split
  · exact h
  · next ha =>
    refine List.nodup_append.2 ⟨h, by simp, ?_⟩
    intro x hx y hy
    have hya : y = a := by simpa using hy
    intro e
    exact ha (hya ▸ e ▸ hx)

section

variable {α : Type} [DecidableEq α]

theorem insertLast_self (xs : List α) (a : α) :
    insertLast (insertLast xs a) a = insertLast xs a :=
  if_pos (mem_insertLast.mpr (Or.inr rfl))

theorem mem_foldl_insertLast {x : α} (items start : List α) :
    x ∈ items.foldl insertLast start ↔ x ∈ start ∨ x ∈ items := by
  induction items generalizing start with
  | nil => simp
  | cons y rest ih =>
      rw [List.foldl_cons, ih, mem_insertLast, List.mem_cons, or_assoc]

theorem nodup_foldl_insertLast (items : List α) {start : List α} (h : start.Nodup) :
    (items.foldl insertLast start).Nodup := by
  induction items generalizing start with
  | nil => exact h
  | cons x rest ih => exact ih (nodup_insertLast h x)

theorem foldl_insertLast_of_nodup {items start : List α} (h : (start ++ items).Nodup) :
    items.foldl insertLast start = start ++ items := by
  induction items generalizing start with
  | nil => simp
  | cons x rest ih =>
      have hx : x ∉ start := fun hx =>
        (List.nodup_append.mp h).2.2 x hx x List.mem_cons_self rfl
      have hinsert : insertLast start x = start ++ [x] := if_neg hx
      rw [List.foldl_cons, hinsert, ih (by simpa using h)]
      simp

/-- Inserting items one after the other adds those that are new, each where it stands first. -/
theorem foldl_insertLast_eq (items start : List α) :
    items.foldl insertLast start =
      start ++ (items.filter fun x => decide (x ∉ start)).eraseDups := by
  induction items generalizing start with
  | nil => simp
  | cons x rest ih =>
      rw [List.foldl_cons, ih]
      by_cases hx : x ∈ start
      · simp [insertLast, hx]
      · rw [List.filter_cons_of_pos (by simpa using hx), List.eraseDups_cons]
        simp only [insertLast, if_neg hx, List.filter_filter, List.append_assoc,
          List.singleton_append]
        congr 3
        apply List.filter_congr
        intro y _
        by_cases hy : y = x <;> simp [hy]

theorem prefix_foldl_insertLast (items start : List α) :
    start <+: items.foldl insertLast start :=
  ⟨_, (foldl_insertLast_eq items start).symm⟩

theorem foldl_insertLast_of_subset {items start : List α} (h : items ⊆ start) :
    items.foldl insertLast start = start := by
  have hnone : (items.filter fun x => decide (x ∉ start)) = [] :=
    List.filter_eq_nil_iff.mpr fun x hx => by simp [h hx]
  rw [foldl_insertLast_eq, hnone, List.eraseDups_nil, List.append_nil]

end

/-- Keys with their values, in the order in which the keys were first written. -/
structure OrderedMap (α β : Type) where
  entries : List (α × β)
  deriving DecidableEq, Repr

namespace OrderedMap

variable {α β : Type}

/-- The map without entries. -/
def empty : OrderedMap α β := ⟨[]⟩

instance : Inhabited (OrderedMap α β) := ⟨empty⟩

/-- Whether there are no entries. -/
def isEmpty (m : OrderedMap α β) : Bool := m.entries.isEmpty

/-- The keys in order. -/
def keys (m : OrderedMap α β) : List α := m.entries.map Prod.fst

/-- The values in order. -/
def values (m : OrderedMap α β) : List β := m.entries.map Prod.snd

variable [DecidableEq α]

/-- The value of a key. -/
def get? (m : OrderedMap α β) (key : α) : Option β :=
  (m.entries.find? fun entry => entry.1 = key).map Prod.snd

/-- Change the value of a key, starting from `none` when the key is new. -/
def alterEntries (key : α) (f : Option β → β) : List (α × β) → List (α × β)
  | [] => [(key, f none)]
  | entry :: rest =>
    if entry.1 = key then (key, f (some entry.2)) :: rest
    else entry :: alterEntries key f rest

/-- Change the value of a key, starting from `none` when the key is new. -/
def alter (m : OrderedMap α β) (key : α) (f : Option β → β) : OrderedMap α β :=
  ⟨alterEntries key f m.entries⟩

/-- Write a value to a key. -/
def set (m : OrderedMap α β) (key : α) (value : β) : OrderedMap α β :=
  m.alter key fun _ => value

/-- Write some entries one after the other. -/
def ofList (entries : List (α × β)) : OrderedMap α β :=
  entries.foldl (fun m entry => m.set entry.1 entry.2) empty

/-- Whether two maps have the same values at the same keys, whatever their order. -/
def same [DecidableEq β] (m n : OrderedMap α β) : Bool :=
  m.entries.length == n.entries.length &&
    m.entries.all fun entry => n.get? entry.1 = some entry.2

theorem get?_alter (m : OrderedMap α β) (key k : α) (f : Option β → β) :
    (m.alter key f).get? k = if k = key then some (f (m.get? key)) else m.get? k := by
  obtain ⟨entries⟩ := m
  simp only [alter, get?]
  induction entries with
  | nil =>
    by_cases h : k = key
    · subst h; simp [alterEntries]
    · have hk : ¬key = k := fun e => h e.symm
      simp [alterEntries, h, hk]
  | cons entry rest ih =>
    unfold alterEntries
    by_cases he : entry.1 = key
    · by_cases h : k = key
      · subst h; simp [he]
      · have hk : ¬key = k := fun e => h e.symm
        simp [he, h, hk]
    · by_cases h : entry.1 = k
      · have hk : ¬k = key := fun e => he (h.trans e)
        simp [h, hk]
      · simp only [he, if_false, List.find?_cons, h, decide_false]
        exact ih

/-- Without repeated keys, an entry is what its key is looked up as. -/
theorem mem_entries_iff {m : OrderedMap α β} (h : m.keys.Nodup) {key : α} {value : β} :
    (key, value) ∈ m.entries ↔ m.get? key = some value := by
  obtain ⟨entries⟩ := m
  simp only [keys, get?] at h ⊢
  induction entries with
  | nil => simp
  | cons entry rest ih =>
      obtain ⟨hfresh, hrest⟩ := List.nodup_cons.mp h
      by_cases hkey : entry.1 = key
      · subst hkey
        have habsent : (entry.1, value) ∉ rest := fun hmem =>
          hfresh (List.mem_map.mpr ⟨_, hmem, rfl⟩)
        simp [habsent, Prod.ext_iff, eq_comm]
      · have hne : (key, value) ≠ entry := by
          rintro rfl
          exact hkey rfl
        simp [hkey, hne, ih hrest]

/-- A map without repeated keys is read off its keys. -/
theorem entries_eq_map {m : OrderedMap α β} (hkeys : m.keys.Nodup) {value : α → β}
    (h : ∀ k ∈ m.keys, m.get? k = some (value k)) :
    m.entries = m.keys.map fun k => (k, value k) := by
  rw [keys, List.map_map]
  refine (List.map_id' _).symm.trans (List.map_congr_left fun entry hentry => ?_)
  have hvalue := h entry.1 (List.mem_map_of_mem hentry)
  have hfound : m.get? entry.1 = some entry.2 := (mem_entries_iff hkeys).mp hentry
  exact Prod.ext rfl (Option.some.inj (hfound.symm.trans hvalue))

theorem get?_set (m : OrderedMap α β) (key k : α) (value : β) :
    (m.set key value).get? k = if k = key then some value else m.get? k :=
  get?_alter m key k fun _ => value

theorem keys_alter (m : OrderedMap α β) (key : α) (f : Option β → β) :
    (m.alter key f).keys = insertLast m.keys key := by
  obtain ⟨entries⟩ := m
  simp only [alter, keys]
  induction entries with
  | nil => simp [alterEntries, insertLast]
  | cons entry rest ih =>
    unfold alterEntries
    by_cases h : entry.1 = key
    · subst h; simp [insertLast]
    · have hk : ¬key = entry.1 := fun e => h e.symm
      simp only [h, if_false, List.map_cons, ih]
      unfold insertLast
      by_cases hm : key ∈ rest.map Prod.fst
      · simp [hm]
      · simp only [hm, if_false, List.mem_cons, hk, or_self]
        rfl

/-- A new key comes last. -/
theorem set_of_notMem {m : OrderedMap α β} {key : α} (h : key ∉ m.keys) (value : β) :
    m.set key value = ⟨m.entries ++ [(key, value)]⟩ := by
  obtain ⟨entries⟩ := m
  simp only [set, alter, keys] at h ⊢
  induction entries with
  | nil => rfl
  | cons entry rest ih =>
      rw [List.map_cons, List.mem_cons, not_or] at h
      have hother : ¬entry.1 = key := fun heq => h.1 heq.symm
      rw [alterEntries, if_neg hother, mk.inj (ih h.2)]
      rfl

/-- Entries without repeated keys are written as they are. -/
theorem ofList_of_nodup {entries : List (α × β)} (h : (entries.map Prod.fst).Nodup) :
    ofList entries = ⟨entries⟩ := by
  have hfold : ∀ before : List (α × β), ((before ++ entries).map Prod.fst).Nodup →
      entries.foldl (fun m entry => m.set entry.1 entry.2) (⟨before⟩ : OrderedMap α β) =
        ⟨before ++ entries⟩ := by
    clear h
    induction entries with
    | nil => simp
    | cons entry rest ih =>
        intro before hnodup
        have hfresh : entry.1 ∉ before.map Prod.fst := by
          rw [List.map_append, List.nodup_append] at hnodup
          exact fun hmem => hnodup.2.2 _ hmem _ List.mem_cons_self rfl
        rw [List.foldl_cons, set_of_notMem hfresh, ih _ (by simpa using hnodup)]
        simp
  exact hfold [] h

end OrderedMap

end TestWriter
