import TestWriter.Proofs.PlainEvidence
import TestWriter.Proofs.ThinnedJson

/-!
# Evidence reads back

Encoded evidence is read back as it was, and nothing changes when members that hold their defaults
are left out, wherever they stand.  Floating point numbers that are not finite are written as `null`
and are not read back.  Main statement: every test set without floating point numbers is read back
from the text of its encoding and of everything that is thinned from it, as far as the reader
follows the nesting.
-/

namespace TestWriter

open Json (ReadsBack Kept Part)

variable {bound : Nat}

/-! ## Classes, types and executables -/

namespace Json

theorem readsBack_string (s : String) : ReadsBack bound .leaf string? (.string s) s :=
  .leaf rfl

theorem readsBack_list {α : Type} {p : Part} {decode : Json → Option α} {encode : α → Json}
    {xs : List α} (h : ∀ x ∈ xs, ReadsBack bound p decode (encode x) x) :
    ReadsBack bound (.each p) (list? decode) (list encode xs) xs :=
  (ReadsBack.elements h).weaken (Nat.le_succ _)

theorem readsBack_strings (xs : List String) :
    ReadsBack bound .leaf (list? string?) (list string xs) xs :=
  have hlist := readsBack_list (p := .leaf) fun s (_ : s ∈ xs) => readsBack_string s
  .leaf (hlist _ (.same _ _) (Nat.le_refl _))

theorem string_ne_null (s : String) : string s ≠ .null := by
  simp

/-- A list whose encoding is empty is empty. -/
theorem eq_nil_of_list {α : Type} {encode : α → Json} {xs : List α}
    (h : some (Json.array []) = some (list encode xs)) : [] = xs := by
  have hmap : xs.map encode = [] := Json.array.inj (Option.some.inj h.symm)
  exact (List.map_eq_nil_iff.mp hmap).symm

/-- When all names of a table are read back, they differ. -/
theorem eq_of_enumName {α : Type} [DecidableEq α] {table : List (String × α)} {access : Access}
    (hread : ∀ a, enumBy? access table (enumName table a) = some a) {a b : α}
    (h : some (enumName table a) = some (enumName table b)) : a = b := by
  have hsame := congrArg (enumBy? access table) (Option.some.inj h)
  rw [hread, hread] at hsame
  exact Option.some.inj hsame

theorem intIn?_int {low high n : Int} (hlow : low ≤ n) (hhigh : n ≤ high) :
    (int n).intIn? low high = some n :=
  if_pos ⟨hlow, hhigh⟩

theorem uint64?_int {n : Nat} (h : n < UInt64.size) : (int n).uint64? = some n := by
  have hhigh : (n : Int) ≤ UInt64.size - 1 := by omega
  rw [uint64?, intIn?_int (Int.natCast_nonneg n) hhigh]
  rfl

end Json

theorem Primitive.enumBy?_enumName (access : Json.Access) (p : Primitive) :
    Json.enumBy? access names (Json.enumName names p) = some p := by
  cases p <;> rfl

theorem Invocation.enumBy?_enumName (access : Json.Access) (kind : Invocation) :
    Json.enumBy? access names (Json.enumName names kind) = some kind := by
  cases kind <;> rfl

theorem FailureKind.enumBy?_enumName (access : Json.Access) (kind : FailureKind) :
    Json.enumBy? access names (Json.enumName names kind) = some kind := by
  cases kind <;> rfl

theorem ClassName.readsBack (c : ClassName) : ReadsBack bound .className ofJson? c.toJson c := by
  refine .record (by simp) fun kept h => ?_
  have hpackage : kept.withDefault "package" Json.string? "" = some c.package :=
    h.withDefault 0 rfl (Json.readsBack_string _) fun h => Json.string.inj (Option.some.inj h)
  have hname : kept.required "name" Json.string? = some c.name :=
    h.required 1 rfl (Json.readsBack_string _) rfl
  simp [ofJson?, Json.fields?, hpackage, hname]

namespace DataType

theorem readsBack (t : DataType) (access : Json.Access) :
    ∀ fuel, ReadsBack fuel .dataType (read? fuel access) t.toJson t := by
  induction t with
  | array element ih =>
      refine .of_succ fun fuel => .object (by simp) fun kept h => ?_
      obtain ⟨j', hthins, hdepth, htagged⟩ := h.exists_tagged? rfl rfl
      simp only [read?, Json.fields?, htagged, Option.bind_eq_bind, Option.bind_some]
      rw [ih fuel j' hthins hdepth]
      rfl
  | ofClass c =>
      refine .of_succ fun fuel => .object (by simp) fun kept h => ?_
      obtain ⟨j', hthins, hdepth, htagged⟩ := h.exists_tagged? rfl rfl
      simp only [read?, Json.fields?, htagged, Option.bind_eq_bind, Option.bind_some]
      rw [c.readsBack j' hthins hdepth]
      rfl
  | primitive p =>
      refine .of_succ fun fuel => .object (by simp) fun kept h => ?_
      obtain ⟨j', hthins, hdepth, htagged⟩ := h.exists_tagged? rfl rfl
      simp only [read?, Json.fields?, htagged, Option.bind_eq_bind, Option.bind_some]
      cases hthins.eq_of_leaf
      exact congrArg (Option.map primitive) (p.enumBy?_enumName access)
  | _ =>
      -- the other types are tags without content
      refine .of_succ fun fuel => .object (by simp) fun kept h => ?_
      have htagged := h.tagged?_alone rfl (show "of" ≠ "kind" by decide) access
      simp only [read?, Json.fields?, htagged, Option.bind_eq_bind, Option.bind_some]
      rfl

theorem readsBackBy (t : DataType) (access : Json.Access) :
    ReadsBack bound .dataType (ofJsonBy? access) t.toJson t :=
  .of_depth (t.readsBack access)

theorem readsBackDirect (t : DataType) : ReadsBack bound .dataType ofJson? t.toJson t :=
  t.readsBackBy .direct

/-- Of the types only `void` is encoded as such. -/
theorem eq_void_of_toJson {t : DataType}
    (h : some (Json.object [("kind", .string "void")]) = some t.toJson) : .void = t := by
  cases t with
  | void => rfl
  | _ => simp [toJson] at h

end DataType

theorem Parameter.readsBack (p : Parameter) :
    ReadsBack bound .parameter ofJson? p.toJson p := by
  refine .record (by simp) fun kept h => ?_
  have hname := h.required 0 rfl (Json.readsBack_string p.name) rfl
  have htype := h.required 1 rfl p.type.readsBackDirect rfl
  simp [ofJson?, Json.fields?, hname, htype]

theorem Executable.readsBack (e : Executable) :
    ReadsBack bound .executable ofJson? e.toJson e := by
  refine .record (by simp) fun kept h => ?_
  have howner := h.required 0 rfl e.owner.readsBack rfl
  have hname := h.required 1 rfl (Json.readsBack_string e.name) rfl
  have hparameters := h.withDefault 2 rfl
    (Json.readsBack_list fun p _ => Parameter.readsBack p) Json.eq_nil_of_list
  have htype := h.withDefault 3 rfl e.returnType.readsBackDirect DataType.eq_void_of_toJson
  have hkind : kept.withDefault "kind" (Json.enum? Invocation.names) .method = some e.kind :=
    h.withDefault 4 rfl (.leaf (e.kind.enumBy?_enumName .direct)) fun h =>
      Json.eq_of_enumName (Invocation.enumBy?_enumName .direct) h
  simp [ofJson?, Json.fields?, howner, hname, hparameters, htype, hkind]

/-! ## Values -/

namespace Value

theorem listToJson_eq_map (vs : List Value) : listToJson vs = vs.map toJson := by
  induction vs with
  | nil => simp [listToJson]
  | cons v rest ih => simp [listToJson, ih]

theorem fieldsToJson_eq_map (fields : List Field) :
    fieldsToJson fields = fields.map Field.toJson := by
  induction fields with
  | nil => simp [fieldsToJson]
  | cons f rest ih =>
      obtain ⟨name, v⟩ := f
      simp [fieldsToJson, ih, Field.toJson]

theorem stubsToJson_eq_map (stubs : List Stub) : stubsToJson stubs = stubs.map Stub.toJson := by
  induction stubs with
  | nil => simp [stubsToJson]
  | cons s rest ih =>
      obtain ⟨method, arguments, returns⟩ := s
      simp [stubsToJson, ih, Stub.toJson]

theorem eq_nil_of_listToJson {vs : List Value}
    (h : some (Json.array []) = some (.array (listToJson vs))) : [] = vs := by
  rw [listToJson_eq_map] at h
  exact Json.eq_nil_of_list h

theorem eq_nil_of_fieldsToJson {fields : List Field}
    (h : some (Json.array []) = some (.array (fieldsToJson fields))) : [] = fields := by
  rw [fieldsToJson_eq_map] at h
  exact Json.eq_nil_of_list h

theorem eq_nil_of_stubsToJson {stubs : List Stub}
    (h : some (Json.array []) = some (.array (stubsToJson stubs))) : [] = stubs := by
  rw [stubsToJson_eq_map] at h
  exact Json.eq_nil_of_list h

section

variable {access : Json.Access} {tag : String} {content : Json}

/-- A literal is read from its tag and its content. -/
theorem readsBack_literal {l : Literal} (hread : Literal.ofTagged? tag (some content) = some l)
    (hscalar : ∀ {p j'}, Json.Thins p content j' → j' = content) :
    ∀ fuel, ReadsBack fuel .value (read? fuel access)
      (.object [("kind", .string tag), ("value", content)]) (.literal l) := by
  refine .of_succ fun fuel => .object (by simp) fun kept h => ?_
  obtain ⟨j', hthins, -, htagged⟩ := h.exists_tagged? rfl rfl
  cases hscalar hthins
  simp [read?, Json.fields?, htagged, hread]

/-- A value that is no literal is read from its content by its tag. -/
theorem readsBack_content {v : Value} (hliteral : ∀ j, Literal.ofTagged? tag (some j) = none)
    (h : ∀ fuel, ReadsBack fuel (.content tag) (readContent? access (read? fuel access) tag)
      content v) :
    ∀ fuel, ReadsBack fuel .value (read? fuel access)
      (.object [("kind", .string tag), ("value", content)]) v := by
  refine .of_succ fun fuel => .object (by simp) fun kept hkept => ?_
  obtain ⟨j', hthins, hdepth, htagged⟩ := hkept.exists_tagged? rfl rfl
  have hread := h fuel j' hthins hdepth
  simp [read?, Json.fields?, htagged, hliteral, hread]

theorem readsBack_ofLiteral {l : Literal} (h : l.isFloating = false) :
    ∀ fuel, ReadsBack fuel .value (read? fuel access) l.toJson (.literal l) := by
  cases l with
  | null =>
      refine .of_succ fun fuel => .object (by simp) fun kept h => ?_
      have htagged := h.tagged?_alone rfl (show "value" ≠ "kind" by decide) access
      simp [read?, Json.fields?, htagged, Literal.ofTagged?, Json.unit?]
  | bool b => exact readsBack_literal rfl Json.Thins.eq_bool
  | byte n =>
      refine readsBack_literal ?_ Json.Thins.eq_number
      have hread := Json.intIn?_int n.minValue_le_toInt n.toInt_le
      simp only [Literal.ofTagged?, hread, Option.map_some, Int8.ofInt_toInt]
  | short n =>
      refine readsBack_literal ?_ Json.Thins.eq_number
      have hread := Json.intIn?_int n.minValue_le_toInt n.toInt_le
      simp only [Literal.ofTagged?, hread, Option.map_some, Int16.ofInt_toInt]
  | int n =>
      refine readsBack_literal ?_ Json.Thins.eq_number
      have hread := Json.intIn?_int n.minValue_le_toInt n.toInt_le
      simp only [Literal.ofTagged?, hread, Option.map_some, Int32.ofInt_toInt]
  | long n =>
      refine readsBack_literal ?_ Json.Thins.eq_number
      have hread := Json.intIn?_int n.minValue_le_toInt n.toInt_le
      simp only [Literal.ofTagged?, hread, Option.map_some, Int64.ofInt_toInt]
  | float x => cases h
  | double x => cases h
  | char c =>
      refine readsBack_literal ?_ Json.Thins.eq_string
      simp [Literal.ofTagged?, Json.char?, Json.string?]
  | str s => exact readsBack_literal rfl Json.Thins.eq_string

end

section

variable {value : Json → Option Value}

theorem readsBack_listToJson {vs : List Value}
    (h : ∀ v ∈ vs, ReadsBack bound .value value v.toJson v) :
    ReadsBack bound (.each .value) (Json.list? value) (.array (listToJson vs)) vs := by
  rw [listToJson_eq_map]
  exact Json.readsBack_list h

theorem readsBack_fieldsToJson {fields : List Field}
    (h : ∀ f ∈ fields, ReadsBack bound .field (readField? value) f.toJson f) :
    ReadsBack bound (.each .field) (Json.list? (readField? value)) (.array (fieldsToJson fields))
      fields := by
  rw [fieldsToJson_eq_map]
  exact Json.readsBack_list h

theorem readsBack_stubsToJson {stubs : List Stub}
    (h : ∀ s ∈ stubs, ReadsBack bound .stub (readStub? value) s.toJson s) :
    ReadsBack bound (.each .stub) (Json.list? (readStub? value)) (.array (stubsToJson stubs))
      stubs := by
  rw [stubsToJson_eq_map]
  exact Json.readsBack_list h

theorem readsBack_field {name : String} {v : Value}
    (h : ReadsBack bound .value value v.toJson v) :
    ReadsBack bound .field (readField? value) (Field.mk name v).toJson (.mk name v) := by
  refine .record (by simp) fun kept hkept => ?_
  have hname := hkept.required 0 rfl (Json.readsBack_string name) rfl
  have hvalue := hkept.required 1 rfl h rfl
  simp [readField?, Json.fields?, hname, hvalue]

theorem readsBack_stub {method : String} {arguments : List Value} {returns : Value}
    (harguments : ∀ v ∈ arguments, ReadsBack bound .value value v.toJson v)
    (hreturns : ReadsBack bound .value value returns.toJson returns) :
    ReadsBack bound .stub (readStub? value) (Stub.mk method arguments returns).toJson
      (.mk method arguments returns) := by
  refine .record (by simp) fun kept hkept => ?_
  have hmethod := hkept.required 0 rfl (Json.readsBack_string method) rfl
  have harguments := hkept.withDefault 1 rfl (readsBack_listToJson harguments) eq_nil_of_listToJson
  have hreturns := hkept.required 2 rfl hreturns rfl
  simp [readStub?, Json.fields?, hmethod, harguments, hreturns]

variable {access : Json.Access} {owner : ClassName}

theorem readsBack_array {element : DataType} {values : List Value}
    (h : ∀ v ∈ values, ReadsBack bound .value value v.toJson v) :
    ReadsBack bound (.content "array") (readContent? access value "array")
      (.object [("element", element.toJson), ("values", .array (listToJson values))])
      (.array element values) := by
  refine .record (by simp) fun kept hkept => ?_
  have helement := hkept.required 0 rfl (element.readsBackBy access) rfl
  have hvalues := hkept.required 1 rfl (readsBack_listToJson h) rfl
  simp [readContent?, Json.fields?, helement, hvalues]

theorem readsBack_composite {arguments : List Value} {fields : List Field}
    (harguments : ∀ v ∈ arguments, ReadsBack bound .value value v.toJson v)
    (hfields : ∀ f ∈ fields, ReadsBack bound .field (readField? value) f.toJson f) :
    ReadsBack bound (.content "composite") (readContent? access value "composite")
      (.object
        [("class", owner.toJson), ("constructor_args", .array (listToJson arguments)),
         ("fields", .array (fieldsToJson fields))]) (.composite owner arguments fields) := by
  refine .record (by simp) fun kept hkept => ?_
  have howner := hkept.required 0 rfl owner.readsBack rfl
  have harguments := hkept.withDefault 1 rfl (readsBack_listToJson harguments) eq_nil_of_listToJson
  have hfields := hkept.withDefault 2 rfl (readsBack_fieldsToJson hfields) eq_nil_of_fieldsToJson
  simp [readContent?, Json.fields?, howner, harguments, hfields]

theorem readsBack_reflective {fields : List Field}
    (hfields : ∀ f ∈ fields, ReadsBack bound .field (readField? value) f.toJson f) :
    ReadsBack bound (.content "reflective") (readContent? access value "reflective")
      (.object [("class", owner.toJson), ("fields", .array (fieldsToJson fields))])
      (.reflective owner fields) := by
  refine .record (by simp) fun kept hkept => ?_
  have howner := hkept.required 0 rfl owner.readsBack rfl
  have hfields := hkept.withDefault 1 rfl (readsBack_fieldsToJson hfields) eq_nil_of_fieldsToJson
  simp [readContent?, Json.fields?, howner, hfields]

theorem readsBack_mock {stubs : List Stub}
    (hstubs : ∀ s ∈ stubs, ReadsBack bound .stub (readStub? value) s.toJson s) :
    ReadsBack bound (.content "mock") (readContent? access value "mock")
      (.object [("class", owner.toJson), ("stubs", .array (stubsToJson stubs))])
      (.mock owner stubs) := by
  refine .record (by simp) fun kept hkept => ?_
  have howner := hkept.required 0 rfl owner.readsBack rfl
  have hstubs := hkept.withDefault 1 rfl (readsBack_stubsToJson hstubs) eq_nil_of_stubsToJson
  simp [readContent?, Json.fields?, howner, hstubs]

theorem readsBack_enumConstant {name : String} :
    ReadsBack bound (.content "enum_constant") (readContent? access value "enum_constant")
      (.object [("class", owner.toJson), ("name", .string name)]) (.enumConstant owner name) := by
  refine .record (by simp) fun kept hkept => ?_
  have howner := hkept.required 0 rfl owner.readsBack rfl
  have hname := hkept.required 1 rfl (Json.readsBack_string name) rfl
  simp [readContent?, Json.fields?, howner, hname]

end

mutual

/-- A value without floating point numbers is read back. -/
theorem readsBack (access : Json.Access) : ∀ v : Value, v.IsExact →
    ∀ fuel, ReadsBack fuel .value (read? fuel access) v.toJson v
  | .literal l, h => readsBack_ofLiteral (h l .self)
  | .array _ values, h =>
    readsBack_content (fun _ => rfl) fun fuel => readsBack_array fun v hv =>
      readsBackEach access values (fun _ hv l hl => h l (.element hv hl)) fuel v hv
  | .composite _ arguments fields, h =>
    readsBack_content (fun _ => rfl) fun fuel => readsBack_composite
      (readsBackEach access arguments (fun _ hv l hl => h l (.argument hv hl)) fuel)
      (readsBackFields access fields (fun _ _ hf l hl => h l (.field hf hl)) fuel)
  | .reflective _ fields, h =>
    readsBack_content (fun _ => rfl) fun fuel => readsBack_reflective
      (readsBackFields access fields (fun _ _ hf l hl => h l (.reflectiveField hf hl)) fuel)
  | .mock _ stubs, h =>
    readsBack_content (fun _ => rfl) fun fuel => readsBack_mock
      (readsBackStubs access stubs (fun _ _ _ hs _ hv l hl => h l (.stubArgument hs hv hl))
        (fun _ _ _ hs l hl => h l (.stubResult hs hl)) fuel)
  | .enumConstant _ _, _ => readsBack_content (fun _ => rfl) fun _ => readsBack_enumConstant

theorem readsBackEach (access : Json.Access) : ∀ vs : List Value, (∀ v ∈ vs, v.IsExact) →
    ∀ fuel, ∀ v ∈ vs, ReadsBack fuel .value (read? fuel access) v.toJson v
  | [], _, _ => List.forall_mem_nil _
  | v :: rest, h, fuel => by
      obtain ⟨hv, hrest⟩ := List.forall_mem_cons.mp h
      exact List.forall_mem_cons.mpr
        ⟨readsBack access v hv fuel, readsBackEach access rest hrest fuel⟩

theorem readsBackFields (access : Json.Access) : ∀ fields : List Field,
    (∀ name v, .mk name v ∈ fields → v.IsExact) →
      ∀ fuel, ∀ f ∈ fields, ReadsBack fuel .field (readField? (read? fuel access)) f.toJson f
  | [], _, _ => List.forall_mem_nil _
  | .mk name v :: rest, h, fuel =>
    List.forall_mem_cons.mpr
      ⟨readsBack_field (readsBack access v (h name v List.mem_cons_self) fuel),
        readsBackFields access rest (fun name v hv => h name v (List.mem_cons_of_mem _ hv)) fuel⟩

theorem readsBackStubs (access : Json.Access) : ∀ stubs : List Stub,
    (∀ method arguments returns, .mk method arguments returns ∈ stubs →
      ∀ v ∈ arguments, v.IsExact) →
    (∀ method arguments returns, .mk method arguments returns ∈ stubs → returns.IsExact) →
      ∀ fuel, ∀ s ∈ stubs, ReadsBack fuel .stub (readStub? (read? fuel access)) s.toJson s
  | [], _, _, _ => List.forall_mem_nil _
  | .mk method arguments returns :: rest, harguments, hreturns, fuel =>
    List.forall_mem_cons.mpr
      ⟨readsBack_stub
          (readsBackEach access arguments (harguments method _ returns List.mem_cons_self) fuel)
          (readsBack access returns (hreturns method arguments _ List.mem_cons_self) fuel),
        readsBackStubs access rest
          (fun _ _ _ hs => harguments _ _ _ (List.mem_cons_of_mem _ hs))
          (fun _ _ _ hs => hreturns _ _ _ (List.mem_cons_of_mem _ hs)) fuel⟩

end

theorem readsBackBy {v : Value} (h : v.IsExact) (access : Json.Access) :
    ReadsBack bound .value (ofJsonBy? access) v.toJson v :=
  .of_depth (readsBack access v h)

theorem readsBackDirect {v : Value} (h : v.IsExact) :
    ReadsBack bound .value ofJson? v.toJson v :=
  readsBackBy h .direct

theorem toJson_ne_null (v : Value) : v.toJson ≠ .null := by
  cases v with
  | literal l => cases l <;> simp [toJson, Literal.toJson]
  | _ => simp [toJson]

end Value

/-! ## Outcomes and executions -/

theorem Outcome.readsBack (o : Outcome) (hexact : ∀ v ∈ o.value?, v.IsExact) (hword : o.FitsWord) :
    ReadsBack bound .outcome ofJson? o.toJson o := by
  -- the members beside the tag are held until it is known
  have hplain := o.isPlain_toJson hexact hword
  cases o with
  | success value =>
      refine .record (by simp) fun kept h => ?_
      have htag := h.innerTag? rfl hplain
      have hvalue := h.optional 1 rfl (fun v hv => Value.readsBackBy (hexact v hv) .held)
        Value.toJson_ne_null rfl
      simp [ofJson?, Json.fields?, htag, hvalue]
  | runtimeFailure exception message kind =>
      refine .record (by simp) fun kept h => ?_
      have htag := h.innerTag? rfl hplain
      have hexception := h.required 1 rfl exception.readsBack rfl
      have hmessage := h.optional 2 rfl (fun s _ => Json.readsBack_string s) Json.string_ne_null rfl
      have hkind : kept.withDefault "kind" (Json.enumBy? .held FailureKind.names) .implicit =
          some kind :=
        h.withDefault 3 rfl (.leaf (kind.enumBy?_enumName .held)) fun h =>
          Json.eq_of_enumName (FailureKind.enumBy?_enumName .held) h
      simp [ofJson?, Json.fields?, htag, hexception, hmessage, hkind]
  | timeout limit =>
      refine .record (by simp) fun kept h => ?_
      have htag := h.innerTag? rfl hplain
      have hlimit := h.required 1 rfl (.leaf (Json.uint64?_int hword)) rfl
      simp [ofJson?, Json.fields?, htag, hlimit]
  | crash reason =>
      refine .record (by simp) fun kept h => ?_
      have htag := h.innerTag? rfl hplain
      have hreason := h.required 1 rfl (Json.readsBack_string reason) rfl
      simp [ofJson?, Json.fields?, htag, hreason]

theorem StaticStub.readsBack (s : StaticStub) (hexact : s.returns.IsExact) :
    ReadsBack bound .staticStub ofJson? s.toJson s := by
  refine .record (by simp) fun kept h => ?_
  have howner := h.required 0 rfl s.owner.readsBack rfl
  have hmethod := h.required 1 rfl (Json.readsBack_string s.method) rfl
  have hreturns := h.required 2 rfl (Value.readsBackDirect hexact) rfl
  simp [ofJson?, Json.fields?, howner, hmethod, hreturns]

theorem Execution.readsBack (run : Execution) (hexact : ∀ v ∈ run.values, v.IsExact)
    (hword : run.outcome.FitsWord) : ReadsBack bound .execution ofJson? run.toJson run := by
  have hreceiver : ∀ v ∈ run.receiver, v.IsExact := fun v hv => hexact v (by simp_all [values])
  have hvalues : ∀ v ∈ run.arguments, v.IsExact := fun v hv => hexact v (by simp [values, hv])
  have hresult : ∀ v ∈ run.outcome.value?, v.IsExact := fun v hv => hexact v (by simp_all [values])
  have hreturns : ∀ s ∈ run.staticStubs, s.returns.IsExact := fun s hs =>
    hexact _ (List.mem_append_right _ (List.mem_map_of_mem hs))
  refine .record (by simp) fun kept h => ?_
  have hinstance := h.optional 0 rfl (fun v hv => Value.readsBackDirect (hreceiver v hv))
    Value.toJson_ne_null rfl
  have harguments := h.withDefault 1 rfl
    (Json.readsBack_list fun v hv => Value.readsBackDirect (hvalues v hv)) Json.eq_nil_of_list
  have houtcome := h.required 2 rfl (run.outcome.readsBack hresult hword) rfl
  have hstubs := h.withDefault 3 rfl
    (Json.readsBack_list fun s hs => s.readsBack (hreturns s hs)) Json.eq_nil_of_list
  have htest := h.optional 4 rfl (fun s _ => Json.readsBack_string s) Json.string_ne_null rfl
  have hdisplay := h.optional 5 rfl (fun s _ => Json.readsBack_string s) Json.string_ne_null rfl
  have hsummary := h.withDefault 6 rfl (Json.readsBack_strings run.summary) Json.eq_nil_of_list
  simp [ofJson?, Json.fields?, hinstance, harguments, houtcome, hstubs, htest, hdisplay, hsummary]

/-! ## Clusters, errors and test sets -/

theorem ClusterNote.readsBack (note : ClusterNote) :
    ReadsBack bound .note ofJson? note.toJson note := by
  refine .record (by simp) fun kept h => ?_
  have hheader := h.optional 0 rfl (fun s _ => Json.readsBack_string s) Json.string_ne_null rfl
  have hcontent := h.withDefault 1 rfl (Json.readsBack_strings note.content) Json.eq_nil_of_list
  simp [ofJson?, Json.fields?, hheader, hcontent]

theorem Cluster.readsBack (c : Cluster) (hstart : c.start < UInt64.size)
    (hstop : c.stop < UInt64.size) : ReadsBack bound .cluster ofJson? c.toJson c := by
  refine .record (by simp) fun kept h => ?_
  have hsummary := h.required 0 rfl c.summary.readsBack rfl
  have hbounds : range? (.object [("start", Json.int c.start), ("end", Json.int c.stop)]) =
      some (c.start, c.stop) := by
    simp [range?, Json.fields?, Json.Fields.onlyKnown, Json.Fields.required, Json.Fields.unique?,
      Json.uint64?_int hstart, Json.uint64?_int hstop]
  have hindices := h.required 1 rfl (.leaf hbounds) rfl
  simp [ofJson?, Json.fields?, hsummary, hindices]

theorem ErrorCounts.ofJson?_toJson {errors : ErrorCounts} (h : errors.keys.Nodup) :
    ofJson? errors.toJson = some errors := by
  have hread : ∀ entries : List (String × UInt64),
      (entries.map fun entry => (entry.1, Json.int entry.2.toNat)).mapM
        (fun member => do return (member.1, UInt64.ofNat (← member.2.uint64?))) = some entries := by
    intro entries
    induction entries with
    | nil => rfl
    | cons entry rest ih =>
        rw [List.map_cons, List.mapM_cons, ih, Json.uint64?_int entry.2.toNat_lt]
        simp
  change ((errors.entries.map fun entry => (entry.1, Json.int entry.2.toNat)).mapM
    (fun member => do return (member.1, UInt64.ofNat (← member.2.uint64?))) >>= fun entries =>
      return .ofList entries) = some errors
  rw [hread, Option.bind_eq_bind, Option.bind_some, OrderedMap.ofList_of_nodup h]
  rfl

/-- Errors whose encoding is empty are none. -/
theorem ErrorCounts.eq_empty_of_toJson {errors : ErrorCounts}
    (h : some (Json.object []) = some errors.toJson) : .empty = errors := by
  obtain ⟨entries⟩ := errors
  have hnone := Json.object.inj (Option.some.inj h.symm)
  exact congrArg OrderedMap.mk (List.map_eq_nil_iff.mp hnone).symm

theorem TestSet.readsBack {set : TestSet} (hexact : set.IsExact) (hrecorded : set.IsRecorded) :
    ReadsBack bound .testSet ofJson? set.toJson set := by
  refine .record (by simp) fun kept h => ?_
  have hexecutable := h.required 0 rfl set.executable.readsBack rfl
  have hexecutions := h.withDefault 1 rfl (Json.readsBack_list fun run hrun =>
    run.readsBack (hexact run hrun) (hrecorded.limits run hrun)) Json.eq_nil_of_list
  have hclusters := h.withDefault 2 rfl (Json.readsBack_list fun c hc =>
    c.readsBack (hrecorded.bounds c hc).1 (hrecorded.bounds c hc).2) Json.eq_nil_of_list
  have herrors : kept.withDefault "errors" ErrorCounts.ofJson? .empty = some set.errors :=
    h.withDefault 3 rfl (.leaf (ErrorCounts.ofJson?_toJson hrecorded.errors))
      ErrorCounts.eq_empty_of_toJson
  simp [ofJson?, Json.fields?, hexecutable, hexecutions, hclusters, herrors]

/-- A test set without floating point numbers is read back from the text of its encoding, with its
errors in their order, and from the text of everything that is left when members that hold their
defaults are taken out of the encoding, at any depth.  The reader asks that the text is nested
within its limit. -/
theorem evidence_reads_back {set : TestSet} (hexact : set.IsExact)
    (hrecorded : set.IsRecorded) :
    (set.toJson.nesting ≤ Json.nestingLimit →
      (Json.read? set.toJson.text).bind TestSet.ofJson? = some set) ∧
      ∀ j, Json.Thins .testSet set.toJson j → j.nesting ≤ Json.nestingLimit →
        (Json.read? j.text).bind TestSet.ofJson? = some set := by
  have hreads : ∀ j, Json.Thins .testSet set.toJson j → j.nesting ≤ Json.nestingLimit →
      (Json.read? j.text).bind TestSet.ofJson? = some set := by
    intro j hthins hnesting
    have hplain : j.isPlain = true := hthins.isPlain (TestSet.isPlain_toJson hexact hrecorded)
    rw [Json.read?_text_of_nesting_le hplain hnesting, Option.bind_some]
    exact TestSet.readsBack hexact hrecorded j hthins (Nat.le_refl _)
  exact ⟨hreads _ (.same _ _), hreads⟩

/-- An item without arguments and fields was put into a cart, and errors were met before. -/
def filledCart : TestSet where
  executable := ⟨.global "Cart", "add", [⟨"item", .ofClass ⟨"shop", "Item"⟩⟩], .void, .method⟩
  executions := [.ofArguments [.composite ⟨"shop", "Item"⟩ [] []] .completed]
  clusters := []
  errors := ⟨[("no price", 2), ("", 1)]⟩

/-- What is needed of the encoding of the cart. -/
def filledCartGist : Json :=
  .object
    [("executable", .object
      [("class", .object [("name", .string "Cart")]), ("name", .string "add"),
       ("parameters", .array [Parameter.toJson ⟨"item", .ofClass ⟨"shop", "Item"⟩⟩])]),
     ("executions", .array [.object
      [("arguments", .array [.object
        [("kind", .string "composite"),
         ("value", .object [("class", ClassName.toJson ⟨"shop", "Item"⟩)])]]),
       ("outcome", .object [("type", .string "success")])]]),
     ("errors", .object [("no price", Json.int 2), ("", Json.int 1)])]

/-- Most members in the encoding of the cart are not needed. -/
theorem evidence_reads_back_filledCart :
    (Json.read? filledCart.toJson.text).bind TestSet.ofJson? = some filledCart ∧
      (Json.read? filledCartGist.text).bind TestSet.ofJson? = some filledCart := by
  have hexact : filledCart.IsExact := by
    intro run hrun v hv l hl
    cases List.mem_singleton.mp hrun
    cases List.mem_singleton.mp hv
    cases hl <;> contradiction
  have hrecorded : filledCart.IsRecorded := by
    refine ⟨fun run hrun => ?_, List.forall_mem_nil _, by decide⟩
    cases List.mem_singleton.mp hrun
    trivial
  obtain ⟨hread, hthinned⟩ := evidence_reads_back hexact hrecorded
  refine ⟨hread (by decide), hthinned _ (.object (.keep (.object ?_)
    (.keep (.array (.cons (.object ?_) (.nil _))) (.drop rfl (.keep (.same _ _) (.nil _ _))))))
    (by decide)⟩
  · -- the executable has no package, returns nothing and is a method
    have hclass : Json.Thins .className (ClassName.global "Cart").toJson
        (.object [("name", .string "Cart")]) := .object (.drop rfl (.keep (.same _ _) (.nil _ _)))
    exact .keep hclass (.keep (.same _ _) (.keep (.same _ _) (.drop rfl (.drop rfl (.nil _ _)))))
  · -- of the run its argument and its outcome are left
    have hitem : Json.Thins .value (Value.composite ⟨"shop", "Item"⟩ [] []).toJson
        (.object [("kind", .string "composite"),
          ("value", .object [("class", ClassName.toJson ⟨"shop", "Item"⟩)])]) :=
      .object (.keep (.same _ _) (.keep
        (.object (.keep (.same _ _) (.drop rfl (.drop rfl (.nil _ _))))) (.nil _ _)))
    have houtcome : Json.Thins .outcome Outcome.completed.toJson
        (.object [("type", .string "success")]) :=
      .object (.keep (.same _ _) (.drop rfl (.nil _ _)))
    exact .drop rfl (.keep (.array (.cons hitem (.nil _))) (.keep houtcome
      (.drop rfl (.drop rfl (.drop rfl (.drop rfl (.nil _ _)))))))

/-- Arrays inside of each other, around `null`. -/
def nestedArray : Nat → Value
  | 0 => .literal .null
  | n + 1 => .array .any [nestedArray n]

theorem nestedArray_isExact (n : Nat) : (nestedArray n).IsExact := by
  induction n with
  | zero =>
      intro l hl
      cases hl
      rfl
  | succ n ih =>
      intro l hl
      cases hl with
      | element hv h => exact ih l (List.mem_singleton.mp hv ▸ h)

/-- A function was called with an array that is nested deeply. -/
def deepCall : TestSet where
  executable := ⟨.global "m", "f", [], .void, .function⟩
  executions := [.ofArguments [nestedArray 41] .completed]
  clusters := []
  errors := .empty

/-- With 128 arrays and objects inside of each other the text of an encoding is refused. -/
theorem deep_nesting_is_refused :
    deepCall.IsExact ∧ deepCall.IsRecorded ∧ deepCall.toJson.nesting = Json.nestingLimit + 1 ∧
      (Json.read? deepCall.toJson.text).bind TestSet.ofJson? = none := by
  have hexact : deepCall.IsExact := by
    intro run hrun v hv
    cases List.mem_singleton.mp hrun
    cases List.mem_singleton.mp hv
    exact nestedArray_isExact 41
  have hrecorded : deepCall.IsRecorded := by
    refine ⟨fun run hrun => ?_, List.forall_mem_nil _, List.nodup_nil⟩
    cases List.mem_singleton.mp hrun
    trivial
  refine ⟨hexact, hrecorded, by decide +kernel, ?_⟩
  rw [Json.read?_text (TestSet.isPlain_toJson hexact hrecorded)]
  decide +kernel

end TestWriter
