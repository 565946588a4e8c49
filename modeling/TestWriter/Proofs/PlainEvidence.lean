import TestWriter.Evidence.Encoding
import TestWriter.Proofs.Expressible
import TestWriter.Proofs.JsonTexts

/-!
# Plain evidence

Evidence without floating point numbers.  Main statement: it is encoded by integers of 64 bits,
texts and truth values alone, so that its encoding is read back from the text that is written for
it.
-/

namespace TestWriter

/-- Whether the literal is a floating point number. -/
def Literal.isFloating : Literal → Bool
  | .float _ | .double _ => true
  | _ => false

/-- No floating point number occurs in the value. -/
def Value.IsExact (v : Value) : Prop := ∀ l, Occurs (.literal l) v → l.isFloating = false

/-- The value that a run returned. -/
def Outcome.value? : Outcome → Option Value
  | .success value => value
  | _ => none

/-- The limit of a run that was stopped fits into 64 bits. -/
def Outcome.FitsWord : Outcome → Prop
  | .timeout limit => limit < UInt64.size
  | _ => True

/-- The values that were recorded in a run. -/
def Execution.values (run : Execution) : List Value :=
  run.receiver.toList ++ run.arguments ++ run.outcome.value?.toList ++
    run.staticStubs.map StaticStub.returns

/-- No floating point number occurs in the values of the runs. -/
def TestSet.IsExact (set : TestSet) : Prop :=
  ∀ run ∈ set.executions, ∀ v ∈ run.values, v.IsExact

/-- Limits and bounds are words of 64 bits, and no error is listed twice. -/
structure TestSet.IsRecorded (set : TestSet) : Prop where
  limits : ∀ run ∈ set.executions, run.outcome.FitsWord
  bounds : ∀ c ∈ set.clusters, c.start < UInt64.size ∧ c.stop < UInt64.size
  errors : set.errors.keys.Nodup

/-! ## Plain encodings -/

attribute [local simp] Json.isPlain Json.membersPlain Json.elementsPlain

namespace Json

/-- An integer of 64 bits, signed or not, is plain. -/
theorem isPlain_int {n : Int} (hlow : Int64.minValue.toInt ≤ n) (hhigh : n < UInt64.size) :
    (int n).isPlain = true :=
  Bool.and_eq_true_iff.mpr ⟨decide_eq_true hlow, decide_eq_true hhigh⟩

theorem isPlain_nat {n : Nat} (h : n < UInt64.size) : (int n).isPlain = true := by
  have hmin : Int64.minValue.toInt ≤ 0 := by decide
  exact isPlain_int (by omega) (Int.ofNat_lt.mpr h)

section

variable {α : Type} {encode : α → Json}

theorem isPlain_option {value : Option α} (h : ∀ a ∈ value, (encode a).isPlain = true) :
    (option encode value).isPlain = true := by
  cases value with
  | none => rfl
  | some a => exact h a rfl

theorem isPlain_list {xs : List α} (h : ∀ x ∈ xs, (encode x).isPlain = true) :
    (list encode xs).isPlain = true := by
  rw [list, isPlain]
  induction xs with
  | nil => rfl
  | cons x rest ih =>
      obtain ⟨hx, hrest⟩ := List.forall_mem_cons.mp h
      exact Bool.and_eq_true_iff.mpr ⟨hx, ih hrest⟩

end

theorem isPlain_string? (s : Option String) : (option string s).isPlain = true :=
  isPlain_option fun _ _ => rfl

theorem isPlain_strings (xs : List String) : (list string xs).isPlain = true :=
  isPlain_list fun _ _ => rfl

end Json

theorem ClassName.isPlain_toJson (c : ClassName) : c.toJson.isPlain = true := by
  simp [toJson]

theorem DataType.isPlain_toJson (t : DataType) : t.toJson.isPlain = true := by
  induction t with
  | array element ih => simp [toJson, ih]
  | ofClass c => simp [toJson, c.isPlain_toJson]
  | primitive p => simp [toJson, Json.enumName]
  | _ => simp [toJson]

theorem Parameter.isPlain_toJson (p : Parameter) : p.toJson.isPlain = true := by
  simp [toJson, p.type.isPlain_toJson]

theorem Executable.isPlain_toJson (e : Executable) : e.toJson.isPlain = true := by
  have hparameters := Json.isPlain_list fun p (_ : p ∈ e.parameters) => p.isPlain_toJson
  simp [toJson, e.owner.isPlain_toJson, hparameters, e.returnType.isPlain_toJson, Json.enumName]

theorem Literal.isPlain_toJson {l : Literal} (h : l.isFloating = false) :
    l.toJson.isPlain = true := by
  have hint : ∀ {n : Int} {tag : String}, Int64.minValue.toInt ≤ n → n ≤ Int64.maxValue.toInt →
      (Json.object [("kind", .string tag), ("value", Json.int n)]).isPlain = true := by
    intro n tag hlow hhigh
    have hmax : Int64.maxValue.toInt < UInt64.size := by decide
    simp [Json.isPlain_int hlow (Int.lt_of_le_of_lt hhigh hmax)]
  cases l with
  | byte n =>
      have hlow : Int64.minValue.toInt ≤ Int8.minValue.toInt := by decide
      have hhigh : Int8.maxValue.toInt ≤ Int64.maxValue.toInt := by decide
      exact hint (Int.le_trans hlow n.minValue_le_toInt) (Int.le_trans n.toInt_le hhigh)
  | short n =>
      have hlow : Int64.minValue.toInt ≤ Int16.minValue.toInt := by decide
      have hhigh : Int16.maxValue.toInt ≤ Int64.maxValue.toInt := by decide
      exact hint (Int.le_trans hlow n.minValue_le_toInt) (Int.le_trans n.toInt_le hhigh)
  | int n =>
      have hlow : Int64.minValue.toInt ≤ Int32.minValue.toInt := by decide
      have hhigh : Int32.maxValue.toInt ≤ Int64.maxValue.toInt := by decide
      exact hint (Int.le_trans hlow n.minValue_le_toInt) (Int.le_trans n.toInt_le hhigh)
  | long n => exact hint n.minValue_le_toInt n.toInt_le
  | float x => cases h
  | double x => cases h
  | _ => simp [toJson]

mutual

theorem Value.isPlain_toJson : ∀ v : Value, v.IsExact → v.toJson.isPlain = true
  | .literal l, h => Literal.isPlain_toJson (h l .self)
  | .array element values, h => by
      have hvalues := elementsPlain_listToJson values fun _ hv l hl => h l (.element hv hl)
      simp [toJson, element.isPlain_toJson, hvalues]
  | .composite owner arguments fields, h => by
      have harguments := elementsPlain_listToJson arguments fun _ hv l hl => h l (.argument hv hl)
      have hfields := elementsPlain_fieldsToJson fields fun _ _ hf l hl => h l (.field hf hl)
      simp [toJson, owner.isPlain_toJson, harguments, hfields]
  | .reflective owner fields, h => by
      have hfields := elementsPlain_fieldsToJson fields fun _ _ hf l hl =>
        h l (.reflectiveField hf hl)
      simp [toJson, owner.isPlain_toJson, hfields]
  | .mock owner stubs, h => by
      have hstubs := elementsPlain_stubsToJson stubs
        (fun _ _ _ hs _ hv l hl => h l (.stubArgument hs hv hl))
        fun _ _ _ hs l hl => h l (.stubResult hs hl)
      simp [toJson, owner.isPlain_toJson, hstubs]
  | .enumConstant owner name, _ => by simp [toJson, owner.isPlain_toJson]

theorem Value.elementsPlain_listToJson : ∀ vs : List Value, (∀ v ∈ vs, v.IsExact) →
    Json.elementsPlain (listToJson vs) = true
  | [], _ => rfl
  | v :: rest, h => by
      obtain ⟨hv, hrest⟩ := List.forall_mem_cons.mp h
      simp [listToJson, isPlain_toJson v hv, elementsPlain_listToJson rest hrest]

theorem Value.elementsPlain_fieldsToJson : ∀ fields : List Field,
    (∀ name v, .mk name v ∈ fields → v.IsExact) → Json.elementsPlain (fieldsToJson fields) = true
  | [], _ => rfl
  | .mk name v :: rest, h => by
      have hrest := elementsPlain_fieldsToJson rest fun name v hf =>
        h name v (List.mem_cons_of_mem _ hf)
      simp [fieldsToJson, isPlain_toJson v (h name v List.mem_cons_self), hrest]

theorem Value.elementsPlain_stubsToJson : ∀ stubs : List Stub,
    (∀ method arguments returns, .mk method arguments returns ∈ stubs →
      ∀ v ∈ arguments, v.IsExact) →
    (∀ method arguments returns, .mk method arguments returns ∈ stubs → returns.IsExact) →
      Json.elementsPlain (stubsToJson stubs) = true
  | [], _, _ => rfl
  | .mk method arguments returns :: rest, harguments, hreturns => by
      have hlist := elementsPlain_listToJson arguments (harguments _ _ _ List.mem_cons_self)
      have hrest := elementsPlain_stubsToJson rest
        (fun _ _ _ hs => harguments _ _ _ (List.mem_cons_of_mem _ hs))
        fun _ _ _ hs => hreturns _ _ _ (List.mem_cons_of_mem _ hs)
      simp [stubsToJson, isPlain_toJson returns (hreturns _ _ _ List.mem_cons_self), hlist, hrest]

end

theorem Outcome.isPlain_toJson (o : Outcome) (hexact : ∀ v ∈ o.value?, v.IsExact)
    (hword : o.FitsWord) : o.toJson.isPlain = true := by
  cases o with
  | success value =>
      have hvalue := Json.isPlain_option fun v (hv : v ∈ value) => v.isPlain_toJson (hexact v hv)
      simp [toJson, hvalue]
  | runtimeFailure exception message kind =>
      simp [toJson, exception.isPlain_toJson, Json.isPlain_string? message, Json.enumName]
  | timeout limit => simp [toJson, Json.isPlain_nat hword]
  | crash reason => simp [toJson]

theorem Execution.isPlain_toJson (run : Execution) (hexact : ∀ v ∈ run.values, v.IsExact)
    (hword : run.outcome.FitsWord) : run.toJson.isPlain = true := by
  have hreceiver := Json.isPlain_option fun v (hv : v ∈ run.receiver) =>
    v.isPlain_toJson (hexact v (by simp_all [values]))
  have harguments := Json.isPlain_list fun v (hv : v ∈ run.arguments) =>
    v.isPlain_toJson (hexact v (by simp [values, hv]))
  have houtcome := run.outcome.isPlain_toJson (fun v hv => hexact v (by simp_all [values])) hword
  have hstub : ∀ s ∈ run.staticStubs, s.toJson.isPlain = true := by
    intro s hs
    have hreturns : s.returns ∈ run.values :=
      List.mem_append_right _ (List.mem_map_of_mem hs)
    simp [StaticStub.toJson, s.owner.isPlain_toJson,
      s.returns.isPlain_toJson (hexact _ hreturns)]
  simp [toJson, hreceiver, harguments, houtcome, Json.isPlain_list hstub, Json.isPlain_string?,
    Json.isPlain_strings]

theorem ClusterNote.isPlain_toJson (note : ClusterNote) : note.toJson.isPlain = true := by
  simp [toJson, Json.isPlain_string?, Json.isPlain_strings]

theorem Cluster.isPlain_toJson (c : Cluster) (hstart : c.start < UInt64.size)
    (hstop : c.stop < UInt64.size) : c.toJson.isPlain = true := by
  simp [toJson, c.summary.isPlain_toJson, Json.isPlain_nat hstart, Json.isPlain_nat hstop]

theorem ErrorCounts.isPlain_toJson (errors : ErrorCounts) : errors.toJson.isPlain = true := by
  rw [toJson, Json.isPlain]
  induction errors.entries with
  | nil => rfl
  | cons entry rest ih =>
      exact Bool.and_eq_true_iff.mpr ⟨Json.isPlain_nat entry.2.toNat_lt, ih⟩

theorem TestSet.isPlain_toJson {set : TestSet} (hexact : set.IsExact)
    (hrecorded : set.IsRecorded) : set.toJson.isPlain = true := by
  have hexecutions := Json.isPlain_list fun run (hrun : run ∈ set.executions) =>
    run.isPlain_toJson (hexact run hrun) (hrecorded.limits run hrun)
  have hclusters := Json.isPlain_list fun c (hc : c ∈ set.clusters) =>
    c.isPlain_toJson (hrecorded.bounds c hc).1 (hrecorded.bounds c hc).2
  simp [toJson, set.executable.isPlain_toJson, hexecutions, hclusters, set.errors.isPlain_toJson]

end TestWriter
