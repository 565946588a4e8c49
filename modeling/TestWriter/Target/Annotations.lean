import TestWriter.Suite.File

/-!
# Annotations of test methods

The annotations by which a framework of the JVM finds a method and learns how to run it.
-/

namespace TestWriter.Target

/-- A number of milliseconds as a literal; beyond the signed range, the largest one. -/
def millis (n : Nat) : Expr :=
  .literal (.long (Int64.ofInt (min n Int64.maxValue.toInt)))

/-- Add to an annotation unless the value is absent. -/
def AnnotationUse.withOptional {α : Type} (a : AnnotationUse) (value : Option α)
    (add : AnnotationUse → α → AnnotationUse) : AnnotationUse :=
  match value with
  | none => a
  | some v => add a v

/-- An annotation for a value that is present. -/
def annotationFor {α : Type} (value : Option α) (make : α → AnnotationUse) :
    List AnnotationUse :=
  (value.map make).toList

/-- The annotations of the test of one run. -/
def testAnnotations (framework : Framework) (info : TestInfo) : List AnnotationUse :=
  match framework with
  | .junit5 =>
    let jupiter := "org.junit.jupiter.api"
    .marker jupiter "Test" ::
      annotationFor info.displayName (fun name =>
        (AnnotationUse.marker jupiter "DisplayName").withValue (.str name)) ++
      annotationFor info.timeoutMillis (fun n =>
        ((AnnotationUse.marker jupiter "Timeout").withArgument "value" (millis n)).withArgument "unit"
          (.staticField ⟨"java.util.concurrent", "TimeUnit"⟩ "MILLISECONDS")) ++
      annotationFor info.disabled (fun reason =>
        (AnnotationUse.marker jupiter "Disabled").withValue (.str reason))
  | .junit4 =>
    AnnotationUse.withOptional (.marker "org.junit" "Test") info.timeoutMillis
        (fun a n => a.withArgument "timeout" (millis n)) ::
      annotationFor info.disabled (fun reason =>
        (AnnotationUse.marker "org.junit" "Ignore").withValue (.str reason))
  | .testng =>
    let described :=
      AnnotationUse.withOptional (.marker "org.testng.annotations" "Test")
        (info.displayName.or info.disabled) (fun a text => a.withArgument "description" (.str text))
    let timed :=
      AnnotationUse.withOptional described info.timeoutMillis
        (fun a n => a.withArgument "timeOut" (millis n))
    [AnnotationUse.withOptional timed info.disabled
      (fun a _ => a.withArgument "enabled" (.literal (.bool false)))]
  | _ => []

/-- The annotations of a method. -/
def methodAnnotations (framework : Framework) (m : Method) : List AnnotationUse :=
  match m.kind with
  | .test info => testAnnotations framework info
  | .errorReport _ =>
    annotationFor framework.testAnnotation? fun name => ⟨ClassName.parse name, []⟩
  | .parameterized _ provider =>
    match framework with
    | .junit5 =>
      [.marker "org.junit.jupiter.params" "ParameterizedTest",
       (AnnotationUse.marker "org.junit.jupiter.params.provider" "MethodSource").withValue
        (.str provider)]
    | .testng =>
      [(AnnotationUse.marker "org.testng.annotations" "Test").withArgument "dataProvider"
        (.str provider)]
    | _ => []
  | .dataProvider =>
    match framework with
    | .testng => [.marker "org.testng.annotations" "DataProvider"]
    | _ => []
  | .helper _ => []

end TestWriter.Target
