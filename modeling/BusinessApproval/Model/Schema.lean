import BusinessApproval.Lib.Regex

/-!
# The request schemas

The string properties of `request-request.schema.json` that the owner checks again, and
the reasons of `decide-request.schema.json` and `cancel-request.schema.json`. Lengths are
in characters, as JSON Schema counts them. The pattern of every property is between `^`
and `$`, so it is the whole string that it has to match.
-/

namespace BusinessApproval

open Regex

/-- What a schema asks of a string. -/
structure StringSchema where
  minLength : Nat
  maxLength : Nat
  pattern : Regex
  deriving DecidableEq, Repr

/-- The strings that are valid under a schema. -/
def StringSchema.Admits (schema : StringSchema) (s : String) : Prop :=
  schema.minLength ≤ s.length ∧ s.length ≤ schema.maxLength ∧ schema.pattern.Matches s

/-! ## Patterns -/

def identifierClass : CharClass :=
  [.range 'A' 'Z', .range 'a' 'z', .range '0' '9', .char '.', .char '_', .char ':', .char '-']

def referenceClass : CharClass :=
  [.range 'A' 'Z', .range 'a' 'z', .range '0' '9', .char '.', .char '_', .char ':', .char '/',
    .char '-']

def kindEdgeClass : CharClass := [.range 'a' 'z', .range '0' '9']

def kindClass : CharClass :=
  [.range 'a' 'z', .range '0' '9', .char '.', .char '_', .char '-']

def hexClass : CharClass := [.range 'a' 'f', .range '0' '9']

def identifierPattern : Regex := .plus (.one identifierClass)

def referencePattern : Regex := .plus (.one referenceClass)

def kindPattern : Regex :=
  .alt (.seq (.one kindEdgeClass) (.seq (.star (.one kindClass)) (.one kindEdgeClass)))
    (.one kindEdgeClass)

/-- Also the pattern of the `CHECK` of migration 002. -/
def digestPattern : Regex := .times (.one hexClass) 64

example : identifierPattern.anchored = "^[A-Za-z0-9._:-]+$"
    ∧ referencePattern.anchored = "^[A-Za-z0-9._:/-]+$"
    ∧ kindPattern.anchored = "^(?:[a-z0-9][a-z0-9._-]*[a-z0-9]|[a-z0-9])$"
    ∧ digestPattern.anchored = "^[a-f0-9]\x7b64\x7d$" := by decide +kernel

/-! ## Properties -/

namespace RequestSchema

def requestId : StringSchema := ⟨1, 128, identifierPattern⟩

def idempotencyKey : StringSchema := ⟨1, 256, identifierPattern⟩

def requestedBy : StringSchema := ⟨1, 512, referencePattern⟩

def approvalKind : StringSchema := ⟨1, 128, kindPattern⟩

/-- `subject.kind` -/
def subjectKind : StringSchema := ⟨1, 128, kindPattern⟩

/-- `subject.id` -/
def subjectId : StringSchema := ⟨1, 512, referencePattern⟩

def intentDigest : StringSchema := ⟨64, 64, digestPattern⟩

end RequestSchema

/-- What a schema asks of a string that may be `null`. -/
structure NullableSchema where
  maxLength : Nat
  deriving DecidableEq, Repr

/-- The values that are valid under a schema. -/
def NullableSchema.Admits (schema : NullableSchema) : Option String → Prop
  | none => True
  | some s => s.length ≤ schema.maxLength

namespace DecideSchema

def reason : NullableSchema := ⟨1000⟩

end DecideSchema

namespace CancelSchema

def reason : NullableSchema := ⟨1000⟩

end CancelSchema

end BusinessApproval
