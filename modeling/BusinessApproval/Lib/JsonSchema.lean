import BusinessApproval.Lib.Json
import BusinessApproval.Lib.Regex
import Mathlib.Data.List.Nodup

/-!
# JSON Schema

The part of JSON Schema that message formats are published in. A schema is the set of the
values that are valid under it, and is written as in the published text: the keywords for
strings stand in a list after the type, and objects admit no other properties than theirs.

An object is an unordered set of properties, so a list that has a name twice is none. Plain
strings are the only strings: what spells a value inside a string is no message.
-/

namespace Json

/-! ## Properties of an object -/

variable {name : String} {v : Json} {fields fields' : List (String × Json)}

theorem mem_of_getField (h : getField name fields = some v) : (name, v) ∈ fields := by
  induction fields with
  | nil => cases h
  | cons field fields ih =>
      obtain ⟨n, w⟩ := field
      rw [getField] at h
      split at h
      next hn =>
        cases h
        subst hn
        exact List.mem_cons_self
      next => exact List.mem_cons_of_mem _ (ih h)

theorem getField_eq_none : getField name fields = none ↔ name ∉ fields.map Prod.fst := by
  induction fields with
  | nil => simp [getField]
  | cons field fields ih =>
      obtain ⟨n, w⟩ := field
      rw [getField, List.map_cons, List.mem_cons, not_or, ← ih]
      by_cases hn : n = name
      · simp [hn]
      · simp [hn, Ne.symm hn]

theorem getField_of_mem (hnodup : (fields.map Prod.fst).Nodup) (h : (name, v) ∈ fields) :
    getField name fields = some v := by
  induction fields with
  | nil => cases h
  | cons field fields ih =>
      obtain ⟨n, w⟩ := field
      obtain ⟨hnew, hnodup⟩ := List.nodup_cons.mp hnodup
      rw [getField]
      rcases List.mem_cons.mp h with heq | hmem
      · cases heq
        exact if_pos rfl
      · have hn : n ≠ name := by
          rintro rfl
          exact hnew (List.mem_map.mpr ⟨_, hmem, rfl⟩)
        rw [if_neg hn]
        exact ih hnodup hmem

end Json

/-- The values that are valid under a schema. -/
abbrev JsonSchema := Json → Prop

namespace JsonSchema

/-- What a keyword asks of a string. -/
abbrev Keyword := String → Prop

def minLength (n : Nat) : Keyword := fun s => n ≤ s.length

def maxLength (n : Nat) : Keyword := fun s => s.length ≤ n

def pattern (p : Regex) : Keyword := fun s => p.Matches s

def enum (values : List String) : Keyword := fun s => s ∈ values

/-- `"type": "string"` -/
def string (keywords : List Keyword) : JsonSchema := fun v =>
  ∃ s, v = .str s ∧ ∀ keyword ∈ keywords, keyword s

/-- `"type": ["string", "null"]` -/
def nullable (keywords : List Keyword) : JsonSchema := fun v => v = .null ∨ string keywords v

/-- `"type": "boolean"` -/
def boolean : JsonSchema := fun v => ∃ b, v = .bool b

/-- `"const"`, of a string. -/
def const (value : String) : JsonSchema := fun v => v = .str value

/-- `"oneOf"`: one of the schemas admits the value, and no other does. -/
def oneOf (schemas : List JsonSchema) : JsonSchema := fun v =>
  ∃ before schema after, schemas = before ++ schema :: after ∧ schema v
    ∧ ∀ other ∈ before ++ after, ¬ other v

/-- `"type": "array"`, `"uniqueItems": true` -/
def uniqueItems (minItems maxItems : Nat) (items : JsonSchema) : JsonSchema := fun v =>
  ∃ elems, v = .arr elems ∧ minItems ≤ elems.length ∧ elems.length ≤ maxItems ∧ elems.Nodup
    ∧ ∀ elem ∈ elems, items elem

/-- `"type": "object"`, `"additionalProperties": false` -/
def object (required : List String) (properties : List (String × JsonSchema)) : JsonSchema :=
  fun v => ∃ fields, v = .obj fields ∧ (fields.map Prod.fst).Nodup
    ∧ (∀ name ∈ required, name ∈ fields.map Prod.fst)
    ∧ ∀ field ∈ fields, ∃ schema, (field.1, schema) ∈ properties ∧ schema field.2

/-! ## Strings -/

section Strings

variable {s : String} {o : Option String} {v : Json} {keywords : List Keyword}

@[simp] theorem string_str :
    string keywords (.str s) ↔ ∀ keyword ∈ keywords, keyword s := by
  constructor
  · rintro ⟨s', heq, h⟩
    cases heq
    exact h
  · exact fun h => ⟨s, rfl, h⟩

@[simp] theorem nullable_ofOption :
    nullable keywords (.ofOption o) ↔ ∀ s, o = some s → ∀ keyword ∈ keywords, keyword s := by
  cases o with
  | none => exact ⟨fun _ s hs => (by cases hs), fun _ => Or.inl rfl⟩
  | some s =>
      constructor
      · rintro (hnull | hstring) s' hs
        · cases hnull
        · cases hs
          exact string_str.mp hstring
      · exact fun h => Or.inr (string_str.mpr (h s rfl))

/-- A value that may be `null` is an option. -/
theorem nullable_iff : nullable keywords v
    ↔ ∃ o, v = .ofOption o ∧ ∀ s, o = some s → ∀ keyword ∈ keywords, keyword s := by
  constructor
  · rintro (rfl | ⟨s, rfl, h⟩)
    · exact ⟨none, rfl, fun s hs => (by cases hs)⟩
    · refine ⟨some s, rfl, fun s' hs => ?_⟩
      cases hs
      exact h
  · rintro ⟨o, rfl, h⟩
    exact nullable_ofOption.mpr h

theorem string_single {keyword : Keyword} : string [keyword] (.str s) ↔ keyword s := by
  simp

theorem string_plain : string [] v ↔ ∃ s, v = .str s := by
  simp [string]

theorem nullable_single {keyword : Keyword} :
    nullable [keyword] (.ofOption o) ↔ ∀ s, o = some s → keyword s := by
  simp

theorem nullable_plain : nullable [] v ↔ ∃ o, v = .ofOption o := by
  simp [nullable_iff]

@[simp] theorem boolean_bool (b : Bool) : boolean (.bool b) := ⟨b, rfl⟩

/-- Of different constants at most one admits a value. -/
theorem oneOf_const_iff {values : List String} (hnodup : values.Nodup) :
    oneOf (values.map const) v ↔ ∃ s ∈ values, v = .str s := by
  constructor
  · rintro ⟨before, schema, after, heq, hv, -⟩
    have hmem : schema ∈ values.map const :=
      heq ▸ List.mem_append_right before List.mem_cons_self
    obtain ⟨s, hs, rfl⟩ := List.mem_map.mp hmem
    exact ⟨s, hs, hv⟩
  · rintro ⟨s, hs, rfl⟩
    obtain ⟨before, after, rfl⟩ := List.append_of_mem hs
    refine ⟨before.map const, const s, after.map const, by simp, rfl, fun other hother => ?_⟩
    rw [← List.map_append] at hother
    obtain ⟨s', hs', rfl⟩ := List.mem_map.mp hother
    intro heq
    cases heq
    exact (List.nodup_cons.mp (List.nodup_middle.mp hnodup)).1 hs'

end Strings

/-! ## Objects -/

section Objects

variable {required : List String} {properties : List (String × JsonSchema)} {v : Json}
  {fields : List (String × Json)}

theorem mem_properties (hp : (properties.map Prod.fst).Nodup) {name : String}
    {schema schema' : JsonSchema} (h : (name, schema) ∈ properties)
    (h' : (name, schema') ∈ properties) : schema = schema' :=
  congrArg Prod.snd (List.inj_on_of_nodup_map hp h h' rfl)

/-- What a schema says of one property: it is there and valid, or may be absent and is. -/
def Meets (required : List String) (fields : List (String × Json))
    (property : String × JsonSchema) : Prop :=
  (∃ w, Json.getField property.1 fields = some w ∧ property.2 w)
    ∨ (property.1 ∉ required ∧ Json.getField property.1 fields = none)

@[simp] theorem meets_required {name : String} {schema : JsonSchema} (h : name ∈ required) :
    Meets required fields (name, schema)
      ↔ ∃ w, Json.getField name fields = some w ∧ schema w := by
  simp [Meets, h]

/-- A text that may be absent is an option. -/
theorem meets_optional {name : String} {keywords : List Keyword} (h : name ∉ required) :
    Meets required fields (name, string keywords) ↔ ∃ o : Option String,
      Json.getField name fields = o.map Json.str
        ∧ ∀ s, o = some s → ∀ keyword ∈ keywords, keyword s := by
  constructor
  · rintro (⟨_, hget, s, rfl, hs⟩ | ⟨-, hnone⟩)
    · refine ⟨some s, hget, fun s' heq => ?_⟩
      cases heq
      exact hs
    · exact ⟨none, hnone, fun s hs => (by cases hs)⟩
  · rintro ⟨o, hget, ho⟩
    cases o with
    | none => exact Or.inr ⟨h, hget⟩
    | some s => exact Or.inl ⟨_, hget, string_str.mpr (ho s rfl)⟩

/-- What a schema says of an object, property by property. -/
theorem object_iff (hp : (properties.map Prod.fst).Nodup)
    (hr : required ⊆ properties.map Prod.fst) : object required properties (.obj fields)
    ↔ (fields.map Prod.fst).Nodup ∧ fields.map Prod.fst ⊆ properties.map Prod.fst
      ∧ ∀ property ∈ properties, Meets required fields property := by
  constructor
  · rintro ⟨fields', heq, hnodup, hrequired, hfields⟩
    cases heq
    refine ⟨hnodup, fun name hname => ?_, ?_⟩
    · obtain ⟨field, hfield, rfl⟩ := List.mem_map.mp hname
      obtain ⟨schema, hmem, -⟩ := hfields field hfield
      exact List.mem_map.mpr ⟨_, hmem, rfl⟩
    · rintro ⟨name, schema⟩ hproperty
      cases hget : Json.getField name fields with
      | none =>
          exact Or.inr ⟨fun hmem => Json.getField_eq_none.mp hget (hrequired name hmem), hget⟩
      | some w =>
          obtain ⟨schema', hmem, hvalid⟩ := hfields _ (Json.mem_of_getField hget)
          cases mem_properties hp hproperty hmem
          exact Or.inl ⟨w, hget, hvalid⟩
  · rintro ⟨hnodup, hclosed, hmeets⟩
    refine ⟨fields, rfl, hnodup, fun name hname => ?_, ?_⟩
    · obtain ⟨⟨name', schema⟩, hproperty, rfl⟩ := List.mem_map.mp (hr hname)
      rcases hmeets _ hproperty with ⟨w, hw, -⟩ | ⟨hnot, -⟩
      · exact List.mem_map.mpr ⟨_, Json.mem_of_getField hw, rfl⟩
      · exact absurd hname hnot
    · rintro ⟨name, w⟩ hfield
      obtain ⟨⟨name', schema⟩, hproperty, rfl⟩ :=
        List.mem_map.mp (hclosed (List.mem_map.mpr ⟨_, hfield, rfl⟩))
      have hget : Json.getField name' fields = some w := Json.getField_of_mem hnodup hfield
      rcases hmeets _ hproperty with ⟨w', hw', hvalid⟩ | ⟨-, hnone⟩
      · cases hget.symm.trans hw'
        exact ⟨schema, hproperty, hvalid⟩
      · cases hget.symm.trans hnone

end Objects

end JsonSchema
