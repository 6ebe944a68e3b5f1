import BusinessApproval.Lib.JsonSchema
import Std.Data.ExtTreeMap

/-!
# Derived deserialisation

What `#[derive(Deserialize)]` makes of a struct with named fields, over the tree of a JSON
text. A struct is read from an object, in any order of its members and whatever others it
has, or from an array of its fields in the order of their declaration. A member that comes
twice is an error, and so is one that is missing, unless the field says what it is then.
-/

namespace Serde

/-! ## Values -/

/-- `Option<T>` -/
def option {α : Type} (read : Json → Option α) : Json → Option (Option α)
  | .null => some none
  | v => some <$> read v

/-- An enum of unit variants: the name of one, or an object that has it as its only member. -/
def unitVariant {α : Type} (variants : List (String × α)) : Json → Option α
  | .str name => variants.lookup name
  | .obj [(name, .null)] => variants.lookup name
  | _ => none

/-- `Vec<T>` -/
def vec {α : Type} (read : Json → Option α) : Json → Option (List α)
  | .arr elems => elems.mapM read
  | _ => none

@[simp] theorem option_null {α : Type} (read : Json → Option α) : option read .null = some none :=
  rfl

@[simp] theorem option_asStr_ofOption (o : Option String) :
    option Json.asStr (.ofOption o) = some o := by
  cases o <;> rfl

theorem vec_eq_some {α : Type} {read : Json → Option α} {write : α → Json} {v : Json}
    (h : ∀ w a, read w = some a ↔ w = write a) {elems : List α} :
    vec read v = some elems ↔ v = .arr (elems.map write) := by
  have hmap : ∀ ws, ws.mapM read = some elems ↔ ws = elems.map write := by
    intro ws
    induction ws generalizing elems with
    | nil => cases elems <;> simp
    | cons w ws ih =>
        rw [List.mapM_cons]
        change ((read w).bind fun a => (ws.mapM read).bind fun as => some (a :: as)) = _ ↔ _
        simp only [Option.bind_eq_some_iff, Option.some.injEq]
        constructor
        · rintro ⟨a, ha, as, has, rfl⟩
          rw [List.map_cons, (h w a).mp ha, ih.mp has]
        · intro heq
          cases elems with
          | nil => cases heq
          | cons a elems =>
              obtain ⟨rfl, rfl⟩ := List.cons.inj heq
              exact ⟨a, (h _ a).mpr rfl, elems, ih.mpr rfl, rfl⟩
  cases v with
  | arr ws => simpa [vec] using hmap ws
  | _ => simp [vec]

@[simp] theorem unitVariant_str {α : Type} (variants : List (String × α)) (name : String) :
    unitVariant variants (.str name) = variants.lookup name := rfl

/-! ## Maps -/

/-- Members put into a map one after another, of which those of a map come last. -/
theorem getElem?_insertMany_toList {α β : Type} {cmp : α → α → Ordering} [Std.TransCmp cmp]
    [Std.LawfulEqCmp cmp] [BEq α] [Std.LawfulBEqCmp cmp] (t m : Std.ExtTreeMap α β cmp) (k : α) :
    (t.insertMany m.toList)[k]? = m[k]?.or t[k]? := by
  cases hk : m[k]? with
  | some v =>
      have hmem : (k, v) ∈ m.toList := Std.ExtTreeMap.mem_toList_iff_getElem?_eq_some.mpr hk
      rw [Std.ExtTreeMap.getElem?_insertMany_list_of_mem Std.ReflCmp.compare_self
        Std.ExtTreeMap.distinct_keys_toList hmem, Option.some_or]
  | none =>
      have hnot : (m.toList.map Prod.fst).contains k = false := by
        rw [Std.ExtTreeMap.map_fst_toList_eq_keys, Std.ExtTreeMap.contains_keys,
          Std.ExtTreeMap.contains_eq_isSome_getElem?, hk, Option.isSome_none]
      rw [Std.ExtTreeMap.getElem?_insertMany_list_of_contains_eq_false hnot, Option.none_or]

/-! ## Structs -/

/-- How a field is read, and what it is when it is absent. -/
structure Field (α : Type) where
  name : String
  read : Json → Option α
  absent : Option α

/-- A struct with fields of these names can be read from the value, as far as its shape goes. -/
def isStruct (names : List String) : Json → Bool
  | .obj fields => decide ((fields.map Prod.fst).filter (fun name => names.contains name)).Nodup
  | .arr elems => elems.length == names.length
  | _ => false

/-- The same under `deny_unknown_fields`, which allows no other member. -/
def isStrictStruct (names : List String) : Json → Bool
  | .obj fields =>
      decide (fields.map Prod.fst).Nodup && fields.all (fun field => names.contains field.1)
  | .arr elems => elems.length == names.length
  | _ => false

/-- The field in a position. -/
def field {α : Type} (v : Json) (position : Nat) (f : Field α) : Option α :=
  match v with
  | .obj fields =>
      match Json.getField f.name fields with
      | some w => f.read w
      | none => f.absent
  | .arr elems => elems[position]?.bind f.read
  | _ => none

/-- A field that has no value when it is absent. -/
def present {α : Type} (name : String) (read : Json → Option α) : Field α := ⟨name, read, none⟩

/-- A field of an `Option`, which is `None` when it is absent. -/
def optional {α : Type} (name : String) (read : Json → Option α) : Field (Option α) :=
  ⟨name, option read, some none⟩

/-- The member of a field under `skip_serializing_if = "Option::is_none"`. -/
def skipNone (name : String) : Option String → List (String × Json)
  | some s => [(name, .str s)]
  | none => []

section Objects

variable {α : Type} {f : Field α} {fields : List (String × Json)}

theorem isStruct_obj (names : List String) (h : (fields.map Prod.fst).Nodup) :
    isStruct names (.obj fields) = true := decide_eq_true (h.filter _)

theorem isStrictStruct_obj {names : List String} : isStrictStruct names (.obj fields) = true
    ↔ (fields.map Prod.fst).Nodup ∧ fields.map Prod.fst ⊆ names := by
  simp [isStrictStruct, List.subset_def]

/-- What a field that must be there is read from. -/
theorem field_present_eq_some {name : String} {read : Json → Option α} {position : Nat} {a : α} :
    field (.obj fields) position (present name read) = some a
      ↔ ∃ w, Json.getField name fields = some w ∧ read w = some a := by
  cases hget : Json.getField name fields with
  | none => simp [field, present, hget]
  | some w => simp [field, present, hget]

theorem field_present {v : Json} {position : Nat} (h : Json.getField f.name fields = some v) :
    field (.obj fields) position f = f.read v := by
  simp only [field, h]

theorem field_absent {position : Nat} (h : Json.getField f.name fields = none) :
    field (.obj fields) position f = f.absent := by
  simp only [field, h]

/-- An optional text, absent or not. -/
theorem field_optional {name : String} {position : Nat} {o : Option String}
    (h : Json.getField name fields = o.map Json.str) :
    field (.obj fields) position (optional name Json.asStr) = some o := by
  cases o with
  | none => exact field_absent (f := optional name Json.asStr) h
  | some s => exact field_present (f := optional name Json.asStr) h

end Objects

end Serde
