import Mathlib.Data.List.Basic

/-!
# JavaScript data

The values a JavaScript host passes around when it works with JSON: `null`,
booleans, numbers, strings, arrays and objects. An absent property is `undefined`,
which is no value here: `get` answers `none`.

`text v` is a string too, the one that spells `v`. `JSON.stringify` makes it,
`JSON.parse` reads it back, and a database column may hold it; keeping the value
in place of its characters is what makes that round trip an equation. `JsonText` has
the characters, and the round trip through them.
-/

inductive Json where
  | null
  | bool (b : Bool)
  | num (n : Int)
  /-- A number that is not a safe integer, with a text that spells it. -/
  | frac (spelling : String)
  | str (s : String)
  | text (v : Json)
  | arr (elems : List Json)
  | obj (fields : List (String × Json))
  deriving Repr, Inhabited

namespace Json

/-- The value of a property in a list of them. -/
def getField (name : String) : List (String × Json) → Option Json
  | [] => none
  | (n, v) :: fields => if n = name then some v else getField name fields

/-- Give one property a value, in its place or at the end. -/
def setField (name : String) (v : Json) : List (String × Json) → List (String × Json)
  | [] => [(name, v)]
  | (n, w) :: fields =>
      if n = name then (name, v) :: fields else (n, w) :: setField name v fields

/-- `value[name]`; `none` is `undefined`. -/
def get (name : String) : Json → Option Json
  | obj fields => getField name fields
  | _ => none

/-- `json_set(value, '$.name', v)`, and what an object literal's `name: v` does after a spread. -/
def set (value : Json) (name : String) (v : Json) : Json :=
  match value with
  | obj fields => obj (setField name v fields)
  | value => value

/-- Set several properties, from the left. -/
def setAll (updates : List (String × Json)) (value : Json) : Json :=
  updates.foldl (fun value update => value.set update.1 update.2) value

/-- A text, or `null`. -/
def ofOption : Option String → Json
  | some s => str s
  | none => null

def asStr : Json → Option String
  | str s => some s
  | _ => none

def asNum : Json → Option Int
  | num n => some n
  | _ => none

def asBool : Json → Option Bool
  | bool b => some b
  | _ => none

def asArr : Json → Option (List Json)
  | arr elems => some elems
  | _ => none

/-- JavaScript's truth: only `null`, `false`, `0`, `NaN` and the empty string are false. -/
def truthy : Json → Bool
  | null => false
  | bool b => b
  | num n => n != 0
  | frac spelling => spelling != "NaN"
  | str s => s != ""
  | _ => true

/-! ## Properties -/

variable {name other : String} {v value : Json}

/-- The values that are objects. -/
def IsObj (value : Json) : Prop := ∃ fields, value = obj fields

theorem isObj_set (h : value.IsObj) : (value.set name v).IsObj := by
  obtain ⟨fields, rfl⟩ := h
  exact ⟨setField name v fields, rfl⟩

theorem getField_setField (fields : List (String × Json)) :
    getField other (setField name v fields)
      = if other = name then some v else getField other fields := by
  induction fields with
  | nil =>
      by_cases ho : other = name
      · simp [setField, getField, ho]
      · simp [setField, getField, ho, Ne.symm ho]
  | cons field fields ih =>
      obtain ⟨n, w⟩ := field
      by_cases hn : n = name
      · by_cases ho : other = name
        · simp [setField, getField, hn, ho]
        · simp [setField, getField, hn, ho, Ne.symm ho]
      · rw [setField, if_neg hn, getField, getField, ih]
        by_cases ho : n = other
        · simp [← ho, hn]
        · simp [ho]

/-- After a `set`, the property has its new value and every other one its old. -/
theorem get_set (h : value.IsObj) :
    (value.set name v).get other = if other = name then some v else value.get other := by
  obtain ⟨fields, rfl⟩ := h
  exact getField_setField fields

@[simp] theorem setAll_nil (value : Json) : setAll [] value = value := rfl

@[simp] theorem setAll_cons (update : String × Json) (updates : List (String × Json))
    (value : Json) :
    setAll (update :: updates) value = setAll updates (value.set update.1 update.2) := rfl

theorem isObj_setAll (updates : List (String × Json)) (h : value.IsObj) :
    (setAll updates value).IsObj := by
  induction updates generalizing value with
  | nil => exact h
  | cons update updates ih => exact ih (isObj_set h)

/-- A property that is not updated keeps its value. -/
theorem get_setAll_of_notMem {updates : List (String × Json)} (h : value.IsObj)
    (hn : ∀ update ∈ updates, other ≠ update.1) :
    (setAll updates value).get other = value.get other := by
  induction updates generalizing value with
  | nil => rfl
  | cons update updates ih =>
      rw [setAll_cons, ih (isObj_set h) (fun u hu => hn u (List.mem_cons_of_mem _ hu)), get_set h,
        if_neg (hn update List.mem_cons_self)]

/-- An updated property has the value of its last update. -/
theorem get_setAll_of_last {before after : List (String × Json)} (h : value.IsObj)
    (hn : ∀ update ∈ after, name ≠ update.1) :
    (setAll (before ++ (name, v) :: after) value).get name = some v := by
  unfold setAll
  rw [List.foldl_append, List.foldl_cons]
  have hbefore : (setAll before value).IsObj := isObj_setAll before h
  refine (get_setAll_of_notMem (isObj_set hbefore) hn).trans ?_
  rw [get_set hbefore, if_pos rfl]

@[simp] theorem asStr_str (s : String) : asStr (str s) = some s := rfl

end Json
