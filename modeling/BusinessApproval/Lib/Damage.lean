import BusinessApproval.Lib.JsonText

/-!
# Damaged JSON values

A value is damaged when, anywhere in it, properties or elements are missing, or values
have been replaced by values of another JSON type. Nothing is added, and what is left
keeps its order.

What a damaged value still has can be read off in two ways: the elements of an array are
damaged elements (`DamagedElems`), and a property that is there is a damaged property of
the value it was (`Damaged.get`).
-/

namespace Json

/-- The JSON types. -/
inductive Kind where
  | null
  | bool
  | number
  | string
  | array
  | object
  deriving DecidableEq, Repr

def kind : Json → Kind
  | null => .null
  | bool _ => .bool
  | num _ => .number
  | frac _ => .number
  | str _ => .string
  | text _ => .string
  | arr _ => .array
  | obj _ => .object

mutual

inductive Damaged : Json → Json → Prop
  | kept (v : Json) : Damaged v v
  | retyped {v w : Json} (h : v.kind ≠ w.kind) : Damaged v w
  | arr {vs ws : List Json} (h : DamagedElems vs ws) : Damaged (.arr vs) (.arr ws)
  | obj {fs gs : List (String × Json)} (h : DamagedFields fs gs) : Damaged (.obj fs) (.obj gs)

inductive DamagedElems : List Json → List Json → Prop
  | nil : DamagedElems [] []
  | lost (v : Json) {vs ws : List Json} (h : DamagedElems vs ws) : DamagedElems (v :: vs) ws
  | cons {v w : Json} {vs ws : List Json} (hv : Damaged v w) (h : DamagedElems vs ws) :
      DamagedElems (v :: vs) (w :: ws)

inductive DamagedFields : List (String × Json) → List (String × Json) → Prop
  | nil : DamagedFields [] []
  | lost (f : String × Json) {fs gs : List (String × Json)} (h : DamagedFields fs gs) :
      DamagedFields (f :: fs) gs
  | cons {v w : Json} (name : String) {fs gs : List (String × Json)} (hv : Damaged v w)
      (h : DamagedFields fs gs) : DamagedFields ((name, v) :: fs) ((name, w) :: gs)

end

/-! ## Arrays -/

theorem DamagedElems.refl (vs : List Json) : DamagedElems vs vs := by
  induction vs with
  | nil => exact .nil
  | cons v vs ih => exact .cons (.kept v) ih

/-- All elements may be missing. -/
theorem DamagedElems.none (vs : List Json) : DamagedElems vs [] := by
  induction vs with
  | nil => exact .nil
  | cons v vs ih => exact .lost v ih

theorem Damaged.elems {vs ws : List Json} (h : Damaged (.arr vs) (.arr ws)) :
    DamagedElems vs ws := by
  cases h with
  | kept => exact .refl vs
  | retyped h => exact absurd rfl h
  | arr h => exact h

theorem DamagedElems.length_le {vs ws : List Json} (h : DamagedElems vs ws) :
    ws.length ≤ vs.length := by
  induction vs generalizing ws with
  | nil =>
      cases h with
      | nil => exact Nat.le_refl 0
  | cons v vs ih =>
      cases h with
      | lost _ h => exact Nat.le_succ_of_le (ih h)
      | cons _ h => exact Nat.succ_le_succ (ih h)

/-- When no element is missing, each is damaged in its place. -/
theorem DamagedElems.of_length {v : Json} {vs : List Json} {ws : List Json}
    (h : DamagedElems (v :: vs) ws) (hlen : ws.length = vs.length + 1) :
    ∃ w rest, ws = w :: rest ∧ Damaged v w ∧ DamagedElems vs rest := by
  cases h with
  | lost _ h =>
      have := h.length_le
      omega
  | cons hv h => exact ⟨_, _, rfl, hv, h⟩

theorem DamagedElems.of_nil {ws : List Json} (h : DamagedElems [] ws) : ws = [] := by
  cases h with
  | nil => rfl

theorem DamagedElems.of_singleton {v : Json} {ws : List Json} (h : DamagedElems [v] ws) :
    ws = [] ∨ ∃ w, ws = [w] ∧ Damaged v w := by
  cases h with
  | lost _ h => exact Or.inl h.of_nil
  | cons hv h =>
      rw [h.of_nil]
      exact Or.inr ⟨_, rfl, hv⟩

/-! ## Objects -/

theorem getField_mem {name : String} {fields : List (String × Json)} {v : Json}
    (h : getField name fields = some v) : (name, v) ∈ fields := by
  induction fields with
  | nil => cases h
  | cons field fields ih =>
      obtain ⟨n, w⟩ := field
      rw [getField] at h
      split at h
      next hn =>
        obtain rfl := Option.some.inj h
        exact hn ▸ List.mem_cons_self
      next => exact List.mem_cons_of_mem _ (ih h)

/-- A property that is still there was there before. -/
theorem DamagedFields.of_getField {name : String} {fs gs : List (String × Json)} {w : Json}
    (h : DamagedFields fs gs) (hw : getField name gs = some w) :
    ∃ v, (name, v) ∈ fs ∧ Damaged v w := by
  induction fs generalizing gs with
  | nil =>
      cases h with
      | nil => cases hw
  | cons f fs ih =>
      cases h with
      | lost _ h =>
          obtain ⟨v, hv, hdamaged⟩ := ih h hw
          exact ⟨v, List.mem_cons_of_mem _ hv, hdamaged⟩
      | cons n hv h =>
          rw [getField] at hw
          split at hw
          next hn =>
            obtain rfl := Option.some.inj hw
            exact ⟨_, hn ▸ List.mem_cons_self, hv⟩
          next =>
            obtain ⟨v, hmem, hdamaged⟩ := ih h hw
            exact ⟨v, List.mem_cons_of_mem _ hmem, hdamaged⟩

/-- **A property of a damaged object is a damaged property of the object.** -/
theorem Damaged.get {name : String} {fs : List (String × Json)} {d w : Json}
    (h : Damaged (.obj fs) d) (hw : d.get name = some w) : ∃ v, (name, v) ∈ fs ∧ Damaged v w := by
  cases d with
  | obj gs =>
      cases h with
      | kept => exact ⟨w, getField_mem hw, .kept w⟩
      | retyped h => exact absurd rfl h
      | obj h => exact h.of_getField hw
  | _ => cases hw

end Json
