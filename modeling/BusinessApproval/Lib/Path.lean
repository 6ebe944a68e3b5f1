import Mathlib.Data.List.Infix

/-!
# Relative paths

A path is resolved one component at a time, from the directory that has been reached
so far: `.` and an empty component stay where they are, `..` goes back, and any other
component goes on. A path of plain components goes on at every step.
-/

namespace Path

/-- A place, as the names that lead there from the root. -/
abbrev Place := List String

/-- The place a component leads to. -/
def step (place : Place) (component : String) : Place :=
  if component = "" ∨ component = "." then place
  else if component = ".." then place.dropLast
  else place ++ [component]

/-- The place a list of components leads to. -/
def resolve (base : Place) (components : List String) : Place := components.foldl step base

/-- A component that names something. -/
structure Plain (component : String) : Prop where
  nonempty : component ≠ ""
  notSelf : component ≠ "."
  notParent : component ≠ ".."

variable {base : Place} {components : List String}

theorem step_plain {component : String} (h : Plain component) (place : Place) :
    step place component = place ++ [component] := by
  rw [step, if_neg (not_or.mpr ⟨h.nonempty, h.notSelf⟩), if_neg h.notParent]

theorem resolve_plain (h : ∀ component ∈ components, Plain component) :
    resolve base components = base ++ components := by
  induction components generalizing base with
  | nil => exact (List.append_nil base).symm
  | cons component components ih =>
      obtain ⟨hfirst, hrest⟩ := List.forall_mem_cons.mp h
      change resolve (step base component) components = _
      rw [ih hrest, step_plain hfirst, List.append_assoc, List.singleton_append]

/-- **Plain components never leave the base**, on the way or at the end. -/
theorem base_prefix_resolve (h : ∀ component ∈ components, Plain component) (n : Nat) :
    base <+: resolve base (components.take n) := by
  rw [resolve_plain fun component hc => h component (List.mem_of_mem_take hc)]
  exact List.prefix_append base _

/-- They lead somewhere below it. -/
theorem resolve_ne_base (h : ∀ component ∈ components, Plain component)
    (hne : components ≠ []) : resolve base components ≠ base := by
  rw [resolve_plain h]
  intro heq
  exact hne (List.append_right_eq_self.mp heq)

end Path
