import Mathlib.Data.List.TakeWhile
import Mathlib.Data.Int.Order.Basic

/-!
# Decimal text of integers

An integer crosses between languages as its decimal text, `toString n`. It is read
back in two ways: `parseInt` wants the whole text to be an integer, `castInteger`
takes the longest prefix that is one and saturates at 64 bits, as SQLite's
`CAST(… AS INTEGER)` does. Both give back the integer that was written.
-/

namespace Decimal

/-- One or more digits, and nothing else. -/
def parseNat (cs : List Char) : Option Nat :=
  if cs ≠ [] ∧ cs.all Char.isDigit then some (Nat.ofDigitChars 10 cs 0) else none

/-- An optional sign, then one or more digits. -/
def parseInt (text : String) : Option Int :=
  match text.toList with
  | '-' :: cs => (parseNat cs).map (fun n => -(n : Int))
  | '+' :: cs => (parseNat cs).map (fun n => (n : Int))
  | cs => (parseNat cs).map (fun n => (n : Int))

def minInt64 : Int := -9223372036854775808

def maxInt64 : Int := 9223372036854775807

def saturate (n : Int) : Int := max minInt64 (min maxInt64 n)

/-- The number a run of digits at the front spells; zero when there is none. -/
def natPrefix (cs : List Char) : Nat := Nat.ofDigitChars 10 (cs.takeWhile Char.isDigit) 0

/-- The integer at the front of a text, after spaces, saturated at 64 bits. -/
def castInteger (text : String) : Int :=
  match text.toList.dropWhile (· == ' ') with
  | '-' :: cs => saturate (-(natPrefix cs : Int))
  | '+' :: cs => saturate (natPrefix cs)
  | cs => saturate (natPrefix cs)

/-! ## Reading back what was written -/

theorem all_isDigit_toDigits (n : Nat) : (Nat.toDigits 10 n).all Char.isDigit = true :=
  List.all_eq_true.mpr (fun _ hc => Nat.isDigit_of_mem_toDigits (by decide) (by decide) hc)

theorem parseNat_toDigits (n : Nat) : parseNat (Nat.toDigits 10 n) = some n := by
  rw [parseNat, if_pos ⟨Nat.toDigits_ne_nil, all_isDigit_toDigits n⟩, Nat.ofDigitChars_ten_toDigits]

theorem natPrefix_toDigits (n : Nat) : natPrefix (Nat.toDigits 10 n) = n := by
  rw [natPrefix, List.takeWhile_eq_self_iff.mpr (List.all_eq_true.mp (all_isDigit_toDigits n)),
    Nat.ofDigitChars_ten_toDigits]

theorem saturate_of_mem {n : Int} (h0 : minInt64 ≤ n) (h1 : n ≤ maxInt64) : saturate n = n := by
  unfold saturate
  omega

/-- The digits of a natural number do not start with a sign or a space. -/
theorem toDigits_head {n : Nat} {c : Char} {cs : List Char} (h : Nat.toDigits 10 n = c :: cs) :
    c ≠ '-' ∧ c ≠ '+' ∧ c ≠ ' ' := by
  have hc : c.isDigit = true :=
    Nat.isDigit_of_mem_toDigits (n := n) (by decide) (by decide) (h ▸ List.mem_cons_self)
  refine ⟨?_, ?_, ?_⟩ <;> rintro rfl <;> exact absurd hc (by decide)

theorem toList_negSucc (n : Nat) :
    (toString (Int.negSucc n)).toList = '-' :: Nat.toDigits 10 (n + 1) := by
  rw [show toString (Int.negSucc n) = "-" ++ Nat.repr (n + 1) from rfl, String.toList_append,
    Nat.toList_repr]
  rfl

theorem toList_ofNat (n : Nat) : (toString (Int.ofNat n)).toList = Nat.toDigits 10 n := by
  rw [show toString (Int.ofNat n) = Nat.repr n from rfl, Nat.toList_repr]

theorem parseInt_toString (n : Int) : parseInt (toString n) = some n := by
  unfold parseInt
  cases n with
  | ofNat n =>
      rw [toList_ofNat]
      split
      next cs h => exact absurd rfl (toDigits_head h).1
      next cs h => exact absurd rfl (toDigits_head h).2.1
      next => rw [parseNat_toDigits]; rfl
  | negSucc n =>
      rw [toList_negSucc]
      simp only [parseNat_toDigits]
      rfl

theorem castInteger_toString {n : Int} (h0 : minInt64 ≤ n) (h1 : n ≤ maxInt64) :
    castInteger (toString n) = n := by
  unfold castInteger
  cases n with
  | ofNat n =>
      have hdrop : (Nat.toDigits 10 n).dropWhile (· == ' ') = Nat.toDigits 10 n := by
        cases h : Nat.toDigits 10 n with
        | nil => rfl
        | cons c cs => simp [(toDigits_head h).2.2]
      rw [toList_ofNat, hdrop]
      split
      next cs h => exact absurd rfl (toDigits_head h).1
      next cs h => exact absurd rfl (toDigits_head h).2.1
      next => rw [natPrefix_toDigits]; exact saturate_of_mem h0 h1
  | negSucc n =>
      have hdrop : ('-' :: Nat.toDigits 10 (n + 1)).dropWhile (· == ' ')
          = '-' :: Nat.toDigits 10 (n + 1) := rfl
      rw [toList_negSucc, hdrop]
      simp only [natPrefix_toDigits]
      exact saturate_of_mem h0 h1

example : castInteger "41 rows" = 41 ∧ parseInt "41 rows" = none := by decide

end Decimal
