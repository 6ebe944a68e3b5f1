import Mathlib.Computability.Language

/-!
# Patterns over strings

The part of regular expressions that patterns for identifiers are written in:
character classes, sequence, alternative and repetition. A pattern denotes a
language, and `text` spells it, so that a pattern can be compared with the text it
stands for. A pattern between `^` and `$` matches a string that is in its language
as a whole.
-/

namespace Regex

open Computability

/-- An item of a character class. -/
inductive ClassItem where
  | range (first last : Char)
  | char (c : Char)
  deriving DecidableEq, Repr

abbrev CharClass := List ClassItem

namespace ClassItem

def test (c : Char) : ClassItem → Bool
  | range first last => first ≤ c && c ≤ last
  | char d => c == d

def text : ClassItem → String
  | range first last => String.ofList [first, '-', last]
  | char d => String.ofList [d]

/-- The largest character an item lets through. -/
def last : ClassItem → Char
  | range _ last => last
  | char d => d

theorem le_last {item : ClassItem} {c : Char} (h : item.test c = true) : c ≤ item.last := by
  cases item with
  | range first last =>
      simp only [test, Bool.and_eq_true, decide_eq_true_eq] at h
      exact h.2
  | char d =>
      rw [eq_of_beq h]
      exact Char.le_refl d

end ClassItem

namespace CharClass

def test (cls : CharClass) (c : Char) : Bool := cls.any (ClassItem.test c)

def text (cls : CharClass) : String := String.join (cls.map ClassItem.text)

/-- A class of ASCII characters. -/
def Ascii (cls : CharClass) : Prop := ∀ item ∈ cls, item.last.toNat < 128

instance (cls : CharClass) : Decidable cls.Ascii :=
  inferInstanceAs (Decidable (∀ item ∈ cls, item.last.toNat < 128))

theorem Ascii.lt {cls : CharClass} (h : cls.Ascii) {c : Char} (hc : cls.test c = true) :
    c.toNat < 128 := by
  obtain ⟨item, hitem, htest⟩ := List.any_eq_true.mp hc
  have hle : c.toNat ≤ item.last.toNat := ClassItem.le_last htest
  have hlast := h item hitem
  omega

end CharClass

end Regex

/-- A pattern. -/
inductive Regex where
  | one (cls : Regex.CharClass)
  | seq (p q : Regex)
  | alt (p q : Regex)
  | star (p : Regex)
  | plus (p : Regex)
  | times (p : Regex) (n : Nat)
  deriving DecidableEq, Repr

namespace Regex

open Computability

def text : Regex → String
  | one cls => "[" ++ cls.text ++ "]"
  | seq p q => p.text ++ q.text
  | alt p q => "(?:" ++ p.text ++ "|" ++ q.text ++ ")"
  | star p => p.text ++ "*"
  | plus p => p.text ++ "+"
  | times p n => p.text ++ "\x7b" ++ toString n ++ "\x7d"

/-- The text of a pattern that has to match the whole string. -/
def anchored (p : Regex) : String := "^" ++ p.text ++ "$"

def language : Regex → Language Char
  | one cls => {w | ∃ c, cls.test c = true ∧ w = [c]}
  | seq p q => p.language * q.language
  | alt p q => p.language + q.language
  | star p => p.language∗
  | plus p => p.language * p.language∗
  | times p n => p.language ^ n

/-- A string that the pattern matches from its beginning to its end. -/
def Matches (p : Regex) (s : String) : Prop := s.toList ∈ p.language

variable {cls : CharClass} {w : List Char}

@[simp] theorem mem_one : w ∈ (one cls).language ↔ ∃ c, cls.test c = true ∧ w = [c] := Iff.rfl

@[simp] theorem mem_seq {p q : Regex} :
    w ∈ (seq p q).language ↔ ∃ u ∈ p.language, ∃ v ∈ q.language, u ++ v = w :=
  Language.mem_mul

@[simp] theorem mem_alt {p q : Regex} :
    w ∈ (alt p q).language ↔ w ∈ p.language ∨ w ∈ q.language :=
  Language.mem_add _ _ _

/-- Any number of characters of a class. -/
theorem mem_star_one : w ∈ (star (one cls)).language ↔ ∀ c ∈ w, cls.test c = true := by
  refine Language.mem_kstar.trans ⟨?_, fun h => ?_⟩
  · rintro ⟨words, rfl, hwords⟩ c hc
    obtain ⟨word, hword, hmem⟩ := List.mem_flatten.mp hc
    obtain ⟨d, hd, rfl⟩ := hwords word hword
    rw [List.mem_singleton.mp hmem]
    exact hd
  · refine ⟨w.map fun c => [c], ?_, fun word hword => ?_⟩
    · induction w with
      | nil => rfl
      | cons c w ih =>
          rw [List.map_cons, List.flatten_cons, ← ih fun d hd => h d (List.mem_cons_of_mem c hd)]
          rfl
    · obtain ⟨c, hc, rfl⟩ := List.mem_map.mp hword
      exact ⟨c, h c hc, rfl⟩

/-- One or more characters of a class. -/
theorem mem_plus_one :
    w ∈ (plus (one cls)).language ↔ w ≠ [] ∧ ∀ c ∈ w, cls.test c = true := by
  refine Language.mem_mul.trans ⟨?_, fun ⟨hne, h⟩ => ?_⟩
  · rintro ⟨u, ⟨c, hc, rfl⟩, v, hv, rfl⟩
    refine ⟨List.cons_ne_nil c v, fun d hd => ?_⟩
    rcases List.mem_cons.mp hd with rfl | hd
    · exact hc
    · exact mem_star_one.mp hv d hd
  · cases w with
    | nil => exact absurd rfl hne
    | cons c w =>
        exact ⟨[c], ⟨c, h c List.mem_cons_self, rfl⟩, w,
          mem_star_one.mpr fun d hd => h d (List.mem_cons_of_mem c hd), rfl⟩

/-- As many characters of a class as are asked for. -/
theorem mem_times_one {n : Nat} :
    w ∈ (times (one cls) n).language ↔ w.length = n ∧ ∀ c ∈ w, cls.test c = true := by
  change w ∈ (one cls).language ^ n ↔ _
  induction n generalizing w with
  | zero =>
      rw [pow_zero, Language.mem_one, List.length_eq_zero_iff]
      refine ⟨?_, And.left⟩
      rintro rfl
      exact ⟨rfl, fun c hc => (by cases hc)⟩
  | succ n ih =>
      rw [pow_succ', Language.mem_mul]
      constructor
      · rintro ⟨u, ⟨c, hc, rfl⟩, v, hv, rfl⟩
        obtain ⟨hlen, hall⟩ := ih.mp hv
        refine ⟨congrArg Nat.succ hlen, fun d hd => ?_⟩
        rcases List.mem_cons.mp hd with rfl | hd
        · exact hc
        · exact hall d hd
      · rintro ⟨hlen, hall⟩
        cases w with
        | nil => cases hlen
        | cons c w =>
            exact ⟨[c], ⟨c, hall c List.mem_cons_self, rfl⟩, w,
              ih.mpr ⟨Nat.succ.inj hlen, fun d hd => hall d (List.mem_cons_of_mem c hd)⟩, rfl⟩

end Regex
