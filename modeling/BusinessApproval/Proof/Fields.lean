import BusinessApproval.Model.Schema
import BusinessApproval.Proof.PostgresLedger

/-!
# The owner's checks and the schema

The owner tests the bytes of a string, the schema its characters. On the byte tests
of the owner this is no difference: each lets through ASCII bytes only, so that a
string that passes has one byte for each character. `Tests` pairs a byte test with
the character class it stands for.
-/

namespace BusinessApproval

open Regex

/-- A test on bytes that lets through the characters of a class. -/
structure Tests (P : UInt8 → Bool) (cls : CharClass) : Prop where
  ascii : cls.Ascii
  small : ∀ n < 256, P (UInt8.ofNat n) = true → n < 128
  same : ∀ n < 128, P (UInt8.ofNat n) = cls.test (Char.ofNat n)

namespace Tests

variable {P : UInt8 → Bool} {cls : CharClass}

theorem lt (h : Tests P cls) {b : UInt8} (hb : P b = true) : b.toNat < 128 := by
  refine h.small b.toNat b.toNat_lt ?_
  rw [UInt8.ofNat_toNat]
  exact hb

/-- On the byte of an ASCII character the test is that of the class. -/
theorem test_eq (h : Tests P cls) {c : Char} (hc : c.toNat < 128) :
    P (UInt8.ofNat c.toNat) = cls.test c := by
  rw [h.same c.toNat hc, Char.ofNat_toNat]

/-- Every byte passes when every character is of the class. -/
theorem all_iff (h : Tests P cls) {s : String} :
    (bytes s).all P = true ↔ ∀ c ∈ s.toList, cls.test c = true := by
  refine (Ascii.all_bytes_iff fun b hb => h.lt hb).trans
    (forall₂_congr fun c _ => ⟨fun hc => ?_, fun hc => ?_⟩)
  · rw [← h.test_eq hc.1]
    exact hc.2
  · have hlt := h.ascii.lt hc
    exact ⟨hlt, by rw [h.test_eq hlt]; exact hc⟩

/-- A string of the class has as many bytes as characters. -/
theorem size_eq (h : Tests P cls) {s : String} (hs : ∀ c ∈ s.toList, cls.test c = true) :
    s.utf8ByteSize = s.length := by
  rw [Ascii.utf8ByteSize_eq fun c hc => h.ascii.lt (hs c hc), String.length_toList]

end Tests

/-! ## Byte tests -/

theorem tests_identifier :
    Tests (fun byte => isAsciiAlphanumeric byte || matchesByte ['.', '_', '-', ':'] byte)
      identifierClass :=
  ⟨by decide, by decide +kernel, by decide +kernel⟩

theorem tests_reference :
    Tests (fun byte => isAsciiAlphanumeric byte || matchesByte ['.', '_', '-', ':', '/'] byte)
      referenceClass :=
  ⟨by decide, by decide +kernel, by decide +kernel⟩

theorem tests_kind :
    Tests (fun byte => isAsciiLowercase byte || isAsciiDigit byte
      || matchesByte ['.', '_', '-'] byte) kindClass :=
  ⟨by decide, by decide +kernel, by decide +kernel⟩

theorem tests_hex :
    Tests (fun byte => isAsciiDigit byte || ('a'.toUInt8 ≤ byte && byte ≤ 'f'.toUInt8)) hexClass :=
  ⟨by decide, by decide +kernel, by decide +kernel⟩

/-- Among the characters of a kind, the alphanumeric ones are those of its edges. -/
theorem alphanumeric_edge {c : Char} (hc : kindClass.test c = true) :
    isAsciiAlphanumeric (UInt8.ofNat c.toNat) = kindEdgeClass.test c := by
  have hall : ∀ n < 128, kindClass.test (Char.ofNat n) = true →
      isAsciiAlphanumeric (UInt8.ofNat n) = kindEdgeClass.test (Char.ofNat n) := by decide +kernel
  have h := hall c.toNat (tests_kind.ascii.lt hc)
  rw [Char.ofNat_toNat] at h
  exact h hc

theorem kind_of_edge {c : Char} (hc : kindEdgeClass.test c = true) : kindClass.test c = true := by
  have hall : ∀ n < 128, kindEdgeClass.test (Char.ofNat n) = true →
      kindClass.test (Char.ofNat n) = true := by decide +kernel
  have hascii : kindEdgeClass.Ascii := by decide
  have h := hall c.toNat (hascii.lt hc)
  rw [Char.ofNat_toNat] at h
  exact h hc

/-! ## Patterns -/

theorem not_isEmpty_iff {s : String} : (!s.isEmpty) = true ↔ 1 ≤ s.length := by
  rw [String.isEmpty, Nat.one_le_iff_ne_zero, Bool.not_eq_true', beq_eq_false_iff_ne]
  simp only [ne_eq, String.utf8ByteSize_eq_zero_iff, ← String.length_toList,
    List.length_eq_zero_iff, String.toList_eq_nil_iff]

/-- The owner's check of an identifier or a reference. -/
theorem admits_plus_iff {P : UInt8 → Bool} {cls : CharClass} (h : Tests P cls) {maximum : Nat}
    {s : String} : (!s.isEmpty && s.utf8ByteSize ≤ maximum && (bytes s).all P) = true
      ↔ StringSchema.Admits ⟨1, maximum, .plus (.one cls)⟩ s := by
  simp only [Bool.and_eq_true, decide_eq_true_eq, h.all_iff, not_isEmpty_iff,
    StringSchema.Admits, Matches, mem_plus_one]
  constructor
  · rintro ⟨⟨hne, hsize⟩, hall⟩
    -- all characters are ASCII, so bytes and characters are equally many
    rw [h.size_eq hall] at hsize
    refine ⟨hne, hsize, ?_, hall⟩
    rintro hnil
    rw [← String.length_toList, hnil] at hne
    exact Nat.not_succ_le_zero 0 hne
  · rintro ⟨hne, hlen, -, hall⟩
    exact ⟨⟨hne, by rw [h.size_eq hall]; exact hlen⟩, hall⟩

/-- A kind: characters of its class, with alphanumeric ones at both ends. -/
theorem mem_kindPattern {w : List Char} : w ∈ kindPattern.language ↔
    (∀ c ∈ w, kindClass.test c = true) ∧ w.head?.any kindEdgeClass.test = true
      ∧ w.getLast?.any kindEdgeClass.test = true := by
  simp only [kindPattern, mem_alt, mem_seq, mem_star_one, mem_one]
  constructor
  · rintro (⟨_, ⟨c, hc, rfl⟩, _, ⟨mid, hmid, _, ⟨d, hd, rfl⟩, rfl⟩, rfl⟩ | ⟨c, hc, rfl⟩)
    · refine ⟨fun x hx => ?_, hc, ?_⟩
      rotate_left
      · rw [← List.append_assoc, List.getLast?_concat]
        exact hd
      simp only [List.mem_append, List.mem_singleton] at hx
      rcases hx with rfl | hx | rfl
      · exact kind_of_edge hc
      · exact hmid x hx
      · exact kind_of_edge hd
    · refine ⟨fun x hx => ?_, hc, hc⟩
      rw [List.mem_singleton.mp hx]
      exact kind_of_edge hc
  · rintro ⟨hall, hhead, hlast⟩
    cases w with
    | nil => cases hhead
    | cons c rest =>
        -- a single character is both edges at once
        rcases List.eq_nil_or_concat rest with rfl | ⟨mid, d, rfl⟩
        · exact Or.inr ⟨c, hhead, rfl⟩
        · rw [List.concat_eq_append] at hall hlast ⊢
          rw [← List.cons_append, List.getLast?_concat] at hlast
          refine Or.inl ⟨[c], ⟨c, hhead, rfl⟩, mid ++ [d], ⟨mid, fun x hx => ?_, [d],
            ⟨d, hlast, rfl⟩, rfl⟩, rfl⟩
          exact hall x (by simp [hx])

theorem bytes_of_kind {s : String} (hs : ∀ c ∈ s.toList, kindClass.test c = true) :
    bytes s = s.toList.map fun c => UInt8.ofNat c.toNat := by
  rw [bytes, Ascii.toUTF8_toList,
    Ascii.encode_of_chars fun c hc => tests_kind.ascii.lt (hs c hc)]

/-- The test of a byte at an edge, seen by its character. -/
theorem any_edge_iff {w : List Char} (hs : ∀ c ∈ w, kindClass.test c = true) {edge : Option Char}
    (hedge : ∀ {c}, edge = some c → c ∈ w) :
    (edge.map fun c => UInt8.ofNat c.toNat).any isAsciiAlphanumeric = true
      ↔ edge.any kindEdgeClass.test = true := by
  cases edge with
  | none => exact Iff.rfl
  | some c =>
      simp only [Option.map_some, Option.any_some]
      rw [alphanumeric_edge (hs c (hedge rfl))]

/-- The owner looks at the first and the last byte of a kind. -/
theorem validKind_iff {s : String} :
    validKind s = true ↔ StringSchema.Admits ⟨1, maxKindBytes, kindPattern⟩ s := by
  simp only [validKind, Bool.and_eq_true, decide_eq_true_eq, tests_kind.all_iff, not_isEmpty_iff,
    StringSchema.Admits, Matches, mem_kindPattern, and_assoc]
  constructor
  · rintro ⟨hne, hsize, hall, hhead, hlast⟩
    rw [tests_kind.size_eq hall] at hsize
    rw [bytes_of_kind hall, List.head?_map] at hhead
    rw [bytes_of_kind hall, List.getLast?_map] at hlast
    exact ⟨hne, hsize, hall, (any_edge_iff hall List.mem_of_head?).mp hhead,
      (any_edge_iff hall List.mem_of_getLast?).mp hlast⟩
  · rintro ⟨hne, hlen, hall, hhead, hlast⟩
    rw [tests_kind.size_eq hall, bytes_of_kind hall, List.head?_map, List.getLast?_map]
    exact ⟨hne, hlen, hall, (any_edge_iff hall List.mem_of_head?).mpr hhead,
      (any_edge_iff hall List.mem_of_getLast?).mpr hlast⟩

theorem validIntentDigest_iff {s : String} :
    validIntentDigest s = true ↔ RequestSchema.intentDigest.Admits s := by
  simp only [validIntentDigest, Bool.and_eq_true, beq_iff_eq, tests_hex.all_iff,
    RequestSchema.intentDigest, StringSchema.Admits, Matches, digestPattern, mem_times_one,
    String.length_toList]
  constructor
  · rintro ⟨hsize, hall⟩
    rw [tests_hex.size_eq hall] at hsize
    exact ⟨hsize.ge, hsize.le, hsize, hall⟩
  · rintro ⟨-, -, hlen, hall⟩
    exact ⟨(tests_hex.size_eq hall).trans hlen, hall⟩

/-- The `CHECK` of migration 002 asks for the same pattern. -/
theorem digestCheck_iff {row : Postgres.PgRow} {s : String} (hrow : row.intentDigest = some s) :
    row.digestCheck = true ↔ digestPattern.Matches s := by
  have htest : ∀ c, hexClass.test c = true
      ↔ ((decide ('a' ≤ c) && decide (c ≤ 'f')) || (decide ('0' ≤ c) && decide (c ≤ '9'))) = true := by
    intro c
    simp [hexClass, CharClass.test, ClassItem.test]
  simp only [Postgres.PgRow.digestCheck, hrow, Option.all_some, Bool.and_eq_true, beq_iff_eq,
    List.all_eq_true, Matches, digestPattern, mem_times_one, htest]

/-! ## The fields of a request -/

/-- The owner's checks of a string are those of the schema's properties. -/
structure FieldsMatch (s : String) : Prop where
  requestId : validRequestId s = true ↔ RequestSchema.requestId.Admits s
  idempotencyKey : validIdempotencyKey s = true ↔ RequestSchema.idempotencyKey.Admits s
  requestedBy : validReference s = true ↔ RequestSchema.requestedBy.Admits s
  subjectId : validReference s = true ↔ RequestSchema.subjectId.Admits s
  approvalKind : validKind s = true ↔ RequestSchema.approvalKind.Admits s
  subjectKind : validKind s = true ↔ RequestSchema.subjectKind.Admits s
  intentDigest : validIntentDigest s = true ↔ RequestSchema.intentDigest.Admits s
  /-- A digest the owner accepts is one the table accepts. -/
  digestCheck : validIntentDigest s = true → digestPattern.Matches s
    ∧ ∀ row : Postgres.PgRow, row.intentDigest = some s → row.digestCheck = true

/-- **The owner accepts the strings of the schema**, and no others. -/
theorem fields_match (s : String) : FieldsMatch s where
  requestId := admits_plus_iff tests_identifier
  idempotencyKey := admits_plus_iff tests_identifier
  requestedBy := admits_plus_iff tests_reference
  subjectId := admits_plus_iff tests_reference
  approvalKind := validKind_iff
  subjectKind := validKind_iff
  intentDigest := validIntentDigest_iff
  digestCheck h := by
    have hpattern := (validIntentDigest_iff.mp h).2.2
    exact ⟨hpattern, fun row hrow => (digestCheck_iff hrow).mpr hpattern⟩

end BusinessApproval
