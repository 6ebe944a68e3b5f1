import Mathlib.Data.List.Basic

/-!
# Strings of ASCII bytes

A test on the bytes of a string's UTF-8 encoding can be read as a test on its
characters as long as every byte it lets through is an ASCII one: such a string has
one byte for each character.
-/

namespace Ascii

/-- The bytes of a string are those of its characters, one after another. -/
theorem toUTF8_toList (s : String) :
    s.toUTF8.data.toList = s.toList.flatMap String.utf8EncodeChar := by
  have h : s.toUTF8 = s.toList.utf8Encode := String.utf8Encode_toList.symm
  rw [h, List.utf8Encode]
  exact List.toList_data_toByteArray

/-- An ASCII character is encoded as its own code. -/
theorem encode_ascii {c : Char} (h : c.toNat < 128) :
    String.utf8EncodeChar c = [UInt8.ofNat c.toNat] := by
  have hv : c.toNat = c.val.toNat := rfl
  unfold String.utf8EncodeChar
  rw [if_pos (by omega), hv]

/-- The encoding of any other character has a larger byte. -/
theorem encode_large {c : Char} (h : 128 ≤ c.toNat) :
    ∃ b ∈ String.utf8EncodeChar c, 128 ≤ b.toNat := by
  have hv : c.toNat = c.val.toNat := rfl
  unfold String.utf8EncodeChar
  rw [if_neg (by omega)]
  split
  · refine ⟨_, List.mem_cons_self, ?_⟩
    simp only [UInt8.toNat_ofNat']
    omega
  · split
    · refine ⟨_, List.mem_cons_self, ?_⟩
      simp only [UInt8.toNat_ofNat']
      omega
    · refine ⟨_, List.mem_cons_self, ?_⟩
      simp only [UInt8.toNat_ofNat']
      omega

/-- ASCII characters are their own bytes. -/
theorem encode_of_chars {cs : List Char} (h : ∀ c ∈ cs, c.toNat < 128) :
    cs.flatMap String.utf8EncodeChar = cs.map (fun c => UInt8.ofNat c.toNat) := by
  induction cs with
  | nil => rfl
  | cons c cs ih =>
      rw [List.flatMap_cons, List.map_cons, ih fun d hd => h d (List.mem_cons_of_mem c hd),
        encode_ascii (h c List.mem_cons_self)]
      rfl

/-- If every byte is an ASCII one, every character is. -/
theorem chars_of_bytes {cs : List Char}
    (h : ∀ b ∈ cs.flatMap String.utf8EncodeChar, b.toNat < 128) : ∀ c ∈ cs, c.toNat < 128 := by
  intro c hc
  by_contra hlarge
  obtain ⟨b, hb, hb'⟩ := encode_large (by omega : 128 ≤ c.toNat)
  have := h b (List.mem_flatMap.mpr ⟨c, hc, hb⟩)
  omega

/-- An ASCII-only test on the bytes of a string is one on its characters. -/
theorem all_bytes_iff {s : String} {P : UInt8 → Bool} (hP : ∀ b, P b = true → b.toNat < 128) :
    s.toUTF8.data.toList.all P = true
      ↔ ∀ c ∈ s.toList, c.toNat < 128 ∧ P (UInt8.ofNat c.toNat) = true := by
  rw [toUTF8_toList, List.all_eq_true]
  constructor
  · intro h c hc
    have hchars := chars_of_bytes fun b hb => hP b (h b hb)
    rw [encode_of_chars hchars] at h
    exact ⟨hchars c hc, h _ (List.mem_map_of_mem hc)⟩
  · intro h b hb
    rw [encode_of_chars fun c hc => (h c hc).1] at hb
    obtain ⟨c, hc, rfl⟩ := List.mem_map.mp hb
    exact (h c hc).2

/-- A string of ASCII characters has as many bytes. -/
theorem utf8ByteSize_eq {s : String} (h : ∀ c ∈ s.toList, c.toNat < 128) :
    s.utf8ByteSize = s.toList.length := by
  have hsize : s.utf8ByteSize = s.toUTF8.data.toList.length := by
    rw [Array.length_toList]
    rfl
  rw [hsize, toUTF8_toList, encode_of_chars h, List.length_map]

end Ascii
