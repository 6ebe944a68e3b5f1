import BusinessApproval.Lib.JsonText

/-!
# What is written is read back

`JSON.parse(JSON.stringify(value))` is the value, if no number in it is out of the range
of the safe integers and no object names a property twice (`Plain`). Each pass has its
half: the characters of tokens give the tokens back as long as no two words touch
(`Apart`), and the tokens of a value give the value back, whatever is open around it.
-/

namespace Json

/-! ## Numbers -/

theorem roundDiv_mul (m : Nat) {q : Nat} (h : 0 < q) : roundDiv (m * q) q = m := by
  unfold roundDiv
  rw [Nat.mul_mod_left, Nat.mul_div_cancel m h]
  simp [h]

/-- An integer of at most 53 binary digits is a double. -/
theorem nearest_one {n : Nat} (h : n < 2 ^ 53) : nearest n 1 = n * 2 ^ places := by
  rcases Nat.eq_zero_or_pos n with rfl | hpos
  · simp [nearest, roundDiv]
  · have hn : n ≠ 0 := Nat.ne_of_gt hpos
    have hplaces : 0 < 2 ^ places := Nat.two_pow_pos places
    have hlog : (n * 2 ^ places).log2 = n.log2 + places := by
      rw [Nat.log2_eq_iff (Nat.mul_ne_zero hn (Nat.ne_of_gt hplaces))]
      constructor
      · rw [Nat.pow_add]
        exact Nat.mul_le_mul_right _ (Nat.log2_self_le hn)
      · rw [show n.log2 + places + 1 = n.log2 + 1 + places by omega, Nat.pow_add]
        exact (Nat.mul_lt_mul_right hplaces).mpr Nat.lt_log2_self
    have hlog52 : n.log2 ≤ 52 := by
      have := (Nat.log2_lt hn).mpr h
      omega
    -- the grid is fine enough for the integer to lie on it
    obtain ⟨k, hk⟩ : ∃ k, places = k + (n.log2 + places - 52) :=
      ⟨52 - n.log2, by unfold places; omega⟩
    have hgrid : n * 2 ^ places = n * 2 ^ k * 2 ^ (n.log2 + places - 52) := by
      rw [Nat.mul_assoc, ← Nat.pow_add, ← hk]
    unfold nearest
    simp only [Nat.div_one, hlog, Nat.one_mul]
    rw [hgrid, roundDiv_mul _ (Nat.two_pow_pos _)]

theorem isDigit_toDigits {n : Nat} {c : Char} (h : c ∈ Nat.toDigits 10 n) : c.isDigit = true :=
  Nat.isDigit_of_mem_toDigits (by decide) (by decide) h

/-- Only zero is written with a zero in front. -/
theorem eq_zero_of_head {n : Nat} (h : (Nat.toDigits 10 n).head? = some '0') : n = 0 := by
  induction n using Nat.strongRecOn with
  | ind n ih =>
      rcases Nat.lt_or_ge n 10 with hlt | hge
      · have hdigits : ∀ d < 10, [Nat.digitChar d].head? = some '0' → d = 0 := by decide
        rw [Nat.toDigits_of_lt_base hlt] at h
        exact hdigits n hlt h
      · rw [Nat.toDigits_of_base_le (by decide) hge,
          List.head?_append_of_ne_nil _ Nat.toDigits_ne_nil] at h
        have := ih (n / 10) (by omega) h
        omega

theorem readDigits_toDigits (n : Nat) :
    readDigits (Nat.toDigits 10 n) = some (Nat.toDigits 10 n, []) := by
  have hall : ∀ c ∈ Nat.toDigits 10 n, c.isDigit = true := fun _ hc => isDigit_toDigits hc
  unfold readDigits
  rw [List.takeWhile_eq_self_iff.mpr hall, List.dropWhile_eq_nil_iff.mpr hall, if_neg]
  simp

theorem readDecimal_toDigits (n : Nat) : readDecimal (Nat.toDigits 10 n) = some (n, 0) := by
  have hzero : ¬ ((Nat.toDigits 10 n).head? = some '0' ∧ (Nat.toDigits 10 n).length ≠ 1) := by
    rintro ⟨hhead, hlen⟩
    exact hlen (by rw [eq_zero_of_head hhead]; rfl)
  unfold readDecimal
  simp only [readDigits_toDigits, Option.bind_eq_bind, Option.bind_some, if_neg hzero, readFraction,
    readPower, List.append_nil, Nat.ofDigitChars_ten_toDigits]
  rfl

/-- The integers from which doubles no longer tell their neighbours. -/
def Safe (n : Int) : Prop := n.natAbs ≤ maxSafe

theorem ofDecimal_int (cs : List Char) {sign : Int} {m : Nat} (h : m ≤ maxSafe) :
    ofDecimal cs sign m 0 = num (sign * m) := by
  have hnearest : nearest (m * 10 ^ (0 : Int).toNat) (10 ^ (-0 : Int).toNat) = m * 2 ^ places := by
    have hlt : m < 2 ^ 53 := by
      unfold maxSafe at h
      omega
    simpa using nearest_one hlt
  have hdiv : m * 2 ^ places / 2 ^ places = m := Nat.mul_div_cancel m (Nat.two_pow_pos places)
  unfold ofDecimal
  simp only [hnearest, hdiv]
  rw [if_pos ⟨Nat.dvd_mul_left _ _, h⟩]

/-- A word that starts as numbers do is read as one. -/
theorem readWord_number {c : Char} {cs : List Char} (h : c.isDigit = true ∨ c = '-') :
    readWord (c :: cs) = readNumber (c :: cs) := by
  have hne : ∀ d ds, d.isDigit = false → d ≠ '-' → c :: cs ≠ d :: ds := by
    rintro d ds hd hminus heq
    obtain rfl : c = d := (List.cons.inj heq).1
    rcases h with h | h
    · rw [hd] at h
      cases h
    · exact hminus h
  have hnull : c :: cs ≠ "null".toList := hne 'n' _ (by decide) (by decide)
  have htrue : c :: cs ≠ "true".toList := hne 't' _ (by decide) (by decide)
  have hfalse : c :: cs ≠ "false".toList := hne 'f' _ (by decide) (by decide)
  rw [readWord, if_neg hnull, if_neg htrue, if_neg hfalse]

/-- A safe integer is read back. -/
theorem readWord_num {n : Int} (h : Safe n) : readWord (toString n).toList = some (num n) := by
  cases n with
  | ofNat n =>
      have hsafe : n ≤ maxSafe := h
      have hread := readDecimal_toDigits n
      rw [Decimal.toList_ofNat]
      cases hdigits : Nat.toDigits 10 n with
      | nil => exact absurd hdigits Nat.toDigits_ne_nil
      | cons c cs =>
          have hc : c.isDigit = true :=
            isDigit_toDigits (n := n) (hdigits ▸ List.mem_cons_self)
          rw [hdigits] at hread
          rw [readWord_number (Or.inl hc), readNumber]
          · rw [hread]
            change some (ofDecimal (c :: cs) 1 n 0) = some (num n)
            rw [ofDecimal_int _ hsafe, Int.one_mul]
          · rintro digits heq
            exact absurd hc (by rw [(List.cons.inj heq).1]; decide)
  | negSucc n =>
      have hsafe : n + 1 ≤ maxSafe := h
      rw [Decimal.toList_negSucc, readWord_number (Or.inr rfl), readNumber, readDecimal_toDigits]
      change some (ofDecimal _ (-1) (n + 1) 0) = some (num (Int.negSucc n))
      rw [ofDecimal_int _ hsafe, Int.neg_one_mul, Int.negSucc_eq]
      rfl

/-! ## Characters into tokens -/

namespace Lexer

theorem lex_cons {l m : Lexer} {c : Char} {tokens : List Token}
    (h : l.step c = some (tokens, m)) (cs : List Char) :
    l.lex (c :: cs) = (m.lex cs).map (tokens ++ ·) := by
  rw [lex, h]
  change (m.lex cs).bind _ = _
  rw [Option.map_eq_bind]
  rfl

/-- A character that completes no token. -/
theorem lex_quiet {l m : Lexer} {c : Char} (h : l.step c = some ([], m)) (cs : List Char) :
    l.lex (c :: cs) = m.lex cs := by
  rw [lex_cons h]
  exact Option.map_id'

theorem hexValue_digitChar : ∀ d < 16, hexValue (Nat.digitChar d) = some d := by decide

/-- The code of a control character. -/
theorem lex_code {c : Char} (h : c.toNat < 32) (cs rest : List Char) :
    (code none cs 0 4).lex
      ('0' :: '0' :: Nat.digitChar (c.toNat / 16) :: Nat.digitChar (c.toNat % 16) :: rest)
      = (string none (c :: cs)).lex rest := by
  have hunit : unit none cs c.toNat = string none (c :: cs) := by
    unfold unit
    rw [if_neg (by omega), if_neg (by omega), Char.ofNat_toNat]
    rfl
  have hhigh : (code none cs 0 2).step (Nat.digitChar (c.toNat / 16))
      = some ([], code none cs (c.toNat / 16) 1) := by
    rw [step, hexValue_digitChar _ (by omega)]
    simp
  have hlow : (code none cs (c.toNat / 16) 1).step (Nat.digitChar (c.toNat % 16))
      = some ([], string none (c :: cs)) := by
    rw [step, hexValue_digitChar _ (Nat.mod_lt _ (by decide)), Option.map_some,
      Nat.div_add_mod, if_pos rfl, hunit]
  rw [lex_quiet (m := code none cs 0 3) rfl, lex_quiet (m := code none cs 0 2) rfl,
    lex_quiet hhigh, lex_quiet hlow]

/-- A character that is written in a string is read back. -/
theorem lex_escape (c : Char) (cs rest : List Char) :
    (string none cs).lex (escape c ++ rest) = (string none (c :: cs)).lex rest := by
  -- an escape of one letter
  have hletter : ∀ d, d ≠ 'u' → unescape d = some c →
      (string none cs).lex ('\\' :: d :: rest) = (string none (c :: cs)).lex rest := by
    intro d hd hc
    have hstep : (escaped none cs).step d = some ([], string none (c :: cs)) := by
      rw [step, if_neg hd, hc]
      rfl
    rw [lex_quiet (m := escaped none cs) rfl, lex_quiet hstep]
  unfold escape
  split_ifs with hquote hslash hb hf hn hr ht hcontrol
  · exact hletter '"' (by decide) (by rw [hquote]; rfl)
  · exact hletter '\\' (by decide) (by rw [hslash]; rfl)
  · exact hletter 'b' (by decide) (by rw [hb]; rfl)
  · exact hletter 'f' (by decide) (by rw [hf]; rfl)
  · exact hletter 'n' (by decide) (by rw [hn]; rfl)
  · exact hletter 'r' (by decide) (by rw [hr]; rfl)
  · exact hletter 't' (by decide) (by rw [ht]; rfl)
  · -- a code of four digits
    rw [List.cons_append, lex_quiet (m := escaped none cs) rfl, List.cons_append,
      lex_quiet (m := code none cs 0 4) rfl]
    exact lex_code hcontrol cs rest
  · -- the character as it is
    have hstep : (string none cs).step c = some ([], string none (c :: cs)) := by
      rw [step, if_neg hquote, if_neg hslash, if_neg hcontrol]
      rfl
    rw [List.cons_append, lex_quiet hstep, List.nil_append]

theorem lex_string (s cs rest : List Char) :
    (string none cs).lex (s.flatMap escape ++ '"' :: rest)
      = (between.lex rest).map (.str (String.ofList (cs.reverse ++ s)) :: ·) := by
  induction s generalizing cs with
  | nil =>
      have hstep : (string none cs).step '"'
          = some ([.str (String.ofList cs.reverse)], between) := rfl
      rw [List.append_nil]
      exact lex_cons hstep rest
  | cons c s ih =>
      rw [List.flatMap_cons, List.append_assoc, lex_escape, ih, List.reverse_cons,
        List.append_assoc]
      rfl

theorem start_punct {c : Char} (h : isPunct c = true) : start c = ([.punct c], .between) := by
  have hblank : isBlank c = false := by
    unfold isPunct at h
    simp only [List.contains_iff_mem, List.mem_cons, List.not_mem_nil, or_false] at h
    rcases h with rfl | rfl | rfl | rfl | rfl | rfl <;> rfl
  rw [start, hblank, h]
  rfl

theorem start_word {c : Char} (h : endsWord c = false) : start c = ([], .word [c]) := by
  unfold endsWord at h
  simp only [Bool.or_eq_false_iff, beq_eq_false_iff_ne] at h
  obtain ⟨⟨hblank, hpunct⟩, hquote⟩ := h
  rw [start, hblank, hpunct, if_neg hquote]
  rfl

/-- What ends a word, or the end of the text. -/
def Ends (cs : List Char) : Prop := ∀ c ∈ cs.head?, endsWord c = true

theorem lex_word {w cs rest : List Char} (hw : ∀ c ∈ w, endsWord c = false) (hrest : Ends rest) :
    (word cs).lex (w ++ rest) = (between.lex rest).map (.word (cs.reverse ++ w) :: ·) := by
  induction w generalizing cs with
  | nil =>
      rw [List.append_nil, List.nil_append]
      cases rest with
      | nil => rfl
      | cons c rest =>
          have hc : endsWord c = true := hrest c rfl
          have hstep : (word cs).step c = some (.word cs.reverse :: (start c).1, (start c).2) := by
            rw [step, hc, if_pos rfl]
          have hstart : between.step c = some ((start c).1, (start c).2) := rfl
          rw [lex_cons hstep, lex_cons hstart, Option.map_map]
          rfl
  | cons c w ih =>
      have hc : endsWord c = false := hw c List.mem_cons_self
      have hstep : (word cs).step c = some ([], word (c :: cs)) := by
        rw [step, hc]
        rfl
      rw [List.cons_append, lex_quiet hstep, ih fun d hd => hw d (List.mem_cons_of_mem c hd),
        List.reverse_cons, List.append_assoc]
      rfl

end Lexer

/-- A token that has a text. -/
def Token.Proper : Token → Prop
  | .punct c => isPunct c = true
  | .str _ => True
  | .word cs => cs ≠ [] ∧ ∀ c ∈ cs, endsWord c = false

/-- A word does not go on with what follows. -/
def Token.Clear : Token → List Token → Prop
  | .word _, .word _ :: _ => False
  | _, _ => True

/-- Tokens that can be told apart when their texts follow one another. -/
def Apart : List Token → Prop
  | [] => True
  | token :: tokens => token.Proper ∧ token.Clear tokens ∧ Apart tokens

/-- The text after a word ends it. -/
theorem ends_texts {w : List Char} {tokens : List Token} (hclear : (Token.word w).Clear tokens)
    (h : Apart tokens) : Lexer.Ends (tokens.flatMap Token.text) := by
  intro c hc
  cases tokens with
  | nil => cases hc
  | cons token tokens =>
      cases token with
      | punct d =>
          obtain rfl : d = c := Option.some.inj hc
          have hpunct : isPunct d = true := h.1
          simp [endsWord, hpunct]
      | str s =>
          obtain rfl : '"' = c := Option.some.inj hc
          rfl
      | word cs => exact hclear.elim

/-- **The texts of tokens that are apart give the tokens back.** -/
theorem lex_texts {tokens : List Token} (h : Apart tokens) :
    Lexer.between.lex (tokens.flatMap Token.text) = some tokens := by
  induction tokens with
  | nil => rfl
  | cons token tokens ih =>
      obtain ⟨hproper, hclear, h⟩ := h
      have ih := ih h
      rw [List.flatMap_cons]
      cases token with
      | punct c =>
          have hstep : Lexer.between.step c = some ([.punct c], .between) :=
            congrArg some (Lexer.start_punct hproper)
          rw [Token.text, List.singleton_append, Lexer.lex_cons hstep, ih]
          rfl
      | str s =>
          have hstep : Lexer.between.step '"' = some ([], .string none []) := rfl
          rw [Token.text, List.append_assoc, List.cons_append, Lexer.lex_quiet hstep,
            List.singleton_append, Lexer.lex_string, ih, List.reverse_nil, List.nil_append,
            String.ofList_toList]
          rfl
      | word cs =>
          obtain ⟨hne, hcs⟩ := hproper
          obtain ⟨c, w, rfl⟩ := List.exists_cons_of_ne_nil hne
          have hstep : Lexer.between.step c = some ([], .word [c]) :=
            congrArg some (Lexer.start_word (hcs c List.mem_cons_self))
          rw [Token.text, List.cons_append, Lexer.lex_quiet hstep,
            Lexer.lex_word (fun d hd => hcs d (List.mem_cons_of_mem c hd)) (ends_texts hclear h), ih]
          rfl

/-! ## Tokens into a value -/

mutual

/-- No number is out of the safe range, no text is kept as its value, and no object names a
property twice. -/
def Plain : Json → Prop
  | null | bool _ | str _ => True
  | num n => Safe n
  | frac _ | text _ => False
  | arr elems => PlainElems elems
  | obj fields => PlainFields fields ∧ (fields.map Prod.fst).Nodup

def PlainElems : List Json → Prop
  | [] => True
  | v :: vs => v.Plain ∧ PlainElems vs

def PlainFields : List (String × Json) → Prop
  | [] => True
  | (_, v) :: fields => v.Plain ∧ PlainFields fields

end

/-- Nothing goes on with a word in front of it. -/
def NoWord (tokens : List Token) : Prop := ∀ w, (Token.word w).Clear tokens

theorem noWord_punct (c : Char) (tokens : List Token) : NoWord (.punct c :: tokens) :=
  fun _ => trivial

theorem apart_punct {c : Char} {tokens : List Token} (hc : isPunct c = true) (h : Apart tokens) :
    Apart (.punct c :: tokens) := ⟨hc, trivial, h⟩

theorem apart_str {s : String} {tokens : List Token} (h : Apart tokens) :
    Apart (.str s :: tokens) := ⟨trivial, trivial, h⟩

theorem apart_word {cs : List Char} {tokens : List Token} (hcs : (Token.word cs).Proper)
    (hno : NoWord tokens) (h : Apart tokens) : Apart (.word cs :: tokens) := ⟨hcs, hno cs, h⟩

/-- A word that is given by its letters. -/
theorem proper_of_all {cs : List Char} (h : (!cs.isEmpty && cs.all (!endsWord ·)) = true) :
    (Token.word cs).Proper := by
  simpa [Token.Proper] using h

theorem endsWord_digit {c : Char} (h : c.isDigit = true) : endsWord c = false := by
  rw [Bool.eq_false_iff]
  intro hends
  simp only [endsWord, isBlank, isPunct, Bool.or_eq_true, List.contains_iff_mem, List.mem_cons,
    List.not_mem_nil, or_false, beq_iff_eq] at hends
  rcases hends with (hblank | hpunct) | rfl
  · rcases hblank with rfl | rfl | rfl | rfl <;> exact absurd h (by decide)
  · rcases hpunct with rfl | rfl | rfl | rfl | rfl | rfl <;> exact absurd h (by decide)
  · exact absurd h (by decide)

theorem endsWord_toDigits {n : Nat} {c : Char} (h : c ∈ Nat.toDigits 10 n) : endsWord c = false :=
  endsWord_digit (isDigit_toDigits h)

theorem proper_num (n : Int) : (Token.word (toString n).toList).Proper := by
  cases n with
  | ofNat n =>
      rw [Decimal.toList_ofNat]
      exact ⟨Nat.toDigits_ne_nil, fun _ hc => endsWord_toDigits hc⟩
  | negSucc n =>
      rw [Decimal.toList_negSucc]
      refine ⟨List.cons_ne_nil _ _, fun c hc => ?_⟩
      rcases List.mem_cons.mp hc with rfl | hc
      · rfl
      · exact endsWord_toDigits hc

mutual

/-- The tokens of a value are apart. -/
theorem apart_tokens : ∀ (v : Json) {rest : List Token}, v.Plain → NoWord rest → Apart rest →
    Apart (tokens v ++ rest)
  | null, _, _, hno, h => by
      have hnull : (Token.word "null".toList).Proper := proper_of_all rfl
      exact apart_word hnull hno h
  | bool b, _, _, hno, h => by
      have hbool : (Token.word (toString b).toList).Proper := by
        cases b with
        | false => exact proper_of_all rfl
        | true => exact proper_of_all rfl
      exact apart_word hbool hno h
  | num n, _, _, hno, h => apart_word (proper_num n) hno h
  | str s, _, _, _, h => apart_str h
  | arr [], _, _, _, h => apart_punct rfl (apart_punct rfl h)
  | arr (v :: vs), rest, ⟨hv, hvs⟩, _, h => by
      have hclose : Apart (.punct ']' :: rest) := apart_punct rfl h
      obtain ⟨hno, helems⟩ := apart_elems vs hvs (noWord_punct ']' rest) hclose
      have hfirst := apart_tokens v hv hno helems
      simpa [tokens] using apart_punct (c := '[') rfl hfirst
  | obj [], _, _, _, h => apart_punct rfl (apart_punct rfl h)
  | obj ((n, v) :: fields), rest, ⟨⟨hv, hfields⟩, _⟩, _, h => by
      have hclose : Apart (.punct '}' :: rest) := apart_punct rfl h
      obtain ⟨hno, hrest⟩ := apart_fields fields hfields (noWord_punct '}' rest) hclose
      have hcolon : Apart (.punct ':' :: _) := apart_punct rfl (apart_tokens v hv hno hrest)
      simpa [tokens] using apart_punct (c := '{') rfl (apart_str (s := n) hcolon)

theorem apart_elems : ∀ (vs : List Json) {rest : List Token}, PlainElems vs → NoWord rest →
    Apart rest → NoWord (elemTokens vs ++ rest) ∧ Apart (elemTokens vs ++ rest)
  | [], _, _, hno, h => ⟨hno, h⟩
  | v :: vs, rest, ⟨hv, hvs⟩, hno, h => by
      obtain ⟨hno, helems⟩ := apart_elems vs hvs hno h
      refine ⟨noWord_punct ',' _, ?_⟩
      simpa [elemTokens] using apart_punct (c := ',') rfl (apart_tokens v hv hno helems)

theorem apart_fields : ∀ (fields : List (String × Json)) {rest : List Token}, PlainFields fields →
    NoWord rest → Apart rest → NoWord (fieldTokens fields ++ rest)
      ∧ Apart (fieldTokens fields ++ rest)
  | [], _, _, hno, h => ⟨hno, h⟩
  | (n, v) :: fields, rest, ⟨hv, hfields⟩, hno, h => by
      obtain ⟨hno, hrest⟩ := apart_fields fields hfields hno h
      have hcolon : Apart (.punct ':' :: _) := apart_punct rfl (apart_tokens v hv hno hrest)
      refine ⟨noWord_punct ',' _, ?_⟩
      simpa [fieldTokens] using apart_punct (c := ',') rfl (apart_str (s := n) hcolon)

end

/-- A new property comes last. -/
theorem setField_new {name : String} {v : Json} {fields : List (String × Json)}
    (h : name ∉ fields.map Prod.fst) : setField name v fields = fields ++ [(name, v)] := by
  induction fields with
  | nil => rfl
  | cons field fields ih =>
      obtain ⟨n, w⟩ := field
      have hne : n ≠ name := fun heq => h (heq ▸ List.mem_cons_self)
      rw [setField, if_neg hne, ih fun hmem => h (List.mem_cons_of_mem n hmem)]
      rfl

namespace Reader

/-- What is read after a word. -/
theorem read_word {cs : List Char} {v : Json} (h : readWord cs = some v) (rest : List Token)
    (frames : List Frame) :
    (Token.word cs :: rest).foldlM step (value frames) = rest.foldlM step (put v frames) := by
  rw [List.foldlM_cons, step, start, h]
  rfl

/-- After `[` a value is read as anywhere else: none starts with `]`. -/
theorem read_arrStart (v : Json) (rest : List Token) (frames : List Frame) :
    (tokens v ++ rest).foldlM step (arrStart frames)
      = (tokens v ++ rest).foldlM step (value (.arr [] :: frames)) := by
  cases v with
  | arr elems => cases elems <;> rfl
  | obj fields => cases fields <;> rfl
  | _ => rfl

mutual

/-- The tokens of a value complete it, whatever is open around it. -/
theorem read_tokens : ∀ (v : Json) (rest : List Token) (frames : List Frame), v.Plain →
    (tokens v ++ rest).foldlM step (value frames) = rest.foldlM step (put v frames)
  | null, rest, frames, _ => read_word rfl rest frames
  | bool b, rest, frames, _ => by
      have hread : readWord (toString b).toList = some (bool b) := by
        cases b with
        | false => rfl
        | true => rfl
      exact read_word hread rest frames
  | num n, rest, frames, hplain => read_word (readWord_num hplain) rest frames
  | str s, rest, frames, _ => rfl
  | arr [], rest, frames, _ => rfl
  | arr (v :: vs), rest, frames, ⟨hv, hvs⟩ => by
      have helems := read_elems vs [v] rest frames hvs
      calc (tokens (arr (v :: vs)) ++ rest).foldlM step (value frames)
          = (tokens v ++ (elemTokens vs ++ .punct ']' :: rest)).foldlM step (arrStart frames) := by
            simp [tokens, step, start]
        _ = (elemTokens vs ++ .punct ']' :: rest).foldlM step (arrNext [v] frames) := by
            rw [read_arrStart, read_tokens v _ _ hv]
            rfl
        _ = rest.foldlM step (put (arr (v :: vs)) frames) := helems
  | obj [], rest, frames, _ => rfl
  | obj ((n, v) :: fields), rest, frames, ⟨⟨hv, hfields⟩, hnodup⟩ => by
      have hrest := read_fields fields [(n, v)] rest frames hfields hnodup
      calc (tokens (obj ((n, v) :: fields)) ++ rest).foldlM step (value frames)
          = (tokens v ++ (fieldTokens fields ++ .punct '}' :: rest)).foldlM step
              (value (.obj [] n :: frames)) := by
            simp [tokens, step, start]
        _ = (fieldTokens fields ++ .punct '}' :: rest).foldlM step (objNext [(n, v)] frames) := by
            rw [read_tokens v _ _ hv]
            rfl
        _ = rest.foldlM step (put (obj ((n, v) :: fields)) frames) := hrest

theorem read_elems : ∀ (vs elems : List Json) (rest : List Token) (frames : List Frame),
    PlainElems vs → (elemTokens vs ++ .punct ']' :: rest).foldlM step (arrNext elems frames)
      = rest.foldlM step (put (arr (elems.reverse ++ vs)) frames)
  | [], elems, rest, frames, _ => by
      rw [List.append_nil]
      rfl
  | v :: vs, elems, rest, frames, ⟨hv, hvs⟩ => by
      calc (elemTokens (v :: vs) ++ .punct ']' :: rest).foldlM step (arrNext elems frames)
          = (tokens v ++ (elemTokens vs ++ .punct ']' :: rest)).foldlM step
              (value (.arr elems :: frames)) := by
            simp [elemTokens, step]
        _ = (elemTokens vs ++ .punct ']' :: rest).foldlM step (arrNext (v :: elems) frames) := by
            rw [read_tokens v _ _ hv]
            rfl
        _ = rest.foldlM step (put (arr (elems.reverse ++ v :: vs)) frames) := by
            rw [read_elems vs (v :: elems) rest frames hvs, List.reverse_cons, List.append_assoc]
            rfl

theorem read_fields : ∀ (fields before : List (String × Json)) (rest : List Token)
    (frames : List Frame), PlainFields fields → ((before ++ fields).map Prod.fst).Nodup →
    (fieldTokens fields ++ .punct '}' :: rest).foldlM step (objNext before frames)
      = rest.foldlM step (put (obj (before ++ fields)) frames)
  | [], before, rest, frames, _, _ => by
      rw [List.append_nil]
      rfl
  | (n, v) :: fields, before, rest, frames, ⟨hv, hfields⟩, hnodup => by
      have hsplit : before ++ (n, v) :: fields = (before ++ [(n, v)]) ++ fields := by simp
      have hnew : n ∉ before.map Prod.fst := by
        rw [List.map_append, List.nodup_append] at hnodup
        exact fun hmem => hnodup.2.2 n hmem n List.mem_cons_self rfl
      calc (fieldTokens ((n, v) :: fields) ++ .punct '}' :: rest).foldlM step
            (objNext before frames)
          = (tokens v ++ (fieldTokens fields ++ .punct '}' :: rest)).foldlM step
              (value (.obj before n :: frames)) := by
            simp [fieldTokens, step]
        _ = (fieldTokens fields ++ .punct '}' :: rest).foldlM step
              (objNext (before ++ [(n, v)]) frames) := by
            rw [read_tokens v _ _ hv, put, setField_new hnew]
        _ = rest.foldlM step (put (obj (before ++ (n, v) :: fields)) frames) := by
            rw [hsplit] at hnodup ⊢
            exact read_fields fields _ rest frames hfields hnodup

end

end Reader

/-- **What is written is read back.** -/
theorem parseText_print {v : Json} (h : v.Plain) : parseText (print v) = some v := by
  have hapart : Apart (tokens v ++ []) := apart_tokens v h (fun _ => trivial) trivial
  have hread := Reader.read_tokens v [] [] h
  rw [List.append_nil] at hapart hread
  unfold parseText print
  rw [lex_texts hapart]
  change (List.foldlM Reader.step _ (tokens v)).bind _ = _
  rw [hread]
  rfl

/-- A text may be kept as the value that it spells. -/
theorem parse_str_print {v : Json} (h : v.Plain) :
    parse (str (String.ofList (print v))) = parse (text v) := by
  rw [parse, String.toList_ofList, parseText_print h, parse_text]

end Json
