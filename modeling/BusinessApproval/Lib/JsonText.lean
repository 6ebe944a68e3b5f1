import Mathlib.Algebra.Ring.Nat
import BusinessApproval.Lib.Decimal
import BusinessApproval.Lib.Json

/-!
# The text of JavaScript data

`print` is `JSON.stringify`, `spelled` is `String(value)`, and `parse` is `JSON.parse`,
which first makes a string of its argument. So an array of fragments is read as well:
its elements are joined with commas, and what comes out may be the text of an object.

A text is read in two passes, each a step function run over a list: characters into
tokens, and tokens into a value, with a stack of the arrays and objects that are open.
`parseText_print` is the round trip, for the values that `Plain` describes.
-/

namespace Json

/-! ## Tokens -/

inductive Token where
  /-- One of the six characters that hold a text together. -/
  | punct (c : Char)
  | str (s : String)
  /-- A literal name or a number. -/
  | word (cs : List Char)
  deriving DecidableEq, Repr

def isPunct (c : Char) : Bool := ['{', '}', '[', ']', ':', ','].contains c

def isBlank (c : Char) : Bool := [' ', '\t', '\n', '\r'].contains c

/-- A word goes on up to one of these. -/
def endsWord (c : Char) : Bool := isBlank c || isPunct c || c == '"'

/-! ## Writing -/

/-- A character of a string, as `JSON.stringify` writes it. -/
def escape (c : Char) : List Char :=
  if c = '"' then ['\\', '"']
  else if c = '\\' then ['\\', '\\']
  else if c = '\x08' then ['\\', 'b']
  else if c = '\x0c' then ['\\', 'f']
  else if c = '\n' then ['\\', 'n']
  else if c = '\r' then ['\\', 'r']
  else if c = '\t' then ['\\', 't']
  else if c.toNat < 32 then
    ['\\', 'u', '0', '0', Nat.digitChar (c.toNat / 16), Nat.digitChar (c.toNat % 16)]
  else [c]

/-- The characters of a token. -/
def Token.text : Token → List Char
  | .punct c => [c]
  | .str s => '"' :: s.toList.flatMap escape ++ ['"']
  | .word cs => cs

/-- Whether the number that is spelled so is finite. -/
def isFinite (spelling : String) : Bool :=
  !(["NaN", "Infinity", "-Infinity"].contains spelling)

mutual

/-- The tokens of the text of a value. -/
def tokens : Json → List Token
  | null => [.word "null".toList]
  | bool b => [.word (toString b).toList]
  | num n => [.word (toString n).toList]
  | frac spelling => [.word (if isFinite spelling then spelling else "null").toList]
  | str s => [.str s]
  | text v => [.str (String.ofList ((tokens v).flatMap Token.text))]
  | arr [] => [.punct '[', .punct ']']
  | arr (v :: vs) => .punct '[' :: tokens v ++ elemTokens vs ++ [.punct ']']
  | obj [] => [.punct '{', .punct '}']
  | obj ((n, v) :: fields) =>
      .punct '{' :: .str n :: .punct ':' :: tokens v ++ fieldTokens fields ++ [.punct '}']

/-- The tokens of the elements after the first. -/
def elemTokens : List Json → List Token
  | [] => []
  | v :: vs => .punct ',' :: tokens v ++ elemTokens vs

/-- The tokens of the properties after the first. -/
def fieldTokens : List (String × Json) → List Token
  | [] => []
  | (n, v) :: fields =>
      .punct ',' :: .str n :: .punct ':' :: tokens v ++ fieldTokens fields

end

/-- `JSON.stringify(value)` -/
def print (value : Json) : List Char := (tokens value).flatMap Token.text

/-- An element of an array that is joined: `null` is spelled as nothing. -/
def element (v : Json) (cs : List Char) : List Char :=
  match v with
  | null => []
  | _ => cs

mutual

/-- `String(value)` -/
def spelled : Json → List Char
  | null => "null".toList
  | bool b => (toString b).toList
  | num n => (toString n).toList
  | frac spelling => spelling.toList
  | str s => s.toList
  | text v => print v
  | arr [] => []
  | arr (v :: vs) => element v (spelled v) ++ joined vs
  | obj _ => "[object Object]".toList

/-- The elements after the first, each after a comma. -/
def joined : List Json → List Char
  | [] => []
  | v :: vs => ',' :: element v (spelled v) ++ joined vs

end

/-! ## Reading: characters into tokens -/

/-- What the characters so far are in the middle of; what they spell is kept backwards. -/
inductive Lexer where
  | between
  | word (cs : List Char)
  /-- A string. `high` is the first half of a surrogate pair, when an escape has just given it. -/
  | string (high : Option Nat) (cs : List Char)
  /-- After a backslash. -/
  | escaped (high : Option Nat) (cs : List Char)
  /-- After `\\u`: the number so far, and how many digits are to come. -/
  | code (high : Option Nat) (cs : List Char) (n left : Nat)

/-- What stands for a half of a surrogate pair that is alone, when JavaScript's string crosses
into Rust. -/
def replacement : Char := Char.ofNat 0xFFFD

/-- A first half that no second one follows is alone. -/
def settle (high : Option Nat) (cs : List Char) : List Char :=
  match high with
  | none => cs
  | some _ => replacement :: cs

/-- Go on after an escape has given the code unit `n`. -/
def unit (high : Option Nat) (cs : List Char) (n : Nat) : Lexer :=
  if 0xD800 ≤ n ∧ n < 0xDC00 then .string (some n) (settle high cs)
  else if 0xDC00 ≤ n ∧ n < 0xE000 then
    match high with
    | some h => .string none (Char.ofNat (0x10000 + (h - 0xD800) * 0x400 + (n - 0xDC00)) :: cs)
    | none => .string none (replacement :: cs)
  else .string none (Char.ofNat n :: settle high cs)

/-- The character that an escape of one letter stands for. -/
def unescape : Char → Option Char
  | '"' => some '"'
  | '\\' => some '\\'
  | '/' => some '/'
  | 'b' => some '\x08'
  | 'f' => some '\x0c'
  | 'n' => some '\n'
  | 'r' => some '\r'
  | 't' => some '\t'
  | _ => none

def hexValue (c : Char) : Option Nat :=
  if c.isDigit then some (c.toNat - 48)
  else if 97 ≤ c.toNat ∧ c.toNat < 103 then some (c.toNat - 87)
  else if 65 ≤ c.toNat ∧ c.toNat < 71 then some (c.toNat - 55)
  else none

namespace Lexer

/-- A character between tokens, or right after a word. -/
def start (c : Char) : List Token × Lexer :=
  if isBlank c then ([], .between)
  else if isPunct c then ([.punct c], .between)
  else if c = '"' then ([], .string none [])
  else ([], .word [c])

/-- The next character, and the tokens that it completes. -/
def step : Lexer → Char → Option (List Token × Lexer)
  | between, c => some (start c)
  | word cs, c =>
      if endsWord c then
        some (.word cs.reverse :: (start c).1, (start c).2)
      else some ([], word (c :: cs))
  | string high cs, c =>
      if c = '"' then some ([.str (String.ofList (settle high cs).reverse)], between)
      else if c = '\\' then some ([], escaped high cs)
      else if c.toNat < 32 then none
      else some ([], string none (c :: settle high cs))
  | escaped high cs, c =>
      if c = 'u' then some ([], code high cs 0 4)
      else (unescape c).map fun c => ([], string none (c :: settle high cs))
  | code high cs n left, c =>
      (hexValue c).map fun d =>
        ([], if left = 1 then unit high cs (16 * n + d) else code high cs (16 * n + d) (left - 1))

/-- The tokens of the characters that are left. -/
def lex : Lexer → List Char → Option (List Token)
  | between, [] => some []
  | word cs, [] => some [.word cs.reverse]
  | _, [] => none
  | lexer, c :: cs => do
      let (tokens, next) ← lexer.step c
      return tokens ++ (← lex next cs)

end Lexer

/-! ## Reading: words into numbers -/

/-- Half to even. -/
def roundDiv (p q : Nat) : Nat :=
  if 2 * (p % q) < q ∨ (2 * (p % q) = q ∧ p / q % 2 = 0) then p / q else p / q + 1

/-- The least double is `2 ^ -1074`. -/
def places : Nat := 1074

/-- The nearest double to `p / q`, in units of the least one: 53 binary digits are kept. -/
def nearest (p q : Nat) : Nat :=
  let shift := (p * 2 ^ places / q).log2 - 52
  roundDiv (p * 2 ^ places) (q * 2 ^ shift) * 2 ^ shift

/-- One or more digits at the front, and what is left. -/
def readDigits (cs : List Char) : Option (List Char × List Char) :=
  if (cs.takeWhile Char.isDigit).isEmpty then none
  else some (cs.takeWhile Char.isDigit, cs.dropWhile Char.isDigit)

/-- The digits after the point, if there is one. -/
def readFraction : List Char → Option (List Char × List Char)
  | '.' :: cs => readDigits cs
  | cs => some ([], cs)

/-- The power of ten, which ends the number. -/
def readPower : List Char → Option Int
  | [] => some 0
  | 'e' :: cs => Decimal.parseInt (String.ofList cs)
  | 'E' :: cs => Decimal.parseInt (String.ofList cs)
  | _ => none

/-- A number without its sign: its digits as one integer, and the power of ten. -/
def readDecimal (cs : List Char) : Option (Nat × Int) := do
  let (whole, cs) ← readDigits cs
  if whole.head? = some '0' ∧ whole.length ≠ 1 then none
  let (fraction, cs) ← readFraction cs
  let power ← readPower cs
  return (Nat.ofDigitChars 10 (whole ++ fraction) 0, power - fraction.length)

def maxSafe : Nat := 9007199254740991

/-- The number `m * 10 ^ power`: an integer, if the nearest double is a safe one. -/
def ofDecimal (cs : List Char) (sign : Int) (m : Nat) (power : Int) : Json :=
  let double := nearest (m * 10 ^ power.toNat) (10 ^ (-power).toNat)
  if 2 ^ places ∣ double ∧ double / 2 ^ places ≤ maxSafe
  then num (sign * (double / 2 ^ places : Nat)) else frac (String.ofList cs)

def readNumber (cs : List Char) : Option Json :=
  match cs with
  | '-' :: digits => (readDecimal digits).map fun (m, power) => ofDecimal cs (-1) m power
  | digits => (readDecimal digits).map fun (m, power) => ofDecimal cs 1 m power

def readWord (cs : List Char) : Option Json :=
  if cs = "null".toList then some null
  else if cs = "true".toList then some (bool true)
  else if cs = "false".toList then some (bool false)
  else readNumber cs

/-! ## Reading: tokens into a value -/

/-- An array or object that is open, with what it has so far; elements are kept backwards. -/
inductive Frame where
  | arr (elems : List Json)
  | obj (fields : List (String × Json)) (name : String)

/-- What has been read so far, and so what may come next. -/
inductive Reader where
  | value (frames : List Frame)
  /-- After `[`, which `]` may follow. -/
  | arrStart (frames : List Frame)
  | arrNext (elems : List Json) (frames : List Frame)
  /-- After `\x7b`, which `\x7d` may follow. -/
  | objStart (frames : List Frame)
  | nameNext (fields : List (String × Json)) (frames : List Frame)
  | colon (fields : List (String × Json)) (name : String) (frames : List Frame)
  | objNext (fields : List (String × Json)) (frames : List Frame)
  | done (v : Json)

namespace Reader

/-- A value is complete. A property that comes again replaces the first. -/
def put (v : Json) : List Frame → Reader
  | [] => done v
  | .arr elems :: frames => arrNext (v :: elems) frames
  | .obj fields name :: frames => objNext (setField name v fields) frames

/-- A token that starts a value. -/
def start (frames : List Frame) : Token → Option Reader
  | .punct '[' => some (arrStart frames)
  | .punct '{' => some (objStart frames)
  | .punct _ => none
  | .str s => some (put (.str s) frames)
  | .word cs => (readWord cs).map (put · frames)

def step : Reader → Token → Option Reader
  | value frames, token => start frames token
  | arrStart frames, .punct ']' => some (put (.arr []) frames)
  | arrStart frames, token => start (.arr [] :: frames) token
  | arrNext elems frames, .punct ',' => some (value (.arr elems :: frames))
  | arrNext elems frames, .punct ']' => some (put (.arr elems.reverse) frames)
  | objStart frames, .punct '}' => some (put (.obj []) frames)
  | objStart frames, .str n => some (colon [] n frames)
  | nameNext fields frames, .str n => some (colon fields n frames)
  | colon fields n frames, .punct ':' => some (value (.obj fields n :: frames))
  | objNext fields frames, .punct ',' => some (nameNext fields frames)
  | objNext fields frames, .punct '}' => some (put (.obj fields) frames)
  | _, _ => none

end Reader

/-- `JSON.parse(text)` -/
def parseText (cs : List Char) : Option Json := do
  match ← (← Lexer.between.lex cs).foldlM Reader.step (.value []) with
  | .done v => some v
  | _ => none

/-- `JSON.parse(value)`; what an object is spelled as is not JSON. -/
def parse : Json → Option Json
  | null => some null
  | bool b => some (bool b)
  | num n => some (num n)
  | frac spelling => if isFinite spelling then some (frac spelling) else none
  | str s => parseText s.toList
  | text v => some v
  | arr elems => parseText (spelled (arr elems))
  | obj _ => none

@[simp] theorem parse_text (v : Json) : parse (text v) = some v := rfl

/-- Two fragments of an object, and three of nothing. -/
example : parse (arr [str "\x7b\"a\":\"x\"", str "\"b\":null\x7d"])
      = some (obj [("a", str "x"), ("b", null)])
    ∧ parse (arr [str "[true", null, str "false]"]) = none := ⟨rfl, rfl⟩

end Json
