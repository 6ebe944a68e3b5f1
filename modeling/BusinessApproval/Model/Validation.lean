import BusinessApproval.Model.Approval

/-!
# Field validation

The owner's field checks. A Rust `str` is a Lean `String`; its `len()` and
`bytes()` are taken from its UTF-8 encoding, so lengths are in bytes here, and
`chars()` from its characters.
-/

namespace BusinessApproval

def maxRequestIdBytes : Nat := 128
def maxIdempotencyKeyBytes : Nat := 256
def maxKindBytes : Nat := 128
def maxReferenceBytes : Nat := 512
def maxReasonBytes : Nat := 1000

/-- The bytes of a string, as `str::bytes` yields them. -/
def bytes (value : String) : List UInt8 := value.toUTF8.data.toList

def isAsciiDigit (byte : UInt8) : Bool := '0'.toUInt8 ≤ byte && byte ≤ '9'.toUInt8

def isAsciiLowercase (byte : UInt8) : Bool := 'a'.toUInt8 ≤ byte && byte ≤ 'z'.toUInt8

def isAsciiUppercase (byte : UInt8) : Bool := 'A'.toUInt8 ≤ byte && byte ≤ 'Z'.toUInt8

def isAsciiAlphanumeric (byte : UInt8) : Bool :=
  isAsciiDigit byte || isAsciiLowercase byte || isAsciiUppercase byte

/-- `matches!(byte, ...)` over the ASCII characters of `among`. -/
def matchesByte (among : List Char) (byte : UInt8) : Bool :=
  among.any (fun c => byte == c.toUInt8)

def validIdentifier (value : String) (maximum : Nat) : Bool :=
  !value.isEmpty
    && value.utf8ByteSize ≤ maximum
    && (bytes value).all
      (fun byte => isAsciiAlphanumeric byte || matchesByte ['.', '_', '-', ':'] byte)

def validRequestId (value : String) : Bool := validIdentifier value maxRequestIdBytes

def validIdempotencyKey (value : String) : Bool := validIdentifier value maxIdempotencyKeyBytes

def validKind (value : String) : Bool :=
  !value.isEmpty
    && value.utf8ByteSize ≤ maxKindBytes
    && (bytes value).all
      (fun byte => isAsciiLowercase byte || isAsciiDigit byte || matchesByte ['.', '_', '-'] byte)
    && (bytes value).head?.any isAsciiAlphanumeric
    && (bytes value).getLast?.any isAsciiAlphanumeric

def validReference (value : String) : Bool :=
  !value.isEmpty
    && value.utf8ByteSize ≤ maxReferenceBytes
    && (bytes value).all
      (fun byte => isAsciiAlphanumeric byte || matchesByte ['.', '_', '-', ':', '/'] byte)

def validIntentDigest (digest : String) : Bool :=
  digest.utf8ByteSize == 64
    && (bytes digest).all
      (fun byte => isAsciiDigit byte || ('a'.toUInt8 ≤ byte && byte ≤ 'f'.toUInt8))

/-- `char::is_whitespace`: the Unicode `White_Space` property. -/
def isWhitespace (c : Char) : Bool :=
  (0x9 ≤ c.toNat && c.toNat ≤ 0xd) || c.toNat == 0x20 || c.toNat == 0x85 || c.toNat == 0xa0
    || c.toNat == 0x1680 || (0x2000 ≤ c.toNat && c.toNat ≤ 0x200a)
    || c.toNat == 0x2028 || c.toNat == 0x2029 || c.toNat == 0x202f || c.toNat == 0x205f
    || c.toNat == 0x3000

/-- `char::is_control`: the Unicode general category `Cc`. -/
def isControl (c : Char) : Bool :=
  c.toNat ≤ 0x1f || (0x7f ≤ c.toNat && c.toNat ≤ 0x9f)

/-- `str::trim`, on the characters. -/
def trim (value : List Char) : List Char :=
  ((value.dropWhile isWhitespace).reverse.dropWhile isWhitespace).reverse

def validReason (reason : Option String) : Bool :=
  reason.all (fun value =>
    !(trim value.toList).isEmpty
      && value.utf8ByteSize ≤ maxReasonBytes
      && !value.toList.any isControl)

example : validKind "expense.review" = true ∧ validKind "Expense Review" = false := by decide
example : validReason (some "Within policy") = true ∧ validReason (some "   ") = false := by decide

end BusinessApproval
