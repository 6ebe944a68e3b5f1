import Mathlib.Tactic.Ring

/-!
# Instants and RFC 3339 text

The proleptic Gregorian calendar, and the RFC 3339 text of an instant, as total
functions. An instant is a number of nanoseconds since the Unix epoch.

* `civil` gives the date of a day number and `days` the day number of a date;
  `days_civil` says the second undoes the first.
* `format` writes an instant in UTC with as many fractional digits as it needs,
  `isoMillis` with exactly three, and `parse` reads any RFC 3339 text, offset
  included. `parse_format` and `parse_isoMillis` say that what is written in the
  years 0 to 9999 is read back as the same instant.
-/

namespace Rfc3339

/-! ## The calendar -/

/-- A date: year, month and day. -/
structure Date where
  year : Int
  month : Int
  day : Int
  deriving DecidableEq, Repr

/-- The number of a date's day, counted from 1970-01-01. A year starts in March here. -/
def days (date : Date) : Int :=
  let y := if date.month ≤ 2 then date.year - 1 else date.year
  let era := y / 400
  let yearOfEra := y - era * 400
  let march := if date.month ≤ 2 then date.month + 9 else date.month - 3
  let dayOfYear := (153 * march + 2) / 5 + date.day - 1
  let dayOfEra := yearOfEra * 365 + yearOfEra / 4 - yearOfEra / 100 + dayOfYear
  era * 146097 + dayOfEra - 719468

/-- Where a day falls: its 400-year era, century, four-year cycle and year, and its day of the year. -/
structure Place where
  era : Int
  century : Int
  cycle : Int
  year : Int
  dayOfYear : Int

/-- The place of a day number. The last century, cycle and year take the leap day in. -/
def place (dayNumber : Int) : Place :=
  let z := dayNumber + 719468
  let era := z / 146097
  let dayOfEra := z - era * 146097
  let century := min (dayOfEra / 36524) 3
  let dayOfCentury := dayOfEra - century * 36524
  let cycle := min (dayOfCentury / 1461) 24
  let dayOfCycle := dayOfCentury - cycle * 1461
  let year := min (dayOfCycle / 365) 3
  { era, century, cycle, year, dayOfYear := dayOfCycle - year * 365 }

/-- The date at a place. -/
def Place.date (p : Place) : Date :=
  let march := (5 * p.dayOfYear + 2) / 153
  { year := p.era * 400 + p.century * 100 + p.cycle * 4 + p.year + (if march < 10 then 0 else 1)
    month := if march < 10 then march + 3 else march - 9
    day := p.dayOfYear - (153 * march + 2) / 5 + 1 }

/-- The date of a day number. -/
def civil (dayNumber : Int) : Date := (place dayNumber).date

/-- What `place` guarantees: the parts are in range and add up. -/
structure Place.Holds (p : Place) (z : Int) : Prop where
  sum : z + 719468
    = p.era * 146097 + p.century * 36524 + p.cycle * 1461 + p.year * 365 + p.dayOfYear
  century : 0 ≤ p.century ∧ p.century ≤ 3
  cycle : 0 ≤ p.cycle ∧ p.cycle ≤ 24
  year : 0 ≤ p.year ∧ p.year ≤ 3
  dayOfYear : 0 ≤ p.dayOfYear ∧ p.dayOfYear ≤ 365

theorem place_holds (z : Int) : (place z).Holds z := by
  constructor <;> simp only [place] <;> omega

theorem days_date {p : Place} {z : Int} (h : p.Holds z) : days p.date = z := by
  obtain ⟨hsum, ⟨hc0, hc1⟩, ⟨hq0, hq1⟩, ⟨hy0, hy1⟩, ⟨hd0, hd1⟩⟩ := h
  have hyear : (p.era * 400 + p.century * 100 + p.cycle * 4 + p.year) / 400 = p.era := by omega
  by_cases hmar : (5 * p.dayOfYear + 2) / 153 < 10
  · simp only [Place.date, days, hmar, if_true, Int.add_zero]
    rw [if_neg (by omega), if_neg (by omega), hyear]
    omega
  · simp only [Place.date, days, hmar, if_false]
    rw [if_pos (by omega), if_pos (by omega), Int.add_sub_cancel, hyear]
    omega

/-- A day number is recovered from its date. -/
theorem days_civil (z : Int) : days (civil z) = z := days_date (place_holds z)

theorem civil_month (z : Int) : 1 ≤ (civil z).month ∧ (civil z).month ≤ 12 := by
  obtain ⟨hd0, hd1⟩ := (place_holds z).dayOfYear
  simp only [civil, Place.date]
  split <;> omega

theorem civil_day (z : Int) : 1 ≤ (civil z).day ∧ (civil z).day ≤ 31 := by
  obtain ⟨hd0, hd1⟩ := (place_holds z).dayOfYear
  simp only [civil, Place.date]
  omega

/-- Day numbers from 0000-01-01 to 9999-12-31 have a year of at most four digits. -/
theorem civil_year {z : Int} (h0 : -719528 ≤ z) (h1 : z < 2932897) :
    0 ≤ (civil z).year ∧ (civil z).year < 10000 := by
  obtain ⟨hsum, ⟨hc0, hc1⟩, ⟨hq0, hq1⟩, ⟨hy0, hy1⟩, ⟨hd0, hd1⟩⟩ := place_holds z
  simp only [civil, Place.date]
  generalize place z = p at *
  have hera : -1 ≤ p.era ∧ p.era ≤ 24 := by omega
  constructor
  · -- the era before 0000-03-01 is entered on its last January only
    by_cases he : p.era = -1
    · have hcen : p.century = 3 := by omega
      have hcyc : p.cycle = 24 := by omega
      have hyr : p.year = 3 := by omega
      rw [if_neg (by omega)]
      omega
    · split <;> omega
  · by_cases hlast : p.era = 24 ∧ p.century = 3 ∧ p.cycle = 24 ∧ p.year = 3
    · rw [if_pos (by omega)]
      omega
    · split <;> omega

/-! ## Digits -/

def digitVal (c : Char) : Option Nat :=
  if '0' ≤ c ∧ c ≤ '9' then some (c.toNat - '0'.toNat) else none

def digit (n : Nat) : Char := Char.ofNat ('0'.toNat + n % 10)

theorem digitVal_digit (n : Nat) : digitVal (digit n) = some (n % 10) := by
  have key : ∀ d : Fin 10, digitVal (Char.ofNat ('0'.toNat + d.val)) = some d.val := by decide
  exact key ⟨n % 10, Nat.mod_lt _ (by omega)⟩

/-- The last `k` decimal digits of `n`. -/
def pad : Nat → Nat → List Char
  | 0, _ => []
  | k + 1, n => digit (n / 10 ^ k) :: pad k n

/-- Read exactly `k` digits, on top of what was read so far. -/
def readDigits : Nat → Nat → List Char → Option (Nat × List Char)
  | 0, acc, cs => some (acc, cs)
  | _ + 1, _, [] => none
  | k + 1, acc, c :: cs => (digitVal c).bind fun d => readDigits k (10 * acc + d) cs

/-- Read digits as a fraction of `10 ^ k`; those beyond the `k`th are dropped. -/
def readFraction : Nat → Nat → List Char → Nat × List Char
  | 0, acc, cs => (acc, cs.dropWhile (fun c => (digitVal c).isSome))
  | k + 1, acc, [] => (acc * 10 ^ (k + 1), [])
  | k + 1, acc, c :: cs =>
      match digitVal c with
      | some d => readFraction k (10 * acc + d) cs
      | none => (acc * 10 ^ (k + 1), c :: cs)

/-- The digits of `n / 10 ^ k` after the point, without trailing zeros. -/
def fraction : Nat → Nat → List Char
  | 0, _ => []
  | k + 1, n => if n % 10 ^ (k + 1) = 0 then [] else digit (n / 10 ^ k) :: fraction k n

private theorem digit_step (acc n k : Nat) :
    (10 * acc + n / 10 ^ k % 10) * 10 ^ k + n % 10 ^ k
      = acc * 10 ^ (k + 1) + n % 10 ^ (k + 1) := by
  rw [Nat.mod_pow_succ, Nat.pow_succ]
  ring

theorem readDigits_pad (k acc n : Nat) (rest : List Char) :
    readDigits k acc (pad k n ++ rest) = some (acc * 10 ^ k + n % 10 ^ k, rest) := by
  induction k generalizing acc with
  | zero => simp [readDigits, pad, Nat.mod_one]
  | succ k ih =>
      rw [pad, List.cons_append, readDigits, digitVal_digit, Option.bind_some, ih, digit_step]

/-- Text that does not go on with a digit ends a fraction. -/
def EndsDigits (rest : List Char) : Prop := ∃ c cs, rest = c :: cs ∧ digitVal c = none

theorem readFraction_end {rest : List Char} (h : EndsDigits rest) (k acc : Nat) :
    readFraction k acc rest = (acc * 10 ^ k, rest) := by
  obtain ⟨c, cs, rfl, hc⟩ := h
  cases k with
  | zero => simp [readFraction, hc]
  | succ k => simp [readFraction, hc]

theorem readFraction_fraction {rest : List Char} (h : EndsDigits rest) (k acc n : Nat) :
    readFraction k acc (fraction k n ++ rest) = (acc * 10 ^ k + n % 10 ^ k, rest) := by
  induction k generalizing acc with
  | zero => simpa [fraction, Nat.mod_one] using readFraction_end h 0 acc
  | succ k ih =>
      rw [fraction]
      split
      next hz => simp [readFraction_end h, hz]
      next hz =>
        rw [List.cons_append, readFraction, digitVal_digit]
        exact (ih _).trans (by rw [digit_step])

theorem readFraction_pad {rest : List Char} (h : EndsDigits rest) (k j acc n : Nat) :
    readFraction (k + j) acc (pad k n ++ rest) = ((acc * 10 ^ k + n % 10 ^ k) * 10 ^ j, rest) := by
  induction k generalizing acc with
  | zero => simpa [pad, Nat.mod_one] using readFraction_end h j acc
  | succ k ih =>
      rw [pad, List.cons_append, Nat.succ_add, readFraction, digitVal_digit]
      exact (ih _).trans (by rw [digit_step])

/-! ## Text -/

def nanosPerSecond : Int := 1000000000

/-- The seconds of an instant, and the nanoseconds past them. -/
def seconds (t : Int) : Int := t / nanosPerSecond

def nanos (t : Int) : Nat := (t % nanosPerSecond).toNat

/-- `YYYY-MM-DD` -/
def dateText (date : Date) : List Char :=
  pad 4 date.year.toNat ++ '-' :: (pad 2 date.month.toNat ++ '-' :: pad 2 date.day.toNat)

/-- `hh:mm:ss` of a second of the day. -/
def clockText (second : Nat) : List Char :=
  pad 2 (second / 3600) ++ ':' :: (pad 2 (second / 60 % 60) ++ ':' :: pad 2 (second % 60))

/-- `YYYY-MM-DDThh:mm:ss` of a number of seconds since the epoch. -/
def stamp (s : Int) : List Char :=
  dateText (civil (s / 86400)) ++ 'T' :: clockText (s % 86400).toNat

/-- The RFC 3339 text of an instant in UTC, when its year has four digits. -/
def format (t : Int) : Option String :=
  let year := (civil (seconds t / 86400)).year
  if 0 ≤ year ∧ year ≤ 9999 then
    some (String.ofList (stamp (seconds t)
      ++ ((if nanos t = 0 then [] else '.' :: fraction 9 (nanos t)) ++ ['Z'])))
  else none

/--
`Date.prototype.toISOString`, on milliseconds since the epoch: always three
fractional digits, and a signed six-digit year outside the years 0 to 9999.
-/
def isoMillis (ms : Int) : String :=
  let year := (civil (ms / 86400000)).year
  let tail := '.' :: (pad 3 (ms % 1000).toNat ++ ['Z'])
  String.ofList (
    if 0 ≤ year ∧ year ≤ 9999 then stamp (ms / 1000) ++ tail
    else (if 0 ≤ year then '+' else '-') :: (pad 6 year.natAbs
      ++ ((stamp (ms / 1000)).drop 4 ++ tail)))

def expect (among : List Char) : List Char → Option (List Char)
  | [] => none
  | c :: cs => if c ∈ among then some cs else none

/-- `Z`, or a signed `hh:mm`, as minutes east of UTC; nothing may follow. -/
def readOffset : List Char → Option Int
  | ['Z'] | ['z'] => some 0
  | sign :: cs => do
      let sign : Int ← if sign = '+' then some 1 else if sign = '-' then some (-1) else none
      let (hour, cs) ← readDigits 2 0 cs
      let cs ← expect [':'] cs
      let (minute, cs) ← readDigits 2 0 cs
      if hour ≤ 23 ∧ minute ≤ 59 ∧ cs = [] then some (sign * (hour * 60 + minute)) else none
  | [] => none

/-- The optional fraction of a second, in nanoseconds. -/
def readNanos : List Char → Option (Nat × List Char)
  | '.' :: c :: cs =>
      if (digitVal c).isSome then some (readFraction 9 0 (c :: cs)) else none
  | ['.'] => none
  | cs => some (0, cs)

/-- A date that is in the calendar. -/
def readDate (cs : List Char) : Option (Date × List Char) := do
  let (year, cs) ← readDigits 4 0 cs
  let cs ← expect ['-'] cs
  let (month, cs) ← readDigits 2 0 cs
  let cs ← expect ['-'] cs
  let (day, cs) ← readDigits 2 0 cs
  let date : Date := { year := year, month := month, day := day }
  if civil (days date) = date then some (date, cs) else none

/-- A time of day, as its second. Leap seconds are not read. -/
def readClock (cs : List Char) : Option (Nat × List Char) := do
  let (hour, cs) ← readDigits 2 0 cs
  let cs ← expect [':'] cs
  let (minute, cs) ← readDigits 2 0 cs
  let cs ← expect [':'] cs
  let (second, cs) ← readDigits 2 0 cs
  if hour ≤ 23 ∧ minute ≤ 59 ∧ second ≤ 59 then some (hour * 3600 + minute * 60 + second, cs)
  else none

/-- The instant an RFC 3339 text denotes. -/
def parse (text : String) : Option Int := do
  let (date, cs) ← readDate text.toList
  let cs ← expect ['T', 't'] cs
  let (second, cs) ← readClock cs
  let (nanos, cs) ← readNanos cs
  let offset ← readOffset cs
  some ((days date * 86400 + second - offset * 60) * nanosPerSecond + nanos)

theorem readDate_text (z : Int) (h0 : 0 ≤ (civil z).year) (h1 : (civil z).year ≤ 9999)
    (rest : List Char) : readDate (dateText (civil z) ++ rest) = some (civil z, rest) := by
  have hround : civil (days (civil z)) = civil z := by rw [days_civil]
  obtain ⟨hm0, hm1⟩ := civil_month z
  obtain ⟨hd0, hd1⟩ := civil_day z
  generalize civil z = date at *
  have hdate : ({ year := date.year.toNat, month := date.month.toNat, day := date.day.toNat } : Date)
      = date := by
    rw [Int.toNat_of_nonneg h0, Int.toNat_of_nonneg (by omega), Int.toNat_of_nonneg (by omega)]
  have hyear : date.year.toNat % 10 ^ 4 = date.year.toNat := Nat.mod_eq_of_lt (by omega)
  have hmonth : date.month.toNat % 10 ^ 2 = date.month.toNat := Nat.mod_eq_of_lt (by omega)
  have hday : date.day.toNat % 10 ^ 2 = date.day.toNat := Nat.mod_eq_of_lt (by omega)
  unfold readDate dateText
  simp only [List.append_assoc, List.cons_append, readDigits_pad, Option.bind_eq_bind,
    Option.bind_some, expect, List.mem_singleton, if_true, Nat.zero_mul, Nat.zero_add, hyear,
    hmonth, hday, hdate, hround]

theorem readClock_text {second : Nat} (h : second < 86400) (rest : List Char) :
    readClock (clockText second ++ rest) = some (second, rest) := by
  have hhour : second / 3600 % 10 ^ 2 = second / 3600 := Nat.mod_eq_of_lt (by omega)
  have hminute : second / 60 % 60 % 10 ^ 2 = second / 60 % 60 := Nat.mod_eq_of_lt (by omega)
  have hsecond : second % 60 % 10 ^ 2 = second % 60 := Nat.mod_eq_of_lt (by omega)
  have hsum : second / 3600 * 3600 + second / 60 % 60 * 60 + second % 60 = second := by omega
  have hbound : second / 3600 ≤ 23 ∧ second / 60 % 60 ≤ 59 ∧ second % 60 ≤ 59 := by omega
  unfold readClock clockText
  simp only [List.append_assoc, List.cons_append, readDigits_pad, Option.bind_eq_bind,
    Option.bind_some, expect, List.mem_singleton, if_true, Nat.zero_mul, Nat.zero_add, hhour,
    hminute, hsecond, hsum]
  rw [if_pos hbound]

/-- A stamp with a four-digit year, followed by a fraction and `Z`, is read back. -/
theorem parse_stamp {s : Int} (h0 : 0 ≤ (civil (s / 86400)).year)
    (h1 : (civil (s / 86400)).year ≤ 9999) {tail : List Char} {n : Nat}
    (ht : readNanos tail = some (n, ['Z'])) :
    parse (String.ofList (stamp s ++ tail)) = some (s * nanosPerSecond + n) := by
  have hsecond : (s % 86400).toNat < 86400 := by omega
  have hsum : s / 86400 * 86400 + ((s % 86400).toNat : Int) - 0 * 60 = s := by omega
  unfold parse stamp
  rw [String.toList_ofList, List.append_assoc, readDate_text _ h0 h1]
  simp only [Option.bind_eq_bind, Option.bind_some, List.cons_append, expect, List.mem_cons,
    true_or, if_true]
  rw [readClock_text hsecond]
  simp only [Option.bind_some, ht, readOffset, days_civil, hsum]

theorem endsDigits_zulu : EndsDigits ['Z'] := ⟨'Z', [], rfl, by decide⟩

theorem digitVal_digit_isSome (n : Nat) : (digitVal (digit n)).isSome = true := by
  rw [digitVal_digit]
  rfl

/-- **What `format` writes, `parse` reads as the same instant.** -/
theorem parse_of_format {t : Int} {text : String} (h : format t = some text) :
    parse text = some t := by
  have hsum : seconds t * nanosPerSecond + (nanos t : Int) = t := by
    unfold seconds nanos nanosPerSecond
    omega
  unfold format at h
  obtain ⟨⟨hy0, hy1⟩, htext⟩ := Option.ite_none_right_eq_some.mp h
  cases htext
  rw [parse_stamp hy0 hy1 (n := nanos t) ?_, hsum]
  by_cases hz : nanos t = 0
  · rw [if_pos hz, hz]
    rfl
  · have hlt : nanos t % 10 ^ (8 + 1) = nanos t := Nat.mod_eq_of_lt (by
      unfold nanos nanosPerSecond
      omega)
    have hread := readFraction_fraction endsDigits_zulu 9 0 (nanos t)
    rw [fraction, hlt, if_neg hz] at hread
    rw [if_neg hz, fraction, hlt, if_neg hz, List.cons_append, List.cons_append, readNanos,
      digitVal_digit_isSome, if_pos rfl, ← List.cons_append, hread, Nat.zero_mul, Nat.zero_add]

/-- Every instant of the years 0 to 9999 has a text. -/
theorem parse_format {t : Int} (h0 : -62167219200000000000 ≤ t) (h1 : t < 253402300800000000000) :
    ∃ text, format t = some text ∧ parse text = some t := by
  obtain ⟨hy0, hy1⟩ := civil_year (z := seconds t / 86400)
    (by unfold seconds nanosPerSecond; omega) (by unfold seconds nanosPerSecond; omega)
  have htext : ∃ text, format t = some text := ⟨_, if_pos ⟨hy0, by omega⟩⟩
  exact htext.imp fun text h => ⟨h, parse_of_format h⟩

/-- **What `toISOString` writes, `parse` reads as the same instant.** -/
theorem parse_isoMillis {ms : Int} (h0 : -62167219200000 ≤ ms) (h1 : ms < 253402300800000) :
    parse (isoMillis ms) = some (ms * 1000000) := by
  have hday : ms / 86400000 = ms / 1000 / 86400 := by omega
  obtain ⟨hy0, hy1⟩ := civil_year (z := ms / 1000 / 86400) (by omega) (by omega)
  have hsum : ms / 1000 * nanosPerSecond + (((ms % 1000).toNat * 10 ^ 6 : Nat) : Int)
      = ms * 1000000 := by
    unfold nanosPerSecond
    omega
  have hfrac := readFraction_pad endsDigits_zulu 3 6 0 (ms % 1000).toNat
  have hlt : (ms % 1000).toNat % 10 ^ 3 = (ms % 1000).toNat := Nat.mod_eq_of_lt (by omega)
  rw [hlt, Nat.zero_mul, Nat.zero_add] at hfrac
  unfold isoMillis
  rw [hday]
  simp only []
  rw [if_pos ⟨hy0, by omega⟩, parse_stamp hy0 (by omega) (n := (ms % 1000).toNat * 10 ^ 6) ?_, hsum]
  rw [pad, List.cons_append, readNanos, digitVal_digit_isSome, if_pos rfl]
  exact congrArg some hfrac

example : format 1785542400123000000 = some "2026-08-01T00:00:00.123Z" := by decide
example : parse "2026-08-01T08:00:00+08:00" = some 1785542400000000000 := by decide

end Rfc3339
