import DocumentProof.Bytes.Basic
import DocumentProof.Text.Quoted
import DocumentProof.Time.Calendar
import DocumentProof.Time.Instant

/-!
# Points in time

A timestamp is a whole number of seconds since the start of 1970 in UTC. It is written as
`YYYY-MM-DDTHH:MM:SSZ`, and read from RFC 3339 text with any offset. The text gives an instant, in
which the second 60 is the leap second after the second 59; the timestamp is the second of the
instant.
-/

namespace DocumentProof

/-- A whole number of seconds since 1970, from the start of the year -262143 to the end of the year
262142. -/
structure Timestamp where
  seconds : Int
  lower : -8334601228800 ≤ seconds
  upper : seconds ≤ 8210266876799
deriving DecidableEq

/-- What is wrong with an RFC 3339 text. -/
inductive TimeFault where
  | invalid
  | tooShort
  | outOfRange
  | tooLong
deriving DecidableEq

def TimeFault.message : TimeFault → String
  | .invalid => "input contains invalid characters"
  | .tooShort => "premature end of input"
  | .outOfRange => "input is out of range"
  | .tooLong => "trailing input"

/-- Why there is no timestamp. -/
inductive TimestampError where
  | notUtc (text : String)
  | text (text : String) (fault : TimeFault)
  | seconds (n : Int)
  | milliseconds (n : Int)
deriving DecidableEq

def TimestampError.message (e : TimestampError) : String :=
  "invalid timestamp: " ++ match e with
    | .notUtc s => "timestamp must use Z suffix (UTC only), got: " ++ Text.quoted s
    | .text s fault => "invalid RFC 3339 timestamp " ++ Text.quoted s ++ ": " ++ fault.message
    | .seconds n => "invalid Unix timestamp: " ++ toString n
    | .milliseconds n => "invalid Unix timestamp (ms): " ++ toString n

namespace Timestamp

/-- The second that an instant falls into. -/
def ofInstant (i : Instant) : Timestamp :=
  ⟨i.truncated.seconds, i.truncated.lower, i.truncated.upper⟩

/-- The start of the second. -/
def toInstant (t : Timestamp) : Instant := ⟨t.seconds, 0, t.lower, t.upper, by decide⟩

def ofSeconds (n : Int) : Except TimestampError Timestamp :=
  match Instant.ofSeconds? n 0 with
  | some i => .ok (ofInstant i)
  | none => .error (.seconds n)

/-- The second that a number of milliseconds falls into. -/
def ofMilliseconds (n : Int) : Except TimestampError Timestamp :=
  match Instant.ofMilliseconds? n with
  | some i => .ok (ofInstant i)
  | none => .error (.milliseconds n)

/-! ### Writing -/

/-- At least `width` digits. -/
def padded (width n : Nat) : List Char :=
  let ds := Nat.toDigits 10 n
  List.replicate (width - ds.length) '0' ++ ds

/-- Four digits; a year outside 0 to 9999 carries its sign. -/
def yearText (year : Int) : List Char :=
  if 0 ≤ year ∧ year ≤ 9999 then padded 4 year.natAbs
  else (if year < 0 then '-' else '+') :: padded 4 year.natAbs

def date (t : Timestamp) : Date := Date.ofDays (t.seconds.fdiv 86400)

def secondOfDay (t : Timestamp) : Nat := (t.seconds.fmod 86400).toNat

def toText (t : Timestamp) : String :=
  let d := t.date
  let s := t.secondOfDay
  String.ofList (yearText d.year ++ '-' :: padded 2 d.month ++ '-' :: padded 2 d.day
    ++ 'T' :: padded 2 (s / 3600) ++ ':' :: padded 2 (s / 60 % 60) ++ ':' :: padded 2 (s % 60)
    ++ ['Z'])

/-! ### Reading

The reader works on the UTF-8 form. It takes the nineteen bytes of date and time, then a fraction,
then the offset.
-/

def digit? (b : UInt8) : Except TimeFault Nat :=
  if 48 ≤ b.toNat ∧ b.toNat ≤ 57 then .ok (b.toNat - 48) else .error .invalid

/-- The value of the digits. -/
def number? (bs : Bytes) : Except TimeFault Nat :=
  bs.foldlM (fun n b => do return 10 * n + (← digit? b)) 0

def expect (holds : Bool) (fault : TimeFault) : Except TimeFault Unit :=
  if holds then .ok () else .error fault

def isDigit (b : UInt8) : Bool := 48 ≤ b.toNat && b.toNat ≤ 57

/-- The nanoseconds that the digits after the point give: nine digits count, and fewer than nine
are filled up with zeros. -/
def nanosOf (ds : Bytes) : Nat :=
  (ds.take 9).foldl (fun n b => 10 * n + (b.toNat - 48)) 0 * Nat.pow 10 (9 - ds.length)

/-- The nanoseconds of a fraction, which has a point and at least one digit, and the bytes after
it. -/
def readFraction : Bytes → Except TimeFault (Nat × Bytes)
  | 0x2E :: [] => .error .tooShort
  | 0x2E :: b :: bs =>
    if isDigit b then .ok (nanosOf (b :: bs.takeWhile isDigit), bs.dropWhile isDigit)
    else .error .invalid
  | bs => .ok (0, bs)

/-- Hours and minutes of an offset, in seconds, and the bytes after them. -/
def readOffsetDigits : Bytes → Except TimeFault (Int × Bytes)
  | h1 :: h2 :: rest => do
    let hours ← number? [h1, h2]
    match rest with
    | [] => .error .tooShort
    | c :: rest =>
      expect (c == 0x3A) .invalid
      match rest with
      | m1 :: m2 :: rest =>
        let minutes ← number? [m1, m2]
        expect (minutes < 60 && hours < 24) .outOfRange
        return ((hours * 60 + minutes) * 60, rest)
      | _ => .error .tooShort
  | _ => .error .tooShort

/-- An offset from UTC in seconds, and the bytes after it. The sign may be the minus character. -/
def readOffset : Bytes → Except TimeFault (Int × Bytes)
  | [] => .error .tooShort
  | 0x5A :: rest => .ok (0, rest)
  | 0x7A :: rest => .ok (0, rest)
  | 0x2B :: rest => readOffsetDigits rest
  | 0x2D :: rest => do
    let (offset, rest) ← readOffsetDigits rest
    return (-offset, rest)
  | 0xE2 :: 0x88 :: 0x92 :: rest => do
    let (offset, rest) ← readOffsetDigits rest
    return (-offset, rest)
  | _ => .error .invalid

/-- The instant that an RFC 3339 text gives. -/
def readInstant (bs : Bytes) : Except TimeFault Instant :=
  match bs with
  | y1 :: y2 :: y3 :: y4 :: s1 :: m1 :: m2 :: s2 :: d1 :: d2 :: s3 ::
      h1 :: h2 :: s4 :: n1 :: n2 :: s5 :: c1 :: c2 :: rest => do
    expect (rest != []) .tooShort
    let year ← number? [y1, y2, y3, y4]
    expect (s1 == 0x2D) .invalid
    let month ← number? [m1, m2]
    expect (s2 == 0x2D) .invalid
    let day ← number? [d1, d2]
    let date : Date := ⟨year, month, day⟩
    expect (decide date.Valid) .outOfRange
    expect (s3 == 0x54 || s3 == 0x74 || s3 == 0x20) .invalid
    let hour ← number? [h1, h2]
    expect (s4 == 0x3A) .invalid
    let minute ← number? [n1, n2]
    expect (s5 == 0x3A) .invalid
    let second ← number? [c1, c2]
    let (nanos, rest) ← readFraction rest
    expect (hour < 24 && minute < 60 && second ≤ 60) .outOfRange
    let (offset, rest) ← readOffset rest
    expect (rest == []) .tooLong
    let seconds := date.toDays * 86400 + (hour * 3600 + minute * 60 + min second 59 : Nat) - offset
    match Instant.ofSeconds? seconds (nanos + if second = 60 then 1000000000 else 0) with
    | some i => return i
    | none => .error .outOfRange
  | _ => .error .tooShort

/-- The timestamp of an RFC 3339 text with any offset. -/
def ofText (s : String) : Except TimestampError Timestamp :=
  match readInstant (Bytes.ofString s) with
  | .error fault => .error (.text s fault)
  | .ok i => .ok (ofInstant i)

/-- The timestamp of an RFC 3339 text that ends in `Z`. -/
def ofUtcText (s : String) : Except TimestampError Timestamp :=
  if s.toList.getLast? = some 'Z' then ofText s else .error (.notUtc s)

end Timestamp

/-- A date as a caller gives it: milliseconds since 1970 in 64 bits, or RFC 3339 text. -/
inductive DateInput where
  | milliseconds (n : Int) (lower : -0x8000000000000000 ≤ n) (upper : n < 0x8000000000000000)
  | text (s : String)

def DateInput.timestamp : DateInput → Except TimestampError Timestamp
  | .milliseconds n _ _ => Timestamp.ofMilliseconds n
  | .text s => Timestamp.ofText s

/-- The text of a date as a caller gives it, or of the present time. -/
def dateText (now : Timestamp) : Option DateInput → Except TimestampError String
  | some d => do return (← d.timestamp).toText
  | none => .ok now.toText

end DocumentProof
