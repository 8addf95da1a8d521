import Exchange.Text.WhiteSpace

/-!
# Timestamps

Request timestamps are read in a relaxed RFC 3339 form: `date T time offset`, where

- the date is a year, `-`, a month and `-`, a day; the year has up to four digits, or any
  number of them after a sign; month and day have one or two digits;
- the separator is `T`, `t` or one blank;
- the time is hours, minutes and seconds of one or two digits each, separated by `:`, with an
  optional fraction of a second after a point (nine digits are kept, the rest skipped); second 60
  is a leap second, kept as 59 with one more second of nanoseconds;
- the offset is `Z`, `z`, `UTC` in any case, or a sign and two-digit hours and minutes, with
  any colons or blanks between them;
- blanks may stand before every number and before every `-` and `:`, and after the whole.

The date must lie in the years -262143 to 262142 as written (else it is out of range), and
again once moved to UTC by its offset (else no such moment exists).

A timestamp is the count of seconds since 1970-01-01T00:00:00Z and the nanoseconds after it.
-/

namespace Exchange

/-- Why a timestamp does not read. -/
inductive TimeError where
  | invalid
  | tooShort
  | tooLong
  | outOfRange
  | impossible
  deriving DecidableEq, Repr

def TimeError.message : TimeError → String
  | invalid => "input contains invalid characters"
  | tooShort => "premature end of input"
  | tooLong => "trailing input"
  | outOfRange => "input is out of range"
  | impossible => "no possible date and time matching input"

/-- A point in time: seconds since the epoch and nanoseconds after them. -/
structure Timestamp where
  seconds : Int
  nanos : Nat
  deriving DecidableEq, Repr

namespace Timestamp

def trimStart (cs : List Char) : List Char := cs.dropWhile isWhiteSpace

def digitsValue (ds : List Char) : Nat := ds.foldl (fun n c => 10 * n + (c.toNat - '0'.toNat)) 0

/-- Reads one to `width` digits. -/
def number (cs : List Char) (width : Nat) : Except TimeError (Nat × List Char) :=
  let ds := (cs.takeWhile Char.isDigit).take width
  if ds.isEmpty then .error (if cs.isEmpty then .tooShort else .invalid)
  else .ok (digitsValue ds, cs.drop ds.length)

/-- Reads a number after optional blanks, at most `width` digits. -/
def field (cs : List Char) (width : Nat) : Except TimeError (Nat × List Char) :=
  number (trimStart cs) width

/-- Reads a literal character after optional blanks. -/
def literal (c : Char) (cs : List Char) : Except TimeError (List Char) :=
  match trimStart cs with
  | [] => .error .tooShort
  | d :: rest => if d = c then .ok rest else .error .invalid

/-- Reads the year: up to four digits, or a sign and any number of digits. -/
def year (cs : List Char) : Except TimeError (Int × List Char) :=
  match trimStart cs with
  | '-' :: rest => (number rest rest.length).map fun (v, r) => (-(v : Int), r)
  | '+' :: rest => (number rest rest.length).map fun (v, r) => ((v : Int), r)
  | cs => (number cs 4).map fun (v, r) => ((v : Int), r)

/-- Reads a fraction of a second after its point: nine digits kept, the rest skipped. -/
def fraction (cs : List Char) : Except TimeError (Nat × List Char) := do
  let (v, rest) ← number cs 9
  let used := cs.length - rest.length
  return (v * Nat.pow 10 (9 - used), rest.dropWhile Char.isDigit)

/-- The first two characters, as a reader of bytes sees them: a lone character beyond ASCII
already spans two bytes, neither of them a digit. -/
def twoChars (cs : List Char) : Except TimeError (Char × Char × List Char) :=
  match cs with
  | a :: b :: rest => .ok (a, b, rest)
  | [a] => .error (if a.toNat < 128 then .tooShort else .invalid)
  | [] => .error .tooShort

/-- Reads an offset from UTC, in seconds east. Hours may be up to 99 here; whether the offset
is less than a day is checked once the whole text is read. -/
def offset (cs : List Char) : Except TimeError (Int × List Char) :=
  let upper := (cs.take 3).map Char.toUpper
  if upper = ['U', 'T', 'C'] then .ok (0, cs.drop 3)
  else
    match cs with
    | 'Z' :: rest => .ok (0, rest)
    | 'z' :: rest => .ok (0, rest)
    | c :: rest =>
      let negative? : Option Bool :=
        if c = '+' then some false else if c = '-' || c = '−' then some true else none
      match negative? with
      | none => .error .invalid
      | some negative => do
        let (h1, h2, more) ← twoChars rest
        if !(h1.isDigit && h2.isDigit) then throw .invalid
        let more := more.dropWhile fun c => c = ':' || isWhiteSpace c
        let (m1, m2, after) ← twoChars more
        if !m2.isDigit || !m1.isDigit then throw .invalid
        if '6' ≤ m1 then throw .outOfRange
        let total : Int := digitsValue [h1, h2] * 3600 + digitsValue [m1, m2] * 60
        return (if negative then -total else total, after)
    | [] => .error .tooShort

def isLeapYear (y : Int) : Bool := y % 4 == 0 && (y % 100 != 0 || y % 400 == 0)

def daysInMonth (y : Int) (m : Nat) : Nat :=
  if m = 2 then (if isLeapYear y then 29 else 28)
  else if m = 4 ∨ m = 6 ∨ m = 9 ∨ m = 11 then 30 else 31

/-- Days from 1970-01-01 to a date of the proleptic Gregorian calendar. -/
def daysFromCivil (y : Int) (m d : Nat) : Int :=
  let y := if m ≤ 2 then y - 1 else y
  let era := y.fdiv 400
  let yoe := y - era * 400
  let mp : Int := (m + 9) % 12
  let doy := (153 * mp + 2) / 5 + d - 1
  let doe := yoe * 365 + yoe / 4 - yoe / 100 + doy
  era * 146097 + doe - 719468

/-- The first second of the year -262143, in UTC. -/
def firstSecond : Int := daysFromCivil (-262143) 1 1 * 86400

/-- The last second of the year 262142, in UTC. -/
def lastSecond : Int := daysFromCivil 262143 1 1 * 86400 - 1

/-- Fails with `outOfRange` unless `lo ≤ v ≤ hi`. -/
def within (v lo hi : Int) : Except TimeError Unit :=
  if v < lo ∨ hi < v then .error .outOfRange else .ok ()

/-- Reads a timestamp. Each field is checked against its own range as soon as it is read; the
date against its month and the calendar's range, and the offset against a day, only once the
text is read to its end. A moment that leaves the calendar's range when moved to UTC does not
exist. -/
def parse (s : String) : Except TimeError Timestamp := do
  let cs := s.toList
  let (y, cs) ← year cs
  within y (-2147483648) 2147483647
  let cs ← literal '-' cs
  let (mo, cs) ← field cs 2
  within mo 1 12
  let cs ← literal '-' cs
  let (d, cs) ← field cs 2
  within d 1 31
  let cs ← match cs with
    | c :: rest => if c = 'T' || c = 't' || c = ' ' then pure rest else throw .invalid
    | [] => throw .tooShort
  let (h, cs) ← field cs 2
  within h 0 23
  let cs ← literal ':' cs
  let (mi, cs) ← field cs 2
  within mi 0 59
  let cs ← literal ':' cs
  let (sec, cs) ← field cs 2
  within sec 0 60
  let (nano, cs) ← match cs with
    | '.' :: rest => fraction rest
    | _ => pure (0, cs)
  let (off, cs) ← offset (trimStart cs)
  if !(trimStart cs).isEmpty then throw .tooLong
  within y (-262143) 262142
  within d 1 (daysInMonth y mo)
  within off (-86399) 86399
  let (sec, nano) := if sec = 60 then (59, nano + 1000000000) else (sec, nano)
  let seconds := daysFromCivil y mo d * 86400 + h * 3600 + mi * 60 + sec - off
  if seconds < firstSecond ∨ lastSecond < seconds then throw .impossible
  return { seconds, nanos := nano }

end Timestamp

end Exchange
