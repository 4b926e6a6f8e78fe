import Courier.Text.Blank
import Courier.Decimal.Reading

/-!
# Moments

A moment of universal time, to the nanosecond. From a thousand million nanoseconds on it lies in a
leap second behind its second, which is written as the second that follows: second 60 at the end of
a minute. The written form has the fewest fraction digits among none, three, six and nine; the
reader is more lenient and takes any offset of less than a day.
-/

namespace Courier

def isLeapYear (year : Int) : Bool :=
  year % 4 == 0 && (year % 100 != 0 || year % 400 == 0)

def daysInMonth (year : Int) (month : Nat) : Nat :=
  match month with
  | 2 => if isLeapYear year then 29 else 28
  | 4 | 6 | 9 | 11 => 30
  | _ => 31

structure Date where
  year : Int
  month : Nat
  day : Nat
  year_mem : -262143 ≤ year ∧ year ≤ 262142
  month_mem : 1 ≤ month ∧ month ≤ 12
  day_mem : 1 ≤ day ∧ day ≤ daysInMonth year month
deriving DecidableEq

structure Moment where
  date : Date
  hour : Nat
  minute : Nat
  second : Nat
  nano : Nat
  hour_lt : hour < 24
  minute_lt : minute < 60
  second_lt : second < 60
  nano_lt : nano < 2000000000
deriving DecidableEq

namespace Date

def of? (year : Int) (month day : Nat) : Option Date :=
  if h : (-262143 ≤ year ∧ year ≤ 262142) ∧ (1 ≤ month ∧ month ≤ 12) ∧
      (1 ≤ day ∧ day ≤ daysInMonth year month) then
    some ⟨year, month, day, h.1, h.2.1, h.2.2⟩
  else none

def next? (d : Date) : Option Date :=
  (of? d.year d.month (d.day + 1)) <|> (of? d.year (d.month + 1) 1) <|> (of? (d.year + 1) 1 1)

def previous? (d : Date) : Option Date :=
  if d.day ≠ 1 then of? d.year d.month (d.day - 1)
  else if d.month ≠ 1 then of? d.year (d.month - 1) (daysInMonth d.year (d.month - 1))
  else of? (d.year - 1) 12 31

end Date

namespace Moment

def padded (width n : Nat) : List Char :=
  let ds := Nat.toDigits 10 n
  List.replicate (width - ds.length) '0' ++ ds

/-- Years of other than four digits carry a sign. -/
def yearChars (year : Int) : List Char :=
  if 0 ≤ year ∧ year ≤ 9999 then padded 4 year.toNat
  else (if year < 0 then '-' else '+') :: padded 4 year.natAbs

def fractionChars (nano : Nat) : List Char :=
  if nano = 0 then []
  else if nano % 1000000 = 0 then '.' :: padded 3 (nano / 1000000)
  else if nano % 1000 = 0 then '.' :: padded 6 (nano / 1000)
  else '.' :: padded 9 nano

def chars (m : Moment) : List Char :=
  yearChars m.date.year ++ '-' :: padded 2 m.date.month ++ '-' :: padded 2 m.date.day ++
    'T' :: padded 2 m.hour ++ ':' :: padded 2 m.minute ++
    ':' :: padded 2 (m.second + m.nano / 1000000000) ++
    fractionChars (m.nano % 1000000000) ++ ['Z']

def text (m : Moment) : String :=
  String.ofList m.chars

inductive Error where
  | outOfRange
  | invalid
  | tooShort
  | tooLong
  | impossible
deriving Repr, DecidableEq

def Error.message : Error → String
  | .outOfRange => "input is out of range"
  | .invalid => "input contains invalid characters"
  | .tooShort => "premature end of input"
  | .tooLong => "trailing input"
  | .impossible => "no possible date and time matching input"

def number (most : Nat) (cs : List Char) : Except Error (Nat × List Char) :=
  match cs with
  | [] => .error .tooShort
  | c :: _ =>
    if Decimal.isDigit c then
      let ds := (cs.take most).takeWhile Decimal.isDigit
      let n := Decimal.ofDigits ds
      if n < 9223372036854775808 then .ok (n, cs.drop ds.length) else .error .outOfRange
    else .error .invalid

def literal (mark : Char) (cs : List Char) : Except Error (List Char) :=
  match cs with
  | [] => .error .tooShort
  | c :: rest => if c = mark then .ok rest else .error .invalid

def field (low high : Nat) (cs : List Char) : Except Error (Nat × List Char) := do
  let (n, rest) ← number 2 (Text.trimStart cs)
  if low ≤ n ∧ n ≤ high then return (n, rest) else .error .outOfRange

/-- Without a sign a year has at most four digits. Years are first held to 32 bits. -/
def readYear (cs : List Char) : Except Error (Int × List Char) := do
  let (year, rest) ← (match Text.trimStart cs with
    | '-' :: rest => (number rest.length rest).map fun (n, rest) => (-(n : Int), rest)
    | '+' :: rest => (number rest.length rest).map fun (n, rest) => ((n : Int), rest)
    | cs => (number 4 cs).map fun (n, rest) => ((n : Int), rest))
  if -2147483648 ≤ year ∧ year < 2147483648 then return (year, rest) else .error .outOfRange

/-- Digits after the ninth are dropped. -/
def readFraction (cs : List Char) : Except Error (Nat × List Char) :=
  match cs with
  | '.' :: rest => do
    let (n, after) ← number 9 rest
    let width := rest.length - after.length
    return (n * Nat.pow 10 (9 - width), after.dropWhile Decimal.isDigit)
  | cs => .ok (0, cs)

/-- Second 60 is the leap second behind second 59. -/
def placed (second nano : Nat) : Nat × Nat :=
  if second = 60 then (59, 1000000000 + nano) else (second, nano)

def twoDigits (cs : List Char) : Except Error ((Char × Char) × List Char) :=
  match cs with
  | a :: b :: rest => .ok ((a, b), rest)
  | [c] => if c.utf8Size = 1 then .error .tooShort else .error .invalid
  | [] => .error .tooShort

def readHours (cs : List Char) : Except Error (Nat × List Char) := do
  let ((a, b), rest) ← twoDigits cs
  if Decimal.isDigit a && Decimal.isDigit b then return (Decimal.ofDigits [a, b], rest)
  else .error .invalid

def readMinutes (cs : List Char) : Except Error (Nat × List Char) := do
  let (n, rest) ← readHours cs
  if n < 60 then return (n, rest) else .error .outOfRange

def readOffset (cs : List Char) : Except Error (Int × List Char) :=
  match cs with
  | [] => .error .tooShort
  | c :: rest =>
    if c = 'Z' ∨ c = 'z' then .ok (0, rest)
    else if (cs.take 3).map Char.toUpper = ['U', 'T', 'C'] then .ok (0, cs.drop 3)
    else if c = '+' ∨ c = '-' ∨ c = '\u2212' then do
      let (hours, rest) ← readHours rest
      let (minutes, rest) ← readMinutes (rest.dropWhile fun c => c = ':' || Text.isBlank c)
      let total : Int := hours * 60 + minutes
      return (if c = '+' then total else -total, rest)
    else .error .invalid

/-- A local time `offset` minutes east of universal time, as universal time. -/
def shift (m : Moment) (offset : Int) : Except Error Moment :=
  let minutes : Int := m.hour * 60 + m.minute - offset
  let date :=
    if minutes < 0 then m.date.previous?
    else if 1440 ≤ minutes then m.date.next?
    else some m.date
  match date with
  | none => .error .impossible
  | some date =>
    let within := (minutes % 1440).toNat
    .ok ⟨date, within / 60, within % 60, m.second, m.nano, by omega, by omega, m.second_lt,
      m.nano_lt⟩

def parse (s : String) : Except Error Moment := do
  let (year, cs) ← readYear s.toList
  let cs ← literal '-' (Text.trimStart cs)
  let (month, cs) ← field 1 12 cs
  let cs ← literal '-' (Text.trimStart cs)
  let (day, cs) ← field 1 31 cs
  let cs ← match cs with
    | [] => .error .tooShort
    | c :: rest => if c = 't' ∨ c = 'T' ∨ c = ' ' then .ok rest else .error .invalid
  let (hour, cs) ← field 0 23 cs
  let cs ← literal ':' (Text.trimStart cs)
  let (minute, cs) ← field 0 59 cs
  let cs ← literal ':' (Text.trimStart cs)
  let (second, cs) ← field 0 60 cs
  let (nano, cs) ← readFraction cs
  let (second, nano) := placed second nano
  let (offset, cs) ← readOffset (Text.trimStart cs)
  if !(Text.trimStart cs).isEmpty then .error .tooLong
  match Date.of? year month day with
  | none => .error .outOfRange
  | some date =>
    if h : hour < 24 ∧ minute < 60 ∧ second < 60 ∧ nano < 2000000000 then
      if offset.natAbs < 1440 then
        shift ⟨date, hour, minute, second, nano, h.1, h.2.1, h.2.2.1, h.2.2.2⟩ offset
      else .error .outOfRange
    else .error .outOfRange

end Moment

end Courier
