import RayScene.Text.Blank
set_option autoImplicit false

namespace RayScene

structure CalendarDate where
  year : Int
  month : Nat
  day : Nat
  deriving DecidableEq, Repr

/-- Second 60 is a leap second. -/
structure Timestamp where
  date : CalendarDate
  hour : Nat
  minute : Nat
  second : Nat
  nanosecond : Nat
  deriving DecidableEq, Repr

namespace CalendarDate

def isLeap (year : Int) : Bool := year % 4 = 0 && (year % 100 != 0 || year % 400 = 0)

def daysIn (year : Int) (month : Nat) : Nat :=
  if month = 2 then (if isLeap year then 29 else 28)
  else if month = 4 ∨ month = 6 ∨ month = 9 ∨ month = 11 then 30
  else 31

def isValid (d : CalendarDate) : Bool :=
  -262143 ≤ d.year && d.year ≤ 262142 && 1 ≤ d.month && d.month ≤ 12 && 1 ≤ d.day &&
    d.day ≤ daysIn d.year d.month

def next (d : CalendarDate) : CalendarDate :=
  if d.day < daysIn d.year d.month then { d with day := d.day + 1 }
  else if d.month < 12 then ⟨d.year, d.month + 1, 1⟩
  else ⟨d.year + 1, 1, 1⟩

def previous (d : CalendarDate) : CalendarDate :=
  if 1 < d.day then { d with day := d.day - 1 }
  else if 1 < d.month then ⟨d.year, d.month - 1, daysIn d.year (d.month - 1)⟩
  else ⟨d.year - 1, 12, 31⟩

end CalendarDate

namespace Timestamp

def padded (width n : Nat) : List Char :=
  let ds := Nat.toDigits 10 n
  List.replicate (width - ds.length) '0' ++ ds

/-- Four digits, and a sign for years that have more or are below zero. -/
def yearText (year : Int) : List Char :=
  if 0 ≤ year ∧ year ≤ 9999 then padded 4 year.toNat
  else (if year < 0 then '-' else '+') :: padded 4 year.natAbs

/-- Thousandths, millionths or billionths, whichever is enough, and nothing for a whole second. -/
def fractionText (nanosecond : Nat) : List Char :=
  if nanosecond = 0 then []
  else if nanosecond % 1000000 = 0 then '.' :: padded 3 (nanosecond / 1000000)
  else if nanosecond % 1000 = 0 then '.' :: padded 6 (nanosecond / 1000)
  else '.' :: padded 9 nanosecond

def textChars (t : Timestamp) : List Char :=
  yearText t.date.year ++ '-' :: padded 2 t.date.month ++ '-' :: padded 2 t.date.day ++
    'T' :: padded 2 t.hour ++ ':' :: padded 2 t.minute ++ ':' :: padded 2 t.second ++
    fractionText t.nanosecond ++ ['Z']

def text (t : Timestamp) : String := String.ofList t.textChars

/-- A number of at least one digit and at most `width`, after blanks. -/
def number? (width : Nat) (text : List Char) : Option (Nat × List Char) :=
  let text := Text.skipBlanks text
  let ds := (text.take width).takeWhile Char.isDigit
  if ds.isEmpty then none
  else some (ds.foldl (fun n c => 10 * n + (c.toNat - '0'.toNat)) 0, text.drop ds.length)

/-- A year with a sign may have any number of digits. -/
def year? (text : List Char) : Option (Int × List Char) :=
  match Text.skipBlanks text with
  | '-' :: rest =>
    match rest with
    | c :: _ => if c.isDigit then (number? rest.length rest).map fun (n, r) => (-(n : Int), r)
      else none
    | [] => none
  | '+' :: rest =>
    match rest with
    | c :: _ => if c.isDigit then (number? rest.length rest).map fun (n, r) => ((n : Int), r)
      else none
    | [] => none
  | rest => (number? 4 rest).map fun (n, r) => ((n : Int), r)

def mark? (c : Char) (text : List Char) : Option (List Char) :=
  match Text.skipBlanks text with
  | d :: rest => if d = c then some rest else none
  | [] => none

/-- Digits beyond the ninth do not count. -/
def fraction? : List Char → Option (Nat × List Char)
  | '.' :: rest =>
    let ds := (rest.take 9).takeWhile Char.isDigit
    if ds.isEmpty then none
    else
      let n := ds.foldl (fun n c => 10 * n + (c.toNat - '0'.toNat)) 0
      some (n * Nat.pow 10 (9 - ds.length), rest.dropWhile Char.isDigit)
  | text => some (0, text)

def twoDigits? : List Char → Option (Nat × List Char)
  | a :: b :: rest =>
    if a.isDigit ∧ b.isDigit then
      some (10 * (a.toNat - '0'.toNat) + (b.toNat - '0'.toNat), rest)
    else none
  | _ => none

def offset? (text : List Char) : Option (Int × List Char) :=
  let text := Text.skipBlanks text
  match text with
  | 'Z' :: rest => some (0, rest)
  | 'z' :: rest => some (0, rest)
  | _ =>
    if (text.take 3).map Char.toUpper = ['U', 'T', 'C'] then some (0, text.drop 3)
    else match text with
      | sign :: rest => do
        let negative ←
          if sign = '+' then some false
          else if sign = '-' ∨ sign = '\u2212' then some true
          else none
        let (hours, rest) ← twoDigits? rest
        let (minutes, rest) ←
          twoDigits? (rest.dropWhile fun c => c = ':' || Text.isBlank c)
        if minutes < 60 ∧ hours < 24 then
          let ahead : Int := hours * 60 + minutes
          some (if negative then -ahead else ahead, rest)
        else none
      | [] => none

def toUniversal (t : Timestamp) (ahead : Int) : Timestamp :=
  let minutes : Int := t.hour * 60 + t.minute - ahead
  let date :=
    if minutes < 0 then t.date.previous else if 1440 ≤ minutes then t.date.next else t.date
  let within := (minutes % 1440).toNat
  { t with date := date, hour := within / 60, minute := within % 60 }

def isValid (t : Timestamp) : Bool :=
  t.date.isValid && t.hour < 24 && t.minute < 60 && t.second ≤ 60 && t.nanosecond < 1000000000

def ofText? (text : String) : Option Timestamp := do
  let (year, rest) ← year? text.toList
  let (month, rest) ← number? 2 (← mark? '-' rest)
  let (day, rest) ← number? 2 (← mark? '-' rest)
  let rest ← match rest with
    | c :: rest => if c = 'T' ∨ c = 't' ∨ c = ' ' then some rest else none
    | [] => none
  let (hour, rest) ← number? 2 rest
  let (minute, rest) ← number? 2 (← mark? ':' rest)
  let (second, rest) ← number? 2 (← mark? ':' rest)
  let (nanosecond, rest) ← fraction? rest
  let (ahead, rest) ← offset? rest
  let t : Timestamp := ⟨⟨year, month, day⟩, hour, minute, second, nanosecond⟩
  if Text.skipBlanks rest = [] ∧ t.isValid ∧ (t.toUniversal ahead).date.isValid then
    some (t.toUniversal ahead)
  else none

end Timestamp

end RayScene
