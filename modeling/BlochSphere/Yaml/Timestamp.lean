/-
Points in time as YAML scalars: a date, or a date and a time of day with or without a time zone.
-/

namespace BlochSphere.Yaml.Timestamp

/-- Reads a number of one or two digits. -/
def number? : List Char → Option (Nat × List Char)
  | a :: b :: rest =>
    if !a.isDigit then none
    else if b.isDigit then
      some ((a.toNat - '0'.toNat) * 10 + (b.toNat - '0'.toNat), rest)
    else some (a.toNat - '0'.toNat, b :: rest)
  | [a] => if a.isDigit then some (a.toNat - '0'.toNat, []) else none
  | [] => none

/-- Reads a number of two digits. -/
def twoDigits? : List Char → Option (Nat × List Char)
  | a :: b :: rest => if a.isDigit && b.isDigit then number? (a :: b :: rest) else none
  | _ => none

def expect? (c : Char) : List Char → Option (List Char)
  | d :: rest => if c == d then some rest else none
  | [] => none

/-- Leap years are those divisible by four, but of full centuries only every fourth. -/
def isLeap (year : Nat) : Bool := year % 4 == 0 && (year % 100 != 0 || year % 400 == 0)

def daysIn (year month : Nat) : Nat :=
  if month = 2 then (if isLeap year then 29 else 28)
  else if month = 4 || month = 6 || month = 9 || month = 11 then 30
  else 31

/-- Reads a date: a year of four digits, a month and a day. -/
def date? (cs : List Char) : Option (List Char) := do
  let digits := cs.takeWhile Char.isDigit
  if digits.length ≠ 4 then none
  let year := digits.foldl (fun n c => n * 10 + (c.toNat - '0'.toNat)) 0
  let rest ← expect? '-' (cs.dropWhile Char.isDigit)
  let (month, rest) ← number? rest
  let rest ← expect? '-' rest
  let (day, rest) ← number? rest
  if 1 ≤ month && month ≤ 12 && 1 ≤ day && day ≤ daysIn year month then some rest else none

/-- Drops the fraction of a second, if there is one. -/
def dropFraction : List Char → List Char
  | point :: d :: rest =>
    if (point == '.' || point == ',') && d.isDigit then rest.dropWhile Char.isDigit
    else point :: d :: rest
  | rest => rest

/-- Reads a time of day. -/
def time? (cs : List Char) : Option (List Char) := do
  let (hour, rest) ← number? cs
  let (minute, rest) ← number? (← expect? ':' rest)
  let (second, rest) ← number? (← expect? ':' rest)
  if hour < 24 && minute < 60 && second < 60 then some (dropFraction rest) else none

/-- A time zone: `Z`, or an offset in hours and minutes. -/
def isZone : List Char → Bool
  | ['Z'] => true
  | sign :: rest =>
    let offset := do
      let (hours, rest) ← twoDigits? rest
      let (minutes, rest) ← twoDigits? (← expect? ':' rest)
      if hours ≤ 24 && minutes ≤ 60 then some rest else none
    (sign == '+' || sign == '-') && offset == some []
  | [] => false

/-- Whether a text is a date, a date and a time after blanks, or a date and a time in a time zone
after the letter `T` in either case. -/
def isTimestamp (s : String) : Bool :=
  match date? s.toList with
  | none => false
  | some [] => true
  | some (c :: rest) =>
    if c == 'T' || c == 't' then
      match time? rest with
      | some zone => isZone zone
      | none => false
    else c == ' ' && time? (rest.dropWhile (· == ' ')) == some []

end BlochSphere.Yaml.Timestamp
