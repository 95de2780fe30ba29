import CatalogQuery.Time.Timestamp
import CatalogQuery.Text.Blank
/-!
# Spellings of timestamps

Four spellings are tried in order: an RFC 3339 date and time with its offset, a date and a time of
day separated by blanks or by the letter T, and a date alone, which means midnight. Blanks around
the text do not count.
-/
namespace CatalogQuery.Time

def exactDigits (count : Nat) (cs : List Char) : Option (Nat × List Char) :=
  let ds := cs.take count
  if ds.length = count ∧ ds.all Number.isDigit then some (Number.ofDigits ds, cs.drop count)
  else none

def exactChar (c : Char) : List Char → Option (List Char)
  | d :: rest => if d = c then some rest else none
  | [] => none

/-- A fraction of a second, if there is one: a point and at least one digit. Digits beyond the ninth
are dropped. -/
def fractionNanos : List Char → Option (Nat × List Char)
  | '.' :: rest =>
    let ds := rest.takeWhile Number.isDigit
    if ds.isEmpty then none
    else
      let nine := ds.take 9
      some (Number.ofDigits nine * pow10 (9 - nine.length), rest.dropWhile Number.isDigit)
  | rest => some (0, rest)

/-- An offset from universal time in seconds: the letter Z, or a sign, hours and minutes, in all
less than a day. Both the hyphen and the minus sign count as a minus. -/
def offsetSeconds : List Char → Option (Int × List Char)
  | [] => none
  | c :: rest =>
    if c = 'Z' ∨ c = 'z' then some (0, rest)
    else if c = '+' ∨ c = '-' ∨ c = '\u2212' then do
      let (hours, rest) ← exactDigits 2 rest
      let rest ← exactChar ':' rest
      let (minutes, rest) ← exactDigits 2 rest
      if hours ≤ 23 ∧ minutes ≤ 59 then
        let seconds : Int := ((hours * 60 + minutes) * 60 : Nat)
        some (if c = '+' then seconds else -seconds, rest)
      else none
    else none

/-- A time of day and a date that exist; a minute may have a second 60. -/
def assemble? (d : Date) (hour minute second nanos : Nat) : Option Timestamp :=
  if d.isValid ∧ hour ≤ 23 ∧ minute ≤ 59 ∧ second ≤ 60 then
    some (.ofCivil d hour minute second nanos)
  else none

/-- The spelling of RFC 3339, where every number has its full width. -/
def offsetDateTime? (cs : List Char) : Option Timestamp := do
  let (year, cs) ← exactDigits 4 cs
  let cs ← exactChar '-' cs
  let (month, cs) ← exactDigits 2 cs
  let cs ← exactChar '-' cs
  let (day, cs) ← exactDigits 2 cs
  let cs ← exactChar 'T' cs <|> exactChar 't' cs <|> exactChar ' ' cs
  let (hour, cs) ← exactDigits 2 cs
  let cs ← exactChar ':' cs
  let (minute, cs) ← exactDigits 2 cs
  let cs ← exactChar ':' cs
  let (second, cs) ← exactDigits 2 cs
  let (nanos, cs) ← fractionNanos cs
  let (offset, cs) ← offsetSeconds cs
  if cs.isEmpty then do
    let t ← assemble? ⟨year, month, day⟩ hour minute second nanos
    some { t with seconds := t.seconds - offset }
  else none

/-- A number of one digit up to `width`, after any blanks. -/
def looseNumber (width : Nat) (cs : List Char) : Option (Nat × List Char) :=
  let cs := cs.dropWhile Text.isBlank
  let ds := (cs.take width).takeWhile Number.isDigit
  if ds.isEmpty then none else some (Number.ofDigits ds, cs.drop ds.length)

/-- A year after any blanks: up to four digits, or a sign and any number of digits. -/
def looseYear (cs : List Char) : Option (Int × List Char) :=
  let signed (rest : List Char) : Option (Nat × List Char) :=
    let ds := rest.takeWhile Number.isDigit
    if ds.isEmpty then none else some (Number.ofDigits ds, rest.drop ds.length)
  match cs.dropWhile Text.isBlank with
  | '-' :: rest => (signed rest).map fun p => (-(p.1 : Int), p.2)
  | '+' :: rest => (signed rest).map fun p => ((p.1 : Int), p.2)
  | rest => (looseNumber 4 rest).map fun p => ((p.1 : Int), p.2)

/-- Year, month and day with hyphens between them. -/
def looseDate (cs : List Char) : Option (Date × List Char) := do
  let (year, cs) ← looseYear cs
  let cs ← exactChar '-' cs
  let (month, cs) ← looseNumber 2 cs
  let cs ← exactChar '-' cs
  let (day, cs) ← looseNumber 2 cs
  some (⟨year, month, day⟩, cs)

def looseDateTime? (between : List Char → Option (List Char)) (cs : List Char) :
    Option Timestamp := do
  let (d, cs) ← looseDate cs
  let cs ← between cs
  let (hour, cs) ← looseNumber 2 cs
  let cs ← exactChar ':' cs
  let (minute, cs) ← looseNumber 2 cs
  let cs ← exactChar ':' cs
  let (second, cs) ← looseNumber 2 cs
  if cs.isEmpty then assemble? d hour minute second 0 else none

def dateOnly? (cs : List Char) : Option Timestamp := do
  let (d, cs) ← looseDate cs
  if cs.isEmpty then assemble? d 0 0 0 0 else none

/-- The instant that characters spell, by the first spelling that fits. -/
def Timestamp.ofChars? (cs : List Char) : Option Timestamp :=
  offsetDateTime? cs <|>
    looseDateTime? (fun cs => some (cs.dropWhile Text.isBlank)) cs <|>
    looseDateTime? (exactChar 'T') cs <|>
    dateOnly? cs

/-- The instant a text spells, blanks around it aside. -/
def Timestamp.parse? (s : String) : Option Timestamp :=
  Timestamp.ofChars? (Text.trimList s.toList)

example : Timestamp.ofChars? "2024-05-01T09:30:00.5+09:00".toList =
    some ⟨(Timestamp.ofCivil ⟨2024, 5, 1⟩ 0 30 0 0).seconds, 500000000⟩ := by decide +kernel
example : Timestamp.ofChars? "2024-05-0109:30:00".toList =
    some (.ofCivil ⟨2024, 5, 1⟩ 9 30 0 0) := by decide +kernel
example : Timestamp.ofChars? "2023-02-29".toList = none := by decide +kernel

end CatalogQuery.Time
