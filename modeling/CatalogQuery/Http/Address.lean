import CatalogQuery.Config.Basic
/-!
# Socket addresses

Whether the address to listen at is one: four numbers for the old protocol, or groups of hexadecimal
digits in brackets for the new one. Names are not looked up.
-/
namespace CatalogQuery.Http

/-- A number below 256 in decimal without zeros in front. -/
def isOctet (s : String) : Bool :=
  let cs := s.toList
  !cs.isEmpty && cs.length ≤ 3 && cs.all Number.isDigit && Number.ofDigits cs < 256 &&
    (cs.length == 1 || cs.head? != some '0')

def isAddress4 (s : String) : Bool :=
  let parts := s.splitOn "."
  parts.length == 4 && parts.all isOctet

def isHexGroup (s : String) : Bool :=
  !s.isEmpty && s.length ≤ 4 && s.toList.all fun c => (Text.hexValue? c).isSome

/-- How many groups of sixteen bits a side of an address has; the last may be four decimal numbers
and then counts twice. -/
def groupCount? (s : String) : Option Nat :=
  if s = "" then some 0
  else
    let parts := s.splitOn ":"
    match parts.getLast? with
    | none => none
    | some last =>
      if !parts.dropLast.all isHexGroup then none
      else if isHexGroup last then some parts.length
      else if isAddress4 last then some (parts.length + 1)
      else none

/-- Eight groups, or fewer with one gap for zeros; four decimal numbers stand at the end only. -/
def isAddress6 (s : String) : Bool :=
  match s.splitOn "::" with
  | [whole] => groupCount? whole == some 8
  | [front, back] =>
    match groupCount? front, groupCount? back with
    | some n, some m => n + m ≤ 7 && !(front.splitOn ".").length > 1
    | _, _ => false
  | _ => false

/-- Whether a server can listen at the address of a configuration. -/
def isSocketHost (host : String) : Bool :=
  isAddress4 host ||
    match host.toList with
    | '[' :: rest =>
      rest.getLast? == some ']' && isAddress6 (String.ofList rest.dropLast)
    | _ => false

end CatalogQuery.Http
