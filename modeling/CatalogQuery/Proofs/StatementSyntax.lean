import CatalogQuery.Statement.Basic
import CatalogQuery.Text.Identifier
/-!
# Reading statements

The grammar of the statements that are compiled here, as a reader of their texts. A text is cut into
tokens, the placeholders among the tokens take the values in the order of the list of parameters,
and the tokens are read as a statement. Words of the language are known by their capital letters and
their places; every other word is a name.
-/
namespace CatalogQuery

/-- A part of a text, with a value in place of a placeholder. -/
inductive Token (α : Type)
  /-- A word of the language, a name or a number. -/
  | word (s : String)
  /-- A name in double quotes. -/
  | label (s : String)
  /-- A text in single quotes. -/
  | literal (s : String)
  | mark (c : Char)
  | value (v : α)
  deriving DecidableEq, Repr

/-- What has been read of a token: the characters of a word so far, the last one first, or those
after a quote. -/
inductive Scan
  | word (pending : List Char)
  | quoted (quote : Char) (pending : List Char)
  deriving DecidableEq, Repr

namespace Scan

def flush (pending : List Char) : List (Token Unit) :=
  if pending.isEmpty then [] else [.word (String.ofList pending.reverse)]

def close (quote : Char) (pending : List Char) : Token Unit :=
  if quote = '"' then .label (String.ofList pending.reverse)
  else .literal (String.ofList pending.reverse)

def marks : List Char := ['(', ')', ',', '*', '=', '<', '>']

/-- Reads a character that belongs to no word; nothing if it has no place in a statement. -/
def begin? (c : Char) : Option (List (Token Unit) × Scan) :=
  if c = ' ' then some ([], .word [])
  else if c = '"' ∨ c = '\'' then some ([], .quoted c [])
  else if c = '?' then some ([.value ()], .word [])
  else if c ∈ marks then some ([.mark c], .word [])
  else none

/-- Reads a character, with the tokens that end there. -/
def step : Scan → Char → Option (List (Token Unit) × Scan)
  | .word pending, c =>
    if Text.isIdentifierTail c then some ([], .word (c :: pending))
    else (begin? c).map fun (ts, s) => (flush pending ++ ts, s)
  | .quoted quote pending, c =>
    if c = quote then some ([close quote pending], .word [])
    else some ([], .quoted quote (c :: pending))

def run (s : Scan) : List Char → Option (List (Token Unit) × Scan)
  | [] => some ([], s)
  | c :: cs => do
    let (ts, s) ← s.step c
    let (us, s) ← s.run cs
    some (ts ++ us, s)

end Scan

/-- The tokens of a text; nothing if a quote is not closed. -/
def scan (text : String) : Option (List (Token Unit)) :=
  match Scan.run (.word []) text.toList with
  | some (ts, .word pending) => some (ts ++ Scan.flush pending)
  | _ => none

/-- The tokens with the values in place of the placeholders, from left to right; nothing if there
are more of the one than of the other. -/
def bindValues {α : Type} : List (Token Unit) → List α → Option (List (Token α))
  | [], [] => some []
  | [], _ :: _ => none
  | .value () :: _, [] => none
  | .value () :: ts, v :: vs => (.value v :: ·) <$> bindValues ts vs
  | .word s :: ts, vs => (.word s :: ·) <$> bindValues ts vs
  | .label s :: ts, vs => (.label s :: ·) <$> bindValues ts vs
  | .literal s :: ts, vs => (.literal s :: ·) <$> bindValues ts vs
  | .mark c :: ts, vs => (.mark c :: ·) <$> bindValues ts vs

/-- A reader of the first of some tokens, which leaves the others. -/
abbrev TokenReader (α β : Type) := List (Token α) → Option (β × List (Token α))

section Readers

variable {α β : Type}

def Token.isMark (mark : Char) : Token α → Bool
  | .mark c => c == mark
  | _ => false

def Token.isWord (word : String) : Token α → Bool
  | .word s => s == word
  | _ => false

def afterWords? : List String → List (Token α) → Option (List (Token α))
  | [], ts => some ts
  | word :: words, t :: ts => if t.isWord word then afterWords? words ts else none
  | _ :: _, [] => none

def afterMark? (mark : Char) : List (Token α) → Option (List (Token α))
  | [] => none
  | t :: ts => if t.isMark mark then some ts else none

/-- At most so many elements, with a separator between them; at least one. -/
def readUpTo (read : TokenReader α β) (separates : Token α → Bool) : Nat → TokenReader α (List β)
  | 0, _ => none
  | n + 1, ts => do
    let (x, ts) ← read ts
    match ts with
    | [] => some ([x], [])
    | t :: rest =>
      if separates t then
        let (xs, rest) ← readUpTo read separates n rest
        some (x :: xs, rest)
      else some ([x], t :: rest)

def readList (read : TokenReader α β) (separates : Token α → Bool) : TokenReader α (List β) :=
  fun ts => readUpTo read separates (ts.length + 1) ts

def readEnclosed (read : TokenReader α β) (separates : Token α → Bool) : TokenReader α (List β) :=
  fun ts => do
    let ts ← afterMark? '(' ts
    let (xs, ts) ← readList read separates ts
    let ts ← afterMark? ')' ts
    some (xs, ts)

/-- A clause with its words, or nothing where these do not follow. -/
def readClause (words : List String) (read : TokenReader α β) (separates : Token α → Bool) :
    TokenReader α (List β) := fun ts =>
  match afterWords? words ts with
  | none => some ([], ts)
  | some ts => readList read separates ts

def readName : TokenReader α String
  | .word name :: ts => some (name, ts)
  | _ => none

def readValue : TokenReader α α
  | .value v :: ts => some (v, ts)
  | _ => none

/-- A value behind a word, or nothing where this does not follow. -/
def readWindow (word : String) : TokenReader α (Option α) := fun ts =>
  match afterWords? [word] ts with
  | none => some (none, ts)
  | some ts => (readValue ts).map fun (v, ts) => (some v, ts)

def readTerm : TokenReader α Term
  | .word name :: ts => some (.column name, ts)
  | .label name :: ts => some (.label name, ts)
  | _ => none

def readOutput : TokenReader α Output
  | .word function :: .mark '(' :: .mark '*' :: .mark ')' :: .word "AS" :: .label label :: ts =>
    (AggregateFunction.all.find? (·.keyword == function)).map fun f => (.aggregate f none label, ts)
  | .word function :: .mark '(' :: .word name :: .mark ')' :: .word "AS" :: .label label :: ts =>
    (AggregateFunction.all.find? (·.keyword == function)).map fun f =>
      (.aggregate f (some name) label, ts)
  | .word name :: ts => some (.column name, ts)
  | _ => none

def readComparison : TokenReader α Comparison
  | .mark '=' :: ts => some (.eq, ts)
  | .mark '<' :: .mark '>' :: ts => some (.neq, ts)
  | .mark '<' :: .mark '=' :: ts => some (.lte, ts)
  | .mark '<' :: ts => some (.lt, ts)
  | .mark '>' :: .mark '=' :: ts => some (.gte, ts)
  | .mark '>' :: ts => some (.gt, ts)
  | _ => none

def readCondition : TokenReader α (Condition α)
  | .word column :: .word "IN" :: .mark '(' :: .mark ')' :: ts => some (.isIn column [], ts)
  | .word column :: .word "IN" :: ts =>
    (readEnclosed readValue (Token.isMark ',') ts).map fun (vs, ts) => (.isIn column vs, ts)
  | .word column :: .word "LIKE" :: .value v :: .word "ESCAPE" :: .literal "\\" :: ts =>
    some (.like column v, ts)
  | .word column :: .word "BETWEEN" :: .value low :: .word "AND" :: .value high :: ts =>
    some (.between column low high, ts)
  | .word column :: ts => do
    let (op, ts) ← readComparison ts
    let (v, ts) ← readValue ts
    some (.compare column op v, ts)
  | _ => none

def readTestOf (key : Term) : TokenReader α (KeyTest α)
  | .word "IS" :: .word "NULL" :: ts => some (.isNull key, ts)
  | .word "IS" :: .word "NOT" :: .word "NULL" :: ts => some (.isNotNull key, ts)
  | .mark '=' :: .value v :: ts => some (.equal key v, ts)
  | .mark '>' :: .value v :: ts => some (.above key v, ts)
  | .mark '<' :: .value v :: ts => some (.below key v, ts)
  | _ => none

/-- A test of a key; in parentheses one for a value below or null. -/
def readTest : TokenReader α (KeyTest α)
  | .mark '(' :: ts => do
    let (key, ts) ← readTerm ts
    let (test, ts) ← readTestOf key ts
    let ts ← afterWords? ["OR"] ts
    let (key', ts) ← readTerm ts
    let (test', ts) ← readTestOf key' ts
    let ts ← afterMark? ')' ts
    match test, test' with
    | .below key v, .isNull key' => if key = key' then some (.belowOrNull key v, ts) else none
    | _, _ => none
  | ts => do
    let (key, ts) ← readTerm ts
    readTestOf key ts

/-- The branches of a keyset predicate; none for a predicate that is never true. -/
def readKeyset : TokenReader α (List (List (KeyTest α)))
  | .mark '(' :: .word "0" :: .mark ')' :: ts => some ([], ts)
  | ts => readEnclosed (readEnclosed readTest (Token.isWord "AND")) (Token.isWord "OR") ts

/-- A member of the WHERE clause: what begins with a parenthesis is a keyset predicate. -/
def readMember : TokenReader α (Condition α ⊕ List (List (KeyTest α)))
  | .mark '(' :: ts => (readKeyset (.mark '(' :: ts)).map fun (branches, ts) => (.inr branches, ts)
  | ts => (readCondition ts).map fun (condition, ts) => (.inl condition, ts)

/-- The conditions and the keyset predicate, which may only be the last member. -/
def splitMembers : List (Condition α ⊕ List (List (KeyTest α))) →
    Option (List (Condition α) × Option (List (List (KeyTest α))))
  | [] => some ([], none)
  | [.inr branches] => some ([], some branches)
  | .inl condition :: members =>
    (splitMembers members).map fun (conditions, keyset) => (condition :: conditions, keyset)
  | .inr _ :: _ :: _ => none

def readDirection : TokenReader α Direction
  | .word "ASC" :: ts => some (.asc, ts)
  | .word "DESC" :: ts => some (.desc, ts)
  | _ => none

def readOrder : TokenReader α (Term × Direction) := fun ts => do
  let (key, ts) ← readTerm ts
  let (direction, ts) ← readDirection ts
  some ((key, direction), ts)

/-- A statement, which uses up all tokens. -/
def readStatement (ts : List (Token α)) : Option (Statement α) := do
  let ts ← afterWords? ["SELECT"] ts
  let (output, ts) ← readList readOutput (Token.isMark ',') ts
  let ts ← afterWords? ["FROM"] ts
  let (table, ts) ← readName ts
  let (members, ts) ← readClause ["WHERE"] readMember (Token.isWord "AND") ts
  let (conditions, keyset) ← splitMembers members
  let (groupBy, ts) ← readClause ["GROUP", "BY"] readName (Token.isMark ',') ts
  let (orderBy, ts) ← readClause ["ORDER", "BY"] readOrder (Token.isMark ',') ts
  let (limit, ts) ← readWindow "LIMIT" ts
  let (offset, ts) ← readWindow "OFFSET" ts
  if ts.isEmpty then
    some { output, table, conditions, keyset, groupBy, orderBy, limit, offset }
  else none

/-- The statement of a text and its list of parameters. -/
def Statement.ofText? (text : String) (values : List α) : Option (Statement α) := do
  let tokens ← scan text
  let tokens ← bindValues tokens values
  readStatement tokens

end Readers

end CatalogQuery
