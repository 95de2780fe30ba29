import CatalogQuery.Json.Record
import CatalogQuery.Proofs.NumberText
import CatalogQuery.Proofs.QuotedText
/-!
# The texts of values

The text of a value is read as what stands in it: the structure, the quoted texts and the integers of
sixty-four bits as they are, and every floating-point number as its literal. White space between the
parts makes no difference, so this is shown once for every layout, and the compact and the indented
text are two of them.
-/
namespace CatalogQuery

def Number.Literal.tree (l : Literal) : Json.Tree :=
  if l.stopsInside then .stuck else .num l.value?

namespace Json

open Bytes Number

mutual

def printed : Json → Tree
  | .null => .null
  | .bool b => .bool b
  | .int n => (Literal.ofInt n).tree
  | .real x => if x.isFinite then (Literal.ofReal x).tree else .null
  | .str s => .str (some s)
  | .arr items => .arr (printedItems items) true
  | .obj members => .obj (printedMembers members) true

def printedItems : List Json → List Tree
  | [] => []
  | v :: vs => v.printed :: printedItems vs

def printedMembers : List (String × Json) → List (Option String × Tree)
  | [] => []
  | (k, v) :: ms => (some k, v.printed) :: printedMembers ms

end

theorem readTree_digit {c : Char} (h : isDigit c = true) (steps : Nat) (cs : List Char) :
    readTree (steps + 1) (c :: cs) = numberTree false (c :: cs) := by
  have hall : ∀ n < 128, isDigit (Char.ofNat n) = true →
      Char.ofNat n ∈ ['0', '1', '2', '3', '4', '5', '6', '7', '8', '9'] := by decide +kernel
  have hmem := hall c.toNat (ascii_of_isDigit h) (by rwa [Char.ofNat_toNat])
  rw [Char.ofNat_toNat] at hmem
  simp only [List.mem_cons, List.not_mem_nil, or_false] at hmem
  rcases hmem with rfl | rfl | rfl | rfl | rfl | rfl | rfl | rfl | rfl | rfl <;> rfl

theorem numberTree_body {l : Literal} (hl : l.IsSpelled) {rest : List Char}
    (hrest : EndsNumber rest) : numberTree l.negative (l.body ++ rest) = (l.tree, some rest) := by
  rw [numberTree, readNumber_body hl hrest]
  rfl

/-- A number is read as its literal. -/
theorem readTree_literal {l : Literal} (hl : l.IsSpelled) (steps : Nat) {rest : List Char}
    (hrest : EndsNumber rest) :
    readTree (steps + 1) (charsOf l.text ++ rest) = (l.tree, some rest) := by
  have hbody := charsOf_ascii (Literal.ascii_body hl)
  have htree := numberTree_body hl hrest
  rw [Literal.text]
  cases hnegative : l.negative with
  | true =>
    rw [if_pos rfl, charsOf_cons_ascii (by decide), hbody, List.cons_append]
    rw [hnegative] at htree
    exact htree
  | false =>
    rw [if_neg (by decide), hbody]
    rw [hnegative] at htree
    obtain ⟨c, cs, hcs, hc⟩ : ∃ c cs, l.body = c :: cs ∧ isDigit c = true := by
      rcases hl.whole with hzero | ⟨c, cs, hwhole, -, hds⟩
      · exact ⟨'0', _, by rw [Literal.body, hzero, List.singleton_append], by decide⟩
      · exact ⟨c, _, by rw [Literal.body, hwhole, List.cons_append], hds c (by simp [hwhole])⟩
    rw [← htree, hcs, List.cons_append, readTree_digit hc]

/-- The characters are white space of the format. -/
def IsBlank (ws : List Char) : Prop := ∀ c ∈ ws, isSpace c = true

namespace IsBlank

theorem nil : IsBlank [] := List.forall_mem_nil _

variable {ws : List Char} (h : IsBlank ws)

include h

theorem charsOf_append (cs : List Char) : charsOf (ws ++ cs) = ws ++ charsOf cs := by
  have hascii : ∀ c ∈ ws, c.toNat < 128 := by
    intro c hc
    have hspace := h c hc
    simp only [isSpace, Bool.or_eq_true, beq_iff_eq] at hspace
    rcases hspace with ((rfl | rfl) | rfl) | rfl <;> decide
  rw [Bytes.charsOf_append, charsOf_ascii hascii]

theorem skipSpace_append (cs : List Char) : skipSpace (ws ++ cs) = skipSpace cs :=
  List.dropWhile_append_of_pos h

theorem readTree_append (steps : Nat) (cs : List Char) :
    readTree (steps + 1) (ws ++ cs) = readTree (steps + 1) cs := by
  rw [readTree, readTree, h.skipSpace_append]

theorem readItems_append (steps : Nat) (cs : List Char) :
    readItems (steps + 2) (ws ++ cs) = readItems (steps + 2) cs := by
  rw [readItems, readItems, h.readTree_append]

theorem readMembers_append (steps : Nat) (cs : List Char) :
    readMembers (steps + 1) (ws ++ cs) = readMembers (steps + 1) cs := by
  rw [readMembers, readMembers, h.skipSpace_append]

theorem endsNumber_append {rest : List Char} (hrest : EndsNumber rest) : EndsNumber (ws ++ rest) := by
  cases ws with
  | nil => exact hrest
  | cons c ws =>
    rintro _ ⟨⟩
    have hspace := h c List.mem_cons_self
    simp only [isSpace, Bool.or_eq_true, beq_iff_eq] at hspace
    rcases hspace with ((rfl | rfl) | rfl) | rfl <;> decide

end IsBlank

theorem skipSpace_cons {c : Char} (h : isSpace c = false) (cs : List Char) :
    skipSpace (c :: cs) = c :: cs := by
  rw [skipSpace, List.dropWhile_cons_of_neg (by simp [h])]

theorem endsNumber_cons {c : Char} (h : isDigit c = false ∧ c ≠ '.' ∧ c ≠ 'e' ∧ c ≠ 'E')
    (cs : List Char) : EndsNumber (c :: cs) := by
  rintro _ ⟨⟩
  exact h

/-- How the text of a value is set out: the white space before items, members and closing brackets at
each nesting level, and the white space before the value of a member. -/
structure Layout where
  lineBreak : Nat → List Char
  gap : List Char
  isBlank_lineBreak : ∀ level, IsBlank (lineBreak level)
  isBlank_gap : IsBlank gap

mutual

def laidOut (l : Layout) (level : Nat) : Json → List Char
  | .null => compact .null
  | .bool b => compact (.bool b)
  | .int n => compact (.int n)
  | .real x => compact (.real x)
  | .str s => compact (.str s)
  | .arr [] => ['[', ']']
  | .arr (v :: vs) =>
    '[' :: (l.lineBreak (level + 1) ++ (laidOut l (level + 1) v ++ laidOutItems l level vs))
  | .obj [] => ['\x7b', '\x7d']
  | .obj ((k, v) :: ms) =>
    '\x7b' :: (l.lineBreak (level + 1) ++
      (quote k ++ ':' :: (l.gap ++ (laidOut l (level + 1) v ++ laidOutMembers l level ms))))

/-- The items after the first, and the closing bracket. -/
def laidOutItems (l : Layout) (level : Nat) : List Json → List Char
  | [] => l.lineBreak level ++ [']']
  | v :: vs =>
    ',' :: (l.lineBreak (level + 1) ++ (laidOut l (level + 1) v ++ laidOutItems l level vs))

/-- The members after the first, and the closing brace. -/
def laidOutMembers (l : Layout) (level : Nat) : List (String × Json) → List Char
  | [] => l.lineBreak level ++ ['\x7d']
  | (k, v) :: ms =>
    ',' :: (l.lineBreak (level + 1) ++
      (quote k ++ ':' :: (l.gap ++ (laidOut l (level + 1) v ++ laidOutMembers l level ms))))

end

namespace Layout

def tight : Layout where
  lineBreak _ := []
  gap := []
  isBlank_lineBreak _ := .nil
  isBlank_gap := .nil

def lines : Layout where
  lineBreak := newLine
  gap := [' ']
  isBlank_lineBreak level := by
    intro c hc
    rcases List.mem_cons.mp hc with rfl | hc
    · rfl
    · rw [List.eq_of_mem_replicate hc]
      rfl
  isBlank_gap := by
    intro c hc
    rw [List.mem_singleton.mp hc]
    rfl

end Layout

mutual

theorem laidOut_tight (level : Nat) : ∀ j : Json, laidOut .tight level j = compact j
  | .null | .bool _ | .int _ | .real _ | .str _ | .arr [] | .obj [] => by simp only [laidOut, compact]
  | .arr (v :: vs) => by
    rw [laidOut, compact, laidOut_tight (level + 1) v, laidOutItems_tight level vs]
    rfl
  | .obj ((k, v) :: ms) => by
    rw [laidOut, compact, laidOut_tight (level + 1) v, laidOutMembers_tight level ms]
    rfl

theorem laidOutItems_tight (level : Nat) :
    ∀ vs : List Json, laidOutItems .tight level vs = compactItems vs
  | [] => rfl
  | v :: vs => by
    rw [laidOutItems, compactItems, laidOut_tight (level + 1) v, laidOutItems_tight level vs]
    rfl

theorem laidOutMembers_tight (level : Nat) :
    ∀ ms : List (String × Json), laidOutMembers .tight level ms = compactMembers ms
  | [] => rfl
  | (k, v) :: ms => by
    rw [laidOutMembers, compactMembers, laidOut_tight (level + 1) v, laidOutMembers_tight level ms]
    rfl

end

mutual

theorem laidOut_lines (level : Nat) : ∀ j : Json, laidOut .lines level j = indented level j
  | .null | .bool _ | .int _ | .real _ | .str _ | .arr [] | .obj [] => by simp only [laidOut, indented]
  | .arr (v :: vs) => by
    rw [laidOut, indented, laidOut_lines (level + 1) v, laidOutItems_lines level vs]
    simp only [List.append_assoc]
    rfl
  | .obj ((k, v) :: ms) => by
    rw [laidOut, indented, laidOut_lines (level + 1) v, laidOutMembers_lines level ms]
    simp only [List.append_assoc, List.cons_append]
    rfl

theorem laidOutItems_lines (level : Nat) :
    ∀ vs : List Json, laidOutItems .lines level vs = indentedItems level vs
  | [] => rfl
  | v :: vs => by
    rw [laidOutItems, indentedItems, laidOut_lines (level + 1) v, laidOutItems_lines level vs]
    simp only [List.append_assoc]
    rfl

theorem laidOutMembers_lines (level : Nat) :
    ∀ ms : List (String × Json), laidOutMembers .lines level ms = indentedMembers level ms
  | [] => rfl
  | (k, v) :: ms => by
    rw [laidOutMembers, indentedMembers, laidOut_lines (level + 1) v, laidOutMembers_lines level ms]
    simp only [List.append_assoc, List.cons_append]
    rfl

end

/-- The text of a literal begins with a sign or a digit. -/
theorem text_eq_cons {l : Literal} (hl : l.IsSpelled) :
    ∃ c cs, l.text = c :: cs ∧ (c = '-' ∨ isDigit c = true) := by
  rw [Literal.text]
  split
  next => exact ⟨'-', l.body, rfl, .inl rfl⟩
  next =>
    rcases hl.whole with hzero | ⟨c, cs, hwhole, -, hds⟩
    · exact ⟨'0', _, by rw [Literal.body, hzero, List.singleton_append], .inr (by decide)⟩
    · exact ⟨c, _, by rw [Literal.body, hwhole, List.cons_append], .inr (hds c (by simp [hwhole]))⟩

/-- The text of a value begins with a character that opens a value. -/
theorem laidOut_eq_cons (l : Layout) (level : Nat) (j : Json) :
    ∃ c cs, laidOut l level j = c :: cs ∧ c.toNat < 128 ∧ isSpace c = false ∧ c ≠ ']' := by
  have literal {l : Literal} (hl : l.IsSpelled) :
      ∃ c cs, l.text = c :: cs ∧ c.toNat < 128 ∧ isSpace c = false ∧ c ≠ ']' := by
    have hall : ∀ n < 128, isDigit (Char.ofNat n) = true →
        isSpace (Char.ofNat n) = false ∧ Char.ofNat n ≠ ']' := by decide +kernel
    obtain ⟨c, cs, htext, rfl | hc⟩ := text_eq_cons hl
    · exact ⟨_, _, htext, by decide⟩
    · have hascii := ascii_of_isDigit hc
      have hopens := hall c.toNat hascii (by rwa [Char.ofNat_toNat])
      rw [Char.ofNat_toNat] at hopens
      exact ⟨c, cs, htext, hascii, hopens⟩
  cases j with
  | null => exact ⟨_, _, rfl, by decide⟩
  | bool b => cases b <;> exact ⟨_, _, rfl, by decide⟩
  | int n =>
    rw [laidOut, compact, ← Literal.text_ofInt]
    exact literal (Literal.isSpelled_ofInt n)
  | real x =>
    rw [laidOut, compact, ← Literal.text_ofReal]
    split
    next => exact literal (Literal.isSpelled_ofReal x)
    next => exact ⟨_, _, rfl, by decide⟩
  | str s => exact ⟨_, _, rfl, by decide⟩
  | arr items => cases items <;> exact ⟨_, _, rfl, by decide⟩
  | obj members => cases members <;> exact ⟨_, _, rfl, by decide⟩

theorem readTree_quote (steps : Nat) (s : String) (rest : List Char) :
    readTree (steps + 1) (charsOf (quote s) ++ rest) = (.str (some s), some rest) := by
  obtain ⟨ps, hread, htree, -⟩ := readPieces_quote s rest
  have hopen (cs : List Char) : skipSpace ('"' :: cs) = '"' :: cs := rfl
  rw [charsOf_quote, List.cons_append, readTree, hopen]
  simp only [hread, ← htree]

/-- A list that is not empty has its items behind the bracket. -/
theorem readTree_items (steps : Nat) {ws : List Char} (hws : IsBlank ws) {c : Char}
    (hspace : isSpace c = false) (hclose : c ≠ ']') (cs : List Char) :
    readTree (steps + 1) ('[' :: (ws ++ c :: cs)) =
      (.arr (readItems steps (c :: cs)).1 (readItems steps (c :: cs)).2.isSome,
        (readItems steps (c :: cs)).2) := by
  have hopen (cs : List Char) : skipSpace ('[' :: cs) = '[' :: cs := rfl
  rw [readTree, hopen]
  simp only [hws.skipSpace_append, skipSpace_cons hspace]
  split
  next h => exact absurd (List.cons.inj h).1 hclose
  next => rfl

/-- An object that is not empty has its members behind the brace. -/
theorem readTree_members (steps : Nat) {ws : List Char} (hws : IsBlank ws) (cs : List Char) :
    readTree (steps + 1) ('\x7b' :: (ws ++ '"' :: cs)) =
      (.obj (readMembers steps ('"' :: cs)).1 (readMembers steps ('"' :: cs)).2.isSome,
        (readMembers steps ('"' :: cs)).2) := by
  have hopen (cs : List Char) : skipSpace ('\x7b' :: cs) = '\x7b' :: cs := rfl
  have hquote (cs : List Char) : skipSpace ('"' :: cs) = '"' :: cs := rfl
  rw [readTree, hopen]
  simp only [hws.skipSpace_append, hquote]
  rfl

theorem readItems_one {steps : Nat} {cs ws rest : List Char} {t : Tree} (hws : IsBlank ws)
    (h : readTree steps cs = (t, some (ws ++ ']' :: rest))) :
    readItems (steps + 1) cs = ([t], some rest) := by
  have hclose : skipSpace (']' :: rest) = ']' :: rest := rfl
  rw [readItems, h]
  simp only [hws.skipSpace_append, hclose]

theorem readItems_more {steps : Nat} {cs rest after : List Char} {t : Tree} {ts : List Tree}
    (h : readTree steps cs = (t, some (',' :: rest)))
    (hrest : readItems steps rest = (ts, some after)) :
    readItems (steps + 1) cs = (t :: ts, some after) := by
  have hcomma : skipSpace (',' :: rest) = ',' :: rest := rfl
  rw [readItems, h]
  simp only [hcomma, hrest]

theorem readMembers_one {steps : Nat} {k : String} {cs ws rest : List Char} {t : Tree}
    (hws : IsBlank ws) (h : readTree steps cs = (t, some (ws ++ '\x7d' :: rest))) :
    readMembers (steps + 1) (charsOf (quote k) ++ ':' :: cs) = ([(some k, t)], some rest) := by
  obtain ⟨ps, hread, -, hkey⟩ := readPieces_quote k (':' :: cs)
  have hquote (cs : List Char) : skipSpace ('"' :: cs) = '"' :: cs := rfl
  have hcolon : skipSpace (':' :: cs) = ':' :: cs := rfl
  have hbrace : skipSpace ('\x7d' :: rest) = '\x7d' :: rest := rfl
  rw [readMembers, charsOf_quote, List.cons_append, hquote]
  simp only [hread, hkey, hcolon, h, hws.skipSpace_append, hbrace]

theorem readMembers_more {steps : Nat} {k : String} {cs rest after : List Char} {t : Tree}
    {ms : List (Option String × Tree)} (h : readTree steps cs = (t, some (',' :: rest)))
    (hrest : readMembers steps rest = (ms, some after)) :
    readMembers (steps + 1) (charsOf (quote k) ++ ':' :: cs) = ((some k, t) :: ms, some after) := by
  obtain ⟨ps, hread, -, hkey⟩ := readPieces_quote k (':' :: cs)
  have hquote (cs : List Char) : skipSpace ('"' :: cs) = '"' :: cs := rfl
  have hcolon : skipSpace (':' :: cs) = ':' :: cs := rfl
  have hcomma : skipSpace (',' :: rest) = ',' :: rest := rfl
  rw [readMembers, charsOf_quote, List.cons_append, hquote]
  simp only [hread, hkey, hcolon, h, hcomma, hrest]

section Reading

variable (l : Layout)

theorem length_laidOut_pos (level : Nat) (j : Json) : 0 < (charsOf (laidOut l level j)).length := by
  obtain ⟨c, cs, hlaid, hascii, -, -⟩ := laidOut_eq_cons l level j
  rw [hlaid, charsOf_cons_ascii hascii]
  exact Nat.succ_pos _

/-- There are steps for a text that is not empty. -/
theorem steps_eq_succ {level : Nat} {j : Json} {steps : Nat}
    (h : 2 * (charsOf (laidOut l level j)).length ≤ steps) : ∃ n, steps = n + 2 := by
  have hpos := length_laidOut_pos l level j
  exact ⟨steps - 2, by omega⟩

mutual

/-- The text of a value is read as what stands in it, and what follows is left. -/
theorem readTree_laidOut : ∀ (level : Nat) (j : Json) (steps : Nat) (rest : List Char),
    2 * (charsOf (laidOut l level j)).length ≤ steps → EndsNumber rest →
    readTree steps (charsOf (laidOut l level j) ++ rest) = (j.printed, some rest)
  | level, .null, steps, rest, hsteps, _ => by
    obtain ⟨steps, rfl⟩ := steps_eq_succ l hsteps
    rfl
  | level, .bool true, steps, rest, hsteps, _ => by
    obtain ⟨steps, rfl⟩ := steps_eq_succ l hsteps
    rfl
  | level, .bool false, steps, rest, hsteps, _ => by
    obtain ⟨steps, rfl⟩ := steps_eq_succ l hsteps
    rfl
  | level, .int n, steps, rest, hsteps, hrest => by
    obtain ⟨steps, rfl⟩ := steps_eq_succ l hsteps
    rw [laidOut, compact, ← Literal.text_ofInt]
    exact readTree_literal (Literal.isSpelled_ofInt n) _ hrest
  | level, .real x, steps, rest, hsteps, hrest => by
    obtain ⟨steps, rfl⟩ := steps_eq_succ l hsteps
    rw [laidOut, compact, ← Literal.text_ofReal, printed]
    split
    next => exact readTree_literal (Literal.isSpelled_ofReal x) _ hrest
    next => rfl
  | level, .str s, steps, rest, hsteps, _ => by
    obtain ⟨steps, rfl⟩ := steps_eq_succ l hsteps
    exact readTree_quote _ s rest
  | level, .arr [], steps, rest, hsteps, _ => by
    obtain ⟨steps, rfl⟩ := steps_eq_succ l hsteps
    rfl
  | level, .arr (v :: vs), steps, rest, hsteps, _ => by
    obtain ⟨steps, rfl⟩ := steps_eq_succ l hsteps
    have hws := l.isBlank_lineBreak (level + 1)
    obtain ⟨c, cs, hlaid, hascii, hspace, hclose⟩ := laidOut_eq_cons l (level + 1) v
    rw [laidOut, charsOf_cons_ascii (by decide), hws.charsOf_append, List.length_cons,
      List.length_append] at hsteps
    have hitems := readItems_laidOut level v vs (steps + 1) rest (by omega)
    rw [laidOut, charsOf_cons_ascii (by decide), hws.charsOf_append, List.cons_append,
      List.append_assoc]
    rw [hlaid, List.cons_append, charsOf_cons_ascii hascii, List.cons_append] at hitems ⊢
    rw [readTree_items _ hws hspace hclose, hitems]
    rfl
  | level, .obj [], steps, rest, hsteps, _ => by
    obtain ⟨steps, rfl⟩ := steps_eq_succ l hsteps
    rfl
  | level, .obj ((k, v) :: ms), steps, rest, hsteps, _ => by
    obtain ⟨steps, rfl⟩ := steps_eq_succ l hsteps
    have hws := l.isBlank_lineBreak (level + 1)
    rw [laidOut, charsOf_cons_ascii (by decide), hws.charsOf_append, List.length_cons,
      List.length_append] at hsteps
    have hmembers := readMembers_laidOut level k v ms (steps + 1) rest (by omega)
    rw [laidOut, charsOf_cons_ascii (by decide), hws.charsOf_append, List.cons_append,
      List.append_assoc]
    rw [Bytes.charsOf_append, charsOf_quote, List.cons_append, List.cons_append] at hmembers ⊢
    rw [readTree_members _ hws, hmembers]
    rfl
termination_by _ j => sizeOf j

theorem readItems_laidOut : ∀ (level : Nat) (v : Json) (vs : List Json) (steps : Nat)
    (rest : List Char),
    2 * (charsOf (laidOut l (level + 1) v ++ laidOutItems l level vs)).length ≤ steps →
    readItems steps (charsOf (laidOut l (level + 1) v ++ laidOutItems l level vs) ++ rest) =
      (v.printed :: printedItems vs, some rest)
  | level, v, [], steps, rest, hsteps => by
    have hws := l.isBlank_lineBreak level
    have hclose : charsOf (laidOutItems l level []) = l.lineBreak level ++ [']'] :=
      hws.charsOf_append [']']
    rw [Bytes.charsOf_append, hclose, List.length_append, List.length_append,
      List.length_singleton] at hsteps
    rw [Bytes.charsOf_append, hclose, List.append_assoc, List.append_assoc]
    obtain ⟨steps, rfl⟩ : ∃ n, steps = n + 1 := ⟨steps - 1, by omega⟩
    exact readItems_one hws (readTree_laidOut (level + 1) v steps _ (by omega)
      (hws.endsNumber_append (endsNumber_cons (by decide) _)))
  | level, v, v' :: vs, steps, rest, hsteps => by
    have hws := l.isBlank_lineBreak (level + 1)
    have hcomma : charsOf (laidOutItems l level (v' :: vs)) = ',' :: (l.lineBreak (level + 1) ++
        charsOf (laidOut l (level + 1) v' ++ laidOutItems l level vs)) := by
      rw [laidOutItems, charsOf_cons_ascii (by decide), hws.charsOf_append]
    rw [Bytes.charsOf_append, hcomma, List.length_append, List.length_cons,
      List.length_append] at hsteps
    rw [Bytes.charsOf_append, hcomma, List.append_assoc, List.cons_append, List.append_assoc]
    have hpos := length_laidOut_pos l (level + 1) v
    obtain ⟨steps, rfl⟩ : ∃ n, steps = n + 3 := ⟨steps - 3, by omega⟩
    refine readItems_more (readTree_laidOut (level + 1) v _ _ (by omega)
      (endsNumber_cons (by decide) _)) ?_
    rw [hws.readItems_append]
    exact readItems_laidOut level v' vs _ rest (by omega)
termination_by _ v vs => sizeOf v + sizeOf vs

theorem readMembers_laidOut : ∀ (level : Nat) (k : String) (v : Json) (ms : List (String × Json))
    (steps : Nat) (rest : List Char),
    2 * (charsOf (quote k ++
      ':' :: (l.gap ++ (laidOut l (level + 1) v ++ laidOutMembers l level ms)))).length ≤ steps →
    readMembers steps (charsOf (quote k ++
        ':' :: (l.gap ++ (laidOut l (level + 1) v ++ laidOutMembers l level ms))) ++ rest) =
      ((some k, v.printed) :: printedMembers ms, some rest)
  | level, k, v, [], steps, rest, hsteps => by
    have hws := l.isBlank_lineBreak level
    have hclose : charsOf (laidOutMembers l level []) = l.lineBreak level ++ ['\x7d'] :=
      hws.charsOf_append ['\x7d']
    rw [Bytes.charsOf_append, charsOf_cons_ascii (by decide), l.isBlank_gap.charsOf_append,
      Bytes.charsOf_append, hclose] at hsteps ⊢
    simp only [List.length_append, List.length_cons] at hsteps
    simp only [List.append_assoc, List.cons_append]
    obtain ⟨steps, rfl⟩ : ∃ n, steps = n + 2 := ⟨steps - 2, by omega⟩
    refine readMembers_one hws ?_
    rw [l.isBlank_gap.readTree_append]
    exact readTree_laidOut (level + 1) v _ _ (by omega)
      (hws.endsNumber_append (endsNumber_cons (by decide) _))
  | level, k, v, (k', v') :: ms, steps, rest, hsteps => by
    have hws := l.isBlank_lineBreak (level + 1)
    have hcomma : charsOf (laidOutMembers l level ((k', v') :: ms)) =
        ',' :: (l.lineBreak (level + 1) ++ charsOf (quote k' ++
          ':' :: (l.gap ++ (laidOut l (level + 1) v' ++ laidOutMembers l level ms)))) := by
      rw [laidOutMembers, charsOf_cons_ascii (by decide), hws.charsOf_append]
    rw [Bytes.charsOf_append, charsOf_cons_ascii (by decide), l.isBlank_gap.charsOf_append,
      Bytes.charsOf_append, hcomma] at hsteps ⊢
    simp only [List.length_append, List.length_cons] at hsteps
    simp only [List.append_assoc, List.cons_append]
    obtain ⟨steps, rfl⟩ : ∃ n, steps = n + 2 := ⟨steps - 2, by omega⟩
    have hvalue (after : List Char) : readTree (steps + 1)
        (l.gap ++ (charsOf (laidOut l (level + 1) v) ++ ',' :: after)) =
          (v.printed, some (',' :: after)) := by
      rw [l.isBlank_gap.readTree_append]
      exact readTree_laidOut (level + 1) v _ _ (by omega) (endsNumber_cons (by decide) _)
    refine readMembers_more (hvalue _) ?_
    rw [hws.readMembers_append]
    exact readMembers_laidOut level k' v' ms _ rest (by omega)
termination_by _ _ v ms => sizeOf v + sizeOf ms

end

/-- A text holds what stands in its value, and what comes after it is left. -/
theorem Tree.ofText_laidOut (j : Json) {after : List Char} (hafter : IsBlank after) :
    Tree.ofText (String.ofList (laidOut l 0 j ++ after)) = (j.printed, some after) := by
  have hchars : charsOf (laidOut l 0 j ++ after) = charsOf (laidOut l 0 j) ++ after := by
    have hnone := hafter.charsOf_append []
    rw [List.append_nil, charsOf_nil, List.append_nil] at hnone
    rw [Bytes.charsOf_append, hnone]
  have hends : EndsNumber after := by
    have happend := hafter.endsNumber_append EndsNumber.nil
    rwa [List.append_nil] at happend
  have hread := readTree_laidOut l 0 j
    (2 * (charsOf (laidOut l 0 j ++ after)).length + 2) after
    (by rw [hchars, List.length_append]; omega) hends
  rw [← hchars, charsOf, asChars, List.length_map] at hread
  rw [Tree.ofText, Tree.ofBytes, ofString_ofList]
  exact hread

/-- Reading a text is reading what stands in it. -/
theorem readText_laidOut {α : Type} (r : Reader α) (j : Json) {after : List Char}
    (hafter : IsBlank after) :
    readText r (String.ofList (laidOut l 0 j ++ after)) = r depthLimit j.printed := by
  have hskip : skipSpace after = [] := by
    have happend := hafter.skipSpace_append []
    rwa [List.append_nil] at happend
  have htree := Tree.ofText_laidOut l j hafter
  rw [Tree.ofText] at htree
  rw [readText, readBytes, htree]
  cases h : r depthLimit j.printed <;> simp [h, hskip]

end Reading

/-- The compact text of a value holds what stands in it, and no more. -/
theorem Tree.ofBytes_text (j : Json) :
    Tree.ofBytes (Bytes.ofString j.text) = (j.printed, some []) := by
  have hread := Tree.ofText_laidOut .tight j IsBlank.nil
  rwa [List.append_nil, laidOut_tight] at hread

/-- Reading the compact text of a value is reading what stands in it. -/
theorem readBytes_text {α : Type} (r : Reader α) (j : Json) :
    readBytes r (Bytes.ofString j.text) = r depthLimit j.printed := by
  have hread := readText_laidOut .tight r j IsBlank.nil
  rwa [List.append_nil, laidOut_tight] at hread

/-- Reading the indented text of a value is reading what stands in it. -/
theorem readText_prettyText {α : Type} (r : Reader α) (j : Json) :
    readText r j.prettyText = r depthLimit j.printed := by
  have hread := readText_laidOut .lines r j IsBlank.nil
  rwa [List.append_nil, laidOut_lines] at hread

end Json

end CatalogQuery
