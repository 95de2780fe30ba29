import CatalogQuery.Proofs.StatementReading
import Mathlib
/-!
# Reading conditions as formulas

A formula is read from a text by the rules of the language: AND joins tighter than OR, both join
from the left, and a parenthesis stands for what is in it. Nothing is known here of where a
condition comes from, so a parenthesis that was left out would give another formula.
-/
namespace CatalogQuery

variable {α : Type}

inductive Formula (α : Type)
  | constant (b : Bool)
  | isNull (key : Term)
  | isNotNull (key : Term)
  | compare (key : Term) (op : Comparison) (value : α)
  | isIn (key : Term) (values : List α)
  | like (key : Term) (pattern : α)
  | between (key : Term) (low high : α)
  | and (f g : Formula α)
  | or (f g : Formula α)
  deriving DecidableEq, Repr

namespace Formula

def conjunction : List (Formula α) → Formula α
  | [] => .constant true
  | f :: fs => fs.foldl .and f

def disjunction : List (Formula α) → Formula α
  | [] => .constant false
  | f :: fs => fs.foldl .or f

end Formula

def readChain (join : List (Formula α) → Formula α) (word : String)
    (read : TokenReader α (Formula α)) : TokenReader α (Formula α) := fun ts =>
  (readList read (Token.isWord word) ts).map fun (fs, ts) => (join fs, ts)

/-- What is said of a term. The AND that belongs to BETWEEN is read with it. -/
def readPredicate (key : Term) : TokenReader α (Formula α)
  | .word "IS" :: .word "NULL" :: ts => some (.isNull key, ts)
  | .word "IS" :: .word "NOT" :: .word "NULL" :: ts => some (.isNotNull key, ts)
  | .word "IN" :: .mark '(' :: .mark ')' :: ts => some (.isIn key [], ts)
  | .word "IN" :: ts =>
    (readEnclosed readValue (Token.isMark ',') ts).map fun (vs, ts) => (.isIn key vs, ts)
  | .word "LIKE" :: .value v :: .word "ESCAPE" :: .literal "\\" :: ts => some (.like key v, ts)
  | .word "BETWEEN" :: .value low :: .word "AND" :: .value high :: ts =>
    some (.between key low high, ts)
  | ts => do
    let (op, ts) ← readComparison ts
    let (v, ts) ← readValue ts
    some (.compare key op v, ts)

/-- A formula in parentheses, a number, which is true unless it is zero, or a predicate. -/
def readOperand (inner : TokenReader α (Formula α)) : TokenReader α (Formula α)
  | .mark '(' :: ts => do
    let (f, ts) ← inner ts
    let ts ← afterMark? ')' ts
    some (f, ts)
  | .word s :: ts =>
    if s.toList.all Char.isDigit then some (.constant (s.toList.any (· ≠ '0')), ts)
    else readPredicate (.column s) ts
  | .label s :: ts => readPredicate (.label s) ts
  | _ => none

/-- A formula with parentheses up to the given depth. -/
def readFormula : Nat → TokenReader α (Formula α)
  | 0 => fun _ => none
  | depth + 1 => readChain .disjunction "OR" (readChain .conjunction "AND"
      (readOperand (readFormula depth)))

/-- The formula that the tokens are, which uses up all of them. -/
def Formula.ofTokens? (ts : List (Token α)) : Option (Formula α) :=
  match readFormula (ts.length + 1) ts with
  | some (f, []) => some f
  | _ => none

/-- The formula of a text and its list of values. A word that the store keeps for itself is read as a name
here; how the store takes such a word is said by `Statement.reservedWord?`. -/
def Formula.ofText? (text : String) (values : List α) : Option (Formula α) := do
  let tokens ← scan text
  let tokens ← bindValues tokens values
  Formula.ofTokens? tokens

example : Formula.ofText? "a = ? AND b BETWEEN ? AND ? OR c IS NULL" [1, 2, 3] =
    some (.or (.and (.compare (.column "a") .eq 1) (.between (.column "b") 2 3))
      (.isNull (.column "c"))) := by decide +kernel

/-- The tokens are read as the formula whatever follows. -/
def IsOperand (ts : List (Token α)) (f : Formula α) : Prop :=
  ∀ depth, ts.length ≤ depth → ∀ us, readOperand (readFormula depth) (ts ++ us) = some (f, us)

/-- The tokens are read as the formula where no word joins them with what follows. -/
def IsFormula (ts : List (Token α)) (f : Formula α) : Prop :=
  ∀ depth, ts.length < depth → ∀ us, (∀ t ∈ us.head?, t.isWord "AND" = false) →
    (∀ t ∈ us.head?, t.isWord "OR" = false) → readFormula depth (ts ++ us) = some (f, us)

theorem length_le_joinTokens_of_mem (mark : Token α) {members : List (List (Token α))}
    {member : List (Token α)} (h : member ∈ members) :
    member.length ≤ (joinTokens mark members).length := by
  induction members with
  | nil => cases h
  | cons first members ih =>
    cases members with
    | nil =>
      rw [List.mem_singleton.mp h]
      exact Nat.le_refl _
    | cons next members =>
      simp only [joinTokens, List.length_append, List.length_cons]
      rcases List.mem_cons.mp h with rfl | h
      · omega
      · have hrest := ih h
        omega

theorem isWord_and_or (us : List (Token α)) :
    ∀ t ∈ (Token.word "OR" :: us).head?, t.isWord "AND" = false := by
  rintro t ⟨⟩
  show ("OR" == "AND") = false
  decide

section Chains

variable {γ : Type} {render : γ → List (Token α)} {made : γ → Formula α} {xs : List γ}

/-- Operands with AND between them are read as their conjunction. -/
theorem readConjunction_joinTokens (h : ∀ x ∈ xs, IsOperand (render x) (made x)) (hne : xs ≠ [])
    {depth : Nat} (hdepth : (joinTokens (.word "AND") (xs.map render)).length ≤ depth)
    {us : List (Token α)} (hus : ∀ t ∈ us.head?, t.isWord "AND" = false) :
    readChain .conjunction "AND" (readOperand (readFormula depth))
        (joinTokens (.word "AND") (xs.map render) ++ us) =
      some (.conjunction (xs.map made), us) := by
  have hread : ∀ x ∈ xs, ∀ us, True →
      readOperand (readFormula depth) (render x ++ us) = some (made x, us) := by
    intro x hx us _
    have hlength := length_le_joinTokens_of_mem (.word "AND") (List.mem_map_of_mem (f := render) hx)
    exact h x hx depth (Nat.le_trans hlength hdepth) us
  rw [readChain, readList_map (Token.isWord_word "AND") (fun _ => trivial) hread hne hus trivial]
  rfl

theorem IsFormula.disjunction (h : ∀ x ∈ xs, IsOperand (render x) (made x)) (hne : xs ≠ []) :
    IsFormula (joinTokens (.word "OR") (xs.map render)) (.disjunction (xs.map made)) := by
  rintro (_ | depth) hdepth us hand hor
  · cases hdepth
  have hread : ∀ x ∈ xs, ∀ us : List (Token α), (∀ t ∈ us.head?, t.isWord "AND" = false) →
      readChain .conjunction "AND" (readOperand (readFormula depth)) (render x ++ us) =
        some (made x, us) := by
    intro x hx us hus
    have hlength := length_le_joinTokens_of_mem (.word "OR") (List.mem_map_of_mem (f := render) hx)
    have hsingle : ∀ y ∈ [x], IsOperand (render y) (made y) := by
      simpa using h x hx
    exact readConjunction_joinTokens hsingle (List.cons_ne_nil x []) (by
      show (render x).length ≤ depth
      omega) hus
  rw [readFormula, readChain,
    readList_map (Token.isWord_word "OR") isWord_and_or hread hne hor hand]
  rfl

theorem IsFormula.conjunction (h : ∀ x ∈ xs, IsOperand (render x) (made x)) (hne : xs ≠ []) :
    IsFormula (joinTokens (.word "AND") (xs.map render)) (.conjunction (xs.map made)) := by
  rintro (_ | depth) hdepth us hand hor
  · cases hdepth
  have hread : ∀ x ∈ [()], ∀ us : List (Token α), (∀ t ∈ us.head?, t.isWord "AND" = false) →
      readChain .conjunction "AND" (readOperand (readFormula depth))
          (joinTokens (.word "AND") (xs.map render) ++ us) =
        some (.conjunction (xs.map made), us) :=
    fun _ _ us hus => readConjunction_joinTokens h hne (Nat.lt_succ_iff.mp hdepth) hus
  have hlist :=
    readList_map (Token.isWord_word "OR") isWord_and_or hread (List.cons_ne_nil () []) hor hand
  rw [readFormula, readChain]
  exact (congrArg _ hlist).trans rfl

end Chains

theorem IsOperand.isFormula {ts : List (Token α)} {f : Formula α} (h : IsOperand ts f) :
    IsFormula ts f := by
  have hsingle : ∀ _x ∈ [()], IsOperand ts f := fun _ _ => h
  exact IsFormula.conjunction hsingle (List.cons_ne_nil () [])

theorem IsFormula.enclose {ts : List (Token α)} {f : Formula α} (h : IsFormula ts f) :
    IsOperand (encloseTokens ts) f := by
  intro depth hdepth us
  have hlength : ts.length < depth := by
    simp only [encloseTokens, List.length_cons, List.length_append] at hdepth
    omega
  have hinner := h depth hlength (.mark ')' :: us) (by rintro t ⟨⟩; rfl) (by rintro t ⟨⟩; rfl)
  have htokens : encloseTokens ts ++ us = .mark '(' :: (ts ++ .mark ')' :: us) := by
    simp [encloseTokens]
  rw [htokens]
  simp [readOperand, hinner, afterMark?, Token.isMark]

theorem IsFormula.ofTokens? {ts : List (Token α)} {f : Formula α} (h : IsFormula ts f) :
    Formula.ofTokens? ts = some f := by
  have hread := h (ts.length + 1) (Nat.lt_succ_self _) [] nofun nofun
  rw [List.append_nil] at hread
  rw [Formula.ofTokens?, hread]

/-- A text that has the tokens of a formula is read as the formula, with the values in their
places. -/
theorem IsFormula.ofText? {ts : List (Token α)} {f : Formula α} (h : IsFormula ts f) {text : String}
    (htext : Spells text ts) {values : List α} (hvalues : tokenValues ts = values) :
    Formula.ofText? text values = some f := by
  have hbind : bindValues (ts.map Token.erase) values = some ts := by
    rw [← hvalues]
    exact bindValues_erase ts
  have hscan : scan text = some (ts.map Token.erase) := htext
  simp [Formula.ofText?, hscan, hbind, h.ofTokens?]

def Condition.formula : Condition α → Formula α
  | .compare column op v => .compare (.column column) op v
  | .isIn column vs => .isIn (.column column) vs
  | .like column pattern => .like (.column column) pattern
  | .between column low high => .between (.column column) low high

def KeyTest.formula : KeyTest α → Formula α
  | .isNull key => .isNull key
  | .isNotNull key => .isNotNull key
  | .equal key v => .compare key .eq v
  | .above key v => .compare key .gt v
  | .below key v => .compare key .lt v
  | .belowOrNull key v => .or (.compare key .lt v) (.isNull key)

def branchFormula (branch : List (KeyTest α)) : Formula α :=
  .conjunction (branch.map KeyTest.formula)

def keysetFormula (branches : List (List (KeyTest α))) : Formula α :=
  .disjunction (branches.map branchFormula)

theorem Text.isDigit_of_isIdentifierHead {c : Char} (h : Text.isIdentifierHead c = true) :
    c.isDigit = false := by
  rw [Text.isIdentifierHead, Bool.or_eq_true, beq_iff_eq] at h
  rcases h with h | rfl
  · simp only [Char.isAlpha, Char.isUpper, Char.isLower, Char.isDigit] at h ⊢
    grind
  · decide

/-- A name is no number. -/
theorem Text.all_isDigit_of_isIdentifier {name : String} (h : Text.isIdentifier name = true) :
    name.toList.all Char.isDigit = false := by
  rw [Text.isIdentifier] at h
  cases hlist : name.toList with
  | nil =>
    rw [hlist] at h
    cases h
  | cons c cs =>
    rw [hlist, Bool.and_eq_true] at h
    rw [List.all_cons, Text.isDigit_of_isIdentifierHead h.1, Bool.false_and]

theorem readOperand_term {key : Term} (hkey : Text.isIdentifier key.name = true)
    (inner : TokenReader α (Formula α)) (ts : List (Token α)) :
    readOperand inner (key.tokens ++ ts) = readPredicate key ts := by
  cases key with
  | column name =>
    have hdigits : name.toList.all Char.isDigit = false := Text.all_isDigit_of_isIdentifier hkey
    show (if _ then _ else _) = _
    rw [hdigits]
    rfl
  | label name => rfl

/-- What is said of a term is read whatever follows. -/
theorem IsOperand.of_readPredicate {key : Term} (hkey : Text.isIdentifier key.name = true)
    {ts : List (Token α)} {f : Formula α}
    (hread : ∀ us, readPredicate key (ts ++ us) = some (f, us)) :
    IsOperand (key.tokens ++ ts) f := by
  intro depth _ us
  rw [List.append_assoc, readOperand_term hkey, hread]

theorem readPredicate_isIn (key : Term) (vs : List α) (us : List (Token α)) :
    readPredicate key (.word "IN" :: encloseTokens (joinTokens (.mark ',')
      (vs.map fun v => [.value v])) ++ us) = some (.isIn key vs, us) := by
  cases vs with
  | nil => rfl
  | cons v vs =>
    have hvalues : readEnclosed readValue (Token.isMark ',')
        (encloseTokens (joinTokens (.mark ',') ((v :: vs).map fun v => [.value v])) ++ us) =
          some (v :: vs, us) :=
      readEnclosed_joinTokens rfl rfl rfl (fun x _ us _ => rfl) (List.cons_ne_nil v vs) us
    obtain ⟨rest, hrest⟩ : ∃ rest, encloseTokens (joinTokens (.mark ',')
        ((v :: vs).map fun v => [.value v])) ++ us = .mark '(' :: .value v :: rest := by
      cases vs <;> exact ⟨_, rfl⟩
    rw [List.cons_append]
    rw [hrest] at hvalues ⊢
    simp only [readPredicate, hvalues, Option.map_some]

theorem Condition.isOperand {c : Condition α} (hc : Text.isIdentifier c.column = true) :
    IsOperand c.tokens c.formula := by
  have hkey : Text.isIdentifier (Term.column c.column).name = true := hc
  cases c with
  | compare column op v =>
    refine .of_readPredicate hkey fun us => ?_
    cases op <;> rfl
  | isIn column vs => exact .of_readPredicate hkey (readPredicate_isIn _ vs)
  | like column v => exact .of_readPredicate hkey fun us => rfl
  | between column low high => exact .of_readPredicate hkey fun us => rfl

theorem KeyTest.isOperand {k : KeyTest α} (hk : Text.isIdentifier k.key.name = true) :
    IsOperand k.tokens k.formula := by
  cases k with
  | isNull key => exact .of_readPredicate hk fun us => rfl
  | isNotNull key => exact .of_readPredicate hk fun us => rfl
  | equal key v => exact .of_readPredicate hk fun us => rfl
  | above key v => exact .of_readPredicate hk fun us => rfl
  | below key v => exact .of_readPredicate hk fun us => rfl
  | belowOrNull key v =>
    have hbelow : IsOperand (tokens (.below key v)) (formula (.below key v)) :=
      .of_readPredicate hk fun us => rfl
    have hnull : IsOperand (tokens (.isNull (α := α) key)) (formula (.isNull key)) :=
      .of_readPredicate hk fun us => rfl
    have hboth : ∀ t ∈ [.below key v, .isNull key], IsOperand (tokens t) (formula t) := by
      simpa using ⟨hbelow, hnull⟩
    have htokens : tokens (.belowOrNull key v) = encloseTokens (joinTokens (.word "OR")
        ([.below key v, .isNull key].map tokens)) := by
      simp [tokens, joinTokens]
    rw [htokens]
    exact (IsFormula.disjunction hboth (List.cons_ne_nil _ _)).enclose

theorem isOperand_branchTokens {branch : List (KeyTest α)} (hne : branch ≠ [])
    (h : ∀ k ∈ branch, Text.isIdentifier k.key.name = true) :
    IsOperand (branchTokens branch) (branchFormula branch) :=
  (IsFormula.conjunction (fun k hk => KeyTest.isOperand (h k hk)) hne).enclose

/-- The predicate is read branch by branch; without branches it is the number zero. -/
theorem isOperand_keysetTokens {branches : List (List (KeyTest α))}
    (hne : ∀ branch ∈ branches, branch ≠ [])
    (h : ∀ branch ∈ branches, ∀ k ∈ branch, Text.isIdentifier k.key.name = true) :
    IsOperand (keysetTokens branches) (keysetFormula branches) := by
  cases branches with
  | nil =>
    have hzero : IsOperand [.word (α := α) "0"] (.constant false) := fun _ _ us => rfl
    exact hzero.isFormula.enclose
  | cons branch branches =>
    exact (IsFormula.disjunction (fun b hb => isOperand_branchTokens (hne b hb) (h b hb))
      (List.cons_ne_nil branch branches)).enclose

end CatalogQuery
