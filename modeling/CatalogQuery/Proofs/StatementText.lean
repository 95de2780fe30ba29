import CatalogQuery.Proofs.StatementSyntax
import CatalogQuery.Store.Preparation
/-!
# Texts of statements

The text of a statement with plain names is cut into the tokens of the statement, with placeholders
for its values, and the values stand in the order of their placeholders.
-/
namespace CatalogQuery

variable {α : Type}

def joinTokens (separator : Token α) : List (List (Token α)) → List (Token α)
  | [] => []
  | [ts] => ts
  | ts :: rest => ts ++ separator :: joinTokens separator rest

def Term.tokens : Term → List (Token α)
  | .column name => [.word name]
  | .label name => [.label name]

def Output.tokens : Output → List (Token α)
  | .column name => [.word name]
  | .aggregate f none label =>
    [.word f.keyword, .mark '(', .mark '*', .mark ')', .word "AS", .label label]
  | .aggregate f (some name) label =>
    [.word f.keyword, .mark '(', .word name, .mark ')', .word "AS", .label label]

def encloseTokens (ts : List (Token α)) : List (Token α) := .mark '(' :: (ts ++ [.mark ')'])

def Comparison.tokens (op : Comparison) : List (Token α) := op.sign.toList.map .mark

def Condition.tokens : Condition α → List (Token α)
  | .compare column op v => .word column :: (op.tokens ++ [.value v])
  | .isIn column vs =>
    .word column :: .word "IN" ::
      encloseTokens (joinTokens (.mark ',') (vs.map fun v => [.value v]))
  | .like column v => [.word column, .word "LIKE", .value v, .word "ESCAPE", .literal "\\"]
  | .between column low high =>
    [.word column, .word "BETWEEN", .value low, .word "AND", .value high]

def KeyTest.tokens : KeyTest α → List (Token α)
  | .isNull key => key.tokens ++ [.word "IS", .word "NULL"]
  | .isNotNull key => key.tokens ++ [.word "IS", .word "NOT", .word "NULL"]
  | .equal key v => key.tokens ++ [.mark '=', .value v]
  | .above key v => key.tokens ++ [.mark '>', .value v]
  | .below key v => key.tokens ++ [.mark '<', .value v]
  | .belowOrNull key v =>
    encloseTokens (key.tokens ++ [.mark '<', .value v, .word "OR"] ++ key.tokens ++
      [.word "IS", .word "NULL"])

def branchTokens (branch : List (KeyTest α)) : List (Token α) :=
  encloseTokens (joinTokens (.word "AND") (branch.map KeyTest.tokens))

def keysetTokens : List (List (KeyTest α)) → List (Token α)
  | [] => encloseTokens [.word "0"]
  | branches => encloseTokens (joinTokens (.word "OR") (branches.map branchTokens))

def clauseTokens (words : List String) (separator : Token α) :
    List (List (Token α)) → List (Token α)
  | [] => []
  | members => words.map .word ++ joinTokens separator members

def windowTokens (word : String) : Option α → List (Token α)
  | none => []
  | some v => [.word word, .value v]

def Direction.tokens (d : Direction) : List (Token α) := [.word d.keyword]

namespace Statement

def members (s : Statement α) : List (Condition α ⊕ List (List (KeyTest α))) :=
  s.conditions.map .inl ++ (s.keyset.map .inr).toList

def whereTokens (s : Statement α) : List (List (Token α)) :=
  s.members.map (Sum.elim Condition.tokens keysetTokens)

/-- What stands behind the result columns. -/
def tailTokens (s : Statement α) : List (Token α) :=
  .word "FROM" :: .word s.table ::
    (clauseTokens ["WHERE"] (.word "AND") s.whereTokens ++
      (clauseTokens ["GROUP", "BY"] (.mark ',') (s.groupBy.map fun name => [.word name]) ++
        (clauseTokens ["ORDER", "BY"] (.mark ',')
            (s.orderBy.map fun o => o.1.tokens ++ o.2.tokens) ++
          (windowTokens "LIMIT" s.limit ++ windowTokens "OFFSET" s.offset))))

def tokens (s : Statement α) : List (Token α) :=
  .word "SELECT" :: (joinTokens (.mark ',') (s.output.map Output.tokens) ++ s.tailTokens)

end Statement

def tokenValues : List (Token α) → List α
  | [] => []
  | .value v :: ts => v :: tokenValues ts
  | _ :: ts => tokenValues ts

/-- The token with its value taken away. -/
def Token.erase : Token α → Token Unit
  | .word s => .word s
  | .label s => .label s
  | .literal s => .literal s
  | .mark c => .mark c
  | .value _ => .value ()

/-- The values go back to where they were taken from. -/
theorem bindValues_erase (ts : List (Token α)) :
    bindValues (ts.map Token.erase) (tokenValues ts) = some ts := by
  induction ts with
  | nil => rfl
  | cons t ts ih =>
    cases t with
    | word | label | literal | mark | value =>
      show (_ :: ·) <$> bindValues (ts.map Token.erase) (tokenValues ts) = _
      rw [ih]
      rfl

@[simp] theorem tokenValues_nil : tokenValues ([] : List (Token α)) = [] := rfl

@[simp] theorem tokenValues_value (v : α) (ts : List (Token α)) :
    tokenValues (.value v :: ts) = v :: tokenValues ts := rfl

@[simp] theorem tokenValues_word (s : String) (ts : List (Token α)) :
    tokenValues (.word s :: ts) = tokenValues ts := rfl

@[simp] theorem tokenValues_label (s : String) (ts : List (Token α)) :
    tokenValues (.label s :: ts) = tokenValues ts := rfl

@[simp] theorem tokenValues_literal (s : String) (ts : List (Token α)) :
    tokenValues (.literal s :: ts) = tokenValues ts := rfl

@[simp] theorem tokenValues_mark (c : Char) (ts : List (Token α)) :
    tokenValues (.mark c :: ts) = tokenValues ts := rfl

@[simp] theorem tokenValues_append (ts us : List (Token α)) :
    tokenValues (ts ++ us) = tokenValues ts ++ tokenValues us := by
  induction ts with
  | nil => rfl
  | cons t ts ih => cases t <;> simp [ih]

@[simp] theorem tokenValues_map_word (words : List String) :
    tokenValues (words.map (Token.word (α := α))) = [] := by
  induction words with
  | nil => rfl
  | cons word words ih => exact ih

@[simp] theorem tokenValues_encloseTokens (ts : List (Token α)) :
    tokenValues (encloseTokens ts) = tokenValues ts := by
  simp [encloseTokens]

theorem tokenValues_joinTokens {separator : Token α} (h : tokenValues [separator] = [])
    (members : List (List (Token α))) :
    tokenValues (joinTokens separator members) = members.flatMap tokenValues := by
  induction members with
  | nil => rfl
  | cons ts members ih =>
    cases members with
    | nil => simp [joinTokens]
    | cons next rest =>
      have hsplit : ∀ us : List (Token α), separator :: us = [separator] ++ us := fun us => rfl
      show tokenValues (ts ++ separator :: joinTokens separator (next :: rest)) = _
      rw [hsplit, tokenValues_append, tokenValues_append, h, ih]
      rfl

theorem tokenValues_clauseTokens (words : List String) {separator : Token α}
    (h : tokenValues [separator] = []) (members : List (List (Token α))) :
    tokenValues (clauseTokens words separator members) = members.flatMap tokenValues := by
  cases members with
  | nil => rfl
  | cons ts members =>
    rw [clauseTokens, tokenValues_append, tokenValues_map_word, tokenValues_joinTokens h]
    · rfl
    · intro hnil
      cases hnil

@[simp] theorem Term.tokenValues_tokens (key : Term) : tokenValues (key.tokens (α := α)) = [] := by
  cases key <;> rfl

@[simp] theorem Output.tokenValues_tokens (o : Output) : tokenValues (o.tokens (α := α)) = [] := by
  cases o with
  | column name => rfl
  | aggregate f argument label => cases argument <;> rfl

theorem tokenValues_windowTokens (word : String) (v : Option α) :
    tokenValues (windowTokens word v) = v.toList := by
  cases v <;> rfl

theorem Condition.tokenValues_tokens (c : Condition α) : tokenValues c.tokens = c.values := by
  cases c with
  | like | between => rfl
  | compare column op v => cases op <;> rfl
  | isIn column vs =>
    show tokenValues (encloseTokens _) = vs
    rw [tokenValues_encloseTokens, tokenValues_joinTokens rfl, List.flatMap_map]
    exact List.flatMap_singleton' vs

theorem KeyTest.tokenValues_tokens (k : KeyTest α) : tokenValues k.tokens = k.values := by
  cases k with
  | isNull | isNotNull | equal | above | below | belowOrNull => simp [tokens, values]

theorem tokenValues_branchTokens (branch : List (KeyTest α)) :
    tokenValues (branchTokens branch) = branch.flatMap KeyTest.values := by
  rw [branchTokens, tokenValues_encloseTokens, tokenValues_joinTokens rfl, List.flatMap_map]
  simp only [KeyTest.tokenValues_tokens]

theorem tokenValues_keysetTokens (branches : List (List (KeyTest α))) :
    tokenValues (keysetTokens branches) =
      branches.flatMap fun branch => branch.flatMap KeyTest.values := by
  cases branches with
  | nil => rfl
  | cons branch branches =>
    rw [keysetTokens, tokenValues_encloseTokens, tokenValues_joinTokens rfl, List.flatMap_map]
    · simp only [tokenValues_branchTokens]
    · intro hnil
      cases hnil

def Statement.whereValues (s : Statement α) : List α :=
  s.conditions.flatMap Condition.values ++
    (s.keyset.getD []).flatMap fun branch => branch.flatMap KeyTest.values

theorem Statement.flatMap_whereTokens (s : Statement α) :
    s.whereTokens.flatMap tokenValues = s.whereValues := by
  rw [whereValues, whereTokens, members, List.map_append, List.flatMap_append, List.map_map, List.flatMap_map]
  simp only [Function.comp_apply, Sum.elim_inl, Condition.tokenValues_tokens]
  cases s.keyset with
  | none => rfl
  | some branches => simp [tokenValues_keysetTokens]

/-- The values of a statement are those of its tokens. -/
theorem Statement.tokenValues_tokens (s : Statement α) : tokenValues s.tokens = s.values := by
  have houtput :
      tokenValues (joinTokens (.mark ',') (s.output.map (Output.tokens (α := α)))) = [] := by
    rw [tokenValues_joinTokens rfl]
    simp
  have hgroupBy : tokenValues (clauseTokens ["GROUP", "BY"] (.mark ',')
      (s.groupBy.map fun name => [.word (α := α) name])) = [] := by
    rw [tokenValues_clauseTokens _ rfl]
    simp
  have horderBy : tokenValues (clauseTokens ["ORDER", "BY"] (.mark ',')
      (s.orderBy.map fun o => o.1.tokens (α := α) ++ o.2.tokens)) = [] := by
    rw [tokenValues_clauseTokens _ rfl, List.flatMap_map, List.flatMap_eq_nil_iff]
    intro o ho
    rw [tokenValues_append, Term.tokenValues_tokens]
    rfl
  simp only [tokens, tailTokens, values, tokenValues_append, tokenValues_word, houtput, hgroupBy,
    horderBy, tokenValues_clauseTokens _ (tokenValues_word "AND" ([] : List (Token α))), flatMap_whereTokens,
    whereValues,
    tokenValues_windowTokens, List.nil_append, List.append_assoc]

namespace Scan

@[simp] theorem flush_nil : flush [] = [] := rfl

theorem run_cons {s s' s'' : Scan} {c : Char} {cs : List Char} {ts us : List (Token Unit)}
    (hstep : s.step c = some (ts, s')) (hrun : s'.run cs = some (us, s'')) :
    s.run (c :: cs) = some (ts ++ us, s'') := by
  simp [run, hstep, hrun]

theorem run_append {s s' s'' : Scan} {a b : List Char} {ts us : List (Token Unit)}
    (ha : s.run a = some (ts, s')) (hb : s'.run b = some (us, s'')) :
    s.run (a ++ b) = some (ts ++ us, s'') := by
  induction a generalizing s ts with
  | nil =>
    cases ha
    exact hb
  | cons c a ih =>
    simp only [run, Option.bind_eq_bind, Option.bind_eq_some_iff] at ha
    obtain ⟨⟨ts₁, s₁⟩, hstep, ⟨ts₂, s₂⟩, hrun, hts⟩ := ha
    cases hts
    rw [List.cons_append, List.append_assoc]
    exact run_cons hstep (ih hrun)

/-- A word ends where a character stands that belongs to no word. -/
theorem run_word {c : Char} (hc : Text.isIdentifierTail c = false) {cs : List Char}
    {us : List (Token Unit)} {s : Scan} (h : run (.word []) (c :: cs) = some (us, s))
    (pending : List Char) : run (.word pending) (c :: cs) = some (flush pending ++ us, s) := by
  simp only [run, Option.bind_eq_bind, Option.bind_eq_some_iff] at h
  obtain ⟨⟨ts₁, s₁⟩, hstep, ⟨ts₂, s₂⟩, hrun, hts⟩ := h
  cases hts
  rw [← List.append_assoc]
  refine run_cons ?_ hrun
  simp only [step, hc, Bool.false_eq_true, if_false, Option.map_eq_some_iff] at hstep ⊢
  obtain ⟨r, hr, hts⟩ := hstep
  cases hts
  exact ⟨r, hr, rfl⟩

theorem run_tails {cs : List Char} (hcs : ∀ c ∈ cs, Text.isIdentifierTail c = true)
    (pending : List Char) : run (.word pending) cs = some ([], .word (cs.reverse ++ pending)) := by
  induction cs generalizing pending with
  | nil => rfl
  | cons c cs ih =>
    have hstep : (Scan.word pending).step c = some ([], .word (c :: pending)) := by
      simp [step, hcs c List.mem_cons_self]
    have hrest := ih (fun d hd => hcs d (List.mem_cons_of_mem _ hd)) (c :: pending)
    rw [run_cons hstep hrest]
    simp

theorem run_quoted {quote : Char} {cs : List Char} (hcs : quote ∉ cs) (pending : List Char) :
    run (.quoted quote pending) (cs ++ [quote]) =
      some ([close quote (cs.reverse ++ pending)], .word []) := by
  induction cs generalizing pending with
  | nil =>
    have hstep :
        (Scan.quoted quote pending).step quote = some ([close quote pending], .word []) := by
      simp [step]
    exact run_cons hstep rfl
  | cons c cs ih =>
    have hc : c ≠ quote := fun h => hcs (h ▸ List.mem_cons_self)
    have hstep : (Scan.quoted quote pending).step c = some ([], .quoted quote (c :: pending)) := by
      simp [step, hc]
    have hrest := ih (fun h => hcs (List.mem_cons_of_mem _ h)) (c :: pending)
    rw [List.cons_append, run_cons hstep hrest]
    simp

end Scan

theorem scan_eq_some_iff {text : String} {ts : List (Token Unit)} :
    scan text = some ts ↔
      ∃ us pending, Scan.run (.word []) text.toList = some (us, .word pending) ∧
        us ++ Scan.flush pending = ts := by
  rw [scan]
  split
  next us pending hrun =>
    rw [hrun, Option.some_inj]
    constructor
    · intro hts
      exact ⟨us, pending, rfl, hts⟩
    · rintro ⟨us, pending, hrun, hts⟩
      cases hrun
      exact hts
  next h =>
    simp only [reduceCtorEq, false_iff]
    rintro ⟨us, pending, hrun, -⟩
    exact h us pending hrun

/-- The text has these tokens, with placeholders for the values among them. -/
def Spells (text : String) (ts : List (Token α)) : Prop := scan text = some (ts.map Token.erase)

/-- A word before the text ends where the text begins. -/
def beginsApart (text : String) : Bool := text.toList.head?.all fun c => !Text.isIdentifierTail c

/-- The text is these tokens, and what follows it is apart from them. -/
def EndsApart (text : String) (ts : List (Token Unit)) : Prop :=
  Scan.run (.word []) text.toList = some (ts, .word [])

instance (text : String) (ts : List (Token Unit)) : Decidable (EndsApart text ts) :=
  inferInstanceAs (Decidable (_ = _))

/-- The text is these tokens, apart from what stands before it and from what follows it. -/
def StandsApart (text : String) (ts : List (Token Unit)) : Prop :=
  (text ≠ "" ∧ beginsApart text = true) ∧ EndsApart text ts

instance (text : String) (ts : List (Token Unit)) : Decidable (StandsApart text ts) :=
  inferInstanceAs (Decidable (_ ∧ _))

theorem standsApart_comma : StandsApart ", " [.mark ','] := by decide

theorem standsApart_and : StandsApart " AND " [.word "AND"] := by decide

theorem standsApart_or : StandsApart " OR " [.word "OR"] := by decide

theorem beginsApart_append {s : String} (hne : s ≠ "") (h : beginsApart s = true) (t : String) :
    beginsApart (s ++ t) = true := by
  have hlist : s.toList ≠ [] := fun hnil => hne (String.toList_eq_nil_iff.mp hnil)
  obtain ⟨c, cs, hcs⟩ := List.exists_cons_of_ne_nil hlist
  rw [beginsApart, hcs] at h
  rw [beginsApart, String.toList_append, hcs]
  exact h

namespace Spells

variable {s t : String} {ts us : List (Token α)}

theorem append (hs : Spells s ts) (ht : Spells t us) (h : beginsApart t = true) :
    Spells (s ++ t) (ts ++ us) := by
  obtain ⟨ts', pending, hrun, hts⟩ := scan_eq_some_iff.mp hs
  obtain ⟨us', pending', hrun', hus⟩ := scan_eq_some_iff.mp ht
  rw [Spells, List.map_append, ← hts, ← hus, scan_eq_some_iff, String.toList_append]
  cases hlist : t.toList with
  | nil =>
    rw [hlist] at hrun'
    cases hrun'
    exact ⟨ts', pending, by simpa using hrun, by simp⟩
  | cons c cs =>
    rw [hlist] at hrun'
    have hc : Text.isIdentifierTail c = false := by simpa [beginsApart, hlist] using h
    exact ⟨_, pending', Scan.run_append hrun (Scan.run_word hc hrun' pending), by simp⟩

theorem append_of_endsApart (ts : List (Token α)) (hs : EndsApart s (ts.map Token.erase))
    (ht : Spells t us) : Spells (s ++ t) (ts ++ us) := by
  obtain ⟨us', pending', hrun', hus⟩ := scan_eq_some_iff.mp ht
  rw [Spells, List.map_append, ← hus, scan_eq_some_iff, String.toList_append]
  exact ⟨_, pending', Scan.run_append hs hrun', by simp⟩

/-- Two texts with something between them. -/
theorem between {middle : String} (hs : Spells s ts) (ms : List (Token α))
    (hm : StandsApart middle (ms.map Token.erase)) (ht : Spells t us) :
    Spells (s ++ middle ++ t) (ts ++ (ms ++ us)) := by
  obtain ⟨⟨hne, hbegins⟩, hends⟩ := hm
  rw [String.append_assoc]
  exact hs.append (append_of_endsApart ms hends ht) (beginsApart_append hne hbegins t)

theorem enclose (hs : Spells s ts) : Spells ("(" ++ s ++ ")") (encloseTokens ts) := by
  have hopen : EndsApart "(" [.mark '('] := by decide
  have hclose : Spells ")" [.mark (α := α) ')'] := by
    show scan ")" = some [.mark ')']
    decide
  exact (append_of_endsApart [.mark '('] hopen hs).append hclose (by decide)

theorem of_isIdentifier {name : String} (h : Text.isIdentifier name = true) :
    Spells name [.word (α := α) name] := by
  have hne : name.toList ≠ [] := by
    intro hnil
    simp [Text.isIdentifier, hnil] at h
  have htails := fun c => Text.isIdentifierTail_of_mem h (c := c)
  refine scan_eq_some_iff.mpr ⟨_, _, Scan.run_tails htails [], ?_⟩
  simp [Scan.flush, hne, Token.erase]

/-- A name in quotes. -/
theorem label {name : String} (h : '"' ∉ name.toList) :
    Spells ("\"" ++ name ++ "\"") [.label (α := α) name] := by
  have hopen : (Scan.word []).step '"' = some ([], .quoted '"' []) := by decide
  have hquote : "\"".toList = ['"'] := by decide
  have hrun : EndsApart ("\"" ++ name ++ "\"") [.label name] := by
    rw [EndsApart, String.append_assoc, String.toList_append, String.toList_append, hquote,
      List.singleton_append, Scan.run_cons hopen (Scan.run_quoted h [])]
    simp [Scan.close]
  exact scan_eq_some_iff.mpr ⟨_, [], hrun, rfl⟩

theorem joinWith {β : Type} {separator : String} (mark : Token α)
    (hseparator : StandsApart separator [mark.erase]) {render : β → String}
    {tokens : β → List (Token α)} {xs : List β} (h : ∀ x ∈ xs, Spells (render x) (tokens x)) :
    Spells (joinWith separator (xs.map render)) (joinTokens mark (xs.map tokens)) := by
  induction xs with
  | nil => exact (by decide : scan "" = some [])
  | cons x xs ih =>
    have hx := h x List.mem_cons_self
    cases xs with
    | nil => exact hx
    | cons y ys =>
      have hrest := ih fun z hz => h z (List.mem_cons_of_mem _ hz)
      exact hx.between [mark] hseparator hrest

theorem clauseText {β : Type} {keyword separator : String} (words : List String) (mark : Token α)
    (hkeyword : EndsApart (" " ++ keyword ++ " ") (words.map Token.word))
    (hseparator : StandsApart separator [mark.erase]) {render : β → String}
    {tokens : β → List (Token α)} {xs : List β} (h : ∀ x ∈ xs, Spells (render x) (tokens x)) :
    Spells (clauseText keyword separator (xs.map render))
      (clauseTokens words mark (xs.map tokens)) := by
  cases xs with
  | nil => exact (by decide : scan "" = some [])
  | cons x xs =>
    refine append_of_endsApart _ ?_ (joinWith mark hseparator h)
    rw [List.map_map]
    exact hkeyword

end Spells

def Output.names : Output → List String
  | .column name => [name]
  | .aggregate _ argument label => argument.toList ++ [label]

/-- Every name is a plain identifier, there are result columns, and no branch of the keyset
predicate is empty. -/
structure Statement.IsPlain (s : Statement α) : Prop where
  output_ne_nil : s.output ≠ []
  output : ∀ o ∈ s.output, ∀ name ∈ o.names, Text.isIdentifier name = true
  table : Text.isIdentifier s.table = true
  conditions : ∀ c ∈ s.conditions, Text.isIdentifier c.column = true
  branches_ne_nil : ∀ branch ∈ s.keyset.getD [], branch ≠ []
  keys : ∀ branch ∈ s.keyset.getD [], ∀ k ∈ branch, Text.isIdentifier k.key.name = true
  groupBy : ∀ name ∈ s.groupBy, Text.isIdentifier name = true
  orderBy : ∀ o ∈ s.orderBy, Text.isIdentifier o.1.name = true

theorem Text.quote_not_mem {name : String} (h : Text.isIdentifier name = true) :
    '"' ∉ name.toList := by
  intro hmem
  have := Text.isIdentifierTail_of_mem h hmem
  revert this
  decide

theorem Term.spells {key : Term} (h : Text.isIdentifier key.name = true) :
    Spells key.text (key.tokens (α := α)) := by
  cases key with
  | column name => exact .of_isIdentifier h
  | label name => exact .label (Text.quote_not_mem h)

theorem spells_placeholder (v : α) : Spells placeholder [.value v] :=
  (by decide : scan placeholder = some [.value ()])

theorem Output.spells {o : Output} (h : ∀ name ∈ o.names, Text.isIdentifier name = true) :
    Spells o.text (o.tokens (α := α)) := by
  cases o with
  | column name => exact .of_isIdentifier (h name List.mem_cons_self)
  | aggregate f argument label =>
    have hf : Spells f.keyword [.word (α := α) f.keyword] :=
      .of_isIdentifier (by cases f <;> decide)
    have hlabel : Spells ("\"" ++ label ++ "\"") [.label (α := α) label] :=
      .label (Text.quote_not_mem (h label (by simp [names])))
    have hopen : StandsApart "(" [.mark '('] := by decide
    have has : StandsApart ") AS " [.mark ')', .word "AS"] := by decide
    have htext : Output.text (.aggregate f argument label) =
        f.keyword ++ "(" ++ argument.getD "*" ++ ") AS " ++ ("\"" ++ label ++ "\"") := by
      have hquote : ") AS \"" = ") AS " ++ "\"" := by decide
      simp only [text, hquote, String.append_assoc]
    rw [htext]
    cases argument with
    | none =>
      have hstar : Spells "*" [.mark (α := α) '*'] :=
        (by decide : scan "*" = some [.mark '*'])
      exact (hf.between [.mark '('] hopen hstar).between [.mark ')', .word "AS"] has hlabel
    | some name =>
      have hname : Spells name [.word (α := α) name] := .of_isIdentifier (h name (by simp [names]))
      exact (hf.between [.mark '('] hopen hname).between [.mark ')', .word "AS"] has hlabel

theorem Comparison.spells (op : Comparison) (v : α) :
    Spells (" " ++ op.sign ++ " " ++ placeholder) (op.tokens ++ [.value v]) := by
  cases op with
  | eq => exact (by decide : scan " = ?" = some [.mark '=', .value ()])
  | neq => exact (by decide : scan " <> ?" = some [.mark '<', .mark '>', .value ()])
  | lt => exact (by decide : scan " < ?" = some [.mark '<', .value ()])
  | lte => exact (by decide : scan " <= ?" = some [.mark '<', .mark '=', .value ()])
  | gt => exact (by decide : scan " > ?" = some [.mark '>', .value ()])
  | gte => exact (by decide : scan " >= ?" = some [.mark '>', .mark '=', .value ()])

theorem Condition.spells {c : Condition α} (h : Text.isIdentifier c.column = true) :
    Spells c.text c.tokens := by
  have hcolumn : Spells c.column [.word (α := α) c.column] := .of_isIdentifier h
  cases c with
  | compare column op v =>
    have htext : text (.compare column op v) =
        column ++ (" " ++ op.sign ++ " " ++ placeholder) := by
      simp only [text, String.append_assoc]
    rw [htext]
    refine hcolumn.append (op.spells v) ?_
    cases op <;> decide
  | isIn column vs =>
    have hopen : StandsApart " IN (" [.word "IN", .mark '('] := by decide
    have hclose : Spells ")" [.mark (α := α) ')'] :=
      (by decide : scan ")" = some [.mark ')'])
    have hvalues := Spells.joinWith (.mark ',') standsApart_comma fun v (_ : v ∈ vs) =>
      spells_placeholder v
    exact (hcolumn.between [.word "IN", .mark '('] hopen hvalues).append hclose
      (by decide)
  | like column v =>
    have hescape : Spells " ESCAPE '\\'" [.word (α := α) "ESCAPE", .literal "\\"] :=
      (by decide : scan " ESCAPE '\\'" = some [.word "ESCAPE", .literal "\\"])
    have hlike : StandsApart " LIKE " [.word "LIKE"] := by decide
    exact (hcolumn.between [.word "LIKE"] hlike (spells_placeholder v)).append hescape
      (by decide)
  | between column low high =>
    have hbetween : StandsApart " BETWEEN " [.word "BETWEEN"] := by decide
    have hlow := hcolumn.between [.word "BETWEEN"] hbetween (spells_placeholder low)
    exact hlow.between [.word "AND"] standsApart_and (spells_placeholder high)

theorem KeyTest.spells {k : KeyTest α} (h : Text.isIdentifier k.key.name = true) :
    Spells k.text k.tokens := by
  have hkey : Spells k.key.text (k.key.tokens (α := α)) := Term.spells h
  have hnull : Spells " IS NULL" [.word (α := α) "IS", .word "NULL"] :=
    (by decide : scan " IS NULL" = some [.word "IS", .word "NULL"])
  cases k with
  | isNull key => exact hkey.append hnull (by decide)
  | isNotNull key =>
    have hnotNull : Spells " IS NOT NULL" [.word (α := α) "IS", .word "NOT", .word "NULL"] :=
      (by decide : scan " IS NOT NULL" = some [.word "IS", .word "NOT", .word "NULL"])
    exact hkey.append hnotNull (by decide)
  | equal key v =>
    have hequal : StandsApart " = " [.mark '='] := by decide
    exact hkey.between [.mark '='] hequal (spells_placeholder v)
  | above key v =>
    have habove : StandsApart " > " [.mark '>'] := by decide
    exact hkey.between [.mark '>'] habove (spells_placeholder v)
  | below key v =>
    have hbelow : StandsApart " < " [.mark '<'] := by decide
    exact hkey.between [.mark '<'] hbelow (spells_placeholder v)
  | belowOrNull key v =>
    have hbelow : StandsApart " < " [.mark '<'] := by decide
    have hvalue := hkey.between [.mark '<'] hbelow (spells_placeholder v)
    have hboth := (hvalue.between [.word "OR"] standsApart_or hkey).append hnull (by decide)
    have htext : text (.belowOrNull key v) =
        "(" ++ (key.text ++ " < " ++ placeholder ++ " OR " ++ key.text ++ " IS NULL") ++ ")" := by
      have hclose : " IS NULL)" = " IS NULL" ++ ")" := by decide
      simp only [text, hclose, String.append_assoc]
    rw [htext]
    simpa [tokens, KeyTest.key] using hboth.enclose

theorem spells_branchText {branch : List (KeyTest α)}
    (h : ∀ k ∈ branch, Text.isIdentifier k.key.name = true) :
    Spells (branchText branch) (branchTokens branch) := by
  exact (Spells.joinWith (.word "AND") standsApart_and fun k hk => KeyTest.spells (h k hk)).enclose

theorem spells_keysetText {branches : List (List (KeyTest α))}
    (h : ∀ branch ∈ branches, ∀ k ∈ branch, Text.isIdentifier k.key.name = true) :
    Spells (keysetText branches) (keysetTokens branches) := by
  cases branches with
  | nil => exact (by decide : scan "(0)" = some [.mark '(', .word "0", .mark ')'])
  | cons branch branches =>
    exact (Spells.joinWith (.word "OR") standsApart_or fun b hb => spells_branchText (h b hb)).enclose

theorem beginsApart_clauseText (keyword separator : String) (members : List String) :
    beginsApart (clauseText keyword separator members) = true := by
  cases members with
  | nil =>
    show beginsApart "" = true
    decide
  | cons member members =>
    rw [clauseText, String.append_assoc, String.append_assoc]
    · exact beginsApart_append (by decide) (by decide) _
    · intro hnil
      cases hnil

theorem spells_window (lead word : String) (h : StandsApart lead [.word word]) (v : Option α) :
    Spells (if v.isSome then lead ++ placeholder else "") (windowTokens word v) ∧
      beginsApart (if v.isSome then lead ++ placeholder else "") = true := by
  cases v with
  | none => exact (by decide : scan "" = some [] ∧ beginsApart "" = true)
  | some v =>
    obtain ⟨⟨hne, hbegins⟩, hends⟩ := h
    exact ⟨.append_of_endsApart [.word word] hends (spells_placeholder v),
      beginsApart_append hne hbegins placeholder⟩

namespace Statement

theorem mem_members {s : Statement α} {m : Condition α ⊕ List (List (KeyTest α))} :
    m ∈ s.members ↔
      (∃ c ∈ s.conditions, m = .inl c) ∨ ∃ branches, s.keyset = some branches ∧ m = .inr branches := by
  rw [members, List.mem_append, List.mem_map, Option.mem_toList, Option.map_eq_some_iff]
  simp only [eq_comm]

theorem whereTexts_eq (s : Statement α) :
    s.whereTexts = s.members.map (Sum.elim Condition.text keysetText) := by
  rw [whereTexts, members, List.map_append, List.map_map]
  cases s.keyset <;> rfl

theorem spells_members {s : Statement α}
    (hconditions : ∀ c ∈ s.conditions, Text.isIdentifier c.column = true)
    (hkeys : ∀ branch ∈ s.keyset.getD [], ∀ k ∈ branch, Text.isIdentifier k.key.name = true) :
    ∀ m ∈ s.members, Spells (m.elim Condition.text keysetText)
      (m.elim Condition.tokens keysetTokens) := by
  intro m hm
  rcases mem_members.mp hm with ⟨c, hc, rfl⟩ | ⟨branches, hbranches, rfl⟩
  · exact Condition.spells (hconditions c hc)
  · rw [hbranches] at hkeys
    exact spells_keysetText hkeys

end Statement

namespace Statement.IsPlain

variable {s : Statement α} (hs : s.IsPlain)

include hs

theorem spells_where :
    Spells (CatalogQuery.clauseText "WHERE" " AND " s.whereTexts)
      (clauseTokens ["WHERE"] (.word "AND") s.whereTokens) := by
  rw [whereTexts_eq]
  have hwords : EndsApart (" " ++ "WHERE" ++ " ") [.word "WHERE"] := by decide
  exact Spells.clauseText ["WHERE"] (.word "AND") hwords standsApart_and
    (spells_members hs.conditions hs.keys)

theorem spells_orderBy :
    Spells (CatalogQuery.clauseText "ORDER BY" ", "
        (s.orderBy.map fun o => o.1.text ++ " " ++ o.2.keyword))
      (clauseTokens ["ORDER", "BY"] (.mark ',')
        (s.orderBy.map fun o => o.1.tokens (α := α) ++ o.2.tokens)) := by
  have hwords : EndsApart (" " ++ "ORDER BY" ++ " ") [.word "ORDER", .word "BY"] := by decide
  have hblank : StandsApart " " [] := by decide
  refine Spells.clauseText ["ORDER", "BY"] (.mark ',') hwords standsApart_comma ?_
  intro o ho
  have hdirection : Spells o.2.keyword (o.2.tokens (α := α)) :=
    .of_isIdentifier (by cases o.2 <;> decide)
  exact (Term.spells (hs.orderBy o ho)).between [] hblank hdirection

/-- The text of a statement has its tokens. -/
theorem spells : Spells s.text s.tokens := by
  have houtput : Spells (joinWith ", " (s.output.map Output.text))
      (joinTokens (.mark ',') (s.output.map (Output.tokens (α := α)))) :=
    .joinWith (.mark ',') standsApart_comma fun o ho => Output.spells (hs.output o ho)
  have hselect : EndsApart "SELECT " [.word "SELECT"] := by decide
  have hfrom : StandsApart " FROM " [.word "FROM"] := by decide
  have htable := (Spells.append_of_endsApart [.word "SELECT"] hselect houtput).between
    [.word "FROM"] hfrom (.of_isIdentifier hs.table)
  have hwords : EndsApart (" " ++ "GROUP BY" ++ " ") [.word "GROUP", .word "BY"] := by decide
  have hgroupBy : Spells (CatalogQuery.clauseText "GROUP BY" ", " (s.groupBy.map id))
      (clauseTokens ["GROUP", "BY"] (.mark ',') (s.groupBy.map fun name => [.word (α := α) name])) :=
    .clauseText ["GROUP", "BY"] (.mark ',') hwords standsApart_comma
      fun name hname => .of_isIdentifier (hs.groupBy name hname)
  rw [List.map_id] at hgroupBy
  obtain ⟨hlimit, hlimitApart⟩ :=
    spells_window " LIMIT " "LIMIT" (by decide) s.limit
  obtain ⟨hoffset, hoffsetApart⟩ :=
    spells_window " OFFSET " "OFFSET" (by decide) s.offset
  have hall := ((((htable.append hs.spells_where (beginsApart_clauseText _ _ _)).append hgroupBy
    (beginsApart_clauseText _ _ _)).append hs.spells_orderBy
    (beginsApart_clauseText _ _ _)).append hlimit hlimitApart).append hoffset hoffsetApart
  simpa only [text, baseText, tokens, tailTokens, List.cons_append, List.nil_append,
    List.append_assoc] using hall

end Statement.IsPlain

end CatalogQuery
