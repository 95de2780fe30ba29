import CatalogQuery.Proofs.StatementTemplate
/-!
# The order of placeholders

A text is cut at the parts of its statement in which values are bound: conditions, tests of keys, limit
and offset. These stand in it from left to right with nothing but fixed words and names between them,
and each has as many placeholders as values. So the placeholder at a position stands in the part that
binds the value at this position.
-/
namespace CatalogQuery

/-- A part of a statement in which values are bound. -/
inductive Clause (α : Type)
  | condition (c : Condition α)
  | test (k : KeyTest α)
  | limit (v : α)
  | offset (v : α)
  deriving DecidableEq, Repr

variable {α : Type}

namespace Clause

def text : Clause α → String
  | .condition c => c.text
  | .test k => k.text
  | .limit _ => " LIMIT " ++ placeholder
  | .offset _ => " OFFSET " ++ placeholder

def values : Clause α → List α
  | .condition c => c.values
  | .test k => k.values
  | .limit v | .offset v => [v]

end Clause

def Statement.clauses (s : Statement α) : List (Clause α) :=
  s.conditions.map .condition ++ (s.keyset.getD []).flatMap (fun branch => branch.map .test) ++
    s.limit.toList.map .limit ++ s.offset.toList.map .offset

def Statement.names (s : Statement α) : List String :=
  s.output.flatMap Output.names ++ [s.table] ++ s.conditions.map Condition.column ++
    (s.keyset.getD []).flatMap (fun branch => branch.map fun k => k.key.name) ++ s.groupBy ++
    s.orderBy.map fun o => o.1.name

theorem Statement.values_eq_flatMap_clauses (s : Statement α) :
    s.values = s.clauses.flatMap Clause.values := by
  have hlimit (o : Option α) : (o.toList.map Clause.limit).flatMap Clause.values = o.toList := by
    cases o <;> rfl
  have hoffset (o : Option α) : (o.toList.map Clause.offset).flatMap Clause.values = o.toList := by
    cases o <;> rfl
  rw [values, clauses, List.flatMap_append, List.flatMap_append, List.flatMap_append, hlimit, hoffset,
    List.flatMap_map, List.flatMap_assoc]
  simp only [List.flatMap_map]
  rfl

def Text.placeholders (s : String) : Nat := s.toList.count '?'

namespace Text

@[simp] theorem placeholders_append (s t : String) :
    placeholders (s ++ t) = placeholders s + placeholders t := by
  simp [placeholders]

@[simp] theorem placeholders_placeholder : placeholders placeholder = 1 := by decide

/-- No name has a placeholder in it. -/
theorem placeholders_of_isIdentifier {s : String} (h : isIdentifier s = true) :
    placeholders s = 0 := by
  apply List.count_eq_zero_of_not_mem
  intro hmem
  have htail := isIdentifierTail_of_mem h hmem
  revert htail
  decide

/-- In front of a placeholder there are fewer than in the whole text. -/
theorem exists_placeholder {s : String} {i : Nat} (h : i < placeholders s) :
    ∃ before after, s = before ++ placeholder ++ after ∧ placeholders before = i := by
  have hchars (cs : List Char) (i : Nat) (h : i < cs.count '?') :
      ∃ before after, cs = before ++ '?' :: after ∧ before.count '?' = i := by
    induction cs generalizing i with
    | nil => simp at h
    | cons c cs ih =>
      by_cases hc : c = '?'
      · subst hc
        cases i with
        | zero => exact ⟨[], cs, rfl, rfl⟩
        | succ i =>
          rw [List.count_cons_self] at h
          obtain ⟨before, after, hcs, hcount⟩ := ih i (by omega)
          exact ⟨'?' :: before, after, by rw [hcs]; rfl, by rw [List.count_cons_self, hcount]⟩
      · rw [List.count_cons_of_ne hc] at h
        obtain ⟨before, after, hcs, hcount⟩ := ih i h
        exact ⟨c :: before, after, by rw [hcs]; rfl, by rw [List.count_cons_of_ne hc, hcount]⟩
  obtain ⟨before, after, hs, hcount⟩ := hchars s.toList i h
  refine ⟨String.ofList before, String.ofList after, ?_, ?_⟩
  · rw [← String.toList_inj, hs]
    simp [placeholder]
  · simpa [placeholders] using hcount

end Text

theorem Term.placeholders_text {key : Term} (h : Text.isIdentifier key.name = true) :
    Text.placeholders key.text = 0 := by
  have hname := Text.placeholders_of_isIdentifier h
  cases key with
  | column => exact hname
  | label => simpa +decide [text, name] using hname

theorem Output.placeholders_text {o : Output}
    (h : ∀ name ∈ o.names, Text.isIdentifier name = true) : Text.placeholders o.text = 0 := by
  cases o with
  | column name => exact Text.placeholders_of_isIdentifier (h name List.mem_cons_self)
  | aggregate f argument label =>
    have hlabel := Text.placeholders_of_isIdentifier (h label (by simp [names]))
    have hargument : Text.placeholders (argument.getD "*") = 0 := by
      cases argument with
      | none => decide
      | some name => exact Text.placeholders_of_isIdentifier (h name List.mem_cons_self)
    have hkeyword : Text.placeholders f.keyword = 0 := by cases f <;> decide
    simp +decide [text, hlabel, hargument, hkeyword]

theorem placeholders_joinWith_const (vs : List α) :
    Text.placeholders (joinWith ", " (vs.map fun _ => placeholder)) = vs.length := by
  have hseparator : Text.placeholders ", " = 0 := by decide
  induction vs with
  | nil => rfl
  | cons v vs ih =>
    cases vs with
    | nil => exact Text.placeholders_placeholder
    | cons w vs =>
      have hsplit : joinWith ", " ((v :: w :: vs).map fun _ => placeholder) =
          placeholder ++ ", " ++ joinWith ", " ((w :: vs).map fun _ => placeholder) := rfl
      rw [hsplit, Text.placeholders_append, Text.placeholders_append, ih, hseparator,
        Text.placeholders_placeholder, Nat.add_zero, Nat.add_comm]
      rfl

theorem Condition.placeholders_text {c : Condition α} (h : Text.isIdentifier c.column = true) :
    Text.placeholders c.text = c.values.length := by
  have hcolumn := Text.placeholders_of_isIdentifier h
  cases c with
  | compare column op v =>
    have hname : Text.placeholders column = 0 := hcolumn
    simp only [text, Text.placeholders_append, hname]
    show _ = 1
    cases op <;> decide
  | isIn column vs =>
    have hname : Text.placeholders column = 0 := hcolumn
    have hopen : Text.placeholders " IN (" = 0 := by decide
    have hclose : Text.placeholders ")" = 0 := by decide
    simp only [text, values, Text.placeholders_append, placeholders_joinWith_const, hname, hopen,
      hclose, Nat.zero_add, Nat.add_zero]
  | like column v =>
    have hname : Text.placeholders column = 0 := hcolumn
    simp only [text, Text.placeholders_append, hname]
    show _ = 1
    decide
  | between column low high =>
    have hname : Text.placeholders column = 0 := hcolumn
    simp only [text, Text.placeholders_append, hname]
    show _ = 2
    decide

theorem KeyTest.placeholders_text {k : KeyTest α} (h : Text.isIdentifier k.key.name = true) :
    Text.placeholders k.text = k.values.length := by
  have hkey := Term.placeholders_text h
  cases k with
  | isNull key | isNotNull key =>
    have hname : Text.placeholders key.text = 0 := hkey
    simp only [text, Text.placeholders_append, hname]
    show _ = 0
    decide
  | equal key v | above key v | below key v | belowOrNull key v =>
    have hname : Text.placeholders key.text = 0 := hkey
    simp only [text, Text.placeholders_append, hname]
    show _ = 1
    decide

/-- The clauses stand in the text in this order, and each has as many placeholders as values; no
placeholder stands outside of them. -/
inductive Clause.Spans : List (Clause α) → String → Prop
  | nil {gap : String} (h : Text.placeholders gap = 0) : Spans [] gap
  | cons {gap rest : String} {c : Clause α} {cs : List (Clause α)}
      (h : Text.placeholders gap = 0) (hc : Text.placeholders c.text = c.values.length)
      (hrest : Spans cs rest) : Spans (c :: cs) (gap ++ c.text ++ rest)

namespace Clause.Spans

theorem of_clause {c : Clause α} (h : Text.placeholders c.text = c.values.length) :
    Spans [c] c.text := by
  have hspans : Spans [c] ("" ++ c.text ++ "") := .cons rfl h (.nil rfl)
  simpa using hspans

theorem prepend {gap text : String} {cs : List (Clause α)} (hgap : Text.placeholders gap = 0)
    (h : Spans cs text) : Spans cs (gap ++ text) := by
  cases h with
  | nil h => exact .nil (by rw [Text.placeholders_append, hgap, h])
  | cons h hc hrest =>
    rw [← String.append_assoc, ← String.append_assoc]
    exact .cons (by rw [Text.placeholders_append, hgap, h]) hc hrest

theorem append {s t : String} {cs ds : List (Clause α)} (hs : Spans cs s) (ht : Spans ds t) :
    Spans (cs ++ ds) (s ++ t) := by
  induction hs with
  | nil h => exact ht.prepend h
  | cons h hc hrest ih =>
    rw [String.append_assoc]
    exact .cons h hc ih

theorem close {gap text : String} {cs : List (Clause α)} (h : Spans cs text)
    (hgap : Text.placeholders gap = 0) : Spans cs (text ++ gap) := by
  have hspans := h.append (.nil hgap)
  rwa [List.append_nil] at hspans

theorem joinWith {β : Type} {separator : String} (hseparator : Text.placeholders separator = 0)
    {text : β → String} {clauses : β → List (Clause α)} {members : List β}
    (h : ∀ x ∈ members, Spans (clauses x) (text x)) :
    Spans (members.flatMap clauses) (CatalogQuery.joinWith separator (members.map text)) := by
  induction members with
  | nil => exact .nil rfl
  | cons x members ih =>
    rw [List.forall_mem_cons] at h
    cases members with
    | nil =>
      rw [List.flatMap_singleton]
      exact h.1
    | cons y members => exact (h.1.close hseparator).append (ih h.2)

/-- Without clauses there are no placeholders. -/
theorem joinWith_nil {separator : String} (hseparator : Text.placeholders separator = 0)
    {members : List String} (h : ∀ s ∈ members, Text.placeholders s = 0) :
    Spans ([] : List (Clause α)) (CatalogQuery.joinWith separator members) := by
  have hspans : Spans (members.flatMap fun _ => ([] : List (Clause α)))
      (CatalogQuery.joinWith separator (members.map id)) :=
    joinWith hseparator fun s hs => .nil (h s hs)
  rwa [List.map_id, List.flatMap_eq_nil_iff.mpr fun _ _ => rfl] at hspans

theorem clauseText {keyword separator : String} (hkeyword : Text.placeholders keyword = 0)
    {members : List String} {cs : List (Clause α)}
    (h : Spans cs (CatalogQuery.joinWith separator members)) :
    Spans cs (CatalogQuery.clauseText keyword separator members) := by
  cases members with
  | nil => exact h
  | cons s members =>
    refine h.prepend ?_
    simp +decide [hkeyword]

variable {cs : List (Clause α)} {text : String} (h : Spans cs text)

include h

/-- There are as many placeholders as values. -/
theorem placeholders_eq : Text.placeholders text = (cs.flatMap Clause.values).length := by
  induction h with
  | nil h => exact h
  | cons h hc hrest ih =>
    rw [Text.placeholders_append, Text.placeholders_append, h, hc, ih, List.flatMap_cons,
      List.length_append, Nat.zero_add]

/-- The placeholder at a position stands in the clause that binds the value at this position, behind as
many others of the clause as values of it stand before the value. -/
theorem placeholder_at {i : Nat} {v : α} (hv : (cs.flatMap Clause.values)[i]? = some v) :
    ∃ (earlier later : List (Clause α)) (c : Clause α) (before front back after : String),
      cs = earlier ++ c :: later ∧ text = before ++ c.text ++ after ∧
      c.text = front ++ placeholder ++ back ∧
      Text.placeholders before = (earlier.flatMap Clause.values).length ∧
      Text.placeholders before + Text.placeholders front = i ∧
      c.values[Text.placeholders front]? = some v := by
  induction h generalizing i with
  | nil h => cases hv
  | @cons gap rest c cs h hc hrest ih =>
    rw [List.flatMap_cons] at hv
    by_cases hi : i < c.values.length
    · rw [List.getElem?_append_left hi] at hv
      obtain ⟨front, back, htext, hfront⟩ := Text.exists_placeholder (s := c.text) (hc ▸ hi)
      refine ⟨[], cs, c, gap, front, back, rest, rfl, rfl, htext, h, ?_, ?_⟩
      · rw [h, hfront, Nat.zero_add]
      · rw [hfront, hv]
    · rw [List.getElem?_append_right (Nat.not_lt.mp hi)] at hv
      obtain ⟨earlier, later, d, before, front, back, after, hcs, hrest', hd, hbefore, hpos, hat⟩ :=
        ih hv
      refine ⟨c :: earlier, later, d, gap ++ c.text ++ before, front, back, after, ?_, ?_, hd, ?_, ?_,
        hat⟩
      · rw [hcs]
        rfl
      · rw [hrest']
        simp only [String.append_assoc]
      · rw [Text.placeholders_append, Text.placeholders_append, h, hc, hbefore, List.flatMap_cons,
          List.length_append, Nat.zero_add]
      · rw [Text.placeholders_append, Text.placeholders_append, h, hc]
        omega

end Clause.Spans

namespace Statement.IsPlain

variable {s : Statement α} (hs : s.IsPlain)

include hs

theorem isIdentifier_of_mem_names {name : String} (h : name ∈ s.names) :
    Text.isIdentifier name = true := by
  simp only [names, List.mem_append, List.mem_singleton] at h
  rcases h with ((((h | rfl) | h) | h) | h) | h
  · obtain ⟨o, ho, hname⟩ := List.mem_flatMap.mp h
    exact hs.output o ho name hname
  · exact hs.table
  · obtain ⟨c, hc, rfl⟩ := List.mem_map.mp h
    exact hs.conditions c hc
  · obtain ⟨branch, hbranch, hname⟩ := List.mem_flatMap.mp h
    obtain ⟨k, hk, rfl⟩ := List.mem_map.mp hname
    exact hs.keys branch hbranch k hk
  · exact hs.groupBy name h
  · obtain ⟨o, ho, rfl⟩ := List.mem_map.mp h
    exact hs.orderBy o ho

theorem spans_output :
    Clause.Spans ([] : List (Clause α)) (joinWith ", " (s.output.map Output.text)) := by
  refine Clause.Spans.joinWith_nil (by decide) ?_
  rw [List.forall_mem_map]
  exact fun o ho => Output.placeholders_text (hs.output o ho)

theorem spans_branch {branch : List (KeyTest α)} (hbranch : branch ∈ s.keyset.getD []) :
    Clause.Spans (branch.map .test) (branchText branch) := by
  have htests : Clause.Spans (branch.flatMap fun k => [.test k])
      (joinWith " AND " (branch.map KeyTest.text)) := by
    refine Clause.Spans.joinWith (by decide) fun k hk => ?_
    exact Clause.Spans.of_clause (c := .test k) (KeyTest.placeholders_text (hs.keys branch hbranch k hk))
  rw [← List.map_eq_flatMap] at htests
  have hopen : Text.placeholders "(" = 0 := by decide
  exact (htests.prepend hopen).close (by decide)

theorem spans_keyset {branches : List (List (KeyTest α))} (hkeyset : s.keyset = some branches) :
    Clause.Spans (branches.flatMap fun branch => branch.map .test) (keysetText branches) := by
  have hbranches : ∀ branch ∈ branches, Clause.Spans (branch.map .test) (branchText branch) := by
    intro branch hbranch
    exact hs.spans_branch (by rw [hkeyset]; exact hbranch)
  cases branches with
  | nil => exact .nil (by decide : Text.placeholders "(0)" = 0)
  | cons branch branches =>
    have hopen : Text.placeholders "(" = 0 := by decide
    have hor : Text.placeholders " OR " = 0 := by decide
    exact ((Clause.Spans.joinWith hor hbranches).prepend hopen).close (by decide)

theorem spans_where :
    Clause.Spans
      (s.conditions.map .condition ++
        (s.keyset.getD []).flatMap fun branch => branch.map .test)
      (joinWith " AND " s.whereTexts) := by
  -- the members of the clause, each with the clauses in it
  let members : List (List (Clause α) × String) :=
    s.conditions.map (fun c => ([.condition c], c.text)) ++
      s.keyset.toList.map fun branches =>
        (branches.flatMap fun branch => branch.map .test, keysetText branches)
  have hmembers : ∀ m ∈ members, Clause.Spans m.1 m.2 := by
    intro m hm
    rcases List.mem_append.mp hm with hm | hm
    · obtain ⟨c, hc, rfl⟩ := List.mem_map.mp hm
      exact Clause.Spans.of_clause (c := .condition c)
        (Condition.placeholders_text (hs.conditions c hc))
    · obtain ⟨branches, hkeyset, rfl⟩ := List.mem_map.mp hm
      exact hs.spans_keyset (Option.mem_toList.mp hkeyset)
  have htexts : members.map (·.2) = s.whereTexts := by
    simp [members, whereTexts, Function.comp_def, Option.toList_map]
  have hclauses : members.flatMap (·.1) = s.conditions.map .condition ++
      (s.keyset.getD []).flatMap fun branch => branch.map .test := by
    rw [List.flatMap_append, List.flatMap_map, ← List.map_eq_flatMap]
    cases s.keyset <;> simp
  rw [← htexts, ← hclauses]
  exact Clause.Spans.joinWith (by decide) hmembers

theorem spans_groupBy :
    Clause.Spans ([] : List (Clause α)) (clauseText "GROUP BY" ", " s.groupBy) := by
  refine Clause.Spans.clauseText (by decide) (Clause.Spans.joinWith_nil (by decide) ?_)
  exact fun name hname => Text.placeholders_of_isIdentifier (hs.groupBy name hname)

theorem spans_orderBy :
    Clause.Spans ([] : List (Clause α))
      (clauseText "ORDER BY" ", " (s.orderBy.map fun o => o.1.text ++ " " ++ o.2.keyword)) := by
  refine Clause.Spans.clauseText (by decide) (Clause.Spans.joinWith_nil (by decide) ?_)
  rw [List.forall_mem_map]
  intro o ho
  have hdirection : Text.placeholders o.2.keyword = 0 := by cases o.2 <;> decide
  simp +decide [Term.placeholders_text (hs.orderBy o ho), hdirection]

/-- The clauses stand in the text of the statement in their order. -/
theorem spans_text : Clause.Spans s.clauses s.text := by
  have htable := Text.placeholders_of_isIdentifier hs.table
  have hselect : Clause.Spans ([] : List (Clause α))
      ("SELECT " ++ joinWith ", " (s.output.map Output.text) ++ " FROM " ++ s.table) :=
    ((hs.spans_output.prepend (by decide)).close (by decide)).close htable
  have hkeyword : Text.placeholders "WHERE" = 0 := by decide
  have hwhere := Clause.Spans.clauseText hkeyword hs.spans_where
  have hbase : Clause.Spans (s.conditions.map .condition ++
      (s.keyset.getD []).flatMap fun branch => branch.map .test) s.baseText := by
    have hspans := ((hselect.append hwhere).append hs.spans_groupBy).append hs.spans_orderBy
    rwa [List.nil_append, List.append_nil, List.append_nil] at hspans
  have hlimit : Clause.Spans (s.limit.toList.map .limit)
      (if s.limit.isSome then " LIMIT " ++ placeholder else "") := by
    cases s.limit with
    | none => exact .nil rfl
    | some v =>
      have hone : Text.placeholders (" LIMIT " ++ placeholder) = 1 := by decide
      exact Clause.Spans.of_clause (c := .limit v) hone
  have hoffset : Clause.Spans (s.offset.toList.map .offset)
      (if s.offset.isSome then " OFFSET " ++ placeholder else "") := by
    cases s.offset with
    | none => exact .nil rfl
    | some v =>
      have hone : Text.placeholders (" OFFSET " ++ placeholder) = 1 := by decide
      exact Clause.Spans.of_clause (c := .offset v) hone
  exact (hbase.append hlimit).append hoffset

end Statement.IsPlain

/-- Placeholders and values of a statement are aligned: no name has a placeholder in it, and the
placeholder at a position stands in the clause that binds the value at this position. -/
structure Statement.IsAligned (s : Statement α) : Prop where
  placeholders : Text.placeholders s.text = s.values.length
  names : ∀ name ∈ s.names, Text.placeholders name = 0
  placeholder_at : ∀ (i : Nat) (v : α), s.values[i]? = some v →
    ∃ (earlier later : List (Clause α)) (c : Clause α) (before front back after : String),
      s.clauses = earlier ++ c :: later ∧ s.text = before ++ c.text ++ after ∧
      c.text = front ++ placeholder ++ back ∧
      Text.placeholders before = (earlier.flatMap Clause.values).length ∧
      Text.placeholders before + Text.placeholders front = i ∧
      c.values[Text.placeholders front]? = some v

/-- With plain names, placeholders and values are aligned. -/
theorem Statement.IsPlain.isAligned {s : Statement α} (hs : s.IsPlain) : s.IsAligned where
  placeholders := by rw [s.values_eq_flatMap_clauses, hs.spans_text.placeholders_eq]
  names := fun _ hname => Text.placeholders_of_isIdentifier (hs.isIdentifier_of_mem_names hname)
  placeholder_at := by
    intro i v hv
    rw [s.values_eq_flatMap_clauses] at hv
    exact hs.spans_text.placeholder_at hv

end CatalogQuery
