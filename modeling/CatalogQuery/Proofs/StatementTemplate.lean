import CatalogQuery.Proofs.ListStatement
import CatalogQuery.Proofs.StatementReading
/-!
# What a text says without its values

The text of a statement shows all of it but the values: two statements with plain names and one text
have the same result columns and the same number of values. With the same values as well they are the
same. No text of such a statement has a zero byte.
-/
namespace CatalogQuery

section Map

variable {α β : Type} (f : α → β)

@[simp] theorem Condition.text_map (c : Condition α) : (c.map f).text = c.text := by
  cases c with
  | compare | like | between => rfl
  | isIn column values => simp [map, text, Function.comp_def]

@[simp] theorem KeyTest.text_map (k : KeyTest α) : (k.map f).text = k.text := by cases k <;> rfl

theorem branchText_map (branch : List (KeyTest α)) :
    branchText (branch.map (KeyTest.map f)) = branchText branch := by
  simp [branchText, Function.comp_def]

theorem keysetText_map (branches : List (List (KeyTest α))) :
    keysetText (branches.map fun branch => branch.map (KeyTest.map f)) = keysetText branches := by
  cases branches with
  | nil => rfl
  | cons branch branches => simp [keysetText, branchText_map, Function.comp_def]

namespace Statement

variable (s : Statement α)

theorem whereTexts_map : (s.map f).whereTexts = s.whereTexts := by
  have hconditions : (s.map f).conditions.map Condition.text = s.conditions.map Condition.text := by
    rw [map_conditions, List.map_map]
    exact List.map_congr_left fun c _ => c.text_map f
  have hkeyset : (s.map f).keyset.map keysetText = s.keyset.map keysetText := by
    rw [map, Option.map_map]
    congr 1
    funext branches
    exact keysetText_map f branches
  rw [whereTexts, hconditions, hkeyset, whereTexts]

theorem text_map : (s.map f).text = s.text := by
  rw [text, baseText, whereTexts_map]
  simp only [map, Option.isSome_map]
  rfl

theorem IsPlain.map {s : Statement α} (hs : s.IsPlain) : (s.map f).IsPlain where
  output_ne_nil := hs.output_ne_nil
  output := hs.output
  table := hs.table
  conditions := by
    intro c hc
    obtain ⟨d, hd, rfl⟩ := List.mem_map.mp hc
    rw [Condition.column_map]
    exact hs.conditions d hd
  branches_ne_nil := by
    intro branch hbranch
    rw [keyset_getD_map] at hbranch
    obtain ⟨old, hold, rfl⟩ := List.mem_map.mp hbranch
    simpa using hs.branches_ne_nil old hold
  keys := by
    intro branch hbranch k hk
    rw [keyset_getD_map] at hbranch
    obtain ⟨old, hold, rfl⟩ := List.mem_map.mp hbranch
    obtain ⟨test, htest, rfl⟩ := List.mem_map.mp hk
    rw [KeyTest.key_map]
    exact hs.keys old hold test htest
  groupBy := hs.groupBy
  orderBy := hs.orderBy

end Statement

end Map

/-- As many values are bound as there are placeholders. -/
theorem length_of_bindValues {α : Type} {ts : List (Token Unit)} {vs : List α}
    {us : List (Token α)} (h : bindValues ts vs = some us) :
    vs.length = (tokenValues ts).length := by
  induction ts generalizing vs us with
  | nil =>
    cases vs with
    | nil => rfl
    | cons v vs => cases h
  | cons t ts ih =>
    cases t with
    | value =>
      cases vs with
      | nil => cases h
      | cons v vs =>
        obtain ⟨rest, hrest, -⟩ := Option.map_eq_some_iff.mp h
        simp [ih hrest]
    | word | label | literal | mark =>
      obtain ⟨rest, hrest, -⟩ := Option.map_eq_some_iff.mp h
      exact ih hrest

namespace Statement.IsPlain

variable {α : Type} {s s' : Statement α} (hs : s.IsPlain) (hs' : s'.IsPlain)

include hs hs'

/-- The text and the values are all of a statement. -/
theorem eq_of_text_eq (htext : s.text = s'.text) (hvalues : s.values = s'.values) : s = s' := by
  have hread := hs.ofText?_text
  rw [htext, hvalues, hs'.ofText?_text] at hread
  exact (Option.some.inj hread).symm

theorem length_values_eq (htext : s.text = s'.text) : s.values.length = s'.values.length := by
  have hcount {s : Statement α} (hs : s.IsPlain) {ts : List (Token Unit)}
      (hscan : scan s.text = some ts) : s.values.length = (tokenValues ts).length := by
    have hread := hs.ofText?_text
    simp only [ofText?, hscan, Option.bind_eq_bind, Option.bind_some, Option.bind_eq_some_iff]
      at hread
    obtain ⟨us, hus, -⟩ := hread
    exact length_of_bindValues hus
  have hscan : scan s.text = some (s.tokens.map Token.erase) := hs.spells
  rw [hcount hs hscan, hcount hs' (htext ▸ hscan)]

/-- The text shows the statement up to its values. -/
theorem map_eq_of_text_eq (htext : s.text = s'.text) :
    s.map (fun _ => ()) = s'.map fun _ => () := by
  refine (hs.map _).eq_of_text_eq (hs'.map _) ?_ ?_
  · rw [text_map, text_map, htext]
  · rw [values_map, values_map, List.map_const', List.map_const', hs.length_values_eq hs' htext]

theorem output_eq_of_text_eq (htext : s.text = s'.text) : s.output = s'.output := by
  have hsame := hs.map_eq_of_text_eq hs' htext
  exact congrArg (Statement.output (α := Unit)) hsame

end Statement.IsPlain

def Text.isZeroFree (s : String) : Bool := s.toList.all (· != '\x00')

namespace Text

@[simp] theorem isZeroFree_append (s t : String) :
    isZeroFree (s ++ t) = (isZeroFree s && isZeroFree t) := by
  simp [isZeroFree]

theorem isZeroFree_of_isIdentifier {s : String} (h : isIdentifier s = true) :
    isZeroFree s = true := by
  rw [isZeroFree, List.all_eq_true]
  intro c hc
  have htail := isIdentifierTail_of_mem h hc
  simp only [bne_iff_ne]
  rintro rfl
  revert htail
  decide

theorem isZeroFree_joinWith {separator : String} (hseparator : isZeroFree separator = true)
    {members : List String} (h : ∀ s ∈ members, isZeroFree s = true) :
    isZeroFree (joinWith separator members) = true := by
  induction members with
  | nil => rfl
  | cons s members ih =>
    rw [List.forall_mem_cons] at h
    cases members with
    | nil => exact h.1
    | cons t members => simp [joinWith, h.1, hseparator, ih h.2]

theorem isZeroFree_clauseText {keyword separator : String} (hkeyword : isZeroFree keyword = true)
    (hseparator : isZeroFree separator = true) {members : List String}
    (h : ∀ s ∈ members, isZeroFree s = true) :
    isZeroFree (clauseText keyword separator members) = true := by
  cases members with
  | nil => rfl
  | cons s members => simp +decide [clauseText, hkeyword, isZeroFree_joinWith hseparator h]

end Text

theorem Term.isZeroFree_text {key : Term} (h : Text.isIdentifier key.name = true) :
    Text.isZeroFree key.text = true := by
  have hname := Text.isZeroFree_of_isIdentifier h
  cases key with
  | column => exact hname
  | label => simpa +decide [text, name] using hname

theorem Output.isZeroFree_text {o : Output}
    (h : ∀ name ∈ o.names, Text.isIdentifier name = true) : Text.isZeroFree o.text = true := by
  cases o with
  | column name => exact Text.isZeroFree_of_isIdentifier (h name List.mem_cons_self)
  | aggregate f argument label =>
    have hlabel := Text.isZeroFree_of_isIdentifier (h label (by simp [names]))
    have hargument : Text.isZeroFree (argument.getD "*") = true := by
      cases argument with
      | none => decide
      | some name => exact Text.isZeroFree_of_isIdentifier (h name List.mem_cons_self)
    have hkeyword : Text.isZeroFree f.keyword = true := by cases f <;> decide
    simp +decide [text, hlabel, hargument, hkeyword]

section Texts

variable {α : Type}

theorem Condition.isZeroFree_text {c : Condition α} (h : Text.isIdentifier c.column = true) :
    Text.isZeroFree c.text = true := by
  have hcolumn := Text.isZeroFree_of_isIdentifier h
  cases c with
  | compare column op v =>
    have hsign : Text.isZeroFree op.sign = true := by cases op <;> decide
    simpa +decide [text, Condition.column, hsign] using hcolumn
  | isIn column vs =>
    have hvalues : Text.isZeroFree (joinWith ", " (vs.map fun _ => placeholder)) = true := by
      refine Text.isZeroFree_joinWith (by decide) ?_
      rw [List.forall_mem_map]
      exact fun _ _ => (by decide : Text.isZeroFree placeholder = true)
    have hname : Text.isZeroFree column = true := hcolumn
    simp +decide only [text, Text.isZeroFree_append, hname, hvalues]
  | like | between => simpa +decide [text, Condition.column] using hcolumn

theorem KeyTest.isZeroFree_text {k : KeyTest α} (h : Text.isIdentifier k.key.name = true) :
    Text.isZeroFree k.text = true := by
  have hkey := Term.isZeroFree_text h
  cases k with
  | isNull | isNotNull | equal | above | below | belowOrNull =>
    simpa +decide [text, KeyTest.key] using hkey

theorem isZeroFree_branchText {branch : List (KeyTest α)}
    (h : ∀ k ∈ branch, Text.isIdentifier k.key.name = true) :
    Text.isZeroFree (branchText branch) = true := by
  have htests : Text.isZeroFree (joinWith " AND " (branch.map KeyTest.text)) = true := by
    refine Text.isZeroFree_joinWith (by decide) ?_
    rw [List.forall_mem_map]
    exact fun k hk => KeyTest.isZeroFree_text (h k hk)
  simp +decide [branchText, htests]

theorem isZeroFree_keysetText {branches : List (List (KeyTest α))}
    (h : ∀ branch ∈ branches, ∀ k ∈ branch, Text.isIdentifier k.key.name = true) :
    Text.isZeroFree (keysetText branches) = true := by
  have hbranches : Text.isZeroFree (joinWith " OR " (branches.map branchText)) = true := by
    refine Text.isZeroFree_joinWith (by decide) ?_
    rw [List.forall_mem_map]
    exact fun branch hbranch => isZeroFree_branchText (h branch hbranch)
  cases branches with
  | nil => exact (by decide : Text.isZeroFree "(0)" = true)
  | cons branch branches => simpa +decide [keysetText] using hbranches

/-- A zero byte behind the text shows where it ends. -/
theorem Statement.IsPlain.isZeroFree_text {s : Statement α} (hs : s.IsPlain) :
    Text.isZeroFree s.text = true := by
  have houtput : Text.isZeroFree (joinWith ", " (s.output.map Output.text)) = true := by
    refine Text.isZeroFree_joinWith (by decide) ?_
    rw [List.forall_mem_map]
    exact fun o ho => Output.isZeroFree_text (hs.output o ho)
  have hwhere : Text.isZeroFree (clauseText "WHERE" " AND " s.whereTexts) = true := by
    refine Text.isZeroFree_clauseText (by decide) (by decide) ?_
    intro text htext
    rcases List.mem_append.mp htext with htext | htext
    · obtain ⟨c, hc, rfl⟩ := List.mem_map.mp htext
      exact Condition.isZeroFree_text (hs.conditions c hc)
    · obtain ⟨branches, hkeyset, rfl⟩ := Option.map_eq_some_iff.mp (Option.mem_toList.mp htext)
      refine isZeroFree_keysetText fun branch hbranch => hs.keys branch ?_
      rw [hkeyset]
      exact hbranch
  have hgroupBy : Text.isZeroFree (clauseText "GROUP BY" ", " s.groupBy) = true :=
    Text.isZeroFree_clauseText (by decide) (by decide) fun name hname =>
      Text.isZeroFree_of_isIdentifier (hs.groupBy name hname)
  have horderBy : Text.isZeroFree
      (clauseText "ORDER BY" ", " (s.orderBy.map fun o => o.1.text ++ " " ++ o.2.keyword)) =
        true := by
    refine Text.isZeroFree_clauseText (by decide) (by decide) ?_
    rw [List.forall_mem_map]
    intro o ho
    have hdirection : Text.isZeroFree o.2.keyword = true := by cases o.2 <;> decide
    simp +decide [Term.isZeroFree_text (hs.orderBy o ho), hdirection]
  have hlimit : Text.isZeroFree (if s.limit.isSome then " LIMIT " ++ placeholder else "") =
      true := by
    split <;> decide
  have hoffset : Text.isZeroFree (if s.offset.isSome then " OFFSET " ++ placeholder else "") =
      true := by
    split <;> decide
  simp +decide only [text, baseText, Text.isZeroFree_append, houtput, hwhere, hgroupBy, horderBy,
    hlimit, hoffset, Text.isZeroFree_of_isIdentifier hs.table]

end Texts

end CatalogQuery
