import CatalogQuery.Proofs.KeysetPredicate
import CatalogQuery.Proofs.Selection
import CatalogQuery.Proofs.StatementReading
/-!
# Names and texts of compiled queries

An accepted plan compiles to a statement with plain names, and so do its pages; the columns it names are
those of fields of the entity, and every result that it is ordered by has its label. For a plan for rows,
the texts with their lists of parameters are read as just these statements.
-/
namespace CatalogQuery

/-- Every branch tests something. -/
theorem ne_nil_of_mem_keysetBranches {ties : List (KeyTest Param)} {kvs : List (OrderKey × Param)}
    {branch : List (KeyTest Param)} (h : branch ∈ keysetBranches ties kvs) : branch ≠ [] := by
  induction kvs generalizing ties with
  | nil => cases h
  | cons kv kvs ih =>
    obtain ⟨k, v⟩ := kv
    rw [keysetBranches_cons] at h
    rcases List.mem_append.mp h with h | h
    · obtain ⟨last, -, rfl⟩ := List.mem_map.mp h
      simp
    · exact ih h

theorem isIdentifier_key_keysetBranches {kvs : List (OrderKey × Param)}
    (hkeys : ∀ kv ∈ kvs, Text.isIdentifier kv.1.term.name = true) :
    ∀ branch ∈ keysetBranches [] kvs, ∀ test ∈ branch, Text.isIdentifier test.key.name = true := by
  intro branch hbranch test htest
  rcases key_mem_keysetBranches hbranch htest with hmem | ⟨kv, hkv, hkey⟩
  · cases hmem
  · rw [← hkey]
    exact hkeys kv hkv

/-- The pages of a query with plain names have plain names. -/
theorem CompiledQuery.isPlain_of_page? {q : CompiledQuery} (hbase : q.base.IsPlain)
    (hkeys : ∀ k ∈ q.orderBy, Text.isIdentifier k.term.name = true) {pageSize : UInt32}
    {cursor : Cursor} {s : Statement Param} (h : q.page? pageSize cursor = some s) : s.IsPlain := by
  rw [page?] at h
  split at h
  next =>
    cases cursor with
    | start =>
      cases h
      exact { hbase with }
    | offset rows =>
      cases h
      exact { hbase with }
    | keyset values =>
      cases h
      refine { hbase with branches_ne_nil := ?_, keys := ?_ }
      · intro branch hbranch
        exact ne_nil_of_mem_keysetBranches hbranch
      · exact isIdentifier_key_keysetBranches fun kv hkv => hkeys kv.1 (List.of_mem_zip hkv).1
  next => cases h

theorem Output.argument_of_source? {f : AggregateFunction} {argument : Option String}
    {label name : String} (h : (aggregate f argument label).source? = some name) :
    argument = some name := by
  cases f with
  | count => exact (Option.filter_eq_some_iff.mp h).1
  | sum | avg | min | max => exact h

namespace CheckedPlan

theorem orderKey_field (p : CheckedPlan) (columns : List OutputColumn) {o : CheckedOrder}
    {f : Field} (h : o.target = .field f) :
    p.orderKey columns o =
      { term := .column f.column, column := columnIndex columns f.name, direction := o.direction,
        nullable := f.nullable } := by
  rw [orderKey, h]

theorem orderKey_aggregate (p : CheckedPlan) (columns : List OutputColumn) {o : CheckedOrder}
    {i : Nat} (h : o.target = .aggregate i) (hi : i < p.aggregations.length) :
    p.orderKey columns o =
      { term := .label p.aggregations[i].label,
        column := columnIndex columns p.aggregations[i].label, direction := o.direction,
        nullable := true } := by
  rw [orderKey, h]
  simp [hi]

def keyName (p : CheckedPlan) : OrderTarget → String
  | .field f => f.column
  | .aggregate i => (p.aggregations[i]?.map (·.label)).getD ""

/-- The first result with the name for a label, up to case. -/
def labelled? (p : CheckedPlan) (name : String) : Option Nat :=
  p.aggregations.findIdx? fun a => Text.sameUpToCase a.label name

theorem name_term_orderKey (p : CheckedPlan) (columns : List OutputColumn) (o : CheckedOrder) :
    (p.orderKey columns o).term.name = p.keyName o.target := by
  rw [orderKey]
  cases o.target <;> rfl

theorem direction_orderKey (p : CheckedPlan) (columns : List OutputColumn) (o : CheckedOrder) :
    (p.orderKey columns o).direction = o.direction := by
  rw [orderKey]
  cases o.target <;> rfl

namespace IsAccepted

variable {p : CheckedPlan} (hp : p.IsAccepted) (generation : UInt64)

include hp

theorem shown_mem {f : Field} (hf : f ∈ p.shown) : f ∈ p.entity.fields := by
  rw [shown] at hf
  cases hoperation : p.operation with
  | list =>
    rw [hoperation] at hf
    exact hf
  | aggregate =>
    rw [hoperation] at hf
    exact hp.group_mem f hf

theorem outputs_eq : p.outputs = p.shown.map fieldOutput ++ p.aggregations.map aggregateOutput := by
  rw [outputs, shown]
  cases hoperation : p.operation with
  | list => simp [hp.operation_eq_list_iff.mp hoperation]
  | aggregate => rfl

theorem base_output : (p.compile generation).base.output =
    p.shown.map (fun f => .column f.column) ++
      p.aggregations.map fun a => .aggregate a.function (a.target.map (·.column)) a.label := by
  show p.outputs.map (·.1) = _
  rw [hp.outputs_eq, List.map_append, List.map_map, List.map_map]
  rfl

theorem orderBy_plain :
    ∀ k ∈ (p.compile generation).orderBy, Text.isIdentifier k.term.name = true := by
  intro k hk
  obtain ⟨o, ho, rfl⟩ := List.mem_map.mp hk
  cases htarget : o.target with
  | field f =>
    rw [orderKey_field _ _ htarget]
    exact hp.entity_wellFormed.columns_plain f (hp.shown_mem (hp.order_shown o ho f htarget))
  | aggregate i =>
    have hi := hp.order_aggregated o ho i htarget
    rw [orderKey_aggregate _ _ htarget hi]
    exact hp.labels_plain _ (List.getElem_mem hi)

/-- A label is found, its own or another. -/
theorem labelled?_isSome {o : CheckedOrder} (ho : o ∈ p.orderBy) {i : Nat}
    (htarget : o.target = .aggregate i) : (p.labelled? (p.keyName o.target)).isSome = true := by
  have hi := hp.order_aggregated o ho i htarget
  have hname : p.keyName o.target = p.aggregations[i].label := by simp [htarget, keyName, hi]
  rw [labelled?, List.findIdx?_isSome, List.any_eq_true, hname]
  exact ⟨_, List.getElem_mem hi, Text.sameUpToCase_refl _⟩

theorem labelIndex?_base (term : Term) :
    (p.compile generation).base.labelIndex? term =
      (p.labelled? term.name).map (· + p.shown.length) := by
  have hshown (test : Output → Bool) (hcolumn : ∀ name, test (.column name) = false) :
      (p.shown.map fun f => Output.column f.column).findIdx? test = none := by
    rw [List.findIdx?_eq_none_iff]
    intro o ho
    obtain ⟨f, -, rfl⟩ := List.mem_map.mp ho
    exact hcolumn f.column
  rw [Statement.labelIndex?, hp.base_output, List.findIdx?_append, hshown _ fun _ => rfl,
    List.findIdx?_map, Option.none_or, List.length_map]
  rfl

/-- Every name in the statement that is not a label is a mapped column of the entity. -/
theorem columnNames_mem {name : String} (h : name ∈ (p.compile generation).base.columnNames) :
    ∃ f ∈ p.entity.fields, f.column = name := by
  simp only [Statement.columnNames, List.mem_append] at h
  rcases h with (((h | h) | h) | h) | h
  · obtain ⟨o, ho, hname⟩ := List.mem_filterMap.mp h
    rw [hp.base_output] at ho
    rcases List.mem_append.mp ho with ho | ho
    · obtain ⟨f, hf, rfl⟩ := List.mem_map.mp ho
      exact ⟨f, hp.shown_mem hf, Option.some_inj.mp hname⟩
    · obtain ⟨a, ha, rfl⟩ := List.mem_map.mp ho
      obtain ⟨f, hf, rfl⟩ := Option.map_eq_some_iff.mp (Output.argument_of_source? hname)
      exact ⟨f, hp.target_mem a ha f hf, rfl⟩
  · obtain ⟨condition, hcondition, rfl⟩ := List.mem_map.mp h
    exact p.column_mem_of_mem_conditions hp.filter_mem hcondition
  · cases h
  · obtain ⟨f, hf, rfl⟩ := List.mem_map.mp h
    exact ⟨f, hp.group_mem f hf, rfl⟩
  · obtain ⟨key, hkey, rfl⟩ := List.mem_map.mp h
    obtain ⟨hkey, hlabel⟩ := List.mem_filter.mp hkey
    obtain ⟨k, hk, rfl⟩ := List.mem_map.mp hkey
    obtain ⟨o, ho, rfl⟩ := List.mem_map.mp hk
    rw [name_term_orderKey]
    rw [hp.labelIndex?_base, name_term_orderKey, Option.isNone_map] at hlabel
    cases htarget : o.target with
    | field f => exact ⟨f, hp.shown_mem (hp.order_shown o ho f htarget), rfl⟩
    | aggregate i =>
      have hsome := hp.labelled?_isSome ho htarget
      rw [Option.isNone_iff_eq_none.mp hlabel] at hsome
      cases hsome

theorem stores_of_mem_columnNames {t : Table} (ht : ∀ f ∈ p.entity.fields, t.stores f.column = true) :
    ∀ name ∈ (p.compile generation).base.columnNames, t.stores name = true := by
  intro name hname
  obtain ⟨f, hf, rfl⟩ := hp.columnNames_mem generation hname
  exact ht f hf

theorem output_plain : ∀ o ∈ (p.compile generation).base.output, ∀ name ∈ o.names,
    Text.isIdentifier name = true := by
  intro o ho name hname
  rw [hp.base_output] at ho
  rcases List.mem_append.mp ho with ho | ho
  · obtain ⟨f, hf, rfl⟩ := List.mem_map.mp ho
    rw [List.mem_singleton.mp hname]
    exact hp.entity_wellFormed.columns_plain f (hp.shown_mem hf)
  · obtain ⟨a, ha, rfl⟩ := List.mem_map.mp ho
    rcases List.mem_append.mp hname with hname | hname
    · obtain ⟨f, hf, rfl⟩ := Option.map_eq_some_iff.mp (Option.mem_toList.mp hname)
      exact hp.entity_wellFormed.columns_plain f (hp.target_mem a ha f hf)
    · rw [List.mem_singleton.mp hname]
      exact hp.labels_plain a ha

theorem output_ne_nil : (p.compile generation).base.output ≠ [] := by
  rw [hp.base_output]
  intro hnil
  obtain ⟨hshown, haggregations⟩ := List.append_eq_nil_iff.mp hnil
  have hlist := hp.operation_eq_list_iff.mpr (List.map_eq_nil_iff.mp haggregations)
  rw [List.map_eq_nil_iff, shown, hlist] at hshown
  exact hp.entity_wellFormed.fields_ne_nil hshown

theorem base_isPlain : (p.compile generation).base.IsPlain where
  output_ne_nil := hp.output_ne_nil generation
  output := hp.output_plain generation
  table := hp.entity_wellFormed.table_plain
  conditions := by
    intro condition hcondition
    obtain ⟨f, hf, hcolumn⟩ := p.column_mem_of_mem_conditions hp.filter_mem hcondition
    rw [← hcolumn]
    exact hp.entity_wellFormed.columns_plain f hf
  branches_ne_nil := by
    intro branch hbranch
    cases hbranch
  keys := by
    intro branch hbranch
    cases hbranch
  groupBy := by
    intro name hname
    obtain ⟨f, hf, rfl⟩ := List.mem_map.mp hname
    exact hp.entity_wellFormed.columns_plain f (hp.group_mem f hf)
  orderBy := by
    intro o ho
    obtain ⟨k, hk, rfl⟩ := List.mem_map.mp ho
    exact hp.orderBy_plain generation k hk

end IsAccepted

namespace IsListing

variable {p : CheckedPlan} (hp : p.IsListing) (generation : UInt64)

include hp

theorem base_isPlain : (p.compile generation).base.IsPlain := hp.isAccepted.base_isPlain generation

/-- Not only the text that a plan is compiled to is read as its statement, but that of every page also:
what is run for a later page is what the reading of its text and parameters says. -/
theorem ofText?_page {pageSize : UInt32} {cursor : Cursor} {s : Statement Param}
    (h : (p.compile generation).page? pageSize cursor = some s) :
    Statement.ofText? s.text s.values = some s :=
  Statement.IsPlain.ofText?_text (CompiledQuery.isPlain_of_page? (hp.base_isPlain generation)
    (hp.isAccepted.orderBy_plain generation) h)

end IsListing

end CheckedPlan

end CatalogQuery
