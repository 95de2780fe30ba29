import CatalogQuery.Proofs.AcceptedCatalog
import CatalogQuery.Proofs.RecordReading
/-!
# Saved catalogs

The file of a definition is read back as the definition, with every option that was left out left out
again. So a sound definition makes the same catalog by way of a file, and one that is not sound is
refused for the same fault.
-/
namespace CatalogQuery

open Json

namespace FieldDefinition

/-- The form of a field is read as the field. -/
theorem reader_printed_toJson (f : FieldDefinition) (depth : Nat) :
    record.reader (depth + 2) f.toJson.printed = .ok f := by
  obtain ⟨name, column, kind, operators, unique, nullable⟩ := f
  have hwrites : record.Writes printed (depth + 1)
      ([("name", .str name)] ++ [("column", .str column)] ++ [("kind", .str kind.name)] ++
        optionMember "operators" (fun os => .arr (os.map fun o => .str o.name)) operators ++
        [("unique", .bool unique)] ++ optionMember "nullable" .bool nullable)
      ⟨name, column, kind, operators, unique, nullable⟩ := by
    refine .seq (.seq (.seq (.seq (.seq (.map ?name _) ?column ?_) ?kind ?_) ?operators ?_)
      ?unique ?_) ?nullable ?_
    case name | column => exact Record.writes_required rfl
    case kind => exact Record.writes_required (Reader.name_ok _ kind.ofName?_name)
    case operators =>
      refine Record.writes_optional fun os _ => ⟨nofun, Reader.list_printed_ok fun o _ => ?_⟩
      exact Reader.name_ok _ o.ofName?_name
    case unique => exact Record.writes_withDefault _ rfl
    case nullable => exact Record.writes_optional fun _ _ => ⟨nofun, rfl⟩
    all_goals decide
  exact hwrites.reader_printed (by decide)

end FieldDefinition

theorem Requirement.ofName?_name (r : Requirement) : ofName? r.name = some r := by
  cases r
  rfl

namespace EntityDefinition

theorem reader_printed_toJson (e : EntityDefinition) (depth : Nat) :
    record.reader (depth + 4) e.toJson.printed = .ok e := by
  obtain ⟨name, table, timeField, requires, fields⟩ := e
  have hwrites : record.Writes printed (depth + 3)
      ([("name", .str name)] ++ [("table", .str table)] ++
        optionMember "timeField" .str timeField ++
        [("requires", .arr (requires.map fun r => .str r.name))] ++
        [("fields", .arr (fields.map FieldDefinition.toJson))])
      ⟨name, table, timeField, requires, fields⟩ := by
    refine .seq (.seq (.seq (.seq (.map ?name _) ?table ?_) ?timeField ?_) ?requires ?_) ?fields ?_
    case name | table => exact Record.writes_required rfl
    case timeField => exact Record.writes_optional fun _ _ => ⟨nofun, rfl⟩
    case requires =>
      refine Record.writes_withDefault _ (Reader.list_printed_ok fun r _ => ?_)
      exact Reader.name_ok _ r.ofName?_name
    case fields =>
      exact Record.writes_required (Reader.list_printed_ok fun f _ => f.reader_printed_toJson depth)
    all_goals decide
  rw [List.append_assoc] at hwrites
  exact hwrites.reader_printed (by decide)

end EntityDefinition

namespace CatalogDefinition

theorem reader_printed_toJson (d : CatalogDefinition) (depth : Nat) :
    record.reader (depth + 6) d.toJson.printed = .ok d := by
  have hwrites : record.Writes printed (depth + 5)
      [("entities", .arr (d.entities.map EntityDefinition.toJson))] d := by
    refine .map (Record.writes_required (Reader.list_printed_ok fun e _ => ?_)) CatalogDefinition.mk
    exact e.reader_printed_toJson depth
  exact hwrites.reader_printed (by decide)

/-- The contents of a file are read as the definition that was saved in it. -/
theorem readText_fileText (d : CatalogDefinition) : readText record.reader d.fileText = .ok d := by
  rw [fileText, readText_prettyText]
  exact d.reader_printed_toJson 121

end CatalogDefinition

namespace Catalog

/-- Reading a saved definition leaves only its check. -/
theorem readDefinition_fileText (path : String) (d : CatalogDefinition) :
    readDefinition path (.ok d.fileText) =
      match d.check with
      | .error f => .error (.ofStructure path f)
      | .ok () => .ok d := by
  cases hcheck : d.check with
  | error f => simp only [readDefinition, d.readText_fileText, hcheck]
  | ok => simp only [readDefinition, d.readText_fileText, hcheck]

/-- A definition that passes its check is found unchanged in its file, and the file makes the same
catalog as the definition does. One that fails its check is refused when its file is read. -/
theorem saved_loads_unchanged (path : String) (d : CatalogDefinition) :
    (d.check = .ok () →
        readDefinition path (.ok d.fileText) = .ok d ∧
          ∀ generation, ∃ c, load path (.ok d.fileText) generation = .ok c ∧
            ofDefinition CatalogError.inMemory d generation = .ok c) ∧
      ∀ f, d.check = .error f →
        readDefinition path (.ok d.fileText) = .error (.ofStructure path f) ∧
          (CatalogError.ofStructure path f).code = "CATALOG_LOAD_FAILED" := by
  have hread := readDefinition_fileText path d
  constructor
  · intro hcheck
    rw [hcheck] at hread
    refine ⟨hread, fun generation => ?_⟩
    have hload : load path (.ok d.fileText) generation =
        ofDefinition CatalogError.inMemory d generation := by
      rw [load, hread]
      rfl
    refine ⟨_, ?_, ofDefinition_eq_ok_iff.mpr ⟨hcheck, rfl⟩⟩
    rw [hload]
    exact ofDefinition_eq_ok_iff.mpr ⟨hcheck, rfl⟩
  · intro f hcheck
    rw [hcheck] at hread
    exact ⟨hread, rfl⟩

end Catalog

namespace Gems

/-- Names with quotes, a backslash, control characters and a character beyond sixteen bits; one field
lists no operators and another one leaves them out. -/
def definition : CatalogDefinition where
  entities :=
    [{ name := "\"Gem\"\\\n\u0001\u007f", table := "gems", timeField := some "found\tat",
       requires := [.timeRange],
       fields :=
        [{ name := "", column := "id", kind := .number, operators := some [], unique := true,
           nullable := some true },
         { name := "found\tat", column := "found_at", kind := .timestamp, nullable := some false },
         { name := "💎", column := "cut", kind := .string, operators := some [.like, .eq] }] }]

/-- Flags have no order. -/
def unsound : CatalogDefinition where
  entities :=
    [{ name := "💎", table := "gems",
       fields := [{ name := "r\u00e9al", column := "is_real", kind := .boolean,
                    operators := some [.eq, .lt] }] }]

theorem loads_definition :
    definition.check = .ok () ∧
      Catalog.readDefinition "gems.json" (.ok definition.fileText) = .ok definition ∧
      (∃ c, Catalog.load "gems.json" (.ok definition.fileText) 7 = .ok c ∧
        Catalog.ofDefinition CatalogError.inMemory definition 7 = .ok c) ∧
      Catalog.readDefinition "gems.json" (.ok unsound.fileText) =
        .error (.ofStructure "gems.json" (.operatorUnsupported "💎" .lt .boolean "r\u00e9al")) := by
  have hcheck : definition.check = .ok () := by decide
  obtain ⟨hread, hload⟩ := (Catalog.saved_loads_unchanged "gems.json" definition).1 hcheck
  obtain ⟨hrefused, -⟩ := (Catalog.saved_loads_unchanged "gems.json" unsound).2
    (.operatorUnsupported "💎" .lt .boolean "r\u00e9al") (by decide)
  exact ⟨hcheck, hread, hload 7, hrefused⟩

end Gems

end CatalogQuery
