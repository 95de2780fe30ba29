import CatalogQuery.Log.Entry
import CatalogQuery.Proofs.RecordReading
import CatalogQuery.Proofs.SortedValues
/-!
# Lines of a log

The line of an entry is one line, whatever its texts hold, and it is read back as the entry: the event,
the severity and then the fields in the order of their keys. Where no key is there twice, the line does
not depend on the order in which the fields were given, and it tells the entry.
-/
namespace CatalogQuery

open Json

namespace Json

theorem newline_notMem_escapeChar (c : Char) : '\n' ∉ escapeChar c := by
  have hhex : ∀ n < 32, Text.hexDigit (n / 16) ≠ '\n' ∧ Text.hexDigit (n % 16) ≠ '\n' := by decide
  rw [escapeChar]
  split
  next e he =>
    have hletter : e ≠ '\n' := by
      rintro rfl
      obtain ⟨hback, -⟩ := unescapeLetter?_of_escapeLetter? he
      cases hback
    simp [hletter.symm]
  next hnone =>
    split
    next hcontrol =>
      obtain ⟨hfirst, hsecond⟩ := hhex c.toNat hcontrol
      simp [hfirst.symm, hsecond.symm]
    next hprint =>
      rw [List.mem_singleton]
      rintro rfl
      exact hprint (by decide)

theorem newline_notMem_quote (s : String) : '\n' ∉ quote s := by
  have hescaped : '\n' ∉ s.toList.flatMap escapeChar := by
    intro h
    obtain ⟨c, -, hc⟩ := List.mem_flatMap.mp h
    exact newline_notMem_escapeChar c hc
  simp [quote, quoteList, hescaped]

def textMembers (fields : List (String × String)) : List (String × Json) :=
  fields.map fun f => (f.1, .str f.2)

theorem newline_notMem_compactMembers (fields : List (String × String)) :
    '\n' ∉ compactMembers (textMembers fields) := by
  induction fields with
  | nil => decide
  | cons f fields ih => simpa [textMembers, compactMembers, compact, newline_notMem_quote] using ih

/-- An object of texts is written on one line. -/
theorem newline_notMem_compact (fields : List (String × String)) :
    '\n' ∉ compact (.obj (textMembers fields)) := by
  cases fields with
  | nil => decide
  | cons f fields =>
    simpa [textMembers, compact, newline_notMem_quote] using newline_notMem_compactMembers fields

theorem valueMembers_textMembers (fields : List (String × String)) (depth : Nat) :
    valueMembers depth (memberTrees printed (textMembers fields)) = .ok (textMembers fields) := by
  induction fields with
  | nil => rfl
  | cons f fields ih =>
    rw [textMembers, List.map_cons, memberTrees, List.map_cons, valueMembers]
    simp only [printed, Tree.value]
    exact congrArg (Except.map ((f.1, Json.str f.2) :: ·)) ih

end Json

namespace LogEntry

variable {e e' : LogEntry}

def HasDistinctKeys (e : LogEntry) : Prop := ("event" :: "severity" :: e.fields.map (·.1)).Nodup

theorem HasDistinctKeys.fields (h : e.HasDistinctKeys) : (e.fields.map (·.1)).Nodup :=
  (List.nodup_cons.mp (List.nodup_cons.mp h).2).2

/-- Fields of different keys come in the order of the keys. -/
theorem HasDistinctKeys.pairwise_sortedFields (h : e.HasDistinctKeys) :
    e.sortedFields.Pairwise fun f g => f.1 < g.1 := by
  have hle : e.sortedFields.Pairwise fun f g => f.1 ≤ g.1 := by
    refine (List.pairwise_mergeSort (fun f g k hfg hgk => ?_) (fun f g => ?_) e.fields).imp
      of_decide_eq_true
    · exact decide_eq_true ((of_decide_eq_true hfg).trans (of_decide_eq_true hgk))
    · simpa using le_total f.1 g.1
  have hnodup : (e.sortedFields.map (·.1)).Nodup :=
    (e.sortedFields_perm.map _).nodup_iff.mpr h.fields
  exact hle.imp₂ (fun _ _ => lt_of_le_of_ne) (List.pairwise_map.mp hnodup)

theorem HasDistinctKeys.of_perm (h : e.HasDistinctKeys) (hperm : e'.fields.Perm e.fields) :
    e'.HasDistinctKeys :=
  (((hperm.map _).cons _).cons _).nodup_iff.mpr h

theorem HasDistinctKeys.sortedFields_eq_of_perm (h : e.HasDistinctKeys)
    (hperm : e'.fields.Perm e.fields) : e'.sortedFields = e.sortedFields :=
  List.Perm.eq_of_pairwise (fun _ _ _ _ hfg hgf => absurd hgf hfg.asymm)
    (h.of_perm hperm).pairwise_sortedFields h.pairwise_sortedFields
    ((e'.sortedFields_perm.trans hperm).trans e.sortedFields_perm.symm)

/-- What stands on the line, with the fields in the given order. -/
def members (e : LogEntry) (fields : List (String × String)) : List (String × String) :=
  ("event", e.event) :: ("severity", e.severity.name) :: fields

theorem toJson_eq (e : LogEntry) : e.toJson = .obj (textMembers (e.members e.sortedFields)) := rfl

theorem line_toList (e : LogEntry) : e.line.toList = e.toJson.compact ++ ['\n'] :=
  String.toList_ofList

theorem isBlank_newline : IsBlank ['\n'] := List.forall_mem_singleton.mpr rfl

theorem ofText_line (e : LogEntry) :
    Tree.ofText e.line =
      (.obj (memberTrees printed (textMembers (e.members e.sortedFields))) true, some ['\n']) := by
  have hread := Tree.ofText_laidOut .tight e.toJson isBlank_newline
  rw [laidOut_tight, toJson_eq, printed, printedMembers_eq] at hread
  exact hread

/-- The value of a line has the members of the entry. -/
theorem readText_line (e : LogEntry) :
    readText Reader.value e.line =
      .ok (.obj (sortMembers (textMembers (e.members e.sortedFields)))) := by
  have hread := readText_laidOut .tight Reader.value e.toJson isBlank_newline
  rw [laidOut_tight, toJson_eq, printed, printedMembers_eq, Reader.value, depthLimit, Tree.value,
    valueMembers_textMembers] at hread
  exact hread

theorem HasDistinctKeys.sortMembers_perm (h : e.HasDistinctKeys) :
    (sortMembers (textMembers (e.members e.sortedFields))).Perm (textMembers (e.members e.fields)) := by
  have hperm : (textMembers (e.members e.sortedFields)).Perm (textMembers (e.members e.fields)) :=
    ((e.sortedFields_perm.cons _).cons _).map _
  have hkeys : (textMembers (e.members e.fields)).map (·.1) =
      "event" :: "severity" :: e.fields.map (·.1) := by
    simp [textMembers, members]
  have hnodup := h
  rw [HasDistinctKeys, ← hkeys, ← (hperm.map _).nodup_iff] at hnodup
  exact (Json.sortMembers_perm hnodup).trans hperm

/-- A line tells what is on it, whatever the keys are. -/
theorem parts_eq_of_line_eq (h : e'.line = e.line) :
    e'.severity = e.severity ∧ e'.event = e.event ∧ e'.sortedFields = e.sortedFields := by
  have htree := congrArg (fun s => (Tree.ofText s).1) h
  simp only [ofText_line, memberTrees, textMembers, members, List.map_cons, List.map_map,
    Tree.obj.injEq, List.cons.injEq, Prod.mk.injEq, true_and, printed, Tree.str.injEq,
    Option.some.injEq, and_true] at htree
  obtain ⟨hevent, hname, hfields⟩ := htree
  refine ⟨?_, hevent, ?_⟩
  · have hseverity := congrArg Severity.ofName? hname
    simpa using hseverity
  · refine List.map_injective_iff.mpr ?_ hfields
    intro f g hfg
    simpa [printed, Prod.ext_iff] using hfg

/-- The line of an entry is one line and an object: the event, the severity and then the fields in the
order of their keys. Its value has just these members, the order of the given fields leaves no trace,
and only an entry with the same severity, event and fields has the same line. -/
theorem line_faithful (e : LogEntry) (h : e.HasDistinctKeys) :
    (∃ body, e.line.toList = body ++ ['\n'] ∧ '\n' ∉ body) ∧
      (e.sortedFields.Perm e.fields ∧ (e.sortedFields.Pairwise fun f g => f.1 < g.1) ∧
        Tree.ofText e.line =
          (.obj (memberTrees printed (textMembers (e.members e.sortedFields))) true, some ['\n'])) ∧
      (∃ members, readText Reader.value e.line = .ok (.obj members) ∧
        members.Perm (textMembers (e.members e.fields))) ∧
      (∀ fields, fields.Perm e.fields → LogEntry.line { e with fields } = e.line) ∧
      ∀ e' : LogEntry, e'.line = e.line →
        e'.severity = e.severity ∧ e'.event = e.event ∧ e'.fields.Perm e.fields := by
  refine ⟨⟨_, e.line_toList, newline_notMem_compact (e.members e.sortedFields)⟩,
    ⟨e.sortedFields_perm, h.pairwise_sortedFields, e.ofText_line⟩,
    ⟨_, e.readText_line, h.sortMembers_perm⟩, fun fields hperm => ?_, fun e' hline => ?_⟩
  · have hsorted : LogEntry.sortedFields { e with fields } = e.sortedFields :=
      h.sortedFields_eq_of_perm hperm
    rw [line, line, toJson_eq, toJson_eq, hsorted]
    rfl
  · obtain ⟨hseverity, hevent, hsorted⟩ := parts_eq_of_line_eq hline
    refine ⟨hseverity, hevent, ?_⟩
    have hperm := e'.sortedFields_perm.symm
    rw [hsorted] at hperm
    exact hperm.trans e.sortedFields_perm

end LogEntry

namespace Outage

/-- Keys and values with line feeds, quotes, backslashes, control characters and characters beyond
sixteen bits. -/
def entry : LogEntry where
  severity := .error
  event := "EXECUTION_FAILED\r\n"
  fields :=
    [("💎\\", "near \"FROM\": syntax error\n"), ("d\u00e9tail\n", "\u0000\u001f\u007f"), ("", ""),
      ("Event", "\"severity\"")]

def reordered : LogEntry where
  severity := .error
  event := "EXECUTION_FAILED\r\n"
  fields :=
    [("Event", "\"severity\""), ("", ""), ("d\u00e9tail\n", "\u0000\u001f\u007f"),
      ("💎\\", "near \"FROM\": syntax error\n")]

theorem line_entry :
    entry.HasDistinctKeys ∧
      (∃ body, entry.line.toList = body ++ ['\n'] ∧ '\n' ∉ body) ∧
      reordered.line = entry.line ∧
      ∀ e : LogEntry, e.line = entry.line →
        e.severity = .error ∧ e.event = "EXECUTION_FAILED\r\n" ∧ e.fields.Perm entry.fields := by
  have hkeys : entry.HasDistinctKeys := by
    unfold LogEntry.HasDistinctKeys
    decide
  obtain ⟨hline, -, -, hperm, hparts⟩ := LogEntry.line_faithful entry hkeys
  exact ⟨hkeys, hline, hperm reordered.fields (by decide), hparts⟩

end Outage

end CatalogQuery
