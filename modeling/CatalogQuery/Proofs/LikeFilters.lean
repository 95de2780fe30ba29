import CatalogQuery.Proofs.Containment
import CatalogQuery.Proofs.TextBytes
import CatalogQuery.Statement.Compiled
import CatalogQuery.Store.Select
import Mathlib.Data.List.Infix
/-!
# Filters that look for a text

The condition of such a filter is true on just the texts that contain the text asked for. A wildcard
or a backslash in it stands for itself: it costs one byte more in the pattern, the size of which the
store bounds, and nothing else.
-/
namespace CatalogQuery

namespace Text

/-- The characters before which a pattern has a backslash. -/
def isEscaped (c : Char) : Bool := c = '%' ∨ c = '_' ∨ c = '\\'

/-- No character of the text is read as the replacement character in its place. -/
def IsReadAsItIs (s : String) : Prop := '\uFFFE' ∉ s.toList ∧ '\uFFFF' ∉ s.toList

instance (s : String) : Decidable (IsReadAsItIs s) := inferInstanceAs (Decidable (_ ∧ _))

theorem IsReadAsItIs.map_patternChar {s : String} (h : IsReadAsItIs s) :
    s.toList.map patternChar = foldCase s := by
  refine List.map_congr_left fun c hc => if_neg ?_
  rintro (rfl | rfl)
  · exact h.1 hc
  · exact h.2 hc

/-- Beside the codes that are replaced, a pattern sees nothing but the case taken away. -/
theorem containsAsPattern_iff {raw s : String} (hraw : IsReadAsItIs raw) (hs : IsReadAsItIs s) :
    containsAsPattern raw s = true ↔ foldCase raw <:+: foldCase s := by
  rw [containsAsPattern, containsRun_iff, hraw.map_patternChar, hs.map_patternChar]

end Text

namespace Bytes

theorem length_ofString (s : String) : (ofString s).length = s.utf8ByteSize := rfl

/-- Every escaped character brings one byte more. -/
theorem length_escaped (cs : List Char) :
    ((cs.flatMap fun c => if c = '%' ∨ c = '_' ∨ c = '\\' then ['\\', c] else [c]).flatMap
        String.utf8EncodeChar).length =
      (cs.flatMap String.utf8EncodeChar).length + cs.countP Text.isEscaped := by
  induction cs with
  | nil => rfl
  | cons c cs ih =>
    rw [List.flatMap_cons, List.flatMap_append, List.length_append, ih, List.flatMap_cons,
      List.length_append, List.countP_cons]
    by_cases h : c = '%' ∨ c = '_' ∨ c = '\\'
    · have hslash : (String.utf8EncodeChar '\\').length = 1 := rfl
      rw [if_pos h, if_pos (by simpa [Text.isEscaped] using h), List.flatMap_cons,
        List.flatMap_singleton, List.length_append, hslash]
      omega
    · rw [if_neg h, if_neg (by simpa [Text.isEscaped] using h), List.flatMap_singleton]
      omega

end Bytes

/-- A pattern has the bytes of the text, one for each escape and two for the wildcards around it. -/
theorem Cell.length_bytes_likePattern (raw : String) :
    (Cell.text (likePattern raw)).bytes.length =
      raw.utf8ByteSize + raw.toList.countP Text.isEscaped + 2 := by
  have hpercent : (String.utf8EncodeChar '%').length = 1 := rfl
  show (Bytes.ofString (String.ofList (likePattern raw).toList)).length = _
  rw [Bytes.ofString_ofList, likePattern, String.toList_ofList, List.flatMap_cons,
    List.flatMap_append, List.flatMap_singleton, List.length_append, List.length_append,
    Bytes.length_escaped, ← Bytes.ofString_eq, Bytes.length_ofString, hpercent]
  omega

/-- The condition of a filter that looks for a text has the pattern for its one parameter. The store
refuses it just where the text, its wildcards and backslashes counted twice, has more than 49998
bytes. On a stored text, neither with a zero character, it is true where the text asked for stands in
it as it is, up to the case of ASCII letters and to the two codes that patterns read as the
replacement character. -/
theorem CheckedPlan.like_condition_contains (f : Field) (raw : String) :
    (filterCondition ⟨f, .like raw⟩).text = f.column ++ " LIKE ? ESCAPE '\\'" ∧
      (filterCondition ⟨f, .like raw⟩).values = [.text (likePattern raw)] ∧
      (((filterCondition ⟨f, .like raw⟩).map Cell.ofParam).hasLongPattern = true ↔
        49998 < raw.utf8ByteSize + raw.toList.countP Text.isEscaped) ∧
      ∀ (value : String → Cell) (s : String), value f.column = .text s →
        '\x00' ∉ raw.toList → '\x00' ∉ s.toList →
          ((filterCondition ⟨f, .like raw⟩).map Cell.ofParam).truth value =
              some (Text.containsAsPattern raw s) ∧
            (Text.IsReadAsItIs raw → Text.IsReadAsItIs s →
              (((filterCondition ⟨f, .like raw⟩).map Cell.ofParam).truth value = some true ↔
                Text.foldCase raw <:+: Text.foldCase s)) := by
  refine ⟨?_, rfl, ?_, ?_⟩
  · show f.column ++ " LIKE " ++ placeholder ++ " ESCAPE '\\'" = _
    rw [String.append_assoc, String.append_assoc]
    rfl
  · show decide (Cell.patternLimit < (Cell.text (likePattern raw)).bytes.length) = true ↔ _
    rw [decide_eq_true_iff, Cell.length_bytes_likePattern, Cell.patternLimit]
    omega
  · intro value s hvalue hraw hs
    have htruth : ((filterCondition ⟨f, .like raw⟩).map Cell.ofParam).truth value =
        some (Text.containsAsPattern raw s) := by
      show (value f.column).like? (.text (likePattern raw)) = _
      rw [hvalue, Cell.like?_likePattern hraw hs]
    refine ⟨htruth, fun hreadRaw hreadS => ?_⟩
    rw [htruth, Option.some_inj, Text.containsAsPattern_iff hreadRaw hreadS]

namespace Labels

def label : Field where
  id := 0
  name := "label"
  column := "label"
  kind := .string
  operators := [.like]
  unique := false
  nullable := true

/-- What the filter asks for has both wildcards, side by side, and a backslash at its end. -/
def asked : String := "50%_\\"

/-- The filter finds the text as it stands, and no text that only fits its wildcards. -/
theorem truth_asked :
    ((CheckedPlan.filterCondition ⟨label, .like asked⟩).map Cell.ofParam).truth
          (fun _ => .text "off 50%50%_\\_") = some true ∧
      ((CheckedPlan.filterCondition ⟨label, .like asked⟩).map Cell.ofParam).truth
          (fun _ => .text "off 50 %x_\\%") ≠ some true := by
  have h := (CheckedPlan.like_condition_contains label asked).2.2.2
  constructor
  · refine ((h _ "off 50%50%_\\_" rfl ?_ ?_).2 ?_ ?_).mpr ?_ <;> decide
  · refine mt ((h _ "off 50 %x_\\%" rfl ?_ ?_).2 ?_ ?_).mp ?_ <;> decide

/-- A label without the replacement character is found by a filter that asks for it. -/
theorem truth_replacement :
    '\x00' ∉ "\uFFFD".toList ∧ '\x00' ∉ "\uFFFF".toList ∧
      ((CheckedPlan.filterCondition ⟨label, .like "\uFFFD"⟩).map Cell.ofParam).truth
          (fun _ => .text "\uFFFF") = some true ∧
      ¬ Text.foldCase "\uFFFD" <:+: Text.foldCase "\uFFFF" := by
  decide +kernel

end Labels

end CatalogQuery
