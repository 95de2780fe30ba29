import CatalogQuery.Proofs.SharedFingerprints
/-!
# The parts of a fingerprint

What is hashed is read back part by part. The text ends at the first zero byte. A column begins with a
zero byte, because the length of its name is written in eight bytes and the first of them is not
needed; a parameter begins with a letter. So where the columns end is seen from the bytes alone,
whatever stands in the names and texts.
-/
namespace CatalogQuery

namespace Fingerprint

variable {text text' : String} {params params' : List Param} {columns columns' : List OutputColumn}

/-- The text has no zero character and the lengths of the names leave their first byte free. Every text
in memory has a length that is a word. -/
structure IsDecodable (text : String) (params : List Param) (columns : List OutputColumn) : Prop where
  text : Text.isZeroFree text = true
  columns : ∀ c ∈ columns, (Bytes.ofString c.name).length < pow2 56
  params : ∀ s, .text s ∈ params → Text.IsSized s

def ColumnsEnd (bytes : List UInt8) : Prop := bytes.head? ≠ some 0

theorem not_columnsEnd_columnBytes {c : OutputColumn} (hc : (Bytes.ofString c.name).length < pow2 56)
    (u : List UInt8) : ¬ ColumnsEnd (columnBytes c ++ u) := by
  have hfirst : (Bytes.ofString c.name).length / Nat.pow 256 7 = 0 := Nat.div_eq_of_lt hc
  simp [ColumnsEnd, columnBytes, lengthPrefixed, Bytes.bigEndian, hfirst]

/-- A parameter begins with the letter for its type. -/
theorem head?_paramBytes (p : Param) (u : List UInt8) :
    (paramBytes p ++ u).head? ≠ some 0 ∧ paramBytes p ++ u ≠ [] := by
  cases p <;> simp [paramBytes]

theorem columnsEnd_params (params : List Param) : ColumnsEnd (params.flatMap paramBytes) := by
  cases params with
  | nil => nofun
  | cons p params =>
    rw [List.flatMap_cons]
    exact (head?_paramBytes p _).1

/-- The byte string tells the text, the columns and the parameters. -/
theorem parts_eq_of_bytes_eq (h : IsDecodable text params columns)
    (h' : IsDecodable text' params' columns')
    (hbytes : bytes text params columns = bytes text' params' columns') :
    text = text' ∧ columns = columns' ∧ params = params' := by
  have hword : pow2 56 ≤ pow2 64 := by decide
  simp only [bytes, List.append_assoc, List.singleton_append] at hbytes
  obtain ⟨htext, hrest⟩ := Bytes.append_zero_inj (Bytes.zero_not_mem_ofString h.text)
    (Bytes.zero_not_mem_ofString h'.text) hbytes
  obtain ⟨hcolumns, hparams⟩ := Bytes.flatMap_append_inj_of_ends ColumnsEnd
    (fun c hc d hd _ _ => columnBytes_append_inj ((h.columns c hc).trans_le hword)
      ((h'.columns d hd).trans_le hword))
    (fun c hc => not_columnsEnd_columnBytes (h.columns c hc))
    (fun d hd => not_columnsEnd_columnBytes (h'.columns d hd))
    (columnsEnd_params params) (columnsEnd_params params') hrest
  rw [← List.append_nil (params.flatMap _), ← List.append_nil (params'.flatMap _)] at hparams
  obtain ⟨hvalues, -⟩ := Bytes.flatMap_append_inj_of_ends (· = [])
    (fun p hp q hq _ _ => paramBytes_append_inj (fun s hs => h.params s (hs ▸ hp))
      (fun s hs => h'.params s (hs ▸ hq)))
    (fun p _ u => (head?_paramBytes p u).2) (fun q _ v => (head?_paramBytes q v).2) rfl rfl hparams
  exact ⟨Bytes.ofString_injective htext, hcolumns, hvalues⟩

/-- Two byte strings are the same just when the texts, the columns and the parameters are, and two
fingerprints are just when these are or the byte strings collide. The text of a compiled query has no
zero character. -/
theorem bytes_tell_parts (h : IsDecodable text params columns)
    (h' : IsDecodable text' params' columns') :
    (bytes text params columns = bytes text' params' columns' ↔
        text = text' ∧ columns = columns' ∧ params = params') ∧
      (of text params columns = of text' params' columns' ↔
        (text = text' ∧ columns = columns' ∧ params = params') ∨
          Bytes.Collide (bytes text params columns) (bytes text' params' columns')) ∧
      ∀ (source : String) (d : CatalogDefinition) (g : UInt64) (c : Catalog) (policy : LimitPolicy)
        (plan : Plan) (p : CheckedPlan), Catalog.ofDefinition source d g = .ok c →
        plan.check c policy = .ok p → Text.isZeroFree (p.compile c.generation).base.text = true := by
  have hiff : bytes text params columns = bytes text' params' columns' ↔
      text = text' ∧ columns = columns' ∧ params = params' := by
    constructor
    · exact parts_eq_of_bytes_eq h h'
    · rintro ⟨rfl, rfl, rfl⟩
      rfl
  refine ⟨hiff, ?_, fun source d g c policy plan p hc hp => ?_⟩
  · rw [← hiff]
    constructor
    · intro hof
      have hhash := Bytes.Base64Url.encodeText_injective hof
      by_cases hsame : bytes text params columns = bytes text' params' columns'
      · exact .inl hsame
      · exact .inr ⟨hsame, hhash⟩
    · rintro (hsame | hcollide)
      · rw [of, of, hsame]
      · rw [of, of, hcollide.2]
  · exact ((Plan.isAccepted_of_check hc hp).1.base_isPlain c.generation).isZeroFree_text

end Fingerprint

namespace SharedBooks

/-- A column whose name has a zero character, and parameters of every type. -/
def shownParts : List Param × List OutputColumn :=
  ([.text "\u0000t", .integer (-1), .real .nan, .bool true, .null], [⟨"id\u0000number", .number⟩])

/-- The same characters and values in other places. -/
def movedParts : List Param × List OutputColumn :=
  ([.text "t\u0000", .real .nan, .integer (-1), .bool true, .null],
    [⟨"id", .number⟩, ⟨"number", .number⟩])

theorem bytes_tell_moved :
    Fingerprint.bytes ((checked book true).compile 1).base.text shownParts.1 shownParts.2 ≠
        Fingerprint.bytes ((checked book true).compile 1).base.text movedParts.1 movedParts.2 ∧
      Text.isZeroFree ((checked book true).compile 1).base.text = true := by
  have hshown : Fingerprint.IsDecodable ((checked book true).compile 1).base.text shownParts.1
      shownParts.2 := ⟨by decide, by decide, by simp [shownParts, Text.IsSized]; decide⟩
  have hmoved : Fingerprint.IsDecodable ((checked book true).compile 1).base.text movedParts.1
      movedParts.2 := ⟨by decide, by decide, by simp [movedParts, Text.IsSized]; decide⟩
  obtain ⟨hbytes, -, htext⟩ := Fingerprint.bytes_tell_parts hshown hmoved
  have hcolumns : shownParts.2 ≠ movedParts.2 := by decide
  exact ⟨fun h => hcolumns (hbytes.mp h).2.1,
    htext "books" definition 1 catalog {} (plan book) (checked book true) ofDefinition_definition
      check_book⟩

end SharedBooks

end CatalogQuery
