import CatalogQuery.Statement.Param
import CatalogQuery.Store.Pattern
import CatalogQuery.Text.Ascii
import Mathlib.Data.List.TakeWhile
/-!
# Patterns made from a text

The pattern made from a text matches exactly the texts that contain it, where small and capital
ASCII letters are the same, and where the two last codes of the basic plane are the same as the
replacement character.
-/
namespace CatalogQuery

namespace Text

theorem containsRun_iff (sub text : List Char) : containsRun sub text = true ↔ sub <:+: text := by
  induction text with
  | nil => simp [containsRun]
  | cons c rest ih =>
    rw [containsRun, Bool.or_eq_true, ih, List.isPrefixOf_iff_prefix, List.infix_cons_iff]

/-- The character as a pattern sees it. -/
def patternChar (c : Char) : Char :=
  if c = '\uFFFE' ∨ c = '\uFFFF' then '\uFFFD' else c.toLower

/-- A text contains another as a run of characters, as a pattern sees them. -/
def containsAsPattern (sub text : String) : Bool :=
  containsRun (sub.toList.map patternChar) (text.toList.map patternChar)

end Text

namespace Pattern

theorem anySuffix_iff {α : Type} {test : List α → Bool} {cs : List α} :
    anySuffix test cs = true ↔ ∃ suffix, suffix <:+ cs ∧ test suffix = true := by
  induction cs with
  | nil => simp [anySuffix]
  | cons c rest ih =>
    rw [anySuffix, Bool.or_eq_true, ih]
    constructor
    · rintro (h | ⟨s, hs, h⟩)
      · exact ⟨c :: rest, List.suffix_refl _, h⟩
      · exact ⟨s, hs.trans (List.suffix_cons _ _), h⟩
    · rintro ⟨s, hs, h⟩
      rcases List.suffix_cons_iff.mp hs with rfl | hs
      · exact .inl h
      · exact .inr ⟨s, hs, h⟩

theorem toNat_toLower (c : Char) : c.toLower.toNat = fold c.toNat := by
  have hcond : (c.val ≥ 'A'.val ∧ c.val ≤ 'Z'.val) ↔ (0x41 ≤ c.toNat ∧ c.toNat ≤ 0x5A) := by
    rw [ge_iff_le, UInt32.le_iff_toNat_le, UInt32.le_iff_toNat_le]
    rfl
  unfold Char.toLower fold
  split
  next h =>
    have hc := hcond.mp h
    rw [if_pos hc]
    show (c.val + ('a'.val - 'A'.val)).toNat = c.toNat + 0x20
    rw [UInt32.toNat_add]
    show (c.toNat + 0x20) % 2 ^ 32 = c.toNat + 0x20
    omega
  next h => rw [if_neg (mt hcond.mpr h)]

/-- The code of a character with the case of ASCII letters taken away. -/
def foldChar (c : Char) : Nat := fold (ofChar c)

theorem foldChar_eq_toNat (c : Char) : foldChar c = (Text.patternChar c).toNat := by
  by_cases h : c = '\uFFFE' ∨ c = '\uFFFF'
  · rcases h with rfl | rfl <;> decide
  · have hc : ¬ (c.toNat = 0xFFFE ∨ c.toNat = 0xFFFF) := by
      rintro (hn | hn)
      · exact h (.inl (Char.toNat_inj.mp hn))
      · exact h (.inr (Char.toNat_inj.mp hn))
    rw [foldChar, ofChar, if_neg hc, Text.patternChar, if_neg h, toNat_toLower]

theorem map_foldChar (s : List Char) :
    s.map foldChar = (s.map Text.patternChar).map Char.toNat := by
  rw [List.map_map]
  exact List.map_congr_left fun c _ => foldChar_eq_toNat c

/-- The code of a character below the codes that are replaced is its own. -/
theorem ofChar_ne {c : Char} {code : Nat} (hcode : code < replacement) (h : c.toNat ≠ code) :
    ofChar c ≠ code := by
  rw [ofChar]
  split
  · omega
  · exact h

theorem upToZero_map_ofChar {cs : List Char} (h : '\x00' ∉ cs) :
    upToZero (cs.map ofChar) = cs.map ofChar := by
  rw [upToZero, List.takeWhile_eq_self_iff]
  intro n hn
  obtain ⟨c, hc, rfl⟩ := List.mem_map.mp hn
  have hzero : c.toNat ≠ 0 := by
    intro h0
    exact h (Char.toNat_inj.mp (h0.trans (by rfl : (0 : Nat) = '\x00'.toNat)) ▸ hc)
  simpa using ofChar_ne (by decide) hzero

/-- The codes of a character in a pattern made from a text. -/
def escapedCodes (c : Char) : List Nat :=
  (if c = '%' ∨ c = '_' ∨ c = '\\' then ['\\', c] else [c]).map ofChar

/-- An escaped character takes a code that is its own up to case. -/
theorem isMatch_escapedCodes (c : Char) (pattern cs : List Nat) :
    isMatch (escapedCodes c ++ pattern) cs =
      match cs with
      | [] => false
      | n :: rest => foldChar c == fold n && isMatch pattern rest := by
  by_cases h : c = '%' ∨ c = '_' ∨ c = '\\'
  · rw [escapedCodes, if_pos h]
    rfl
  · have hne {d : Char} (hd : d.toNat < replacement) (hcd : c ≠ d) : ofChar c ≠ d.toNat :=
      ofChar_ne hd fun hn => hcd (Char.toNat_inj.mp hn)
    have h25 : ofChar c ≠ 0x25 := hne (d := '%') (by decide) (fun hc => h (.inl hc))
    have h5F : ofChar c ≠ 0x5F := hne (d := '_') (by decide) (fun hc => h (.inr (.inl hc)))
    have h5C : ofChar c ≠ 0x5C := hne (d := '\\') (by decide) (fun hc => h (.inr (.inr hc)))
    rw [escapedCodes, if_neg h]
    show isMatch (ofChar c :: pattern) cs = _
    cases cs with
    | nil => simp [isMatch, h5C]
    | cons n rest => simp [isMatch, foldChar, h5C]

theorem isMatch_percent (cs : List Nat) : isMatch [0x25] cs = true := by
  rw [isMatch, anySuffix_iff]
  exact ⟨[], List.nil_suffix, rfl⟩

/-- An escaped text with a wildcard behind it matches what begins with the text. -/
theorem isMatch_escaped_iff (s : List Char) (cs : List Nat) :
    isMatch (s.flatMap escapedCodes ++ [0x25]) cs = true ↔ s.map foldChar <+: cs.map fold := by
  induction s generalizing cs with
  | nil => simp [isMatch_percent]
  | cons c s ih =>
    rw [List.flatMap_cons, List.append_assoc, List.map_cons]
    rw [isMatch_escapedCodes]
    cases cs with
    | nil => simp
    | cons n rest =>
      rw [List.map_cons, List.cons_prefix_cons, Bool.and_eq_true, ih, beq_iff_eq]

theorem map_fold_map_ofChar (s : List Char) : (s.map ofChar).map fold = s.map foldChar :=
  List.map_map

theorem infix_map_foldChar_iff (s text : List Char) :
    s.map foldChar <:+: text.map foldChar ↔
      s.map Text.patternChar <:+: text.map Text.patternChar := by
  rw [map_foldChar, map_foldChar]
  constructor
  · intro h
    obtain ⟨l, hl, heq⟩ := List.infix_map_iff.mp h
    rw [List.map_inj_right fun a b => Char.toNat_inj.mp] at heq
    exact heq ▸ hl
  · exact fun h => h.map Char.toNat

theorem codes_likePattern (s : String) :
    (Cell.text (likePattern s)).codes = 0x25 :: (s.toList.flatMap escapedCodes ++ [0x25]) := by
  rw [Cell.codes, Cell.chars, likePattern, String.toList_ofList, List.map_cons, List.map_append,
    List.map_flatMap]
  · rfl
  · simp

/-- No code of the pattern made from a text is zero if the text has no zero. -/
theorem upToZero_codes_likePattern {s : String} (h : '\x00' ∉ s.toList) :
    upToZero (Cell.text (likePattern s)).codes = (Cell.text (likePattern s)).codes := by
  rw [Cell.codes]
  · apply upToZero_map_ofChar
    rw [Cell.chars, likePattern, String.toList_ofList]
    intro hmem
    rcases List.mem_cons.mp hmem with hc | hmem
    · exact absurd hc (by decide)
    · rcases List.mem_append.mp hmem with hmem | hmem
      · obtain ⟨c, hc, hzero⟩ := List.mem_flatMap.mp hmem
        split at hzero
        · simp only [List.mem_cons, List.not_mem_nil, or_false] at hzero
          rcases hzero with hzero | hzero
          · exact absurd hzero (by decide)
          · exact h (hzero ▸ hc)
        · exact h (List.mem_singleton.mp hzero ▸ hc)
      · exact absurd (List.mem_singleton.mp hmem) (by decide)
  · simp

end Pattern

/-- The pattern made from a text matches a text exactly if it contains that text. -/
theorem Cell.like?_likePattern {raw s : String} (hraw : '\x00' ∉ raw.toList)
    (hs : '\x00' ∉ s.toList) :
    (Cell.text s).like? (.text (likePattern raw)) = some (Text.containsAsPattern raw s) := by
  rw [like?, if_neg (by simp [isNull]), Pattern.upToZero_codes_likePattern hraw,
    Pattern.codes_likePattern, codes, chars, Pattern.upToZero_map_ofChar hs, Option.some_inj]
  · apply Bool.eq_iff_iff.mpr
    rw [Pattern.isMatch, Pattern.anySuffix_iff, Text.containsAsPattern, Text.containsRun_iff,
      ← Pattern.infix_map_foldChar_iff, ← Pattern.map_fold_map_ofChar s.toList,
      List.infix_iff_prefix_suffix]
    constructor
    · rintro ⟨t, ht, hmatch⟩
      exact ⟨t.map Pattern.fold, (Pattern.isMatch_escaped_iff _ _).mp hmatch, ht.map _⟩
    · rintro ⟨t, hprefix, ht⟩
      obtain ⟨u, hu, rfl⟩ := List.suffix_map_iff.mp ht
      exact ⟨u, hu, (Pattern.isMatch_escaped_iff _ _).mpr hprefix⟩
  · simp

end CatalogQuery
