import CatalogQuery.Json.Printer
import CatalogQuery.Json.Tree
import CatalogQuery.Proofs.TextBytes
/-!
# Quoted texts

A text that was put in quotes is read up to its closing quote and no further, and gives the text
again: what is escaped is put back, and no byte of another character is a quote, a backslash or a
control character.
-/
namespace CatalogQuery.Json

open Bytes

/-- A code unit that is no half of a pair stands for a code point. -/
theorem joinPieces_unit {n : Nat} (hhigh : isHighSurrogate n = false)
    (hlow : isLowSurrogate n = false) (ps : List Piece) :
    joinPieces (.unit n :: ps) = (joinPieces ps).map (pointBytes n ++ ·) := by
  cases ps with
  | nil => simp [joinPieces, hhigh, hlow]
  | cons p ps => cases p <;> simp [joinPieces, hhigh, hlow]

/-- Bytes that are neither quotes nor backslashes nor control characters are taken as they are. -/
theorem readPieces_bytes {bs : List UInt8} (h : ∀ b ∈ bs, 32 ≤ b.toNat ∧ b ≠ 34 ∧ b ≠ 92)
    {rest after : List Char} {ps : List Piece} (hrest : readPieces rest = some (ps, after)) :
    readPieces (asChars bs ++ rest) =
      some (bs.map (fun b => .char (Char.ofNat b.toNat)) ++ ps, after) := by
  induction bs with
  | nil => exact hrest
  | cons b bs ih =>
    rw [List.forall_mem_cons] at h
    obtain ⟨⟨hlow, hquote, hslash⟩, hbs⟩ := h
    have hall : ∀ n < 256, 32 ≤ n ∧ n ≠ 34 ∧ n ≠ 92 →
        Char.ofNat n ≠ '"' ∧ Char.ofNat n ≠ '\\' ∧ ¬ Char.ofNat n < ' ' := by decide +kernel
    obtain ⟨hq, hs, hl⟩ := hall b.toNat b.toNat_lt
      ⟨hlow, fun h => hquote (UInt8.toNat_inj.mp h), fun h => hslash (UInt8.toNat_inj.mp h)⟩
    rw [asChars, List.map_cons, List.cons_append]
    rw [readPieces]
    · rw [if_neg (by simp [hs, hl])]
      have hread := ih hbs
      rw [asChars] at hread
      rw [hread]
      rfl
    · exact hq
    · intros; exact hs ‹_›
    · intros; exact hs ‹_›

theorem joinPieces_bytes (bs : List UInt8) (ps : List Piece) :
    joinPieces (bs.map (fun b => .char (Char.ofNat b.toNat)) ++ ps) =
      (joinPieces ps).map (bs ++ ·) := by
  induction bs with
  | nil => cases h : joinPieces ps <;> simp [h, Except.map]
  | cons b bs ih =>
    rw [List.map_cons, List.cons_append, joinPieces, ih, toNat_ofNat_byte, UInt8.ofNat_toNat]
    cases joinPieces ps <;> rfl

/-- A letter after a backslash is the one that the character has. -/
theorem unescapeLetter?_of_escapeLetter? {c e : Char} (h : escapeLetter? c = some e) :
    unescapeLetter? e = some c ∧ e ≠ 'u' ∧ c.toNat < 128 ∧ e.toNat < 128 := by
  unfold escapeLetter? at h
  repeat' split at h
  all_goals cases h
  all_goals
    subst c
    decide

theorem readPieces_letter {c e : Char} (h : unescapeLetter? e = some c) (hu : e ≠ 'u')
    (rest : List Char) : readPieces ('\\' :: e :: rest) =
      (readPieces rest).map fun p => (.char c :: p.1, p.2) := by
  rw [readPieces]
  · rw [h]
  · rintro _ _ _ _ _ rfl
    exact absurd rfl hu

/-- A control character is spelled by its code point in hexadecimal. -/
theorem readPieces_control {c : Char} (h : c < ' ') (rest : List Char) :
    readPieces ('\\' :: 'u' :: '0' :: '0' :: Text.hexDigit (c.toNat / 16) ::
        Text.hexDigit (c.toNat % 16) :: rest) =
      (readPieces rest).map fun p => (.unit c.toNat :: p.1, p.2) := by
  have hall : ∀ n < 32,
      hexUnit? '0' '0' (Text.hexDigit (n / 16)) (Text.hexDigit (n % 16)) = some n := by decide
  rw [readPieces, hall c.toNat h]

/-- What needs no backslash is a byte that does not end the text. -/
theorem byte_of_escapeLetter? {c : Char} (hascii : c.toNat < 128) (hprint : ¬ c < ' ')
    (h : escapeLetter? c = none) :
    32 ≤ (UInt8.ofNat c.toNat).toNat ∧ UInt8.ofNat c.toNat ≠ 34 ∧ UInt8.ofNat c.toNat ≠ 92 := by
  have hall : ∀ n < 128, ¬ Char.ofNat n < ' ' ∧ escapeLetter? (Char.ofNat n) = none →
      32 ≤ (UInt8.ofNat n).toNat ∧ UInt8.ofNat n ≠ 34 ∧ UInt8.ofNat n ≠ 92 := by decide +kernel
  exact hall c.toNat hascii (by rw [Char.ofNat_toNat]; exact ⟨hprint, h⟩)

/-- The pieces of a quoted character, which give its bytes. -/
theorem readPieces_escapeChar (c : Char) {rest after : List Char} {ps : List Piece}
    (hrest : readPieces rest = some (ps, after)) :
    ∃ qs, readPieces (charsOf (escapeChar c) ++ rest) = some (qs ++ ps, after) ∧
      joinPieces (qs ++ ps) = (joinPieces ps).map (String.utf8EncodeChar c ++ ·) := by
  have hall : ∀ n < 32, (Text.hexDigit (n / 16)).toNat < 128 ∧ (Text.hexDigit (n % 16)).toNat < 128 ∧
      isHighSurrogate n = false ∧ isLowSurrogate n = false := by decide
  rw [escapeChar]
  split
  next e he =>
    obtain ⟨hletter, hu, hc, he⟩ := unescapeLetter?_of_escapeLetter? he
    refine ⟨[.char c], ?_, ?_⟩
    · rw [charsOf_ascii (by simp [he]), List.cons_append, List.singleton_append,
        readPieces_letter hletter hu, hrest]
      rfl
    · rw [utf8EncodeChar_ascii hc]
      rfl
  next hnone =>
    split
    next hcontrol =>
      obtain ⟨hfirst, hsecond, hhigh, hlow⟩ := hall c.toNat hcontrol
      refine ⟨[.unit c.toNat], ?_, ?_⟩
      · rw [charsOf_ascii (by simp [hfirst, hsecond])]
        exact (readPieces_control hcontrol rest).trans (by rw [hrest]; rfl)
      · have hbytes : pointBytes c.toNat = String.utf8EncodeChar c := by
          rw [pointBytes, ofString_eq, Char.ofNat_toNat, String.toList_singleton,
            List.flatMap_singleton]
        rw [List.singleton_append, joinPieces_unit hhigh hlow, hbytes]
    next hprint =>
      refine ⟨(String.utf8EncodeChar c).map fun b => .char (Char.ofNat b.toNat), ?_,
        joinPieces_bytes _ ps⟩
      rw [charsOf_cons, charsOf_nil, List.append_nil]
      apply readPieces_bytes _ hrest
      intro b hb
      by_cases hc : c.toNat < 128
      · rw [utf8EncodeChar_ascii hc, List.mem_singleton] at hb
        subst hb
        exact byte_of_escapeLetter? hc hprint hnone
      · have hle := le_of_mem_utf8EncodeChar hc hb
        refine ⟨Nat.le_trans (by decide) hle, ?_, ?_⟩
        all_goals
          rintro rfl
          exact absurd hle (by decide)

/-- The pieces of a quoted text, which give its bytes. -/
theorem readPieces_escaped (cs : List Char) (rest : List Char) :
    ∃ ps, readPieces (charsOf (cs.flatMap escapeChar ++ ['"']) ++ rest) = some (ps, rest) ∧
      joinPieces ps = .ok (cs.flatMap String.utf8EncodeChar) := by
  induction cs with
  | nil => exact ⟨[], rfl, rfl⟩
  | cons c cs ih =>
    obtain ⟨ps, hread, hjoin⟩ := ih
    obtain ⟨qs, hread', hjoin'⟩ := readPieces_escapeChar c hread
    refine ⟨qs ++ ps, ?_, ?_⟩
    · rw [List.flatMap_cons, List.append_assoc, charsOf_append, List.append_assoc, hread']
    · rw [hjoin', hjoin]
      rfl

theorem charsOf_quote (s : String) :
    charsOf (quote s) = '"' :: charsOf (s.toList.flatMap escapeChar ++ ['"']) :=
  charsOf_cons_ascii (by decide) _

/-- A quoted text is read as the text, and what follows it is left. -/
theorem readPieces_quote (s : String) (rest : List Char) :
    ∃ ps, readPieces (charsOf (s.toList.flatMap escapeChar ++ ['"']) ++ rest) = some (ps, rest) ∧
      textTree ps = .str (some s) ∧ keyOf? ps = some s := by
  obtain ⟨ps, hread, hjoin⟩ := readPieces_escaped s.toList rest
  rw [← ofString_eq] at hjoin
  refine ⟨ps, hread, ?_, ?_⟩
  · simp only [textTree, hjoin, toString?_ofString]
  · simp only [keyOf?, hjoin, Except.toOption, Option.bind_some, toString?_ofString]

end CatalogQuery.Json
