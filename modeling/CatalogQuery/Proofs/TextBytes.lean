import CatalogQuery.Bytes.Basic
import Mathlib.Data.List.Basic
/-!
# The bytes of texts

A text is what its bytes spell. A reader that goes by bytes takes each of them as the character of
its number, which for ASCII is the character itself; the bytes of every other character have numbers
of their own above those.
-/
namespace CatalogQuery.Bytes

/-- Each byte as the character of its number. -/
def asChars (bs : List UInt8) : List Char := bs.map fun b => Char.ofNat b.toNat

/-- The characters of a text as a reader of its bytes meets them. -/
def charsOf (cs : List Char) : List Char := asChars (cs.flatMap String.utf8EncodeChar)

theorem ofString_ofList (cs : List Char) :
    ofString (String.ofList cs) = cs.flatMap String.utf8EncodeChar := by
  rw [ofString, String.toUTF8, String.toByteArray_ofList, List.utf8Encode]
  simp

theorem ofString_eq (s : String) : ofString s = s.toList.flatMap String.utf8EncodeChar := by
  rw [← ofString_ofList, String.ofList_toList]

/-- A text is found again from its bytes. -/
theorem toString?_ofString (s : String) : toString? (ofString s) = some s := by
  have hbytes : (⟨(ofString s).toArray⟩ : ByteArray) = s.toByteArray := by
    rw [ofString, String.toUTF8]
  rw [toString?, hbytes, String.fromUTF8?, dif_pos s.isValidUTF8]
  rfl

theorem ofString_injective : Function.Injective ofString := by
  intro s t h
  have hsame := congrArg toString? h
  rw [toString?_ofString, toString?_ofString] at hsame
  exact Option.some.inj hsame

theorem utf8EncodeChar_ascii {c : Char} (h : c.toNat < 128) :
    String.utf8EncodeChar c = [UInt8.ofNat c.toNat] := by
  have hval : c.val.toNat ≤ 127 := Nat.le_of_lt_succ h
  simp only [String.utf8EncodeChar, if_pos hval]
  rfl

/-- The bytes of a character beyond ASCII are beyond ASCII. -/
theorem le_of_mem_utf8EncodeChar {c : Char} (h : ¬ c.toNat < 128) {b : UInt8}
    (hb : b ∈ String.utf8EncodeChar c) : 128 ≤ b.toNat := by
  have hval : ¬ c.val.toNat ≤ 127 := by
    simp only [Char.toNat] at h
    omega
  simp only [String.utf8EncodeChar, if_neg hval] at hb
  split at hb
  · simp only [List.mem_cons, List.not_mem_nil, or_false] at hb
    rcases hb with rfl | rfl <;> rw [UInt8.toNat_ofNat'] <;> omega
  · split at hb
    · simp only [List.mem_cons, List.not_mem_nil, or_false] at hb
      rcases hb with rfl | rfl | rfl <;> rw [UInt8.toNat_ofNat'] <;> omega
    · simp only [List.mem_cons, List.not_mem_nil, or_false] at hb
      rcases hb with rfl | rfl | rfl | rfl <;> rw [UInt8.toNat_ofNat'] <;> omega

theorem toNat_ofNat_byte (b : UInt8) : (Char.ofNat b.toNat).toNat = b.toNat := by
  have hall : ∀ n < 256, (Char.ofNat n).toNat = n := by decide +kernel
  exact hall b.toNat b.toNat_lt

@[simp] theorem charsOf_nil : charsOf [] = [] := rfl

theorem charsOf_append (cs ds : List Char) : charsOf (cs ++ ds) = charsOf cs ++ charsOf ds := by
  simp [charsOf, asChars]

theorem charsOf_cons (c : Char) (cs : List Char) :
    charsOf (c :: cs) = asChars (String.utf8EncodeChar c) ++ charsOf cs := by
  simp [charsOf, asChars]

theorem charsOf_cons_ascii {c : Char} (h : c.toNat < 128) (cs : List Char) :
    charsOf (c :: cs) = c :: charsOf cs := by
  have hbyte : (UInt8.ofNat c.toNat).toNat = c.toNat := by
    rw [UInt8.toNat_ofNat', Nat.mod_eq_of_lt (by omega)]
  rw [charsOf_cons, utf8EncodeChar_ascii h, asChars, List.map_singleton, hbyte, Char.ofNat_toNat]
  rfl

/-- A reader of bytes meets ASCII as it is. -/
theorem charsOf_ascii {cs : List Char} (h : ∀ c ∈ cs, c.toNat < 128) : charsOf cs = cs := by
  induction cs with
  | nil => rfl
  | cons c cs ih =>
    rw [List.forall_mem_cons] at h
    rw [charsOf_cons_ascii h.1, ih h.2]

end CatalogQuery.Bytes
