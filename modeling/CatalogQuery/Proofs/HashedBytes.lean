import CatalogQuery.Proofs.SignedText
import CatalogQuery.Proofs.StatementTemplate
import CatalogQuery.Proofs.TextBytes
/-!
# What is hashed

The byte string behind a fingerprint is read back: the text ends at its first zero byte, and the text
shows how many columns and parameters follow. So queries with plain names and one byte string have the
same statement and the same columns; lengths are those of sixty-four bits.
-/
namespace CatalogQuery

namespace Bytes

theorem Base64Url.encodeText_injective : Function.Injective encodeText := by
  intro a b h
  have hsame := congrArg decode? (String.ofList_injective h)
  rw [decode?_encode, decode?_encode] at hsame
  exact Option.some.inj hsame

/-- Two byte strings of one hash. -/
def Collide (a b : List UInt8) : Prop := a ≠ b ∧ sha256 a = sha256 b

theorem bigEndian_mod_eq {count n m : Nat} (h : bigEndian count n = bigEndian count m) :
    n % Nat.pow 256 count = m % Nat.pow 256 count := by
  induction count with
  | zero => rw [Nat.pow_eq, Nat.pow_zero, Nat.mod_one, Nat.mod_one]
  | succ count ih =>
    rw [bigEndian, bigEndian, List.cons.injEq] at h
    have hhead : n / Nat.pow 256 count % 256 = m / Nat.pow 256 count % 256 := by
      have hbyte := congrArg UInt8.toNat h.1
      rwa [UInt8.toNat_ofNat', UInt8.toNat_ofNat'] at hbyte
    have hstep : Nat.pow 256 (count + 1) = Nat.pow 256 count * 256 := rfl
    rw [hstep, Nat.mod_mul, Nat.mod_mul, ih h.2, hhead]

/-- Eight bytes are enough for a word. -/
theorem bigEndian_eight_inj {n m : Nat} (hn : n < pow2 64) (hm : m < pow2 64)
    (h : bigEndian 8 n = bigEndian 8 m) : n = m := by
  have hsize : Nat.pow 256 8 = pow2 64 := rfl
  have hmod := bigEndian_mod_eq h
  rwa [hsize, Nat.mod_eq_of_lt hn, Nat.mod_eq_of_lt hm] at hmod

theorem zero_not_mem_ofString {s : String} (h : Text.isZeroFree s = true) : 0 ∉ ofString s := by
  rw [Text.isZeroFree, List.all_eq_true] at h
  rw [ofString_eq]
  intro hzero
  obtain ⟨c, hc, hbyte⟩ := List.mem_flatMap.mp hzero
  by_cases hascii : c.toNat < 128
  · rw [utf8EncodeChar_ascii hascii, List.mem_singleton] at hbyte
    have hnat := congrArg UInt8.toNat hbyte
    rw [UInt8.toNat_ofNat', Nat.mod_eq_of_lt (by omega)] at hnat
    have hne := h c hc
    simp only [bne_iff_ne] at hne
    exact hne (Char.toNat_inj.mp hnat.symm)
  · exact absurd (le_of_mem_utf8EncodeChar hascii hbyte) (by decide)

/-- Two parts with a zero byte between them are told apart by the first zero byte. -/
theorem append_zero_inj {a b u v : List UInt8} (ha : 0 ∉ a) (hb : 0 ∉ b)
    (h : a ++ 0 :: u = b ++ 0 :: v) : a = b ∧ u = v := by
  induction a generalizing b with
  | nil =>
    cases b with
    | nil => exact ⟨rfl, List.tail_eq_of_cons_eq h⟩
    | cons y b => exact absurd (List.head_eq_of_cons_eq h ▸ List.mem_cons_self) hb
  | cons x a ih =>
    cases b with
    | nil => exact absurd (List.head_eq_of_cons_eq h ▸ List.mem_cons_self) ha
    | cons y b =>
      rw [List.mem_cons, not_or] at ha hb
      obtain ⟨rfl, hrest⟩ := List.cons.inj h
      obtain ⟨rfl, hend⟩ := ih ha.2 hb.2 hrest
      exact ⟨rfl, hend⟩

section Codes

variable {α : Type} {code : α → List UInt8} {xs ys : List α} {u v : List UInt8}

/-- Codes one after the other are read back as far as both sides go, if none goes on into another one. -/
theorem exists_of_flatMap_append_eq
    (hcode : ∀ x ∈ xs, ∀ y ∈ ys, ∀ u v, code x ++ u = code y ++ v → x = y ∧ u = v)
    (h : xs.flatMap code ++ u = ys.flatMap code ++ v) :
    ∃ zs, (xs = ys ++ zs ∧ zs.flatMap code ++ u = v) ∨ (ys = xs ++ zs ∧ zs.flatMap code ++ v = u) := by
  induction xs generalizing ys with
  | nil => exact ⟨ys, .inr ⟨rfl, h.symm⟩⟩
  | cons x xs ih =>
    cases ys with
    | nil => exact ⟨x :: xs, .inl ⟨rfl, h⟩⟩
    | cons y ys =>
      rw [List.flatMap_cons, List.flatMap_cons, List.append_assoc, List.append_assoc] at h
      obtain ⟨rfl, hrest⟩ := hcode x List.mem_cons_self y List.mem_cons_self _ _ h
      have hcode' : ∀ x ∈ xs, ∀ y ∈ ys, ∀ u v, code x ++ u = code y ++ v → x = y ∧ u = v :=
        fun x hx y hy => hcode x (List.mem_cons_of_mem _ hx) y (List.mem_cons_of_mem _ hy)
      obtain ⟨zs, ⟨rfl, hend⟩ | ⟨rfl, hend⟩⟩ := ih hcode' hrest
      · exact ⟨zs, .inl ⟨rfl, hend⟩⟩
      · exact ⟨zs, .inr ⟨rfl, hend⟩⟩

/-- As many codes on both sides are the same ones. -/
theorem flatMap_append_inj
    (hcode : ∀ x ∈ xs, ∀ y ∈ ys, ∀ u v, code x ++ u = code y ++ v → x = y ∧ u = v)
    (hlength : xs.length = ys.length)
    (h : xs.flatMap code ++ u = ys.flatMap code ++ v) : xs = ys ∧ u = v := by
  obtain ⟨zs, ⟨rfl, hend⟩ | ⟨rfl, hend⟩⟩ := exists_of_flatMap_append_eq hcode h
  · obtain rfl : zs = [] := by simpa using hlength
    exact ⟨List.append_nil ys, hend⟩
  · obtain rfl : zs = [] := by simpa using hlength
    exact ⟨(List.append_nil xs).symm, hend.symm⟩

/-- Codes are also the same ones if what comes after them is told from another code. -/
theorem flatMap_append_inj_of_ends (Ends : List UInt8 → Prop)
    (hcode : ∀ x ∈ xs, ∀ y ∈ ys, ∀ u v, code x ++ u = code y ++ v → x = y ∧ u = v)
    (hxs : ∀ x ∈ xs, ∀ u, ¬ Ends (code x ++ u)) (hys : ∀ y ∈ ys, ∀ v, ¬ Ends (code y ++ v))
    (hu : Ends u) (hv : Ends v)
    (h : xs.flatMap code ++ u = ys.flatMap code ++ v) : xs = ys ∧ u = v := by
  have hnil {zs : List α} {w : List UInt8} (hzs : ∀ z ∈ zs, ∀ u, ¬ Ends (code z ++ u))
      (hends : Ends (zs.flatMap code ++ w)) : zs = [] := by
    cases zs with
    | nil => rfl
    | cons z zs =>
      rw [List.flatMap_cons, List.append_assoc] at hends
      exact absurd hends (hzs z List.mem_cons_self _)
  obtain ⟨zs, ⟨rfl, rfl⟩ | ⟨rfl, rfl⟩⟩ := exists_of_flatMap_append_eq hcode h
  · obtain rfl := hnil (fun z hz => hxs z (List.mem_append_right _ hz)) hv
    exact ⟨List.append_nil ys, rfl⟩
  · obtain rfl := hnil (fun z hz => hys z (List.mem_append_right _ hz)) hu
    exact ⟨(List.append_nil xs).symm, rfl⟩

end Codes

end Bytes

/-- The length of the text is a word. -/
def Text.IsSized (s : String) : Prop := (Bytes.ofString s).length < pow2 64

theorem ValueKind.name_injective : Function.Injective name := by
  intro k l h
  have hsame := congrArg ofName? h
  rw [ofName?_name, ofName?_name] at hsame
  exact Option.some.inj hsame

namespace Fingerprint

theorem lengthPrefixed_append_inj {s t : String} (hs : Text.IsSized s) (ht : Text.IsSized t)
    {u v : List UInt8} (h : lengthPrefixed s ++ u = lengthPrefixed t ++ v) : s = t ∧ u = v := by
  simp only [lengthPrefixed, List.append_assoc] at h
  obtain ⟨hcount, hrest⟩ := List.append_inj h (by simp)
  have hlength := Bytes.bigEndian_eight_inj hs ht hcount
  obtain ⟨hbytes, hend⟩ := List.append_inj hrest hlength
  exact ⟨Bytes.ofString_injective hbytes, hend⟩

theorem columnBytes_append_inj {c d : OutputColumn} (hc : Text.IsSized c.name)
    (hd : Text.IsSized d.name) {u v : List UInt8} (h : columnBytes c ++ u = columnBytes d ++ v) :
    c = d ∧ u = v := by
  have hzero (k : ValueKind) : 0 ∉ Bytes.ofString k.name :=
    Bytes.zero_not_mem_ofString (by cases k <;> decide)
  simp only [columnBytes, List.append_assoc, List.singleton_append] at h
  obtain ⟨hname, hrest⟩ := lengthPrefixed_append_inj hc hd h
  obtain ⟨hkind, hend⟩ := Bytes.append_zero_inj (hzero c.kind) (hzero d.kind) hrest
  cases c
  cases d
  cases hname
  cases ValueKind.name_injective (Bytes.ofString_injective hkind)
  exact ⟨rfl, hend⟩

theorem word_append_inj {a b : UInt64} {u v : List UInt8}
    (h : Bytes.bigEndian 8 a.toNat ++ u = Bytes.bigEndian 8 b.toNat ++ v) : a = b ∧ u = v := by
  obtain ⟨hword, hend⟩ := List.append_inj h (by simp)
  exact ⟨UInt64.toNat_inj.mp (Bytes.bigEndian_eight_inj a.toNat_lt b.toNat_lt hword), hend⟩

/-- A parameter is told by the letter for its type, and so is where its value ends. -/
theorem paramBytes_append_inj {p q : Param} (hp : ∀ s, p = .text s → Text.IsSized s)
    (hq : ∀ s, q = .text s → Text.IsSized s) {u v : List UInt8}
    (h : paramBytes p ++ u = paramBytes q ++ v) : p = q ∧ u = v := by
  cases p with
  | text s =>
    cases q with
    | text t =>
      obtain ⟨rfl, hend⟩ :=
        lengthPrefixed_append_inj (hp s rfl) (hq t rfl) (List.tail_eq_of_cons_eq h)
      exact ⟨rfl, hend⟩
    | integer | real | bool | null => simp [paramBytes] at h
  | integer n =>
    cases q with
    | integer m =>
      obtain ⟨hword, hend⟩ := word_append_inj (List.tail_eq_of_cons_eq h)
      cases n
      cases m
      cases hword
      exact ⟨rfl, hend⟩
    | text | real | bool | null => simp [paramBytes] at h
  | real x =>
    cases q with
    | real y =>
      obtain ⟨hword, hend⟩ := word_append_inj (List.tail_eq_of_cons_eq h)
      cases x
      cases y
      cases hword
      exact ⟨rfl, hend⟩
    | text | integer | bool | null => simp [paramBytes] at h
  | bool a =>
    cases q with
    | bool b =>
      obtain ⟨hbyte, hend⟩ := List.cons.inj (List.tail_eq_of_cons_eq h)
      have hsame : a = b := by
        revert hbyte
        cases a <;> cases b <;> decide
      exact ⟨congrArg Param.bool hsame, hend⟩
    | text | integer | real | null => simp [paramBytes] at h
  | null =>
    cases q with
    | null => exact ⟨rfl, List.tail_eq_of_cons_eq h⟩
    | text | integer | real | bool => simp [paramBytes] at h

end Fingerprint

namespace CompiledQuery

/-- The byte string whose hash is the fingerprint. -/
def hashed (q : CompiledQuery) : List UInt8 := Fingerprint.bytes q.base.text q.base.values q.columns

/-- The texts that are hashed with their lengths have lengths that are words. -/
structure IsSized (q : CompiledQuery) : Prop where
  columns : ∀ c ∈ q.columns, Text.IsSized c.name
  values : ∀ s, .text s ∈ q.base.values → Text.IsSized s

/-- The byte string tells the statement and the columns. -/
theorem base_eq_of_hashed_eq {q q' : CompiledQuery} (hplain : q.base.IsPlain)
    (hplain' : q'.base.IsPlain) (hsized : q.IsSized) (hsized' : q'.IsSized)
    (hcount : q.columns.length = q.base.output.length)
    (hcount' : q'.columns.length = q'.base.output.length) (h : q.hashed = q'.hashed) :
    q.base = q'.base ∧ q.columns = q'.columns := by
  simp only [hashed, Fingerprint.bytes, List.append_assoc, List.singleton_append] at h
  obtain ⟨htext, hrest⟩ := Bytes.append_zero_inj
    (Bytes.zero_not_mem_ofString hplain.isZeroFree_text)
    (Bytes.zero_not_mem_ofString hplain'.isZeroFree_text) h
  have hsame := Bytes.ofString_injective htext
  have houtput := hplain.output_eq_of_text_eq hplain' hsame
  obtain ⟨hcolumns, hparams⟩ := Bytes.flatMap_append_inj
    (fun c hc d hd _ _ => Fingerprint.columnBytes_append_inj (hsized.columns c hc)
      (hsized'.columns d hd)) (by rw [hcount, hcount', houtput]) hrest
  rw [← List.append_nil (List.flatMap _ _), ← List.append_nil (q'.base.values.flatMap _)] at hparams
  obtain ⟨hvalues, -⟩ := Bytes.flatMap_append_inj
    (fun p hp r hr _ _ => Fingerprint.paramBytes_append_inj (fun s hs => hsized.values s (hs ▸ hp))
      (fun s hs => hsized'.values s (hs ▸ hr))) (hplain.length_values_eq hplain' hsame) hparams
  exact ⟨hplain.eq_of_text_eq hplain' hsame hvalues, hcolumns⟩

end CompiledQuery

end CatalogQuery
