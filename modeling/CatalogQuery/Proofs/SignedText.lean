import CatalogQuery.Page.Token
/-!
# Signed texts

A token falls back into the texts it was made of: base64 has no points in it, so the last two points
are those between header, payload and signature.
-/
namespace CatalogQuery

namespace Bytes.Base64Url

theorem symbol_ne_point (n : Nat) : symbol n ≠ '.' := by
  by_cases hn : n < 64
  · have hall : ∀ m < 64, symbol m ≠ '.' := by decide
    exact hall n hn
  · have hlast : symbol n = '_' := by
      simp [symbol, show ¬ n < 26 by omega, show ¬ n < 52 by omega, show ¬ n < 62 by omega,
        show n ≠ 62 by omega]
    rw [hlast]
    decide

theorem point_not_mem_encode : ∀ bs : List UInt8, '.' ∉ encode bs
  | [] => List.not_mem_nil
  | [_] | [_, _] => by simp [encode, Ne.symm (symbol_ne_point _)]
  | _ :: _ :: _ :: rest => by
    simpa [encode, Ne.symm (symbol_ne_point _)] using point_not_mem_encode rest

theorem value?_symbol {n : Nat} (hn : n < 64) : value? (symbol n) = some n := by
  have hall : ∀ m < 64, value? (symbol m) = some m := by decide
  exact hall n hn

theorem decode?_encode : ∀ bs : List UInt8, decode? (encode bs) = some bs
  | [] => rfl
  | [a] => by
    have ha := a.toNat_lt
    have hjoin : a.toNat * 16 / 64 * 64 + a.toNat * 16 % 64 = a.toNat * 16 := by omega
    have hrest : a.toNat * 16 % 16 = 0 := by omega
    have hbyte : a.toNat * 16 / 16 = a.toNat := by omega
    rw [encode, decode?, value?_symbol (by omega), value?_symbol (by omega)]
    simp only [Option.bind_eq_bind, Option.bind_some]
    rw [hjoin, if_pos hrest, hbyte, UInt8.ofNat_toNat]
  | [a, b] => by
    have ha := a.toNat_lt
    have hb := b.toNat_lt
    obtain ⟨n, hn⟩ : ∃ n, (a.toNat * 256 + b.toNat) * 4 = n := ⟨_, rfl⟩
    have hjoin : (n / 4096 * 64 + n / 64 % 64) * 64 + n % 64 = n := by omega
    have hrest : n % 4 = 0 := by omega
    have hfirst : n / 1024 = a.toNat := by omega
    have hsecond : n / 4 % 256 = b.toNat := by omega
    simp only [encode, hn]
    rw [decode?, value?_symbol (by omega), value?_symbol (by omega), value?_symbol (by omega)]
    simp only [Option.bind_eq_bind, Option.bind_some]
    rw [hjoin, if_pos hrest, hfirst, hsecond, UInt8.ofNat_toNat, UInt8.ofNat_toNat]
  | a :: b :: c :: rest => by
    have ha := a.toNat_lt
    have hb := b.toNat_lt
    have hc := c.toNat_lt
    obtain ⟨n, hn⟩ : ∃ n, (a.toNat * 256 + b.toNat) * 256 + c.toNat = n := ⟨_, rfl⟩
    have hjoin : ((n / 262144 * 64 + n / 4096 % 64) * 64 + n / 64 % 64) * 64 + n % 64 = n := by omega
    have hfirst : n / 65536 = a.toNat := by omega
    have hsecond : n / 256 % 256 = b.toNat := by omega
    have hthird : n % 256 = c.toNat := by omega
    simp only [encode, hn]
    rw [decode?, value?_symbol (by omega), value?_symbol (by omega), value?_symbol (by omega),
      value?_symbol (by omega), decode?_encode rest]
    simp only [Option.bind_eq_bind, Option.bind_some]
    rw [hjoin, hfirst, hsecond, hthird, UInt8.ofNat_toNat, UInt8.ofNat_toNat, UInt8.ofNat_toNat]

end Bytes.Base64Url

namespace Token

open Bytes.Base64Url

theorem splitLast_append (front : List Char) {last : List Char} (h : '.' ∉ last) :
    splitLast (front ++ '.' :: last) = some (front, last) := by
  have hlast : ∀ c ∈ last.reverse, (c != '.') = true := by
    intro c hc
    simp only [bne_iff_ne]
    rintro rfl
    exact h (List.mem_reverse.mp hc)
  have hreverse : (front ++ '.' :: last).reverse = last.reverse ++ '.' :: front.reverse := by simp
  rw [splitLast, hreverse, List.takeWhile_append_of_pos hlast, List.dropWhile_append_of_pos hlast]
  simp

theorem point_not_mem_signature (secret : String) (message : List Char) :
    '.' ∉ signature secret message :=
  point_not_mem_encode _

theorem parts?_append (front : List Char) {back code : List Char} (hback : '.' ∉ back)
    (hcode : '.' ∉ code) :
    parts? (String.ofList (front ++ '.' :: back ++ '.' :: code)) =
      some (front ++ '.' :: back, front, back, code) := by
  rw [parts?, String.toList_ofList, splitLast_append _ hcode]
  simp only [Option.bind_eq_bind, Option.bind_some, splitLast_append _ hback]

/-- A token of two texts, the first of which is a header, is opened with its own secret for the claims
in the second. -/
theorem open?_ofTexts_eq (secret : String) {header payload : String}
    (hheader : isHeader (Bytes.ofString header) = true) :
    open? secret (ofTexts secret header payload) = claims? (Bytes.ofString payload) := by
  rw [open?, ofTexts, parts?_append _ (point_not_mem_encode _) (point_not_mem_signature _ _)]
  simp only [Option.bind_eq_bind, Option.bind_some, decode?_encode, hheader, beq_self_eq_true,
    Bool.and_self, if_true]

/-- A token of two texts is opened with its own secret if its header and its payload can be read. -/
theorem open?_ofTexts (secret : String) {header payload : String} {claims : PageClaims}
    (hheader : isHeader (Bytes.ofString header) = true)
    (hpayload : claims? (Bytes.ofString payload) = some claims) :
    open? secret (ofTexts secret header payload) = some claims :=
  (open?_ofTexts_eq secret hheader).trans hpayload

end Token

end CatalogQuery
