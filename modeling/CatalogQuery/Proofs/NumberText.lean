import CatalogQuery.Json.Tree
import CatalogQuery.Number.Layout
/-!
# The texts of numbers

A number in a JSON text is spelled as a literal, and the reader of JSON finds the same literal there,
up to its last digit and no further. So what is read is what the literal stands for: an integer of
sixty-four bits is found again, and a floating-point number comes out of its shortest decimal in two
roundings.
-/
namespace CatalogQuery

namespace Number

/-- A number is over where neither a digit nor a point nor the letter of an exponent follows. -/
def EndsNumber (rest : List Char) : Prop :=
  ∀ c ∈ rest.head?, isDigit c = false ∧ c ≠ '.' ∧ c ≠ 'e' ∧ c ≠ 'E'

namespace Literal

def body (l : Literal) : List Char :=
  l.whole ++ ((l.fraction.elim [] ('.' :: ·)) ++
    l.exponent.elim [] fun e => 'e' :: (if e.1 then '-' else '+') :: e.2)

def text (l : Literal) : List Char := if l.negative then '-' :: l.body else l.body

/-- The lists hold digits, at least one each, and no digit stands before a whole part after a zero. -/
structure IsSpelled (l : Literal) : Prop where
  whole : l.whole = ['0'] ∨ ∃ c cs, l.whole = c :: cs ∧ c ≠ '0' ∧ ∀ d ∈ l.whole, isDigit d = true
  fraction : ∀ ds, l.fraction = some ds → ds ≠ [] ∧ ∀ d ∈ ds, isDigit d = true
  exponent : ∀ e, l.exponent = some e → e.2 ≠ [] ∧ ∀ d ∈ e.2, isDigit d = true

end Literal

theorem EndsNumber.nil : EndsNumber [] := by simp [EndsNumber]

theorem isDigit_of_mem_digits {n : Nat} {c : Char} (h : c ∈ digits n) : isDigit c = true :=
  Nat.isDigit_of_mem_toDigits (by decide) (by decide) h

theorem ascii_of_isDigit {c : Char} (h : isDigit c = true) : c.toNat < 128 := by
  have hle : c.toNat ≤ 57 := by
    rw [isDigit, Char.isDigit, Bool.and_eq_true, decide_eq_true_eq, decide_eq_true_eq] at h
    exact h.2
  omega

theorem isDigit_of_mem_zero : ∀ c ∈ ['0'], isDigit c = true := List.forall_mem_singleton.mpr rfl

theorem Literal.ascii_body {l : Literal} (hl : l.IsSpelled) : ∀ c ∈ l.body, c.toNat < 128 := by
  have hwhole : ∀ c ∈ l.whole, isDigit c = true := by
    rcases hl.whole with hzero | ⟨_, _, _, _, hds⟩
    · rw [hzero]
      exact isDigit_of_mem_zero
    · exact hds
  intro c hc
  rw [Literal.body, List.mem_append, List.mem_append] at hc
  rcases hc with hc | hc | hc
  · exact ascii_of_isDigit (hwhole c hc)
  · cases hfraction : l.fraction with
    | none => simp [hfraction] at hc
    | some ds =>
      rw [hfraction, Option.elim_some, List.mem_cons] at hc
      rcases hc with rfl | hc
      · decide
      · exact ascii_of_isDigit ((hl.fraction ds hfraction).2 c hc)
  · cases hexponent : l.exponent with
    | none => simp [hexponent] at hc
    | some e =>
      rw [hexponent, Option.elim_some, List.mem_cons, List.mem_cons] at hc
      rcases hc with rfl | rfl | hc
      · decide
      · split <;> decide
      · exact ascii_of_isDigit ((hl.exponent e hexponent).2 c hc)

theorem digits_ne_nil (n : Nat) : digits n ≠ [] := Nat.toDigits_ne_nil

/-- No number but zero begins with a zero. -/
theorem digits_eq_cons {n : Nat} (h : 0 < n) : ∃ c cs, digits n = c :: cs ∧ c ≠ '0' := by
  induction n using Nat.strongRecOn with
  | _ n ih =>
    rw [digits, Nat.toDigits_eq_if (by decide)]
    split
    next hn =>
      refine ⟨n.digitChar, [], rfl, ?_⟩
      rw [Ne, Nat.digitChar_eq_zero]
      omega
    next hn =>
      obtain ⟨c, cs, hdigits, hc⟩ := ih (n / 10) (by omega) (by omega)
      rw [digits] at hdigits
      exact ⟨c, cs ++ [(n % 10).digitChar], by rw [hdigits, List.cons_append], hc⟩

def Literal.ofInt (n : Int) : Literal := ⟨n < 0, digits n.natAbs, none, none⟩

theorem Literal.text_ofInt (n : Int) : (ofInt n).text = intText n := by
  simp only [text, ofInt, body, intText, Option.elim_none, List.append_nil, decide_eq_true_eq]

theorem Literal.isSpelled_ofInt (n : Int) : (ofInt n).IsSpelled where
  whole := by
    rcases Nat.eq_zero_or_pos n.natAbs with hzero | hpos
    · exact .inl (by rw [ofInt, hzero]; rfl)
    · obtain ⟨c, cs, hdigits, hc⟩ := digits_eq_cons hpos
      exact .inr ⟨c, cs, hdigits, hc, fun d hd => isDigit_of_mem_digits hd⟩
  fraction := by simp [ofInt]
  exponent := by simp [ofInt]

/-- Integers of sixty-four bits, with a sign or without, stand for themselves. -/
theorem Literal.value?_ofInt {n : Int} (hlow : minInt64 ≤ n) (hhigh : n < pow2 64) :
    (ofInt n).value? = some (.integer n) := by
  rw [minInt64] at hlow
  simp only [value?, ofInt, Option.isNone_none, and_self, if_true, ofDigits_digits,
    decide_eq_true_eq, significandLimit]
  split
  next hneg =>
    rw [if_pos ⟨by omega, by simp only [Nat.pow_eq]; omega⟩]
    congr 2
    omega
  next hpos =>
    rw [if_pos (by omega)]
    congr 2
    omega

/-- The digits of a decimal are digits, and begin with another than zero. -/
def Decimal.IsSpelled (d : Decimal) : Prop :=
  ∃ c cs, d.digits = c :: cs ∧ c ≠ '0' ∧ ∀ d' ∈ d.digits, isDigit d' = true

theorem isSpelled_ofGrid {n : Nat} (h : 0 < n) (e : Int) : (Decimal.ofGrid n e).IsSpelled := by
  obtain ⟨c, cs, hdigits, hc⟩ := digits_eq_cons h
  have hlast : ((digits n).reverse.dropWhile (· == '0')).reverse =
      c :: (cs.reverse.dropWhile (· == '0')).reverse := by
    rw [hdigits, List.reverse_cons, List.dropWhile_append]
    split
    next hempty =>
      rw [List.isEmpty_iff] at hempty
      simp [hempty, hc]
    next => rw [List.reverse_append, List.reverse_singleton, List.singleton_append]
  refine ⟨c, (cs.reverse.dropWhile (· == '0')).reverse, hlast, hc, fun d hd => ?_⟩
  have hmem : d ∈ digits n := by
    exact List.mem_reverse.mp ((List.dropWhile_sublist _).mem (List.mem_reverse.mp hd))
  exact isDigit_of_mem_digits hmem

def Literal.ofDecimal (negative : Bool) (d : Decimal) : Literal :=
  if Layout.json.above < d.point ∧ d.point ≤ Layout.json.upTo then
    if d.point ≤ 0 then
      ⟨negative, ['0'], some (List.replicate (-d.point).toNat '0' ++ d.digits), none⟩
    else
      let n := d.point.toNat
      let fraction := d.digits.drop n
      ⟨negative, d.digits.take n ++ List.replicate (n - d.digits.length) '0',
        some (if fraction.isEmpty then ['0'] else fraction), none⟩
  else
    let fraction := d.digits.drop 1
    ⟨negative, d.digits.take 1, if fraction.isEmpty then none else some fraction,
      some (d.point - 1 < 0, digits (d.point - 1).natAbs)⟩

theorem Literal.body_ofDecimal (negative : Bool) (d : Decimal) :
    (ofDecimal negative d).body = Layout.json.spell d := by
  have hexponent (n : Nat) : paddedDigits Layout.json.exponentDigits n = digits n := by
    have hpos : 0 < digitCount n := Nat.length_toDigits_pos
    rw [paddedDigits, Layout.json, Nat.sub_eq_zero_of_le hpos]
    rfl
  rw [ofDecimal, Layout.spell]
  split
  next =>
    rw [positional]
    split <;> simp [body]
  next =>
    rw [exponential]
    simp only [hexponent, body]
    cases hrest : d.digits.drop 1 <;> simp [Layout.json]

theorem Literal.isSpelled_ofDecimal (negative : Bool) {d : Decimal} (hd : d.IsSpelled) :
    (ofDecimal negative d).IsSpelled := by
  obtain ⟨c, cs, hdigits, hc, hall⟩ := hd
  have hzeros (n : Nat) : ∀ d ∈ List.replicate n '0', isDigit d = true := by
    intro d hd
    rw [List.eq_of_mem_replicate hd]
    decide
  rw [ofDecimal]
  split
  next =>
    split
    next =>
      refine ⟨.inl rfl, ?_, by simp⟩
      rintro ds ⟨⟩
      refine ⟨by simp [hdigits], fun d hd => ?_⟩
      exact (List.mem_append.mp hd).elim (hzeros _ d) (hall d)
    next hpoint =>
      obtain ⟨n, hn⟩ : ∃ n, d.point.toNat = n + 1 := ⟨d.point.toNat - 1, by omega⟩
      refine ⟨.inr ⟨c, cs.take n ++ List.replicate (d.point.toNat - d.digits.length) '0', ?_, hc, ?_⟩,
        ?_, by simp⟩
      · simp [hdigits, hn]
      · intro d hd
        exact (List.mem_append.mp hd).elim (fun h => hall d (List.mem_of_mem_take h)) (hzeros _ d)
      · rintro ds ⟨⟩
        split
        next => exact ⟨by simp, isDigit_of_mem_zero⟩
        next hne =>
          exact ⟨by simpa using hne, fun d hd => hall d (List.mem_of_mem_drop hd)⟩
  next =>
    refine ⟨.inr ⟨c, [], by simp [hdigits], hc, fun d hd => hall d (List.mem_of_mem_take hd)⟩, ?_, ?_⟩
    · intro ds hds
      simp only at hds
      split at hds
      next => cases hds
      next hne =>
        cases hds
        exact ⟨by simpa using hne, fun d hd => hall d (List.mem_of_mem_drop hd)⟩
    · rintro e ⟨⟩
      exact ⟨digits_ne_nil _, fun d hd => isDigit_of_mem_digits hd⟩

theorem significand_pos {x : Binary64} (h : x.isZero = false) : 0 < x.significand := by
  have hbits : x.magnitudeBits ≠ 0 := by simpa [Binary64.isZero] using h
  rw [Binary64.significand]
  split
  next hfield =>
    rw [Binary64.exponentField, Nat.div_eq_zero_iff] at hfield
    have hlt : x.magnitudeBits < pow2 52 := hfield.resolve_left (by decide)
    rw [Nat.mod_eq_of_lt hlt]
    omega
  next => exact Nat.add_pos_left (by decide) _

/-- The interval of a number other than zero is above zero. -/
theorem RoundingInterval.low_pos {x : Binary64} (h : x.isZero = false) :
    0 < (RoundingInterval.of x).low := by
  have hunit : 0 < pow2 x.unitExponent := Nat.pow_pos (by decide)
  have hvalue : pow2 x.unitExponent ≤ x.scaledMagnitude :=
    Nat.le_mul_of_pos_left _ (significand_pos h)
  simp only [RoundingInterval.of]
  split <;> omega

theorem RoundingInterval.value_pos {x : Binary64} (h : x.isZero = false) :
    0 < (RoundingInterval.of x).value :=
  Nat.lt_of_lt_of_le (low_pos h) (Nat.sub_le _ _)

theorem RoundingInterval.not_holds_zero {x : Binary64} (h : x.isZero = false) {den : Nat}
    (hden : 0 < den) : (RoundingInterval.of x).holds 0 den = false := by
  have hlow := Nat.mul_pos (low_pos h) hden
  rw [holds]
  split
  next => simp only [Nat.le_zero_eq, Bool.and_eq_false_imp, decide_eq_true_eq]; omega
  next => simp only [Nat.not_lt_zero, decide_false, Bool.false_and]

/-- What is found on a grid lies in the interval. -/
theorem holds_of_nearestOnGrid? {i : RoundingInterval} {e : Int} {n : Nat}
    (h : nearestOnGrid? i e = some n) : i.holds (gridPoint n e).1 (gridPoint n e).2 = true := by
  simp only [nearestOnGrid?] at h
  split at h
  next hbelow habove =>
    split at h
    next =>
      cases h
      exact hbelow
    next =>
      cases h
      exact habove
  next hbelow _ =>
    cases h
    exact hbelow
  next _ habove =>
    cases h
    exact habove
  next => cases h

/-- Zero is not in the interval of another number. -/
theorem pos_of_nearestOnGrid? {x : Binary64} (h : x.isZero = false) {e : Int} {n : Nat}
    (hn : nearestOnGrid? (.of x) e = some n) : 0 < n := by
  refine Nat.pos_of_ne_zero ?_
  rintro rfl
  have hholds := holds_of_nearestOnGrid? hn
  have hzero : (gridPoint 0 e).1 = 0 ∧ 0 < (gridPoint 0 e).2 := by
    rw [gridPoint]
    split
    next => simp
    next => exact ⟨Nat.zero_mul _, Nat.pow_pos (by decide)⟩
  rw [hzero.1, RoundingInterval.not_holds_zero h hzero.2] at hholds
  cases hholds

/-- The digits of a number other than zero spell a positive number. -/
theorem isSpelled_shortestFrom {x : Binary64} (h : x.isZero = false) (e : Int) (count : Nat) :
    (shortestFrom (.of x) e count).IsSpelled := by
  induction count generalizing e with
  | zero =>
    apply isSpelled_ofGrid
    rw [overPower]
    split
    next => exact RoundingInterval.value_pos h
    next => exact Nat.mul_pos (RoundingInterval.value_pos h) (Nat.pow_pos (by decide))
  | succ count ih =>
    rw [shortestFrom]
    split
    next n hn => exact isSpelled_ofGrid (pos_of_nearestOnGrid? h hn) e
    next => exact ih (e - 1)

/-- The literal of a floating-point number in a JSON text. -/
def Literal.ofReal (x : Binary64) : Literal :=
  if x.isZero then ⟨x.isNegative, ['0'], some ['0'], none⟩
  else ofDecimal x.isNegative (shortest x)

theorem Literal.negative_ofReal (x : Binary64) : (ofReal x).negative = x.isNegative := by
  rw [ofReal]
  split
  next => rfl
  next =>
    rw [ofDecimal]
    split
    next => split <;> rfl
    next => rfl

theorem Literal.text_ofReal (x : Binary64) : (ofReal x).text = jsonText x := by
  have hbody : (ofReal x).body =
      if x.isZero then ['0', '.', '0'] else Layout.json.spell (shortest x) := by
    rw [ofReal]
    split
    next => rfl
    next => rw [body_ofDecimal]
  rw [text, negative_ofReal, jsonText, hbody]

theorem Literal.isSpelled_ofReal (x : Binary64) : (ofReal x).IsSpelled := by
  rw [ofReal]
  split
  next =>
    refine ⟨.inl rfl, ?_, by simp⟩
    rintro ds ⟨⟩
    exact ⟨by simp, isDigit_of_mem_zero⟩
  next h => exact isSpelled_ofDecimal _ (isSpelled_shortestFrom (by simpa using h) _ _)

/-- A floating-point number is never spelled as an integer. -/
theorem Literal.value?_ofReal (x : Binary64) : (ofReal x).value? = (ofReal x).real?.map .real := by
  have hpoint : ¬ ((ofReal x).fraction.isNone = true ∧ (ofReal x).exponent.isNone = true) := by
    rw [ofReal]
    split
    next => simp
    next =>
      rw [ofDecimal]
      split
      next => split <;> simp
      next => simp
  rw [value?, if_neg hpoint]

end Number

/-- What the text of a number is read as. Only finite numbers have one. -/
def Binary64.reread? (x : Binary64) : Option Binary64 :=
  if x.isFinite then (Number.Literal.ofReal x).real? else none

namespace Json

open Number

theorem spanDigits_append {ds rest : List Char} (hds : ∀ d ∈ ds, isDigit d = true)
    (hrest : ∀ c ∈ rest.head?, isDigit c = false) : spanDigits (ds ++ rest) = (ds, rest) := by
  rw [spanDigits, List.takeWhile_append_of_pos hds, List.dropWhile_append_of_pos hds]
  cases rest with
  | nil => simp
  | cons c rest =>
    have hc : isDigit c = false := hrest c rfl
    simp [hc]

theorem readWhole_append {l : Literal} (hl : l.IsSpelled) {rest : List Char}
    (hrest : ∀ c ∈ rest.head?, isDigit c = false) :
    readWhole (l.whole ++ rest) = some (l.whole, rest) := by
  rcases hl.whole with hzero | ⟨c, cs, hwhole, hc, hds⟩
  · rw [readWhole, spanDigits_append (by simp [hzero]; decide) hrest, hzero]
    rfl
  · rw [readWhole, spanDigits_append hds hrest, hwhole]
    split
    next h => cases h
    next h => exact absurd (by simpa using congrArg (·.1.head?) h) hc
    next => rfl

theorem readFraction_append {l : Literal} (hl : l.IsSpelled) {rest : List Char}
    (hrest : ∀ c ∈ rest.head?, isDigit c = false ∧ c ≠ '.') :
    readFraction (l.fraction.elim [] ('.' :: ·) ++ rest) = some (l.fraction, rest) := by
  cases hfraction : l.fraction with
  | none =>
    rw [Option.elim_none, List.nil_append]
    cases rest with
    | nil => rfl
    | cons c rest =>
      rw [readFraction]
      rintro _ h
      exact (hrest c rfl).2 (List.cons.inj h).1
  | some ds =>
    obtain ⟨hne, hds⟩ := hl.fraction ds hfraction
    rw [Option.elim_some, List.cons_append, readFraction,
      spanDigits_append hds fun c hc => (hrest c hc).1]
    cases ds with
    | nil => exact absurd rfl hne
    | cons => rfl

theorem readExponent_append {l : Literal} (hl : l.IsSpelled) {rest : List Char}
    (hrest : EndsNumber rest) :
    readExponent (l.exponent.elim [] (fun e => 'e' :: (if e.1 then '-' else '+') :: e.2) ++ rest) =
      some (l.exponent, rest) := by
  cases hexponent : l.exponent with
  | none =>
    rw [Option.elim_none, List.nil_append]
    cases rest with
    | nil => rfl
    | cons c rest =>
      obtain ⟨-, -, he, hE⟩ := hrest c rfl
      unfold readExponent
      simp only
      rw [if_neg (by simp [he, hE])]
  | some e =>
    obtain ⟨hne, hds⟩ := hl.exponent e hexponent
    obtain ⟨negative, ds⟩ := e
    have hspan := spanDigits_append hds fun c hc => (hrest c hc).1
    cases ds with
    | nil => exact absurd rfl hne
    | cons d ds =>
      cases negative
      all_goals
        simp only [Option.elim_some, List.cons_append, readExponent]
        rw [if_pos (by simp)]
        simp only [if_true, if_false, Bool.false_eq_true]
        rw [← List.cons_append, hspan]

/-- The literal is read as it was written. -/
theorem readNumber_body {l : Literal} (hl : l.IsSpelled) {rest : List Char}
    (hrest : EndsNumber rest) : readNumber l.negative (l.body ++ rest) = some (l, rest) := by
  have hexponent : ∀ c ∈ (l.exponent.elim []
      (fun e => 'e' :: (if e.1 then '-' else '+') :: e.2) ++ rest).head?,
      isDigit c = false ∧ c ≠ '.' := by
    cases l.exponent with
    | none => exact fun c hc => ⟨(hrest c hc).1, (hrest c hc).2.1⟩
    | some e => simp; decide
  have hfraction : ∀ c ∈ (l.fraction.elim [] ('.' :: ·) ++ (l.exponent.elim []
      (fun e => 'e' :: (if e.1 then '-' else '+') :: e.2) ++ rest)).head?, isDigit c = false := by
    cases l.fraction with
    | none => exact fun c hc => (hexponent c hc).1
    | some ds => simp; decide
  rw [Literal.body, List.append_assoc, List.append_assoc, readNumber, readWhole_append hl hfraction]
  simp only
  rw [readFraction_append hl hexponent]
  simp only
  rw [readExponent_append hl hrest]

end Json

end CatalogQuery
