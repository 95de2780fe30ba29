import CatalogQuery.Proofs.TimestampText
import CatalogQuery.Time.Spelling
/-!
# Spelled instants

What is common to the instants that any spelling gives: they are a time of day on a date, both of
which exist, moved by an offset of whole minutes where one is written. So a leap second comes at the
end of a minute only.
-/
namespace CatalogQuery

namespace Number

theorem ofDigitChars_lt {cs : List Char} (hcs : ∀ c ∈ cs, isDigit c = true) {n width : Nat}
    (hn : n < 10 ^ width) : Nat.ofDigitChars 10 cs n < 10 ^ (width + cs.length) := by
  induction cs generalizing n width with
  | nil => exact hn
  | cons c cs ih =>
    have hdigit : c.toNat - '0'.toNat < 10 := by
      have hc : isDigit c = true := hcs c List.mem_cons_self
      rw [isDigit, Char.isDigit, Bool.and_eq_true, decide_eq_true_eq, decide_eq_true_eq] at hc
      have hle : c.toNat ≤ 57 := hc.2
      have hzero : '0'.toNat = 48 := rfl
      omega
    have hstep : 10 * n + (c.toNat - '0'.toNat) < 10 ^ (width + 1) := by
      rw [Nat.pow_succ]
      omega
    rw [Nat.ofDigitChars_cons, List.length_cons, Nat.add_comm cs.length 1, ← Nat.add_assoc]
    exact ih (fun d hd => hcs d (List.mem_cons_of_mem c hd)) hstep

end Number

namespace Time

theorem exactDigits_lt {count n : Nat} {cs rest : List Char}
    (h : exactDigits count cs = some (n, rest)) : n < 10 ^ count := by
  rw [exactDigits] at h
  split at h
  next hds =>
    cases h
    have hone : 0 < 10 ^ 0 := Nat.one_pos
    have hlt := Number.ofDigitChars_lt (fun c hc => List.all_eq_true.mp hds.2 c hc) hone
    rwa [hds.1, Nat.zero_add] at hlt
  next => cases h

theorem fractionNanos_lt {cs rest : List Char} {nanos : Nat}
    (h : fractionNanos cs = some (nanos, rest)) : nanos < nanosPerSecond := by
  rw [fractionNanos.eq_def] at h
  split at h
  next cs =>
    dsimp only at h
    split at h
    next => cases h
    next =>
      cases h
      have hdigits : ∀ c ∈ (cs.takeWhile Number.isDigit).take 9, Number.isDigit c = true :=
        fun c hc => List.all_eq_true.mp List.all_takeWhile c (List.mem_of_mem_take hc)
      have hlength : ((cs.takeWhile Number.isDigit).take 9).length ≤ 9 := List.length_take_le _ _
      generalize (cs.takeWhile Number.isDigit).take 9 = ds at hdigits hlength ⊢
      have hlt : Number.ofDigits ds < 10 ^ (0 + ds.length) :=
        Number.ofDigitChars_lt hdigits (by decide)
      calc Number.ofDigits ds * pow10 (9 - ds.length)
          < 10 ^ ds.length * 10 ^ (9 - ds.length) := by
            rw [Nat.zero_add] at hlt
            exact Nat.mul_lt_mul_of_pos_right hlt (Nat.pow_pos (by decide))
        _ = nanosPerSecond := by
            rw [← Nat.pow_add, Nat.add_sub_cancel' hlength]
            rfl
  next =>
    cases h
    decide

/-- An offset is a number of minutes, less than those of a day, to one side or the other. -/
theorem exists_minutes_of_offsetSeconds {cs rest : List Char} {offset : Int}
    (h : offsetSeconds cs = some (offset, rest)) :
    ∃ minutes : Nat, minutes < 1440 ∧ (offset = minutes * 60 ∨ offset = -(minutes * 60)) := by
  cases cs with
  | nil => cases h
  | cons c cs =>
    rw [offsetSeconds] at h
    split at h
    · cases h
      exact ⟨0, by decide, .inl rfl⟩
    · split at h
      · simp only [Option.bind_eq_bind, Option.bind_eq_some_iff] at h
        obtain ⟨⟨hours, _⟩, -, _, -, ⟨minutes, _⟩, -, h⟩ := h
        dsimp only at h
        split at h
        · cases h
          refine ⟨hours * 60 + minutes, by omega, ?_⟩
          split
          · exact .inl (by omega)
          · exact .inr (by omega)
        · cases h
      · cases h

theorem offsetSeconds_emod {cs rest : List Char} {offset : Int}
    (h : offsetSeconds cs = some (offset, rest)) : offset % 60 = 0 := by
  obtain ⟨minutes, -, rfl | rfl⟩ := exists_minutes_of_offsetSeconds h <;> omega

theorem offsetSeconds_lt {cs rest : List Char} {offset : Int}
    (h : offsetSeconds cs = some (offset, rest)) : offset.natAbs < 86400 := by
  obtain ⟨minutes, hlt, rfl | rfl⟩ := exists_minutes_of_offsetSeconds h <;> omega

namespace Timestamp

theorem isCivil_ofCivil (d : Date) (hour minute second : Nat) {nanos : Nat}
    (h : nanos < nanosPerSecond) : (ofCivil d hour minute second nanos).IsCivil := by
  rw [ofCivil, IsCivil]
  split
  · intro _
    rw [secondsPerDay]
    dsimp only
    omega
  · intro hleap
    exact absurd hleap (Nat.not_le.mpr h)

theorem isCivil_of_assemble? {d : Date} {hour minute second nanos : Nat} {t : Timestamp}
    (h : assemble? d hour minute second nanos = some t) (hnanos : nanos < nanosPerSecond) :
    t.IsCivil := by
  rw [assemble?] at h
  split at h
  · cases h
    exact isCivil_ofCivil d hour minute second hnanos
  · cases h

/-- What a spelling gives: a time of day on a date, or one with a fraction and an offset, whose date
then has a year of four digits. -/
inductive IsAssembled (t : Timestamp) : Prop
  | whole {d : Date} {hour minute second : Nat} (h : assemble? d hour minute second 0 = some t)
  | offset {d : Date} {hour minute second nanos : Nat} {u : Timestamp} {offset : Int}
      (h : assemble? d hour minute second nanos = some u) (hnanos : nanos < nanosPerSecond)
      (hyear : 0 ≤ d.year ∧ d.year ≤ 9999) (hminutes : offset % 60 = 0)
      (hday : offset.natAbs < 86400) (heq : t = { u with seconds := u.seconds - offset })

theorem isAssembled_of_offsetDateTime? {cs : List Char} {t : Timestamp}
    (h : offsetDateTime? cs = some t) : t.IsAssembled := by
  rw [offsetDateTime?] at h
  obtain ⟨⟨year, _⟩, hyear, h⟩ := Option.bind_eq_some_iff.mp h
  obtain ⟨_, -, h⟩ := Option.bind_eq_some_iff.mp h
  -- A number and the character after it, from the month to the minute.
  iterate 4
    obtain ⟨⟨_, _⟩, -, h⟩ := Option.bind_eq_some_iff.mp h
    obtain ⟨_, -, h⟩ := Option.bind_eq_some_iff.mp h
  obtain ⟨⟨second, _⟩, -, h⟩ := Option.bind_eq_some_iff.mp h
  obtain ⟨⟨nanos, _⟩, hnanos, h⟩ := Option.bind_eq_some_iff.mp h
  obtain ⟨⟨offset, _⟩, hoffset, h⟩ := Option.bind_eq_some_iff.mp h
  dsimp only at h
  split at h
  · obtain ⟨u, hu, h⟩ := Option.bind_eq_some_iff.mp h
    have hdigits := exactDigits_lt hyear
    exact .offset hu (fractionNanos_lt hnanos) (by dsimp only; omega) (offsetSeconds_emod hoffset)
      (offsetSeconds_lt hoffset) (Option.some.inj h).symm
  · cases h

theorem isAssembled_of_looseDateTime? {between : List Char → Option (List Char)} {cs : List Char}
    {t : Timestamp} (h : looseDateTime? between cs = some t) : t.IsAssembled := by
  simp only [looseDateTime?, Option.bind_eq_bind, Option.bind_eq_some_iff] at h
  obtain ⟨⟨d, _⟩, -, _, -, ⟨hour, _⟩, -, _, -, ⟨minute, _⟩, -, _, -, ⟨second, _⟩, -, h⟩ := h
  split at h
  · exact .whole h
  · cases h

theorem isAssembled_of_dateOnly? {cs : List Char} {t : Timestamp} (h : dateOnly? cs = some t) :
    t.IsAssembled := by
  simp only [dateOnly?, Option.bind_eq_bind, Option.bind_eq_some_iff] at h
  obtain ⟨⟨d, _⟩, -, h⟩ := h
  split at h
  · exact .whole h
  · cases h

theorem isAssembled_of_parse? {s : String} {t : Timestamp} (h : parse? s = some t) :
    t.IsAssembled := by
  rw [parse?, ofChars?] at h
  simp only [Option.orElse_eq_some] at h
  rcases h with h | ⟨-, h | ⟨-, h | ⟨-, h⟩⟩⟩
  · exact isAssembled_of_offsetDateTime? h
  · exact isAssembled_of_looseDateTime? h
  · exact isAssembled_of_looseDateTime? h
  · exact isAssembled_of_dateOnly? h

/-- Every spelled instant is one of the civil calendar, with a leap second at the end of a minute
only. -/
theorem isCivil_of_parse? {s : String} {t : Timestamp} (h : parse? s = some t) : t.IsCivil := by
  cases isAssembled_of_parse? h with
  | whole h => exact isCivil_of_assemble? h (by decide)
  | offset h hnanos _ hminutes _ heq =>
    have hcivil := isCivil_of_assemble? h hnanos
    subst heq
    intro hleap
    have hlast := hcivil hleap
    dsimp only
    omega

end Timestamp

end Time

end CatalogQuery
