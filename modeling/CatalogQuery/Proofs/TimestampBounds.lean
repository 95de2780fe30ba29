import CatalogQuery.Proofs.AcceptedRange
import CatalogQuery.Proofs.PlanVerdict
import CatalogQuery.Proofs.Selection
import CatalogQuery.Proofs.TimestampReading
/-!
# Timestamp bounds

The bounds of filters and time ranges are bound as the texts of their instants. On a column of texts
of whole seconds such a bound selects by instant, but for two losses: a fraction of a second is not
written, and the text of a year after 9999 comes before the texts it should follow.
-/
namespace CatalogQuery

namespace Time.Timestamp

/-- A whole second of the years from 0 to 9999, whose text a column may hold. A leap second counts
as a whole one. -/
structure IsStored (t : Timestamp) : Prop where
  plainYear : t.HasPlainYear
  civil : t.IsCivil
  whole : t.wholeSecond = t

/-- When a comparison with the bound `t` answers on the text of the stored second `r` as it does on
the instants. A bound that is cut to `r` is not told from it, which matters where equality does; a
bound after the year 9999 is taken to come first. -/
def IsExactAt (t r : Timestamp) : Comparison → Prop
  | .eq | .neq => t.wholeSecond = r → t = r
  | .gt | .lte => t.date.year ≤ 9999
  | .gte | .lt => t.date.year ≤ 9999 ∧ (t.wholeSecond = r → t = r)

variable {r t : Timestamp}

/-- How the text of a bound stands to that of a stored second: it comes before it after the year
9999, is the same within the second, and stands to it as the instants do everywhere else. -/
theorem compare_text_cases (hr : r.IsStored) (ht : t.IsCivil) :
    (9999 < t.date.year ∧ t.wholeSecond ≠ r ∧ compare r.text t.text = .gt ∧ r.order t = .lt) ∨
      (t.date.year ≤ 9999 ∧ t.wholeSecond ≠ r ∧ compare r.text t.text = r.order t) ∨
      (t.date.year ≤ 9999 ∧ t.wholeSecond = r ∧ compare r.text t.text = .eq ∧
        r.order t = if t = r then .eq else .lt) := by
  have hplain := hr.plainYear
  have hyear (h : t.wholeSecond = r) : r.date.year = t.date.year := by
    rw [← h]
    rfl
  by_cases hlate : 9999 < t.date.year
  · refine .inl ⟨hlate, fun h => ?_, compare_text_of_not_hasPlainYear hplain fun h => ?_,
      order_of_year_lt (lt_of_le_of_lt hplain.2 hlate)⟩
    · exact absurd (hyear h ▸ hplain.2) (Int.not_le.mpr hlate)
    · exact absurd h.2 (Int.not_le.mpr hlate)
  by_cases hearly : t.date.year < 0
  · refine .inr (.inl ⟨Int.not_lt.mp hlate, fun h => ?_, ?_⟩)
    · exact absurd (hyear h ▸ hplain.1) (Int.not_le.mpr hearly)
    · rw [order_of_year_gt (lt_of_lt_of_le hearly hplain.1)]
      exact compare_text_of_not_hasPlainYear hplain fun h => absurd h.1 (Int.not_le.mpr hearly)
  have htext := compare_text hplain ⟨Int.not_lt.mp hearly, Int.not_lt.mp hlate⟩ hr.civil ht
  rw [hr.whole] at htext
  have horder := order_of_wholeSecond_eq hr.whole t
  by_cases hcut : t.wholeSecond = r
  · rw [if_pos hcut] at horder
    rw [hcut, order_eq_eq.mpr rfl] at htext
    exact .inr (.inr ⟨Int.not_lt.mp hlate, hcut, htext, horder⟩)
  · rw [if_neg hcut] at horder
    exact .inr (.inl ⟨Int.not_lt.mp hlate, hcut, htext.trans horder.symm⟩)

theorem holds_compare_text_iff (hr : r.IsStored) (ht : t.IsCivil) (op : Comparison) :
    op.holds (compare r.text t.text) = op.holds (r.order t) ↔ t.IsExactAt r op := by
  rcases compare_text_cases hr ht with
    ⟨hlate, hcut, htext, horder⟩ | ⟨hyear, hcut, htext⟩ | ⟨hyear, hcut, htext, horder⟩
  · have hnot : ¬ t.date.year ≤ 9999 := Int.not_le.mpr hlate
    rw [htext, horder]
    cases op with
    | eq | neq => exact iff_of_true rfl fun h => absurd h hcut
    | gt | lte => exact iff_of_false (by decide) hnot
    | gte | lt => exact iff_of_false (by decide) fun h => hnot h.1
  · rw [htext]
    cases op with
    | eq | neq => exact iff_of_true rfl fun h => absurd h hcut
    | gt | lte => exact iff_of_true rfl hyear
    | gte | lt => exact iff_of_true rfl ⟨hyear, fun h => absurd h hcut⟩
  · rw [htext, horder]
    by_cases heq : t = r
    · rw [if_pos heq]
      cases op with
      | eq | neq => exact iff_of_true rfl fun _ => heq
      | gt | lte => exact iff_of_true rfl hyear
      | gte | lt => exact iff_of_true rfl ⟨hyear, fun _ => heq⟩
    · rw [if_neg heq]
      cases op with
      | eq | neq => exact iff_of_false (by decide) fun h => heq (h hcut)
      | gt | lte => exact iff_of_true (by decide) hyear
      | gte | lt => exact iff_of_false (by decide) fun h => heq (h.2 hcut)

theorem compare_text_eq_iff (hr : r.IsStored) (ht : t.IsCivil) :
    compare r.text t.text = .eq ↔ t.wholeSecond = r := by
  rcases compare_text_cases hr ht with ⟨-, hcut, htext, -⟩ | ⟨-, hcut, htext⟩ | ⟨-, hcut, htext, -⟩
  · exact iff_of_false (by rw [htext]; decide) hcut
  · refine iff_of_false (fun h => hcut ?_) hcut
    rw [← order_eq_eq.mp (htext.symm.trans h)]
    exact hr.whole
  · exact iff_of_true htext hcut

theorem order_isLE_of_wholeSecond_eq (hr : r.IsStored) (hcut : t.wholeSecond = r) :
    (r.order t).isLE = true := by
  rw [order_of_wholeSecond_eq hr.whole t, if_pos hcut]
  split <;> rfl

instance : Std.TransCmp order :=
  inferInstanceAs (Std.TransCmp (compareLex (compareOn seconds) (compareOn nanos)))

/-- Two bounds that are in order compare with a stored second as their instants do, but on the
second that the lower one is cut to, and above it where the upper one is after the year 9999. -/
theorem between_text_iff {low high : Timestamp} (hr : r.IsStored) (hlow : low.IsCivil)
    (hhigh : high.IsCivil) (hordered : low.order high ≠ .gt) :
    ((compare r.text low.text != .lt && compare r.text high.text != .gt) =
        (r.order low != .lt && r.order high != .gt)) ↔
      if high.date.year ≤ 9999 then low.wholeSecond = r → low = r else r.order low = .lt := by
  have hlower : (compare r.text low.text != .lt) = (r.order low != .lt) ↔ low.IsExactAt r .gte :=
    holds_compare_text_iff hr hlow .gte
  have hupper : (compare r.text high.text != .gt) = (r.order high != .gt) ↔ high.IsExactAt r .lte :=
    holds_compare_text_iff hr hhigh .lte
  split
  next hyear =>
    rw [hupper.mpr hyear]
    constructor
    · intro h hcut
      -- Nothing of the second that the lower bound is cut to is above the upper bound.
      have hbelow : (r.order high != .gt) = true := by
        have hle := order_isLE_of_wholeSecond_eq hr hcut
        exact bne_iff_ne.mpr (Ordering.isLE_iff_ne_gt.mp
          (Std.TransCmp.isLE_trans hle (Ordering.isLE_iff_ne_gt.mpr hordered)))
      rw [hbelow, Bool.and_true, Bool.and_true] at h
      exact (hlower.mp h).2 hcut
    · intro h
      have hyear' : low.date.year ≤ 9999 :=
        Int.not_lt.mp fun hlt => hordered (order_of_year_gt (lt_of_le_of_lt hyear hlt))
      rw [hlower.mpr ⟨hyear', h⟩]
  next hyear =>
    rcases compare_text_cases hr hhigh with ⟨-, -, htext, horder⟩ | ⟨hle, -⟩ | ⟨hle, -⟩
    · rw [htext, horder]
      cases r.order low <;> simp
    · exact absurd hle hyear
    · exact absurd hle hyear

end Time.Timestamp

open Time (Timestamp)

/-- How an instant stands to a value of a filter. -/
def Scalar.orderFrom? (r : Timestamp) : Scalar → Option Ordering
  | .timestamp t => some (r.order t)
  | _ => none

/-- The predicate holds of an instant. -/
def Predicate.holdsAt (r : Timestamp) : Predicate → Bool
  | .compare op v => (v.orderFrom? r).any op.holds
  | .isIn vs => vs.any fun v => v.orderFrom? r == some .eq
  | .like _ => false
  | .between low high =>
    (low.orderFrom? r).any (· != .lt) && (high.orderFrom? r).any (· != .gt)

/-- When a predicate answers on the text of the stored second `r` as it does on the instants. -/
def Predicate.IsExactAt (r : Timestamp) : Predicate → Prop
  | .compare op (.timestamp t) => t.IsExactAt r op
  | .isIn vs => (∃ t, .timestamp t ∈ vs ∧ t.wholeSecond = r) → .timestamp r ∈ vs
  | .between (.timestamp low) (.timestamp high) =>
    if high.date.year ≤ 9999 then low.wholeSecond = r → low = r else r.order low = .lt
  | _ => True

theorem Scalar.IsReadAs.exists_timestamp {v : Scalar} (h : v.IsReadAs .timestamp) :
    ∃ t, v = .timestamp t ∧ t.IsCivil := by
  obtain ⟨j, hj⟩ := h
  cases j with
  | str s =>
    obtain ⟨t, ht, rfl⟩ := Option.map_eq_some_iff.mp hj
    exact ⟨t, rfl, Timestamp.isCivil_of_parse? ht⟩
  | _ => cases hj

theorem Cell.hasNoZero_timestamp (t : Timestamp) : (Cell.text t.text).hasNoZero = true := by
  rw [hasNoZero, Timestamp.text, String.toList_ofList, Bool.not_eq_true', List.contains_eq_mem,
    decide_eq_false_iff_not]
  exact t.zero_notMem_chars

section Predicate

variable {r : Timestamp} (hr : r.IsStored)

include hr

theorem Predicate.holds_isIn_text_iff {vs : List Scalar} (hvs : ∀ v ∈ vs, v.IsReadAs .timestamp) :
    holds (.text r.text) (.isIn vs) = true ↔ ∃ t, .timestamp t ∈ vs ∧ t.wholeSecond = r := by
  rw [holds, List.any_eq_true]
  constructor
  · rintro ⟨v, hv, heq⟩
    obtain ⟨t, rfl, ht⟩ := (hvs v hv).exists_timestamp
    rw [Cell.against?, beq_iff_eq, Option.some_inj] at heq
    exact ⟨t, hv, (Timestamp.compare_text_eq_iff hr ht).mp heq⟩
  · rintro ⟨t, hv, hcut⟩
    obtain ⟨t', heq, ht⟩ := (hvs _ hv).exists_timestamp
    cases heq
    refine ⟨_, hv, ?_⟩
    rw [Cell.against?, (Timestamp.compare_text_eq_iff hr ht).mpr hcut]
    rfl

omit hr in
theorem Predicate.holdsAt_isIn_iff {vs : List Scalar} (hvs : ∀ v ∈ vs, v.IsReadAs .timestamp) :
    holdsAt r (.isIn vs) = true ↔ .timestamp r ∈ vs := by
  rw [holdsAt, List.any_eq_true]
  constructor
  · rintro ⟨v, hv, heq⟩
    obtain ⟨t, rfl, -⟩ := (hvs v hv).exists_timestamp
    rw [Scalar.orderFrom?, beq_iff_eq, Option.some_inj] at heq
    rwa [Timestamp.order_eq_eq.mp heq]
  · intro hv
    refine ⟨_, hv, ?_⟩
    rw [Scalar.orderFrom?, Timestamp.order_eq_eq.mpr rfl]
    rfl

/-- A predicate on timestamps holds on the text of a stored second as it holds of the second just
where it is exact. -/
theorem Predicate.holds_text_eq_iff {p : Predicate} (hp : p.IsReadAs .timestamp) :
    p.holds (.text r.text) = p.holdsAt r ↔ p.IsExactAt r := by
  cases p with
  | compare op v =>
    obtain ⟨t, rfl, ht⟩ := Scalar.IsReadAs.exists_timestamp hp
    exact Timestamp.holds_compare_text_iff hr ht op
  | isIn vs =>
    rw [Bool.eq_iff_iff, holds_isIn_text_iff hr hp, holdsAt_isIn_iff hp, IsExactAt]
    exact ⟨fun h => h.mp, fun h => ⟨h, fun hmem => ⟨r, hmem, hr.whole⟩⟩⟩
  | like raw => cases hp
  | between low high =>
    obtain ⟨hreadLow, hreadHigh, hordered⟩ := hp
    obtain ⟨low, rfl, hlow⟩ := hreadLow.exists_timestamp
    obtain ⟨high, rfl, hhigh⟩ := hreadHigh.exists_timestamp
    have hle : low.order high ≠ .gt := fun h => hordered (congrArg some h)
    rw [holds, holdsAt, IsExactAt]
    simp only [Cell.against?, Scalar.orderFrom?, Option.any_some]
    exact Timestamp.between_text_iff hr hlow hhigh hle

end Predicate

namespace CheckedPlan

/-- Both bounds of the time range as filters on the time field. -/
def rangeFilters (p : CheckedPlan) : List CheckedFilter :=
  match p.timeRange, p.entity.timeField with
  | some range, some f =>
    [⟨f, .compare .gte (.timestamp range.start)⟩, ⟨f, .compare .lte (.timestamp range.finish)⟩]
  | _, _ => []

theorem conditions_compile (p : CheckedPlan) (generation : UInt64) :
    (p.compile generation).base.conditions = (p.filters ++ p.rangeFilters).map filterCondition := by
  rw [List.map_append]
  show p.filters.map filterCondition ++ p.rangeConditions = _
  rw [rangeConditions, rangeFilters]
  cases p.timeRange <;> cases p.entity.timeField <;> rfl

theorem mem_rangeFilters {p : CheckedPlan} {f : CheckedFilter} (h : f ∈ p.rangeFilters) :
    ∃ range, p.timeRange = some range ∧ p.entity.timeField = some f.field ∧
      (f.predicate = .compare .gte (.timestamp range.start) ∨
        f.predicate = .compare .lte (.timestamp range.finish)) := by
  rw [rangeFilters] at h
  split at h
  next range field hrange hfield =>
    rcases List.mem_cons.mp h with rfl | h
    · exact ⟨range, hrange, hfield, .inl rfl⟩
    · rw [List.mem_singleton.mp h]
      exact ⟨range, hrange, hfield, .inr rfl⟩
  next => cases h

section Accepted

variable {source : String} {d : CatalogDefinition} {g : UInt64} {c : Catalog} {policy : LimitPolicy}
  {plan : Plan} {p : CheckedPlan} (hc : Catalog.ofDefinition source d g = .ok c)
  (hp : plan.check c policy = .ok p)

include hc hp

theorem field_kind_of_mem_rangeFilters {f : CheckedFilter} (hf : f ∈ p.rangeFilters) :
    f.field.kind = .timestamp := by
  obtain ⟨_, -, hfield, -⟩ := mem_rangeFilters hf
  exact (Plan.entity_wellFormed_of_check hc hp).timeField_kind _ hfield

/-- All filters of an accepted plan, and its bounds, were read for the kinds of their fields. -/
theorem isReadAs_of_mem_filters {f : CheckedFilter} (hf : f ∈ p.filters ++ p.rangeFilters) :
    f.predicate.IsReadAs f.field.kind := by
  rcases List.mem_append.mp hf with hf | hf
  · exact (Plan.filter_of_check hc hp hf).2
  · rw [field_kind_of_mem_rangeFilters hc hp hf]
    obtain ⟨range, hrange, -, hpredicate⟩ := mem_rangeFilters hf
    have haccepted := Plan.isAccepted_of_timeRange hp hrange
    rcases hpredicate with h | h
    · obtain ⟨s, -, hs⟩ := haccepted.start
      rw [h]
      exact ⟨.str s, congrArg (Option.map Scalar.timestamp) hs⟩
    · obtain ⟨s, -, hs⟩ := haccepted.finish
      rw [h]
      exact ⟨.str s, congrArg (Option.map Scalar.timestamp) hs⟩

/-- The conditions of a compiled plan are those of its filters and of both bounds of its time range,
and on the text of a stored second a condition on timestamps selects as the instants do just where
its bounds are exact. -/
theorem timestamp_conditions_exact_iff (generation : UInt64) :
    (p.compile generation).base.conditions = (p.filters ++ p.rangeFilters).map filterCondition ∧
      (∀ f ∈ p.rangeFilters, f.field.kind = .timestamp) ∧
      ∀ f ∈ p.filters ++ p.rangeFilters, f.field.kind = .timestamp →
        ∀ (r : Timestamp) (a : Affinity) (value : String → Cell), r.IsStored →
          ValueKind.timestamp.suits a = true → value f.field.column = .text r.text →
            (((((filterCondition f).map Cell.ofParam).suitedTo a).truth value = some true ↔
              f.predicate.holdsAt r = true) ↔ f.predicate.IsExactAt r) := by
  refine ⟨p.conditions_compile generation, fun f => field_kind_of_mem_rangeFilters hc hp, ?_⟩
  intro f hf hkind r a value hr ha hvalue
  have hread := isReadAs_of_mem_filters hc hp hf
  have hfits : f.field.kind.fits (value f.field.column) = true := by
    rw [hkind, hvalue]
    rfl
  have hzero : (value f.field.column).hasNoZero = true := by
    rw [hvalue]
    exact Cell.hasNoZero_timestamp r
  have hraw : f.predicate.hasNoZero = true := by
    rw [hkind] at hread
    cases hpredicate : f.predicate with
    | like raw =>
      rw [hpredicate] at hread
      cases hread
    | compare | isIn | between => rfl
  rw [filterCondition_truth hread.isOfKind (hkind ▸ ha) hfits hzero hraw, hvalue, ← Bool.eq_iff_iff]
  exact Predicate.holds_text_eq_iff hr (hkind ▸ hread)

end Accepted

end CheckedPlan

namespace Events

def lateEnd : Plan :=
  (Plan.list "Event").withTimeRange "2024-05-01" "9999-12-31T23:59:59-08:00"

def lateEndChecked : CheckedPlan where
  entity := entity
  operation := .list
  filters := []
  orderBy := []
  groupBy := []
  aggregations := []
  timeRange := some ⟨⟨1714521600, 0⟩, ⟨253402329599, 0⟩⟩
  limit := 100
  requestId := none

theorem check_lateEnd : lateEnd.check catalog {} = .ok lateEndChecked := by decide +kernel

def morning : Timestamp := ⟨1714557600, 0⟩

theorem isStored_morning : morning.IsStored where
  plainYear := ⟨by decide +kernel, by decide +kernel⟩
  civil := fun h => absurd h (by decide)
  whole := rfl

/-- The end of the range falls in the year 10000 of universal time, and keeps out what comes before
it. -/
theorem lateEnd_misses_morning :
    ∃ f ∈ lateEndChecked.filters ++ lateEndChecked.rangeFilters,
      f.predicate.holdsAt morning = true ∧
      (((CheckedPlan.filterCondition f).map Cell.ofParam).suitedTo .text).truth
        (fun _ => .text "2024-05-01 10:00:00") ≠ some true := by
  have hvalue : Cell.text "2024-05-01 10:00:00" = .text morning.text := by decide +kernel
  obtain ⟨-, -, hexact⟩ :=
    CheckedPlan.timestamp_conditions_exact_iff ofDefinition_definition check_lateEnd 1
  have hend := hexact _ (.tail _ (.head _)) rfl morning .text (fun _ => .text "2024-05-01 10:00:00")
    isStored_morning rfl hvalue
  have hholds : (Predicate.compare .lte (.timestamp ⟨253402329599, 0⟩)).holdsAt morning = true :=
    rfl
  have hyear : 9999 < (⟨253402329599, 0⟩ : Timestamp).date.year := by decide +kernel
  have hnot : ¬ (Predicate.compare .lte (.timestamp ⟨253402329599, 0⟩)).IsExactAt morning :=
    fun h => absurd hyear (Int.not_lt.mpr h)
  exact ⟨_, .tail _ (.head _), hholds, fun htruth => hnot (hend.mp (iff_of_true htruth hholds))⟩

end Events

end CatalogQuery
