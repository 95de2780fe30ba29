import CatalogQuery.Proofs.AcceptedQuery
/-!
# Accepted time ranges

A time range that was accepted with its plan is in order and comes with a time field, and where one is
required there is one. Both of its bounds are conditions on the time field.
-/
namespace CatalogQuery

structure CheckedRange.IsAccepted (r : CheckedRange) (plan : Plan) (e : Entity) : Prop where
  timeField : e.timeField.isSome = true
  ordered : r.start.order r.finish ≠ .gt
  start : ∃ s, plan.StartsAt s ∧ Time.Timestamp.parse? s = some r.start
  finish : ∃ s, plan.EndsAt s ∧ Time.Timestamp.parse? s = some r.finish

namespace Plan

/-- A check of the time range that passes gives the range of both bounds, or nothing where there are
none and none are required. -/
theorem timeRange_of_checkTimeRange {plan : Plan} {e : Entity} {range : Option CheckedRange}
    (h : checkTimeRange e plan.timeRange = .ok range) :
    (range = none ∧ (∀ s, ¬ plan.StartsAt s) ∧ (∀ s, ¬ plan.EndsAt s) ∧
        e.requiresTimeRange = false) ∨
      ∃ r, range = some r ∧ r.IsAccepted plan e := by
  have hstart : (plan.timeRange.getD {}).start = plan.timeRange.bind (·.start) := by
    cases plan.timeRange <;> rfl
  have hfinish : (plan.timeRange.getD {}).finish = plan.timeRange.bind (·.finish) := by
    cases plan.timeRange <;> rfl
  rw [checkTimeRange] at h
  simp only [hstart, hfinish] at h
  split at h
  next hnostart hnofinish =>
    split at h
    next => cases h
    next hfree =>
      cases h
      refine .inl ⟨rfl, fun s hs => ?_, fun s hs => ?_, by simpa using hfree⟩
      · rw [presentBound_eq_some_iff.mpr hs] at hnostart
        cases hnostart
      · rw [presentBound_eq_some_iff.mpr hs] at hnofinish
        cases hnofinish
  next => cases h
  next => cases h
  next start finish hstarts hfinishes =>
    split at h
    next => cases h
    next hfield =>
      split at h
      next => cases h
      next => cases h
      next a b ha hb =>
        split at h
        next => cases h
        next hordered =>
          cases h
          refine .inr ⟨⟨a, b⟩, rfl, ?_, hordered, ?_, ?_⟩
          · exact Option.isSome_iff_ne_none.mpr (by simpa using hfield)
          · exact ⟨start, presentBound_eq_some_iff.mp hstarts, ha⟩
          · exact ⟨finish, presentBound_eq_some_iff.mp hfinishes, hb⟩

variable {c : Catalog} {policy : LimitPolicy} {plan : Plan} {p : CheckedPlan}
  (hp : plan.check c policy = .ok p)

include hp

theorem isAccepted_of_timeRange {range : CheckedRange} (hrange : p.timeRange = some range) :
    range.IsAccepted plan p.entity := by
  obtain ⟨functions, r, hstages⟩ := stages_of_check hp
  rcases timeRange_of_checkTimeRange hstages.timeRange with ⟨hnone, -⟩ | ⟨r, hr, haccepted⟩
  · rw [hrange] at hnone
    cases hnone
  · rw [hrange] at hr
    cases hr
    exact haccepted

/-- Where a time range is required, a plan that passes has one. -/
theorem timeRange_isSome (hrequired : p.entity.requiresTimeRange = true) :
    p.timeRange.isSome = true := by
  obtain ⟨functions, r, hstages⟩ := stages_of_check hp
  rcases timeRange_of_checkTimeRange hstages.timeRange with ⟨-, -, -, hfree⟩ | ⟨r, hr, -⟩
  · rw [hrequired] at hfree
    cases hfree
  · rw [hr]
    rfl

end Plan

namespace CheckedPlan

theorem rangeConditions_none {p : CheckedPlan} (h : p.timeRange = none) :
    p.rangeConditions = [] := by
  rw [rangeConditions, h]

/-- Both bounds are conditions on the time field. -/
theorem rangeConditions_some {p : CheckedPlan} {range : CheckedRange} {f : Field}
    (hrange : p.timeRange = some range) (hf : p.entity.timeField = some f) :
    p.rangeConditions =
      [.compare f.column .gte (.text range.start.text),
        .compare f.column .lte (.text range.finish.text)] := by
  rw [rangeConditions, hrange, hf]
  rfl

end CheckedPlan

end CatalogQuery
