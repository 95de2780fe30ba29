import CatalogQuery.Proofs.PlanCriteria
import Mathlib.Data.List.Forall2
/-!
# Verdicts on plans

Checking a plan tells exactly whether it passes its six stages, and by its code the first stage that
it does not pass. Each check is given a verdict, the condition under which it passes and the codes it
fails with, and verdicts are put together as checks are.
-/
namespace CatalogQuery

/-- A check passes under the first condition, and fails with just the codes of the second. -/
structure Verdict {α : Type} (x : Except PlanError α) (Passes : Prop) (Fails : ErrorCode → Prop) :
    Prop where
  ok_iff : (∃ a, x = .ok a) ↔ Passes
  error_iff : ∀ code, (∃ err, x = .error err ∧ err.code = code) ↔ Fails code

/-- A check that fails with one code only. -/
abbrev Decides {α : Type} (x : Except PlanError α) (Passes : Prop) (code : ErrorCode) : Prop :=
  Verdict x Passes fun k => k = code ∧ ¬ Passes

namespace Verdict

variable {α β : Type} {x : Except PlanError α} {P Q : Prop} {R S : ErrorCode → Prop}

theorem of_ok (a : α) : Verdict (.ok a : Except PlanError α) True fun _ => False where
  ok_iff := by simp
  error_iff code := by simp

theorem of_error (err : PlanError) :
    Verdict (.error err : Except PlanError α) False fun k => k = err.code where
  ok_iff := by simp
  error_iff code := by simp [eq_comm]

theorem congr (h : Verdict x P R) (hpasses : P ↔ Q) (hfails : ∀ code, R code ↔ S code) :
    Verdict x Q S where
  ok_iff := h.ok_iff.trans hpasses
  error_iff code := (h.error_iff code).trans (hfails code)

theorem map (h : Verdict x P R) (f : α → β) : Verdict (x.map f) P R := by
  cases x with
  | ok a => exact ⟨by simpa [Except.map] using h.ok_iff, by simpa [Except.map] using h.error_iff⟩
  | error err => exact ⟨by simpa [Except.map] using h.ok_iff, by simpa [Except.map] using h.error_iff⟩

/-- A second check comes to pass only where the first one did. -/
theorem bind {f : α → Except PlanError β} (h : Verdict x P R)
    (hf : ∀ a, x = .ok a → Verdict (f a) Q S) :
    Verdict (x >>= f) (P ∧ Q) fun code => R code ∨ (P ∧ S code) := by
  cases x with
  | ok a =>
    have passes : P := h.ok_iff.mp ⟨a, rfl⟩
    have fails (code : ErrorCode) : ¬ R code := by
      intro failed
      obtain ⟨err, herr, -⟩ := (h.error_iff code).mpr failed
      cases herr
    exact (hf a rfl).congr (by simp [passes]) (by simp [passes, fails])
  | error err =>
    have stops : ¬ P := by
      intro passes
      obtain ⟨a, ha⟩ := h.ok_iff.mpr passes
      cases ha
    have stopped : Verdict (.error err : Except PlanError β) P R :=
      ⟨by simp [stops], by simpa using h.error_iff⟩
    exact stopped.congr (by simp [stops]) (by simp [stops])

/-- Checks in a row that fail with one code are as one check. -/
theorem bind_decides {f : α → Except PlanError β} {P' : Prop} {code : ErrorCode}
    (h : Decides x P code)
    (hf : ∀ a, x = .ok a → Verdict (f a) (P' ∧ Q) fun k => (k = code ∧ ¬ P') ∨ (P' ∧ S k)) :
    Verdict (x >>= f) ((P ∧ P') ∧ Q) fun k => (k = code ∧ ¬ (P ∧ P')) ∨ ((P ∧ P') ∧ S k) :=
  (h.bind hf).congr and_assoc.symm fun k => by tauto

end Verdict

namespace Decides

variable {α β : Type} {x : Except PlanError α} {P Q : Prop} {code : ErrorCode}

theorem congr (h : Decides x P code) (hpasses : P ↔ Q) : Decides x Q code :=
  Verdict.congr h hpasses fun _ => and_congr_right' (not_congr hpasses)

theorem bind {f : α → Except PlanError β} (h : Decides x P code)
    (hf : ∀ a, x = .ok a → Decides (f a) Q code) : Decides (x >>= f) (P ∧ Q) code :=
  Verdict.congr (Verdict.bind h hf) Iff.rfl fun k => by tauto

theorem of_ok (a : α) (h : P) : Decides (.ok a : Except PlanError α) P code :=
  Verdict.congr (Verdict.of_ok a) (iff_of_true trivial h) fun _ => by simp [h]

theorem of_error {err : PlanError} (hcode : err.code = code) (h : ¬ P) :
    Decides (.error err : Except PlanError α) P code where
  ok_iff := by simp [h]
  error_iff k := by
    simp only [Except.error.injEq, exists_eq_left', hcode, h, not_false_eq_true, and_true]
    exact eq_comm

theorem of_ite [Decidable P] {a : α} {err : PlanError} (hcode : err.code = code) :
    Decides (if P then .ok a else .error err : Except PlanError α) P code := by
  split
  next h => exact of_ok a h
  next h => exact of_error hcode h

theorem of_ite_not [Decidable P] {a : α} {err : PlanError} (hcode : err.code = code) :
    Decides (if P then .error err else .ok a : Except PlanError α) (¬ P) code := by
  split
  next h => exact of_error hcode (not_not.mpr h)
  next h => exact of_ok a h

/-- A second check may go by the result of the first. -/
theorem bind_exists {f : α → Except PlanError β} {Q : α → Prop} (h : Decides x P code)
    (hf : ∀ a, x = .ok a → Decides (f a) (Q a) code) :
    Decides (x >>= f) (∃ a, x = .ok a ∧ Q a) code := by
  cases x with
  | ok a => exact (hf a rfl).congr (by simp)
  | error err =>
    have hcode : err.code = code := ((h.error_iff err.code).mp ⟨err, rfl, rfl⟩).1
    exact of_error hcode (by simp)

/-- The elements pass one by one. -/
theorem checkAll {f : α → Except PlanError β} {P : α → Prop} (xs : List α)
    (h : ∀ x ∈ xs, Decides (f x) (P x) code) :
    Decides (checkAll f xs) (∀ x ∈ xs, P x) code := by
  induction xs with
  | nil => exact of_ok [] (by simp)
  | cons x xs ih =>
    rw [List.forall_mem_cons] at h
    refine (Decides.bind h.1 fun y _ => ?_).congr List.forall_mem_cons.symm
    refine (Decides.bind (ih h.2) fun ys _ => ?_).congr (and_iff_left trivial)
    exact of_ok (y :: ys) trivial

end Decides

/-- A check that passed all elements passed each of them with its result. -/
theorem forall₂_of_checkAll {α β ε : Type} {f : α → Except ε β} {xs : List α} {ys : List β}
    (h : checkAll f xs = .ok ys) : List.Forall₂ (fun x y => f x = .ok y) xs ys := by
  induction xs generalizing ys with
  | nil =>
    cases h
    exact .nil
  | cons x xs ih =>
    obtain ⟨y, hy, h⟩ := bind_ok h
    obtain ⟨rest, hrest, h⟩ := bind_ok h
    cases h
    exact .cons hy (ih hrest)

/-- What holds of all pairs of elements and results holds of all elements. -/
theorem forall_mem_zip_of_checkAll {α β ε : Type} {f : α → Except ε β} {xs : List α} {ys : List β}
    (h : checkAll f xs = .ok ys) {P : α → Prop} :
    (∀ q ∈ xs.zip ys, P q.1) ↔ ∀ x ∈ xs, P x := by
  have hlength : xs.length = ys.length := (List.forall₂_iff_zip.mp (forall₂_of_checkAll h)).1
  rw [← List.forall_mem_map, List.map_fst_zip (Nat.le_of_eq hlength)]

theorem eq_ok_of_mem_zip {α β ε : Type} {f : α → Except ε β} {xs : List α} {ys : List β}
    (h : checkAll f xs = .ok ys) {q : α × β} (hq : q ∈ xs.zip ys) : f q.1 = .ok q.2 :=
  (List.forall₂_iff_zip.mp (forall₂_of_checkAll h)).2 hq

theorem Entity.isSome_fieldNamed?_iff {e : Entity} {name : String} :
    (e.fieldNamed? name).isSome = true ↔ e.Declares name := by
  simp [fieldNamed?, Declares]

namespace Plan

theorem checkShape_list_decides (p : Plan) :
    Decides (p.checkShape .list) (p.aggregations = [] ∧ p.groupBy = []) .unsupportedOperation := by
  rw [checkShape]
  split
  next h => exact Decides.of_error rfl (by simpa using fun ha => by simp [ha] at h)
  next ha =>
    split
    next h => exact Decides.of_error rfl (by simpa using fun _ hg => by simp [hg] at h)
    next hg => exact Decides.of_ok () ⟨by simpa using ha, by simpa using hg⟩

theorem checkShape_aggregate_decides (p : Plan) :
    Decides (p.checkShape .aggregate) (p.aggregations ≠ []) .unsupportedOperation := by
  rw [checkShape]
  split
  next h => exact Decides.of_error rfl (by simpa using h)
  next h => exact Decides.of_ok () (by simpa using h)

theorem ofName?_function_isSome_iff (s : String) :
    (AggregateFunction.ofName? s).isSome = true ↔ s ∈ ["count", "sum", "avg", "min", "max"] := by
  rw [AggregateFunction.ofName?, List.find?_isSome]
  simp only [AggregateFunction.all, List.mem_cons, List.not_mem_nil, or_false, exists_eq_or_imp,
    exists_eq_left, AggregateFunction.name, beq_iff_eq]
  simp only [eq_comm (b := s)]

theorem checkFunction_decides (a : Aggregation) :
    Decides (checkFunction a) (a.function ∈ ["count", "sum", "avg", "min", "max"])
      .unsupportedOperation := by
  have hknown := ofName?_function_isSome_iff a.function
  rw [checkFunction]
  split
  next f hf => exact Decides.of_ok f (hknown.mp (by simp [hf]))
  next hf => exact Decides.of_error rfl (mt hknown.mpr (by simp [hf]))

theorem operation_of_checkOperation {p : Plan} {operation : Operation}
    {functions : List AggregateFunction} (h : p.checkOperation = .ok (operation, functions)) :
    p.operation = operation.name ∧ checkAll checkFunction p.aggregations = .ok functions := by
  rw [checkOperation] at h
  split at h
  next => cases h
  next found hfound =>
    obtain ⟨_, -, h⟩ := bind_ok h
    obtain ⟨known, hknown, h⟩ := bind_ok h
    cases h
    refine ⟨?_, hknown⟩
    rw [Operation.ofName?] at hfound
    split at hfound
    next hname => cases hfound; exact hname
    next =>
      split at hfound
      next hname => cases hfound; exact hname
      next => cases hfound

/-- The shape is checked first, then the functions. -/
theorem shapeAndFunctions_decides {p : Plan} {operation : Operation} {P : Prop}
    (h : Decides (p.checkShape operation) P .unsupportedOperation) :
    Decides (do
        p.checkShape operation
        let functions ← checkAll checkFunction p.aggregations
        .ok (operation, functions))
      (P ∧ ∀ a ∈ p.aggregations, a.function ∈ ["count", "sum", "avg", "min", "max"])
      .unsupportedOperation := by
  refine Decides.bind h fun _ _ => ?_
  have functions := Decides.checkAll p.aggregations fun a _ => checkFunction_decides a
  exact (Decides.bind functions fun known _ => Decides.of_ok (operation, known) trivial).congr
    (and_iff_left trivial)

theorem checkOperation_decides (p : Plan) :
    Decides p.checkOperation p.IsShaped .unsupportedOperation := by
  rw [checkOperation, Operation.ofName?, IsShaped]
  by_cases hlist : p.operation = "list"
  · rw [if_pos hlist]
    refine (shapeAndFunctions_decides p.checkShape_list_decides).congr ?_
    simp only [hlist]
    constructor
    · exact fun h => .inl ⟨trivial, h.1⟩
    · rintro (h | h)
      · exact ⟨h.2, by simp [h.2.1]⟩
      · exact absurd h.1 (by decide)
  · rw [if_neg hlist]
    by_cases haggregate : p.operation = "aggregate"
    · rw [if_pos haggregate]
      refine (shapeAndFunctions_decides p.checkShape_aggregate_decides).congr ?_
      simp [haggregate]
    · rw [if_neg haggregate]
      exact Decides.of_error rfl (by simp [hlist, haggregate])

theorem resolveField_decides (e : Entity) (name : String) :
    Decides (resolveField e name) (e.Declares name) .unknownField := by
  have hdeclared : (e.fieldNamed? name).isSome = true ↔ e.Declares name := e.isSome_fieldNamed?_iff
  rw [resolveField]
  split
  next f hf => exact Decides.of_ok f (hdeclared.mp (by simp [hf]))
  next hf => exact Decides.of_error rfl (mt hdeclared.mpr (by simp [hf]))

theorem resolveTarget_decides (e : Entity) (a : Aggregation) :
    Decides (resolveTarget e a) (∀ name, a.field = some name → name = "*" ∨ e.Declares name)
      .unknownField := by
  rw [resolveTarget]
  split
  next h => exact Decides.of_ok none (by simp [h])
  next name h =>
    split
    next hall => exact Decides.of_ok none (by simpa [h] using .inl hall)
    next hall =>
      refine Decides.congr ((resolveField_decides e name).map some) ?_
      rw [allRows] at hall
      simp [h, hall]

theorem resolveOrder_decides (p : Plan) (e : Entity) (operation : Operation) (o : Order) :
    Decides (resolveOrder e operation p.aggregations o)
      ((operation = .aggregate ∧ p.Labels o.field) ∨ e.Declares o.field) .unknownField := by
  cases operation with
  | list =>
    rw [resolveOrder]
    refine Decides.congr ((resolveField_decides e o.field).map _) ?_
    simp
  | aggregate =>
    have hlabels : (p.aggregations.findIdx? (·.label == o.field)).isSome = true ↔ p.Labels o.field := by
      simp [Labels]
    rw [resolveOrder]
    simp only [true_and]
    split
    next i hi => exact Decides.of_ok _ (.inl (hlabels.mp (by simp [hi])))
    next hi =>
      refine Decides.congr ((resolveField_decides e o.field).map _) ?_
      rw [or_iff_right (mt hlabels.mpr (by simp [hi]))]

theorem resolve_decides {p : Plan} (e : Entity) {operation : Operation}
    (hoperation : p.operation = operation.name) :
    Decides (p.resolve e operation) (p.NamesFields e) .unknownField := by
  have haggregate : operation = .aggregate ↔ p.operation = "aggregate" := by
    rw [hoperation]
    cases operation <;> decide
  have filters := Decides.checkAll p.filters fun f _ => resolveField_decides e f.field
  have groupBy := Decides.checkAll p.groupBy fun name _ => resolveField_decides e name
  have aggregations := Decides.checkAll p.aggregations fun a _ => resolveTarget_decides e a
  have orderBy := Decides.checkAll p.orderBy fun o _ => resolveOrder_decides p e operation o
  rw [resolve]
  refine Decides.congr (Decides.bind filters fun fs _ => Decides.bind groupBy fun gs _ =>
    Decides.bind aggregations fun as _ => Decides.bind orderBy fun os _ =>
      Decides.of_ok (⟨fs, gs, as, os⟩ : Resolved) trivial) ?_
  rw [haggregate]
  constructor
  · exact fun ⟨hf, hg, ha, ho, _⟩ => ⟨hf, hg, ha, ho⟩
  · exact fun h => ⟨h.filters, h.groupBy, h.aggregations, h.orderBy, trivial⟩

/-- The four places where a plan names fields, and what was found for them. -/
theorem resolve_ok {p : Plan} {e : Entity} {operation : Operation} {r : Resolved}
    (h : p.resolve e operation = .ok r) :
    checkAll (fun f => resolveField e f.field) p.filters = .ok r.filters ∧
      checkAll (resolveField e) p.groupBy = .ok r.groupBy ∧
      checkAll (resolveTarget e) p.aggregations = .ok r.aggregations ∧
      checkAll (resolveOrder e operation p.aggregations) p.orderBy = .ok r.orderBy := by
  obtain ⟨filters, hfilters, h⟩ := bind_ok h
  obtain ⟨groupBy, hgroupBy, h⟩ := bind_ok h
  obtain ⟨aggregations, haggregations, h⟩ := bind_ok h
  obtain ⟨orderBy, horderBy, h⟩ := bind_ok h
  cases h
  exact ⟨hfilters, hgroupBy, haggregations, horderBy⟩

theorem resolveField_ok {e : Entity} {name : String} {f : Field}
    (h : resolveField e name = .ok f) : e.fieldNamed? name = some f := by
  rw [resolveField] at h
  split at h
  next hf => cases h; exact hf
  next => cases h

theorem isSome_ofJson?_iff (kind : ValueKind) (v : Json) :
    (Scalar.ofJson? kind v).isSome = true ↔ v.IsValueOf kind := by
  cases kind <;> cases v <;> simp [Scalar.ofJson?, Json.IsValueOf, Option.isSome_iff_exists]

theorem checkScalar_decides (f : Field) (v : Json) :
    Decides (checkScalar f v) (v.IsValueOf f.kind) .invalidFilter := by
  have hvalue := isSome_ofJson?_iff f.kind v
  rw [checkScalar]
  split
  next s hs => exact Decides.of_ok s (hvalue.mp (by simp [hs]))
  next hs => exact Decides.of_error rfl (mt hvalue.mpr (by simp [hs]))

theorem checkList_decides (f : Field) (v : Json) :
    Decides (checkList f v) (IsOperand f.kind .isIn v) .invalidFilter := by
  have hnoList (h : ∀ items, v ≠ .arr items) : ¬ IsOperand f.kind .isIn v := by
    rintro ⟨items, hitems, -⟩
    exact h items hitems
  unfold checkList
  split
  next => exact Decides.of_error rfl (by simp [IsOperand])
  next items hitems =>
    have hone : 1 ≤ items.length := List.length_pos_iff.mpr hitems
    split
    next hlong =>
      rw [maxListValues] at hlong
      refine Decides.of_error rfl ?_
      rintro ⟨same, hsame, -, hshort, -⟩
      cases hsame
      omega
    next hlong =>
      rw [maxListValues, Nat.not_lt] at hlong
      refine Decides.congr ((Decides.checkAll items fun v _ => checkScalar_decides f v).map _) ?_
      simp [IsOperand, hone, hlong]
  next _ h => exact Decides.of_error rfl (hnoList h)

theorem checkPattern_decides (f : Field) (v : Json) :
    Decides (checkPattern f v) (IsOperand f.kind .like v) .invalidFilter := by
  unfold checkPattern
  split
  next s => exact Decides.of_ok _ ⟨s, rfl⟩
  next h => exact Decides.of_error rfl fun ⟨s, hs⟩ => h s hs

theorem checkScalar_ok_iff {f : Field} {v : Json} {s : Scalar} :
    checkScalar f v = .ok s ↔ Scalar.ofJson? f.kind v = some s := by
  rw [checkScalar]
  split
  next hs => simp [hs]
  next hs => simp [hs]

theorem checkBounds_decides (f : Field) (v : Json) :
    Decides (checkBounds f v) (IsOperand f.kind .between v) .invalidFilter := by
  unfold checkBounds
  split
  next low high =>
    refine Decides.congr (Decides.bind_exists (checkScalar_decides f low) fun a _ =>
      Decides.bind_exists (checkScalar_decides f high) fun b _ =>
        Decides.of_ite_not rfl) ?_
    simp only [checkScalar_ok_iff, IsOperand]
    constructor
    · rintro ⟨a, ha, b, hb, hab⟩
      exact ⟨low, high, a, b, rfl, ha, hb, hab⟩
    · rintro ⟨_, _, a, b, hv, ha, hb, hab⟩
      cases hv
      exact ⟨a, ha, b, hb, hab⟩
  next h =>
    refine Decides.of_error rfl ?_
    rintro ⟨low, high, a, b, hv, -⟩
    exact h low high hv

theorem checkOperand_decides (f : Field) (o : Operator) (v : Json) :
    Decides (checkOperand f o v) (IsOperand f.kind o v) .invalidFilter := by
  cases o with
  | eq | neq | gt | gte | lt | lte => exact (checkScalar_decides f v).map _
  | isIn => exact checkList_decides f v
  | like => exact checkPattern_decides f v
  | between => exact checkBounds_decides f v

theorem checkFilter_decides (f : Filter) (field : Field) :
    Decides (checkFilter (f, field))
      (∃ o : Operator, o.name = f.operator ∧ o ∈ field.operators ∧ IsOperand field.kind o f.value)
      .invalidFilter := by
  have honly {o : Operator} (ho : Operator.ofName? f.operator = some o) (P : Operator → Prop) :
      (∃ x : Operator, x.name = f.operator ∧ P x) ↔ P o := by
    constructor
    · rintro ⟨x, hx, hP⟩
      rw [← hx, Operator.ofName?_name] at ho
      cases ho
      exact hP
    · exact fun hP => ⟨o, Operator.name_of_ofName? ho, hP⟩
  rw [checkFilter]
  split
  next hnone =>
    refine Decides.of_error rfl ?_
    rintro ⟨o, ho, -⟩
    rw [← ho, Operator.ofName?_name] at hnone
    cases hnone
  next o ho =>
    have hallows : field.allows o = true ↔ o ∈ field.operators := by simp [Field.allows]
    split
    next h =>
      refine Decides.congr ((checkOperand_decides field o f.value).map _) ?_
      rw [honly ho, and_iff_right (hallows.mp h)]
    next h =>
      refine Decides.of_error rfl ?_
      rw [honly ho]
      exact fun both => h (hallows.mpr both.1)

theorem checkGroups_decides (seen : List Nat) (fs : List Field) :
    Decides (checkGroups seen fs) ((fs.map (·.id)).Nodup ∧ ∀ f ∈ fs, f.id ∉ seen) .invalidFilter := by
  induction fs generalizing seen with
  | nil => exact Decides.of_ok () (by simp)
  | cons f fs ih =>
    rw [checkGroups]
    split
    next hseen => exact Decides.of_error rfl (by simp [hseen])
    next hseen =>
      refine (ih (f.id :: seen)).congr ?_
      rw [forall_unseen_cons, List.map_cons, List.nodup_cons, List.forall_mem_cons]
      tauto

theorem isLabel_iff (s : String) : Text.isLabel s = true ↔ Text.IsLabelSpelling s := by
  rw [Text.isLabel, Bool.and_eq_true, Text.isIdentifier_iff, decide_eq_true_iff,
    ← String.length_toList]
  constructor
  · rintro ⟨⟨head, rest, hspelled, hhead, hrest⟩, hshort⟩
    rw [hspelled] at hshort
    exact ⟨head, rest, hspelled, Nat.le_of_succ_le_succ hshort, hhead, hrest⟩
  · rintro ⟨head, rest, hspelled, hshort, hhead, hrest⟩
    refine ⟨⟨head, rest, hspelled, hhead, hrest⟩, ?_⟩
    rw [hspelled]
    exact Nat.succ_le_succ hshort

theorem function_eq_of_checkFunction {a : Aggregation} {f : AggregateFunction}
    (h : checkFunction a = .ok f) : a.function = f.name := by
  rw [checkFunction] at h
  split at h
  next hf =>
    cases h
    have hname := List.find?_some hf
    simp only [beq_iff_eq] at hname
    exact hname.symm
  next => cases h

/-- Where nothing is aggregated, no field is named. -/
theorem field_of_resolveTarget_none {e : Entity} {a : Aggregation}
    (h : resolveTarget e a = .ok none) {name : String} (hname : a.field = some name) : name = "*" := by
  rw [resolveTarget, hname] at h
  simp only at h
  split at h
  next hall => exact hall
  next =>
    obtain ⟨f, -, hf⟩ := map_ok h
    cases hf

theorem field_of_resolveTarget_some {e : Entity} {a : Aggregation} {f : Field}
    (h : resolveTarget e a = .ok (some f)) :
    a.field = some f.name ∧ f.name ≠ "*" ∧ f ∈ e.fields := by
  unfold resolveTarget at h
  split at h
  next => cases h
  next name hname =>
    split at h
    next => cases h
    next hall =>
      obtain ⟨g, hg, hf⟩ := map_ok h
      cases hf
      have hfound : f.name = name := by simpa using List.find?_some (resolveField_ok hg)
      subst hfound
      exact ⟨hname, hall, resolveField_mem hg⟩

/-- The check of a function on its target tells whether it fits the field the plan names. -/
theorem checkTarget_decides {e : Entity} (hnames : (e.fields.map (·.name)).Nodup)
    {a : Aggregation} {b : CheckedAggregation} (hfunction : a.function = b.function.name)
    (htarget : resolveTarget e a = .ok b.target) (entity : String) :
    Decides (checkTarget entity b) (a.Fits e) .invalidFilter := by
  obtain ⟨function, target, label⟩ := b
  simp only at hfunction htarget
  cases target with
  | none =>
    have hfits : a.Fits e ↔ a.function = "count" := by
      refine or_iff_left ?_
      rintro ⟨f, -, hf, hall, -⟩
      exact hall (field_of_resolveTarget_none htarget hf)
    refine Decides.congr ?_ hfits.symm
    rw [hfunction]
    cases function with
    | count => exact Decides.of_ok () rfl
    | sum | avg | min | max => exact Decides.of_error rfl (by decide)
  | some f =>
    obtain ⟨hfield, hall, hmem⟩ := field_of_resolveTarget_some htarget
    have hfits : a.Fits e ↔ a.function = "count" ∨
        (a.function ∈ ["sum", "avg"] ∧ f.kind = .number) ∨
        (a.function ∈ ["min", "max"] ∧ f.kind ≠ .boolean) := by
      refine or_congr_right ⟨?_, fun h => ⟨f, hmem, hfield, hall, h⟩⟩
      rintro ⟨g, hg, hname, -, h⟩
      have hsame : f.name = g.name := Option.some.inj (hfield.symm.trans hname)
      rwa [List.inj_on_of_nodup_map hnames hmem hg hsame]
    refine Decides.congr ?_ hfits.symm
    rw [hfunction]
    cases function with
    | count => exact Decides.of_ok () (.inl rfl)
    | sum | avg =>
      refine Decides.congr (P := f.kind = .number) (Decides.of_ite rfl) ?_
      simp [AggregateFunction.name]
    | min | max =>
      refine Decides.congr (P := f.kind ≠ .boolean) (Decides.of_ite_not rfl) ?_
      simp [AggregateFunction.name]

/-- The aggregations are checked one after the other, each for its label and its target. -/
theorem checkAggregations_decides {e : Entity} {entity : String} {as : List Aggregation}
    {bs : List CheckedAggregation} (h : List.Forall₂ (fun a b => b.label = a.label ∧
      Decides (checkTarget entity b) (a.Fits e) .invalidFilter) as bs) (taken : List String) :
    Decides (checkAggregations entity taken bs)
      ((∀ a ∈ as, Text.IsLabelSpelling a.label) ∧ (as.map (·.label)).Nodup ∧
        (∀ a ∈ as, a.label ∉ taken) ∧ ∀ a ∈ as, a.Fits e) .invalidFilter := by
  induction h generalizing taken with
  | nil => exact Decides.of_ok () (by simp)
  | @cons a b as bs hab _ ih =>
    obtain ⟨hlabel, htarget⟩ := hab
    rw [checkAggregations]
    simp only [List.forall_mem_cons, List.map_cons, List.nodup_cons, ← isLabel_iff, hlabel]
    split
    next hspelled =>
      refine Decides.of_error rfl ?_
      rintro ⟨⟨h, -⟩, -⟩
      simp [h] at hspelled
    next hspelled =>
      have hspelled : Text.isLabel a.label = true := by simpa using hspelled
      split
      next htaken => exact Decides.of_error rfl fun ⟨_, _, ⟨hfree, _⟩, _⟩ => hfree htaken
      next htaken =>
        refine Decides.congr (Decides.bind htarget fun _ _ => ih (a.label :: taken)) ?_
        rw [forall_unseen_cons]
        simp only [isLabel_iff, iff_true_intro htaken] at hspelled ⊢
        tauto

theorem name_of_resolveField {e : Entity} {name : String} {f : Field}
    (h : resolveField e name = .ok f) : f.name = name := by
  simpa using List.find?_some (resolveField_ok h)

/-- The groups found are those named. -/
theorem names_of_resolveField {e : Entity} {names : List String} {fs : List Field}
    (h : checkAll (resolveField e) names = .ok fs) : fs.map (·.name) = names := by
  have hfound := forall₂_of_checkAll h
  clear h
  induction hfound with
  | nil => rfl
  | cons hf _ ih => rw [List.map_cons, name_of_resolveField hf, ih]

/-- The ids of the fields of the entity tell them apart, as their names do. -/
def IsIndexed (e : Entity) : Prop := ∀ f ∈ e.fields, ∀ g ∈ e.fields, f.id = g.id ↔ f.name = g.name

theorem isIndexed_of_ofDefinition {source : String} {d : CatalogDefinition} {g : UInt64}
    {c : Catalog} (hc : Catalog.ofDefinition source d g = .ok c) {e : Entity} (he : e ∈ c.entities) :
    IsIndexed e := by
  intro f hf f' hf'
  obtain ⟨i, hi⟩ := List.mem_iff_getElem?.mp hf
  obtain ⟨j, hj⟩ := List.mem_iff_getElem?.mp hf'
  rw [Catalog.id_of_ofDefinition hc he hi, Catalog.id_of_ofDefinition hc he hj]
  constructor
  · rintro rfl
    rw [hi] at hj
    cases hj
    rfl
  · intro hname
    have hnodup := (Catalog.wellFormed_of_ofDefinition hc e he).names_nodup
    have hsame : (e.fields.map (·.name))[i]? = (e.fields.map (·.name))[j]? := by
      simp [hi, hj, hname]
    have hlt : i < (e.fields.map (·.name)).length := by
      simpa using (List.getElem?_eq_some_iff.mp hi).1
    exact (List.getElem?_inj hlt hnodup).mp hsame

theorem ofName?_direction_isSome_iff (s : String) :
    (Direction.ofName? s).isSome = true ↔ s = "asc" ∨ s = "desc" := by
  rw [Direction.ofName?]
  split
  next h => simp [h]
  next hasc =>
    split
    next h => simp [h]
    next hdesc => simp [hasc, hdesc]

section Sound

variable {p : Plan} {e : Entity} {operation : Operation} {r : Resolved}
  (hnames : (e.fields.map (·.name)).Nodup) (hresolved : p.resolve e operation = .ok r)

include hresolved

theorem groupBy_mem {f : Field} (hf : f ∈ r.groupBy) : f ∈ e.fields := by
  obtain ⟨name, -, hname⟩ := exists_of_mem_checkAll (resolve_ok hresolved).2.1 f hf
  exact resolveField_mem hname

theorem id_mem_groupBy_iff (hindexed : IsIndexed e) {f : Field} (hf : f ∈ e.fields) :
    f.id ∈ r.groupBy.map (·.id) ↔ f.name ∈ p.groupBy := by
  rw [← names_of_resolveField (resolve_ok hresolved).2.1]
  simp only [List.mem_map]
  constructor
  · rintro ⟨g, hg, hid⟩
    exact ⟨g, hg, (hindexed g (groupBy_mem hresolved hg) f hf).mp hid⟩
  · rintro ⟨g, hg, hname⟩
    exact ⟨g, hg, (hindexed g (groupBy_mem hresolved hg) f hf).mpr hname⟩

theorem groups_nodup_iff (hindexed : IsIndexed e) :
    (r.groupBy.map (·.id)).Nodup ↔ p.groupBy.Nodup := by
  rw [← names_of_resolveField (resolve_ok hresolved).2.1, List.Nodup, List.Nodup,
    List.pairwise_map, List.pairwise_map]
  refine List.Pairwise.iff_of_mem fun {f g} hf hg => not_congr ?_
  exact hindexed f (groupBy_mem hresolved hf) g (groupBy_mem hresolved hg)

theorem groups_decides (hindexed : IsIndexed e) :
    Decides (checkGroups [] r.groupBy) p.groupBy.Nodup .invalidFilter := by
  refine (checkGroups_decides [] r.groupBy).congr ?_
  rw [groups_nodup_iff hresolved hindexed]
  exact and_iff_left fun _ _ => List.not_mem_nil

include hnames

theorem filters_decides :
    Decides (checkAll checkFilter (p.filters.zip r.filters)) (∀ f ∈ p.filters, f.Fits e)
      .invalidFilter := by
  have hfilters := (resolve_ok hresolved).1
  rw [← forall_mem_zip_of_checkAll hfilters]
  refine Decides.checkAll _ fun q hq => (checkFilter_decides q.1 q.2).congr ?_
  have hfound := resolveField_ok (eq_ok_of_mem_zip hfilters hq)
  rw [Entity.fieldNamed?, find?_name_eq_some_iff hnames] at hfound
  constructor
  · exact fun h => ⟨q.2, hfound.1, hfound.2, h⟩
  · rintro ⟨f, hf, hname, h⟩
    rwa [List.inj_on_of_nodup_map hnames hfound.1 hf (hfound.2.trans hname.symm)]

theorem aggregations_decides {functions : List AggregateFunction}
    (hfunctions : checkAll checkFunction p.aggregations = .ok functions) :
    Decides (checkAggregations e.name (r.groupBy.map (·.name))
        (((p.aggregations.zip functions).zip r.aggregations).map fun a =>
          { function := a.1.2, target := a.2, label := a.1.1.label : CheckedAggregation }))
      ((∀ a ∈ p.aggregations, Text.IsLabelSpelling a.label) ∧
        (p.aggregations.map (·.label)).Nodup ∧ (∀ a ∈ p.aggregations, a.label ∉ p.groupBy) ∧
        ∀ a ∈ p.aggregations, a.Fits e) .invalidFilter := by
  rw [names_of_resolveField (resolve_ok hresolved).2.1]
  apply checkAggregations_decides
  have hknown := forall₂_of_checkAll hfunctions
  have htargets := forall₂_of_checkAll (resolve_ok hresolved).2.2.1
  clear hfunctions hresolved
  generalize p.aggregations = as, r.aggregations = ts at hknown htargets
  induction hknown generalizing ts with
  | nil => exact .nil
  | cons hfunction _ ih =>
    cases htargets with
    | cons htarget htargets =>
      refine .cons ⟨rfl, ?_⟩ (ih _ htargets)
      exact checkTarget_decides hnames (function_eq_of_checkFunction hfunction) htarget e.name

omit hnames in
/-- Aggregates are ordered by groups and labels only. -/
theorem grouped_of_resolveOrder (hoperation : p.operation = operation.name)
    (hindexed : IsIndexed e) {o : Order} {target : OrderTarget}
    (h : resolveOrder e operation p.aggregations o = .ok target) :
    (p.operation = "aggregate" → p.Labels o.field ∨ o.field ∈ p.groupBy) ↔
      ∀ f, target = .field f → ¬ (operation = .aggregate ∧ f.id ∉ r.groupBy.map (·.id)) := by
  rw [hoperation]
  cases operation with
  | list => simp [Operation.name]
  | aggregate =>
    rw [resolveOrder] at h
    split at h
    next i hi =>
      cases h
      have hlabels : p.Labels o.field := by
        have hsome : (p.aggregations.findIdx? (·.label == o.field)).isSome = true := by simp [hi]
        simpa [Labels] using hsome
      simp [hlabels]
    next hi =>
      obtain ⟨f, hf, rfl⟩ := map_ok h
      have hlabels : ¬ p.Labels o.field := by
        have hnone := List.findIdx?_eq_none_iff.mp hi
        rintro ⟨a, ha, hlabel⟩
        simpa [hlabel] using hnone a ha
      have hgroup := id_mem_groupBy_iff hresolved hindexed (resolveField_mem hf)
      rw [name_of_resolveField hf] at hgroup
      simp [Operation.name, hlabels, ← hgroup]

omit hnames in
theorem orderBy_decides (hoperation : p.operation = operation.name) (hindexed : IsIndexed e) :
    Decides (checkAll (checkOrder operation r.groupBy) (p.orderBy.zip r.orderBy))
      (∀ o ∈ p.orderBy, (o.direction = "asc" ∨ o.direction = "desc") ∧
        (p.operation = "aggregate" → p.Labels o.field ∨ o.field ∈ p.groupBy)) .invalidFilter := by
  have horders := (resolve_ok hresolved).2.2.2
  rw [← forall_mem_zip_of_checkAll horders]
  refine Decides.checkAll _ fun q hq => ?_
  have htarget := eq_ok_of_mem_zip horders hq
  have hgrouped := grouped_of_resolveOrder hresolved hoperation hindexed htarget
  have hknown := ofName?_direction_isSome_iff q.1.direction
  rw [hgrouped, ← hknown]
  unfold checkOrder
  split
  next hnone => exact Decides.of_error rfl (by simp [hnone])
  next direction hdirection =>
    cases htarget' : q.2 with
    | aggregate i => exact Decides.of_ok _ ⟨by simp [hdirection], by simp⟩
    | field f => exact Decides.congr (Decides.of_ite_not rfl) (by simp [hdirection])

end Sound

theorem presentBound_eq_some_iff {bound : Option String} {s : String} :
    presentBound bound = some s ↔ IsBound bound s := by
  simp only [presentBound, Option.filter_eq_some_iff, IsBound, Text.isAllBlank, Bool.not_eq_true',
    List.all_eq_false, Bool.not_eq_true]

theorem checkTimeRange_verdict (p : Plan) (e : Entity) :
    Verdict (checkTimeRange e p.timeRange) (p.FitsTimeRange e) fun k =>
      (k = .timeRangeRequired ∧ p.LacksTimeRange e) ∨
        (k = .invalidFilter ∧ p.MistakesTimeRange e) := by
  have hstart : (p.timeRange.getD {}).start = p.timeRange.bind (·.start) := by
    cases p.timeRange <;> rfl
  have hfinish : (p.timeRange.getD {}).finish = p.timeRange.bind (·.finish) := by
    cases p.timeRange <;> rfl
  rw [checkTimeRange]
  simp only [hstart, hfinish, FitsTimeRange, LacksTimeRange, MistakesTimeRange, StartsAt, EndsAt,
    ← presentBound_eq_some_iff]
  generalize presentBound (p.timeRange.bind (·.start)) = start
  generalize presentBound (p.timeRange.bind (·.finish)) = finish
  cases start with
  | none =>
    cases finish with
    | none =>
      refine Verdict.congr (Decides.of_ite_not (P := e.requiresTimeRange = true) rfl) ?_ ?_
      · simp
      · simp [PlanError.code]
    | some finish => exact (Verdict.of_error _).congr (by simp) (by simp [PlanError.code])
  | some start =>
    cases finish with
    | none => exact (Verdict.of_error _).congr (by simp) (by simp [PlanError.code])
    | some finish =>
      cases e.timeField with
      | none => exact (Verdict.of_error _).congr (by simp) (by simp [PlanError.code])
      | some f =>
        cases hstart : Time.Timestamp.parse? start with
        | none =>
          simp only [hstart]
          exact (Verdict.of_error _).congr (by simp [hstart]) (by simp [PlanError.code, hstart])
        | some a =>
          cases hfinish : Time.Timestamp.parse? finish with
          | none =>
            simp only [hstart, hfinish]
            exact (Verdict.of_error _).congr (by simp [hfinish]) (by simp [PlanError.code, hfinish])
          | some b =>
            simp only [hstart, hfinish]
            refine Verdict.congr (Decides.of_ite_not (P := a.order b = .gt) rfl) ?_ ?_
            · simp [hstart, hfinish]
            · simp [hstart, hfinish, PlanError.code]

theorem checkLimit_decides (policy : LimitPolicy) (p : Plan) :
    Decides (checkLimit policy p.limit) (p.FitsLimit policy) .limitExceeded := by
  rw [FitsLimit]
  cases p.limit with
  | none => exact Decides.of_ok policy.default (by simp)
  | some n => exact Decides.congr (Decides.of_ite rfl) (by simp)

theorem isSound_iff {p : Plan} {e : Entity} :
    ((∀ f ∈ p.filters, f.Fits e) ∧ p.groupBy.Nodup ∧
      ((∀ a ∈ p.aggregations, Text.IsLabelSpelling a.label) ∧
        (p.aggregations.map (·.label)).Nodup ∧ (∀ a ∈ p.aggregations, a.label ∉ p.groupBy) ∧
        ∀ a ∈ p.aggregations, a.Fits e) ∧
      ∀ o ∈ p.orderBy, (o.direction = "asc" ∨ o.direction = "desc") ∧
        (p.operation = "aggregate" → p.Labels o.field ∨ o.field ∈ p.groupBy)) ↔ p.IsSound e := by
  constructor
  · intro ⟨hfilters, hgroups, ⟨hspelled, hlabels, hungrouped, htargets⟩, horders⟩
    exact ⟨hfilters, hgroups, hspelled, hlabels, hungrouped, htargets,
      fun o ho => (horders o ho).1, fun haggregate o ho => (horders o ho).2 haggregate⟩
  · intro h
    exact ⟨h.filters, h.groups_nodup,
      ⟨h.labels_spelled, h.labels_nodup, h.labels_ungrouped, h.targets⟩,
      fun o ho => ⟨h.directions o ho, fun haggregate => h.orders_grouped haggregate o ho⟩⟩

theorem isOn_iff {source : String} {d : CatalogDefinition} {g : UInt64} {c : Catalog}
    (hc : Catalog.ofDefinition source d g = .ok c) {p : Plan} {e : Entity} :
    p.IsOn c e ↔ c.entityNamed? p.entity = some e := by
  rw [Catalog.entityNamed?, find?_name_eq_some_iff (Catalog.names_nodup_of_ofDefinition hc)]
  exact ⟨fun h => ⟨h.declared, h.named⟩, fun h => ⟨h.1, h.2⟩⟩

section Stages

variable {source : String} {d : CatalogDefinition} {g : UInt64} {c : Catalog}
  (hc : Catalog.ofDefinition source d g = .ok c) {p : Plan} {e : Entity} (he : p.IsOn c e)

include hc he

/-- The conditions on the entity of the plan, as it is the only one of its name. -/
theorem isAcceptable_iff {policy : LimitPolicy} :
    p.IsAcceptable c policy ↔ p.IsShaped ∧ p.NamesFields e ∧ p.IsSound e ∧ p.FitsTimeRange e ∧
      p.FitsLimit policy := by
  constructor
  · rintro ⟨e', he', h⟩
    rw [isOn_iff hc] at he he'
    cases he.symm.trans he'
    exact h
  · exact fun h => ⟨e, he, h⟩

theorem failsWith_iff {policy : LimitPolicy} {code : ErrorCode} :
    p.FailsWith c policy code ↔
      (code = .unsupportedOperation ∧ ¬ p.IsShaped) ∨ (p.IsShaped ∧
        ((code = .unknownField ∧ ¬ p.NamesFields e) ∨ (p.NamesFields e ∧
          ((code = .invalidFilter ∧ ¬ p.IsSound e) ∨ (p.IsSound e ∧
            (((code = .timeRangeRequired ∧ p.LacksTimeRange e) ∨
                (code = .invalidFilter ∧ p.MistakesTimeRange e)) ∨
              (p.FitsTimeRange e ∧ code = .limitExceeded ∧ ¬ p.FitsLimit policy))))))) := by
  have only {e' : Entity} (he' : p.IsOn c e') : e' = e := by
    rw [isOn_iff hc] at he he'
    exact Option.some.inj (he'.symm.trans he)
  constructor
  · intro h
    cases h with
    | entity h => exact absurd he (h e)
    | operation _ h => exact .inl ⟨rfl, h⟩
    | field he' hs h =>
      cases only he'
      exact .inr ⟨hs, .inl ⟨rfl, h⟩⟩
    | filter he' hs hf h =>
      cases only he'
      exact .inr ⟨hs, .inr ⟨hf, .inl ⟨rfl, h⟩⟩⟩
    | rangeWanting he' hs hf hd h =>
      cases only he'
      exact .inr ⟨hs, .inr ⟨hf, .inr ⟨hd, .inl (.inl ⟨rfl, h⟩)⟩⟩⟩
    | rangeMistaken he' hs hf hd h =>
      cases only he'
      exact .inr ⟨hs, .inr ⟨hf, .inr ⟨hd, .inl (.inr ⟨rfl, h⟩)⟩⟩⟩
    | limit he' hs hf hd ht h =>
      cases only he'
      exact .inr ⟨hs, .inr ⟨hf, .inr ⟨hd, .inr ⟨ht, rfl, h⟩⟩⟩⟩
  · rintro (⟨rfl, h⟩ | ⟨hs, ⟨rfl, h⟩ | ⟨hf, ⟨rfl, h⟩ | ⟨hd, (⟨rfl, h⟩ | ⟨rfl, h⟩) | ⟨ht, rfl, h⟩⟩⟩⟩)
    · exact .operation he h
    · exact .field he hs h
    · exact .filter he hs hf h
    · exact .rangeWanting he hs hf hd h
    · exact .rangeMistaken he hs hf hd h
    · exact .limit he hs hf hd ht h

end Stages

/-- The checks of a plan on an entity of a catalog, one stage after the other. -/
theorem check_verdict {source : String} {d : CatalogDefinition} {g : UInt64} {c : Catalog}
    (hc : Catalog.ofDefinition source d g = .ok c) (policy : LimitPolicy) {p : Plan} {e : Entity}
    (he : p.IsOn c e) :
    Verdict (p.check c policy) (p.IsAcceptable c policy) (p.FailsWith c policy) := by
  have hnames := (Catalog.wellFormed_of_ofDefinition hc e he.declared).names_nodup
  have hindexed := isIndexed_of_ofDefinition hc he.declared
  rw [check, (isOn_iff hc).mp he]
  refine Verdict.congr (Verdict.bind p.checkOperation_decides fun shaped hshaped => ?_)
    (isAcceptable_iff hc he).symm fun code => (failsWith_iff hc he).symm
  obtain ⟨operation, functions⟩ := shaped
  obtain ⟨hoperation, hfunctions⟩ := operation_of_checkOperation hshaped
  refine Verdict.bind (resolve_decides e hoperation) fun r hr => ?_
  -- the checks of the fourth stage fail with one code
  rw [← isSound_iff]
  refine Verdict.bind_decides (filters_decides hnames hr) fun filters _ => ?_
  refine Verdict.bind_decides (groups_decides hr hindexed) fun _ _ => ?_
  refine Verdict.bind_decides (aggregations_decides hnames hr hfunctions) fun _ _ => ?_
  refine Verdict.bind (orderBy_decides hr hoperation hindexed) fun orders _ => ?_
  refine Verdict.bind (p.checkTimeRange_verdict e) fun range _ => ?_
  refine Decides.congr (Decides.bind (checkLimit_decides policy p) fun limit _ => ?_)
    (and_iff_left trivial)
  exact Decides.of_ok _ trivial

/-- A plan is accepted just when it passes all stages, and otherwise it is rejected with the code of
the first stage that it does not pass. -/
theorem check_by_stages {source : String} {d : CatalogDefinition} {g : UInt64} {c : Catalog}
    (hc : Catalog.ofDefinition source d g = .ok c) (policy : LimitPolicy) (p : Plan) :
    ((∃ checked, p.check c policy = .ok checked) ↔ p.IsAcceptable c policy) ∧
      ∀ code, (∃ err, p.check c policy = .error err ∧ err.code = code) ↔
        p.FailsWith c policy code := by
  cases hfind : c.entityNamed? p.entity with
  | some e =>
    have verdict := check_verdict hc policy ((isOn_iff hc).mpr hfind)
    exact ⟨verdict.ok_iff, verdict.error_iff⟩
  | none =>
    have undeclared : ∀ e, ¬ p.IsOn c e := by
      intro e he
      rw [isOn_iff hc, hfind] at he
      cases he
    have hcheck : p.check c policy = .error (.unknownEntity p.entity) := by rw [check, hfind]
    rw [hcheck]
    constructor
    · simp [IsAcceptable, undeclared]
    · intro code
      constructor
      · rintro ⟨_, h, rfl⟩
        cases h
        exact .entity undeclared
      · intro h
        cases h with
        | entity => exact ⟨_, rfl, rfl⟩
        | operation he | field he | filter he | rangeWanting he | rangeMistaken he | limit he =>
          exact absurd he (undeclared _)

end Plan

namespace Events

/-- A catalog of events, of which only those in a time range may be asked for. -/
def definition : CatalogDefinition where
  entities :=
    [{ name := "Event", table := "event", timeField := some "at", requires := [.timeRange],
       fields :=
        [{ name := "id", column := "id", kind := .number, unique := true },
         { name := "at", column := "at", kind := .timestamp }] }]

def entity : Entity where
  id := 0
  name := "Event"
  table := "event"
  fields :=
    [{ id := 0, name := "id", column := "id", kind := .number,
       operators := ValueKind.number.defaultOperators, unique := true, nullable := false },
     { id := 1, name := "at", column := "at", kind := .timestamp,
       operators := ValueKind.timestamp.defaultOperators, unique := false, nullable := true }]
  requiresTimeRange := true
  timeFieldId := some 1

def catalog : Catalog where
  generation := 1
  entities := [entity]

theorem ofDefinition_definition : Catalog.ofDefinition "events" definition 1 = .ok catalog := by
  decide

/-- A plan with three faults: an unknown direction, no time range and a limit of zero. -/
def plan : Plan := ((Plan.list "Event").addOrder "at" "down").withLimit 0

/-- It is the direction that is reported. -/
theorem rejects_direction :
    Catalog.ofDefinition "events" definition 1 = .ok catalog ∧
      ∃ err, plan.check catalog {} = .error err ∧ err.code = .invalidFilter := by
  refine ⟨ofDefinition_definition,
    ((Plan.check_by_stages ofDefinition_definition {} plan).2 .invalidFilter).mpr ?_⟩
  have named : plan.NamesFields entity := by
    refine ⟨?_, ?_, ?_, ?_⟩ <;> simp [plan, Plan.list, Plan.addOrder, Plan.withLimit, entity,
      Entity.Declares]
  refine .filter (e := entity) ⟨by decide, rfl⟩ (.inl ⟨rfl, rfl, rfl⟩) named fun sound => ?_
  exact absurd (sound.directions _ (List.mem_singleton_self _)) (by decide)

end Events

end CatalogQuery
