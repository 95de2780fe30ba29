import CatalogQuery.Proofs.BoundValues
/-!
# Texts that do not depend on values

Two plans that name the same things and differ only in values compile to queries of one template: what
the caller sent as values is in the parameters and nowhere else. So it is with two cursors of one mode
whose values are null at the same places.
-/
namespace CatalogQuery

/-- Two filters with the same operator on the same field, and with lists of one length. -/
structure Plan.Filter.SameShape (a b : Filter) : Prop where
  field : a.field = b.field
  operator : a.operator = b.operator
  length : a.operator = "in" → ∀ xs ys, a.value = .arr xs → b.value = .arr ys →
    xs.length = ys.length

/-- Both bounds of the time range are there and not blank. -/
def Plan.HasTimeRange (p : Plan) : Prop := (∃ s, p.StartsAt s) ∧ ∃ s, p.EndsAt s

/-- Two plans that differ in the values of their filters, in the bounds of their time ranges, in their
limits and in their ids only. -/
structure Plan.SameShape (a b : Plan) : Prop where
  entity : a.entity = b.entity
  operation : a.operation = b.operation
  groupBy : a.groupBy = b.groupBy
  aggregations : a.aggregations = b.aggregations
  orderBy : a.orderBy = b.orderBy
  filters : List.Forall₂ Filter.SameShape a.filters b.filters
  timeRange : a.HasTimeRange ↔ b.HasTimeRange

/-- Two cursors of one mode, with nulls at the same places. -/
def Cursor.SameShape : Cursor → Cursor → Prop
  | .start, .start => True
  | .keyset values, .keyset values' =>
    ∀ i : Nat, values[i]? = some Param.null ↔ values'[i]? = some Param.null
  | .offset _, .offset _ => True
  | _, _ => False

def Statement.template {α : Type} (s : Statement α) : Statement Unit := s.map fun _ => ()

theorem Statement.text_eq_of_template_eq {α β : Type} {s : Statement α} {s' : Statement β}
    (h : s.template = s'.template) : s.text = s'.text := by
  have hs : s.template.text = s.text := text_map (fun _ => ()) s
  have hs' : s'.template.text = s'.text := text_map (fun _ => ()) s'
  rw [← hs, h, hs']

def CheckedFilter.template (f : CheckedFilter) : Condition Unit :=
  (CheckedPlan.filterCondition f).map fun _ => ()

/-- Two checked plans that compile to one template. -/
structure CheckedPlan.SameShape (p p' : CheckedPlan) : Prop where
  entity : p.entity = p'.entity
  operation : p.operation = p'.operation
  groupBy : p.groupBy = p'.groupBy
  aggregations : p.aggregations = p'.aggregations
  orderBy : p.orderBy = p'.orderBy
  filters : p.filters.map CheckedFilter.template = p'.filters.map CheckedFilter.template
  timeRange : p.timeRange.isSome = p'.timeRange.isSome

namespace Plan

theorem length_of_checkAll {α β ε : Type} {f : α → Except ε β} {xs : List α} {ys : List β}
    (h : checkAll f xs = .ok ys) : xs.length = ys.length :=
  (forall₂_of_checkAll h).length_eq

theorem checkAll_map {α β γ ε : Type} (f : β → Except ε γ) (g : α → β) (xs : List α) :
    checkAll f (xs.map g) = checkAll (fun x => f (g x)) xs := by
  induction xs with
  | nil => rfl
  | cons x xs ih => rw [List.map_cons, checkAll, checkAll, ih]

/-- Operands of one operator on one field make conditions of one template, if lists of them are of one
length. -/
theorem template_eq_of_checkOperand {f : Field} {o : Operator} {v v' : Json} {pr pr' : Predicate}
    (hlength : o = .isIn → ∀ xs ys, v = .arr xs → v' = .arr ys → xs.length = ys.length)
    (h : checkOperand f o v = .ok pr) (h' : checkOperand f o v' = .ok pr') :
    CheckedFilter.template ⟨f, pr⟩ = CheckedFilter.template ⟨f, pr'⟩ := by
  cases o with
  | eq | neq | gt | gte | lt | lte =>
    obtain ⟨s, -, rfl⟩ := map_ok h
    obtain ⟨s', -, rfl⟩ := map_ok h'
    rfl
  | isIn =>
    have hlist {v : Json} {pr : Predicate} (h : checkList f v = .ok pr) :
        ∃ xs ss, v = .arr xs ∧ pr = .isIn ss ∧ xs.length = ss.length := by
      unfold checkList at h
      split at h
      next => cases h
      next items _ =>
        split at h
        next => cases h
        next =>
          obtain ⟨ss, hss, rfl⟩ := map_ok h
          exact ⟨items, ss, rfl, rfl, length_of_checkAll hss⟩
      next => cases h
    obtain ⟨xs, ss, rfl, rfl, hxs⟩ := hlist h
    obtain ⟨ys, ss', rfl, rfl, hys⟩ := hlist h'
    have hsame : ss.length = ss'.length := by
      rw [← hxs, ← hys]
      exact hlength rfl xs ys rfl rfl
    simp [CheckedFilter.template, CheckedPlan.filterCondition, Condition.map, Function.comp_def,
      hsame]
  | like =>
    obtain ⟨s, rfl⟩ := checkPattern_ok h
    obtain ⟨s', rfl⟩ := checkPattern_ok h'
    rfl
  | between =>
    have hbounds {v : Json} {pr : Predicate} (h : checkBounds f v = .ok pr) :
        ∃ low high, pr = .between low high := by
      unfold checkBounds at h
      split at h
      next =>
        obtain ⟨low, -, h⟩ := bind_ok h
        obtain ⟨high, -, h⟩ := bind_ok h
        split at h
        next => cases h
        next =>
          cases h
          exact ⟨low, high, rfl⟩
      next => cases h
    obtain ⟨low, high, rfl⟩ := hbounds h
    obtain ⟨low', high', rfl⟩ := hbounds h'
    rfl

theorem template_eq_of_checkFilter {a b : Filter} {f : Field} {x y : CheckedFilter}
    (hab : a.SameShape b) (hx : checkFilter (a, f) = .ok x) (hy : checkFilter (b, f) = .ok y) :
    x.template = y.template := by
  unfold checkFilter at hx hy
  rw [← hab.operator] at hy
  cases ho : Operator.ofName? a.operator with
  | none => simp only [ho] at hx; cases hx
  | some o =>
    simp only [ho] at hx hy
    split at hx
    next hallows =>
      rw [if_pos hallows] at hy
      obtain ⟨pr, hpr, rfl⟩ := map_ok hx
      obtain ⟨pr', hpr', rfl⟩ := map_ok hy
      refine template_eq_of_checkOperand (fun hin => hab.length ?_) hpr hpr'
      rw [← Operator.name_of_ofName? ho, hin]
      rfl
    next => cases hx

theorem map_template_of_checkAll {as bs : List Filter} (h : List.Forall₂ Filter.SameShape as bs)
    {fs : List Field} {xs ys : List CheckedFilter}
    (hxs : checkAll checkFilter (as.zip fs) = .ok xs)
    (hys : checkAll checkFilter (bs.zip fs) = .ok ys) :
    xs.map CheckedFilter.template = ys.map CheckedFilter.template := by
  induction h generalizing fs xs ys with
  | nil =>
    cases hxs
    cases hys
    rfl
  | cons hab _ ih =>
    cases fs with
    | nil =>
      cases hxs
      cases hys
      rfl
    | cons f fs =>
      obtain ⟨x, hx, hxs⟩ := bind_ok hxs
      obtain ⟨restxs, hrestxs, hxs⟩ := bind_ok hxs
      obtain ⟨y, hy, hys⟩ := bind_ok hys
      obtain ⟨restys, hrestys, hys⟩ := bind_ok hys
      cases hxs
      cases hys
      rw [List.map_cons, List.map_cons, template_eq_of_checkFilter hab hx hy, ih hrestxs hrestys]

variable {c : Catalog} {policy policy' : LimitPolicy} {plan plan' : Plan} {p p' : CheckedPlan}

theorem isSome_timeRange_iff (hp : plan.check c policy = .ok p) :
    p.timeRange.isSome = true ↔ plan.HasTimeRange := by
  obtain ⟨functions, r, hstages⟩ := stages_of_check hp
  rcases timeRange_of_checkTimeRange hstages.timeRange with ⟨hnone, hstart, -⟩ | ⟨r, hr, haccepted⟩
  · rw [hnone]
    exact iff_of_false (by decide) fun ⟨⟨s, hs⟩, _⟩ => hstart s hs
  · rw [hr]
    obtain ⟨s, hs, -⟩ := haccepted.start
    obtain ⟨t, ht, -⟩ := haccepted.finish
    exact iff_of_true rfl ⟨⟨s, hs⟩, ⟨t, ht⟩⟩

/-- The operation and its functions do not depend on values. -/
theorem SameShape.checkOperation_eq (h : plan.SameShape plan') :
    plan.checkOperation = plan'.checkOperation := by
  have hshape (operation : Operation) : plan.checkShape operation = plan'.checkShape operation := by
    cases operation with
    | list => simp only [checkShape, h.aggregations, h.groupBy]
    | aggregate => simp only [checkShape, h.aggregations]
  rw [checkOperation, checkOperation, h.operation, h.aggregations]
  simp only [hshape]

/-- Nor do the fields that are found. -/
theorem SameShape.resolve_eq (h : plan.SameShape plan') (e : Entity) (operation : Operation) :
    plan.resolve e operation = plan'.resolve e operation := by
  have hnames : plan.filters.map (·.field) = plan'.filters.map (·.field) := by
    have hfilters := h.filters
    generalize plan.filters = as, plan'.filters = bs at hfilters ⊢
    induction hfilters with
    | nil => rfl
    | cons hab _ ih => rw [List.map_cons, List.map_cons, hab.field, ih]
  have hfilters : checkAll (fun f : Filter => resolveField e f.field) plan.filters =
      checkAll (fun f : Filter => resolveField e f.field) plan'.filters := by
    rw [← checkAll_map (resolveField e) Filter.field, hnames, checkAll_map]
  rw [resolve, resolve, hfilters, h.groupBy, h.aggregations, h.orderBy]

/-- Plans of one shape that pass their checks are checked plans of one shape. -/
theorem SameShape.check (h : plan.SameShape plan') (hp : plan.check c policy = .ok p)
    (hp' : plan'.check c policy' = .ok p') : p.SameShape p' := by
  obtain ⟨functions, r, hs⟩ := stages_of_check hp
  obtain ⟨functions', r', hs'⟩ := stages_of_check hp'
  have hentity : p.entity = p'.entity := by
    have hfound := hs'.entity
    rw [← h.entity, hs.entity] at hfound
    exact Option.some.inj hfound
  obtain ⟨hoperation, hfunctions⟩ : p.operation = p'.operation ∧ functions = functions' := by
    have hfound := hs'.operation
    rw [← h.checkOperation_eq, hs.operation] at hfound
    exact Prod.mk.inj (Except.ok.inj hfound)
  have hresolved : r = r' := by
    have hfound := hs'.resolved
    rw [← h.resolve_eq, ← hentity, ← hoperation, hs.resolved] at hfound
    exact Except.ok.inj hfound
  subst hfunctions hresolved
  have horder : p.orderBy = p'.orderBy := by
    have hfound := hs'.orderBy
    rw [← h.orderBy, ← hoperation, hs.orderBy] at hfound
    exact Except.ok.inj hfound
  exact
    { entity := hentity
      operation := hoperation
      groupBy := hs.groupBy.trans hs'.groupBy.symm
      aggregations := by rw [hs.aggregations_eq, hs'.aggregations_eq, h.aggregations]
      orderBy := horder
      filters := map_template_of_checkAll h.filters hs.filters hs'.filters
      timeRange := by
        rw [Bool.eq_iff_iff, isSome_timeRange_iff hp, isSome_timeRange_iff hp', h.timeRange] }

end Plan

namespace CheckedPlan.SameShape

variable {p p' : CheckedPlan} (h : p.SameShape p') (generation generation' : UInt64)

include h

theorem outputs_eq : p.outputs = p'.outputs := by
  rw [outputs, outputs, h.operation, h.entity, h.groupBy, h.aggregations]

theorem columns_eq : (p.compile generation).columns = (p'.compile generation').columns :=
  congrArg (List.map Prod.snd) h.outputs_eq

theorem orderBy_eq : (p.compile generation).orderBy = (p'.compile generation').orderBy := by
  have hkeys (columns : List OutputColumn) : p.orderKey columns = p'.orderKey columns := by
    funext o
    rw [orderKey, orderKey, h.aggregations]
  show p.orderBy.map (p.orderKey (p.compile generation).columns) =
    p'.orderBy.map (p'.orderKey (p'.compile generation').columns)
  rw [hkeys, h.orderBy, h.columns_eq generation generation']

theorem cursorMode_eq : (p.compile generation).cursorMode = (p'.compile generation').cursorMode := by
  show p.cursorMode = p'.cursorMode
  rw [cursorMode, cursorMode, tellsRowsApart, tellsRowsApart, h.operation, h.orderBy]

theorem rangeConditions_map_eq : p.rangeConditions.map (Condition.map fun _ => ()) =
    p'.rangeConditions.map (Condition.map fun _ => ()) := by
  have hsome := h.timeRange
  rw [rangeConditions, rangeConditions, h.entity]
  cases hr : p.timeRange with
  | none =>
    rw [hr] at hsome
    rw [Option.isSome_eq_false_iff.mp hsome.symm |> Option.isNone_iff_eq_none.mp]
  | some range =>
    rw [hr] at hsome
    obtain ⟨range', hr'⟩ := Option.isSome_iff_exists.mp hsome.symm
    rw [hr']
    cases p'.entity.timeField <;> rfl

theorem template_base_eq :
    (p.compile generation).base.template = (p'.compile generation').base.template := by
  have hconditions : (p.filters.map filterCondition ++ p.rangeConditions).map
        (Condition.map fun _ => ()) =
      (p'.filters.map filterCondition ++ p'.rangeConditions).map (Condition.map fun _ => ()) := by
    rw [List.map_append, List.map_append, List.map_map, List.map_map, h.rangeConditions_map_eq]
    exact congrArg (· ++ _) h.filters
  have houtput : (p.compile generation).base.output = (p'.compile generation').base.output :=
    congrArg (List.map Prod.fst) h.outputs_eq
  have horder : (p.compile generation).base.orderBy = (p'.compile generation').base.orderBy :=
    congrArg (List.map fun k : OrderKey => (k.term, k.direction)) (h.orderBy_eq generation generation')
  have hgroup : p.groupBy.map (·.column) = p'.groupBy.map (·.column) := by rw [h.groupBy]
  have htable : p.entity.table = p'.entity.table := by rw [h.entity]
  simp only [Statement.template, Statement.map, houtput, horder]
  simp only [compile, hconditions, hgroup, htable, Option.map_none]

end CheckedPlan.SameShape

namespace OrderKey

variable (k : OrderKey) {v v' : Param} (h : v = .null ↔ v' = .null)

include h

theorem tied_map_eq : (k.tied v).map (fun _ => ()) = (k.tied v').map fun _ => () := by
  by_cases hv : v = .null
  · rw [hv, h.mp hv]
  · rw [tied_of_ne_null hv, tied_of_ne_null (mt h.mpr hv)]
    rfl

theorem after_map_eq : (k.after v).map (KeyTest.map fun _ => ()) =
    (k.after v').map (KeyTest.map fun _ => ()) := by
  by_cases hv : v = .null
  · rw [hv, h.mp hv]
  · rw [after_of_ne_null hv, after_of_ne_null (mt h.mpr hv)]
    cases k.direction with
    | asc => rfl
    | desc => cases k.nullable <;> rfl

end OrderKey

def branchTemplates {α : Type} (branches : List (List (KeyTest α))) : List (List (KeyTest Unit)) :=
  branches.map fun branch => branch.map (KeyTest.map fun _ => ())

/-- The branches depend on where the values are null only. -/
theorem keysetBranches_template_eq {values values' : List Param}
    (h : List.Forall₂ (fun v v' => v = .null ↔ v' = .null) values values')
    (ks : List OrderKey) {ties ties' : List (KeyTest Param)}
    (hties : ties.map (KeyTest.map fun _ => ()) = ties'.map (KeyTest.map fun _ => ())) :
    branchTemplates (keysetBranches ties (ks.zip values)) =
      branchTemplates (keysetBranches ties' (ks.zip values')) := by
  induction h generalizing ks ties ties' with
  | nil => rw [List.zip_nil_right, keysetBranches, keysetBranches]
  | @cons v v' values values' hv _ ih =>
    cases ks with
    | nil => rfl
    | cons k ks =>
      have hlater : (ties ++ [k.tied v]).map (KeyTest.map fun _ => ()) =
          (ties' ++ [k.tied v']).map (KeyTest.map fun _ => ()) := by
        rw [List.map_append, List.map_append, hties, List.map_singleton, List.map_singleton,
          k.tied_map_eq hv]
      have hbranch (ties : List (KeyTest Param)) (test : Option (KeyTest Param)) :
          branchTemplates (test.toList.map fun test => ties ++ [test]) =
            (test.map (KeyTest.map fun _ => ())).toList.map fun test =>
              ties.map (KeyTest.map fun _ => ()) ++ [test] := by
        cases test <;> simp [branchTemplates]
      have hbranches (branches branches' : List (List (KeyTest Param))) :
          branchTemplates (branches ++ branches') =
            branchTemplates branches ++ branchTemplates branches' := List.map_append
      rw [List.zip_cons_cons, List.zip_cons_cons, keysetBranches_cons, keysetBranches_cons,
        hbranches, hbranches, hbranch, hbranch, hties, k.after_map_eq hv, ih ks hlater]

namespace CompiledQuery

variable {q q' : CompiledQuery}

/-- Accepted keyset cursors are as long as the ordering, so they are null together. -/
theorem forall₂_null_of_accepts (horder : q.orderBy = q'.orderBy) {values values' : List Param}
    (h : (Cursor.keyset values).SameShape (.keyset values'))
    (hq : q.accepts (.keyset values) = true) (hq' : q'.accepts (.keyset values') = true) :
    List.Forall₂ (fun v v' => v = .null ↔ v' = .null) values values' := by
  have hlength : values.length = values'.length := by
    rw [(accepts_keyset_iff.mp hq).2, (accepts_keyset_iff.mp hq').2, horder]
  rw [List.forall₂_iff_get]
  refine ⟨hlength, fun i hi hi' => ?_⟩
  have hat := h i
  rwa [List.getElem?_eq_getElem hi, List.getElem?_eq_getElem hi', Option.some_inj, Option.some_inj]
    at hat

/-- The pages of queries of one template at cursors of one shape are of one template. -/
theorem template_page?_eq (hbase : q.base.template = q'.base.template)
    (horder : q.orderBy = q'.orderBy) {cursor cursor' : Cursor} (h : cursor.SameShape cursor')
    (hq : q.accepts cursor = true) (hq' : q'.accepts cursor' = true) (pageSize pageSize' : UInt32) :
    ∃ s s', q.page? pageSize cursor = some s ∧ q'.page? pageSize' cursor' = some s' ∧
      s.template = s'.template := by
  rw [page?, page?, if_pos hq, if_pos hq']
  cases cursor with
  | start =>
    cases cursor' with
    | start =>
      refine ⟨_, _, rfl, rfl, ?_⟩
      show { q.base.template with limit := some () } = { q'.base.template with limit := some () }
      rw [hbase]
    | keyset | offset => exact h.elim
  | keyset values =>
    cases cursor' with
    | keyset values' =>
      refine ⟨_, _, rfl, rfl, ?_⟩
      have hkeyset : branchTemplates (keysetBranches [] (q.orderBy.zip values)) =
          branchTemplates (keysetBranches [] (q.orderBy.zip values')) :=
        keysetBranches_template_eq (forall₂_null_of_accepts horder h hq hq') q.orderBy rfl
      show { q.base.template with
          limit := some ()
          keyset := some (branchTemplates (keysetBranches [] (q.orderBy.zip values))) } =
        { q'.base.template with
          limit := some ()
          keyset := some (branchTemplates (keysetBranches [] (q'.orderBy.zip values'))) }
      rw [hbase, hkeyset, horder]
    | start | offset => exact h.elim
  | offset rows =>
    cases cursor' with
    | offset rows' =>
      refine ⟨_, _, rfl, rfl, ?_⟩
      show { q.base.template with limit := some (), offset := some () } =
        { q'.base.template with limit := some (), offset := some () }
      rw [hbase]
    | start | keyset => exact h.elim

end CompiledQuery

namespace Plan

variable {c : Catalog} {policy policy' : LimitPolicy} {plan plan' : Plan} {p p' : CheckedPlan}

/-- Two plans that pass their checks and differ in values only compile to queries with one text and the
same columns, ordering keys and cursor mode, and their pages at cursors of one mode with nulls at the
same places have one text. Only the values of the statements differ. -/
theorem text_eq_of_sameShape (h : plan.SameShape plan') (hp : plan.check c policy = .ok p)
    (hp' : plan'.check c policy' = .ok p') (generation generation' : UInt64) :
    (p.compile generation).base.text = (p'.compile generation').base.text ∧
      (p.compile generation).base.template = (p'.compile generation').base.template ∧
      (p.compile generation).columns = (p'.compile generation').columns ∧
      (p.compile generation).orderBy = (p'.compile generation').orderBy ∧
      (p.compile generation).cursorMode = (p'.compile generation').cursorMode ∧
      ∀ (pageSize pageSize' : UInt32) (cursor cursor' : Cursor), cursor.SameShape cursor' →
        (p.compile generation).accepts cursor = true →
        (p'.compile generation').accepts cursor' = true →
        ∃ s s', (p.compile generation).page? pageSize cursor = some s ∧
          (p'.compile generation').page? pageSize' cursor' = some s' ∧
          s.text = s'.text ∧ s.template = s'.template := by
  have hshape := h.check hp hp'
  have hbase := hshape.template_base_eq generation generation'
  have horder := hshape.orderBy_eq generation generation'
  refine ⟨Statement.text_eq_of_template_eq hbase, hbase, hshape.columns_eq _ _, horder,
    hshape.cursorMode_eq _ _, ?_⟩
  intro pageSize pageSize' cursor cursor' hcursor haccepts haccepts'
  obtain ⟨s, s', hs, hs', hpage⟩ := CompiledQuery.template_page?_eq hbase horder hcursor haccepts
    haccepts' pageSize pageSize'
  exact ⟨s, s', hs, hs', Statement.text_eq_of_template_eq hpage, hpage⟩

end Plan

namespace DatedBooks

/-- The plan with titles that would end a text in quotes, on other days, and with a limit. -/
def hostile : Plan :=
  ((((((Plan.list "Book").addFilter "title" "in" (.arr [.str "') OR 1=1 --", .str "\""])).withTimeRange
    "1999-12-31T23:59:59Z" "2000-01-01").addOrder "title" "desc").addOrder "id" "asc").withLimit
      7).withRequestId "?"

def checkedHostile : CheckedPlan :=
  { checked with
    filters := checked.filters.map fun x =>
      { x with predicate := .isIn [.text "') OR 1=1 --", .text "\""] }
    timeRange := some ⟨⟨946684799, 0⟩, ⟨946684800, 0⟩⟩
    limit := 7
    requestId := some "?" }

theorem check_hostile : hostile.check catalog {} = .ok checkedHostile := by decide +kernel

theorem sameShape_hostile : plan.SameShape hostile where
  entity := rfl
  operation := rfl
  groupBy := rfl
  aggregations := rfl
  orderBy := rfl
  filters := by
    refine .cons ⟨rfl, rfl, fun _ xs ys hxs hys => ?_⟩ .nil
    cases hxs
    cases hys
    rfl
  timeRange := by
    have hplan := Plan.isSome_timeRange_iff check_plan
    have hhostile := Plan.isSome_timeRange_iff check_hostile
    rw [← hplan, ← hhostile]
    rfl

/-- The two plans have one text, and so have their pages behind a book without a title. -/
theorem text_eq_hostile :
    (checked.compile 1).base.text = (checkedHostile.compile 1).base.text ∧
      ∃ s s', (checked.compile 1).page? 100 (.keyset [.null, .integer 7]) = some s ∧
        (checkedHostile.compile 1).page? 7 (.keyset [.null, .text "' --"]) = some s' ∧
        s.text = s'.text := by
  obtain ⟨htext, -, -, -, -, hpages⟩ :=
    Plan.text_eq_of_sameShape sameShape_hostile check_plan check_hostile 1 1
  have hnulls : (Cursor.keyset [.null, .integer 7]).SameShape (.keyset [.null, .text "' --"]) := by
    intro i
    match i with
    | 0 => exact Iff.rfl
    | 1 => exact iff_of_false (by decide) (by decide)
    | _ + 2 => exact iff_of_false (by simp) (by simp)
  obtain ⟨s, s', hs, hs', hpage, -⟩ := hpages 100 7 _ _ hnulls rfl rfl
  exact ⟨htext, s, s', hs, hs', hpage⟩

end DatedBooks

end CatalogQuery
