import CatalogQuery.Proofs.BoundValues
import CatalogQuery.Proofs.RequestLineage
import CatalogQuery.Proofs.SharedFingerprints
/-!
# Time ranges are enforced

Every statement that is ever run for a plan with a time range has both bounds among its conditions, on
the first page and on every page that tokens lead to, whatever other requests and reloads come between.
Where a time range is required, a plan without one is rejected and no statement is run for it.
-/
namespace CatalogQuery

/-- The statement is one of the plan, with both bounds on the time field among its conditions. -/
structure Statement.Enforces (s : Statement Param) (p : CheckedPlan) (range : CheckedRange)
    (f : Field) : Prop where
  conditions : s.conditions = p.filters.map CheckedPlan.filterCondition ++
    [.compare f.column .gte (.text range.start.text),
      .compare f.column .lte (.text range.finish.text)]
  text : ∃ before after, s.text = before ++ " WHERE " ++
    joinWith " AND " (p.filters.map (fun x => (CheckedPlan.filterCondition x).text) ++
      [f.column ++ " >= ?", f.column ++ " <= ?"] ++ (s.keyset.map keysetText).toList) ++ after
  read : Statement.ofText? s.text s.values = some s
  selects : ∀ (t : Table) (row : StoredRow),
    ((s.map Cell.ofParam).suited t).truth t row = some true →
      (t.value row f.column).compareBy .gte
          ((t.affinity f.column).apply (.text range.start.text)) = some true ∧
        (t.value row f.column).compareBy .lte
          ((t.affinity f.column).apply (.text range.finish.text)) = some true

theorem CompiledQuery.conditions_page? {q : CompiledQuery} {pageSize : UInt32} {cursor : Cursor}
    {s : Statement Param} (h : q.page? pageSize cursor = some s) :
    s.conditions = q.base.conditions := by
  rw [page?] at h
  split at h
  next => cases cursor <;> cases h <;> rfl
  next => cases h

/-- The members of the WHERE clause stand in the text, joined by AND. -/
theorem Statement.exists_text_eq_where {s : Statement Param} (h : s.whereTexts ≠ []) :
    ∃ before after, s.text = before ++ " WHERE " ++ joinWith " AND " s.whereTexts ++ after := by
  have hclause : clauseText "WHERE" " AND " s.whereTexts =
      " WHERE " ++ joinWith " AND " s.whereTexts := by
    cases hw : s.whereTexts with
    | nil => exact absurd hw h
    | cons member members => rfl
  refine ⟨"SELECT " ++ joinWith ", " (s.output.map Output.text) ++ " FROM " ++ s.table,
    clauseText "GROUP BY" ", " s.groupBy ++
      clauseText "ORDER BY" ", " (s.orderBy.map fun o => o.1.text ++ " " ++ o.2.keyword) ++
      (if s.limit.isSome then " LIMIT " ++ placeholder else "") ++
      (if s.offset.isSome then " OFFSET " ++ placeholder else ""), ?_⟩
  rw [text, baseText, hclause]
  simp only [String.append_assoc]

/-- The pages of a query enforce the time range of a plan with the same statement. -/
theorem CompiledQuery.enforces_page? {q : CompiledQuery} (hq : q.IsCompiled) {p : CheckedPlan}
    {g : UInt64} (hbase : q.base = (p.compile g).base) {range : CheckedRange} {f : Field}
    (hrange : p.timeRange = some range) (hf : p.entity.timeField = some f) {pageSize : UInt32}
    {cursor : Cursor} {s : Statement Param} (h : q.page? pageSize cursor = some s) :
    s.Enforces p range f := by
  have hconditions : s.conditions = p.filters.map CheckedPlan.filterCondition ++
      [.compare f.column .gte (.text range.start.text),
        .compare f.column .lte (.text range.finish.text)] := by
    rw [conditions_page? h, hbase, ← CheckedPlan.rangeConditions_some hrange hf]
    rfl
  have hplain : s.IsPlain := by
    obtain ⟨p', g', hp', rfl⟩ := hq
    exact isPlain_of_page? (hp'.base_isPlain g') (hp'.orderBy_plain g') h
  have hwhere : s.whereTexts =
      p.filters.map (fun x => (CheckedPlan.filterCondition x).text) ++
        [f.column ++ " >= ?", f.column ++ " <= ?"] ++ (s.keyset.map keysetText).toList := by
    have hbound (op : Comparison) (v : Param) : (Condition.compare f.column op v).text =
        f.column ++ (" " ++ op.sign ++ " ?") := by
      simp only [Condition.text, placeholder, String.append_assoc]
      rfl
    rw [Statement.whereTexts, hconditions, List.map_append, List.map_map, List.map_cons,
      List.map_singleton, hbound, hbound]
    rfl
  constructor
  · exact hconditions
  · obtain ⟨before, after, htext⟩ := s.exists_text_eq_where (by rw [hwhere]; simp)
    exact ⟨before, after, by rw [htext, hwhere]⟩
  · exact hplain.ofText?_text
  · intro t row htrue
    obtain ⟨hall, -⟩ := Statement.truth_suited_iff.mp htrue
    have hstart := hall (.compare f.column .gte (.text range.start.text)) (by simp [hconditions])
    have hfinish := hall (.compare f.column .lte (.text range.finish.text)) (by simp [hconditions])
    exact ⟨hstart, hfinish⟩

/-- A query of the fingerprint of a plan has its statement, unless their byte strings collide. -/
theorem CompiledQuery.IsCompiled.base_eq_or_collide {q : CompiledQuery} (hq : q.IsCompiled)
    {p : CheckedPlan} (hp : p.IsAccepted) {g : UInt64} (hqsized : q.IsSized)
    (hpsized : (p.compile g).IsSized)
    (hfingerprint : (p.compile g).fingerprint = q.fingerprint) :
    q.base = (p.compile g).base ∨ Bytes.Collide q.hashed (p.compile g).hashed := by
  obtain ⟨p', g', hp', rfl⟩ := hq
  rw [CheckedPlan.fingerprint_eq, CheckedPlan.fingerprint_eq] at hfingerprint
  have hhash := Bytes.Base64Url.encodeText_injective hfingerprint
  by_cases hbytes : (p'.compile g').hashed = (p.compile g).hashed
  · exact .inl (CompiledQuery.base_eq_of_hashed_eq (hp'.base_isPlain g') (hp.base_isPlain g) hqsized
      hpsized (CheckedPlan.IsAccepted.length_columns g') (CheckedPlan.IsAccepted.length_columns g)
      hbytes).1
  · exact .inr ⟨hbytes, hhash.symm⟩

/-- The request brings the plan, or it was answered with the error. -/
def Stage.IsRejected (plan : Plan) (c : Catalog) (err : PlanError) : Stage → Prop
  | .submitted plan' catalog _ => plan' = plan ∧ catalog = c
  | .answered (.error f _) _ _ | .done (.error f _) _ => f = err.toFailure
  | _ => False

/-- A plan that does not pass its checks is answered with its error in the next step. -/
theorem Engine.isRejected_step {e : Engine} {plan : Plan} {c : Catalog} {err : PlanError}
    (herr : plan.check c e.limits = .error err) {s : Stage} (h : s.IsRejected plan c err)
    (a : Ambient) : (e.step a s).2.IsRejected plan c err := by
  cases s with
  | submitted plan' catalog request =>
    obtain ⟨rfl, rfl⟩ := h
    simp only [step, herr]
    rfl
  | answered result claimed request =>
    cases result with
    | error f id => exact h
    | success => exact h.elim
  | done result request => exact h
  | presented | verified | ready | executed | brokenOff => exact h.elim

namespace Serving

/-- Let an engine be started with a loaded catalog, serve any requests and be reloaded any number of
times, and let a plan come in. Either the plan is rejected, with an error for its answer, and no
statement is ever run for it. Or it is accepted: then it has a time range if one is required, and every
statement that is ever run for it, at whatever cursor, has both bounds of its range among its
conditions, unless the query that is run and that of the plan are two byte strings of one hash. -/
theorem enforces_timeRange {e : Engine} (he : e.IsFresh) (hcatalog : e.catalog.IsLoaded)
    {steps : List ServingStep} (hsteps : ∀ c, .reload c ∈ steps → c.IsLoaded)
    {before after : List ServingStep} {a : Ambient} {plan : Plan}
    (hsplit : steps = before ++ .submit a plan :: after) :
    let start : Serving := ⟨e, [], []⟩
    let c := (start.run before).engine.catalog
    let first := (start.run before).pending.length
    (∃ err, plan.check c e.limits = .error err ∧
      (∀ moment rest p, steps = moment ++ rest → (start.run moment).pending[first]? = some p →
        p.stage.IsRejected plan c err) ∧
      ∀ i q s, start.Follows steps first i → ¬ start.Executes steps i q s) ∨
    ∃ p, plan.check c e.limits = .ok p ∧
      (p.entity.requiresTimeRange = true → p.timeRange.isSome = true) ∧
      ∀ range, p.timeRange = some range → range.IsAccepted plan p.entity ∧
        ∃ f, p.entity.timeField = some f ∧
          ∀ i q s, start.Follows steps first i → start.Executes steps i q s →
            q.IsSized → (p.compile c.generation).IsSized →
              s.Enforces p range f ∨ Bytes.Collide q.hashed (p.compile c.generation).hashed := by
  intro start c first
  have hs : start.Sound e := Sound.of_isFresh he hcatalog
  cases hcheck : plan.check c e.limits with
  | error err =>
    refine .inl ⟨err, rfl, fun moment rest p hmoment hp => ?_, fun i q s hi hexecutes => ?_⟩
    · refine stage_of_receive hs hsteps (fun s' a' p' hs' _ h => ?_) hsplit rfl ⟨rfl, rfl⟩ hmoment hp
      exact Engine.isRejected_step (by rw [hs'.limits]; exact hcheck) h a'
    · obtain ⟨-, ⟨p, hp, -⟩, -⟩ := hi.executes hs hsteps hsplit hexecutes
      rw [hcheck] at hp
      cases hp
  | ok p =>
    refine .inr ⟨p, rfl, Plan.timeRange_isSome hcheck, fun range hrange => ?_⟩
    have haccepted := Plan.isAccepted_of_timeRange hcheck hrange
    obtain ⟨f, hf⟩ := Option.isSome_iff_exists.mp haccepted.timeField
    refine ⟨haccepted, f, hf, fun i q s hi hexecutes hqsized hpsized => ?_⟩
    obtain ⟨hq, ⟨p', hp', hfingerprint⟩, pageSize, cursor, hpage⟩ :=
      hi.executes hs hsteps hsplit hexecutes
    rw [hcheck] at hp'
    cases hp'
    obtain ⟨source, d, hloaded⟩ : c.IsLoaded := (sound_of_split hs hsteps hsplit).catalog
    have hp := (Plan.isAccepted_of_check hloaded hcheck).1
    rcases hq.base_eq_or_collide hp hqsized hpsized hfingerprint with hbase | hcollide
    · exact .inl (CompiledQuery.enforces_page? hq hbase hrange hf hpage)
    · exact .inr hcollide

end Serving

namespace Events

def dayPlan : Plan := (Plan.list "Event").withTimeRange "2024-05-01" "2024-05-02"

def day : CheckedRange := ⟨⟨1714521600, 0⟩, ⟨1714608000, 0⟩⟩

def dayChecked : CheckedPlan where
  entity := entity
  operation := .list
  filters := []
  orderBy := []
  groupBy := []
  aggregations := []
  timeRange := some day
  limit := 100
  requestId := none

theorem check_dayPlan : dayPlan.check catalog {} = .ok dayChecked := by decide +kernel

def engine : Engine where
  catalog := catalog
  codec := .new { secret := "s" } 1
  metrics := {}
  limits := {}
  catalogPath := none

def ambient : Ambient where
  backend := fun _ _ => .ok []
  freshId := "r"
  nonce := "n"
  registeredAt := 0
  verifiedAt := 0
  lookedUpAt := 0
  consumedAt := 0
  mintedAt := 0
  elapsedMs := 0

/-- The plan is checked, compiled and run. -/
def steps : List ServingStep := [.submit ambient dayPlan, .advance 0 ambient, .advance 0 ambient]

theorem isSized_dayChecked : (dayChecked.compile 1).IsSized where
  columns := by
    intro column hcolumn
    rcases List.mem_cons.mp hcolumn with rfl | hcolumn
    · exact (by decide : (Bytes.ofString "id").length < pow2 64)
    · cases List.mem_singleton.mp hcolumn
      exact (by decide : (Bytes.ofString "at").length < pow2 64)
  values := by
    have hvalues : (dayChecked.compile 1).base.values =
        [.text "2024-05-01 00:00:00", .text "2024-05-02 00:00:00"] := by decide +kernel
    rw [hvalues]
    intro s hs
    rcases List.mem_cons.mp hs with hs | hs
    · cases hs
      exact (by decide : (Bytes.ofString "2024-05-01 00:00:00").length < pow2 64)
    · cases List.mem_singleton.mp hs
      exact (by decide : (Bytes.ofString "2024-05-02 00:00:00").length < pow2 64)

/-- The statement that is run for the plan has both bounds of the day. -/
theorem enforces_day :
    ∃ s f, Serving.Executes ⟨engine, [], []⟩ steps 0 (dayChecked.compile 1) s ∧
      entity.timeField = some f ∧ s.Enforces dayChecked day f := by
  have hexecutes : Serving.Executes ⟨engine, [], []⟩ steps 0 (dayChecked.compile 1)
      { (dayChecked.compile 1).base with limit := some (.integer 101) } :=
    ⟨[.submit ambient dayPlan, .advance 0 ambient], ambient, [], _, rfl, rfl, rfl⟩
  have hsteps : ∀ c, .reload c ∈ steps → c.IsLoaded := by
    intro c hc
    simp [steps] at hc
  have hsplit : steps = [] ++ .submit ambient dayPlan :: steps.tail := rfl
  rcases Serving.enforces_timeRange (e := engine) ⟨rfl, rfl⟩ ⟨"events", definition, ofDefinition_definition⟩
    hsteps hsplit with ⟨err, herr, -⟩ | ⟨p, hp, -, henforced⟩
  · cases herr.symm.trans check_dayPlan
  · cases hp.symm.trans check_dayPlan
    obtain ⟨-, f, hf, hevery⟩ := henforced day rfl
    rcases hevery 0 _ _ .first hexecutes isSized_dayChecked isSized_dayChecked with h | h
    · exact ⟨_, f, hexecutes, hf, h⟩
    · exact absurd rfl h.1

end Events

end CatalogQuery
