import CatalogQuery.Proofs.RequestCourse
import Mathlib
/-!
# Counted outcomes

An engine counts what comes in and every result that a request is answered with, each result once
and under one counter. So when no request is under way, as many have come in as have succeeded, were
rejected, failed or broke off, and only of the last is there no count. The counters go around at two to
the power of 64, and so do the sums here.
-/
namespace CatalogQuery

namespace QueryResult

def rowCount (r : QueryResult) : Nat := (r.data?.map (·.records.length)).getD 0

def category? (r : QueryResult) : Option ErrorCategory := r.errorCode?.map ErrorCode.category

/-- A result has just one of five outcomes. -/
theorem one_eq (r : QueryResult) : 1 =
    (if r.isSuccess then 1 else 0) + (if r.category? == some .validation then 1 else 0) +
      (if r.category? == some .pagination then 1 else 0) +
      (if r.errorCode? == some .executionTimeout then 1 else 0) +
      (if r.errorCode? == some .executionFailure then 1 else 0) := by
  cases r with
  | success data metadata pagination => rfl
  | error f requestId =>
    rw [category?, isSuccess, errorCode?]
    cases f.code <;> rfl

theorem length_eq (results : List QueryResult) : results.length =
    results.countP (·.isSuccess) + results.countP (·.category? == some .validation) +
      results.countP (·.category? == some .pagination) +
      results.countP (·.errorCode? == some .executionTimeout) +
      results.countP (·.errorCode? == some .executionFailure) := by
  induction results with
  | nil => rfl
  | cons r results ih =>
    have hone := r.one_eq
    simp only [List.countP_cons, List.length_cons]
    omega

end QueryResult

namespace Metrics

def countResult (m : Metrics) : QueryResult → Metrics
  | .success data _ _ => m.countSuccess data.records.length
  | .error f _ => m.countFailure f.code

theorem countResult_eq (m : Metrics) (r : QueryResult) : m.countResult r =
    { m with
      queriesSucceeded := m.queriesSucceeded + .ofNat (if r.isSuccess then 1 else 0)
      plansRejected := m.plansRejected +
        .ofNat (if r.category? == some .validation then 1 else 0)
      tokensRejected := m.tokensRejected +
        .ofNat (if r.category? == some .pagination then 1 else 0)
      executionTimeouts := m.executionTimeouts +
        .ofNat (if r.errorCode? == some .executionTimeout then 1 else 0)
      executionFailures := m.executionFailures +
        .ofNat (if r.errorCode? == some .executionFailure then 1 else 0)
      rowsReturned := m.rowsReturned + .ofNat r.rowCount } := by
  cases r with
  | success data metadata pagination =>
    simp [countResult, countSuccess, QueryResult.isSuccess, QueryResult.category?,
      QueryResult.errorCode?, QueryResult.rowCount, QueryResult.data?]
  | error f requestId =>
    cases hcode : f.code <;>
      simp [countResult, countFailure, QueryResult.isSuccess, QueryResult.category?,
        QueryResult.errorCode?, QueryResult.rowCount, QueryResult.data?, hcode, ErrorCode.category]

/-- The counters of an engine to which so many plans and tokens have come and that has answered with
these results. -/
structure Tallies (m : Metrics) (plans pages : Nat) (results : List QueryResult) : Prop where
  plansReceived : m.plansReceived = .ofNat plans
  pagesRequested : m.pagesRequested = .ofNat pages
  queriesSucceeded : m.queriesSucceeded = .ofNat (results.countP (·.isSuccess))
  plansRejected : m.plansRejected = .ofNat (results.countP (·.category? == some .validation))
  tokensRejected : m.tokensRejected = .ofNat (results.countP (·.category? == some .pagination))
  executionTimeouts :
    m.executionTimeouts = .ofNat (results.countP (·.errorCode? == some .executionTimeout))
  executionFailures :
    m.executionFailures = .ofNat (results.countP (·.errorCode? == some .executionFailure))
  rowsReturned : m.rowsReturned = .ofNat (results.map (·.rowCount)).sum

theorem tallies_zero : ({} : Metrics).Tallies 0 0 [] := by
  constructor <;> rfl

namespace Tallies

variable {m : Metrics} {plans pages : Nat} {results : List QueryResult}

theorem perm (h : m.Tallies plans pages results) {results' : List QueryResult}
    (hperm : results.Perm results') : m.Tallies plans pages results' where
  plansReceived := h.plansReceived
  pagesRequested := h.pagesRequested
  queriesSucceeded := by rw [h.queriesSucceeded, hperm.countP_eq]
  plansRejected := by rw [h.plansRejected, hperm.countP_eq]
  tokensRejected := by rw [h.tokensRejected, hperm.countP_eq]
  executionTimeouts := by rw [h.executionTimeouts, hperm.countP_eq]
  executionFailures := by rw [h.executionFailures, hperm.countP_eq]
  rowsReturned := by rw [h.rowsReturned, (hperm.map _).sum_nat]

theorem plan (h : m.Tallies plans pages results) : m.countPlan.Tallies (plans + 1) pages results :=
  { h with
    plansReceived := by
      rw [UInt64.ofNat_add, ← h.plansReceived]
      rfl }

theorem page (h : m.Tallies plans pages results) : m.countPage.Tallies plans (pages + 1) results :=
  { h with
    pagesRequested := by
      rw [UInt64.ofNat_add, ← h.pagesRequested]
      rfl }

theorem reload (h : m.Tallies plans pages results) : m.countReload.Tallies plans pages results :=
  { h with }

/-- A result is counted under one counter, and its rows with it. -/
theorem answer (h : m.Tallies plans pages results) (r : QueryResult) :
    (m.countResult r).Tallies plans pages (r :: results) := by
  rw [countResult_eq]
  exact {
    plansReceived := h.plansReceived
    pagesRequested := h.pagesRequested
    queriesSucceeded := by rw [List.countP_cons, UInt64.ofNat_add, ← h.queriesSucceeded]
    plansRejected := by rw [List.countP_cons, UInt64.ofNat_add, ← h.plansRejected]
    tokensRejected := by rw [List.countP_cons, UInt64.ofNat_add, ← h.tokensRejected]
    executionTimeouts := by rw [List.countP_cons, UInt64.ofNat_add, ← h.executionTimeouts]
    executionFailures := by rw [List.countP_cons, UInt64.ofNat_add, ← h.executionFailures]
    rowsReturned := by
      rw [List.map_cons, List.sum_cons, Nat.add_comm, UInt64.ofNat_add, ← h.rowsReturned] }

end Tallies

end Metrics

namespace Engine

theorem settle_metrics (e : Engine) (result : QueryResult) (claimed : Option String) :
    (e.settle result claimed).metrics = e.metrics := by
  unfold settle
  split
  next => split <;> rfl
  next => rfl

/-- A step counts the result that it answers with; a step that answers nothing counts nothing. -/
theorem step_metrics (e : Engine) (a : Ambient) (s : Stage) :
    ((e.step a s).1.metrics = e.metrics ∧ (e.step a s).2.result? = s.result?) ∨
      s.result? = none ∧ ∃ r, (e.step a s).2.result? = some r ∧
        (e.step a s).1.metrics = e.metrics.countResult r := by
  cases s with
  | submitted plan catalog request =>
    simp only [step]
    split
    next => exact .inr ⟨rfl, _, rfl, rfl⟩
    next => exact .inl ⟨rfl, rfl⟩
  | presented token request =>
    simp only [step]
    split
    next => exact .inr ⟨rfl, _, rfl, rfl⟩
    next => exact .inl ⟨rfl, rfl⟩
  | verified claims request =>
    simp only [step]
    split
    next => exact .inr ⟨rfl, _, rfl, rfl⟩
    next => exact .inl ⟨rfl, rfl⟩
  | ready work => exact .inl ⟨rfl, rfl⟩
  | executed work outcome =>
    cases outcome with
    | error err => exact .inr ⟨rfl, _, rfl, rfl⟩
    | ok outcome =>
      simp only [step]
      split
      next => exact .inl ⟨rfl, rfl⟩
      next => exact .inr ⟨rfl, _, rfl, rfl⟩
      next =>
        refine .inr ⟨rfl, _, rfl, ?_⟩
        rw [Metrics.countResult, QueryData.records_ofOperation]
        rfl
  | answered result claimed request => exact .inl ⟨e.settle_metrics result claimed, rfl⟩
  | done result request => exact .inl ⟨rfl, rfl⟩
  | brokenOff request => exact .inl ⟨rfl, rfl⟩

end Engine

def Stage.isBrokenOff : Stage → Bool
  | .brokenOff _ => true
  | _ => false

/-- A request that has come to its end has a result, or it broke off. -/
theorem Stage.isBrokenOff_eq {s : Stage} (hend : s.remaining = 0) :
    s.isBrokenOff = !s.result?.isSome := by
  cases s with
  | done | brokenOff => rfl
  | _ => cases hend

namespace Serving

def results (s : Serving) : List QueryResult := s.pending.filterMap (·.stage.result?)

/-- How many requests broke off. -/
def brokenOff (s : Serving) : Nat := s.pending.countP (·.stage.isBrokenOff)

/-- The counters say what has come in and how it was answered. -/
def IsTallied (s : Serving) (kinds : List Arrival) : Prop :=
  s.engine.metrics.Tallies (kinds.count .plan) (kinds.count .page) s.results

variable {s : Serving} {kinds : List Arrival}

theorem IsTallied.advance (hs : s.IsTallied kinds) (i : Nat) (a : Ambient) :
    (s.advance i a).IsTallied kinds := by
  cases hp : s.pending[i]? with
  | none =>
    rw [Serving.advance, hp]
    exact hs
  | some p =>
    obtain ⟨hi, hget⟩ := List.getElem?_eq_some_iff.mp hp
    rw [advance_eq hp]
    generalize (if p.stage.redeems then 0 else p.reloads) = reloads
    obtain ⟨front, rest, hbefore, -, hafter⟩ := List.exists_of_set hi
    rw [hget] at hbefore
    rw [IsTallied, results, hbefore, List.filterMap_append, List.filterMap_cons] at hs
    rw [IsTallied, results, hafter, List.filterMap_append, List.filterMap_cons]
    rcases s.engine.step_metrics a p.stage with
      ⟨hmetrics, hsame⟩ | ⟨hnone, r, hr, hmetrics⟩
    · rw [hmetrics, hsame]
      exact hs
    · rw [hnone] at hs
      rw [hmetrics, hr]
      exact (hs.answer r).perm List.perm_middle.symm

theorem IsTallied.step (hs : s.IsTallied kinds) (x : ServingStep) :
    (s.step x).IsTallied (kinds ++ x.arrival?.toList) := by
  cases x with
  | submit a plan =>
    have hresults : (s.step (.submit a plan)).results = s.results :=
      List.filterMap_append.trans (List.append_nil _)
    rw [IsTallied, hresults, List.count_append, List.count_append]
    exact hs.plan
  | present a token =>
    have hresults : (s.step (.present a token)).results = s.results :=
      List.filterMap_append.trans (List.append_nil _)
    rw [IsTallied, hresults, List.count_append, List.count_append]
    exact hs.page
  | advance i a =>
    rw [ServingStep.arrival?, Option.toList, List.append_nil]
    exact hs.advance i a
  | reload catalog =>
    have hresults : (s.step (.reload catalog)).results = s.results := List.filterMap_map
    rw [ServingStep.arrival?, Option.toList, List.append_nil, IsTallied, hresults]
    exact hs.reload

theorem IsTallied.run (hs : s.IsTallied kinds) (steps : List ServingStep) :
    (s.run steps).IsTallied (kinds ++ arrivals steps) := by
  induction steps generalizing s kinds with
  | nil =>
    rw [arrivals, List.filterMap_nil, List.append_nil]
    exact hs
  | cons x steps ih =>
    rw [arrivals_cons, ← List.append_assoc]
    exact ih (hs.step x)

theorem IsTallied.of_metrics_eq {e : Engine} (he : e.metrics = {}) :
    (⟨e, [], []⟩ : Serving).IsTallied [] := by
  show e.metrics.Tallies 0 0 []
  rw [he]
  exact Metrics.tallies_zero

theorem length_results (hs : ∀ p ∈ s.pending, p.stage.remaining = 0) :
    s.results.length + s.brokenOff = s.pending.length := by
  have hended : ∀ p ∈ s.pending,
      p.stage.isBrokenOff = true ↔ (decide ¬ p.stage.result?.isSome = true) = true := by
    intro p hp
    rw [Stage.isBrokenOff_eq (hs p hp)]
    simp
  rw [results, List.length_filterMap_eq_countP, brokenOff, List.countP_congr hended]
  exact (List.length_eq_countP_add_countP fun p : Pending => p.stage.result?.isSome).symm

/-- Each request stays on the course of what it came in with, and one that is answered has come to
one end. The counters say how many came in and how each was answered; when no request is under way,
the answers make up for what came in, but for the requests that broke off. -/
theorem requests_answered_once {e : Engine} (he : e.metrics = {}) (steps : List ServingStep) :
    let s := run ⟨e, [], []⟩ steps
    let m := s.engine.metrics
    List.Forall₂ (fun k (p : Pending) => k.Follows p.stage.request ∧
        ∀ result, p.stage.result? = some result → k.Answers result p.stage.request ∧
          p.stage.request.path.countP RequestState.isTerminal = 1) (arrivals steps) s.pending ∧
      m.Tallies ((arrivals steps).count .plan) ((arrivals steps).count .page) s.results ∧
      ((∀ p ∈ s.pending, p.stage.remaining = 0) →
        s.results.length + s.brokenOff = (arrivals steps).length ∧
          m.plansReceived + m.pagesRequested = m.queriesSucceeded + m.plansRejected +
            m.tokensRejected + m.executionTimeouts + m.executionFailures + .ofNat s.brokenOff) := by
  intro s m
  have hstart : (⟨e, [], []⟩ : Serving).IsOnCourse [] := List.Forall₂.nil
  have hcourse : s.IsOnCourse (arrivals steps) := hstart.run steps
  have htallies : s.IsTallied (arrivals steps) := (IsTallied.of_metrics_eq he).run steps
  refine ⟨?_, htallies, fun hdone => ?_⟩
  · exact hcourse.imp fun k p hp => ⟨hp.follows, fun result hresult =>
      ⟨hp.answers hresult, (hp.answers hresult).ends.countP_isTerminal⟩⟩
  · have hlength : s.results.length + s.brokenOff = (arrivals steps).length :=
      (length_results hdone).trans hcourse.length_eq.symm
    refine ⟨hlength, ?_⟩
    rw [htallies.plansReceived, htallies.pagesRequested, htallies.queriesSucceeded,
      htallies.plansRejected, htallies.tokensRejected, htallies.executionTimeouts,
      htallies.executionFailures]
    simp only [← UInt64.ofNat_add]
    rw [← QueryResult.length_eq, hlength, Arrival.count_add_count]

end Serving

namespace ReloadedBooks

/-- A page is delivered and a token is refused, the steps of the two in turn. -/
def servedSteps : List ServingStep :=
  [.submit ambient plan, .present ambient "", .advance 0 ambient, .advance 1 ambient,
    .advance 0 ambient, .advance 1 ambient, .advance 0 ambient, .advance 0 ambient]

theorem done_servedSteps :
    ∀ p ∈ (Serving.run ⟨engine, [], []⟩ servedSteps).pending, p.stage.remaining = 0 := by
  have hstages : (Serving.run ⟨engine, [], []⟩ servedSteps).pending.map (·.stage.remaining) =
      [0, 0] := by rfl
  refine List.forall_mem_map.mp (?_ : ∀ n ∈ _, n = 0)
  rw [hstages]
  decide

/-- Two came in, and two were answered. -/
theorem requests_answered_once_served :
    (Serving.run ⟨engine, [], []⟩ servedSteps).results.length = 2 :=
  ((Serving.requests_answered_once rfl servedSteps).2.2 done_servedSteps).1

end ReloadedBooks

end CatalogQuery
