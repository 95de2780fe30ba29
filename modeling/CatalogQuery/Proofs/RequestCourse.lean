import CatalogQuery.Proofs.FailedPages
/-!
# The course of a request

The log of a request says which states it has come to and which steps it was not allowed to take.
A plan and a token each have one course to success. At any time a request has gone a part of its
course, or all of it, or a part of it and then failed; no step on the way is refused.
-/
namespace CatalogQuery

/-- The state that the entry says a request has come to. -/
def LogEntry.entered? (e : LogEntry) : Option RequestState :=
  if e.event = "REQUEST_RECEIVED" then some .received
  else if e.event = "REQUEST_STATE" then (e.fields.lookup "to").bind RequestState.ofName?
  else none

/-- The entry says that a step was not allowed. -/
def LogEntry.isRefusal (e : LogEntry) : Bool := e.event == "REQUEST_STATE_REJECTED"

theorem RequestState.ofName?_name (s : RequestState) : ofName? s.name = some s := by
  cases s <;> decide

namespace Request

/-- The states that the request has come to, in order. -/
def path (r : Request) : List RequestState := r.log.filterMap LogEntry.entered?

/-- The request has come to these states and is in the last of them, and no step was refused. -/
structure HasCome (r : Request) (states : List RequestState) : Prop where
  path : r.path = states
  state : states.getLast? = some r.state
  granted : ∀ entry ∈ r.log, entry.isRefusal = false

variable {r : Request} {states : List RequestState}

theorem receive_hasCome (id : String) : (receive id).HasCome [.received] where
  path := rfl
  state := rfl
  granted := by
    intro entry hentry
    rw [List.mem_singleton.mp hentry]
    rfl

namespace HasCome

theorem state_eq {last : RequestState} (h : r.HasCome (states ++ [last])) : r.state = last := by
  have hlast := h.state
  rw [List.getLast?_concat] at hlast
  exact (Option.some_inj.mp hlast).symm

theorem state_eq_received (h : r.HasCome [.received]) : r.state = .received :=
  (Option.some_inj.mp h.state).symm

/-- An entry that tells of no step changes nothing. -/
theorem note (h : r.HasCome states) {entry : LogEntry} (hentered : entry.entered? = none)
    (hrefusal : entry.isRefusal = false) : (r.note entry).HasCome states where
  path := by
    show (r.log ++ [entry]).filterMap LogEntry.entered? = states
    rw [List.filterMap_append, List.filterMap_cons_none hentered]
    exact (List.append_nil _).trans h.path
  state := h.state
  granted := by
    intro e he
    rcases List.mem_append.mp he with he | he
    · exact h.granted e he
    · rw [List.mem_singleton.mp he, hrefusal]

theorem advance (h : r.HasCome states) {next : RequestState}
    (hnext : r.state.canAdvance next = true) : (r.advance next).HasCome (states ++ [next]) := by
  have hentered : LogEntry.entered? ⟨.trace, "REQUEST_STATE",
      [("from", r.state.name), ("request_id", r.id), ("to", next.name)]⟩ = some next :=
    RequestState.ofName?_name next
  rw [Request.advance, if_pos hnext]
  refine ⟨?_, List.getLast?_concat, ?_⟩
  · show (r.log ++ [_]).filterMap LogEntry.entered? = states ++ [next]
    rw [List.filterMap_append, List.filterMap_cons_some hentered]
    exact congrArg (· ++ [next]) h.path
  · intro e he
    rcases List.mem_append.mp he with he | he
    · exact h.granted e he
    · rw [List.mem_singleton.mp he]
      rfl

theorem succeed (h : r.HasCome states) (hstate : r.state = .executing) (entity : String)
    (rows : Nat) (mode : String) (elapsedMs : UInt64) :
    (r.succeed entity rows mode elapsedMs).HasCome (states ++ [.succeeded]) := by
  have hnext : r.state.canAdvance .succeeded = true := by rw [hstate]; rfl
  rw [Request.succeed, if_pos hnext]
  exact (h.advance hnext).note rfl rfl

theorem fail (h : r.HasCome states) (hstate : r.state.isTerminal = false) (f : Failure)
    (detail : Option String) (elapsedMs : UInt64) :
    (r.fail f detail elapsedMs).HasCome (states ++ [.failed]) := by
  have hnext : r.state.canAdvance .failed = true := by
    cases hr : r.state <;> rw [hr] at hstate <;> first | rfl | cases hstate
  rw [Request.fail, if_pos hnext]
  cases f.code.category <;> exact (h.advance hnext).note rfl rfl

end HasCome

end Request

/-- What a request comes in with. -/
inductive Arrival
  | plan
  | page
  deriving DecidableEq, Repr

namespace Arrival

def preparation : Arrival → List RequestState
  | .plan => [.received, .validated, .compiled]
  | .page => [.received]

def course (k : Arrival) : List RequestState := k.preparation ++ [.executing, .succeeded]

/-- The end of a request: success, or failure after a part of the course. -/
def Ends (k : Arrival) (states : List RequestState) : Prop :=
  states = k.course ∨ ∃ n, 0 < n ∧ n < k.course.length ∧ states = k.course.take n ++ [.failed]

/-- The failures that only requests of this kind can have. -/
def rejection : Arrival → ErrorCategory
  | .plan => .validation
  | .page => .pagination

theorem count_add_count (kinds : List Arrival) :
    kinds.count .plan + kinds.count .page = kinds.length := by
  induction kinds with
  | nil => rfl
  | cons k kinds ih =>
    rw [List.count_cons, List.count_cons, List.length_cons]
    cases k
    · show kinds.count .plan + 1 + kinds.count .page = kinds.length + 1
      omega
    · show kinds.count .plan + (kinds.count .page + 1) = kinds.length + 1
      omega

theorem Ends.of_received (k : Arrival) : k.Ends [.received, .failed] :=
  .inr ⟨1, Nat.one_pos, by cases k <;> decide, by cases k <;> rfl⟩

theorem Ends.of_executing (k : Arrival) :
    k.Ends (k.preparation ++ [.executing] ++ [RequestState.failed]) :=
  .inr ⟨k.preparation.length + 1, Nat.succ_pos _, by cases k <;> decide, by cases k <;> rfl⟩

/-- A request that has come to its end was in one last state, and that only once. -/
theorem Ends.countP_isTerminal {k : Arrival} {states : List RequestState} (h : k.Ends states) :
    states.countP RequestState.isTerminal = 1 := by
  rcases h with rfl | ⟨n, -, hn, rfl⟩
  · cases k <;> decide
  · have hall : ∀ n < k.course.length,
        (k.course.take n ++ [RequestState.failed]).countP RequestState.isTerminal = 1 := by
      cases k <;> decide
    exact hall n hn

end Arrival

namespace Stage

def request : Stage → Request
  | .submitted _ _ request | .presented _ request | .verified _ request => request
  | .ready work | .executed work _ => work.request
  | .answered _ _ request | .done _ request | .brokenOff request => request

/-- The result that the request was answered with. -/
def result? : Stage → Option QueryResult
  | .answered result _ _ | .done result _ => some result
  | _ => none

end Stage

/-- The request has gone a part of its course or has come to its end, and no step was refused. -/
def Arrival.Follows (k : Arrival) (r : Request) : Prop :=
  r.HasCome r.path ∧ (r.path <+: k.course ∨ k.Ends r.path)

theorem Request.HasCome.leave {r : Request} {states : List RequestState} (h : r.HasCome states) :
    r.leave.HasCome states := by
  rw [Request.leave]
  split
  next => exact h
  next => exact h.note rfl rfl

theorem Request.HasCome.follows {k : Arrival} {r : Request} {states : List RequestState}
    (h : r.HasCome states) (hcourse : states <+: k.course) : k.Follows r := by
  rw [Arrival.Follows, h.path]
  exact ⟨h, .inl hcourse⟩

/-- The request has come to its end and the result says how. A request is rejected only for what it
came in with. -/
structure Arrival.Answers (k : Arrival) (result : QueryResult) (r : Request) : Prop where
  ends : k.Ends r.path
  hasCome : r.HasCome r.path
  success : result.isSuccess = true ↔ r.state = .succeeded
  code : ∀ code, result.errorCode? = some code →
    code.category = k.rejection ∨ code.category = .backend
  rows : ∀ data metadata pagination, result = .success data metadata pagination →
    metadata.rowsReturned = data.records.length

/-- What is true of a request of a kind at each stage. The first page of a plan begins at the start,
so it cannot be refused for its cursor. -/
def Stage.IsOn (k : Arrival) : Stage → Prop
  | .submitted _ _ request => k = .plan ∧ request.HasCome [.received]
  | .presented _ request | .verified _ request => k = .page ∧ request.HasCome [.received]
  | .ready work => work.request.HasCome k.preparation ∧ (k = .plan → work.cursor = .start)
  | .executed work outcome => work.request.HasCome (k.preparation ++ [.executing]) ∧
      ∀ err, outcome = .error err →
        err.toFailure.code.category = k.rejection ∨ err.toFailure.code.category = .backend
  | .answered result _ request | .done result request => k.Answers result request
  | .brokenOff request => request.HasCome (k.preparation ++ [.executing])

theorem Stage.IsOn.follows {k : Arrival} {s : Stage} (h : s.IsOn k) : k.Follows s.request := by
  cases s with
  | submitted plan catalog request =>
    obtain ⟨rfl, hcome⟩ := h
    exact hcome.follows (List.prefix_append _ _)
  | presented token request =>
    obtain ⟨rfl, hcome⟩ := h
    exact hcome.follows (List.prefix_append _ _)
  | verified claims request =>
    obtain ⟨rfl, hcome⟩ := h
    exact hcome.follows (List.prefix_append _ _)
  | ready work => exact h.1.follows (List.prefix_append _ _)
  | executed work outcome =>
    exact h.1.follows ((List.prefix_append_right_inj _).mpr (List.prefix_append [_] [_]))
  | answered result claimed request => exact ⟨h.hasCome, .inr h.ends⟩
  | done result request => exact ⟨h.hasCome, .inr h.ends⟩
  | brokenOff request =>
    exact Request.HasCome.follows h ((List.prefix_append_right_inj _).mpr (List.prefix_append [_] [_]))

theorem Stage.IsOn.answers {k : Arrival} {s : Stage} (h : s.IsOn k) {result : QueryResult}
    (hresult : s.result? = some result) : k.Answers result s.request := by
  cases s with
  | answered answer claimed request =>
    cases hresult
    exact h
  | done answer request =>
    cases hresult
    exact h
  | _ => cases hresult

namespace Arrival.Answers

variable {k : Arrival} {r : Request} {states : List RequestState}

/-- A request that has not ended may fail at once. -/
theorem of_failure (h : r.HasCome states) (hstate : r.state.isTerminal = false)
    (hends : k.Ends (states ++ [.failed])) {f : Failure}
    (hcode : f.code.category = k.rejection ∨ f.code.category = .backend) (detail : Option String)
    (elapsedMs : UInt64) (requestId : Option String) :
    k.Answers (.error f requestId) (r.fail f detail elapsedMs) := by
  have hfailed := h.fail hstate f detail elapsedMs
  constructor
  · rw [hfailed.path]
    exact hends
  · rw [hfailed.path]
    exact hfailed
  · rw [hfailed.state_eq]
    exact ⟨nofun, nofun⟩
  · rintro code ⟨⟩
    exact hcode
  · exact nofun

theorem of_success (h : r.HasCome (k.preparation ++ [.executing])) (entity : String)
    {rows : Nat} (mode : String) (elapsedMs : UInt64) {data : QueryData}
    {metadata : ResultMetadata} (hrows : metadata.rowsReturned = data.records.length)
    (pagination : PaginationInfo) :
    k.Answers (.success data metadata pagination) (r.succeed entity rows mode elapsedMs) := by
  have hsucceeded := h.succeed h.state_eq entity rows mode elapsedMs
  constructor
  · rw [hsucceeded.path, List.append_assoc]
    exact .inl rfl
  · rw [hsucceeded.path]
    exact hsucceeded
  · rw [hsucceeded.state_eq]
    exact ⟨fun _ => rfl, fun _ => rfl⟩
  · exact nofun
  · rintro _ _ _ ⟨⟩
    exact hrows

end Arrival.Answers

namespace Engine

/-- The code of a refused token is none of the backend's. -/
theorem category_of_mem_refusedCodes {code : ErrorCode} (h : some code ∈ refusedCodes) :
    code.category = .pagination := by
  cases code <;> first | rfl | exact absurd h (by decide)

theorem category_executionError (err : ExecutionError) :
    err.toFailure.code.category = .backend := by
  show err.code.category = .backend
  rw [ExecutionError.code]
  cases err.fault <;> rfl

/-- A page is refused by the backend, or for its cursor; a first page only by the backend. -/
theorem category_of_executePage_eq_error {k : Arrival} {q : CompiledQuery} {backend : Backend}
    {pageSize page : UInt32} {cursor : Cursor} {err : PageError}
    (hstart : k = .plan → cursor = .start)
    (h : q.executePage backend pageSize cursor page = .error err) :
    err.toFailure.code.category = k.rejection ∨ err.toFailure.code.category = .backend := by
  cases haccepts : q.accepts cursor with
  | true =>
    obtain ⟨fault, rfl⟩ := executePage_eq_error haccepts h
    exact .inr (category_executionError fault)
  | false =>
    left
    rw [CompiledQuery.executePage, CompiledQuery.page?, if_neg (by simp [haccepts])] at h
    cases h
    cases k with
    | plan =>
      rw [hstart rfl] at haccepts
      cases haccepts
    | page => rfl

/-- A checked plan is validated and compiled, and its first page begins at the start. -/
theorem isOn_adopt {request : Request} (h : request.HasCome [.received]) (e : Engine) (a : Ambient)
    (checked : CheckedPlan) (generation : UInt64) :
    (e.adopt a request checked generation).2.IsOn .plan := by
  have hvalidated : (request.advance .validated).HasCome ([.received] ++ [.validated]) :=
    h.advance (by rw [h.state_eq_received]; rfl)
  have hcompiled : ((request.advance .validated).advance .compiled).HasCome
      ([.received] ++ [.validated] ++ [.compiled]) :=
    hvalidated.advance (by rw [hvalidated.state_eq]; rfl)
  rw [adopt]
  generalize e.codec.register (checked.compile generation) a.registeredAt = registered
  refine ⟨?_, fun _ => rfl⟩
  show (ite _ _ _ : Request).HasCome _
  split
  next => exact hcompiled.note rfl rfl
  next => exact hcompiled

/-- A step keeps a request on its course. -/
theorem isOn_step {k : Arrival} {s : Stage} (h : s.IsOn k) (e : Engine) (a : Ambient) :
    (e.step a s).2.IsOn k := by
  cases s with
  | submitted plan catalog request =>
    obtain ⟨rfl, hcome⟩ := h
    have hstate : request.state.isTerminal = false := by rw [hcome.state_eq_received]; rfl
    simp only [step]
    split
    next err _ =>
      exact .of_failure hcome hstate (.of_received .plan)
        (.inl err.category_code) none a.elapsedMs _
    next checked _ => exact isOn_adopt hcome e a checked catalog.generation
  | presented token request =>
    obtain ⟨rfl, hcome⟩ := h
    have hstate : request.state.isTerminal = false := by rw [hcome.state_eq_received]; rfl
    simp only [step]
    split
    next err herr =>
      exact .of_failure hcome hstate (.of_received .page)
        (.inl (category_of_mem_refusedCodes (verify_error_mem_refusedCodes herr))) none _ _
    next => exact ⟨rfl, hcome⟩
  | verified claims request =>
    obtain ⟨rfl, hcome⟩ := h
    have hstate : request.state.isTerminal = false := by rw [hcome.state_eq_received]; rfl
    simp only [step]
    split
    next err herr =>
      exact .of_failure hcome hstate (.of_received .page)
        (.inl (category_of_mem_refusedCodes (redeem_error_mem_refusedCodes herr))) none _ _
    next => exact ⟨hcome, fun h => by cases h⟩
  | ready work =>
    obtain ⟨hcome, hstart⟩ := h
    have hnext : work.request.state.canAdvance .executing = true := by
      have hstate := hcome.state
      cases k <;> cases hstate' : work.request.state <;> rw [hstate'] at hstate <;>
        first | rfl | cases hstate
    exact ⟨hcome.advance hnext, fun err => category_of_executePage_eq_error hstart⟩
  | executed work outcome =>
    obtain ⟨hcome, hcode⟩ := h
    have hstate : work.request.state.isTerminal = false := by rw [hcome.state_eq]; rfl
    cases outcome with
    | error err =>
      exact .of_failure hcome hstate (.of_executing k) (hcode err rfl) err.detail? a.elapsedMs _
    | ok outcome =>
      simp only [step]
      split
      next => exact hcome.leave
      next err herr => exact absurd herr (nextToken?_ne_error err)
      next =>
        exact .of_success hcome _ _ a.elapsedMs
          (congrArg List.length (QueryData.records_ofOperation _ _)).symm _
  | answered result claimed request => exact h
  | done result request => exact h
  | brokenOff request => exact h

end Engine

def ServingStep.arrival? : ServingStep → Option Arrival
  | .submit _ _ => some .plan
  | .present _ _ => some .page
  | .advance _ _ | .reload _ => none

def arrivals (steps : List ServingStep) : List Arrival := steps.filterMap ServingStep.arrival?

theorem arrivals_cons (x : ServingStep) (steps : List ServingStep) :
    arrivals (x :: steps) = x.arrival?.toList ++ arrivals steps := by
  rw [arrivals, List.filterMap_cons]
  cases x.arrival? <;> rfl

namespace Serving

/-- The requests came in with these, in order, and each is on its course. -/
def IsOnCourse (s : Serving) (kinds : List Arrival) : Prop :=
  List.Forall₂ (fun k (p : Pending) => p.stage.IsOn k) kinds s.pending

variable {s : Serving} {kinds : List Arrival}

theorem IsOnCourse.receive (hs : s.IsOnCourse kinds) {r : Engine × Stage} {k : Arrival}
    (hr : r.2.IsOn k) : (s.receive r).IsOnCourse (kinds ++ [k]) :=
  List.rel_append hs (.cons hr .nil)

theorem IsOnCourse.advance (hs : s.IsOnCourse kinds) (i : Nat) (a : Ambient) :
    (s.advance i a).IsOnCourse kinds := by
  cases hp : s.pending[i]? with
  | none =>
    rw [Serving.advance, hp]
    exact hs
  | some p =>
    rw [advance_eq hp]
    rw [IsOnCourse, List.forall₂_iff_get] at hs ⊢
    obtain ⟨hlength, hon⟩ := hs
    refine ⟨by rw [hlength, List.length_set], fun j hj hj' => ?_⟩
    have hj'' : j < s.pending.length := by rwa [List.length_set] at hj'
    simp only [List.get_eq_getElem, List.getElem_set]
    split
    next hij =>
      subst hij
      have hstage := hon i hj hj''
      rw [List.get_eq_getElem, List.get_eq_getElem,
        Option.some_inj.mp ((List.getElem?_eq_getElem hj'').symm.trans hp)] at hstage
      exact Engine.isOn_step hstage s.engine a
    next => exact hon j hj hj''

theorem IsOnCourse.step (hs : s.IsOnCourse kinds) (x : ServingStep) :
    (s.step x).IsOnCourse (kinds ++ x.arrival?.toList) := by
  cases x with
  | submit a plan => exact hs.receive ⟨rfl, Request.receive_hasCome _⟩
  | present a token => exact hs.receive ⟨rfl, Request.receive_hasCome _⟩
  | advance i a =>
    rw [ServingStep.arrival?, Option.toList, List.append_nil]
    exact hs.advance i a
  | reload catalog =>
    rw [ServingStep.arrival?, Option.toList, List.append_nil]
    exact List.forall₂_map_right_iff.mpr hs

theorem IsOnCourse.run (hs : s.IsOnCourse kinds) (steps : List ServingStep) :
    (s.run steps).IsOnCourse (kinds ++ arrivals steps) := by
  induction steps generalizing s kinds with
  | nil =>
    rw [arrivals, List.filterMap_nil, List.append_nil]
    exact hs
  | cons x steps ih =>
    rw [arrivals_cons, ← List.append_assoc]
    exact ih (hs.step x)

end Serving

end CatalogQuery
