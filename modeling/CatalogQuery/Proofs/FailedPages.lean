import CatalogQuery.Proofs.RequestLineage
import CatalogQuery.Proofs.SingleUse
/-!
# Pages that could not be served

A page request uses up its token before the statement runs. When the backend fails, or no token can be
made for the page after, it gives the token back; so the claim leaves no trace but for the nonces that
have expired meanwhile. A request whose claim was refused has nothing to give back.
-/
namespace CatalogQuery

def Ambient.claimReadings (a : Ambient) : ClaimReadings := ⟨a.verifiedAt, a.lookedUpAt, a.consumedAt⟩

namespace Registry

/-- What a claim that succeeds leaves of the queries. -/
theorem redeem_entries_of_ok {r : Registry} {claims : PageClaims} {lookedUp consumed : Int64}
    {page : ResolvedPage} (h : (r.redeem claims lookedUp consumed).1 = .ok page) :
    (r.redeem claims lookedUp consumed).2.entries =
      (r.touch claims.fingerprint lookedUp).entries := by
  have resolved := ((r.redeem_eq_ok_iff claims lookedUp consumed page).mp h).1
  rw [redeem_of_resolve_ok resolved]
  exact (consume_entries _ _ _ _).trans (congrArg entries (resolve_of_ok resolved))

theorem redeem_ttl (r : Registry) (claims : PageClaims) (lookedUp consumed : Int64) :
    (r.redeem claims lookedUp consumed).2.ttl = r.ttl := by
  have hlookup := r.lookup_ttl claims.fingerprint lookedUp
  have hresolve : (r.resolve claims lookedUp).2.ttl = r.ttl := by
    rw [resolve]
    split
    · rfl
    · split
      next left hleft => rwa [hleft] at hlookup
      next q left hleft =>
        rw [hleft] at hlookup
        split <;> exact hlookup
  cases h : (r.resolve claims lookedUp).1 with
  | error err => rwa [redeem_of_resolve_error h]
  | ok page =>
    rw [redeem_of_resolve_ok h]
    simp only [consume]
    split <;> exact hresolve

variable {r : Registry} {claims : PageClaims} {lookedUp consumed : Int64} {page : ResolvedPage}

/-- A claim that is refused lets expired nonces go at most. -/
theorem redeem_consumed_of_error {err : TokenError}
    (h : (r.redeem claims lookedUp consumed).1 = .error err) :
    (r.redeem claims lookedUp consumed).2.consumed = r.consumed ∨
      (r.redeem claims lookedUp consumed).2.consumed = (r.dropExpired consumed).consumed := by
  cases hresolve : (r.resolve claims lookedUp).1 with
  | error err =>
    left
    rw [redeem_of_resolve_error hresolve]
    exact r.resolve_consumed claims lookedUp
  | ok page =>
    right
    rw [redeem_of_resolve_ok hresolve] at h ⊢
    simp only at h ⊢
    split at h
    next => cases h
    next hused => simp [consume_consumed, dropExpired_resolve, hused]

/-- A claim that succeeded and is given back leaves the nonces of the tokens that have not expired. -/
theorem release_redeem_consumed (h : (r.redeem claims lookedUp consumed).1 = .ok page) :
    ((r.redeem claims lookedUp consumed).2.release page.nonce).consumed =
      (r.dropExpired consumed).consumed := by
  obtain ⟨resolved, past⟩ := (r.redeem_eq_ok_iff claims lookedUp consumed page).mp h
  have others : ∀ x ∈ (r.dropExpired consumed).consumed, decide (x.1 ≠ claims.nonce) = true := by
    intro x hx
    obtain ⟨hmem, hnow⟩ := List.mem_filter.mp hx
    rw [decide_eq_true_eq, Int64.le_iff_toInt_le] at hnow
    rw [decide_eq_true_eq]
    intro hsame
    have := past x hmem hsame
    omega
  rw [resolve_nonce resolved]
  show (r.redeem claims lookedUp consumed).2.consumed.filter (fun x => decide (x.1 ≠ claims.nonce)) = _
  rw [redeem_consumed_of_ok h, List.filter_append, List.filter_eq_self.mpr others]
  simp

/-- It can be made again for the same page, as long as the query lives from the first time on. -/
theorem redeem_release_redeem_iff (h : (r.redeem claims lookedUp consumed).1 = .ok page)
    {later : Int64} (hfits : Overflow.subFits later lookedUp = true) (used : Int64) :
    (((r.redeem claims lookedUp consumed).2.release page.nonce).redeem claims later used).1 =
        .ok page ↔ later.toInt ≤ lookedUp.toInt + r.ttl.toInt := by
  obtain ⟨resolved, -⟩ := (r.redeem_eq_ok_iff claims lookedUp consumed page).mp h
  obtain ⟨hsame, q, hq, haccepts, rfl⟩ :=
    (r.resolve_eq_ok_iff_lookup claims lookedUp page).mp resolved
  obtain ⟨e, hentry, -, rfl⟩ := (r.lookup_eq_some_iff _ _ _).mp hq
  generalize hleft : (r.redeem claims lookedUp consumed).2.release (claims.pageOf e.query).nonce = left
  have hgiven : ∀ x ∈ left.consumed, x.1 = claims.nonce → x.2.toInt < used.toInt := by
    intro x hx hnonce
    rw [← hleft] at hx
    exact absurd hnonce (of_decide_eq_true (List.mem_filter.mp hx).2)
  have hgeneration : left.generation = r.generation := by
    rw [← hleft]
    exact r.redeem_generation claims lookedUp consumed
  have httl : left.ttl = r.ttl := by
    rw [← hleft]
    exact r.redeem_ttl claims lookedUp consumed
  have hlive : left.entries.lookup claims.fingerprint = some { e with lastUsed := lookedUp } := by
    rw [← hleft]
    show (r.redeem claims lookedUp consumed).2.entries.lookup _ = _
    rw [redeem_entries_of_ok h, lookup_touch, hentry, Option.map_some, if_pos rfl]
  have hfound (q : CompiledQuery) : (left.lookup claims.fingerprint later).1 = some q ↔
      later.toInt ≤ lookedUp.toInt + r.ttl.toInt ∧ e.query = q := by
    rw [lookup_eq_some_iff, hlive]
    simp only [Option.some.injEq, exists_eq_left']
    rw [isFresh_iff (e := { e with lastUsed := lookedUp }) hfits, httl]
  rw [redeem_eq_ok_iff, resolve_eq_ok_iff_lookup, hgeneration]
  constructor
  · rintro ⟨⟨-, q, hq, -⟩, -⟩
    exact ((hfound q).mp hq).1
  · intro hlater
    exact ⟨⟨hsame, e.query, (hfound _).mpr ⟨hlater, rfl⟩, haccepts, rfl⟩, hgiven⟩

end Registry

namespace TokenConfig

/-- A token that was valid is so up to its expiry, with the same claims. -/
theorem verify_again_iff {c : TokenConfig} {now : Int} {token : String} {claims : PageClaims}
    (h : c.verify now token = .ok claims) (later : Int) (read : PageClaims) :
    c.verify later token = .ok read ↔ later ≤ claims.expiresAt.toInt ∧ claims = read := by
  have opened := open?_of_verify_eq_ok h
  simp only [verify, opened] at h ⊢
  split at h
  next => cases h
  next hzero =>
    split at h
    next => cases h
    next =>
      split at h
      next hmeant =>
        rw [if_neg hzero, if_pos hmeant]
        split
        next hlate => simp only [reduceCtorEq, false_iff]; omega
        next hlate => simp only [Except.ok.injEq, iff_and_self]; omega
      next => cases h

end TokenConfig

namespace Codec

theorem claim_of_verify {c : Codec} {token : String} (clock : ClaimReadings) {claims : PageClaims}
    (h : c.config.verify clock.verified token = .ok claims) :
    c.claim token clock =
      ((c.registry.redeem claims clock.lookedUp clock.consumed).1,
        { c with registry := (c.registry.redeem claims clock.lookedUp clock.consumed).2 }) := by
  rw [claim, h]

theorem claim_of_verify_error {c : Codec} {token : String} (clock : ClaimReadings) {err : TokenError}
    (h : c.config.verify clock.verified token = .error err) : c.claim token clock = (.error err, c) := by
  rw [claim, h]

theorem claim_eq_ok {c : Codec} {token : String} {clock : ClaimReadings} {page : ResolvedPage}
    (h : (c.claim token clock).1 = .ok page) :
    ∃ claims, c.config.verify clock.verified token = .ok claims ∧
      (c.registry.redeem claims clock.lookedUp clock.consumed).1 = .ok page := by
  cases hverify : c.config.verify clock.verified token with
  | error err =>
    rw [claim_of_verify_error clock hverify] at h
    cases h
  | ok claims =>
    rw [claim_of_verify clock hverify] at h
    exact ⟨claims, rfl, h⟩

/-- A claim that is refused lets expired nonces go at most. -/
theorem claim_consumed_of_error {c : Codec} {token : String} {clock : ClaimReadings}
    {err : TokenError} (h : (c.claim token clock).1 = .error err) :
    (c.claim token clock).2.registry.consumed = c.registry.consumed ∨
      (c.claim token clock).2.registry.consumed =
        (c.registry.dropExpired clock.consumed).consumed := by
  cases hverify : c.config.verify clock.verified token with
  | error err =>
    left
    rw [claim_of_verify_error clock hverify]
  | ok claims =>
    rw [claim_of_verify clock hverify] at h ⊢
    exact Registry.redeem_consumed_of_error h

/-- A token that was claimed and given back can be claimed for the same page until it expires, as long
as its query lives. -/
theorem claim_release_claim_iff {c : Codec} {token : String} {clock : ClaimReadings}
    {claims : PageClaims} {page : ResolvedPage}
    (hverify : c.config.verify clock.verified token = .ok claims)
    (hredeem : (c.registry.redeem claims clock.lookedUp clock.consumed).1 = .ok page)
    (later : ClaimReadings) :
    ((((c.claim token clock).2).release page.nonce).claim token later).1 = .ok page ↔
      later.verified ≤ claims.expiresAt.toInt ∧
        later.lookedUp ≤ clock.lookedUp + c.registry.ttl.toInt := by
  have hagain (read : PageClaims) := TokenConfig.verify_again_iff hverify later.verified read
  rw [claim_of_verify clock hverify]
  cases hread : c.config.verify later.verified token with
  | error err =>
    simp only [claim, release, hread, reduceCtorEq, false_iff, not_and]
    intro hnow
    have hvalid := (hagain claims).mpr ⟨hnow, rfl⟩
    rw [hread] at hvalid
    cases hvalid
  | ok read =>
    obtain ⟨hnow, rfl⟩ := (hagain read).mp hread
    simp only [claim, release, hread, hnow, true_and]
    exact Registry.redeem_release_redeem_iff hredeem
      (later.lookedUp.subFits clock.lookedUp.onCalendar) later.consumed

end Codec

namespace Engine

theorem steps_done (a : Ambient) (n : Nat) (e : Engine) (result : QueryResult) (request : Request) :
    steps a n (e, .done result request) = (e, .done result request) := by
  induction n with
  | zero => rfl
  | succ n ih => exact ih

theorem steps_answered (a : Ambient) (n : Nat) (e : Engine) (result : QueryResult)
    (claimed : Option String) (request : Request) :
    steps a (n + 1) (e, .answered result claimed request) =
      (e.settle result claimed, .done result request) :=
  steps_done a n (e.settle result claimed) result request

theorem serve_eq {a : Ambient} {s : Engine × Stage} {e : Engine} {stage : Stage}
    (hend : stage.remaining = 0) (h : steps a s.2.remaining s = (e, stage)) :
    serve a s = ⟨e, (stage.outcome hend).1, (stage.outcome hend).2.log⟩ := by
  have hlast : ∀ (last : Engine × Stage) (hdone : last.2.remaining = 0), last = (e, stage) →
      (⟨last.1, (last.2.outcome hdone).1, (last.2.outcome hdone).2.log⟩ : Served) =
        ⟨e, (stage.outcome hend).1, (stage.outcome hend).2.log⟩ := by
    rintro _ _ rfl
    rfl
  exact hlast _ (remaining_finish a s) h

/-- The codes of pages that fail although their token was claimed. -/
def failedCodes : List (Option ErrorCode) := [some .executionTimeout, some .executionFailure]

/-- The codes of pages whose token was not claimed. -/
def refusedCodes : List (Option ErrorCode) :=
  [some .invalidToken, some .expiredToken, some .staleQuery]

theorem verify_error_mem_refusedCodes {c : TokenConfig} {now : Int} {token : String}
    {err : TokenError} (h : c.verify now token = .error err) : some err.code ∈ refusedCodes := by
  cases err with
  | invalidToken | expiredToken | staleQuery => decide
  | generationFailed =>
    unfold TokenConfig.verify at h
    repeat' split at h
    all_goals cases h

theorem redeem_error_mem_refusedCodes {r : Registry} {claims : PageClaims}
    {lookedUp consumed : Int64} {err : TokenError} (h : (r.redeem claims lookedUp consumed).1 = .error err) :
    some err.code ∈ refusedCodes := by
  cases err with
  | invalidToken | expiredToken | staleQuery => decide
  | generationFailed =>
    cases hfound : (r.resolve claims lookedUp).1 with
    | error err =>
      rw [Registry.redeem_of_resolve_error hfound] at h
      cases h
      cases Registry.resolve_eq_error hfound
    | ok page =>
      rw [Registry.redeem_of_resolve_ok hfound] at h
      simp only at h
      split at h <;> cases h

theorem not_mem_refusedCodes : ∀ code ∈ none :: failedCodes, code ∉ refusedCodes := by
  decide

/-- A page request whose token is not valid. -/
theorem fetchPage_of_verify_error {e : Engine} {a : Ambient} {token : String} {err : TokenError}
    (h : e.codec.config.verify a.verifiedAt token = .error err) :
    (e.fetchPage a token).engine.codec = e.codec ∧
      ∃ result, (e.fetchPage a token).result = some result ∧
        result.errorCode? = some err.code := by
  have hstep : (e.present a token).1.step a (e.present a token).2 =
      (e.present a token).1.reject a (.receive a.freshId) none err.toFailure none := by
    simp only [present, step, h]
  have hserve : e.fetchPage a token = _ := @serve_eq a (e.present a token) _
    (.done (.error err.toFailure _) _) rfl (by
      show steps a 5 _ = _
      rw [steps, hstep]
      exact steps_answered a 3 _ _ none _)
  rw [hserve]
  exact ⟨rfl, _, rfl, rfl⟩

/-- A page request whose token is valid and cannot be claimed. -/
theorem fetchPage_of_redeem_error {e : Engine} {a : Ambient} {token : String} {claims : PageClaims}
    {err : TokenError} (hverify : e.codec.config.verify a.verifiedAt token = .ok claims)
    (h : (e.codec.registry.redeem claims a.lookedUpAt a.consumedAt).1 = .error err) :
    (e.fetchPage a token).engine.codec = (e.codec.claim token a.claimReadings).2 ∧
      ∃ result, (e.fetchPage a token).result = some result ∧
        result.errorCode? = some err.code := by
  have hclaim := Codec.claim_of_verify a.claimReadings hverify
  have hserve : e.fetchPage a token = _ := @serve_eq a (e.present a token) _
    (.done (.error err.toFailure _) _) rfl (by
      show steps a 5 _ = _
      simp only [steps, present, step, hverify, h, reject, settle]
      rfl)
  rw [hserve, hclaim]
  exact ⟨rfl, _, rfl, rfl⟩

/-- A page request whose claim is refused leaves what the claim leaves. -/
theorem fetchPage_of_claim_error {e : Engine} {a : Ambient} {token : String} {err : TokenError}
    (h : (e.codec.claim token a.claimReadings).1 = .error err) :
    (e.fetchPage a token).engine.codec = (e.codec.claim token a.claimReadings).2 ∧
      ∃ result, (e.fetchPage a token).result = some result ∧
        result.errorCode? ∈ refusedCodes := by
  cases hverify : e.codec.config.verify a.verifiedAt token with
  | error err =>
    obtain ⟨hcodec, result, hresult, hcode⟩ := fetchPage_of_verify_error hverify
    refine ⟨?_, result, hresult, hcode ▸ verify_error_mem_refusedCodes hverify⟩
    rw [hcodec, Codec.claim_of_verify_error a.claimReadings hverify]
  | ok claims =>
    rw [Codec.claim_of_verify a.claimReadings hverify] at h
    obtain ⟨hcodec, result, hresult, hcode⟩ := fetchPage_of_redeem_error hverify h
    exact ⟨hcodec, result, hresult, hcode ▸ redeem_error_mem_refusedCodes h⟩

/-- A page that is claimed can be executed, and then the backend alone can refuse it. -/
theorem executePage_eq_error {q : CompiledQuery} {backend : Backend} {pageSize page : UInt32}
    {cursor : Cursor} {err : PageError} (haccepts : q.accepts cursor = true)
    (h : q.executePage backend pageSize cursor page = .error err) :
    ∃ fault, err = .execution fault := by
  rw [CompiledQuery.executePage] at h
  cases hpage : q.page? pageSize cursor with
  | none =>
    rw [CompiledQuery.page?, if_pos haccepts] at hpage
    cases cursor <;> cases hpage
  | some statement =>
    simp only [hpage] at h
    split at h
    next fault _ =>
      cases h
      exact ⟨fault, rfl⟩
    next => cases h

/-- Where a token is called for and nothing breaks off, it is made. -/
theorem nextToken?_ne_error {e : Engine} {a : Ambient} {work : PageWork} {outcome : PageOutcome}
    (err : TokenError) : e.nextToken? a work outcome ≠ some (.error err) := by
  intro h
  rw [nextToken?] at h
  cases hnext : outcome.next with
  | none =>
    rw [hnext] at h
    cases h
  | some next =>
    simp only [hnext] at h
    obtain ⟨number, -, h⟩ := Option.bind_eq_some_iff.mp h
    obtain ⟨token, htoken, h⟩ := Option.bind_eq_some_iff.mp h
    obtain ⟨claims, -, rfl⟩ := Option.map_eq_some_iff.mp htoken
    cases h

theorem isRecoverable_of_mem_failedCodes {code : ErrorCode} (h : some code ∈ none :: failedCodes) :
    code.isRecoverable = true := by
  cases code <;> first | rfl | exact absurd h (by decide)

theorem executionError_mem_failedCodes (err : ExecutionError) :
    some err.code ∈ none :: failedCodes := by
  rw [ExecutionError.code]
  split <;> decide

/-- What is given back when a page that was claimed is answered with. -/
theorem settle_codec {e : Engine} {result : QueryResult} (h : result.errorCode? ∈ none :: failedCodes)
    (nonce : String) :
    (e.settle result (some nonce)).codec =
      if result.errorCode? = none then e.codec else e.codec.release nonce := by
  cases result with
  | success data metadata pagination => rfl
  | error f requestId =>
    have hrecoverable : f.code.isRecoverable = true := isRecoverable_of_mem_failedCodes h
    simp only [settle, QueryResult.errorCode?, hrecoverable, if_true, reduceCtorEq, if_false]

/-- A page that was executed is answered with, and the token is given back unless it was served; or the
request breaks off with nothing given back. -/
theorem steps_executed (e : Engine) (a : Ambient) {work : PageWork} {nonce : String}
    (hnonce : work.claimed = some nonce) (haccepts : work.query.accepts work.cursor = true)
    {outcome : Except PageError PageOutcome}
    (houtcome : work.query.executePage a.backend work.pageSize work.cursor work.page = outcome) :
    (∃ e' result request,
      steps a 2 (e, .executed work outcome) = (e', .done result request) ∧
      result.errorCode? ∈ none :: failedCodes ∧
      (∀ fault, outcome = .error (.execution fault) → result.errorCode? = some fault.code) ∧
      e'.codec = if result.errorCode? = none then e.codec else e.codec.release nonce) ∨
    ∃ page request, outcome = .ok page ∧
      steps a 2 (e, .executed work outcome) = (e, .brokenOff request) := by
  have hsettled (result : QueryResult) (hcode : result.errorCode? ∈ none :: failedCodes)
      (request : Request) (metrics : Metrics) :
      steps a 1 ({ e with metrics }, .answered result work.claimed request) =
          ({ e with metrics }.settle result (some nonce), .done result request) ∧
        ({ e with metrics }.settle result (some nonce)).codec =
          if result.errorCode? = none then e.codec else e.codec.release nonce := by
    rw [hnonce]
    exact ⟨steps_answered a 0 _ _ _ _, settle_codec hcode nonce⟩
  cases outcome with
  | error err =>
    obtain ⟨fault, rfl⟩ := executePage_eq_error haccepts houtcome
    have hcode := executionError_mem_failedCodes fault
    obtain ⟨hsteps, hcodec⟩ := hsettled (.error fault.toFailure _) hcode _ _
    refine .inl ⟨_, _, _, hsteps, hcode, ?_, hcodec⟩
    rintro _ ⟨⟩
    rfl
  | ok outcome =>
    have hexecuted : steps a 2 (e, .executed work (.ok outcome)) =
        steps a 1 (e.step a (.executed work (.ok outcome))) := rfl
    rw [hexecuted, step]
    cases htoken : e.nextToken? a work outcome with
    | none => exact .inr ⟨outcome, _, rfl, rfl⟩
    | some made =>
      cases made with
      | error err => exact absurd htoken (nextToken?_ne_error err)
      | ok token =>
        obtain ⟨hsteps, hcodec⟩ := hsettled (.success _ _ _) List.mem_cons_self _ _
        exact .inl ⟨_, _, _, hsteps, List.mem_cons_self, (fun _ h => by cases h), hcodec⟩

/-- A page request that claims its token keeps the claim just when it is served or breaks off. -/
theorem fetchPage_of_redeem_ok {e : Engine} {a : Ambient} {token : String} {claims : PageClaims}
    {page : ResolvedPage} (hverify : e.codec.config.verify a.verifiedAt token = .ok claims)
    (h : (e.codec.registry.redeem claims a.lookedUpAt a.consumedAt).1 = .ok page) :
    (∃ result, (e.fetchPage a token).result = some result ∧
      result.errorCode? ∈ none :: failedCodes ∧
      (∀ fault, page.query.executePage a.backend page.pageSize page.cursor page.page =
          .error (.execution fault) → result.errorCode? = some fault.code) ∧
      (e.fetchPage a token).engine.codec =
        if result.errorCode? = none then (e.codec.claim token a.claimReadings).2
        else (e.codec.claim token a.claimReadings).2.release page.nonce) ∨
    (e.fetchPage a token).result = none ∧
      (∃ outcome, page.query.executePage a.backend page.pageSize page.cursor page.page =
        .ok outcome) ∧
      (e.fetchPage a token).engine.codec = (e.codec.claim token a.claimReadings).2 := by
  have hclaim := Codec.claim_of_verify a.claimReadings hverify
  have haccepts : page.query.accepts page.cursor = true := by
    obtain ⟨resolved, -⟩ := (Registry.redeem_eq_ok_iff _ _ _ _ page).mp h
    obtain ⟨-, q, -, haccepts, rfl⟩ := (Registry.resolve_eq_ok_iff_lookup _ _ _ page).mp resolved
    exact haccepts
  let work : PageWork :=
    { request := (Request.receive a.freshId).advance .executing, query := page.query,
      pageSize := page.pageSize, cursor := page.cursor, page := page.page,
      claimed := some page.nonce }
  let claimed : Engine :=
    { (e.present a token).1 with codec := (e.codec.claim token a.claimReadings).2 }
  have hexecuted : steps a 5 (e.present a token) = steps a 2 (claimed, .executed work
      (page.query.executePage a.backend page.pageSize page.cursor page.page)) := by
    simp only [steps, present, step, hverify, h, claimed, work, hclaim]
    rfl
  rcases claimed.steps_executed a (show work.claimed = some page.nonce from rfl) haccepts rfl with
    ⟨e', result, request, hsteps, hcode, hfault, hcodec⟩ | ⟨outcome, request, houtcome, hsteps⟩
  · have hserve : e.fetchPage a token = ⟨e', some result, request.log⟩ :=
      @serve_eq a (e.present a token) e' (.done result request) rfl (hexecuted.trans hsteps)
    rw [hserve]
    exact .inl ⟨result, rfl, hcode, hfault, hcodec⟩
  · have hserve : e.fetchPage a token = ⟨claimed, none, request.log⟩ :=
      @serve_eq a (e.present a token) claimed (.brokenOff request) rfl (hexecuted.trans hsteps)
    rw [hserve]
    exact .inr ⟨rfl, ⟨outcome, houtcome⟩, rfl⟩

end Engine

namespace Stage

/-- The request is yet to claim its token. -/
def IsClaiming : Stage → Prop
  | .presented _ _ | .verified _ _ => True
  | _ => False

/-- The request has its answer and nothing to give back. -/
def IsOver : Stage → Prop
  | .answered _ claimed _ => claimed = none
  | .done _ _ | .brokenOff _ => True
  | _ => False

end Stage

namespace Engine

/-- The next step of the request refuses its token. -/
def Refuses (e : Engine) (a : Ambient) : Stage → Prop
  | .presented token _ => ∃ err, e.codec.config.verify a.verifiedAt token = .error err
  | .verified claims _ =>
    ∃ err, (e.codec.registry.redeem claims a.lookedUpAt a.consumedAt).1 = .error err
  | _ => False

variable {e : Engine} {a : Ambient} {s : Stage}

theorem Refuses.isClaiming (h : e.Refuses a s) : s.IsClaiming := by
  cases s <;> trivial

theorem Refuses.isOver (h : e.Refuses a s) : (e.step a s).2.IsOver := by
  cases s with
  | presented token request =>
    obtain ⟨err, herr⟩ := h
    simp only [step, herr]
    rfl
  | verified claims request =>
    obtain ⟨err, herr⟩ := h
    simp only [step, herr]
    rfl
  | submitted | ready | executed | answered | done | brokenOff => exact h.elim

theorem isOver_step (e : Engine) (a : Ambient) {s : Stage} (h : s.IsOver) :
    (e.step a s).2.IsOver := by
  cases s with
  | answered | done | brokenOff => trivial
  | submitted | presented | verified | ready | executed => exact h.elim

/-- A claim comes first in a request. -/
theorem not_isClaiming_step (e : Engine) (a : Ambient) {s : Stage} (h : ¬ s.IsClaiming) :
    ¬ (e.step a s).2.IsClaiming := by
  cases s with
  | presented | verified => exact (h trivial).elim
  | submitted plan catalog request =>
    simp only [step]
    split <;> exact id
  | ready work => exact id
  | executed work outcome =>
    cases outcome with
    | error err => exact id
    | ok outcome =>
      simp only [step]
      split <;> exact id
  | answered | done | brokenOff => exact id

/-- A request that claims its token, or has nothing to give back, frees no nonce but an expired one. -/
theorem keeps_nonce (h : s.IsClaiming ∨ s.IsOver) {x : String × Int64}
    (hx : x ∈ e.codec.registry.consumed) (hnow : a.consumedAt.seconds ≤ x.2) :
    x ∈ (e.step a s).1.codec.registry.consumed := by
  cases s with
  | presented token request =>
    simp only [step]
    split <;> exact hx
  | verified claims request =>
    have hkept : x ∈ (e.codec.registry.redeem claims a.lookedUpAt a.consumedAt).2.consumed := by
      rcases e.codec.registry.redeem_consumed claims a.lookedUpAt a.consumedAt with heq | ⟨_, -, heq⟩
      · rwa [heq]
      · rw [heq]
        exact List.mem_append_left _ (List.mem_filter.mpr ⟨hx, decide_eq_true hnow⟩)
    simp only [step]
    split <;> exact hkept
  | answered result claimed request =>
    obtain rfl : claimed = none := h.resolve_left id
    exact hx
  | done | brokenOff => exact hx
  | submitted | ready | executed => exact (h.elim id id).elim

end Engine

namespace Serving

variable {s : Serving} {i : Nat} {before after : List ServingStep} {a : Ambient} {p : Pending}

/-- At any time of a run, a request whose claim is refused in it is claiming or has nothing to give
back. -/
theorem isClaiming_or_isOver (hp : (s.run before).pending[i]? = some p)
    (hrefused : (s.run before).engine.Refuses a p.stage) {earlier later : List ServingStep}
    {x : ServingStep} (hsplit : earlier ++ x :: later = before ++ .advance i a :: after) {q : Pending}
    (hq : (s.run earlier).pending[i]? = some q) : q.stage.IsClaiming ∨ q.stage.IsOver := by
  rcases List.append_eq_append_iff.mp hsplit with ⟨between, rfl, -⟩ | ⟨between, rfl, hrest⟩
  · left
    by_contra hpast
    rw [run_append] at hp
    obtain ⟨p', hp', hclaiming⟩ := stage_run_of_step (P := fun s => ¬ s.IsClaiming)
      (fun e a _ h => e.not_isClaiming_step a h) between hq hpast
    rw [hp] at hp'
    cases hp'
    exact hclaiming hrefused.isClaiming
  · cases between with
    | nil =>
      rw [List.append_nil, hp] at hq
      cases hq
      exact .inl hrefused.isClaiming
    | cons y between =>
      cases hrest
      right
      rw [run_append, run_cons] at hq
      have hover : ((s.run before).step (.advance i a)).pending[i]? =
          some ⟨((s.run before).engine.step a p.stage).2,
            if p.stage.redeems then 0 else p.reloads⟩ := by
        show ((s.run before).advance i a).pending[i]? = _
        rw [advance_eq hp]
        exact List.getElem?_set_self (List.getElem?_eq_some_iff.mp hp).1
      obtain ⟨p', hp', hdone⟩ := stage_run_of_step (P := Stage.IsOver)
        (fun e a _ h => e.isOver_step a h) between hover hrefused.isOver
      rw [hq] at hp'
      cases hp'
      exact hdone

/-- A request whose claim is refused in a run frees no nonce in it but an expired one. -/
theorem keeps_nonces (hp : (s.run before).pending[i]? = some p)
    (hrefused : (s.run before).engine.Refuses a p.stage) {earlier later : List ServingStep}
    {a' : Ambient} (hsplit : earlier ++ .advance i a' :: later = before ++ .advance i a :: after)
    {x : String × Int64} (hx : x ∈ (s.run earlier).engine.codec.registry.consumed)
    (hnow : a'.consumedAt.seconds ≤ x.2) :
    x ∈ ((s.run earlier).advance i a').engine.codec.registry.consumed := by
  cases hq : (s.run earlier).pending[i]? with
  | none => rwa [Serving.advance, hq]
  | some q =>
    rw [advance_eq hq]
    exact Engine.keeps_nonce (isClaiming_or_isOver hp hrefused hsplit hq) hx hnow

end Serving

/-- A page request that fails after it has claimed its token leaves the nonces as they were, but for
those of tokens that have expired, and the token can be claimed for the same page again until it
expires, as long as its query lives. A request whose claim is refused adds no nonce and frees only
those of expired tokens, and one that is served adds the nonce of its token; there is no other code. A
request that breaks off has no code, and its token stays used up. Among requests that are served side by
side, one whose claim is refused frees no nonce of a token that has not expired, at any of its steps. -/
theorem Engine.fetchPage_keeps_tokens (e : Engine) (a : Ambient) (token : String) :
    let before := e.codec.registry
    let served := e.fetchPage a token
    let left := served.engine.codec.registry
    (∀ result, served.result = some result →
      let code := result.errorCode?
      (code ∈ failedCodes →
        left.consumed = (before.dropExpired a.consumedAt).consumed ∧
          ∃ claims page, e.codec.config.verify a.verifiedAt token = .ok claims ∧
            (e.codec.claim token a.claimReadings).1 = .ok page ∧
              ∀ later : ClaimReadings, (served.engine.codec.claim token later).1 = .ok page ↔
                later.verified ≤ claims.expiresAt.toInt ∧
                  later.lookedUp ≤ a.lookedUpAt + before.ttl.toInt) ∧
      (code ∈ refusedCodes →
        left.consumed = before.consumed ∨
          left.consumed = (before.dropExpired a.consumedAt).consumed) ∧
      (code = none →
        ∃ claims, e.codec.config.verify a.verifiedAt token = .ok claims ∧
          left.consumed = (before.dropExpired a.consumedAt).consumed ++
            [(claims.nonce, claims.expiresAt)]) ∧
      (code = none ∨ code ∈ failedCodes ∨ code ∈ refusedCodes)) ∧
    (served.result = none →
      ∃ claims, e.codec.config.verify a.verifiedAt token = .ok claims ∧
        left.consumed = (before.dropExpired a.consumedAt).consumed ++
          [(claims.nonce, claims.expiresAt)]) ∧
    ∀ (s : Serving) (before after earlier later : List ServingStep) (i : Nat) (a a' : Ambient)
      (p : Pending), (s.run before).pending[i]? = some p → (s.run before).engine.Refuses a p.stage →
      earlier ++ .advance i a' :: later = before ++ .advance i a :: after →
        ∀ x ∈ (s.run earlier).engine.codec.registry.consumed, a'.consumedAt.seconds ≤ x.2 →
          x ∈ ((s.run earlier).advance i a').engine.codec.registry.consumed := by
  intro before served left
  have hbeside (s : Serving) (before after earlier later : List ServingStep) (i : Nat)
      (a a' : Ambient) (p : Pending) (hp : (s.run before).pending[i]? = some p)
      (hrefused : (s.run before).engine.Refuses a p.stage)
      (hsplit : earlier ++ .advance i a' :: later = before ++ .advance i a :: after)
      (x : String × Int64) (hx : x ∈ (s.run earlier).engine.codec.registry.consumed)
      (hnow : a'.consumedAt.seconds ≤ x.2) :
      x ∈ ((s.run earlier).advance i a').engine.codec.registry.consumed :=
    Serving.keeps_nonces hp hrefused hsplit hx hnow
  cases hclaim : (e.codec.claim token a.claimReadings).1 with
  | error err =>
    obtain ⟨hcodec, refused, hrefused, hcode⟩ := fetchPage_of_claim_error hclaim
    refine ⟨fun result hresult => ?_, fun hnone => ?_, hbeside⟩
    · cases hrefused.symm.trans hresult
      refine ⟨fun hfailed => ?_, fun _ => ?_, fun hserved => ?_, .inr (.inr hcode)⟩
      · exact absurd hcode (not_mem_refusedCodes _ (List.mem_cons_of_mem _ hfailed))
      · have hleft := Codec.claim_consumed_of_error hclaim
        rwa [← hcodec] at hleft
      · exact absurd hcode (not_mem_refusedCodes _ (hserved ▸ List.mem_cons_self))
    · cases hrefused.symm.trans hnone
  | ok page =>
    obtain ⟨claims, hverify, hredeem⟩ := Codec.claim_eq_ok hclaim
    have hkept (hcodec : served.engine.codec = (e.codec.claim token a.claimReadings).2) :
        ∃ claims, e.codec.config.verify a.verifiedAt token = .ok claims ∧
          left.consumed = (before.dropExpired a.consumedAt).consumed ++
            [(claims.nonce, claims.expiresAt)] := by
      refine ⟨claims, hverify, ?_⟩
      simp only [left, hcodec, Codec.claim_of_verify a.claimReadings hverify]
      exact Registry.redeem_consumed_of_ok hredeem
    rcases fetchPage_of_redeem_ok hverify hredeem with
      ⟨answer, hanswer, hcode, -, hcodec⟩ | ⟨hnone, -, hcodec⟩
    · refine ⟨fun result hresult => ?_, fun hnone => ?_, hbeside⟩
      · cases hanswer.symm.trans hresult
        refine ⟨fun hfailed => ?_, fun hrefused => ?_, fun hserved => ?_, ?_⟩
        · have hfails : answer.errorCode? ≠ none := fun hserved => by
            rw [hserved] at hfailed
            revert hfailed
            decide
          have hreleased : served.engine.codec =
              (e.codec.claim token a.claimReadings).2.release page.nonce :=
            hcodec.trans (if_neg hfails)
          refine ⟨?_, claims, page, hverify, rfl, fun later => ?_⟩
          · simp only [left, hreleased, Codec.claim_of_verify a.claimReadings hverify]
            exact Registry.release_redeem_consumed hredeem
          · rw [hreleased]
            exact Codec.claim_release_claim_iff hverify hredeem later
        · exact absurd hrefused (not_mem_refusedCodes _ hcode)
        · exact hkept (hcodec.trans (if_pos hserved))
        · rcases List.mem_cons.mp hcode with hserved | hfailed
          · exact .inl hserved
          · exact .inr (.inl hfailed)
      · cases hanswer.symm.trans hnone
    · refine ⟨fun result hresult => ?_, fun _ => hkept hcodec, hbeside⟩
      cases hnone.symm.trans hresult

namespace TokenState.Twice

def engine : Engine := { ReloadedBooks.engine with codec := codec }

/-- Every connection is in use, and the clock stands still. -/
def ambient : Ambient where
  backend := fun _ _ => .error .noConnection
  freshId := "r"
  nonce := "m"
  registeredAt := 900
  verifiedAt := 900
  lookedUpAt := 900
  consumedAt := 900
  mintedAt := 900
  elapsedMs := 0

theorem fetchPage_timeout : ∃ result, (engine.fetchPage ambient token).result = some result ∧
    result.errorCode? = some .executionTimeout := by
  have hverify : engine.codec.config.verify ambient.verifiedAt token = .ok claims := verified
  have hredeem : (engine.codec.registry.redeem claims ambient.lookedUpAt ambient.consumedAt).1 =
      .ok (claims.pageOf query) := rfl
  rcases Engine.fetchPage_of_redeem_ok hverify hredeem with
    ⟨result, hresult, -, hfault, -⟩ | ⟨-, ⟨outcome, houtcome⟩, -⟩
  · exact ⟨result, hresult, hfault .noConnection rfl⟩
  · cases houtcome

/-- The page fails, its token is not used up, and it can be claimed up to the second in which it
expires. -/
theorem claims_again :
    (∃ result, (engine.fetchPage ambient token).result = some result ∧
        result.errorCode? = some .executionTimeout) ∧
      (engine.fetchPage ambient token).engine.codec.registry.consumed = [] ∧
        ∃ page, ((engine.fetchPage ambient token).engine.codec.claim token (.at 900)).1 =
          .ok page := by
  obtain ⟨hanswered, -⟩ := engine.fetchPage_keeps_tokens ambient token
  obtain ⟨result, hresult, hcode⟩ := fetchPage_timeout
  obtain ⟨hfailed, -⟩ := hanswered result hresult
  have hmem : result.errorCode? ∈ Engine.failedCodes := by
    rw [hcode]
    exact List.mem_cons_self
  obtain ⟨hconsumed, claims', page, hverify, -, hagain⟩ := hfailed hmem
  have hclaims : claims' = claims := by
    have h : Except.ok claims' = Except.ok claims := hverify.symm.trans verified
    exact Except.ok.inj h
  subst hclaims
  exact ⟨⟨result, hresult, hcode⟩, hconsumed, page,
    (hagain (.at 900)).mpr ⟨by decide +kernel, by decide +kernel⟩⟩

end TokenState.Twice

end CatalogQuery
