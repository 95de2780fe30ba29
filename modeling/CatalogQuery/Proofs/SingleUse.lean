import CatalogQuery.Page.Codec
import CatalogQuery.Proofs.SignedText
/-!
# Tokens that are claimed at the same time

A claim of a token has two steps. The token is verified by one reading of the clock; under the lock
on the registry its query is looked up and its nonce used up, by later readings. Between the two,
any number of steps of other requests can take place. A nonce that was used is held until a reading
of the clock is past the expiry of its token, and a claim that was verified in time does not notice
when such a reading lets it go.
-/
namespace CatalogQuery

/-- A claim, or a look at the page, of which the first step is done. -/
structure VerifiedCall where
  call : Nat
  token : String
  claims : PageClaims
  deriving DecidableEq, Repr

structure TokenState where
  codec : Codec
  verified : List VerifiedCall := []
  deriving DecidableEq, Repr

/-- What one request does without another between. -/
inductive TokenStep
  | verify (call : Nat) (token : String) (now : Time.Reading)
  /-- The second step of a look at a page. -/
  | look (call : Nat) (now : Time.Reading)
  /-- The second step of a claim. -/
  | redeem (call : Nat) (lookedUp consumed : Time.Reading)
  | register (q : CompiledQuery) (now : Time.Reading)
  | purge (now : Time.Reading)
  | release (nonce : String)
  | invalidate (generation : UInt64)
  deriving DecidableEq, Repr

def TokenStep.readings : TokenStep → List Int
  | .verify _ _ now | .look _ now | .register _ now | .purge now => [now]
  | .redeem _ lookedUp consumed => [lookedUp, consumed]
  | .release _ | .invalidate _ => []

def TokenStep.token? : TokenStep → Option String
  | .verify _ token _ => some token
  | _ => none

namespace TokenState

def withRegistry (s : TokenState) (r : Registry) : TokenState :=
  { s with codec := { s.codec with registry := r } }

def verifiedCall? (s : TokenState) (call : Nat) : Option VerifiedCall :=
  s.verified.find? fun v => v.call = call

def drop (s : TokenState) (call : Nat) : TokenState :=
  { s with verified := s.verified.filter fun v => v.call ≠ call }

def step (s : TokenState) : TokenStep → TokenState
  | .verify call token now =>
    match s.codec.config.verify now token with
    | .error _ => s
    | .ok claims => { s with verified := ⟨call, token, claims⟩ :: s.verified }
  | .look call now =>
    match s.verifiedCall? call with
    | none => s
    | some v => (s.withRegistry (s.codec.registry.resolve v.claims now).2).drop call
  | .redeem call lookedUp consumed =>
    match s.verifiedCall? call with
    | none => s
    | some v =>
      (s.withRegistry (s.codec.registry.redeem v.claims lookedUp consumed).2).drop call
  | .register q now => { s with codec := (s.codec.register q now).2 }
  | .purge now => s.withRegistry (s.codec.registry.purge now)
  | .release nonce => { s with codec := s.codec.release nonce }
  | .invalidate generation => { s with codec := s.codec.invalidate generation }

def run (s : TokenState) (steps : List TokenStep) : TokenState := steps.foldl step s

/-- The call is one for the token, and a look at the page would succeed. -/
def Resolves (s : TokenState) (token : String) (call : Nat) (lookedUp : Time.Reading) : Prop :=
  ∃ v page, s.verifiedCall? call = some v ∧ v.token = token ∧
    (s.codec.registry.resolve v.claims lookedUp).1 = .ok page

/-- The call is one for the token, and the second step of its claim succeeds. -/
def Redeems (s : TokenState) (token : String) (call : Nat) (lookedUp consumed : Time.Reading) : Prop :=
  ∃ v page, s.verifiedCall? call = some v ∧ v.token = token ∧
    (s.codec.registry.redeem v.claims lookedUp consumed).1 = .ok page

@[simp] theorem run_nil (s : TokenState) : s.run [] = s := rfl

@[simp] theorem run_cons (s : TokenState) (e : TokenStep) (steps : List TokenStep) :
    s.run (e :: steps) = (s.step e).run steps := rfl

theorem step_verify {s : TokenState} {call : Nat} {token : String} {now : Time.Reading}
    {claims : PageClaims} (h : s.codec.config.verify now token = .ok claims) :
    s.step (.verify call token now) = ⟨s.codec, ⟨call, token, claims⟩ :: s.verified⟩ := by
  rw [step, h]

theorem run_append (s : TokenState) (a b : List TokenStep) :
    s.run (a ++ b) = (s.run a).run b := List.foldl_append

end TokenState

namespace TokenConfig

/-- A token that is valid at a time is one that the secret signed. -/
theorem open?_of_verify_eq_ok {c : TokenConfig} {now : Int} {token : String} {claims : PageClaims}
    (h : c.verify now token = .ok claims) : Token.open? c.secret token = some claims := by
  unfold verify at h
  split at h
  · cases h
  · rename_i opened heq
    split at h
    · cases h
    · split at h
      · cases h
      · split at h
        · cases h
          exact heq
        · cases h

/-- A token that the secret signed is valid up to its expiry, if it is meant for here. -/
theorem verify_eq_ok {c : TokenConfig} {now : Int} {token : String} {claims : PageClaims}
    (h : Token.open? c.secret token = some claims) (hzero : 0 ≤ claims.expiresAt.toInt)
    (hnow : now ≤ claims.expiresAt.toInt)
    (hmeant : claims.issuer = c.issuer ∧ claims.audience = c.audience) :
    c.verify now token = .ok claims := by
  unfold verify
  rw [h]
  simp only
  rw [if_neg (by omega), if_neg (by omega), if_pos hmeant]

end TokenConfig

namespace Registry

/-- Nothing but looking at a page is done to the nonces when it is looked at. -/
@[simp] theorem lookup_consumed (r : Registry) (fingerprint : String) (now : Int64) :
    (r.lookup fingerprint now).2.consumed = r.consumed := by
  unfold lookup
  split
  · rfl
  · split <;> rfl

@[simp] theorem resolve_consumed (r : Registry) (claims : PageClaims) (now : Int64) :
    (r.resolve claims now).2.consumed = r.consumed := by
  have kept := r.lookup_consumed claims.fingerprint now
  unfold resolve
  split
  · rfl
  · split
    · rename_i looked
      rwa [looked] at kept
    · rename_i looked
      rw [looked] at kept
      split <;> exact kept

theorem resolve_nonce {r : Registry} {claims : PageClaims} {now : Int64} {page : ResolvedPage}
    (h : (r.resolve claims now).1 = .ok page) : page.nonce = claims.nonce := by
  unfold resolve at h
  split at h
  · cases h
  · split at h
    · cases h
    · split at h
      · cases h
        rfl
      · cases h

theorem register_consumed (r : Registry) (q : CompiledQuery) (now : Int64) :
    (r.register q now).2.consumed = (r.dropExpired now).consumed := by
  unfold register
  simp only
  split
  · rfl
  · split <;> rfl

/-- A nonce that no held entry has can be used, and one that a held entry has cannot. -/
theorem consume_eq_true_iff (r : Registry) (nonce : String) (expires now : Int64) :
    (r.consume nonce expires now).1 = true ↔
      ∀ x ∈ r.consumed, x.1 = nonce → x.2.toInt < now.toInt := by
  have held : (r.consume nonce expires now).1 = true ↔
      ((r.dropExpired now).consumed.lookup nonce) = none := by
    unfold consume
    cases h : (r.dropExpired now).consumed.lookup nonce <;> simp [h]
  rw [held, List.lookup_eq_none_iff]
  constructor
  · intro absent x mem same
    refine Int.not_le.mp fun late => ?_
    have kept : x ∈ (r.dropExpired now).consumed := by
      simp only [dropExpired, List.mem_filter, decide_eq_true_eq, Int64.le_iff_toInt_le]
      exact ⟨mem, late⟩
    simpa [same] using absent x kept
  · intro past x mem
    simp only [dropExpired, List.mem_filter, decide_eq_true_eq, Int64.le_iff_toInt_le] at mem
    have other : x.1 ≠ nonce := fun same => by
      have := past x mem.1 same
      omega
    simpa using other.symm

/-- What using a nonce leaves: the entries that have not expired and, where it could be used, the
nonce. -/
theorem consume_consumed (r : Registry) (nonce : String) (expires now : Int64) :
    (r.consume nonce expires now).2.consumed =
      (r.dropExpired now).consumed ++
        if (r.consume nonce expires now).1 then [(nonce, expires)] else [] := by
  unfold consume
  cases h : (r.dropExpired now).consumed.lookup nonce <;> simp [h]

theorem dropExpired_resolve (r : Registry) (claims : PageClaims) (lookedUp now : Int64) :
    ((r.resolve claims lookedUp).2.dropExpired now).consumed = (r.dropExpired now).consumed := by
  simp only [dropExpired, resolve_consumed]

theorem redeem_of_resolve_error {r : Registry} {claims : PageClaims} {lookedUp : Int64}
    {e : TokenError} (h : (r.resolve claims lookedUp).1 = .error e) (consumed : Int64) :
    r.redeem claims lookedUp consumed = (.error e, (r.resolve claims lookedUp).2) := by
  unfold redeem
  cases looked : r.resolve claims lookedUp with
  | mk answer r' =>
    rw [looked] at h
    cases h
    rfl

theorem redeem_of_resolve_ok {r : Registry} {claims : PageClaims} {lookedUp : Int64}
    {page : ResolvedPage} (h : (r.resolve claims lookedUp).1 = .ok page) (consumed : Int64) :
    r.redeem claims lookedUp consumed =
      let used := (r.resolve claims lookedUp).2.consume claims.nonce claims.expiresAt consumed
      (if used.1 then .ok page else .error .invalidToken, used.2) := by
  unfold redeem
  have nonce := resolve_nonce h
  cases looked : r.resolve claims lookedUp with
  | mk answer r' =>
    rw [looked] at h
    cases h
    simp only [nonce]
    cases used : r'.consume claims.nonce claims.expiresAt consumed with
    | mk free r'' => cases free <;> rfl

/-- A claim succeeds if its page resolves and no entry under its nonce is left. -/
theorem redeem_eq_ok_iff (r : Registry) (claims : PageClaims) (lookedUp consumed : Int64)
    (page : ResolvedPage) :
    (r.redeem claims lookedUp consumed).1 = .ok page ↔
      (r.resolve claims lookedUp).1 = .ok page ∧
        ∀ x ∈ r.consumed, x.1 = claims.nonce → x.2.toInt < consumed.toInt := by
  cases h : (r.resolve claims lookedUp).1 with
  | error e => simp [redeem_of_resolve_error h]
  | ok found =>
    have used := (r.resolve claims lookedUp).2.consume_eq_true_iff claims.nonce
      claims.expiresAt consumed
    rw [resolve_consumed] at used
    rw [redeem_of_resolve_ok h, ← used]
    by_cases free :
        ((r.resolve claims lookedUp).2.consume claims.nonce claims.expiresAt consumed).1
    · simp [free]
    · simp [free]

/-- A claim leaves the nonces as they are, or lets the expired ones go and may hold its own. -/
theorem redeem_consumed (r : Registry) (claims : PageClaims) (lookedUp consumed : Int64) :
    (r.redeem claims lookedUp consumed).2.consumed = r.consumed ∨
      ∃ held ∈ [[], [(claims.nonce, claims.expiresAt)]],
        (r.redeem claims lookedUp consumed).2.consumed =
          (r.dropExpired consumed).consumed ++ held := by
  cases h : (r.resolve claims lookedUp).1 with
  | error e =>
    left
    rw [redeem_of_resolve_error h]
    exact r.resolve_consumed claims lookedUp
  | ok found =>
    right
    rw [redeem_of_resolve_ok h]
    simp only [consume_consumed, dropExpired_resolve]
    split
    · exact ⟨_, by simp, rfl⟩
    · exact ⟨[], by simp, rfl⟩

/-- A claim that succeeds holds its nonce. -/
theorem redeem_consumed_of_ok {r : Registry} {claims : PageClaims} {lookedUp consumed : Int64}
    {page : ResolvedPage} (h : (r.redeem claims lookedUp consumed).1 = .ok page) :
    (r.redeem claims lookedUp consumed).2.consumed =
      (r.dropExpired consumed).consumed ++ [(claims.nonce, claims.expiresAt)] := by
  obtain ⟨resolved, past⟩ := (r.redeem_eq_ok_iff claims lookedUp consumed page).mp h
  rw [redeem_of_resolve_ok resolved]
  have free := ((r.resolve claims lookedUp).2.consume_eq_true_iff claims.nonce
    claims.expiresAt consumed).mpr (by rwa [resolve_consumed])
  simp only [consume_consumed, dropExpired_resolve, free, if_true]

/-- The nonce was used by a token that expires at a time. It is held under that time only, and it is
let go of only by a reading of the clock past it. -/
structure Spent (r : Registry) (nonce : String) (expires : Int64) (limit : Int) : Prop where
  only : ∀ x ∈ r.consumed, x.1 = nonce → x.2 = expires
  held : (nonce, expires) ∈ r.consumed ∨ expires.toInt < limit

namespace Spent

variable {r r' : Registry} {nonce : String} {expires : Int64} {limit : Int}

theorem of_consumed_eq (s : r.Spent nonce expires limit) (h : r'.consumed = r.consumed) :
    r'.Spent nonce expires limit :=
  ⟨by rw [h]; exact s.only, by rw [h]; exact s.held⟩

theorem dropExpired (s : r.Spent nonce expires limit) {now : Int64} (h : now.toInt ≤ limit) :
    (r.dropExpired now).Spent nonce expires limit where
  only x mem same := s.only x ((List.mem_filter.mp mem).1) same
  held := by
    by_cases past : expires.toInt < limit
    · exact .inr past
    · have mem := s.held.resolve_right past
      left
      simp only [Registry.dropExpired, List.mem_filter, decide_eq_true_eq, Int64.le_iff_toInt_le]
      exact ⟨mem, by omega⟩

theorem append (s : r.Spent nonce expires limit) {held : List (String × Int64)}
    (h : r'.consumed = r.consumed ++ held) (only : ∀ x ∈ held, x.1 = nonce → x.2 = expires) :
    r'.Spent nonce expires limit where
  only x mem same := by
    rw [h, List.mem_append] at mem
    rcases mem with mem | mem
    · exact s.only x mem same
    · exact only x mem same
  held := by
    rw [h]
    exact s.held.imp_left (List.mem_append_left _)

theorem release (s : r.Spent nonce expires limit) {other : String} (h : other ≠ nonce) :
    (r.release other).Spent nonce expires limit where
  only x mem same := s.only x ((List.mem_filter.mp mem).1) same
  held := s.held.imp_left fun mem => by
    simp only [Registry.release, List.mem_filter, decide_eq_true_eq]
    exact ⟨mem, h.symm⟩

/-- A claim under another nonce, or of a token that expires at the same time. -/
theorem redeem (s : r.Spent nonce expires limit) {claims : PageClaims} {lookedUp consumed : Int64}
    (h : consumed.toInt ≤ limit) (same : claims.nonce = nonce → claims.expiresAt = expires) :
    (r.redeem claims lookedUp consumed).2.Spent nonce expires limit := by
  rcases r.redeem_consumed claims lookedUp consumed with eq | ⟨held, mem, eq⟩
  · exact s.of_consumed_eq eq
  · refine (s.dropExpired h).append eq fun x mem' => ?_
    simp only [List.mem_cons, List.not_mem_nil, or_false] at mem
    rcases mem with rfl | rfl
    · cases mem'
    · simp only [List.mem_singleton] at mem'
      subst mem'
      exact same

theorem of_redeem {claims : PageClaims} {lookedUp consumed : Int64} {page : ResolvedPage}
    (h : (r.redeem claims lookedUp consumed).1 = .ok page) :
    (r.redeem claims lookedUp consumed).2.Spent claims.nonce claims.expiresAt limit where
  only x mem same := by
    rw [redeem_consumed_of_ok h, List.mem_append, List.mem_singleton] at mem
    rcases mem with mem | rfl
    · have past := ((r.redeem_eq_ok_iff _ _ _ _).mp h).2 x ((List.mem_filter.mp mem).1) same
      simp only [Registry.dropExpired, List.mem_filter, decide_eq_true_eq, Int64.le_iff_toInt_le] at mem
      omega
    · rfl
  held := by
    rw [redeem_consumed_of_ok h]
    exact .inl (by simp)

/-- Under a nonce that was used, a claim at the latest reading so far succeeds if its page resolves
and the token has expired. -/
theorem redeem_eq_ok_iff {claims : PageClaims} {lookedUp consumed : Int64} {page : ResolvedPage}
    (s : r.Spent claims.nonce claims.expiresAt consumed.toInt) :
    (r.redeem claims lookedUp consumed).1 = .ok page ↔
      (r.resolve claims lookedUp).1 = .ok page ∧
        claims.expiresAt.toInt < consumed.toInt := by
  rw [Registry.redeem_eq_ok_iff]
  refine and_congr_right fun _ => ⟨fun past => ?_, fun past x mem same => ?_⟩
  · rcases s.held with mem | expired
    · exact past (claims.nonce, claims.expiresAt) mem rfl
    · exact expired
  · rw [s.only x mem same]
    exact past

end Spent

end Registry

namespace TokenState

/-- The call was verified with claims that the secret signed, in a token among some tokens. -/
def Holds (s : TokenState) (tokens : List String) : Prop :=
  ∀ v ∈ s.verified, v.token ∈ tokens ∧
    Token.open? s.codec.config.secret v.token = some v.claims

theorem step_config (s : TokenState) (e : TokenStep) : (s.step e).codec.config = s.codec.config := by
  cases e with
  | verify call token now =>
    simp only [step]
    split <;> rfl
  | look call now =>
    simp only [step]
    split <;> rfl
  | redeem call lookedUp consumed =>
    simp only [step]
    split <;> rfl
  | register q now => rfl
  | purge now => rfl
  | release nonce => rfl
  | invalidate generation => rfl

theorem run_config (s : TokenState) (steps : List TokenStep) :
    (s.run steps).codec.config = s.codec.config := by
  induction steps generalizing s with
  | nil => rfl
  | cons e steps ih => rw [run_cons, ih, step_config]

/-- A step brings in no call but that of the token it verifies. -/
theorem mem_verified_step {s : TokenState} {e : TokenStep} {v : VerifiedCall}
    (h : v ∈ (s.step e).verified) :
    v ∈ s.verified ∨
      (e.token? = some v.token ∧ Token.open? s.codec.config.secret v.token = some v.claims) := by
  cases e with
  | verify call token now =>
    simp only [step] at h
    split at h
    · exact .inl h
    · rename_i claims valid
      rcases List.mem_cons.mp h with rfl | mem
      · exact .inr ⟨rfl, TokenConfig.open?_of_verify_eq_ok valid⟩
      · exact .inl mem
  | look call now =>
    simp only [step] at h
    split at h
    · exact .inl h
    · exact .inl (List.mem_filter.mp h).1
  | redeem call lookedUp consumed =>
    simp only [step] at h
    split at h
    · exact .inl h
    · exact .inl (List.mem_filter.mp h).1
  | register q now => exact .inl h
  | purge now => exact .inl h
  | release nonce => exact .inl h
  | invalidate generation => exact .inl h

theorem Holds.step {s : TokenState} {tokens : List String} (h : s.Holds tokens) {e : TokenStep}
    (brought : ∀ token, e.token? = some token → token ∈ tokens) : (s.step e).Holds tokens := by
  intro v mem
  rw [step_config]
  rcases mem_verified_step mem with old | ⟨new, opened⟩
  · exact h v old
  · exact ⟨brought _ new, opened⟩

theorem Holds.run {s : TokenState} {tokens : List String} (h : s.Holds tokens)
    {steps : List TokenStep} (brought : ∀ e ∈ steps, ∀ token, e.token? = some token → token ∈ tokens) :
    (s.run steps).Holds tokens := by
  induction steps generalizing s with
  | nil => exact h
  | cons e steps ih =>
    rw [List.forall_mem_cons] at brought
    exact ih (h.step brought.1) brought.2

/-- A step keeps a nonce spent unless it releases the nonce, as long as no call in progress holds
the nonce with another expiry. -/
theorem spent_step {s : TokenState} {nonce : String} {expires : Int64} {limit : Int}
    (spent : s.codec.registry.Spent nonce expires limit) {e : TokenStep}
    (readings : ∀ now ∈ e.readings, now ≤ limit) (kept : e ≠ .release nonce)
    (same : ∀ v ∈ s.verified, v.claims.nonce = nonce → v.claims.expiresAt = expires) :
    (s.step e).codec.registry.Spent nonce expires limit := by
  cases e with
  | verify call token now =>
    simp only [step]
    split <;> exact spent
  | look call now =>
    simp only [step]
    split
    · exact spent
    · exact spent.of_consumed_eq (Registry.resolve_consumed ..)
  | redeem call lookedUp consumed =>
    simp only [step]
    split
    · exact spent
    · rename_i v found
      exact spent.redeem (readings consumed (by simp [TokenStep.readings]))
        (same v (List.mem_of_find?_eq_some found))
  | register q now =>
    have late := readings now (by simp [TokenStep.readings])
    exact (spent.dropExpired late).of_consumed_eq (Registry.register_consumed ..)
  | purge now =>
    have late := readings now (by simp [TokenStep.readings])
    exact (spent.dropExpired late).of_consumed_eq rfl
  | release other => exact spent.release fun eq => kept (by rw [eq])
  | invalidate generation => exact spent.of_consumed_eq rfl

theorem spent_run {s : TokenState} {nonce : String} {expires : Int64} {limit : Int}
    (spent : s.codec.registry.Spent nonce expires limit) {tokens : List String}
    (holds : s.Holds tokens)
    (same : ∀ token ∈ tokens, ∀ claims, Token.open? s.codec.config.secret token = some claims →
      claims.nonce = nonce → claims.expiresAt = expires)
    {steps : List TokenStep} (readings : ∀ now ∈ steps.flatMap TokenStep.readings, now ≤ limit)
    (kept : TokenStep.release nonce ∉ steps)
    (brought : ∀ e ∈ steps, ∀ token, e.token? = some token → token ∈ tokens) :
    (s.run steps).codec.registry.Spent nonce expires limit := by
  induction steps generalizing s with
  | nil => exact spent
  | cons e steps ih =>
    rw [List.forall_mem_cons] at brought
    rw [List.flatMap_cons, List.forall_mem_append] at readings
    rw [List.mem_cons, not_or] at kept
    have next := spent_step spent readings.1 (fun eq => kept.1 eq.symm)
      fun v mem => same _ (holds v mem).1 _ (holds v mem).2
    refine ih next (holds.step brought.1) ?_ readings.2 kept.2 brought.2
    rw [step_config]
    exact same

theorem verifiedCall?_eq_some {s : TokenState} {call : Nat} {v : VerifiedCall}
    (h : s.verifiedCall? call = some v) : v ∈ s.verified ∧ v.call = call :=
  ⟨List.mem_of_find?_eq_some h, by simpa using List.find?_some h⟩

/-- The steps that calls take here in any order are those of the program: verifying a token and redeeming
it with nothing between is `Codec.claim`. -/
theorem exists_redeem_iff_claim (s : TokenState) (call : Nat) (token : String)
    (clock : ClaimReadings) (h : s.verifiedCall? call = none) :
    (s.step (.verify call token clock.verified)).Redeems token call clock.lookedUp clock.consumed ↔
      ∃ page, (s.codec.claim token clock).1 = .ok page := by
  simp only [step, Codec.claim]
  cases s.codec.config.verify clock.verified token with
  | error e => simp [Redeems, h]
  | ok claims => simp [Redeems, verifiedCall?]

/-- What is left of the claim of a token that is in progress is the use of its nonce. -/
theorem Redeems.iff_resolves {s : TokenState} {token : String} {call : Nat}
    {lookedUp consumed : Time.Reading} {claims : PageClaims} {tokens : List String} (holds : s.Holds tokens)
    (opened : Token.open? s.codec.config.secret token = some claims)
    (spent : s.codec.registry.Spent claims.nonce claims.expiresAt consumed) :
    s.Redeems token call lookedUp consumed ↔
      s.Resolves token call lookedUp ∧ claims.expiresAt.toInt < consumed := by
  have known : ∀ v, s.verifiedCall? call = some v → v.token = token → v.claims = claims := by
    intro v found same
    have opened' := (holds v (verifiedCall?_eq_some found).1).2
    rw [same, opened] at opened'
    exact (Option.some.inj opened').symm
  constructor
  · rintro ⟨v, page, found, same, redeemed⟩
    rw [known v found same, spent.redeem_eq_ok_iff] at redeemed
    exact ⟨⟨v, page, found, same, by rw [known v found same]; exact redeemed.1⟩, redeemed.2⟩
  · rintro ⟨⟨v, page, found, same, resolved⟩, past⟩
    rw [known v found same] at resolved
    refine ⟨v, page, found, same, ?_⟩
    rw [known v found same, spent.redeem_eq_ok_iff]
    exact ⟨resolved, past⟩

/-- A claim that succeeds leaves the nonce of the token spent. -/
theorem Redeems.spent_step {s : TokenState} {token : String} {call : Nat} {lookedUp consumed : Time.Reading}
    {claims : PageClaims} {tokens : List String} (holds : s.Holds tokens)
    (opened : Token.open? s.codec.config.secret token = some claims)
    (h : s.Redeems token call lookedUp consumed) (limit : Int) :
    (s.step (.redeem call lookedUp consumed)).codec.registry.Spent claims.nonce
      claims.expiresAt limit := by
  obtain ⟨v, page, found, same, redeemed⟩ := h
  have opened' := (holds v (verifiedCall?_eq_some found).1).2
  rw [same, opened] at opened'
  cases opened'
  simp only [step, found]
  exact Registry.Spent.of_redeem redeemed

/-- After a claim of a token succeeded, and as long as its nonce is not released, another claim of
the token succeeds if and only if it was verified in time, its page still resolves, and it uses the
nonce up at a reading of the clock that is past the expiry of the token. -/
theorem redeems_again_iff {c : Codec} {token : String} {claims : PageClaims}
    (opened : Token.open? c.config.secret token = some claims)
    (before between : List TokenStep) (first second : Nat) (l₁ n₁ l₂ n₂ : Time.Reading)
    (clock : ((before ++ TokenStep.redeem first l₁ n₁ :: between ++
      [TokenStep.redeem second l₂ n₂]).flatMap TokenStep.readings).Pairwise (· ≤ ·))
    (others : ∀ other ∈ (before ++ between).filterMap TokenStep.token?, other ≠ token →
      ∀ claims', Token.open? c.config.secret other = some claims' → claims'.nonce ≠ claims.nonce)
    (won : (run ⟨c, []⟩ before).Redeems token first l₁ n₁)
    (kept : .release claims.nonce ∉ between) :
    (run ⟨c, []⟩ (before ++ .redeem first l₁ n₁ :: between)).Redeems token second l₂ n₂ ↔
      (run ⟨c, []⟩ (before ++ .redeem first l₁ n₁ :: between)).Resolves token second l₂ ∧
        claims.expiresAt.toInt < n₂ := by
  -- All tokens of the run but this one carry other nonces, so no call in progress changes the expiry
  -- under which the nonce is held.
  let tokens := token :: (before ++ between).filterMap TokenStep.token?
  have same : ∀ t ∈ tokens, ∀ claims', Token.open? c.config.secret t = some claims' →
      claims'.nonce = claims.nonce → claims'.expiresAt = claims.expiresAt := by
    intro t mem claims' opened' nonce
    by_cases eq : t = token
    · subst eq
      rw [opened] at opened'
      cases opened'
      rfl
    · exact absurd nonce (others t ((List.mem_cons.mp mem).resolve_left eq) eq claims' opened')
  have brought : ∀ e ∈ before ++ between, ∀ t, e.token? = some t → t ∈ tokens :=
    fun e mem t new => List.mem_cons_of_mem _ (List.mem_filterMap.mpr ⟨e, mem, new⟩)
  rw [List.forall_mem_append] at brought
  have start : (run ⟨c, []⟩ before).Holds tokens :=
    Holds.run (s := ⟨c, []⟩) (fun v mem => nomatch mem) brought.1
  have secret : (run ⟨c, []⟩ before).codec.config = c.config := run_config ⟨c, []⟩ before
  have taken : ((run ⟨c, []⟩ before).step (.redeem first l₁ n₁)).Holds tokens :=
    start.step fun t new => nomatch new
  have spent := won.spent_step start (by rw [secret]; exact opened) n₂
  have late : ∀ now ∈ between.flatMap TokenStep.readings, now ≤ n₂ := by
    intro now mem
    rw [List.flatMap_append, List.pairwise_append] at clock
    refine clock.2.2 now ?_ n₂ (by simp [TokenStep.readings])
    simp only [List.flatMap_append, List.flatMap_cons, List.mem_append]
    exact .inr (.inr mem)
  have spent' := spent_run spent taken (by rw [step_config, secret]; exact same) late kept brought.2
  have ended := taken.run brought.2
  rw [run_append, run_cons]
  exact Redeems.iff_resolves ended (by rw [run_config, step_config, secret]; exact opened) spent'

namespace Twice

def claims : PageClaims where
  fingerprint := "f"
  pageSize := 1
  cursor := .offset 1
  page := 2
  generation := 1
  nonce := "n"
  issuedAt := 0
  expiresAt := 900
  issuer := "querypilot"
  audience := "querypilot"

def token : String := Token.ofTexts "s" Token.header.text claims.toJson.text

def query : CompiledQuery where
  entity := "Book"
  operation := .list
  base := { output := [.column "id"], table := "book", conditions := [] }
  columns := [⟨"id", .number⟩]
  orderBy := []
  cursorMode := .offset
  fingerprint := "f"
  generation := 1

/-- The query has been live since the token was made. -/
def codec : Codec where
  config := { secret := "s" }
  registry := { generation := 1, ttl := 900, entries := [("f", ⟨query, 0⟩)] }

theorem opened : Token.open? codec.config.secret token = some claims :=
  Token.open?_ofTexts "s" (by decide) (by decide +kernel)

theorem verified : codec.config.verify (900 : Time.Reading) token = .ok claims :=
  TokenConfig.verify_eq_ok opened (by decide) (by decide +kernel) (by decide)

/-- Two calls verify the token in the second in which it expires. -/
def before : List TokenStep := [.verify 1 token 900, .verify 2 token 900]

theorem run_before : run ⟨codec, []⟩ before = ⟨codec, [⟨2, token, claims⟩, ⟨1, token, claims⟩]⟩ := by
  rw [before, run_cons, run_cons, run_nil, step_verify (s := ⟨codec, []⟩) verified,
    step_verify (s := ⟨codec, [⟨1, token, claims⟩]⟩) verified]

theorem redeems_first : (run ⟨codec, []⟩ before).Redeems token 1 900 900 := by
  rw [run_before]
  exact ⟨⟨1, token, claims⟩, _, rfl, rfl, rfl⟩

theorem resolves_second :
    (run ⟨codec, []⟩ (before ++ [.redeem 1 900 900])).Resolves token 2 901 := by
  rw [run_append, run_before]
  exact ⟨⟨2, token, claims⟩, _, rfl, rfl, rfl⟩

/-- The second call redeems the token a second later, although the first one has used it up. -/
theorem redeems_both :
    (run ⟨codec, []⟩ before).Redeems token 1 900 900 ∧
      (run ⟨codec, []⟩ (before ++ [.redeem 1 900 900])).Redeems token 2 901 901 := by
  refine ⟨redeems_first, (redeems_again_iff opened before [] 1 2 900 900 901 901 ?_ ?_ redeems_first
    List.not_mem_nil).mpr ⟨resolves_second, by decide⟩⟩
  · decide
  · intro other hother hne
    simp only [before, List.append_nil, List.filterMap_cons, TokenStep.token?, List.filterMap_nil,
      List.mem_cons, List.not_mem_nil, or_false, or_self] at hother
    exact absurd hother hne

end Twice

end TokenState
end CatalogQuery
