import CatalogQuery.Proofs.IdleQueries
/-!
# Lifetimes of tokens

The lifetime that is configured is cut to the longest that can be counted in milliseconds, and then
tokens and idle queries live equally long. Whether a token can be made is then up to the calendar
alone, which ends long before the longest lifetime does: the expiry has to be on it.
-/
namespace CatalogQuery

namespace EngineConfig

theorem check_eq_ok_iff (c : EngineConfig) : c.check = .ok () ↔
    c.maxLimit ≠ 0 ∧ c.defaultLimit ≠ 0 ∧ c.defaultLimit ≤ c.maxLimit ∧
      Text.isAllBlank c.tokenSecret = false ∧ c.tokenTtlSecs ≠ 0 ∧ c.queryTimeoutMs ≠ 0 ∧
      c.maxConnections ≠ 0 ∧ (Severity.ofName? c.logLevel).isSome = true := by
  simp only [check, ite_error_eq_ok_iff, UInt32.not_lt, Bool.not_eq_true, Option.isNone_iff_eq_none,
    ← Option.isSome_iff_ne_none, and_true, ne_eq]

def lifetime (c : EngineConfig) : Nat := min c.tokenTtlSecs.toNat maxTtlSecs

theorem tokenConfig_ttl (c : EngineConfig) : c.tokenConfig.ttl.toInt = c.lifetime := by
  have hmax : maxTtlSecs < 2 ^ 63 := by decide +kernel
  exact Int64.toInt_ofNat_of_lt (Nat.lt_of_le_of_lt (Nat.min_le_right _ _) hmax)

theorem lifetime_pos {c : EngineConfig} (h : c.check = .ok ()) : 0 < c.lifetime := by
  obtain ⟨-, -, -, -, hpositive, -⟩ := c.check_eq_ok_iff.mp h
  have hsecs : c.tokenTtlSecs.toNat ≠ 0 := fun hzero => hpositive (UInt64.toNat_inj.mp hzero)
  have hmax : 0 < maxTtlSecs := by decide
  rw [lifetime]
  omega

/-- The milliseconds of a lifetime fit sixty-four bits with a sign. -/
theorem lifetime_millis (c : EngineConfig) : c.lifetime * 1000 < pow2 63 := by
  calc c.lifetime * 1000 ≤ maxTtlSecs * 1000 := Nat.mul_le_mul_right 1000 (Nat.min_le_right _ _)
    _ < pow2 63 := by decide +kernel

end EngineConfig

namespace TokenConfig

variable {c : TokenConfig} {now : Time.Reading} {nonce fingerprint : String}
  {pageSize page : UInt32} {cursor : Cursor} {generation : UInt64} {claims : PageClaims}

/-- The expiry in claims is that of the calendar: it does not leave the sixty-four bits. -/
theorem expiresAt_of_newClaims?
    (h : c.newClaims? now nonce fingerprint pageSize cursor page generation = some claims) :
    claims.expiresAt.toInt = now + c.ttl.toInt := by
  obtain ⟨hcalendar, rfl⟩ := newClaims?_eq_some_iff.mp h
  obtain ⟨hlow, hhigh⟩ := hcalendar.bounds
  exact Int64.toInt_ofInt_of_le (by omega) (by omega)

end TokenConfig

namespace Engine

variable {e : Engine} {a : Ambient} {work : PageWork} {outcome : PageOutcome}

/-- A token for a next page is that of the claims for its number. -/
theorem nextToken?_eq_some_iff {next : Cursor} (hnext : outcome.next = some next)
    {token : Option String} :
    e.nextToken? a work outcome = some (.ok token) ↔
      ∃ number claims, nextPage? e.overflow work.page = some number ∧
        e.codec.mintClaims? a.mintedAt a.nonce work.query.fingerprint work.pageSize next number =
          some claims ∧ token = some (e.codec.config.sign claims) := by
  rw [nextToken?, hnext]
  cases hnumber : nextPage? e.overflow work.page with
  | none => simp
  | some number =>
    simp only [Codec.mint?]
    cases hclaims : e.codec.mintClaims? a.mintedAt a.nonce work.query.fingerprint work.pageSize next
      number with
    | none => simp [hclaims]
    | some claims => simp [Except.map, hclaims, eq_comm]

/-- There is a token where there is a next page, and only there. -/
theorem isSome_of_nextToken? {token : Option String}
    (h : e.nextToken? a work outcome = some (.ok token)) :
    token.isSome = outcome.next.isSome := by
  cases hnext : outcome.next with
  | none =>
    rw [nextToken?, hnext] at h
    cases h
    rfl
  | some next =>
    obtain ⟨number, claims, -, -, rfl⟩ := (nextToken?_eq_some_iff hnext).mp h
    rfl

/-- A page can be answered with if its next page, where it has one, has a number and the token for it
expires on the calendar. -/
theorem exists_nextToken?_iff :
    (∃ token, e.nextToken? a work outcome = some (.ok token)) ↔
      (outcome.next.isSome = true → (e.overflow = .stops → work.page.toNat + 1 < pow2 32) ∧
        Time.Timestamp.IsOnCalendar (a.mintedAt + e.codec.config.ttl.toInt)) := by
  cases hnext : outcome.next with
  | none => simp [nextToken?, hnext]
  | some next =>
    rw [Option.isSome_some, imp_iff_right rfl]
    simp only [nextToken?_eq_some_iff hnext]
    constructor
    · rintro ⟨token, number, claims, hnumber, hclaims, -⟩
      exact ⟨(nextPage?_eq_some_iff.mp hnumber).1,
        (TokenConfig.newClaims?_eq_some_iff.mp hclaims).1⟩
    · rintro ⟨hpage, hexpiry⟩
      exact ⟨_, _, _, nextPage?_eq_some_iff.mpr ⟨hpage, rfl⟩,
        TokenConfig.newClaims?_eq_some_iff.mpr ⟨hexpiry, rfl⟩, rfl⟩

end Engine

theorem toNat_add_one {page : UInt32} (h : page.toNat + 1 < pow2 32) :
    (page + 1).toNat = page.toNat + 1 := by
  have hbound : page.toNat + 1 < 2 ^ 32 := h
  rw [UInt32.toNat_add, UInt32.toNat_one, Nat.mod_eq_of_lt hbound]

/-- Under an accepted configuration the lifetime can be counted, tokens and idle queries share it, and a
next page below the greatest number has its number, in every build. A token is then made just when its
expiry is on the calendar, and lives for the lifetime; otherwise the request breaks off. -/
theorem Serving.nextToken_lifetime {catalog : Catalog} {config : EngineConfig}
    (hconfig : config.check = .ok ()) (overflow : Overflow) (steps : List ServingStep) {a : Ambient}
    (hnow : 0 ≤ (a.mintedAt : Int)) {work : PageWork} (hpage : work.page.toNat < pow2 32 - 1)
    {outcome : PageOutcome} {next : Cursor} (hnext : outcome.next = some next) :
    let engine := (Serving.run ⟨.new catalog config overflow, [], []⟩ steps).engine
    0 < config.lifetime ∧ config.lifetime * 1000 < pow2 63 ∧
      engine.codec.config.ttl.toInt = config.lifetime ∧
      engine.codec.registry.ttl.toInt = config.lifetime ∧
      ((∃ token, engine.nextToken? a work outcome = some (.ok (some token))) ↔
        (a.mintedAt : Int) + config.lifetime ≤ Time.Timestamp.lastSecond) ∧
      (engine.nextToken? a work outcome = none ↔
        Time.Timestamp.lastSecond < (a.mintedAt : Int) + config.lifetime) ∧
      ∀ token, engine.nextToken? a work outcome = some (.ok (some token)) →
        ∃ claims, token = engine.codec.config.sign claims ∧ claims.cursor = next ∧
          claims.pageSize = work.pageSize ∧ claims.page.toNat = work.page.toNat + 1 ∧
          claims.issuedAt.toInt = a.mintedAt ∧
          claims.expiresAt.toInt - claims.issuedAt.toInt = config.lifetime := by
  intro engine
  obtain ⟨hsettings, hregistry⟩ := run_settings ⟨.new catalog config overflow, [], []⟩ steps
  have httl : engine.codec.config.ttl.toInt = config.lifetime :=
    (congrArg (fun c => c.ttl.toInt) hsettings).trans config.tokenConfig_ttl
  have hidle : engine.codec.registry.ttl.toInt = config.lifetime :=
    (congrArg Int64.toInt hregistry).trans config.tokenConfig_ttl
  have hnumber : work.page.toNat + 1 < pow2 32 := by omega
  have hmade : (∃ token, engine.nextToken? a work outcome = some (.ok (some token))) ↔
      (a.mintedAt : Int) + config.lifetime ≤ Time.Timestamp.lastSecond := by
    have hfirst : Time.Timestamp.firstSecond ≤ 0 := by decide +kernel
    have hexists := @Engine.exists_nextToken?_iff engine a work outcome
    rw [hnext, Option.isSome_some, imp_iff_right rfl, httl, and_iff_right fun _ => hnumber,
      Time.Timestamp.IsOnCalendar, and_iff_right (by omega)] at hexists
    rw [← hexists]
    constructor
    · rintro ⟨token, htoken⟩
      exact ⟨some token, htoken⟩
    · rintro ⟨token, htoken⟩
      obtain ⟨_, _, _, _, rfl⟩ := (Engine.nextToken?_eq_some_iff hnext).mp htoken
      exact ⟨_, htoken⟩
  refine ⟨EngineConfig.lifetime_pos hconfig, config.lifetime_millis, httl, hidle, hmade, ?_, ?_⟩
  · rw [← Int.not_le, ← hmade]
    cases htoken : engine.nextToken? a work outcome with
    | none => simp
    | some made =>
      cases made with
      | error err => exact absurd htoken (Engine.nextToken?_ne_error err)
      | ok token =>
        obtain ⟨_, _, _, _, rfl⟩ := (Engine.nextToken?_eq_some_iff hnext).mp htoken
        simp
  · intro token htoken
    obtain ⟨number, claims, hnumbered, hclaims, hsome⟩ :=
      (Engine.nextToken?_eq_some_iff hnext).mp htoken
    obtain rfl := Option.some.inj hsome
    obtain ⟨-, rfl⟩ := nextPage?_eq_some_iff.mp hnumbered
    have hexpires := TokenConfig.expiresAt_of_newClaims? hclaims
    obtain ⟨-, rfl⟩ := TokenConfig.newClaims?_eq_some_iff.mp hclaims
    refine ⟨_, rfl, rfl, rfl, toNat_add_one hnumber, rfl, ?_⟩
    rw [hexpires, httl]
    show (a.mintedAt : Int) + config.lifetime - a.mintedAt = config.lifetime
    omega

/-- What the condition of `Serving.nextToken_lifetime` on the time of minting asks of a configuration:
claims can be made at any time up to the end of the year 9999 just where the lifetime that is configured
leaves the calendar room for it. -/
theorem EngineConfig.newClaims?_through_9999_iff (config : EngineConfig) (nonce fingerprint : String)
    (pageSize page : UInt32) (cursor : Cursor) (generation : UInt64) :
    (∀ now : Time.Reading, 0 ≤ (now : Int) →
      now < (Time.Date.mk 10000 1 1).toDays * Time.secondsPerDay →
        (config.tokenConfig.newClaims? now nonce fingerprint pageSize cursor page
          generation).isSome = true) ↔ config.tokenTtlSecs.toNat ≤ 7956864576000 := by
  have hend : (Time.Date.mk 10000 1 1).toDays * Time.secondsPerDay = 253402300800 := by
    decide +kernel
  have hfirst : Time.Timestamp.firstSecond ≤ 0 := by decide +kernel
  have hlast : Time.Timestamp.lastSecond = 8210266876799 := by decide +kernel
  have hmax : maxTtlSecs = 9223372036854775 := by decide +kernel
  have hcalendar (now : Time.Reading) :
      (config.tokenConfig.newClaims? now nonce fingerprint pageSize cursor page
        generation).isSome = true ↔ Time.Timestamp.IsOnCalendar (now + config.lifetime) := by
    rw [Option.isSome_iff_exists, ← tokenConfig_ttl]
    simp only [TokenConfig.newClaims?_eq_some_iff, exists_and_left, exists_eq, and_true]
  rw [hend]
  simp only [hcalendar, Time.Timestamp.IsOnCalendar, lifetime, hmax, hlast]
  constructor
  · intro h
    have hnow : ((253402300799 : Time.Reading) : Int) = 253402300799 := by decide +kernel
    have hroom := h 253402300799 (by omega) (by omega)
    omega
  · intro h now hnow hlater
    omega

namespace LongLife

/-- Tokens that live for ten million million seconds, longer than the calendar. -/
def config : EngineConfig where
  databaseUrl := "sqlite://shop.db"
  catalogPath := "catalog.json"
  tokenSecret := "oracle_secret"
  tokenTtlSecs := 10000000000000

open ReloadedBooks (catalog checked ambient)

def work : PageWork where
  request := .receive "r"
  query := checked.compile 1
  pageSize := 1
  cursor := .start
  page := 1
  claimed := none

/-- The first book is delivered, and there is another. -/
def outcome : PageOutcome := work.query.pageOutcome 1 .start 1 [[("id", .int 1)], [("id", .int 2)]]

/-- The configuration is accepted, and under it the request breaks off instead of making a token. -/
theorem no_token :
    config.check = .ok () ∧ config.lifetime = 10000000000000 ∧
      (Engine.new catalog config).nextToken? ambient work outcome = none := by
  have hcheck : config.check = .ok () := by decide +kernel
  have hlifetime : config.lifetime = 10000000000000 := by decide +kernel
  obtain ⟨-, -, -, -, -, hbreaks, -⟩ := @Serving.nextToken_lifetime catalog config hcheck .stops []
    ambient (by decide +kernel) work (by decide) outcome (.offset 1) rfl
  have hlate : Time.Timestamp.lastSecond < (ambient.mintedAt : Int) + config.lifetime := by decide +kernel
  exact ⟨hcheck, hlifetime, hbreaks.mpr hlate⟩

end LongLife

end CatalogQuery
