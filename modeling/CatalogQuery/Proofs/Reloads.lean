import CatalogQuery.Engine.Serving
import CatalogQuery.Proofs.RegistryEntries
import CatalogQuery.Proofs.TokenRoundTrip
/-!
# Tokens across reloads

Requests are served in steps, and between two steps of one of them others take theirs and the catalog
may be reloaded. A token is minted under the generation that the registry has at that moment, which is
that of its query only if no reload came between; so a token of an old query can outlive the reload
that made its query stale.
-/
namespace CatalogQuery

structure Pending where
  stage : Stage
  /-- How often the catalog was reloaded since the request took the catalog in use, or since it
  redeemed its token. -/
  reloads : Nat := 0

/-- A token that was minted for the page after one of a query. -/
structure MintedToken where
  token : String
  query : CompiledQuery
  claims : PageClaims
  /-- How often the catalog was reloaded between taking the catalog in use, or redeeming the token
  of the page, and minting this one. -/
  before : Nat
  /-- How often the catalog was reloaded since. -/
  since : Nat := 0

structure Serving where
  engine : Engine
  pending : List Pending := []
  minted : List MintedToken := []

inductive ServingStep
  | submit (a : Ambient) (plan : Plan)
  | present (a : Ambient) (token : String)
  /-- The request at a position takes its next step. -/
  | advance (i : Nat) (a : Ambient)
  | reload (catalog : Catalog)

/-- The generation of the catalog or query that a request has taken hold of. -/
def Stage.generation? : Stage → Option UInt64
  | .submitted _ catalog _ => some catalog.generation
  | .ready work | .executed work _ => some work.query.generation
  | _ => none

/-- The next step is to redeem a token. -/
def Stage.redeems : Stage → Bool
  | .verified _ _ => true
  | _ => false

def Engine.mints? (e : Engine) (a : Ambient) (p : Pending) : Option MintedToken :=
  match p.stage with
  | .executed work (.ok outcome) =>
    outcome.next.bind fun next => (nextPage? e.overflow work.page).bind fun page =>
      (e.codec.mintClaims? a.mintedAt a.nonce work.query.fingerprint work.pageSize next page).map
        fun claims => ⟨e.codec.config.sign claims, work.query, claims, p.reloads, 0⟩
  | _ => none

namespace Serving

def receive (s : Serving) (r : Engine × Stage) : Serving :=
  { s with engine := r.1, pending := s.pending ++ [⟨r.2, 0⟩] }

def advance (s : Serving) (i : Nat) (a : Ambient) : Serving :=
  match s.pending[i]? with
  | none => s
  | some p =>
    let next := s.engine.step a p.stage
    { engine := next.1,
      pending := s.pending.set i ⟨next.2, if p.stage.redeems then 0 else p.reloads⟩,
      minted := s.minted ++ (s.engine.mints? a p).toList }

def reload (s : Serving) (catalog : Catalog) : Serving where
  engine := (s.engine.reload catalog).1
  pending := s.pending.map fun p => { p with reloads := p.reloads + 1 }
  minted := s.minted.map fun m => { m with since := m.since + 1 }

def step (s : Serving) : ServingStep → Serving
  | .submit a plan => s.receive (s.engine.submit a plan)
  | .present a token => s.receive (s.engine.present a token)
  | .advance i a => s.advance i a
  | .reload catalog => s.reload catalog

def run (s : Serving) (steps : List ServingStep) : Serving := steps.foldl step s

@[simp] theorem run_nil (s : Serving) : s.run [] = s := rfl

@[simp] theorem run_cons (s : Serving) (e : ServingStep) (steps : List ServingStep) :
    s.run (e :: steps) = (s.step e).run steps := rfl

end Serving

namespace Registry

/-- What a step of a request may do to the registry. -/
inductive Serves (r : Registry) : Registry → Prop
  | kept : r.Serves r
  | registered (q : CompiledQuery) (now : Int64) : r.Serves (r.register q now).2
  | redeemed (claims : PageClaims) (lookedUp consumed : Int64) :
      r.Serves (r.redeem claims lookedUp consumed).2
  | released (nonce : String) : r.Serves (r.release nonce)

theorem Serves.generation {r r' : Registry} (h : r.Serves r') : r'.generation = r.generation := by
  cases h with
  | kept => rfl
  | registered q now => exact r.register_generation q now
  | redeemed claims lookedUp consumed => exact r.redeem_generation claims lookedUp consumed
  | released nonce => rfl

/-- Every live query was compiled under the generation of the registry. -/
def IsCurrent (r : Registry) : Prop := r.Holds fun _ q => q.generation = r.generation

/-- Registering a query gives back one of the same generation. -/
theorem IsCurrent.register {r : Registry} (hr : r.IsCurrent) (q : CompiledQuery) (now : Int64) :
    (r.register q now).1.generation = q.generation ∧
      (r.register q now).2.Holds fun _ q => q.generation = r.generation := by
  obtain ⟨returned, kept⟩ :=
    Holds.register (P := fun _ q => q.generation = r.generation) hr (fun h => h) now
  refine ⟨?_, kept⟩
  rcases returned with hsame | ⟨hown, hlive⟩
  · rw [hsame]
  · exact hlive.trans hown.symm

/-- Every live query is found under its own fingerprint and was compiled under the generation of the
registry. -/
def IsFiled (r : Registry) : Prop :=
  r.Holds fun fingerprint q => q.fingerprint = fingerprint ∧ q.generation = r.generation

theorem Serves.isFiled {r r' : Registry} (h : r.Serves r') (hr : r.IsFiled) : r'.IsFiled := by
  have kept := h.generation
  rw [IsFiled, kept]
  cases h with
  | kept => exact hr
  | registered q now => exact (Holds.register hr (fun hq => ⟨rfl, hq⟩) now).2
  | redeemed claims lookedUp consumed => exact (Holds.redeem hr claims lookedUp consumed).2
  | released nonce => exact Holds.release hr nonce

theorem Serves.isCurrent {r r' : Registry} (h : r.Serves r') (hr : r.IsCurrent) : r'.IsCurrent := by
  have kept := h.generation
  rw [IsCurrent, kept]
  cases h with
  | kept => exact hr
  | registered q now => exact (hr.register q now).2
  | redeemed claims lookedUp consumed => exact (Holds.redeem hr claims lookedUp consumed).2
  | released nonce => exact Holds.release hr nonce

end Registry

namespace Engine

/-- A step of a request changes nothing of the engine but its counters and its registry. -/
theorem step_eq (e : Engine) (a : Ambient) (s : Stage) :
    ∃ registry metrics, e.codec.registry.Serves registry ∧
      (e.step a s).1 = { e with codec := { e.codec with registry }, metrics } := by
  cases s with
  | submitted plan catalog request =>
    simp only [step]
    split
    next => exact ⟨_, _, .kept, rfl⟩
    next checked _ => exact ⟨_, _, .registered (checked.compile catalog.generation) a.registeredAt, rfl⟩
  | presented token request =>
    simp only [step]
    split
    next => exact ⟨_, _, .kept, rfl⟩
    next => exact ⟨_, _, .kept, rfl⟩
  | verified claims request =>
    simp only [step]
    split
    next => exact ⟨_, _, .redeemed claims a.lookedUpAt a.consumedAt, rfl⟩
    next => exact ⟨_, _, .redeemed claims a.lookedUpAt a.consumedAt, rfl⟩
  | ready work => exact ⟨_, _, .kept, rfl⟩
  | executed work outcome =>
    cases outcome with
    | error err => exact ⟨_, _, .kept, rfl⟩
    | ok outcome =>
      simp only [step]
      split
      next => exact ⟨_, _, .kept, rfl⟩
      next => exact ⟨_, _, .kept, rfl⟩
      next => exact ⟨_, _, .kept, rfl⟩
  | answered result claimed request =>
    simp only [step, settle]
    split
    next nonce _ _ =>
      split
      next => exact ⟨_, _, .released nonce, rfl⟩
      next => exact ⟨_, _, .kept, rfl⟩
    next => exact ⟨_, _, .kept, rfl⟩
  | done | brokenOff => exact ⟨_, _, .kept, rfl⟩

theorem step_catalog (e : Engine) (a : Ambient) (s : Stage) :
    (e.step a s).1.catalog = e.catalog := by
  obtain ⟨registry, metrics, -, h⟩ := e.step_eq a s
  rw [h]

theorem step_config (e : Engine) (a : Ambient) (s : Stage) :
    (e.step a s).1.codec.config = e.codec.config := by
  obtain ⟨registry, metrics, -, h⟩ := e.step_eq a s
  rw [h]

theorem step_registry (e : Engine) (a : Ambient) (s : Stage) :
    e.codec.registry.Serves (e.step a s).1.codec.registry := by
  obtain ⟨registry, metrics, hserves, h⟩ := e.step_eq a s
  rw [h]
  exact hserves

/-- A token is minted for the page after one that was executed, if that page has a number. -/
theorem minting_of_mints? {e : Engine} {a : Ambient} {p : Pending} {m : MintedToken}
    (h : e.mints? a p = some m) :
    ∃ work outcome next number claims, p.stage = .executed work (.ok outcome) ∧
      outcome.next = some next ∧ nextPage? e.overflow work.page = some number ∧
      e.codec.mintClaims? a.mintedAt a.nonce work.query.fingerprint work.pageSize next number =
        some claims ∧
      m = ⟨e.codec.config.sign claims, work.query, claims, p.reloads, 0⟩ := by
  rw [mints?] at h
  split at h
  next work outcome hstage =>
    obtain ⟨next, hnext, h⟩ := Option.bind_eq_some_iff.mp h
    obtain ⟨number, hnumber, h⟩ := Option.bind_eq_some_iff.mp h
    obtain ⟨claims, hclaims, rfl⟩ := Option.map_eq_some_iff.mp h
    exact ⟨work, outcome, next, number, claims, hstage, hnext, hnumber, hclaims, rfl⟩
  next => cases h

/-- A token is minted for the query of a request that was executed, under the generation of the
registry. -/
theorem mints?_eq_some {e : Engine} {a : Ambient} {p : Pending} {m : MintedToken}
    (h : e.mints? a p = some m) :
    p.stage.redeems = false ∧ p.stage.generation? = some m.query.generation ∧
      m.before = p.reloads ∧ m.since = 0 ∧ m.claims.generation = e.codec.registry.generation ∧
      m.token = e.codec.config.sign m.claims ∧ m.claims.issuer = e.codec.config.issuer ∧
      m.claims.audience = e.codec.config.audience := by
  obtain ⟨work, outcome, next, number, claims, hstage, -, -, hmint, rfl⟩ := minting_of_mints? h
  obtain ⟨-, rfl⟩ := TokenConfig.newClaims?_eq_some_iff.mp hmint
  rw [hstage]
  exact ⟨rfl, rfl, rfl, rfl, rfl, rfl, rfl, rfl⟩

/-- A request keeps the generation that it has taken hold of; it takes hold of that of the registry
when it redeems its token. -/
theorem generation?_step {e : Engine} (hcurrent : e.codec.registry.IsCurrent) (a : Ambient)
    {s : Stage} {g : UInt64} (h : (e.step a s).2.generation? = some g) :
    if s.redeems then g = e.codec.registry.generation else s.generation? = some g := by
  cases s with
  | submitted plan catalog request =>
    simp only [step] at h
    split at h
    next => cases h
    next checked _ =>
      have returned := (hcurrent.register (checked.compile catalog.generation) a.registeredAt).1
      have hadopted : (e.adopt a request checked catalog.generation).2.generation? =
          some (e.codec.registry.register (checked.compile catalog.generation)
            a.registeredAt).1.generation := rfl
      rw [hadopted, returned] at h
      exact h
  | presented token request =>
    simp only [step] at h
    split at h <;> cases h
  | verified claims request =>
    simp only [step] at h
    split at h
    next => cases h
    next page hpage =>
      cases h
      exact (Registry.Holds.redeem hcurrent claims a.lookedUpAt a.consumedAt).1 page hpage
  | ready work => exact h
  | executed work outcome =>
    cases outcome with
    | error err => cases h
    | ok outcome =>
      simp only [step] at h
      split at h <;> cases h
  | answered | done | brokenOff => cases h

end Engine

namespace Serving

/-- What is true of an engine with requests at any time. Generations are counted on by reloads. -/
structure Consistent (s : Serving) : Prop where
  generation : s.engine.codec.registry.generation = s.engine.catalog.generation
  current : s.engine.codec.registry.IsCurrent
  pending : ∀ p ∈ s.pending, ∀ g, p.stage.generation? = some g →
    s.engine.codec.registry.generation = g + .ofNat p.reloads
  before : ∀ m ∈ s.minted, m.claims.generation = m.query.generation + .ofNat m.before
  since : ∀ m ∈ s.minted,
    s.engine.codec.registry.generation = m.claims.generation + .ofNat m.since
  signed : ∀ m ∈ s.minted, m.token = s.engine.codec.config.sign m.claims ∧
    m.claims.issuer = s.engine.codec.config.issuer ∧
    m.claims.audience = s.engine.codec.config.audience

theorem Consistent.receive {s : Serving} (hs : s.Consistent) {r : Engine × Stage}
    (hcatalog : r.1.catalog = s.engine.catalog) (hcodec : r.1.codec = s.engine.codec)
    (hstage : ∀ g, r.2.generation? = some g → g = s.engine.catalog.generation) :
    (s.receive r).Consistent := by
  have hregistry : (s.receive r).engine.codec.registry = s.engine.codec.registry :=
    congrArg Codec.registry hcodec
  constructor
  · rw [hregistry, hs.generation]
    exact congrArg Catalog.generation hcatalog.symm
  · rw [hregistry]
    exact hs.current
  · intro p hp g hg
    rw [hregistry]
    rcases List.mem_append.mp hp with hp | hp
    · exact hs.pending p hp g hg
    · cases List.mem_singleton.mp hp
      rw [hs.generation, ← hstage g hg]
      exact (UInt64.add_zero g).symm
  · exact hs.before
  · rw [hregistry]
    exact hs.since
  · intro m hm
    have hconfig : (s.receive r).engine.codec.config = s.engine.codec.config :=
      congrArg Codec.config hcodec
    rw [hconfig]
    exact hs.signed m hm

theorem ofNat_succ (g : UInt64) (n : Nat) : g + .ofNat (n + 1) = g + .ofNat n + 1 := by
  rw [UInt64.ofNat_add, UInt64.add_assoc]
  rfl

theorem Consistent.reload {s : Serving} (hs : s.Consistent) (catalog : Catalog) :
    (s.reload catalog).Consistent := by
  have hnext : (s.reload catalog).engine.codec.registry.generation =
      s.engine.codec.registry.generation + 1 := by
    rw [hs.generation]
    exact s.engine.reload_registry_generation catalog
  constructor
  · rw [hnext, hs.generation]
    exact (s.engine.reload_generation catalog).symm
  · exact Registry.Holds.reset _ _
  · intro p hp g hg
    obtain ⟨p, hp', rfl⟩ := List.mem_map.mp hp
    rw [hnext, ofNat_succ, hs.pending p hp' g hg]
  · intro m hm
    obtain ⟨m, hm', rfl⟩ := List.mem_map.mp hm
    exact hs.before m hm'
  · intro m hm
    obtain ⟨m, hm', rfl⟩ := List.mem_map.mp hm
    rw [hnext, ofNat_succ, hs.since m hm']
  · intro m hm
    obtain ⟨m, hm', rfl⟩ := List.mem_map.mp hm
    exact hs.signed m hm'

theorem advance_eq {s : Serving} {i : Nat} {p : Pending} (hp : s.pending[i]? = some p)
    (a : Ambient) : s.advance i a =
      { engine := (s.engine.step a p.stage).1,
        pending := s.pending.set i
          ⟨(s.engine.step a p.stage).2, if p.stage.redeems then 0 else p.reloads⟩,
        minted := s.minted ++ (s.engine.mints? a p).toList } := by
  rw [Serving.advance, hp]

/-- A request counts on from the generation that it holds after its step. -/
theorem Consistent.pending_step {s : Serving} (hs : s.Consistent) {p : Pending} (hp : p ∈ s.pending)
    (a : Ambient) {g : UInt64} (hg : (s.engine.step a p.stage).2.generation? = some g) :
    s.engine.codec.registry.generation =
      g + .ofNat (if p.stage.redeems then 0 else p.reloads) := by
  have hold := Engine.generation?_step hs.current a hg
  split at hold
  next hredeems =>
    rw [if_pos hredeems, hold]
    exact (UInt64.add_zero _).symm
  next hredeems =>
    rw [if_neg hredeems]
    exact hs.pending p hp g hold

theorem Consistent.advance {s : Serving} (hs : s.Consistent) (i : Nat) (a : Ambient) :
    (s.advance i a).Consistent := by
  cases hp : s.pending[i]? with
  | none =>
    rw [Serving.advance, hp]
    exact hs
  | some p =>
    have hmem : p ∈ s.pending := List.mem_of_getElem? hp
    have hserves := s.engine.step_registry a p.stage
    have hgeneration := hserves.generation
    rw [advance_eq hp]
    constructor
    · simp only [hgeneration, Engine.step_catalog, hs.generation]
    · exact hserves.isCurrent hs.current
    · intro p' hp' g hg
      simp only [hgeneration]
      rcases List.mem_or_eq_of_mem_set hp' with hp' | rfl
      · exact hs.pending p' hp' g hg
      · exact hs.pending_step hmem a hg
    · intro m hm
      rcases List.mem_append.mp hm with hm | hm
      · exact hs.before m hm
      · obtain ⟨-, hstage, hbefore, -, hclaims, -⟩ :=
          Engine.mints?_eq_some (Option.mem_toList.mp hm)
        rw [hclaims, hbefore]
        exact hs.pending p hmem _ hstage
    · intro m hm
      simp only [hgeneration]
      rcases List.mem_append.mp hm with hm | hm
      · exact hs.since m hm
      · obtain ⟨-, -, -, hsince, hclaims, -⟩ := Engine.mints?_eq_some (Option.mem_toList.mp hm)
        rw [hclaims, hsince]
        exact (UInt64.add_zero _).symm
    · intro m hm
      simp only [Engine.step_config]
      rcases List.mem_append.mp hm with hm | hm
      · exact hs.signed m hm
      · obtain ⟨-, -, -, -, -, hsigned⟩ := Engine.mints?_eq_some (Option.mem_toList.mp hm)
        exact hsigned

theorem Consistent.step {s : Serving} (hs : s.Consistent) (e : ServingStep) :
    (s.step e).Consistent := by
  cases e with
  | submit a plan =>
    refine hs.receive rfl rfl ?_
    rintro g ⟨⟩
    rfl
  | present a token =>
    refine hs.receive rfl rfl ?_
    rintro g ⟨⟩
  | advance i a => exact hs.advance i a
  | reload catalog => exact hs.reload catalog

theorem Consistent.run {s : Serving} (hs : s.Consistent) (steps : List ServingStep) :
    (s.run steps).Consistent := by
  induction steps generalizing s with
  | nil => exact hs
  | cons e steps ih => exact ih (hs.step e)

end Serving

theorem Registry.resolve_eq_ok_iff (r : Registry) (claims : PageClaims) (now : Int64) :
    (∃ page, (r.resolve claims now).1 = .ok page) ↔
      claims.generation = r.generation ∧
        ∃ q, (r.lookup claims.fingerprint now).1 = some q ∧ q.accepts claims.cursor = true := by
  constructor
  · rintro ⟨page, hpage⟩
    obtain ⟨hsame, q, hq, haccepts, -⟩ := (r.resolve_eq_ok_iff_lookup claims now page).mp hpage
    exact ⟨hsame, q, hq, haccepts⟩
  · rintro ⟨hsame, q, hq, haccepts⟩
    exact ⟨_, (r.resolve_eq_ok_iff_lookup claims now _).mpr ⟨hsame, q, hq, haccepts, rfl⟩⟩

/-- A token that the codec has signed resolves when it has not run out, its cursor is read back, and
the registry has a query for its claims. -/
theorem Codec.resolve_sign_eq_ok_iff (c : Codec) {claims : PageClaims}
    (hissuer : claims.issuer = c.config.issuer) (haudience : claims.audience = c.config.audience)
    (verified lookedUp : Time.Reading) :
    (∃ page, (c.resolve (c.config.sign claims) verified lookedUp).1 = .ok page) ↔
      claims.generation = c.registry.generation ∧
        0 ≤ claims.expiresAt.toInt ∧ verified ≤ claims.expiresAt.toInt ∧
          ∃ cursor, claims.cursor.reread? = some cursor ∧
            ∃ q, (c.registry.lookup claims.fingerprint lookedUp).1 = some q ∧
              q.accepts cursor = true := by
  have hverify (read : PageClaims) :
      c.config.verify verified (c.config.sign claims) = .ok read ↔
        0 ≤ claims.expiresAt.toInt ∧ verified ≤ claims.expiresAt.toInt ∧
          ∃ cursor, claims.cursor.reread? = some cursor ∧ { claims with cursor } = read :=
    TokenConfig.verify_sign_eq_ok_of hissuer haudience
  rw [resolve]
  cases hread : c.config.verify verified (c.config.sign claims) with
  | error err =>
    constructor
    · rintro ⟨page, h⟩
      cases h
    · rintro ⟨-, hzero, hnow, cursor, hcursor, -⟩
      have haccepted := (hverify _).mpr ⟨hzero, hnow, cursor, hcursor, rfl⟩
      rw [hread] at haccepted
      cases haccepted
  | ok read =>
    obtain ⟨hzero, hnow, cursor, hcursor, rfl⟩ := (hverify read).mp hread
    simp only [Registry.resolve_eq_ok_iff, hzero, hnow, hcursor, true_and, Option.some.injEq,
      exists_eq_left']

/-- An engine without live queries, whose registry belongs to its catalog. -/
structure Engine.IsFresh (e : Engine) : Prop where
  generation : e.codec.registry.generation = e.catalog.generation
  entries : e.codec.registry.entries = []

/-- Every engine begins fresh, so what holds of the runs of a fresh one holds of all runs. -/
theorem Engine.isFresh_new (catalog : Catalog) (config : EngineConfig) (overflow : Overflow) :
    (Engine.new catalog config overflow).IsFresh := ⟨rfl, rfl⟩

namespace Serving

theorem Consistent.of_isFresh {e : Engine} (he : e.IsFresh) : (⟨e, [], []⟩ : Serving).Consistent where
  generation := he.generation
  current := fun x hx => by rw [he.entries] at hx; cases hx
  pending := by simp
  before := by simp
  since := by simp
  signed := by simp

theorem add_ofNat_eq_self_iff {g : UInt64} {n : Nat} (hn : n < pow2 64) :
    g + .ofNat n = g ↔ n = 0 := by
  rw [← UInt64.toNat_inj, UInt64.toNat_add, UInt64.toNat_ofNat']
  have hg := g.toNat_lt
  have hsize : pow2 64 = 18446744073709551616 := rfl
  omega

/-- A token carries the generation that its query was compiled under just when no reload came between,
from taking the catalog in use or redeeming the token of the page to minting. It resolves only while
no reload comes after it; but one that came before does not keep it from resolving: it is enough that
a query is live under its fingerprint. -/
theorem minted_resolves_iff {e : Engine} (he : e.IsFresh) (steps : List ServingStep)
    {m : MintedToken} (hm : m ∈ (run ⟨e, [], []⟩ steps).minted)
    (hreloads : m.before + m.since < pow2 64) (verified lookedUp : Time.Reading) :
    (m.claims.generation = m.query.generation ↔ m.before = 0) ∧
      ((run ⟨e, [], []⟩ steps).engine.codec.registry.generation = m.query.generation ↔
        m.before = 0 ∧ m.since = 0) ∧
      ((∃ page, ((run ⟨e, [], []⟩ steps).engine.codec.resolve m.token verified lookedUp).1 =
          .ok page) ↔
        m.since = 0 ∧ 0 ≤ m.claims.expiresAt.toInt ∧ verified ≤ m.claims.expiresAt.toInt ∧
          ∃ cursor, m.claims.cursor.reread? = some cursor ∧
            ∃ q, ((run ⟨e, [], []⟩ steps).engine.codec.registry.lookup m.claims.fingerprint
                lookedUp).1 = some q ∧ q.accepts cursor = true) := by
  have hs := (Consistent.of_isFresh he).run steps
  have hbefore := hs.before m hm
  have hsince := hs.since m hm
  obtain ⟨htoken, hissuer, haudience⟩ := hs.signed m hm
  generalize run ⟨e, [], []⟩ steps = s at hs hm hsince htoken hissuer haudience ⊢
  refine ⟨?_, ?_, ?_⟩
  · rw [hbefore, add_ofNat_eq_self_iff (by omega)]
  · rw [hsince, hbefore, UInt64.add_assoc, ← UInt64.ofNat_add, add_ofNat_eq_self_iff hreloads]
    omega
  · have hlive : m.claims.generation = s.engine.codec.registry.generation ↔ m.since = 0 := by
      rw [hsince, eq_comm, add_ofNat_eq_self_iff (by omega)]
    rw [htoken, Codec.resolve_sign_eq_ok_iff _ hissuer haudience, hlive]

end Serving

namespace ReloadedBooks

def field : Field where
  id := 0
  name := "id"
  column := "id"
  kind := .number
  operators := ValueKind.number.defaultOperators
  unique := true
  nullable := false

def entity : Entity where
  id := 0
  name := "Book"
  table := "book"
  fields := [field]
  requiresTimeRange := false
  timeFieldId := none

def catalog : Catalog where
  generation := 1
  entities := [entity]

def engine : Engine where
  catalog := catalog
  codec := .new { secret := "s" } 1
  metrics := {}
  limits := {}
  catalogPath := none

def plan : Plan := (Plan.list "Book").withLimit 1

def checked : CheckedPlan where
  entity := entity
  operation := .list
  filters := []
  orderBy := []
  groupBy := []
  aggregations := []
  timeRange := none
  limit := 1
  requestId := none

/-- Two books are there, and the clock stands still. -/
def ambient : Ambient where
  backend := fun _ _ => .ok [[("id", .int 1)], [("id", .int 2)]]
  freshId := "r"
  nonce := "n"
  registeredAt := 0
  verifiedAt := 0
  lookedUpAt := 0
  consumedAt := 0
  mintedAt := 0
  elapsedMs := 0

/-- The catalog is reloaded as it is while the first page is on its way; then the plan comes in
again. -/
def steps : List ServingStep :=
  [.submit ambient plan, .advance 0 ambient, .advance 0 ambient, .reload catalog,
    .advance 0 ambient, .submit ambient plan, .advance 1 ambient]

def claims : PageClaims where
  fingerprint := (checked.compile 1).fingerprint
  pageSize := 1
  cursor := .offset 1
  page := 2
  generation := 2
  nonce := "n"
  issuedAt := 0
  expiresAt := 900
  issuer := "querypilot"
  audience := "querypilot"

def minted : MintedToken where
  token := ({ secret := "s" } : TokenConfig).sign claims
  query := checked.compile 1
  claims := claims
  before := 1

theorem minted_steps : (Serving.run ⟨engine, [], []⟩ steps).minted = [minted] := by
  rfl

theorem registry_steps : (Serving.run ⟨engine, [], []⟩ steps).engine.codec.registry =
    { generation := 2, ttl := 900,
      entries := [((checked.compile 1).fingerprint, ⟨checked.compile 2, 0⟩)] } := by
  rfl

/-- The query was compiled under the first generation, the registry has the second, and the token
resolves. -/
theorem resolves_minted :
    (Serving.run ⟨engine, [], []⟩ steps).engine.codec.registry.generation = 2 ∧
      minted ∈ (Serving.run ⟨engine, [], []⟩ steps).minted ∧ minted.query.generation = 1 ∧
      minted.claims.generation = 2 ∧
      ∃ page, ((Serving.run ⟨engine, [], []⟩ steps).engine.codec.resolve minted.token 0 0).1 =
        .ok page := by
  have hmem : minted ∈ (Serving.run ⟨engine, [], []⟩ steps).minted := by
    rw [minted_steps]
    exact List.mem_singleton_self _
  refine ⟨by rw [registry_steps], hmem, rfl, rfl, ?_⟩
  refine (Serving.minted_resolves_iff ⟨rfl, rfl⟩ steps hmem (by decide) 0 0).2.2.mpr
    ⟨rfl, by decide, by decide, .offset 1, rfl, checked.compile 2, ?_, rfl⟩
  have hlookup : List.lookup minted.claims.fingerprint
      [((checked.compile 1).fingerprint, (⟨checked.compile 2, 0⟩ : LiveQuery))] =
        some ⟨checked.compile 2, 0⟩ := List.lookup_cons_self
  rw [registry_steps, Registry.lookup]
  simp only [hlookup]
  rfl

end ReloadedBooks

end CatalogQuery
