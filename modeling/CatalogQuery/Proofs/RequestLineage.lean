import CatalogQuery.Proofs.AcceptedQuery
import CatalogQuery.Proofs.Reloads
/-!
# Which statements are run for a plan

A plan is served by the request that brings it and by the requests that bring tokens of its pages,
whatever other requests and reloads come between. All of these have hold of one fingerprint, and every
query that is live was compiled from an accepted plan and is found under its own fingerprint.
-/
namespace CatalogQuery

/-- The catalog was built from a definition that passed its checks. -/
def Catalog.IsLoaded (c : Catalog) : Prop :=
  ∃ source d, Catalog.ofDefinition source d c.generation = .ok c

theorem Catalog.IsLoaded.withGeneration {c : Catalog} (hc : c.IsLoaded) (generation : UInt64) :
    (c.withGeneration generation).IsLoaded := by
  obtain ⟨source, d, h⟩ := hc
  refine ⟨source, d, ?_⟩
  rw [ofDefinition] at h ⊢
  cases hcheck : d.check with
  | error f => rw [hcheck] at h; cases h
  | ok u =>
    rw [hcheck] at h
    have hentities : d.entities.mapIdx Entity.ofDefinition = c.entities :=
      congrArg Catalog.entities (Except.ok.inj h)
    show Except.ok (Catalog.mk generation (d.entities.mapIdx Entity.ofDefinition)) = _
    rw [hentities]
    rfl

def CompiledQuery.IsCompiled (q : CompiledQuery) : Prop :=
  ∃ (p : CheckedPlan) (generation : UInt64), p.IsAccepted ∧ q = p.compile generation

theorem Catalog.IsLoaded.isCompiled {c : Catalog} (hc : c.IsLoaded) {policy : LimitPolicy}
    {plan : Plan} {p : CheckedPlan} (hp : plan.check c policy = .ok p) (generation : UInt64) :
    (p.compile generation).IsCompiled := by
  obtain ⟨source, d, h⟩ := hc
  exact ⟨p, generation, (Plan.isAccepted_of_check h hp).1, rfl⟩

/-- The fingerprint is that of the query of the plan, which is accepted. -/
def Plan.Names (plan : Plan) (c : Catalog) (policy : LimitPolicy) (fingerprint : String) : Prop :=
  ∃ p, plan.check c policy = .ok p ∧ (p.compile c.generation).fingerprint = fingerprint

namespace Stage

/-- What a request has hold of comes from a loaded catalog. -/
def IsSound : Stage → Prop
  | .submitted _ catalog _ => catalog.IsLoaded
  | .ready work | .executed work _ => work.query.IsCompiled
  | _ => True

/-- The request is on its way for a page of the plan, which came in while the catalog was in use. -/
def IsFor (config : TokenConfig) (plan : Plan) (c : Catalog) (policy : LimitPolicy) : Stage → Prop
  | .submitted plan' catalog _ => plan' = plan ∧ catalog = c
  | .presented token _ => ∀ now claims, config.verify now token = .ok claims →
      plan.Names c policy claims.fingerprint
  | .verified claims _ => plan.Names c policy claims.fingerprint
  | .ready work | .executed work _ => plan.Names c policy work.query.fingerprint
  | .answered _ _ _ | .done _ _ | .brokenOff _ => True

/-- The statement that the next step of a request runs. -/
def statement? : Stage → Option (CompiledQuery × Statement Param)
  | .ready work => (work.query.page? work.pageSize work.cursor).map fun s => (work.query, s)
  | _ => none

end Stage

/-- Every live query was compiled from an accepted plan and is found under its fingerprint. -/
def Registry.IsSound (r : Registry) : Prop :=
  r.Holds fun fingerprint q => q.IsCompiled ∧ q.fingerprint = fingerprint

namespace Registry.IsSound

variable {r : Registry} (hr : r.IsSound)

include hr

theorem register {q : CompiledQuery} (hq : q.IsCompiled) (now : Int64) :
    (r.register q now).1.IsCompiled ∧ (r.register q now).1.fingerprint = q.fingerprint ∧
      (r.register q now).2.IsSound := by
  obtain ⟨returned, kept⟩ := Holds.register hr (fun _ => ⟨hq, rfl⟩) now
  rcases returned with hown | ⟨-, hcompiled, hfingerprint⟩
  · exact ⟨by rwa [hown], congrArg CompiledQuery.fingerprint hown, kept⟩
  · exact ⟨hcompiled, hfingerprint, kept⟩

theorem redeem (claims : PageClaims) (lookedUp consumed : Int64) :
    (∀ page, (r.redeem claims lookedUp consumed).1 = .ok page →
        page.query.IsCompiled ∧ page.query.fingerprint = claims.fingerprint) ∧
      (r.redeem claims lookedUp consumed).2.IsSound :=
  Holds.redeem hr claims lookedUp consumed

end Registry.IsSound

namespace Engine

variable {e : Engine} {a : Ambient} {s : Stage}

theorem registry_isSound_step (hr : e.codec.registry.IsSound) (hs : s.IsSound) (a : Ambient) :
    (e.step a s).1.codec.registry.IsSound := by
  cases s with
  | submitted plan catalog request =>
    simp only [step]
    split
    next => exact hr
    next checked hchecked => exact (hr.register (hs.isCompiled hchecked _) _).2.2
  | presented token request =>
    simp only [step]
    split <;> exact hr
  | verified claims request =>
    have hleft := (hr.redeem claims a.lookedUpAt a.consumedAt).2
    simp only [step]
    split <;> exact hleft
  | ready work => exact hr
  | executed work outcome =>
    cases outcome with
    | error err => exact hr
    | ok outcome =>
      simp only [step]
      split <;> exact hr
  | answered result claimed request =>
    simp only [step, settle]
    split
    next =>
      split
      next => exact Registry.Holds.release hr _
      next => exact hr
    next => exact hr
  | done | brokenOff => exact hr

theorem isSound_step (hr : e.codec.registry.IsSound) (hs : s.IsSound) (a : Ambient) :
    (e.step a s).2.IsSound := by
  cases s with
  | submitted plan catalog request =>
    simp only [step]
    split
    next => trivial
    next checked hchecked => exact (hr.register (hs.isCompiled hchecked _) _).1
  | presented token request =>
    simp only [step]
    split <;> trivial
  | verified claims request =>
    have hfound := (hr.redeem claims a.lookedUpAt a.consumedAt).1
    simp only [step]
    split
    next => trivial
    next page hpage => exact (hfound page hpage).1
  | ready work => exact hs
  | executed work outcome =>
    cases outcome with
    | error err => trivial
    | ok outcome =>
      simp only [step]
      split <;> trivial
  | answered | done | brokenOff => trivial

/-- A request stays on its way for the plan. -/
theorem isFor_step {plan : Plan} {c : Catalog} (hr : e.codec.registry.IsSound) (hs : s.IsSound)
    (h : s.IsFor e.codec.config plan c e.limits) (a : Ambient) :
    (e.step a s).2.IsFor e.codec.config plan c e.limits := by
  cases s with
  | submitted plan' catalog request =>
    obtain ⟨rfl, rfl⟩ := h
    simp only [step]
    split
    next => trivial
    next checked hchecked =>
      exact ⟨checked, hchecked, (hr.register (hs.isCompiled hchecked _) _).2.1.symm⟩
  | presented token request =>
    simp only [step]
    split
    next => trivial
    next claims hclaims => exact h _ claims hclaims
  | verified claims request =>
    have hfound := (hr.redeem claims a.lookedUpAt a.consumedAt).1
    simp only [step]
    split
    next => trivial
    next page hpage =>
      have hsame : page.query.fingerprint = claims.fingerprint := (hfound page hpage).2
      show plan.Names c e.limits page.query.fingerprint
      rw [hsame]
      exact h
  | ready work => exact h
  | executed work outcome =>
    cases outcome with
    | error err => trivial
    | ok outcome =>
      simp only [step]
      split <;> trivial
  | answered | done | brokenOff => trivial

theorem step_limits (e : Engine) (a : Ambient) (s : Stage) : (e.step a s).1.limits = e.limits := by
  obtain ⟨registry, metrics, -, h⟩ := e.step_eq a s
  rw [h]

/-- The token of a next page carries the fingerprint of the query that was run. -/
theorem fingerprint_of_mints? {p : Pending} {m : MintedToken} (h : e.mints? a p = some m) :
    m.claims.fingerprint = m.query.fingerprint ∧
      ∀ {plan : Plan} {c : Catalog} {policy : LimitPolicy},
        p.stage.IsFor e.codec.config plan c policy → plan.Names c policy m.query.fingerprint := by
  obtain ⟨work, outcome, next, number, claims, hstage, -, -, hmint, rfl⟩ := minting_of_mints? h
  obtain ⟨-, rfl⟩ := TokenConfig.newClaims?_eq_some_iff.mp hmint
  refine ⟨rfl, fun hfor => ?_⟩
  rw [hstage] at hfor
  exact hfor

end Engine

namespace Serving

/-- What holds at any time of an engine that was started with a loaded catalog. -/
structure Sound (e : Engine) (s : Serving) : Prop where
  config : s.engine.codec.config = e.codec.config
  limits : s.engine.limits = e.limits
  catalog : s.engine.catalog.IsLoaded
  registry : s.engine.codec.registry.IsSound
  pending : ∀ p ∈ s.pending, p.stage.IsSound

variable {e : Engine} {s : Serving}

theorem Sound.receive (hs : s.Sound e) {r : Engine × Stage} (hconfig : r.1.codec = s.engine.codec)
    (hlimits : r.1.limits = s.engine.limits) (hcatalog : r.1.catalog = s.engine.catalog)
    (hstage : r.2.IsSound) : (s.receive r).Sound e where
  config := (congrArg Codec.config hconfig).trans hs.config
  limits := hlimits.trans hs.limits
  catalog := by
    show r.1.catalog.IsLoaded
    rw [hcatalog]
    exact hs.catalog
  registry := by
    show r.1.codec.registry.IsSound
    rw [hconfig]
    exact hs.registry
  pending := by
    intro p hp
    rcases List.mem_append.mp hp with hp | hp
    · exact hs.pending p hp
    · cases List.mem_singleton.mp hp
      exact hstage

theorem Sound.advance (hs : s.Sound e) (i : Nat) (a : Ambient) : (s.advance i a).Sound e := by
  cases hp : s.pending[i]? with
  | none =>
    rw [Serving.advance, hp]
    exact hs
  | some p =>
    have hstage := hs.pending p (List.mem_of_getElem? hp)
    rw [advance_eq hp]
    constructor
    · exact (s.engine.step_config a p.stage).trans hs.config
    · exact (s.engine.step_limits a p.stage).trans hs.limits
    · simp only [Engine.step_catalog]
      exact hs.catalog
    · exact Engine.registry_isSound_step hs.registry hstage a
    · intro p' hp'
      rcases List.mem_or_eq_of_mem_set hp' with hp' | rfl
      · exact hs.pending p' hp'
      · exact Engine.isSound_step hs.registry hstage a

theorem Sound.reload (hs : s.Sound e) {catalog : Catalog} (hcatalog : catalog.IsLoaded) :
    (s.reload catalog).Sound e where
  config := hs.config
  limits := hs.limits
  catalog := hcatalog.withGeneration _
  registry := Registry.Holds.reset _ _
  pending := by
    intro p hp
    obtain ⟨p, hp', rfl⟩ := List.mem_map.mp hp
    exact hs.pending p hp'

theorem Sound.step (hs : s.Sound e) {x : ServingStep} (hx : ∀ c, x = .reload c → c.IsLoaded) :
    (s.step x).Sound e := by
  cases x with
  | submit a plan => exact hs.receive rfl rfl rfl hs.catalog
  | present a token => exact hs.receive rfl rfl rfl trivial
  | advance i a => exact hs.advance i a
  | reload catalog => exact hs.reload (hx catalog rfl)

theorem Sound.run (hs : s.Sound e) {steps : List ServingStep}
    (hsteps : ∀ c, .reload c ∈ steps → c.IsLoaded) : (s.run steps).Sound e := by
  induction steps generalizing s with
  | nil => exact hs
  | cons x steps ih =>
    refine ih (hs.step ?_) fun c hc => hsteps c (List.mem_cons_of_mem _ hc)
    rintro c rfl
    exact hsteps c List.mem_cons_self

theorem Sound.of_isFresh (he : e.IsFresh) (hcatalog : e.catalog.IsLoaded) :
    (⟨e, [], []⟩ : Serving).Sound e where
  config := rfl
  limits := rfl
  catalog := hcatalog
  registry := fun x hx => by rw [he.entries] at hx; cases hx
  pending := by simp

/-- What a step does to the request at a position: it takes its own step, or it stays where it is. -/
theorem stage_step {i : Nat} {p : Pending} (hp : s.pending[i]? = some p) (x : ServingStep) :
    ∃ p', (s.step x).pending[i]? = some p' ∧
      (p'.stage = p.stage ∨ ∃ a, x = .advance i a ∧ p'.stage = (s.engine.step a p.stage).2) := by
  have hlt : i < s.pending.length := (List.getElem?_eq_some_iff.mp hp).1
  cases x with
  | submit a plan => exact ⟨p, by rw [← hp]; exact List.getElem?_append_left hlt, .inl rfl⟩
  | present a token => exact ⟨p, by rw [← hp]; exact List.getElem?_append_left hlt, .inl rfl⟩
  | advance j a =>
    show ∃ p', (s.advance j a).pending[i]? = some p' ∧ _
    cases hj : s.pending[j]? with
    | none =>
      rw [Serving.advance, hj]
      exact ⟨p, hp, .inl rfl⟩
    | some q =>
      rw [advance_eq hj]
      by_cases hij : j = i
      · subst hij
        rw [hp] at hj
        cases hj
        exact ⟨_, List.getElem?_set_self hlt, .inr ⟨a, rfl, rfl⟩⟩
      · exact ⟨p, by rw [← hp]; exact List.getElem?_set_ne hij, .inl rfl⟩
  | reload catalog =>
    refine ⟨{ p with reloads := p.reloads + 1 }, ?_, .inl rfl⟩
    show (s.pending.map _)[i]? = _
    rw [List.getElem?_map, hp]
    rfl

/-- What every step of a request keeps, a run keeps. -/
theorem stage_run_of_step {P : Stage → Prop}
    (hkept : ∀ (e : Engine) (a : Ambient) (s : Stage), P s → P (e.step a s).2)
    (steps : List ServingStep) {i : Nat} {p : Pending} (hp : s.pending[i]? = some p) (h : P p.stage) :
    ∃ p', (s.run steps).pending[i]? = some p' ∧ P p'.stage := by
  induction steps generalizing s p with
  | nil => exact ⟨p, hp, h⟩
  | cons x steps ih =>
    obtain ⟨p', hp', hstage⟩ := stage_step hp x
    refine ih hp' ?_
    rcases hstage with hsame | ⟨a, -, hstepped⟩
    · rwa [hsame]
    · rw [hstepped]
      exact hkept s.engine a p.stage h

/-- What the steps of a request keep, a run keeps. -/
theorem stage_run {P : Stage → Prop} (hs : s.Sound e) {steps : List ServingStep}
    (hsteps : ∀ c, .reload c ∈ steps → c.IsLoaded)
    (hkept : ∀ (s : Serving) (a : Ambient) (p : Pending), s.Sound e → p ∈ s.pending → P p.stage →
      P (s.engine.step a p.stage).2)
    {i : Nat} {p : Pending} (hp : s.pending[i]? = some p) (h : P p.stage) :
    ∃ p', (s.run steps).pending[i]? = some p' ∧ P p'.stage := by
  induction steps generalizing s p with
  | nil => exact ⟨p, hp, h⟩
  | cons x steps ih =>
    have hnext : (s.step x).Sound e := by
      refine hs.step ?_
      rintro c rfl
      exact hsteps c List.mem_cons_self
    obtain ⟨p', hp', hstage⟩ := stage_step hp x
    refine ih hnext (fun c hc => hsteps c (List.mem_cons_of_mem _ hc)) hp' ?_
    rcases hstage with hsame | ⟨a, -, hstepped⟩
    · rwa [hsame]
    · rw [hstepped]
      exact hkept s a p hs (List.mem_of_getElem? hp) h

/-- Requests never go. -/
theorem length_pending_run (s : Serving) (steps : List ServingStep) :
    s.pending.length ≤ (s.run steps).pending.length := by
  induction steps generalizing s with
  | nil => exact Nat.le_refl _
  | cons x steps ih =>
    refine Nat.le_trans ?_ (ih (s.step x))
    cases x with
    | submit a plan => simp [Serving.step, Serving.receive]
    | present a token => simp [Serving.step, Serving.receive]
    | advance i a =>
      show _ ≤ (s.advance i a).pending.length
      rw [Serving.advance]
      split <;> simp
    | reload catalog => simp [Serving.step, Serving.reload]

theorem run_append (s : Serving) (steps later : List ServingStep) :
    s.run (steps ++ later) = (s.run steps).run later := List.foldl_append

/-- What holds of a request when it comes in and is kept by its steps holds of it at any time. -/
theorem stage_of_receive {P : Stage → Prop} (hs : s.Sound e)
    {before after steps : List ServingStep} {x : ServingStep}
    (hsteps : ∀ c, .reload c ∈ steps → c.IsLoaded)
    (hkept : ∀ (s : Serving) (a : Ambient) (p : Pending), s.Sound e → p ∈ s.pending → P p.stage →
      P (s.engine.step a p.stage).2)
    (hsplit : steps = before ++ x :: after) {r : Engine × Stage}
    (hx : (s.run before).step x = (s.run before).receive r) (hr : P r.2)
    {moment rest : List ServingStep} (hmoment : steps = moment ++ rest) {p : Pending}
    (hp : (s.run moment).pending[(s.run before).pending.length]? = some p) : P p.stage := by
  have hpresent := (List.getElem?_eq_some_iff.mp hp).1
  -- the moment is not before the one when the request came in
  obtain ⟨between, rfl⟩ : ∃ between, moment = before ++ x :: between := by
    rw [hsplit] at hmoment
    rcases List.append_eq_append_iff.mp hmoment with ⟨more, hmore, hrest⟩ | ⟨more, hmore, -⟩
    · cases more with
      | nil =>
        rw [List.append_nil] at hmore
        rw [hmore] at hpresent
        exact absurd hpresent (Nat.lt_irrefl _)
      | cons y between =>
        cases hrest
        exact ⟨between, hmore⟩
    · rw [hmore, run_append] at hpresent
      have hgrows := length_pending_run (s.run moment) more
      omega
  have hloaded : ∀ c, .reload c ∈ before ++ x :: between → c.IsLoaded := by
    intro c hc
    refine hsteps c ?_
    rw [hmoment]
    exact List.mem_append_left _ hc
  have harrived : (s.run (before ++ [x])).pending[(s.run before).pending.length]? =
      some ⟨r.2, 0⟩ := by
    rw [run_append, run_cons, run_nil, hx]
    exact List.getElem?_concat_length
  have hsound : (s.run (before ++ [x])).Sound e := hs.run fun c hc => hloaded c (by
    rcases List.mem_append.mp hc with hc | hc
    · exact List.mem_append_left _ hc
    · exact List.mem_append_right _ (List.mem_cons.mpr (.inl (List.mem_singleton.mp hc))))
  have hbetween : ∀ c, .reload c ∈ between → c.IsLoaded := fun c hc =>
    hloaded c (List.mem_append_right _ (List.mem_cons_of_mem _ hc))
  obtain ⟨p', hp', hP⟩ := stage_run hsound hbetween hkept harrived hr
  rw [← run_append, List.append_assoc, List.singleton_append, hp] at hp'
  cases hp'
  exact hP

/-- In one of the steps the request at a position runs a statement of a query. -/
def Executes (s : Serving) (steps : List ServingStep) (i : Nat) (q : CompiledQuery)
    (statement : Statement Param) : Prop :=
  ∃ before a after p, steps = before ++ .advance i a :: after ∧
    (s.run before).pending[i]? = some p ∧ p.stage.statement? = some (q, statement)

/-- In one of the steps the request at a position mints a token. -/
def Mints (s : Serving) (steps : List ServingStep) (i : Nat) (m : MintedToken) : Prop :=
  ∃ before a after p, steps = before ++ .advance i a :: after ∧
    (s.run before).pending[i]? = some p ∧ (s.run before).engine.mints? a p = some m

/-- The requests that one leads to: itself, and those that bring a token of the query that a token
minted for one of them is of. The two tokens may be the same (`Follows.of_minted`), or differ in their
cursors. -/
inductive Follows (s : Serving) (steps : List ServingStep) (first : Nat) : Nat → Prop
  | first : Follows s steps first first
  | next {i : Nat} {m : MintedToken} {before after : List ServingStep} {a : Ambient}
      {token : String} (hi : Follows s steps first i) (hm : s.Mints steps i m)
      (hsplit : steps = before ++ .present a token :: after)
      (htoken : ∀ now claims, s.engine.codec.config.verify now token = .ok claims →
        claims.fingerprint = m.claims.fingerprint) :
      Follows s steps first (s.run before).pending.length

section Runs

variable (hs : s.Sound e) {steps : List ServingStep} (hsteps : ∀ c, .reload c ∈ steps → c.IsLoaded)

include hs hsteps

theorem sound_of_split {before after : List ServingStep} (hsplit : steps = before ++ after) :
    (s.run before).Sound e :=
  hs.run fun c hc => hsteps c (by rw [hsplit]; exact List.mem_append_left _ hc)

/-- A token that is minted is of the query it was minted for, with whatever cursor it is read. -/
theorem Mints.fingerprint_eq {i : Nat} {m : MintedToken} (hm : s.Mints steps i m) {now : Int}
    {claims : PageClaims} (h : s.engine.codec.config.verify now m.token = .ok claims) :
    claims.fingerprint = m.claims.fingerprint := by
  obtain ⟨before, a, after, p, hsplit, -, hm⟩ := hm
  obtain ⟨-, -, -, -, -, htoken, hissuer, haudience⟩ := Engine.mints?_eq_some hm
  have hconfig := (sound_of_split hs hsteps hsplit).config.trans hs.config.symm
  rw [hconfig] at htoken hissuer haudience
  rw [htoken, TokenConfig.verify_sign_eq_ok_of hissuer haudience] at h
  obtain ⟨-, -, cursor, -, rfl⟩ := h
  rfl

/-- A token that is minted for a request leads from it to the requests that bring the token. -/
theorem Follows.of_minted {first i : Nat} (hi : s.Follows steps first i) {m : MintedToken}
    (hm : s.Mints steps i m) {before after : List ServingStep} {a : Ambient}
    (hsplit : steps = before ++ .present a m.token :: after) :
    s.Follows steps first (s.run before).pending.length :=
  .next hi hm hsplit fun _ _ h => hm.fingerprint_eq hs hsteps h

/-- Every request that the submission of a plan leads to is on its way for the plan. -/
theorem Follows.isFor {before after : List ServingStep} {a : Ambient} {plan : Plan}
    (hsplit : steps = before ++ .submit a plan :: after) {i : Nat}
    (hi : s.Follows steps (s.run before).pending.length i) {moment rest : List ServingStep}
    (hmoment : steps = moment ++ rest) {p : Pending} (hp : (s.run moment).pending[i]? = some p) :
    p.stage.IsFor e.codec.config plan (s.run before).engine.catalog e.limits := by
  have hkept (s' : Serving) (a : Ambient) (p : Pending) (hs' : s'.Sound e) (hp : p ∈ s'.pending)
      (h : p.stage.IsFor e.codec.config plan (s.run before).engine.catalog e.limits) :
      (s'.engine.step a p.stage).2.IsFor e.codec.config plan (s.run before).engine.catalog
        e.limits := by
    rw [← hs'.config, ← hs'.limits] at h ⊢
    exact Engine.isFor_step hs'.registry (hs'.pending p hp) h a
  induction hi generalizing moment rest p with
  | first => exact stage_of_receive hs hsteps hkept hsplit rfl ⟨rfl, rfl⟩ hmoment hp
  | @next i m before' after' a' token _ hm hsplit' htoken ih =>
    refine stage_of_receive hs hsteps hkept hsplit' rfl ?_ hmoment hp
    intro now claims hclaims
    rw [← hs.config] at hclaims
    rw [htoken now claims hclaims]
    obtain ⟨earlier, a'', later, p', hearlier, hp', hm⟩ := hm
    have hfor := ih hearlier hp'
    obtain ⟨hfingerprint, hnames⟩ := Engine.fingerprint_of_mints? hm
    rw [← (sound_of_split hs hsteps hearlier).config] at hfor
    rw [hfingerprint]
    exact hnames hfor

/-- What is run for a plan is a page of a query that was compiled from an accepted plan and has the
fingerprint of this one. -/
theorem Follows.executes {before after : List ServingStep} {a : Ambient} {plan : Plan}
    (hsplit : steps = before ++ .submit a plan :: after) {i : Nat}
    (hi : s.Follows steps (s.run before).pending.length i) {q : CompiledQuery}
    {statement : Statement Param} (h : s.Executes steps i q statement) :
    q.IsCompiled ∧ plan.Names (s.run before).engine.catalog e.limits q.fingerprint ∧
      ∃ pageSize cursor, q.page? pageSize cursor = some statement := by
  obtain ⟨moment, a', rest, p, hmoment, hp, hstatement⟩ := h
  have hfor := hi.isFor hs hsteps hsplit hmoment hp
  have hsound := (sound_of_split hs hsteps hmoment).pending p (List.mem_of_getElem? hp)
  cases hstage : p.stage with
  | ready work =>
    rw [hstage] at hstatement hfor hsound
    obtain ⟨page, hpage, hboth⟩ := Option.map_eq_some_iff.mp hstatement
    cases hboth
    exact ⟨hsound, hfor, work.pageSize, work.cursor, hpage⟩
  | submitted | presented | verified | executed | answered | done | brokenOff =>
    rw [hstage] at hstatement
    cases hstatement

end Runs

end Serving

end CatalogQuery
