import CatalogQuery.Proofs.FailedPages
/-!
# Queries that idle

A live query goes when it was not used for longer than the lifetime of a token. It is used when it is
registered and when a token of it is looked up, both before its page is executed; a token for the page
after is minted once the page is there, and lives from then on. So a token can outlive its query
although no catalog was reloaded.
-/
namespace CatalogQuery

/-- The last use of the queries under a fingerprint. -/
def lastUse (uses : List LiveQuery) (fingerprint : String) : Option LiveQuery :=
  uses.reverse.find? fun use => use.query.fingerprint = fingerprint

theorem lastUse_eq_some {uses : List LiveQuery} {fingerprint : String} {use : LiveQuery}
    (h : lastUse uses fingerprint = some use) :
    use ∈ uses ∧ use.query.fingerprint = fingerprint := by
  have hfound := List.find?_some h
  exact ⟨List.mem_reverse.mp (List.mem_of_find?_eq_some h), of_decide_eq_true hfound⟩

theorem lastUse_concat (uses : List LiveQuery) (use : LiveQuery) (fingerprint : String) :
    lastUse (uses ++ [use]) fingerprint =
      if use.query.fingerprint = fingerprint then some use else lastUse uses fingerprint := by
  rw [lastUse, List.reverse_concat, List.find?_cons]
  by_cases h : use.query.fingerprint = fingerprint
  · simp [h]
  · simp [h, lastUse]

namespace Registry

/-- The registry after some uses, up to a time: queries that were last used so late that they are live
at that time are there, with their last uses, and others of their fingerprints are not. -/
structure Tracks (r : Registry) (now : Int) (uses : List LiveQuery) : Prop where
  filed : r.IsFiled
  keys : (r.entries.map Prod.fst).Nodup
  live : ∀ fingerprint e, now ≤ e.lastUsed.toInt + r.ttl.toInt →
    (r.entries.lookup fingerprint = some e ↔ lastUse uses fingerprint = some e)
  /-- A query stays the one of its fingerprint while it is live. -/
  stays : ∀ use ∈ uses, now ≤ use.lastUsed.toInt + r.ttl.toInt →
    ∃ last, lastUse uses use.query.fingerprint = some last ∧ last.query = use.query ∧
      use.lastUsed.toInt ≤ last.lastUsed.toInt
  clocked : r.LastUses fun t => Time.Timestamp.IsOnCalendar t.toInt

namespace Tracks

variable {r r' : Registry} {now : Int} {t : Time.Reading} {uses : List LiveQuery}

theorem of_entries_eq (h : r.Tracks now uses) (hentries : r'.entries = r.entries)
    (hgeneration : r'.generation = r.generation) (httl : r'.ttl = r.ttl) : r'.Tracks now uses where
  filed := by
    rw [IsFiled, Holds, hentries, hgeneration]
    exact h.filed
  keys := by
    rw [hentries]
    exact h.keys
  live := by
    rw [hentries, httl]
    exact h.live
  stays := by
    rw [httl]
    exact h.stays
  clocked := h.clocked.of_subset (by rw [hentries]; exact List.Subset.refl _)

/-- Entries that are not live at the time may go. -/
theorem filter (h : r.Tracks now uses) (keep : String × LiveQuery → Bool)
    (hkeep : ∀ fingerprint e, r.entries.lookup fingerprint = some e → now ≤ e.lastUsed.toInt + r.ttl.toInt →
      keep (fingerprint, e) = true) :
    Tracks { r with entries := r.entries.filter keep } now uses where
  filed := Holds.of_subset h.filed List.filter_sublist.subset
  keys := h.keys.sublist (List.filter_sublist.map Prod.fst)
  live fingerprint e hnow := by
    rw [← h.live fingerprint e hnow, lookup_filter h.keys, Option.filter_eq_some_iff]
    exact and_iff_left_of_imp fun hlookup => hkeep fingerprint e hlookup hnow
  stays := h.stays
  clocked := h.clocked.of_subset List.filter_sublist.subset

/-- By the clock the queries that are live are those that were used late enough. -/
theorem isFresh_iff (h : r.Tracks now uses) (t : Time.Reading) {fingerprint : String} {e : LiveQuery}
    (he : r.entries.lookup fingerprint = some e) :
    r.isFresh t e = true ↔ t ≤ e.lastUsed.toInt + r.ttl.toInt :=
  Registry.isFresh_iff (t.subFits (h.clocked.of_lookup he))

theorem purge (h : r.Tracks now uses) (ht : t ≤ now) : (r.purge t).Tracks now uses := by
  refine of_entries_eq (h.filter (fun e => r.isFresh t e.2) fun _ e he hnow => ?_) rfl rfl rfl
  exact (h.isFresh_iff t he).mpr (by omega)

/-- A use, of the query that is live under the fingerprint if there is one, is the last one. -/
theorem use (h : r.Tracks now uses) (use : LiveQuery)
    (huses : ∀ u ∈ uses, u.lastUsed.toInt ≤ use.lastUsed.toInt)
    (hquery : ∀ e, r.entries.lookup use.query.fingerprint = some e →
      now ≤ e.lastUsed.toInt + r.ttl.toInt → e.query = use.query)
    (httl : r'.ttl = r.ttl) (hfiled : r'.IsFiled)
    (hclocked : r'.LastUses fun t => Time.Timestamp.IsOnCalendar t.toInt)
    (hkeys : (r'.entries.map Prod.fst).Nodup)
    (hlookup : ∀ fingerprint, r'.entries.lookup fingerprint =
      if use.query.fingerprint = fingerprint then some use else r.entries.lookup fingerprint) :
    r'.Tracks now (uses ++ [use]) where
  filed := hfiled
  keys := hkeys
  live fingerprint e hnow := by
    rw [httl] at hnow
    rw [hlookup, lastUse_concat]
    split
    next => exact Iff.rfl
    next => exact h.live fingerprint e hnow
  stays u hu hnow := by
    rw [httl] at hnow
    rw [lastUse_concat]
    rcases List.mem_append.mp hu with hu | hu
    · obtain ⟨last, hlast, hsame, hlater⟩ := h.stays u hu hnow
      split
      next hfingerprint =>
        rw [← hfingerprint] at hlast
        have hlive := (h.live _ last (by omega)).mpr hlast
        exact ⟨use, rfl, (hquery last hlive (by omega)).symm.trans hsame, huses u hu⟩
      next => exact ⟨last, hlast, hsame, hlater⟩
    · cases List.mem_singleton.mp hu
      exact ⟨use, if_pos rfl, rfl, Int.le_refl _⟩
  clocked := hclocked

/-- The query that is live under a fingerprint is used. -/
theorem touch (h : r.Tracks now uses) {e : LiveQuery} {fingerprint : String}
    (he : r.entries.lookup fingerprint = some e) (huses : ∀ u ∈ uses, u.lastUsed.toInt ≤ t) :
    (r.touch fingerprint t).Tracks now (uses ++ [⟨e.query, t⟩]) := by
  have hfingerprint : e.query.fingerprint = fingerprint := (h.filed.of_lookup he).1
  refine h.use ⟨e.query, t⟩ huses ?_ rfl (h.filed.touch fingerprint t)
    (h.clocked.touch t.onCalendar fingerprint) ?_ fun name => ?_
  · intro e' he' _
    rw [hfingerprint, he] at he'
    cases he'
    rfl
  · rw [keys_touch]
    exact h.keys
  · rw [lookup_touch, hfingerprint]
    by_cases hname : fingerprint = name
    · subst hname
      rw [he, Option.map_some, if_pos rfl, if_pos rfl]
    · simp only [if_neg hname, if_neg (Ne.symm hname), Option.map_id']

theorem register (h : r.Tracks now uses) {q : CompiledQuery} (hq : q.generation = r.generation)
    (ht : t ≤ now) (huses : ∀ u ∈ uses, u.lastUsed.toInt ≤ t) :
    (r.register q t).2.Tracks now (uses ++ [⟨(r.register q t).1, t⟩]) := by
  have hpurged := h.purge ht
  rw [Registry.register]
  split
  next hother => exact absurd hq hother
  next =>
    split
    next e he => exact hpurged.touch he huses
    next hnone =>
      refine hpurged.use ⟨q, t⟩ huses ?_ rfl ?_ ?_ (nodup_keys_concat hnone hpurged.keys _)
        (lookup_concat hnone _)
      · intro e he
        rw [hnone] at he
        cases he
      · intro e he
        rcases List.mem_append.mp he with he | he
        · exact hpurged.filed e he
        · cases List.mem_singleton.mp he
          exact ⟨rfl, hq⟩
      · intro e he
        rcases List.mem_append.mp he with he | he
        · exact hpurged.clocked e he
        · cases List.mem_singleton.mp he
          exact t.onCalendar

/-- Looking a fingerprint up uses the query that is live under it, if there is one. -/
theorem lookup (h : r.Tracks now uses) (fingerprint : String) (ht : t ≤ now)
    (huses : ∀ u ∈ uses, u.lastUsed.toInt ≤ t) :
    (r.lookup fingerprint t).2.Tracks now
      (uses ++ ((r.lookup fingerprint t).1.map fun q => ⟨q, t⟩).toList) := by
  rw [Registry.lookup]
  cases he : r.entries.lookup fingerprint with
  | none => simpa using h
  | some e =>
    simp only
    split
    next => exact h.touch he huses
    next hidle =>
      have hidle : e.lastUsed.toInt + r.ttl.toInt < t := by
        rw [h.isFresh_iff t he] at hidle
        omega
      have hleft := h.filter (fun e => e.1 ≠ fingerprint) fun name e' he' hnow => by
        rw [decide_eq_true_eq]
        rintro rfl
        rw [he] at he'
        cases he'
        omega
      simpa using hleft

end Tracks

/-- What redeeming claims leaves of the queries: they are looked up, if the claims are of the
generation. -/
theorem redeem_eq_lookup (r : Registry) (claims : PageClaims) (lookedUp consumed : Int64) :
    (r.redeem claims lookedUp consumed).2.entries =
      if claims.generation = r.generation then (r.lookup claims.fingerprint lookedUp).2.entries
      else r.entries := by
  have hresolve : (r.resolve claims lookedUp).2.entries =
      if claims.generation = r.generation then (r.lookup claims.fingerprint lookedUp).2.entries
      else r.entries := by
    rw [resolve]
    split
    next => rfl
    next hsame =>
      rw [Decidable.not_not] at hsame
      rw [if_pos hsame]
      split
      next left hleft => rw [hleft]
      next q left hleft =>
        rw [hleft]
        split <;> rfl
  cases h : (r.resolve claims lookedUp).1 with
  | error err => rw [redeem_of_resolve_error h, hresolve]
  | ok page =>
    rw [redeem_of_resolve_ok h]
    simp only [consume_entries, hresolve]

end Registry

theorem Registry.Serves.ttl {r r' : Registry} (h : r.Serves r') : r'.ttl = r.ttl := by
  cases h with
  | kept => rfl
  | registered q now => exact r.register_ttl q now
  | redeemed claims lookedUp consumed => exact r.redeem_ttl claims lookedUp consumed
  | released nonce => rfl

theorem length_of_mapM {α β : Type} {f : α → Option β} {xs : List α} {ys : List β}
    (h : xs.mapM f = some ys) : ys.length = xs.length := by
  induction xs generalizing ys with
  | nil =>
    cases h
    rfl
  | cons x xs ih =>
    rw [List.mapM_cons] at h
    obtain ⟨y, -, h⟩ := Option.bind_eq_some_iff.mp h
    obtain ⟨rest, hrest, h⟩ := Option.bind_eq_some_iff.mp h
    cases h
    rw [List.length_cons, List.length_cons, ih hrest]

namespace CompiledQuery

variable {q : CompiledQuery}

/-- A query accepts the cursors after its rows. -/
theorem accepts_after (q : CompiledQuery) (lastRow : Row) (pageSize page : UInt32) :
    q.accepts (Cursor.after q lastRow pageSize page) = true := by
  rw [Cursor.after]
  cases hmode : q.cursorMode with
  | offset => rfl
  | keyset =>
    simp only
    split
    next values hvalues => exact accepts_keyset_iff.mpr ⟨hmode, length_of_mapM hvalues⟩
    next => rfl

theorem accepts_next {backend : Backend} {pageSize page : UInt32} {cursor next : Cursor}
    {outcome : PageOutcome} (h : q.executePage backend pageSize cursor page = .ok outcome)
    (hnext : outcome.next = some next) : q.accepts next = true := by
  obtain ⟨statement, rows, -, -, rfl⟩ := executePage_eq_ok_iff.mp h
  rw [pageOutcome] at hnext
  simp only at hnext
  split at hnext
  next =>
    obtain ⟨last, -, rfl⟩ := Option.map_eq_some_iff.mp hnext
    exact q.accepts_after last pageSize page
  next => cases hnext

/-- A cursor that is accepted is so after it was written and read. -/
theorem accepts_reread {cursor read : Cursor} (hread : cursor.reread? = some read)
    (h : q.accepts cursor = true) : q.accepts read = true := by
  cases cursor with
  | start => cases hread; rfl
  | offset rows => cases hread; rfl
  | keyset values =>
    obtain ⟨values', hvalues, rfl⟩ := Option.map_eq_some_iff.mp hread
    rw [accepts_keyset_iff] at h ⊢
    rwa [length_of_mapM hvalues]

end CompiledQuery

namespace Stage

/-- The readings of the clock in the next step of a request, in order. -/
def readings (a : Ambient) : Stage → List Int
  | .submitted _ _ _ => [a.registeredAt]
  | .presented _ _ => [a.verifiedAt]
  | .verified _ _ => [a.lookedUpAt, a.consumedAt]
  | .executed _ _ => [a.mintedAt]
  | .ready _ | .answered _ _ _ | .done _ _ | .brokenOff _ => []

/-- The catalog of the request is that of the registry, or its query was used, and the page after is
one that the query accepts. -/
def IsTracked (generation : UInt64) (uses : List LiveQuery) : Stage → Prop
  | .submitted _ catalog _ => catalog.generation = generation
  | .ready work => ∃ use ∈ uses, use.query = work.query
  | .executed work outcome =>
    (∃ use ∈ uses, use.query = work.query) ∧
      ∀ page next, outcome = .ok page → page.next = some next → work.query.accepts next = true
  | .presented _ _ | .verified _ _ | .answered _ _ _ | .done _ _ | .brokenOff _ => True

theorem IsTracked.append {generation : UInt64} {uses : List LiveQuery} {s : Stage}
    (h : s.IsTracked generation uses) (more : List LiveQuery) :
    s.IsTracked generation (uses ++ more) := by
  cases s with
  | submitted | presented | verified | answered | done | brokenOff => exact h
  | ready work =>
    obtain ⟨use, huse, hquery⟩ := h
    exact ⟨use, List.mem_append_left _ huse, hquery⟩
  | executed work outcome =>
    obtain ⟨⟨use, huse, hquery⟩, haccepts⟩ := h
    exact ⟨⟨use, List.mem_append_left _ huse, hquery⟩, haccepts⟩

end Stage

namespace Engine

/-- The query that the next step of a request uses, with the time. -/
def use? (e : Engine) (a : Ambient) : Stage → Option LiveQuery
  | .submitted plan catalog _ =>
    match plan.check catalog e.limits with
    | .error _ => none
    | .ok checked =>
      if catalog.generation = e.codec.registry.generation then
        some ⟨(e.codec.registry.register (checked.compile catalog.generation) a.registeredAt).1,
          a.registeredAt⟩
      else none
  | .verified claims _ =>
    if claims.generation = e.codec.registry.generation then
      (e.codec.registry.lookup claims.fingerprint a.lookedUpAt).1.map fun q => ⟨q, a.lookedUpAt⟩
    else none
  | _ => none

variable {e : Engine} {s : Stage} {now : Int} {uses : List LiveQuery}

theorem lastUsed_use? {a : Ambient} {use : LiveQuery} (h : e.use? a s = some use) :
    use.lastUsed.toInt ∈ s.readings a := by
  cases s with
  | submitted plan catalog request =>
    simp only [use?] at h
    split at h
    next => cases h
    next =>
      split at h
      next =>
        cases h
        exact List.mem_singleton_self _
      next => cases h
  | verified claims request =>
    simp only [use?] at h
    split at h
    next =>
      obtain ⟨q, -, rfl⟩ := Option.map_eq_some_iff.mp h
      exact List.mem_cons_self
    next => cases h
  | presented | ready | executed | answered | done | brokenOff => cases h

/-- A step of a request, at a time that no use is after, keeps track of the uses. -/
theorem tracks_step (h : e.codec.registry.Tracks now uses)
    (hs : s.IsTracked e.codec.registry.generation uses) {a : Ambient}
    (hclock : ∀ t ∈ s.readings a, t ≤ now ∧ ∀ use ∈ uses, use.lastUsed.toInt ≤ t) :
    (e.step a s).1.codec.registry.Tracks now (uses ++ (e.use? a s).toList) ∧
      (e.step a s).2.IsTracked e.codec.registry.generation (uses ++ (e.use? a s).toList) := by
  cases s with
  | submitted plan catalog request =>
    obtain ⟨ht, huses⟩ := hclock a.registeredAt List.mem_cons_self
    have hgeneration : catalog.generation = e.codec.registry.generation := hs
    simp only [step, use?]
    cases plan.check catalog e.limits with
    | error err =>
      simp only [Option.toList_none, List.append_nil]
      exact ⟨h, trivial⟩
    | ok checked =>
      simp only [if_pos hgeneration, Option.toList_some]
      refine ⟨h.register (q := checked.compile catalog.generation) hgeneration ht huses, ?_⟩
      exact ⟨⟨_, a.registeredAt⟩, List.mem_append_right _ (List.mem_singleton_self _), rfl⟩
  | presented token request =>
    simp only [step, use?, Option.toList_none, List.append_nil]
    split
    next => exact ⟨h, trivial⟩
    next => exact ⟨h, trivial⟩
  | verified claims request =>
    obtain ⟨ht, huses⟩ := hclock a.lookedUpAt List.mem_cons_self
    generalize hleft : e.codec.registry.redeem claims a.lookedUpAt a.consumedAt = left
    have hregistry : left.2.Tracks now (uses ++ (e.use? a (.verified claims request)).toList) := by
      have hentries := e.codec.registry.redeem_eq_lookup claims a.lookedUpAt a.consumedAt
      have hgeneration := e.codec.registry.redeem_generation claims a.lookedUpAt a.consumedAt
      have httl := e.codec.registry.redeem_ttl claims a.lookedUpAt a.consumedAt
      rw [hleft] at hentries hgeneration httl
      rw [use?]
      split
      next hsame =>
        rw [if_pos hsame] at hentries
        refine (h.lookup claims.fingerprint ht huses).of_entries_eq hentries ?_ ?_
        · rw [hgeneration, Registry.lookup_generation]
        · rw [httl, Registry.lookup_ttl]
      next hother =>
        rw [if_neg hother] at hentries
        simp only [Option.toList_none, List.append_nil]
        exact h.of_entries_eq hentries hgeneration httl
    simp only [step, hleft]
    split
    next => exact ⟨hregistry, trivial⟩
    next page hpage =>
      refine ⟨hregistry, ?_⟩
      rw [← hleft] at hpage
      obtain ⟨hresolved, -⟩ := (Registry.redeem_eq_ok_iff _ _ _ _ page).mp hpage
      obtain ⟨hsame, q, hq, -, rfl⟩ :=
        (Registry.resolve_eq_ok_iff_lookup _ _ _ page).mp hresolved
      refine ⟨⟨q, a.lookedUpAt⟩, List.mem_append_right _ ?_, rfl⟩
      rw [use?, if_pos hsame, hq]
      exact List.mem_singleton_self _
  | ready work =>
    simp only [step, use?, Option.toList_none, List.append_nil]
    refine ⟨h, hs, ?_⟩
    intro page next houtcome hnext
    exact CompiledQuery.accepts_next houtcome hnext
  | executed work outcome =>
    simp only [use?, Option.toList_none, List.append_nil]
    cases outcome with
    | error err => exact ⟨h, trivial⟩
    | ok outcome =>
      simp only [step]
      split
      next => exact ⟨h, trivial⟩
      next => exact ⟨h, trivial⟩
      next => exact ⟨h, trivial⟩
  | answered result claimed request =>
    simp only [step, settle, use?, Option.toList_none, List.append_nil]
    refine ⟨?_, trivial⟩
    split
    next =>
      split
      next => exact h.of_entries_eq rfl rfl rfl
      next => exact h
    next => exact h
  | done | brokenOff =>
    simp only [use?, Option.toList_none, List.append_nil]
    exact ⟨h, trivial⟩

/-- A token is minted for the page after one that was executed, and lives from then on. -/
theorem minted_of_mints? {e : Engine} {a : Ambient} {p : Pending} {m : MintedToken}
    (h : e.mints? a p = some m) :
    ∃ work page next, p.stage = .executed work (.ok page) ∧ page.next = some next ∧
      m.query = work.query ∧ m.claims.cursor = next ∧
      m.claims.fingerprint = work.query.fingerprint ∧
      m.claims.expiresAt = .ofInt (a.mintedAt + e.codec.config.ttl.toInt) := by
  obtain ⟨work, page, next, number, claims, hstage, hnext, -, hmint, rfl⟩ := minting_of_mints? h
  obtain ⟨-, rfl⟩ := TokenConfig.newClaims?_eq_some_iff.mp hmint
  exact ⟨work, page, next, hstage, hnext, rfl, rfl, rfl, rfl⟩

/-- The claims of a minted token are read as they were made, but for the cursor, which the query accepts if it
accepts the one that was made. -/
theorem claims_of_minted {e : Engine} {a : Ambient} {p : Pending} {m : MintedToken}
    (hm : e.mints? a p = some m) {verified : Int} {claims : PageClaims}
    (hverify : e.codec.config.verify verified m.token = .ok claims) :
    claims.fingerprint = m.query.fingerprint ∧
      claims.generation = e.codec.registry.generation ∧
        (m.query.accepts m.claims.cursor = true → m.query.accepts claims.cursor = true) := by
  obtain ⟨work, page, next, -, -, hquery, -, hfingerprint, -⟩ := minted_of_mints? hm
  obtain ⟨-, -, -, -, hgeneration, htoken, hissuer, haudience⟩ := mints?_eq_some hm
  rw [htoken] at hverify
  obtain ⟨-, -, cursor, hread, hclaims⟩ :=
    (TokenConfig.verify_sign_eq_ok_of hissuer haudience).mp hverify
  rw [← hclaims, hquery]
  exact ⟨hfingerprint, hgeneration, CompiledQuery.accepts_reread hread⟩

end Engine

namespace Serving

/-- The query that a step uses, with the time. -/
def use? (s : Serving) : ServingStep → Option LiveQuery
  | .advance i a => s.pending[i]?.bind fun p => s.engine.use? a p.stage
  | .submit _ _ | .present _ _ | .reload _ => none

/-- The queries that are used in a run, in order, each with the time. -/
def uses (s : Serving) : List ServingStep → List LiveQuery
  | [] => []
  | x :: steps => (s.use? x).toList ++ (s.step x).uses steps

def readings (s : Serving) : ServingStep → List Int
  | .advance i a => (s.pending[i]?.map fun p => p.stage.readings a).getD []
  | .submit _ _ | .present _ _ | .reload _ => []

def clock (s : Serving) : List ServingStep → List Int
  | [] => []
  | x :: steps => s.readings x ++ (s.step x).clock steps

theorem clock_append (s : Serving) (steps later : List ServingStep) :
    s.clock (steps ++ later) = s.clock steps ++ (s.run steps).clock later := by
  induction steps generalizing s with
  | nil => rfl
  | cons x steps ih => rw [List.cons_append, clock, clock, ih, run_cons, List.append_assoc]

theorem lastUsed_use? {s : Serving} {x : ServingStep} {use : LiveQuery} (h : s.use? x = some use) :
    use.lastUsed.toInt ∈ s.readings x := by
  cases x with
  | advance i a =>
    obtain ⟨p, hp, huse⟩ := Option.bind_eq_some_iff.mp h
    rw [readings, hp]
    exact Engine.lastUsed_use? huse
  | submit | present | reload => cases h

/-- The time of every use is read from the clock. -/
theorem lastUsed_mem_clock {s : Serving} {steps : List ServingStep} {use : LiveQuery}
    (h : use ∈ s.uses steps) : use.lastUsed.toInt ∈ s.clock steps := by
  induction steps generalizing s with
  | nil => cases h
  | cons x steps ih =>
    rw [clock, List.mem_append]
    rcases List.mem_append.mp h with h | h
    · exact .inl (lastUsed_use? (Option.mem_toList.mp h))
    · exact .inr (ih h)

/-- The registry keeps track of the uses, and every request that is on its way has used its query. -/
structure Tracks (s : Serving) (now : Int) (uses : List LiveQuery) : Prop where
  registry : s.engine.codec.registry.Tracks now uses
  generation : s.engine.codec.registry.generation = s.engine.catalog.generation
  pending : ∀ p ∈ s.pending, p.stage.IsTracked s.engine.codec.registry.generation uses

namespace Tracks

variable {s : Serving} {now : Int} {uses : List LiveQuery}

theorem receive (h : s.Tracks now uses) {r : Engine × Stage}
    (hcatalog : r.1.catalog = s.engine.catalog) (hcodec : r.1.codec = s.engine.codec)
    (hstage : r.2.IsTracked s.engine.catalog.generation uses) : (s.receive r).Tracks now uses := by
  have hregistry : (s.receive r).engine.codec.registry = s.engine.codec.registry :=
    congrArg Codec.registry hcodec
  refine ⟨?_, ?_, ?_⟩
  · rw [hregistry]
    exact h.registry
  · rw [hregistry, h.generation]
    exact congrArg Catalog.generation hcatalog.symm
  · intro p hp
    rw [hregistry]
    rcases List.mem_append.mp hp with hp | hp
    · exact h.pending p hp
    · cases List.mem_singleton.mp hp
      rwa [h.generation]

/-- A step of a run without reloads, at a time that no use is after, keeps track of the uses. -/
theorem step (h : s.Tracks now uses) {x : ServingStep} (hx : ∀ c, x ≠ .reload c)
    (hclock : ∀ t ∈ s.readings x, t ≤ now ∧ ∀ use ∈ uses, use.lastUsed.toInt ≤ t) :
    (s.step x).Tracks now (uses ++ (s.use? x).toList) := by
  cases x with
  | submit a plan =>
    rw [use?, Option.toList_none, List.append_nil]
    exact h.receive rfl rfl rfl
  | present a token =>
    rw [use?, Option.toList_none, List.append_nil]
    exact h.receive rfl rfl trivial
  | reload catalog => exact absurd rfl (hx catalog)
  | advance i a =>
    show (s.advance i a).Tracks now _
    cases hp : s.pending[i]? with
    | none =>
      rw [Serving.advance, use?, hp, Option.bind_none, Option.toList_none, List.append_nil]
      exact h
    | some p =>
      rw [readings, hp] at hclock
      have hmem := List.mem_of_getElem? hp
      obtain ⟨hregistry, hstage⟩ := Engine.tracks_step h.registry (h.pending p hmem) hclock
      have hgeneration := (s.engine.step_registry a p.stage).generation
      rw [advance_eq hp, use?, hp, Option.bind_some]
      refine ⟨hregistry, ?_, ?_⟩
      · simp only [hgeneration, Engine.step_catalog, h.generation]
      · intro p' hp'
        simp only [hgeneration]
        rcases List.mem_or_eq_of_mem_set hp' with hp' | rfl
        · exact (h.pending p' hp').append _
        · exact hstage

theorem run (h : s.Tracks now uses) {steps : List ServingStep}
    (hsteps : ∀ c, ServingStep.reload c ∉ steps) (hclock : (s.clock steps).Pairwise (· ≤ ·))
    (hnow : ∀ t ∈ s.clock steps, t ≤ now)
    (huses : ∀ use ∈ uses, ∀ t ∈ s.clock steps, use.lastUsed.toInt ≤ t) :
    (s.run steps).Tracks now (uses ++ s.uses steps) := by
  induction steps generalizing s uses with
  | nil => rwa [Serving.uses, List.append_nil]
  | cons x steps ih =>
    rw [clock] at hclock hnow huses
    obtain ⟨-, hrest, hafter⟩ := List.pairwise_append.mp hclock
    have hnext := h.step (fun c hc => hsteps c (List.mem_cons.mpr (.inl hc.symm))) fun t ht =>
      ⟨hnow t (List.mem_append_left _ ht), fun use huse => huses use huse t (List.mem_append_left _ ht)⟩
    rw [run_cons, Serving.uses, ← List.append_assoc]
    refine ih hnext (fun c hc => hsteps c (List.mem_cons_of_mem _ hc)) hrest
      (fun t ht => hnow t (List.mem_append_right _ ht)) fun use huse t ht => ?_
    rcases List.mem_append.mp huse with huse | huse
    · exact huses use huse t (List.mem_append_right _ ht)
    · exact hafter _ (lastUsed_use? (Option.mem_toList.mp huse)) t ht

/-- The query that a token is minted for was used, and accepts the cursor of the token. -/
theorem of_mints? (h : s.Tracks now uses) {i : Nat} {p : Pending} (hp : s.pending[i]? = some p)
    {a : Ambient} {m : MintedToken} (hm : s.engine.mints? a p = some m) :
    (∃ use ∈ uses, use.query = m.query) ∧ m.query.accepts m.claims.cursor = true := by
  obtain ⟨work, page, next, hstage, hnext, hquery, hcursor, -, -⟩ := Engine.minted_of_mints? hm
  have htracked := h.pending p (List.mem_of_getElem? hp)
  rw [hstage] at htracked
  obtain ⟨hused, haccepts⟩ := htracked
  rw [hquery, hcursor]
  exact ⟨hused, haccepts page next rfl hnext⟩

theorem of_isFresh {e : Engine} (he : e.IsFresh) (now : Int) :
    (⟨e, [], []⟩ : Serving).Tracks now [] where
  registry := by
    refine ⟨?_, ?_, ?_, ?_, ?_⟩
    · intro x hx
      rw [he.entries] at hx
      cases hx
    · rw [he.entries]
      exact List.nodup_nil
    · intro fingerprint e _
      rw [he.entries]
      simp [lastUse]
    · simp
    · intro x hx
      rw [he.entries] at hx
      cases hx
  generation := he.generation
  pending := by simp

end Tracks

/-- No step changes how tokens are made or how long queries live. -/
theorem step_settings (s : Serving) (x : ServingStep) :
    (s.step x).engine.codec.config = s.engine.codec.config ∧
      (s.step x).engine.codec.registry.ttl = s.engine.codec.registry.ttl := by
  cases x with
  | submit | present | reload => exact ⟨rfl, rfl⟩
  | advance i a =>
    show (s.advance i a).engine.codec.config = _ ∧ (s.advance i a).engine.codec.registry.ttl = _
    cases hp : s.pending[i]? with
    | none =>
      rw [Serving.advance, hp]
      exact ⟨rfl, rfl⟩
    | some p =>
      rw [advance_eq hp]
      exact ⟨s.engine.step_config a p.stage, (s.engine.step_registry a p.stage).ttl⟩

theorem run_settings (s : Serving) (steps : List ServingStep) :
    (s.run steps).engine.codec.config = s.engine.codec.config ∧
      (s.run steps).engine.codec.registry.ttl = s.engine.codec.registry.ttl := by
  induction steps generalizing s with
  | nil => exact ⟨rfl, rfl⟩
  | cons x steps ih =>
    obtain ⟨hconfig, httl⟩ := s.step_settings x
    obtain ⟨hconfig', httl'⟩ := ih (s.step x)
    exact ⟨hconfig'.trans hconfig, httl'.trans httl⟩

/-- Without reloads the registry stays in its generation. -/
theorem run_generation {s : Serving} {steps : List ServingStep}
    (hsteps : ∀ c, ServingStep.reload c ∉ steps) :
    (s.run steps).engine.codec.registry.generation = s.engine.codec.registry.generation := by
  induction steps generalizing s with
  | nil => rfl
  | cons x steps ih =>
    rw [run_cons, ih fun c hc => hsteps c (List.mem_cons_of_mem _ hc)]
    cases x with
    | submit | present => rfl
    | reload catalog => exact absurd List.mem_cons_self (hsteps catalog)
    | advance i a =>
      show (s.advance i a).engine.codec.registry.generation = _
      cases hp : s.pending[i]? with
      | none => rw [Serving.advance, hp]
      | some p =>
        rw [advance_eq hp]
        exact (s.engine.step_registry a p.stage).generation

/-- A token that is valid resolves to a page, or it is stale. -/
theorem resolve_eq_stale {c : Codec} {token : String} {verified : Time.Reading}
    {claims : PageClaims} (hverify : c.config.verify verified token = .ok claims)
    {lookedUp : Time.Reading}
    (h : ∀ page, (c.resolve token verified lookedUp).1 ≠ .ok page) :
    (c.resolve token verified lookedUp).1 = .error .staleQuery := by
  have hresolve : (c.resolve token verified lookedUp).1 = (c.registry.resolve claims lookedUp).1 := by
    rw [Codec.resolve, hverify]
  rw [hresolve] at h ⊢
  cases hanswer : (c.registry.resolve claims lookedUp).1 with
  | ok page => exact absurd hanswer (h page)
  | error err => rw [Registry.resolve_eq_error hanswer]

/-- What a token resolves to: without reloads, to the last query that was used under its fingerprint,
while that is live and accepts the cursor. -/
theorem Tracks.resolve_iff {s : Serving} {uses : List LiveQuery}
    {verified lookedUp : Time.Reading}
    (h : s.Tracks lookedUp uses) {token : String} {claims : PageClaims}
    (hverify : s.engine.codec.config.verify verified token = .ok claims)
    (hgeneration : claims.generation = s.engine.codec.registry.generation) (page : ResolvedPage) :
    (s.engine.codec.resolve token verified lookedUp).1 = .ok page ↔
      ∃ last, lastUse uses claims.fingerprint = some last ∧
        lookedUp ≤ last.lastUsed.toInt + s.engine.codec.registry.ttl.toInt ∧
          last.query.accepts claims.cursor = true ∧ claims.pageOf last.query = page := by
  have hresolve : (s.engine.codec.resolve token verified lookedUp).1 =
      (s.engine.codec.registry.resolve claims lookedUp).1 := by
    rw [Codec.resolve, hverify]
  rw [hresolve, Registry.resolve_eq_ok_iff_lookup]
  constructor
  · rintro ⟨-, q, hq, haccepts, hpage⟩
    obtain ⟨e, he, hfresh, rfl⟩ := (Registry.lookup_eq_some_iff _ _ _ _).mp hq
    have hlive := (h.registry.isFresh_iff lookedUp he).mp hfresh
    exact ⟨e, (h.registry.live _ e hlive).mp he, hlive, haccepts, hpage⟩
  · rintro ⟨e, he, hlive, haccepts, hpage⟩
    have hlookup := (h.registry.live _ e hlive).mpr he
    have hfresh := (h.registry.isFresh_iff lookedUp hlookup).mpr hlive
    exact ⟨hgeneration, e.query,
      (Registry.lookup_eq_some_iff _ _ _ _).mpr ⟨e, hlookup, hfresh, rfl⟩, haccepts, hpage⟩

/-- Let an engine serve requests without a reload. A token that is minted for the page after one lives
from that moment on, and its query from its last use on, which was before the page was executed. While
the query is live since a use of it, the token resolves to it. In general the token resolves to the
query that was last used under its fingerprint, while that is live and accepts the cursor; once no
query of the fingerprint has been used for too long, the token is stale even if it has not expired. -/
theorem resolves_while_used {e : Engine} (he : e.IsFresh) {before after : List ServingStep}
    {i : Nat} {a : Ambient} (hloads : ∀ c, ServingStep.reload c ∉ before ++ .advance i a :: after)
    {p : Pending} (hp : (run ⟨e, [], []⟩ before).pending[i]? = some p) {m : MintedToken}
    (hm : (run ⟨e, [], []⟩ before).engine.mints? a p = some m) {verified lookedUp : Time.Reading}
    (hclock : (clock ⟨e, [], []⟩ (before ++ .advance i a :: after) ++
      [(verified : Int), (lookedUp : Int)]).Pairwise (· ≤ ·))
    {claims : PageClaims} (hverify : e.codec.config.verify verified m.token = .ok claims) :
    let s : Serving := ⟨e, [], []⟩
    let steps := before ++ .advance i a :: after
    let answer := ((s.run steps).engine.codec.resolve m.token verified lookedUp).1
    let ttl := e.codec.registry.ttl.toInt
    m.claims.expiresAt = .ofInt (a.mintedAt + e.codec.config.ttl.toInt) ∧
      (∃ use ∈ s.uses before, use.query = m.query ∧ use.lastUsed.toInt ≤ a.mintedAt) ∧
      (∀ use ∈ s.uses steps, use.query = m.query → lookedUp ≤ use.lastUsed.toInt + ttl →
        answer = .ok (claims.pageOf m.query)) ∧
      (∀ page, answer = .ok page ↔
        ∃ last, lastUse (s.uses steps) m.query.fingerprint = some last ∧
          lookedUp ≤ last.lastUsed.toInt + ttl ∧ last.query.accepts claims.cursor = true ∧
            claims.pageOf last.query = page) ∧
      ((∀ use ∈ s.uses steps, use.query.fingerprint = m.query.fingerprint →
        use.lastUsed.toInt + ttl < lookedUp) → answer = .error .staleQuery) := by
  intro s steps answer ttl
  obtain ⟨hconfig, -⟩ := s.run_settings before
  obtain ⟨hconfig', httl⟩ := s.run_settings steps
  have hbefore : ∀ c, ServingStep.reload c ∉ before := fun c hc =>
    hloads c (List.mem_append_left _ hc)
  -- the clock of the run, up to the reading by which the token is looked up
  obtain ⟨hrun, -, hlater⟩ := List.pairwise_append.mp hclock
  have hnow : ∀ t ∈ s.clock steps, t ≤ lookedUp := fun t ht => hlater t ht lookedUp (by simp)
  have hend : (s.run steps).Tracks lookedUp (s.uses steps) :=
    (Tracks.of_isFresh he lookedUp).run hloads hrun hnow (by simp)
  rw [clock_append] at hrun hnow
  obtain ⟨hrun, -, hminting⟩ := List.pairwise_append.mp hrun
  have hminted : (s.run before).Tracks lookedUp (s.uses before) :=
    (Tracks.of_isFresh he lookedUp).run hbefore hrun (fun t ht => hnow t (List.mem_append_left _ ht))
      (by simp)
  obtain ⟨⟨taken, htaken, htakes⟩, haccepts⟩ := hminted.of_mints? hp hm
  obtain ⟨work, page, next, hstage, -, -, -, -, hexpires⟩ := Engine.minted_of_mints? hm
  rw [hconfig] at hexpires
  obtain ⟨hfingerprint, hgeneration, hreread⟩ := Engine.claims_of_minted hm (hconfig ▸ hverify)
  have hgeneration' : claims.generation = (s.run steps).engine.codec.registry.generation := by
    rw [hgeneration, run_generation hbefore, run_generation hloads]
  have hvalid : (s.run steps).engine.codec.config.verify verified m.token = .ok claims := by
    rw [hconfig']
    exact hverify
  have hanswer (page : ResolvedPage) : answer = .ok page ↔
      ∃ last, lastUse (s.uses steps) m.query.fingerprint = some last ∧
        lookedUp ≤ last.lastUsed.toInt + ttl ∧ last.query.accepts claims.cursor = true ∧
          claims.pageOf last.query = page := by
    have hresolves := hend.resolve_iff hvalid hgeneration' page
    rwa [hfingerprint, httl] at hresolves
  refine ⟨hexpires, ⟨taken, htaken, htakes, ?_⟩, ?_, hanswer, ?_⟩
  · refine hminting _ (lastUsed_mem_clock htaken) a.mintedAt ?_
    rw [clock, readings, hp]
    simp [hstage, Stage.readings]
  · intro use huse hsame hlive
    have hlive' : lookedUp ≤ use.lastUsed.toInt + (s.run steps).engine.codec.registry.ttl.toInt := by
      rwa [httl]
    obtain ⟨last, hlast, hlastQuery, hlastUsed⟩ := hend.registry.stays use huse hlive'
    rw [hsame] at hlast hlastQuery
    refine (hanswer _).mpr ⟨last, hlast, by omega, ?_, by rw [hlastQuery]⟩
    rw [hlastQuery]
    exact hreread haccepts
  · intro hidle
    refine resolve_eq_stale hvalid fun page hok => ?_
    obtain ⟨last, hlast, hlive, -⟩ := (hanswer page).mp hok
    obtain ⟨hmem, hname⟩ := lastUse_eq_some hlast
    have := hidle last hmem hname
    omega

end Serving

namespace IdleBooks

open ReloadedBooks (engine plan checked)

/-- It takes ten seconds from registering the query to minting the token. -/
def ambient : Ambient := { ReloadedBooks.ambient with registeredAt := 1000, mintedAt := 1010 }

/-- The plan comes in, is compiled and its page is executed. -/
def before : List ServingStep := [.submit ambient plan, .advance 0 ambient, .advance 0 ambient]

def claims : PageClaims :=
  { ReloadedBooks.claims with generation := 1, issuedAt := 1010, expiresAt := 1910 }

def minted : MintedToken where
  token := engine.codec.config.sign claims
  query := checked.compile 1
  claims := claims
  before := 0

theorem mints :
    ∃ p, (Serving.run ⟨engine, [], []⟩ before).pending[0]? = some p ∧
      (Serving.run ⟨engine, [], []⟩ before).engine.mints? ambient p = some minted :=
  ⟨_, rfl, rfl⟩

theorem clock_eq :
    Serving.clock ⟨engine, [], []⟩ (before ++ [.advance 0 ambient]) = [1000, 1010] := rfl

theorem uses_eq :
    Serving.uses ⟨engine, [], []⟩ (before ++ [.advance 0 ambient]) = [⟨checked.compile 1, 1000⟩] := rfl

theorem verified {now : Time.Reading} (h : (now : Int) ≤ 1910) :
    engine.codec.config.verify now minted.token = .ok claims :=
  (TokenConfig.verify_sign_eq_ok_of rfl rfl).mpr ⟨by decide, h, .offset 1, rfl, rfl⟩

/-- The token resolves for as long as a query lives after its registration; for the ten seconds from
then to its own expiry it is valid and stale. -/
theorem stale_before_expiry :
    let codec := (Serving.run ⟨engine, [], []⟩ (before ++ [.advance 0 ambient])).engine.codec
    (codec.resolve minted.token 1900 1900).1 = .ok (claims.pageOf (checked.compile 1)) ∧
      engine.codec.config.verify (1910 : Time.Reading) minted.token = .ok claims ∧
        (codec.resolve minted.token 1910 1910).1 = .error .staleQuery := by
  intro codec
  obtain ⟨p, hp, hm⟩ := mints
  have hloads : ∀ c, ServingStep.reload c ∉ before ++ [.advance 0 ambient] := by
    simp [before]
  have hclock (now : Time.Reading) (h : 1010 ≤ (now : Int)) : (Serving.clock ⟨engine, [], []⟩
      (before ++ [.advance 0 ambient]) ++ [(now : Int), (now : Int)]).Pairwise (· ≤ ·) := by
    rw [clock_eq]
    simp only [List.cons_append, List.nil_append, List.pairwise_cons, List.mem_cons,
      List.not_mem_nil, or_false]
    simp
    omega
  obtain ⟨-, -, hlive, -⟩ := Serving.resolves_while_used (e := engine) ⟨rfl, rfl⟩ hloads hp hm
    (hclock 1900 (by decide +kernel)) (verified (by decide +kernel))
  obtain ⟨-, -, -, -, hidle⟩ := Serving.resolves_while_used (e := engine) ⟨rfl, rfl⟩ hloads hp hm
    (hclock 1910 (by decide +kernel)) (verified (by decide +kernel))
  rw [uses_eq] at hlive hidle
  refine ⟨hlive _ (List.mem_singleton_self _) rfl (by decide +kernel),
    verified (by decide +kernel), hidle ?_⟩
  rintro use huse -
  cases List.mem_singleton.mp huse
  decide +kernel

end IdleBooks

end CatalogQuery
