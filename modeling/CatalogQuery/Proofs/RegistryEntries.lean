import CatalogQuery.Page.Codec
/-!
# The queries that are live

What holds of every live query and of every query that comes in holds of every query that comes out:
the entries of a registry are changed only by registering a query, and otherwise some of them go.
-/
namespace CatalogQuery

/-- The page that claims stand for, of a query. -/
def PageClaims.pageOf (claims : PageClaims) (q : CompiledQuery) : ResolvedPage where
  fingerprint := claims.fingerprint
  pageSize := claims.pageSize
  cursor := claims.cursor
  page := claims.page
  query := q
  nonce := claims.nonce

namespace Registry

/-- Every entry has the property: its fingerprint and its query. -/
def Holds (r : Registry) (P : String → CompiledQuery → Prop) : Prop :=
  ∀ e ∈ r.entries, P e.1 e.2.query

variable {r : Registry} {P : String → CompiledQuery → Prop}

theorem Holds.of_lookup (h : r.Holds P) {fingerprint : String} {e : LiveQuery}
    (he : r.entries.lookup fingerprint = some e) : P fingerprint e.query := by
  obtain ⟨before, after, hentries, -⟩ := List.lookup_eq_some_iff.mp he
  exact h (fingerprint, e) (by simp [hentries])

/-- Entries may go. -/
theorem Holds.of_subset (h : r.Holds P) {r' : Registry} (hsub : r'.entries ⊆ r.entries) :
    r'.Holds P :=
  fun e he => h e (hsub he)

theorem Holds.touch (h : r.Holds P) (fingerprint : String) (now : Int64) :
    (r.touch fingerprint now).Holds P := by
  intro e he
  obtain ⟨e', he', rfl⟩ := List.mem_map.mp he
  have hold := h e' he'
  split <;> exact hold

theorem Holds.purge (h : r.Holds P) (now : Int64) : (r.purge now).Holds P :=
  h.of_subset (List.filter_sublist.subset)

/-- The query that registering gives back is the one that came in or, within one generation, a live
one of its fingerprint. -/
theorem Holds.register (h : r.Holds P) {q : CompiledQuery}
    (hq : q.generation = r.generation → P q.fingerprint q) (now : Int64) :
    ((r.register q now).1 = q ∨
        q.generation = r.generation ∧ P q.fingerprint (r.register q now).1) ∧
      (r.register q now).2.Holds P := by
  have purged := h.purge now
  rw [Registry.register]
  split
  next => exact ⟨.inl rfl, purged⟩
  next hgeneration =>
    rw [purge_generation, Decidable.not_not] at hgeneration
    split
    next e he => exact ⟨.inr ⟨hgeneration, purged.of_lookup he⟩, purged.touch _ _⟩
    next =>
      refine ⟨.inl rfl, fun e he => ?_⟩
      rcases List.mem_append.mp he with he | he
      · exact purged e he
      · cases List.mem_singleton.mp he
        exact hq hgeneration

theorem Holds.lookup (h : r.Holds P) (fingerprint : String) (now : Int64) :
    (∀ q, (r.lookup fingerprint now).1 = some q → P fingerprint q) ∧
      (r.lookup fingerprint now).2.Holds P := by
  rw [Registry.lookup]
  split
  next => exact ⟨by simp, h⟩
  next e he =>
    split
    next =>
      refine ⟨?_, h.touch _ _⟩
      rintro _ ⟨⟩
      exact h.of_lookup he
    next => exact ⟨by simp, h.of_subset List.filter_sublist.subset⟩

theorem Holds.resolve (h : r.Holds P) (claims : PageClaims) (now : Int64) :
    (∀ page, (r.resolve claims now).1 = .ok page → P claims.fingerprint page.query) ∧
      (r.resolve claims now).2.Holds P := by
  obtain ⟨hfound, hleft⟩ := h.lookup claims.fingerprint now
  rw [Registry.resolve]
  split
  next => exact ⟨by simp, h⟩
  next =>
    cases hlookup : r.lookup claims.fingerprint now with
    | mk found left =>
      rw [hlookup] at hfound hleft
      cases found with
      | none => exact ⟨by simp, hleft⟩
      | some q =>
        simp only
        split
        next =>
          refine ⟨?_, hleft⟩
          rintro _ ⟨⟩
          exact hfound q rfl
        next => exact ⟨by simp, hleft⟩

theorem consume_entries (r : Registry) (nonce : String) (expires now : Int64) :
    (r.consume nonce expires now).2.entries = r.entries := by
  rw [consume]
  split <;> rfl

theorem Holds.redeem (h : r.Holds P) (claims : PageClaims) (lookedUp consumed : Int64) :
    (∀ page, (r.redeem claims lookedUp consumed).1 = .ok page → P claims.fingerprint page.query) ∧
      (r.redeem claims lookedUp consumed).2.Holds P := by
  obtain ⟨hfound, hleft⟩ := h.resolve claims lookedUp
  rw [Registry.redeem]
  cases hresolve : r.resolve claims lookedUp with
  | mk found left =>
    rw [hresolve] at hfound hleft
    cases found with
    | error e => exact ⟨by simp, hleft⟩
    | ok page =>
      have kept : (left.consume page.nonce claims.expiresAt consumed).2.Holds P :=
        hleft.of_subset (by rw [consume_entries]; exact List.Subset.refl _)
      simp only
      cases hconsume : left.consume page.nonce claims.expiresAt consumed with
      | mk fresh used =>
        rw [hconsume] at kept
        cases fresh with
        | true =>
          refine ⟨?_, kept⟩
          rintro _ ⟨⟩
          exact hfound page rfl
        | false => exact ⟨by simp, kept⟩

theorem Holds.release (h : r.Holds P) (nonce : String) : (r.release nonce).Holds P := h

theorem Holds.reset (r : Registry) (generation : UInt64) : (r.reset generation).Holds P :=
  fun _ he => absurd he List.not_mem_nil

theorem resolve_generation (r : Registry) (claims : PageClaims) (now : Int64) :
    (r.resolve claims now).2.generation = r.generation := by
  have kept := r.lookup_generation claims.fingerprint now
  rw [resolve]
  split
  next => rfl
  next =>
    cases hlookup : r.lookup claims.fingerprint now with
    | mk found left =>
      rw [hlookup] at kept
      cases found with
      | none => exact kept
      | some q =>
        simp only
        split <;> exact kept

theorem redeem_generation (r : Registry) (claims : PageClaims) (lookedUp consumed : Int64) :
    (r.redeem claims lookedUp consumed).2.generation = r.generation := by
  have kept := r.resolve_generation claims lookedUp
  rw [redeem]
  cases hresolve : r.resolve claims lookedUp with
  | mk found left =>
    rw [hresolve] at kept
    cases found with
    | error e => exact kept
    | ok page =>
      simp only [consume]
      split
      next h =>
        split at h
        · cases h
        · cases h; exact kept
      next h =>
        split at h
        · cases h; exact kept
        · cases h

theorem register_ttl (r : Registry) (q : CompiledQuery) (now : Int64) :
    (r.register q now).2.ttl = r.ttl := by
  rw [register]
  split
  · rfl
  · split <;> rfl

theorem lookup_ttl (r : Registry) (fingerprint : String) (now : Int64) :
    (r.lookup fingerprint now).2.ttl = r.ttl := by
  rw [lookup]
  split
  · rfl
  · split <;> rfl

/-- The last use of every entry has the property. -/
def LastUses (r : Registry) (P : Int64 → Prop) : Prop := ∀ e ∈ r.entries, P e.2.lastUsed

section LastUses

variable {P : Int64 → Prop} {r r' : Registry} {now : Int64}

theorem LastUses.of_subset (h : r.LastUses P) (hsub : r'.entries ⊆ r.entries) : r'.LastUses P :=
  fun e he => h e (hsub he)

theorem LastUses.of_lookup (h : r.LastUses P) {fingerprint : String} {e : LiveQuery}
    (he : r.entries.lookup fingerprint = some e) : P e.lastUsed := by
  obtain ⟨before, after, hentries, -⟩ := List.lookup_eq_some_iff.mp he
  exact h (fingerprint, e) (by simp [hentries])

theorem LastUses.purge (h : r.LastUses P) (now : Int64) : (r.purge now).LastUses P :=
  h.of_subset List.filter_sublist.subset

theorem LastUses.touch (h : r.LastUses P) (hnow : P now) (fingerprint : String) :
    (r.touch fingerprint now).LastUses P := by
  intro e he
  obtain ⟨e', he', rfl⟩ := List.mem_map.mp he
  split
  next => exact hnow
  next => exact h e' he'

theorem LastUses.register (h : r.LastUses P) (hnow : P now) (q : CompiledQuery) :
    (r.register q now).2.LastUses P := by
  have purged := h.purge now
  rw [Registry.register]
  split
  next => exact purged
  next =>
    split
    next => exact purged.touch hnow _
    next =>
      intro e he
      rcases List.mem_append.mp he with he | he
      · exact purged e he
      · cases List.mem_singleton.mp he
        exact hnow

theorem LastUses.lookup (h : r.LastUses P) (hnow : P now) (fingerprint : String) :
    (r.lookup fingerprint now).2.LastUses P := by
  rw [Registry.lookup]
  split
  next => exact h
  next =>
    split
    next => exact h.touch hnow _
    next => exact h.of_subset List.filter_sublist.subset

/-- Where every difference fits, no call breaks off in any build. -/
theorem LastUses.purge?_eq_some (h : r.LastUses fun t => Overflow.subFits now t = true)
    (o : Overflow) : r.purge? o now = some (r.purge now) := by
  rw [purge?, List.all_eq_true.mpr h]
  exact o.result?_true _

theorem LastUses.register?_eq_some (h : r.LastUses fun t => Overflow.subFits now t = true)
    (o : Overflow) (q : CompiledQuery) : r.register? o q now = some (r.register q now) := by
  rw [register?, List.all_eq_true.mpr h]
  exact o.result?_true _

theorem LastUses.lookup?_eq_some (h : r.LastUses fun t => Overflow.subFits now t = true)
    (o : Overflow) (fingerprint : String) :
    r.lookup? o fingerprint now = some (r.lookup fingerprint now) := by
  rw [lookup?]
  cases he : r.entries.lookup fingerprint with
  | none => exact o.result?_true _
  | some e =>
    rw [Option.all_some, h.of_lookup he]
    exact o.result?_true _

/-- A build that checks makes a call only where every difference fits. -/
theorem LastUses.of_purge? {left : Registry} (h : r.purge? .stops now = some left) :
    r.LastUses (fun t => Overflow.subFits now t = true) ∧ r.purge now = left := by
  obtain ⟨hfits, hleft⟩ := Overflow.result?_eq_some_iff.mp h
  exact ⟨List.all_eq_true.mp (hfits rfl), hleft⟩

theorem LastUses.of_register? {q : CompiledQuery} {made : CompiledQuery × Registry}
    (h : r.register? .stops q now = some made) :
    r.LastUses (fun t => Overflow.subFits now t = true) ∧ r.register q now = made := by
  obtain ⟨hfits, hmade⟩ := Overflow.result?_eq_some_iff.mp h
  exact ⟨List.all_eq_true.mp (hfits rfl), hmade⟩

end LastUses

theorem lookup_map (f : String → LiveQuery → LiveQuery) (entries : List (String × LiveQuery))
    (fingerprint : String) :
    (entries.map fun e => (e.1, f e.1 e.2)).lookup fingerprint =
      (entries.lookup fingerprint).map (f fingerprint) := by
  induction entries with
  | nil => rfl
  | cons e entries ih =>
    rw [List.map_cons, List.lookup_cons, List.lookup_cons]
    by_cases hname : fingerprint = e.1
    · subst hname
      simp only [beq_self_eq_true, Option.map_some]
    · simp only [beq_false_of_ne hname, ih]

theorem lookup_touch (r : Registry) (used : String) (now : Int64) (fingerprint : String) :
    (r.touch used now).entries.lookup fingerprint =
      (r.entries.lookup fingerprint).map fun e =>
        if fingerprint = used then { e with lastUsed := now } else e := by
  rw [← lookup_map fun fingerprint e => if fingerprint = used then { e with lastUsed := now } else e]
  refine congrArg (List.lookup fingerprint) (List.map_congr_left fun e _ => ?_)
  split <;> rfl

theorem keys_touch (r : Registry) (fingerprint : String) (now : Int64) :
    (r.touch fingerprint now).entries.map Prod.fst = r.entries.map Prod.fst := by
  rw [touch, List.map_map]
  refine List.map_congr_left fun e _ => ?_
  rw [Function.comp_apply]
  split <;> rfl

section NewKey

variable {entries : List (String × LiveQuery)} {fingerprint : String}
  (h : entries.lookup fingerprint = none)

include h

theorem not_mem_keys : fingerprint ∉ entries.map Prod.fst := by
  intro hmem
  obtain ⟨e, he, hname⟩ := List.mem_map.mp hmem
  have hdiffers := List.lookup_eq_none_iff.mp h e he
  simp [hname] at hdiffers

theorem nodup_keys_concat (hkeys : (entries.map Prod.fst).Nodup) (e : LiveQuery) :
    ((entries ++ [(fingerprint, e)]).map Prod.fst).Nodup := by
  rw [List.map_append, List.map_singleton]
  refine List.nodup_append.mpr ⟨hkeys, List.pairwise_singleton _ _, ?_⟩
  intro x hx y hy hxy
  rw [hxy, List.mem_singleton.mp hy] at hx
  exact not_mem_keys h hx

theorem lookup_concat (e : LiveQuery) (name : String) :
    (entries ++ [(fingerprint, e)]).lookup name =
      if fingerprint = name then some e else entries.lookup name := by
  rw [List.lookup_append, List.lookup_cons, List.lookup_nil]
  by_cases hsame : fingerprint = name
  · subst hsame
    simp [h]
  · simp [hsame, beq_false_of_ne (Ne.symm hsame)]

end NewKey

/-- Where no fingerprint is there twice, dropping entries brings no other to light. -/
theorem lookup_filter {entries : List (String × LiveQuery)} (h : (entries.map Prod.fst).Nodup)
    (keep : String × LiveQuery → Bool) (fingerprint : String) :
    (entries.filter keep).lookup fingerprint =
      (entries.lookup fingerprint).filter fun e => keep (fingerprint, e) := by
  induction entries with
  | nil => rfl
  | cons e entries ih =>
    obtain ⟨hname, hrest⟩ := List.nodup_cons.mp h
    have hrest := ih hrest
    rw [List.lookup_cons, List.filter_cons]
    by_cases hsame : fingerprint = e.1
    · subst hsame
      have hother : entries.lookup e.1 = none := by
        refine List.lookup_eq_none_iff.mpr fun x hx => ?_
        have hne : x.1 ≠ e.1 := fun hx' => hname (hx' ▸ List.mem_map_of_mem hx)
        simpa using hne.symm
      simp only [beq_self_eq_true, Option.filter_some]
      split
      next => rw [List.lookup_cons, beq_self_eq_true]
      next => rw [hrest, hother, Option.filter_none]
    · simp only [beq_false_of_ne hsame]
      rw [← hrest]
      split
      next => rw [List.lookup_cons, beq_false_of_ne hsame]
      next => rfl

theorem register_of_generation_ne {r : Registry} {q : CompiledQuery}
    (h : q.generation ≠ r.generation) (now : Int64) : r.register q now = (q, r.purge now) :=
  if_pos h

theorem register_of_generation_eq {r : Registry} {q : CompiledQuery}
    (h : q.generation = r.generation) (now : Int64) :
    r.register q now =
      match (r.purge now).entries.lookup q.fingerprint with
      | some e => (e.query, (r.purge now).touch q.fingerprint now)
      | none =>
        (q, { r.purge now with entries := (r.purge now).entries ++ [(q.fingerprint, ⟨q, now⟩)] }) :=
  if_neg (not_not_intro h)

theorem isFresh_iff {r : Registry} {now : Int64} {e : LiveQuery}
    (hfits : Overflow.subFits now e.lastUsed = true) :
    r.isFresh now e = true ↔ now.toInt ≤ e.lastUsed.toInt + r.ttl.toInt := by
  rw [Overflow.subFits, beq_iff_eq] at hfits
  rw [isFresh, decide_eq_true_iff, Int64.le_iff_toInt_le, hfits]
  omega

theorem lookup_of_isFresh {r : Registry} {fingerprint : String} {now : Int64} {e : LiveQuery}
    (he : r.entries.lookup fingerprint = some e) (hnow : r.isFresh now e = true) :
    r.lookup fingerprint now = (some e.query, r.touch fingerprint now) := by
  rw [lookup, he]
  exact if_pos hnow

theorem lookup_eq_some_iff (r : Registry) (fingerprint : String) (now : Int64) (q : CompiledQuery) :
    (r.lookup fingerprint now).1 = some q ↔
      ∃ e, r.entries.lookup fingerprint = some e ∧ r.isFresh now e = true ∧ e.query = q := by
  rw [lookup]
  cases r.entries.lookup fingerprint with
  | none => simp
  | some e =>
    simp only [Option.some.injEq, exists_eq_left']
    split
    next hnow => simp [hnow]
    next hnow => simp [hnow]

/-- Claims resolve to a page of the query that is live under their fingerprint. -/
theorem resolve_eq_ok_iff_lookup (r : Registry) (claims : PageClaims) (now : Int64)
    (page : ResolvedPage) :
    (r.resolve claims now).1 = .ok page ↔
      claims.generation = r.generation ∧
        ∃ q, (r.lookup claims.fingerprint now).1 = some q ∧ q.accepts claims.cursor = true ∧
          claims.pageOf q = page := by
  rw [resolve]
  split
  next hother => simp [hother]
  next hsame =>
    rw [Decidable.not_not] at hsame
    simp only [hsame, true_and]
    cases hlookup : r.lookup claims.fingerprint now with
    | mk found left =>
      cases found with
      | none => simp
      | some q =>
        simp only [Option.some.injEq, exists_eq_left']
        split
        next haccepts => simp only [haccepts, true_and, Except.ok.injEq]; rfl
        next haccepts => simp [haccepts]

/-- Claims that do not resolve are stale. -/
theorem resolve_eq_error {r : Registry} {claims : PageClaims} {now : Int64} {err : TokenError}
    (h : (r.resolve claims now).1 = .error err) : err = .staleQuery := by
  rw [resolve] at h
  split at h
  next =>
    cases h
    rfl
  next =>
    split at h
    next =>
      cases h
      rfl
    next =>
      split at h
      next => cases h
      next =>
        cases h
        rfl

/-- The query that claims resolve to is then used. -/
theorem resolve_of_ok {r : Registry} {claims : PageClaims} {now : Int64} {page : ResolvedPage}
    (h : (r.resolve claims now).1 = .ok page) :
    (r.resolve claims now).2 = r.touch claims.fingerprint now := by
  obtain ⟨hsame, q, hq, haccepts, -⟩ := (r.resolve_eq_ok_iff_lookup claims now page).mp h
  obtain ⟨e, hentry, hnow, rfl⟩ := (r.lookup_eq_some_iff _ _ _).mp hq
  rw [resolve, if_neg (not_not_intro hsame),
    lookup_of_isFresh hentry hnow]
  simp only [haccepts, if_true]

end Registry

end CatalogQuery
