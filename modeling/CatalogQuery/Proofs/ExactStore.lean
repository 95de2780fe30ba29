import CatalogQuery.Proofs.IdleQueries
/-!
# Forgetting in time

A registry forgets late. A query that was idle for too long and the nonce of an expired token stay
until some call comes upon them: registering a query drops all of them, looking a query up drops it
alone, using a nonce drops nonces only. No answer shows this. By a clock that does not go back, a
registry answers as a store does that forgets at the exact second, as long as the differences of the
times can be held. Where one cannot, a build that checks breaks off, and one that does not takes the
longest time for none.
-/
namespace CatalogQuery

inductive RegistryCall
  | register (q : CompiledQuery) (now : Int64)
  | lookup (fingerprint : String) (now : Int64)
  | consume (nonce : String) (expires now : Int64)
  | release (nonce : String)
  | purge (now : Int64)
  | reset (generation : UInt64)
  deriving DecidableEq, Repr

inductive RegistryAnswer
  | registered (q : CompiledQuery)
  | found (q? : Option CompiledQuery)
  | consumed (fresh : Bool)
  deriving DecidableEq, Repr

namespace RegistryCall

def time? : RegistryCall → Option Int64
  | .register _ now | .lookup _ now | .consume _ _ now | .purge now => some now
  | .release _ | .reset _ => none

def isPurge : RegistryCall → Bool
  | .purge _ => true
  | _ => false

/-- The times of the calls never go back. -/
def InOrder (calls : List RegistryCall) : Prop := (calls.filterMap time?).Pairwise (· ≤ ·)

/-- No two of the times are so far apart that their difference does not fit. -/
def InReach (calls : List RegistryCall) : Prop :=
  (calls.filterMap time?).Pairwise fun t t' => t'.toInt - t.toInt ≤ maxInt64

instance (calls : List RegistryCall) : Decidable (InOrder calls) :=
  inferInstanceAs (Decidable (List.Pairwise _ _))

instance (calls : List RegistryCall) : Decidable (InReach calls) :=
  inferInstanceAs (Decidable (List.Pairwise _ _))

end RegistryCall

/-- What a call answers, if it does, and what it leaves; nothing where it breaks off. -/
def Registry.perform? (o : Overflow) (r : Registry) :
    RegistryCall → Option (Option RegistryAnswer × Registry)
  | .register q now => (r.register? o q now).map fun (q, left) => (some (.registered q), left)
  | .lookup fingerprint now =>
    (r.lookup? o fingerprint now).map fun (q?, left) => (some (.found q?), left)
  | .consume nonce expires now =>
    some (some (.consumed (r.consume nonce expires now).1), (r.consume nonce expires now).2)
  | .release nonce => some (none, r.release nonce)
  | .purge now => (r.purge? o now).map fun left => (none, left)
  | .reset generation => some (none, r.reset generation)

def Registry.answers? (o : Overflow) (r : Registry) : List RegistryCall → Option (List RegistryAnswer)
  | [] => some []
  | c :: calls =>
    (r.perform? o c).bind fun made =>
      (made.2.answers? o calls).map fun answers => made.1.toList ++ answers

/-- A store that tells by the time of a call what still counts, and so never has to drop anything. -/
structure ExactStore where
  generation : UInt64
  ttl : Int64
  /-- The query that was stored under a fingerprint since the last reset, and its last use. -/
  stored : String → Option LiveQuery := fun _ => none
  /-- The nonces that were used and not released since, each with the expiry of its token. -/
  used : List (String × Int64) := []

namespace ExactStore

/-- What is stored under a fingerprint, if its last use is at most the lifetime ago. -/
def live? (s : ExactStore) (fingerprint : String) (now : Int64) : Option LiveQuery :=
  (s.stored fingerprint).filter fun e => decide (now.toInt - e.lastUsed.toInt ≤ s.ttl.toInt)

def use (s : ExactStore) (fingerprint : String) (q : CompiledQuery) (now : Int64) : ExactStore :=
  { s with stored := fun name => if fingerprint = name then some ⟨q, now⟩ else s.stored name }

theorem stored_use (s : ExactStore) (fingerprint : String) (q : CompiledQuery) (now : Int64)
    (name : String) : (s.use fingerprint q now).stored name =
      if fingerprint = name then some ⟨q, now⟩ else s.stored name := rfl

/-- A use of the nonce was not released, and its token has not expired. -/
def isUsed (s : ExactStore) (nonce : String) (now : Int64) : Bool :=
  s.used.any fun c => c.1 == nonce && decide (now ≤ c.2)

/-- The live query of the fingerprint is used, or else this one is stored. A query of another
generation comes back and is not stored. -/
def register (s : ExactStore) (q : CompiledQuery) (now : Int64) : CompiledQuery × ExactStore :=
  if q.generation = s.generation then
    let shared := ((s.live? q.fingerprint now).map LiveQuery.query).getD q
    (shared, s.use q.fingerprint shared now)
  else (q, s)

def lookup (s : ExactStore) (fingerprint : String) (now : Int64) : Option CompiledQuery × ExactStore :=
  match s.live? fingerprint now with
  | some e => (some e.query, s.use fingerprint e.query now)
  | none => (none, s)

def consume (s : ExactStore) (nonce : String) (expires now : Int64) : Bool × ExactStore :=
  if s.isUsed nonce now then (false, s) else (true, { s with used := s.used ++ [(nonce, expires)] })

def perform (s : ExactStore) : RegistryCall → Option RegistryAnswer × ExactStore
  | .register q now => (some (.registered (s.register q now).1), (s.register q now).2)
  | .lookup fingerprint now =>
    (some (.found (s.lookup fingerprint now).1), (s.lookup fingerprint now).2)
  | .consume nonce expires now =>
    (some (.consumed (s.consume nonce expires now).1), (s.consume nonce expires now).2)
  | .release nonce => (none, { s with used := s.used.filter fun c => c.1 ≠ nonce })
  | .purge _ => (none, s)
  | .reset generation => (none, { s with generation, stored := fun _ => none })

def answers (s : ExactStore) : List RegistryCall → List RegistryAnswer
  | [] => []
  | c :: calls => (s.perform c).1.toList ++ (s.perform c).2.answers calls

theorem live?_eq_some_iff (s : ExactStore) (fingerprint : String) (now : Int64) (e : LiveQuery) :
    s.live? fingerprint now = some e ↔
      s.stored fingerprint = some e ∧ now.toInt ≤ e.lastUsed.toInt + s.ttl.toInt := by
  rw [live?, Option.filter_eq_some_iff, decide_eq_true_iff]
  exact and_congr_right fun _ => by omega

theorem isUsed_iff (s : ExactStore) (nonce : String) (now : Int64) :
    s.isUsed nonce now = true ↔ ∃ expires, (nonce, expires) ∈ s.used ∧ now ≤ expires := by
  simp only [isUsed, List.any_eq_true, Bool.and_eq_true, beq_iff_eq, decide_eq_true_iff]
  constructor
  · rintro ⟨⟨_, expires⟩, hmem, rfl, hnow⟩
    exact ⟨expires, hmem, hnow⟩
  · rintro ⟨expires, hmem, hnow⟩
    exact ⟨_, hmem, rfl, hnow⟩

/-- Nothing is there for a purge to do. -/
theorem answers_filter_isPurge (s : ExactStore) (calls : List RegistryCall) :
    s.answers (calls.filter fun c => !c.isPurge) = s.answers calls := by
  induction calls generalizing s with
  | nil => rfl
  | cons c calls ih =>
    cases c with
    | purge now => exact ih s
    | register | lookup | consume | release | reset =>
      exact congrArg (List.append _) (ih _)

end ExactStore

namespace Registry

theorem consume_eq_ite {r : Registry} {nonce : String} {expires now : Int64} {used : Bool}
    (h : (r.consume nonce expires now).1 = !used) :
    r.consume nonce expires now =
      if used then (false, r.dropExpired now)
      else (true, { r.dropExpired now with
        consumed := (r.dropExpired now).consumed ++ [(nonce, expires)] }) := by
  rw [consume] at h ⊢
  cases used with
  | true =>
    split at h
    next hheld => exact if_pos hheld
    next => cases h
  | false =>
    split at h
    next => cases h
    next hheld => exact if_neg hheld

/-- From a time on the two hold the same, as far as it counts by then. -/
structure Matches (r : Registry) (s : ExactStore) (now : Int64) : Prop where
  generation : r.generation = s.generation
  ttl : r.ttl = s.ttl
  keys : (r.entries.map Prod.fst).Nodup
  live : ∀ fingerprint e, now.toInt ≤ e.lastUsed.toInt + s.ttl.toInt →
    (r.entries.lookup fingerprint = some e ↔ s.stored fingerprint = some e)
  used : ∀ c : String × Int64, now ≤ c.2 → (c ∈ r.consumed ↔ c ∈ s.used)

namespace Matches

variable {r r' : Registry} {s : ExactStore} {now t : Int64}

theorem empty (generation : UInt64) (ttl now : Int64) :
    Matches { generation, ttl } { generation, ttl } now where
  generation := rfl
  ttl := rfl
  keys := List.nodup_nil
  live _ _ _ := Iff.rfl
  used _ _ := Iff.rfl

theorem later (h : r.Matches s now) (ht : now ≤ t) : r.Matches s t where
  generation := h.generation
  ttl := h.ttl
  keys := h.keys
  live fingerprint e hlive :=
    h.live fingerprint e (Int.le_trans (Int64.le_iff_toInt_le.mp ht) hlive)
  used c hc := h.used c (Int64.le_trans ht hc)

/-- Entries that are not live any more may go. -/
theorem filter (h : r.Matches s now) (keep : String × LiveQuery → Bool)
    (hkeep : ∀ fingerprint e, r.entries.lookup fingerprint = some e →
      now.toInt ≤ e.lastUsed.toInt + s.ttl.toInt → keep (fingerprint, e) = true) :
    Matches { r with entries := r.entries.filter keep } s now where
  generation := h.generation
  ttl := h.ttl
  keys := h.keys.sublist (List.filter_sublist.map Prod.fst)
  live fingerprint e hlive := by
    rw [← h.live fingerprint e hlive, lookup_filter h.keys, Option.filter_eq_some_iff]
    exact and_iff_left_of_imp fun hlookup => hkeep fingerprint e hlookup hlive
  used := h.used

theorem dropExpired (h : r.Matches s now) : (r.dropExpired now).Matches s now where
  generation := h.generation
  ttl := h.ttl
  keys := h.keys
  live := h.live
  used c hc := by
    rw [← h.used c hc, Registry.dropExpired, List.mem_filter, decide_eq_true_iff]
    exact and_iff_left hc

theorem filter_lookup_eq_live? (h : r.Matches s now) {fingerprint : String}
    (hfits : ∀ e, r.entries.lookup fingerprint = some e →
      Overflow.subFits now e.lastUsed = true) :
    (r.entries.lookup fingerprint).filter (r.isFresh now) = s.live? fingerprint now := by
  ext e
  rw [Option.filter_eq_some_iff, ExactStore.live?_eq_some_iff]
  constructor
  · rintro ⟨he, hfresh⟩
    rw [isFresh_iff (hfits e he), h.ttl] at hfresh
    exact ⟨(h.live fingerprint e hfresh).mp he, hfresh⟩
  · rintro ⟨hstored, hlive⟩
    have he := (h.live fingerprint e hlive).mpr hstored
    rw [isFresh_iff (hfits e he), h.ttl]
    exact ⟨he, hlive⟩

section Fits

variable (h : r.Matches s now) (hfits : r.LastUses fun t => Overflow.subFits now t = true)

include h hfits

theorem purge : (r.purge now).Matches s now := by
  refine h.dropExpired.filter (fun e => r.isFresh now e.2) fun _ e he hlive => ?_
  rw [isFresh_iff (hfits.of_lookup he), h.ttl]
  exact hlive

/-- The entries that a purge leaves are the live ones. -/
theorem lookup_purge (fingerprint : String) :
    (r.purge now).entries.lookup fingerprint = s.live? fingerprint now := by
  have hentries : (r.purge now).entries = r.entries.filter fun e => r.isFresh now e.2 := rfl
  rw [hentries, lookup_filter h.keys]
  exact h.filter_lookup_eq_live? fun _ => hfits.of_lookup

end Fits

/-- A query that is used is there with its last use in both. -/
theorem use (h : r.Matches s now) {fingerprint : String} {q : CompiledQuery}
    (hgeneration : r'.generation = r.generation) (httl : r'.ttl = r.ttl)
    (hconsumed : r'.consumed = r.consumed) (hkeys : (r'.entries.map Prod.fst).Nodup)
    (hlookup : ∀ name, r'.entries.lookup name =
      if fingerprint = name then some ⟨q, t⟩ else r.entries.lookup name) :
    r'.Matches (s.use fingerprint q t) now where
  generation := hgeneration.trans h.generation
  ttl := httl.trans h.ttl
  keys := hkeys
  live name e hlive := by
    rw [hlookup, ExactStore.stored_use]
    split
    next => exact Iff.rfl
    next => exact h.live name e hlive
  used := by
    rw [hconsumed]
    exact h.used

theorem touch (h : r.Matches s now) {fingerprint : String} {e : LiveQuery}
    (he : r.entries.lookup fingerprint = some e) :
    (r.touch fingerprint t).Matches (s.use fingerprint e.query t) now := by
  refine h.use rfl rfl rfl ?_ fun name => ?_
  · rw [keys_touch]
    exact h.keys
  · rw [lookup_touch]
    by_cases hname : fingerprint = name
    · subst hname
      rw [he, Option.map_some, if_pos rfl, if_pos rfl]
    · simp only [if_neg hname, if_neg (Ne.symm hname), Option.map_id']

/-- A query that is stored is the first of its fingerprint. -/
theorem store (h : r.Matches s now) {q : CompiledQuery}
    (hnone : r.entries.lookup q.fingerprint = none) :
    Matches { r with entries := r.entries ++ [(q.fingerprint, ⟨q, t⟩)] }
      (s.use q.fingerprint q t) now :=
  h.use rfl rfl rfl (nodup_keys_concat hnone h.keys _) (lookup_concat hnone _)

theorem register (h : r.Matches s now)
    (hfits : r.LastUses fun t => Overflow.subFits now t = true) (q : CompiledQuery) :
    (r.register q now).1 = (s.register q now).1 ∧
      (r.register q now).2.Matches (s.register q now).2 now := by
  have hpurged := h.purge hfits
  rw [ExactStore.register, ← h.generation, ← h.lookup_purge hfits]
  by_cases hq : q.generation = r.generation
  · rw [register_of_generation_eq hq, if_pos hq]
    cases he : (r.purge now).entries.lookup q.fingerprint with
    | some e => exact ⟨rfl, hpurged.touch he⟩
    | none => exact ⟨rfl, hpurged.store he⟩
  · rw [register_of_generation_ne hq, if_neg hq]
    exact ⟨rfl, hpurged⟩

theorem lookup (h : r.Matches s now) {fingerprint : String}
    (hfits : ∀ e, r.entries.lookup fingerprint = some e →
      Overflow.subFits now e.lastUsed = true) :
    (r.lookup fingerprint now).1 = (s.lookup fingerprint now).1 ∧
      (r.lookup fingerprint now).2.Matches (s.lookup fingerprint now).2 now := by
  rw [Registry.lookup, ExactStore.lookup, ← h.filter_lookup_eq_live? hfits]
  cases he : r.entries.lookup fingerprint with
  | none => exact ⟨rfl, h⟩
  | some e =>
    by_cases hfresh : r.isFresh now e = true
    · simp only [Option.filter_some, hfresh, if_true]
      exact ⟨trivial, h.touch he⟩
    · simp only [Option.filter_some, hfresh, Bool.false_eq_true, if_false]
      refine ⟨trivial, h.filter _ fun name e' he' hlive => ?_⟩
      rw [decide_eq_true_eq]
      rintro rfl
      rw [he] at he'
      cases he'
      rw [isFresh_iff (hfits e he), h.ttl] at hfresh
      exact hfresh hlive

/-- A nonce that is used is there in both. -/
theorem concat (h : r.Matches s now) (more : List (String × Int64)) :
    Matches { r with consumed := r.consumed ++ more } { s with used := s.used ++ more } now where
  generation := h.generation
  ttl := h.ttl
  keys := h.keys
  live := h.live
  used c hc := by rw [List.mem_append, List.mem_append, h.used c hc]

theorem consume (h : r.Matches s now) (nonce : String) (expires : Int64) :
    (r.consume nonce expires now).1 = (s.consume nonce expires now).1 ∧
      (r.consume nonce expires now).2.Matches (s.consume nonce expires now).2 now := by
  have hfree : (r.consume nonce expires now).1 = !s.isUsed nonce now := by
    rw [Bool.eq_iff_iff, consume_eq_true_iff, Bool.not_eq_true', ← Bool.not_eq_true,
      ExactStore.isUsed_iff]
    constructor
    · rintro hpast ⟨expiry, hmem, hnow⟩
      have hlt := hpast _ ((h.used _ hnow).mpr hmem) rfl
      exact absurd (Int64.le_iff_toInt_le.mp hnow) (Int.not_le.mpr hlt)
    · rintro hunused ⟨name, expiry⟩ hmem rfl
      refine Int.not_le.mp fun hlate => ?_
      have hnow := Int64.le_iff_toInt_le.mpr hlate
      refine hunused ⟨expiry, ?_, hnow⟩
      exact (h.used _ hnow).mp hmem
  rw [consume_eq_ite hfree, ExactStore.consume]
  cases s.isUsed nonce now with
  | true => exact ⟨rfl, h.dropExpired⟩
  | false => exact ⟨rfl, h.dropExpired.concat [(nonce, expires)]⟩

theorem release (h : r.Matches s now) (nonce : String) :
    (r.release nonce).Matches { s with used := s.used.filter fun c => c.1 ≠ nonce } now where
  generation := h.generation
  ttl := h.ttl
  keys := h.keys
  live := h.live
  used c hc := by
    rw [Registry.release, List.mem_filter, List.mem_filter, h.used c hc]

theorem reset (h : r.Matches s now) (generation : UInt64) :
    (r.reset generation).Matches { s with generation, stored := fun _ => none } now where
  generation := rfl
  ttl := h.ttl
  keys := List.nodup_nil
  live _ _ _ := Iff.rfl
  used := h.used

/-- A call in which no difference is too long is made in every build. It has the same answer from both,
and leaves them holding the same. -/
theorem perform? (h : r.Matches s now) {c : RegistryCall} (hc : ∀ t, c.time? = some t → t = now)
    {answer? : Option RegistryAnswer} (hanswer : r.perform? .stops c = some (answer?, r')) :
    (∀ o, r.perform? o c = some (answer?, r')) ∧ answer? = (s.perform c).1 ∧
      r'.Matches (s.perform c).2 now := by
  cases c with
  | register q t =>
    obtain rfl := hc t rfl
    obtain ⟨⟨shared, left⟩, hregister, ⟨⟩⟩ := Option.map_eq_some_iff.mp hanswer
    obtain ⟨hfits, hregistered⟩ := LastUses.of_register? hregister
    obtain ⟨hsame, hleft⟩ := h.register hfits q
    rw [hregistered] at hsame hleft
    refine ⟨fun o => ?_, congrArg (fun q => some (RegistryAnswer.registered q)) hsame, hleft⟩
    rw [Registry.perform?, hfits.register?_eq_some, hregistered]
    rfl
  | lookup fingerprint t =>
    obtain rfl := hc t rfl
    obtain ⟨⟨found, left⟩, hlookup, ⟨⟩⟩ := Option.map_eq_some_iff.mp hanswer
    obtain ⟨hfits, hfound⟩ := Overflow.result?_eq_some_iff.mp hlookup
    have hfits := hfits rfl
    obtain ⟨hsame, hleft⟩ := h.lookup fun e he => by rwa [he] at hfits
    rw [hfound] at hsame hleft
    refine ⟨fun o => ?_, congrArg (fun q? => some (RegistryAnswer.found q?)) hsame, hleft⟩
    rw [Registry.perform?, Registry.lookup?, hfits, Overflow.result?_true, hfound]
    rfl
  | consume nonce expires t =>
    obtain rfl := hc t rfl
    cases hanswer
    obtain ⟨hsame, hleft⟩ := h.consume nonce expires
    exact ⟨fun _ => rfl, congrArg (fun fresh => some (RegistryAnswer.consumed fresh)) hsame, hleft⟩
  | release nonce =>
    cases hanswer
    exact ⟨fun _ => rfl, rfl, h.release nonce⟩
  | purge t =>
    obtain rfl := hc t rfl
    obtain ⟨left, hpurge, ⟨⟩⟩ := Option.map_eq_some_iff.mp hanswer
    obtain ⟨hfits, rfl⟩ := LastUses.of_purge? hpurge
    refine ⟨fun o => ?_, rfl, h.purge hfits⟩
    rw [Registry.perform?, hfits.purge?_eq_some]
    rfl
  | reset generation =>
    cases hanswer
    exact ⟨fun _ => rfl, rfl, h.reset generation⟩

/-- So are the answers to calls from the time on. -/
theorem answers?_eq (h : r.Matches s now) {calls : List RegistryCall}
    (hfrom : ∀ t ∈ calls.filterMap RegistryCall.time?, now ≤ t)
    (hcalls : RegistryCall.InOrder calls) {answers : List RegistryAnswer}
    (hanswers : r.answers? .stops calls = some answers) :
    (∀ o, r.answers? o calls = some answers) ∧ answers = s.answers calls := by
  induction calls generalizing r s now answers with
  | nil =>
    cases hanswers
    exact ⟨fun _ => rfl, rfl⟩
  | cons c calls ih =>
    obtain ⟨⟨answer?, left⟩, hanswer, hrest⟩ := Option.bind_eq_some_iff.mp hanswers
    obtain ⟨rest, hanswered, rfl⟩ := Option.map_eq_some_iff.mp hrest
    have hnext {now' : Int64} (hnow : r.Matches s now') (hc : ∀ t, c.time? = some t → t = now')
        (hfrom : ∀ t ∈ calls.filterMap RegistryCall.time?, now' ≤ t)
        (hcalls : RegistryCall.InOrder calls) :
        (∀ o, r.answers? o (c :: calls) = some (answer?.toList ++ rest)) ∧
          answer?.toList ++ rest = s.answers (c :: calls) := by
      obtain ⟨hevery, rfl, hleft⟩ := hnow.perform? hc hanswer
      obtain ⟨hall, rfl⟩ := ih hleft hfrom hcalls hanswered
      refine ⟨fun o => ?_, rfl⟩
      rw [Registry.answers?, hevery, Option.bind_some, hall]
      rfl
    rw [RegistryCall.InOrder] at hcalls
    cases hc : c.time? with
    | none =>
      rw [List.filterMap_cons_none hc] at hfrom hcalls
      exact hnext h (by simp [hc]) hfrom hcalls
    | some t =>
      rw [List.filterMap_cons_some hc] at hfrom hcalls
      obtain ⟨hlater, hrest⟩ := List.pairwise_cons.mp hcalls
      exact hnext (h.later (hfrom t List.mem_cons_self)) (by simp [hc]) hlater hrest

end Matches

theorem exists_le_times {calls : List RegistryCall} (h : RegistryCall.InOrder calls) :
    ∃ now, ∀ t ∈ calls.filterMap RegistryCall.time?, now ≤ t := by
  rw [RegistryCall.InOrder] at h
  cases htimes : calls.filterMap RegistryCall.time? with
  | nil => exact ⟨0, by simp⟩
  | cons t times =>
    rw [htimes] at h
    refine ⟨t, fun t' ht' => ?_⟩
    rcases List.mem_cons.mp ht' with rfl | ht'
    · exact Int64.le_refl _
    · exact List.rel_of_pairwise_cons h ht'

/-- A call to a time from which no last use is too far is made, and uses a query at no other time. -/
theorem LastUses.exists_perform? {r : Registry} {P : Int64 → Prop} (h : r.LastUses P)
    {c : RegistryCall} (hc : ∀ t, c.time? = some t →
      P t ∧ r.LastUses fun used => Overflow.subFits t used = true) (o : Overflow) :
    ∃ answer? left, r.perform? o c = some (answer?, left) ∧ left.LastUses P := by
  cases c with
  | register q t =>
    obtain ⟨ht, hfits⟩ := hc t rfl
    refine ⟨some (.registered (r.register q t).1), _, ?_, h.register ht q⟩
    rw [Registry.perform?, hfits.register?_eq_some]
    rfl
  | lookup fingerprint t =>
    obtain ⟨ht, hfits⟩ := hc t rfl
    refine ⟨some (.found (r.lookup fingerprint t).1), _, ?_, h.lookup ht fingerprint⟩
    rw [Registry.perform?, hfits.lookup?_eq_some]
    rfl
  | consume nonce expires t =>
    refine ⟨_, _, rfl, h.of_subset ?_⟩
    rw [consume_entries]
    exact List.Subset.refl _
  | release nonce => exact ⟨_, _, rfl, h⟩
  | purge t =>
    obtain ⟨-, hfits⟩ := hc t rfl
    refine ⟨none, _, ?_, h.purge t⟩
    rw [Registry.perform?, hfits.purge?_eq_some]
    rfl
  | reset generation => exact ⟨_, _, rfl, fun _ he => absurd he List.not_mem_nil⟩

/-- Calls within reach of each other and of the last uses are all made. -/
theorem LastUses.exists_answers? {r : Registry} {calls : List RegistryCall}
    (h : r.LastUses fun used => ∀ t ∈ calls.filterMap RegistryCall.time?,
      Overflow.subFits t used = true)
    (hcalls : RegistryCall.InOrder calls) (hreach : RegistryCall.InReach calls) (o : Overflow) :
    ∃ answers, r.answers? o calls = some answers := by
  induction calls generalizing r with
  | nil => exact ⟨[], rfl⟩
  | cons c calls ih =>
    have hnext (hlater : r.LastUses fun used => ∀ t ∈ calls.filterMap RegistryCall.time?,
          Overflow.subFits t used = true)
        (hc : ∀ t, c.time? = some t →
          (∀ t' ∈ calls.filterMap RegistryCall.time?, Overflow.subFits t' t = true) ∧
            r.LastUses fun used => Overflow.subFits t used = true)
        (hcalls : RegistryCall.InOrder calls) (hreach : RegistryCall.InReach calls) :
        ∃ answers, r.answers? o (c :: calls) = some answers := by
      obtain ⟨answer?, left, hanswer, hleft⟩ := hlater.exists_perform? hc o
      obtain ⟨answers, hanswers⟩ := ih hleft hcalls hreach
      refine ⟨answer?.toList ++ answers, ?_⟩
      rw [Registry.answers?, hanswer, Option.bind_some, hanswers]
      rfl
    rw [RegistryCall.InOrder] at hcalls
    rw [RegistryCall.InReach] at hreach
    cases hc : c.time? with
    | none =>
      rw [List.filterMap_cons_none hc] at h hcalls hreach
      exact hnext h (by simp [hc]) hcalls hreach
    | some t =>
      rw [List.filterMap_cons_some hc] at h hcalls hreach
      obtain ⟨hlater, hrest⟩ := List.pairwise_cons.mp hcalls
      obtain ⟨hnear, hreach⟩ := List.pairwise_cons.mp hreach
      refine hnext (fun e he t' ht' => h e he t' (List.mem_cons_of_mem t ht')) ?_ hrest hreach
      intro t₀ ht₀
      obtain rfl : t = t₀ := Option.some.inj (hc.symm.trans ht₀)
      refine ⟨fun t' ht' => ?_, fun e he => h e he t List.mem_cons_self⟩
      have hle := Int64.le_iff_toInt_le.mp (hlater t' ht')
      have hlow : minInt64 ≤ 0 := by decide
      exact Overflow.subFits_of_bounds (by omega) (hnear t' ht')

/-- By a clock that does not go back, whatever a build that checks answers to a sequence of calls is what
the store answers that forgets at the exact second, and every build answers so. Where the times are
within reach of each other, each build does answer, and so as it answers the same calls with other purges
between. -/
theorem answers?_eq_exact (generation : UInt64) (ttl : Int64) {calls : List RegistryCall}
    (hcalls : RegistryCall.InOrder calls) :
    (∀ answers, Registry.answers? .stops { generation, ttl } calls = some answers →
        answers = ExactStore.answers { generation, ttl } calls ∧
          ∀ o, Registry.answers? o { generation, ttl } calls = some answers) ∧
      (RegistryCall.InReach calls → ∀ o, Registry.answers? o { generation, ttl } calls =
          some (ExactStore.answers { generation, ttl } calls) ∧
        ∀ others, RegistryCall.InOrder others → RegistryCall.InReach others →
          (others.filter fun c => !c.isPurge) = (calls.filter fun c => !c.isPurge) →
            Registry.answers? o { generation, ttl } others =
              Registry.answers? o { generation, ttl } calls) := by
  have hexact {calls : List RegistryCall} (hcalls : RegistryCall.InOrder calls)
      {answers : List RegistryAnswer}
      (hanswers : Registry.answers? .stops { generation, ttl } calls = some answers) :
      (∀ o, Registry.answers? o { generation, ttl } calls = some answers) ∧
        answers = ExactStore.answers { generation, ttl } calls := by
    obtain ⟨now, hfrom⟩ := exists_le_times hcalls
    exact (Matches.empty generation ttl now).answers?_eq hfrom hcalls hanswers
  have hevery {calls : List RegistryCall} (hcalls : RegistryCall.InOrder calls)
      (hreach : RegistryCall.InReach calls) (o : Overflow) :
      Registry.answers? o { generation, ttl } calls =
        some (ExactStore.answers { generation, ttl } calls) := by
    have hempty : LastUses { generation, ttl } fun used =>
        ∀ t ∈ calls.filterMap RegistryCall.time?, Overflow.subFits t used = true :=
      fun _ he => absurd he List.not_mem_nil
    obtain ⟨answers, hanswers⟩ := hempty.exists_answers? hcalls hreach .stops
    obtain ⟨hall, rfl⟩ := hexact hcalls hanswers
    exact hall o
  refine ⟨fun answers hanswers => (hexact hcalls hanswers).symm, fun hreach o => ?_⟩
  refine ⟨hevery hcalls hreach o, fun others hothers hreach' hsame => ?_⟩
  rw [hevery hothers hreach', hevery hcalls hreach, ← ExactStore.answers_filter_isPurge, hsame,
    ExactStore.answers_filter_isPurge]

end Registry

namespace IdleBooks

/-- The query is idle for a second too long before the last look at it, and the nonce is used again
when its token has expired. -/
def calls (q : CompiledQuery) : List RegistryCall :=
  [.register q 100, .consume "n" 1000 100, .lookup q.fingerprint 900, .consume "n" 1000 900,
    .lookup q.fingerprint 1801, .consume "n" 2000 1801]

theorem exactAnswers_calls {q : CompiledQuery} (hq : q.generation = 1) :
    ExactStore.answers { generation := 1, ttl := 900 } (calls q) =
      [.registered q, .consumed true, .found (some q), .consumed false, .found none,
        .consumed true] := by
  simp [calls, ExactStore.answers, ExactStore.perform, ExactStore.register, ExactStore.lookup,
    ExactStore.consume, ExactStore.live?, ExactStore.use, ExactStore.isUsed, Option.filter, hq]

/-- The registry still holds the query and the first use of the nonce when they do not count. -/
theorem answers?_calls :
    let q := ReloadedBooks.checked.compile 1
    Registry.answers? .stops { generation := 1, ttl := 900 } (calls q) =
        some [.registered q, .consumed true, .found (some q), .consumed false, .found none,
          .consumed true] ∧
      Registry.answers? .stops { generation := 1, ttl := 900 } (.purge 50 :: calls q ++ [.purge 5000]) =
        Registry.answers? .stops { generation := 1, ttl := 900 } (calls q) := by
  intro q
  have hcalls : RegistryCall.InOrder (calls q) := by decide
  have hpurged : RegistryCall.InOrder (.purge 50 :: calls q ++ [.purge 5000]) := by decide
  obtain ⟨-, hevery⟩ := Registry.answers?_eq_exact 1 900 hcalls
  obtain ⟨hexact, hsame⟩ := hevery (by decide) .stops
  refine ⟨?_, hsame _ hpurged (by decide) rfl⟩
  rw [hexact, exactAnswers_calls rfl]

/-- The query is looked up at the last second that can be told, the first one of which it was used at. -/
def farCalls (q : CompiledQuery) : List RegistryCall :=
  [.register q Int64.minValue, .lookup q.fingerprint Int64.maxValue]

theorem exactAnswers_farCalls {q : CompiledQuery} (hq : q.generation = 1) :
    ExactStore.answers { generation := 1, ttl := 900 } (farCalls q) =
      [.registered q, .found none] := by
  simp [farCalls, ExactStore.answers, ExactStore.perform, ExactStore.register, ExactStore.lookup,
    ExactStore.live?, ExactStore.use, Option.filter, hq, Int64.toInt_maxValue]

theorem answers?_eq_result? {q : CompiledQuery} (hq : q.generation = 1) (o : Overflow) :
    Registry.answers? o { generation := 1, ttl := 900 } (farCalls q) =
      o.result? false [.registered q, .found (some q)] := by
  have hregister : Registry.register { generation := 1, ttl := 900 } q Int64.minValue =
      (q, { generation := 1, ttl := 900, entries := [(q.fingerprint, ⟨q, Int64.minValue⟩)] }) := by
    simp [Registry.register, Registry.purge, Registry.dropExpired, hq]
  have hunfit : Overflow.subFits Int64.maxValue Int64.minValue = false := by decide
  have hwrapped : (Int64.maxValue - Int64.minValue : Int64) ≤ 900 := by decide
  have hfresh (entries : List (String × LiveQuery)) :
      Registry.isFresh { generation := 1, ttl := 900, entries } Int64.maxValue
        ⟨q, Int64.minValue⟩ = true := decide_eq_true hwrapped
  cases o with
  | stops =>
    simp [farCalls, Registry.answers?, Registry.perform?, Registry.register?, Registry.lookup?,
      Overflow.result?, hregister, hunfit]
  | wraps =>
    simp [farCalls, Registry.answers?, Registry.perform?, Registry.register?, Registry.lookup?,
      Overflow.result?, hregister, Registry.lookup, hfresh]

/-- The difference of the two times cannot be held, and in the low bits it is less than any lifetime:
out of reach, a build that does not check finds what is idle for too long. -/
theorem answers?_farCalls :
    let q := ReloadedBooks.checked.compile 1
    RegistryCall.InOrder (farCalls q) ∧
      ExactStore.answers { generation := 1, ttl := 900 } (farCalls q) =
        [.registered q, .found none] ∧
      Registry.answers? .wraps { generation := 1, ttl := 900 } (farCalls q) =
        some [.registered q, .found (some q)] ∧
      Registry.answers? .stops { generation := 1, ttl := 900 } (farCalls q) = none := by
  intro q
  exact ⟨by decide, exactAnswers_farCalls rfl, answers?_eq_result? rfl .wraps,
    answers?_eq_result? rfl .stops⟩

end IdleBooks

end CatalogQuery
