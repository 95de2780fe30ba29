import CatalogQuery.Engine.Opening
import CatalogQuery.Proofs.RequestLineage
/-!
# Reloads beside requests

A reload puts its catalog in use, tells the registry the next generation and is counted, in steps
between which requests take theirs. The first two are taken under a lock on the catalog. A request waits
for the lock when it takes the catalog in use, but not when it registers the query that it has compiled;
so a query of the old catalog may still come in while the registry has not been told, and then goes.
-/
namespace CatalogQuery

/-- What the reload that holds the lock on the catalog has done. -/
inductive ReloadPhase
  /-- Its catalog is in use under this generation, and the registry does not know yet. -/
  | swapped (generation : UInt64)
  /-- The registry was told the generation. -/
  | invalidated
  deriving DecidableEq

namespace Engine

/-- Puts a catalog in use, with no word to the registry. -/
def swapCatalog (e : Engine) (catalog : Catalog) : Engine :=
  { e with catalog := catalog.withGeneration (e.catalog.generation + 1) }

/-- The catalog in the file that the engine was opened with. -/
def catalogOnDisk (e : Engine) (read : String → Except FileFault String) :
    Except CatalogError Catalog :=
  match e.catalogPath with
  | none => .error noCatalogFile
  | some path => Catalog.load path (read path) 0

theorem reloadFromDisk_eq (e : Engine) (read : String → Except FileFault String) :
    e.reloadFromDisk read = (e.catalogOnDisk read).map e.reload := by
  rw [reloadFromDisk, catalogOnDisk]
  cases e.catalogPath <;> rfl

end Engine

namespace Serving

def swapCatalog (s : Serving) (catalog : Catalog) : Serving :=
  { s with engine := s.engine.swapCatalog catalog }

def invalidate (s : Serving) (generation : UInt64) : Serving where
  engine := { s.engine with codec := s.engine.codec.invalidate generation }
  pending := s.pending.map fun p => { p with reloads := p.reloads + 1 }
  minted := s.minted.map fun m => { m with since := m.since + 1 }

def countReload (s : Serving) : Serving :=
  { s with engine := { s.engine with metrics := s.engine.metrics.countReload } }

end Serving

/-- An engine that serves requests and is reloaded beside. Taken one after the other, the steps of a reload
are the reload of the engine (`Reloading.run_reload`). -/
structure Reloading where
  serving : Serving
  /-- The reload that holds the lock on the catalog. -/
  lock : Option ReloadPhase := none
  /-- The catalogs of the reloads that wait for the lock. -/
  waiting : List Catalog := []
  /-- How many reloads have given the lock back. -/
  completed : Nat := 0
  /-- How many of these are counted. -/
  counted : Nat := 0

inductive ReloadingStep
  | submit (a : Ambient) (plan : Plan)
  | present (a : Ambient) (token : String)
  | advance (i : Nat) (a : Ambient)
  /-- A reload comes in with a catalog that is at hand. -/
  | call (catalog : Catalog)
  /-- A reload comes in that reads the catalog file, which takes no lock. -/
  | callFromDisk (read : String → Except FileFault String)
  /-- The reload that waits at a position takes the lock and puts its catalog in use. -/
  | swap (i : Nat)
  | invalidate
  | unlock
  | count

namespace Reloading

def registry (s : Reloading) : Registry := s.serving.engine.codec.registry

def catalog (s : Reloading) : Catalog := s.serving.engine.catalog

/-- An engine before its first request. -/
def start (e : Engine) : Reloading where
  serving := ⟨e, [], []⟩

/-- A step that has to wait changes nothing. -/
def step (s : Reloading) : ReloadingStep → Reloading
  | .submit a plan =>
    match s.lock with
    | some _ => s
    | none => { s with serving := s.serving.step (.submit a plan) }
  | .present a token => { s with serving := s.serving.step (.present a token) }
  | .advance i a => { s with serving := s.serving.step (.advance i a) }
  | .call catalog => { s with waiting := s.waiting ++ [catalog] }
  | .callFromDisk read =>
    match s.serving.engine.catalogOnDisk read with
    | .error _ => s
    | .ok catalog => { s with waiting := s.waiting ++ [catalog] }
  | .swap i =>
    match s.lock, s.waiting[i]? with
    | none, some catalog =>
      { s with
        serving := s.serving.swapCatalog catalog
        lock := some (.swapped (s.catalog.generation + 1))
        waiting := s.waiting.eraseIdx i }
    | _, _ => s
  | .invalidate =>
    match s.lock with
    | some (.swapped generation) =>
      { s with serving := s.serving.invalidate generation, lock := some .invalidated }
    | _ => s
  | .unlock =>
    match s.lock with
    | some .invalidated => { s with lock := none, completed := s.completed + 1 }
    | _ => s
  | .count =>
    if s.counted < s.completed then
      { s with serving := s.serving.countReload, counted := s.counted + 1 }
    else s

def run (s : Reloading) (steps : List ReloadingStep) : Reloading := steps.foldl step s

@[simp] theorem run_nil (s : Reloading) : s.run [] = s := rfl

@[simp] theorem run_cons (s : Reloading) (x : ReloadingStep) (steps : List ReloadingStep) :
    s.run (x :: steps) = (s.step x).run steps := rfl

theorem run_append (s : Reloading) (steps later : List ReloadingStep) :
    s.run (steps ++ later) = (s.run steps).run later := List.foldl_append

/-- A reload that is left alone is the reload of the engine as a whole: what holds of these steps in any
order holds of it. -/
theorem run_reload {s : Reloading} (hlock : s.lock = none) (hcounted : s.counted = s.completed)
    (catalog : Catalog) :
    s.run [.call catalog, .swap s.waiting.length, .invalidate, .unlock, .count] =
      { s with
        serving := s.serving.reload catalog
        completed := s.completed + 1
        counted := s.counted + 1 } := by
  have hfound : (s.waiting ++ [catalog])[s.waiting.length]? = some catalog :=
    List.getElem?_concat_length
  have hleft : (s.waiting ++ [catalog]).eraseIdx s.waiting.length = s.waiting := by
    rw [List.eraseIdx_append_of_length_le (Nat.le_refl _), Nat.sub_self]
    exact List.append_nil _
  simp only [run_cons, run_nil, step, hlock, hfound, hleft, hcounted, Nat.lt_succ_self, if_true]
  rfl

/-- How many reloads have put their catalog in use. -/
def placed (s : Reloading) : Nat :=
  match s.lock with
  | none => s.completed
  | some _ => s.completed + 1

/-- How many reloads have told the registry. -/
def told (s : Reloading) : Nat :=
  match s.lock with
  | some .invalidated => s.completed + 1
  | _ => s.completed

/-- Catalog and registry are each as many generations on as reloads have come to them. -/
structure Isolated (first : UInt64) (s : Reloading) : Prop where
  catalog : s.catalog.generation = first + .ofNat s.placed
  registry : s.registry.generation = first + .ofNat s.told
  swapped : ∀ generation, s.lock = some (.swapped generation) → generation = s.catalog.generation
  filed : s.registry.IsFiled

namespace Isolated

variable {first : UInt64} {s : Reloading}

/-- A step of requests, of which the catalog in use and the reloads take no notice. -/
theorem serve (hs : s.Isolated first) {serving : Serving}
    (hcatalog : serving.engine.catalog = s.serving.engine.catalog)
    (hregistry : s.registry.Serves serving.engine.codec.registry) :
    Isolated first { s with serving } where
  catalog := (congrArg Catalog.generation hcatalog).trans hs.catalog
  registry := hregistry.generation.trans hs.registry
  swapped generation hlock :=
    (hs.swapped generation hlock).trans (congrArg Catalog.generation hcatalog).symm
  filed := hregistry.isFiled hs.filed

theorem advance (hs : s.Isolated first) (i : Nat) (a : Ambient) :
    Isolated first { s with serving := s.serving.advance i a } := by
  cases hp : s.serving.pending[i]? with
  | none =>
    rw [Serving.advance, hp]
    exact hs
  | some p =>
    rw [Serving.advance_eq hp]
    exact hs.serve (s.serving.engine.step_catalog a p.stage) (s.serving.engine.step_registry a p.stage)

theorem swap (hs : s.Isolated first) (hlock : s.lock = none) (catalog : Catalog)
    (waiting : List Catalog) :
    Isolated first
      { s with
        serving := s.serving.swapCatalog catalog
        lock := some (.swapped (s.catalog.generation + 1))
        waiting := waiting } where
  catalog := by
    have hplaced : s.placed = s.completed := by rw [placed, hlock]
    show s.catalog.generation + 1 = first + .ofNat (s.completed + 1)
    rw [hs.catalog, hplaced, Serving.ofNat_succ]
  registry := by
    have htold : s.told = s.completed := by rw [told, hlock]
    exact hs.registry.trans (congrArg (first + UInt64.ofNat ·) htold)
  swapped generation h := by
    cases h
    rfl
  filed := hs.filed

theorem invalidate (hs : s.Isolated first) {generation : UInt64}
    (hlock : s.lock = some (.swapped generation)) :
    Isolated first
      { s with serving := s.serving.invalidate generation, lock := some .invalidated } where
  catalog := by
    have hplaced : s.placed = s.completed + 1 := by rw [placed, hlock]
    exact hs.catalog.trans (congrArg (first + UInt64.ofNat ·) hplaced)
  registry := by
    have hplaced : s.placed = s.completed + 1 := by rw [placed, hlock]
    show generation = first + .ofNat (s.completed + 1)
    rw [hs.swapped generation hlock, hs.catalog, hplaced]
  swapped generation h := by cases h
  filed := Registry.Holds.reset _ _

theorem unlock (hs : s.Isolated first) (hlock : s.lock = some .invalidated) :
    Isolated first { s with lock := none, completed := s.completed + 1 } where
  catalog := by
    have hplaced : s.placed = s.completed + 1 := by rw [placed, hlock]
    exact hs.catalog.trans (congrArg (first + UInt64.ofNat ·) hplaced)
  registry := by
    have htold : s.told = s.completed + 1 := by rw [told, hlock]
    exact hs.registry.trans (congrArg (first + UInt64.ofNat ·) htold)
  swapped generation h := by cases h
  filed := hs.filed

theorem step (hs : s.Isolated first) (x : ReloadingStep) : (s.step x).Isolated first := by
  cases x with
  | submit a plan =>
    simp only [Reloading.step]
    split
    next => exact hs
    next => exact hs.serve rfl .kept
  | present a token => exact hs.serve rfl .kept
  | advance i a => exact hs.advance i a
  | call catalog => exact ⟨hs.catalog, hs.registry, hs.swapped, hs.filed⟩
  | callFromDisk read =>
    simp only [Reloading.step]
    split
    next => exact hs
    next => exact ⟨hs.catalog, hs.registry, hs.swapped, hs.filed⟩
  | swap i =>
    simp only [Reloading.step]
    split
    next catalog hlock _ => exact hs.swap hlock catalog _
    next => exact hs
  | invalidate =>
    simp only [Reloading.step]
    split
    next generation hlock => exact hs.invalidate hlock
    next => exact hs
  | unlock =>
    simp only [Reloading.step]
    split
    next hlock => exact hs.unlock hlock
    next => exact hs
  | count =>
    simp only [Reloading.step]
    split
    next => exact ⟨hs.catalog, hs.registry, hs.swapped, hs.filed⟩
    next => exact hs

theorem run (hs : s.Isolated first) (steps : List ReloadingStep) :
    (s.run steps).Isolated first := by
  induction steps generalizing s with
  | nil => exact hs
  | cons x steps ih => exact ih (hs.step x)

theorem start {e : Engine} (he : e.IsFresh) : (Reloading.start e).Isolated e.catalog.generation where
  catalog := (UInt64.add_zero _).symm
  registry := he.generation.trans (UInt64.add_zero _).symm
  swapped generation h := by cases h
  filed x hx := by
    have hx : x ∈ e.codec.registry.entries := hx
    rw [he.entries] at hx
    cases hx

end Isolated

end Reloading

/-- The request brought a plan, and it has hold of the catalog if it is yet to compile. -/
def Stage.HasTaken (c : Catalog) : Stage → Prop
  | .submitted _ catalog _ => catalog = c
  | .presented _ _ | .verified _ _ => False
  | .ready _ | .executed _ _ | .answered _ _ _ | .done _ _ | .brokenOff _ => True

namespace Engine

theorem hasTaken_step {c : Catalog} {s : Stage} (h : s.HasTaken c) (e : Engine) (a : Ambient) :
    (e.step a s).2.HasTaken c := by
  cases s with
  | submitted plan catalog request =>
    simp only [step]
    split <;> trivial
  | presented | verified => exact h.elim
  | ready work => trivial
  | executed work outcome =>
    cases outcome with
    | error err => trivial
    | ok outcome =>
      simp only [step]
      split <;> trivial
  | answered result claimed request => trivial
  | done result request => trivial
  | brokenOff request => trivial

/-- A query of another generation is not stored. -/
theorem entries_register_subset {r : Registry} {q : CompiledQuery} (hq : q.generation ≠ r.generation)
    (now : Int64) : (r.register q now).2.entries ⊆ r.entries := by
  have hpurged : (r.register q now).2 = r.purge now := by
    rw [Registry.register]
    exact congrArg Prod.snd (if_pos hq)
  rw [hpurged]
  exact List.filter_sublist.subset

/-- A request that brought a plan adds no entry where its catalog is not that of the registry. -/
theorem entries_step_subset {c : Catalog} {s : Stage} (h : s.HasTaken c) {e : Engine}
    (hc : c.generation ≠ e.codec.registry.generation) (a : Ambient) :
    (e.step a s).1.codec.registry.entries ⊆ e.codec.registry.entries := by
  cases s with
  | submitted plan catalog request =>
    cases h
    simp only [step]
    split
    next => exact List.Subset.refl _
    next checked _ => exact entries_register_subset (q := checked.compile c.generation) hc _
  | presented | verified => exact h.elim
  | ready work => exact List.Subset.refl _
  | executed work outcome =>
    cases outcome with
    | error err => exact List.Subset.refl _
    | ok outcome =>
      simp only [step]
      split <;> exact List.Subset.refl _
  | answered result claimed request =>
    simp only [step, settle]
    split
    next =>
      split <;> exact List.Subset.refl _
    next => exact List.Subset.refl _
  | done result request => exact List.Subset.refl _
  | brokenOff request => exact List.Subset.refl _

end Engine

namespace Reloading

/-- What a step does to the request at a position: it takes its own step, or it stays where it is. -/
theorem stage_step {s : Reloading} {i : Nat} {p : Pending} (hp : s.serving.pending[i]? = some p)
    (x : ReloadingStep) :
    ∃ p', (s.step x).serving.pending[i]? = some p' ∧
      (p'.stage = p.stage ∨ ∃ a, p'.stage = (s.serving.engine.step a p.stage).2) := by
  have hserved (y : ServingStep) : ∃ p', (s.serving.step y).pending[i]? = some p' ∧
      (p'.stage = p.stage ∨ ∃ a, p'.stage = (s.serving.engine.step a p.stage).2) := by
    obtain ⟨p', hp', hstage⟩ := Serving.stage_step hp y
    exact ⟨p', hp', hstage.imp_right fun ⟨a, _, ha⟩ => ⟨a, ha⟩⟩
  have hsame : ∃ p', s.serving.pending[i]? = some p' ∧
      (p'.stage = p.stage ∨ ∃ a, p'.stage = (s.serving.engine.step a p.stage).2) :=
    ⟨p, hp, .inl rfl⟩
  cases x with
  | submit a plan =>
    simp only [step]
    split
    next => exact hsame
    next => exact hserved (.submit a plan)
  | present a token => exact hserved (.present a token)
  | advance j a => exact hserved (.advance j a)
  | call catalog => exact hsame
  | callFromDisk read =>
    simp only [step]
    split <;> exact hsame
  | swap j =>
    simp only [step]
    split <;> exact hsame
  | invalidate =>
    simp only [step]
    split
    next generation _ =>
      refine ⟨{ p with reloads := p.reloads + 1 }, ?_, .inl rfl⟩
      show (s.serving.pending.map _)[i]? = _
      rw [List.getElem?_map, hp]
      rfl
    next => exact hsame
  | unlock =>
    simp only [step]
    split <;> exact hsame
  | count =>
    simp only [step]
    split <;> exact hsame

/-- A request that brought a plan keeps the catalog that it took. -/
theorem hasTaken_run {s : Reloading} {c : Catalog} {i : Nat} {p : Pending}
    (hp : s.serving.pending[i]? = some p) (h : p.stage.HasTaken c) (steps : List ReloadingStep) :
    ∃ p', (s.run steps).serving.pending[i]? = some p' ∧ p'.stage.HasTaken c := by
  induction steps generalizing s p with
  | nil => exact ⟨p, hp, h⟩
  | cons x steps ih =>
    obtain ⟨p', hp', hstage⟩ := stage_step hp x
    refine ih hp' ?_
    rcases hstage with hsame | ⟨a, hstepped⟩
    · rwa [hsame]
    · rw [hstepped]
      exact Engine.hasTaken_step h _ a

/-- Generations that are fewer than a full round of the counter apart differ. -/
theorem add_ofNat_ne {first : UInt64} {m n : Nat} (hlt : m < n) (hround : n < m + pow2 64) :
    first + .ofNat m ≠ first + .ofNat n := by
  obtain ⟨k, rfl⟩ := Nat.exists_eq_add_of_lt hlt
  intro h
  rw [Nat.add_assoc, UInt64.ofNat_add, ← UInt64.add_assoc, eq_comm,
    Serving.add_ofNat_eq_self_iff (by omega)] at h
  omega

/-- Let an engine serve any requests and be reloaded any number of times beside, from catalogs at hand
and from its file. Whenever no reload holds the lock, catalog and registry are of one generation, as
many on from the first as reloads were completed. At any time every live query is under its own
fingerprint and of the generation of the registry. A request adds no entry after a reload that was
completed since it took its catalog (short of a full round of the generations). And a reload from the
file that fails changes nothing. -/
theorem isolates_generations {e : Engine} (he : e.IsFresh) (steps : List ReloadingStep) :
    let s := (start e).run steps
    (s.lock = none → s.catalog.generation = s.registry.generation ∧
      s.registry.generation = e.catalog.generation + .ofNat s.completed) ∧
    s.registry.IsFiled ∧
    (∀ before a plan after, steps = before ++ .submit a plan :: after →
      let taken := (start e).run before
      taken.lock = none → taken.completed < s.completed →
        s.completed + 1 < taken.completed + pow2 64 → ∀ a',
          (s.step (.advance taken.serving.pending.length a')).registry.entries ⊆
            s.registry.entries) ∧
    ∀ read err, s.serving.engine.reloadFromDisk read = .error err → s.step (.callFromDisk read) = s := by
  intro s
  have hs : s.Isolated e.catalog.generation := (Isolated.start he).run steps
  refine ⟨fun hlock => ?_, hs.filed, ?_, ?_⟩
  · have hplaced : s.placed = s.completed := by rw [placed, hlock]
    have htold : s.told = s.completed := by rw [told, hlock]
    rw [hs.catalog, hs.registry, hplaced, htold]
    exact ⟨rfl, rfl⟩
  · intro before a plan after hsplit taken hlock hlater hround a'
    have htaken : taken.Isolated e.catalog.generation := (Isolated.start he).run before
    have hrun : s = (taken.step (.submit a plan)).run after := by
      show (start e).run steps = _
      rw [hsplit, run_append, run_cons]
    have hsubmitted : (taken.step (.submit a plan)).serving.pending[taken.serving.pending.length]? =
        some ⟨(taken.serving.engine.submit a plan).2, 0⟩ := by
      simp only [step, hlock]
      exact List.getElem?_concat_length
    obtain ⟨p, hp, hcatalog⟩ := hasTaken_run (c := taken.catalog) hsubmitted rfl after
    rw [← hrun] at hp
    have hother : taken.catalog.generation ≠ s.registry.generation := by
      have hplaced : taken.placed = taken.completed := by rw [placed, hlock]
      rw [htaken.catalog, hs.registry, hplaced]
      have htold : s.told = s.completed ∨ s.told = s.completed + 1 := by
        rw [told]
        split
        next => exact .inr rfl
        next => exact .inl rfl
      exact add_ofNat_ne (by omega) (by omega)
    show (s.serving.advance _ a').engine.codec.registry.entries ⊆ _
    rw [Serving.advance_eq hp]
    exact Engine.entries_step_subset hcatalog hother a'
  · intro read err herr
    rw [Engine.reloadFromDisk_eq] at herr
    cases hdisk : s.serving.engine.catalogOnDisk read with
    | error err' => simp only [step, hdisk]
    | ok catalog =>
      rw [hdisk] at herr
      cases herr

end Reloading

namespace ReloadedBooks

/-- A request takes the catalog. Reading the file fails, as there is none, and another reload is
completed. -/
def lateSteps : List ReloadingStep :=
  [.submit ambient plan, .callFromDisk fun _ => .ok "", .call catalog, .swap 0, .invalidate, .unlock]

/-- The generation has moved on, and the query of the request is not stored. -/
theorem late_query_not_stored :
    let s := (Reloading.start engine).run lateSteps
    s.catalog.generation = s.registry.generation ∧ s.registry.generation = 1 + .ofNat 1 ∧
      (s.step (.advance 0 ambient)).registry.entries = [] := by
  intro s
  obtain ⟨hgeneration, -, hlate, -⟩ :=
    Reloading.isolates_generations (e := engine) ⟨rfl, rfl⟩ lateSteps
  obtain ⟨hsame, hnext⟩ := hgeneration rfl
  refine ⟨hsame, hnext, List.subset_nil.mp ?_⟩
  exact hlate [] ambient plan lateSteps.tail rfl rfl (by decide) (by decide) ambient

end ReloadedBooks

end CatalogQuery
