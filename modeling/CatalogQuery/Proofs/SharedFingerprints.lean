import CatalogQuery.Proofs.AcceptedQuery
import CatalogQuery.Proofs.HashedBytes
import CatalogQuery.Proofs.RegistryEntries
/-!
# Queries under one fingerprint

A registry gives back the query that was first registered under a fingerprint. What is hashed tells the
statement and the result columns of a query, so the one given back runs the same statement. It does
not tell the entity, nor which of the fields of a column an ordering goes by: plans on two entities of
one table can get each other's queries, with another way to page through the same rows.
-/
namespace CatalogQuery

/-- Lists whose images are the same are the same, if the images tell their elements apart. -/
theorem eq_of_map_eq_map {α β : Type} {f g : α → β} {xs ys : List α}
    (htold : ∀ x ∈ xs, ∀ y ∈ ys, f x = g y → x = y) (h : xs.map f = ys.map g) : xs = ys := by
  induction xs generalizing ys with
  | nil => exact (List.map_eq_nil_iff.mp h.symm).symm
  | cons x xs ih =>
    cases ys with
    | nil => cases h
    | cons y ys =>
      obtain ⟨hhead, hrest⟩ := List.cons.inj h
      rw [htold x List.mem_cons_self y List.mem_cons_self hhead,
        ih (fun a ha b hb => htold a (List.mem_cons_of_mem _ ha) b (List.mem_cons_of_mem _ hb)) hrest]

/-- The queries run the same statement and show its records in the same way. They may differ in their
entity, in the way they are paged through, and in the places of their keys and whether these may be
null. -/
structure CompiledQuery.RunsAs (q q' : CompiledQuery) : Prop where
  operation : q.operation = q'.operation
  base : q.base = q'.base
  columns : q.columns = q'.columns
  keys : q.orderBy.map (fun k => (k.term, k.direction)) =
    q'.orderBy.map fun k => (k.term, k.direction)
  fingerprint : q.fingerprint = q'.fingerprint
  generation : q.generation = q'.generation

/-- No two entities share a table, and no two fields of an entity share a column. -/
structure Catalog.IsUnshared (c : Catalog) : Prop where
  tables : (c.entities.map (·.table)).Nodup
  columns : ∀ e ∈ c.entities, (e.fields.map (·.column)).Nodup

namespace CheckedPlan

variable {p q : CheckedPlan} {g : UInt64}

theorem base_orderBy (p : CheckedPlan) (g : UInt64) : (p.compile g).base.orderBy =
    (p.compile g).orderBy.map fun k => (k.term, k.direction) := rfl

theorem fingerprint_eq (p : CheckedPlan) (g : UInt64) : (p.compile g).fingerprint =
    Bytes.Base64Url.encodeText (Bytes.sha256 (p.compile g).hashed) := rfl

/-- A query is made of its parts. -/
theorem compile_eq_of_parts (hname : p.entity.name = q.entity.name)
    (hbase : (p.compile g).base = (q.compile g).base)
    (hcolumns : (p.compile g).columns = (q.compile g).columns)
    (horderBy : (p.compile g).orderBy = (q.compile g).orderBy)
    (hoperation : p.operation = q.operation) (hmode : p.cursorMode = q.cursorMode) :
    p.compile g = q.compile g := by
  have hparts (p : CheckedPlan) : p.compile g =
      { entity := p.entity.name, operation := p.operation, base := (p.compile g).base,
        columns := (p.compile g).columns, orderBy := (p.compile g).orderBy,
        cursorMode := p.cursorMode,
        fingerprint :=
          Fingerprint.of (p.compile g).base.text (p.compile g).base.values (p.compile g).columns,
        generation := g } := rfl
  rw [hparts p, hparts q, hname, hbase, hcolumns, horderBy, hoperation, hmode]

namespace IsAccepted

variable (hp : p.IsAccepted) (hq : q.IsAccepted)

include hp hq

theorem labels_eq_of_base_eq (hbase : (p.compile g).base = (q.compile g).base) :
    p.aggregations.map (·.label) = q.aggregations.map (·.label) := by
  rw [← hp.labels_eq g, ← hq.labels_eq g, hbase]

theorem operation_eq_of_base_eq (hbase : (p.compile g).base = (q.compile g).base) :
    p.operation = q.operation := by
  have hlabels := hp.labels_eq_of_base_eq hq hbase
  have hlist : p.operation = .list ↔ q.operation = .list := by
    rw [hp.operation_eq_list_iff, hq.operation_eq_list_iff, ← List.map_eq_nil_iff, hlabels,
      List.map_eq_nil_iff]
  cases hpo : p.operation <;> cases hqo : q.operation <;> simp_all

/-- Two queries of one byte string run the same statement. -/
theorem runsAs_of_hashed_eq (hpsized : (p.compile g).IsSized) (hqsized : (q.compile g).IsSized)
    (h : (p.compile g).hashed = (q.compile g).hashed) : (p.compile g).RunsAs (q.compile g) := by
  obtain ⟨hbase, hcolumns⟩ := CompiledQuery.base_eq_of_hashed_eq (hp.base_isPlain g)
    (hq.base_isPlain g) hpsized hqsized (length_columns g) (length_columns g) h
  exact
    { operation := hp.operation_eq_of_base_eq hq hbase
      base := hbase
      columns := hcolumns
      keys := by rw [← base_orderBy, ← base_orderBy, hbase]
      fingerprint := by rw [fingerprint_eq, fingerprint_eq, h]
      generation := rfl }

/-- An ordering by an aggregate is told by its label, and one by a field if the fields are told. -/
theorem order_eq_of_key_eq (hbase : (p.compile g).base = (q.compile g).base)
    {columns : List OutputColumn} {o o' : CheckedOrder} (ho : o ∈ p.orderBy) (ho' : o' ∈ q.orderBy)
    (hkey : ((p.orderKey columns o).term, (p.orderKey columns o).direction) =
      ((q.orderKey columns o').term, (q.orderKey columns o').direction))
    (hfield : ∀ f f', o.target = .field f → o'.target = .field f' → f = f') : o = o' := by
  have hlabels := hp.labels_eq_of_base_eq hq hbase
  obtain ⟨target, direction⟩ := o
  obtain ⟨target', direction'⟩ := o'
  cases target with
  | field f =>
    cases target' with
    | field f' =>
      cases hfield f f' rfl rfl
      cases hkey
      rfl
    | aggregate i' => cases hkey
  | aggregate i =>
    cases target' with
    | field f' => cases hkey
    | aggregate i' =>
      have hi := hp.order_aggregated _ ho i rfl
      have hi' := hq.order_aggregated _ ho' i' rfl
      rw [orderKey_aggregate _ _ rfl hi, orderKey_aggregate _ _ rfl hi'] at hkey
      simp only [Prod.mk.injEq, Term.label.injEq] at hkey
      obtain ⟨hlabel, rfl⟩ := hkey
      have hsame : (p.aggregations.map (·.label))[i]? = (p.aggregations.map (·.label))[i']? := by
        rw [List.getElem?_map, List.getElem?_eq_getElem hi, hlabels, List.getElem?_map,
          List.getElem?_eq_getElem hi', Option.map_some, Option.map_some, hlabel]
      rw [(List.getElem?_inj (by simpa using hi) hp.labels_nodup).mp hsame]

omit hq in
theorem name_mem_columns {o : CheckedOrder} (ho : o ∈ p.orderBy) {f : Field}
    (hf : o.target = .field f) : f.name ∈ (p.compile g).columns.map (·.name) := by
  rw [hp.columns_names]
  exact List.mem_append_left _ (List.mem_map_of_mem (hp.order_shown o ho f hf))

/-- Plans on one entity that are ordered alike differ in nothing that their queries keep beside the
statement. -/
theorem compile_eq_of_orderBy_eq (h : (p.compile g).RunsAs (q.compile g))
    (hentity : p.entity = q.entity) (horderBy : p.orderBy = q.orderBy) :
    p.compile g = q.compile g := by
  have hoperation : p.operation = q.operation := h.operation
  have hlabels := hp.labels_eq_of_base_eq hq h.base
  have hkey (columns : List OutputColumn) : p.orderKey columns = q.orderKey columns := by
    funext o
    have hlabel (i : Nat) : p.aggregations[i]?.map (·.label) = q.aggregations[i]?.map (·.label) := by
      rw [← List.getElem?_map, hlabels, List.getElem?_map]
    simp only [orderKey, hlabel]
  have hkeys : (p.compile g).orderBy = (q.compile g).orderBy := by
    show p.orderBy.map (p.orderKey (p.compile g).columns) =
      q.orderBy.map (q.orderKey (q.compile g).columns)
    rw [h.columns, hkey, horderBy]
  have hmode : p.cursorMode = q.cursorMode := by
    rw [cursorMode, cursorMode, tellsRowsApart, tellsRowsApart, hoperation, horderBy]
  exact compile_eq_of_parts (by rw [hentity]) h.base h.columns hkeys hoperation hmode

/-- The queries are the same just when the plans are on one entity and ordered alike. -/
theorem compile_eq_iff {c : Catalog} (hnames : (c.entities.map (·.name)).Nodup)
    (hpmem : p.entity ∈ c.entities) (hqmem : q.entity ∈ c.entities)
    (h : (p.compile g).RunsAs (q.compile g)) :
    p.compile g = q.compile g ↔ p.entity = q.entity ∧ p.orderBy = q.orderBy := by
  refine ⟨fun hsame => ?_, fun hboth => hp.compile_eq_of_orderBy_eq hq h hboth.1 hboth.2⟩
  have hname : p.entity.name = q.entity.name := congrArg CompiledQuery.entity hsame
  have hentity := List.inj_on_of_nodup_map hnames hpmem hqmem hname
  have hkeys : p.orderBy.map (p.orderKey (p.compile g).columns) =
      q.orderBy.map (q.orderKey (q.compile g).columns) := congrArg CompiledQuery.orderBy hsame
  rw [← h.columns] at hkeys
  refine ⟨hentity, eq_of_map_eq_map (fun o ho o' ho' hkey => ?_) hkeys⟩
  refine hp.order_eq_of_key_eq hq h.base ho ho' (by rw [hkey]) fun f f' hf hf' => ?_
  -- the position of a key among the columns tells its field
  rw [orderKey_field _ _ hf, orderKey_field _ _ hf'] at hkey
  have hfield : f.name = f'.name := by
    refine columnIndex_inj (hp.name_mem_columns ho hf) ?_ (congrArg OrderKey.column hkey)
    rw [h.columns]
    exact hq.name_mem_columns ho' hf'
  have hmem' : f' ∈ p.entity.fields := hentity ▸ hq.shown_mem (hq.order_shown o' ho' f' hf')
  exact List.inj_on_of_nodup_map hp.entity_wellFormed.names_nodup
    (hp.shown_mem (hp.order_shown o ho f hf)) hmem' hfield

/-- Where nothing is shared, the table tells the entity and the columns tell the ordering. -/
theorem compile_eq_of_isUnshared {c : Catalog} (hc : c.IsUnshared) (hpmem : p.entity ∈ c.entities)
    (hqmem : q.entity ∈ c.entities) (h : (p.compile g).RunsAs (q.compile g)) :
    p.compile g = q.compile g := by
  have htable : p.entity.table = q.entity.table := congrArg Statement.table h.base
  have hentity := List.inj_on_of_nodup_map hc.tables hpmem hqmem htable
  have hkeys : p.orderBy.map (fun o => ((p.orderKey (p.compile g).columns o).term,
        (p.orderKey (p.compile g).columns o).direction)) =
      q.orderBy.map fun o => ((q.orderKey (q.compile g).columns o).term,
        (q.orderKey (q.compile g).columns o).direction) := by
    have hboth := h.keys
    rwa [show (p.compile g).orderBy = p.orderBy.map (p.orderKey (p.compile g).columns) from rfl,
      show (q.compile g).orderBy = q.orderBy.map (q.orderKey (q.compile g).columns) from rfl,
      List.map_map, List.map_map] at hboth
  rw [← h.columns] at hkeys
  refine hp.compile_eq_of_orderBy_eq hq h hentity
    (eq_of_map_eq_map (fun o ho o' ho' hkey => ?_) hkeys)
  refine hp.order_eq_of_key_eq hq h.base ho ho' hkey fun f f' hf hf' => ?_
  rw [orderKey_field _ _ hf, orderKey_field _ _ hf'] at hkey
  have hcolumn : f.column = f'.column := Term.column.inj (congrArg Prod.fst hkey)
  have hmem' : f' ∈ p.entity.fields := hentity ▸ hq.shown_mem (hq.order_shown o' ho' f' hf')
  exact List.inj_on_of_nodup_map (hc.columns p.entity hpmem)
    (hp.shown_mem (hp.order_shown o ho f hf)) hmem' hcolumn

end IsAccepted

end CheckedPlan

/-- What is done to a registry, with differences of times in their low bits: a build that checks does the
same or breaks off. -/
inductive RegistryStep
  /-- A plan is checked against the catalog and, if it is accepted, compiled and registered. -/
  | register (plan : Plan) (now : Int64)
  | lookup (fingerprint : String) (now : Int64)
  | consume (nonce : String) (expires now : Int64)
  | release (nonce : String)
  | purge (now : Int64)
  | reset (generation : UInt64)

/-- The plan was accepted and registered in one of the steps. -/
def Catalog.Registers (c : Catalog) (policy : LimitPolicy) (steps : List RegistryStep)
    (p : CheckedPlan) : Prop :=
  ∃ plan now, .register plan now ∈ steps ∧ plan.check c policy = .ok p

namespace Registry

def step (c : Catalog) (policy : LimitPolicy) (r : Registry) : RegistryStep → Registry
  | .register plan now =>
    match plan.check c policy with
    | .ok p => (r.register (p.compile c.generation) now).2
    | .error _ => r
  | .lookup fingerprint now => (r.lookup fingerprint now).2
  | .consume nonce expires now => (r.consume nonce expires now).2
  | .release nonce => r.release nonce
  | .purge now => r.purge now
  | .reset generation => r.reset generation

def run (c : Catalog) (policy : LimitPolicy) (r : Registry) (steps : List RegistryStep) : Registry :=
  steps.foldl (step c policy) r

variable {c : Catalog} {policy : LimitPolicy} {r : Registry}

/-- Every live query is that of one of the plans, under its own fingerprint. -/
def IsOf (r : Registry) (c : Catalog) (Of : CheckedPlan → Prop) : Prop :=
  r.Holds fun fingerprint q =>
    ∃ p, Of p ∧ p.compile c.generation = q ∧ q.fingerprint = fingerprint

/-- Registering a plan gives back the query of a plan of the same fingerprint. -/
theorem IsOf.register {Of : CheckedPlan → Prop} (h : r.IsOf c Of) {p : CheckedPlan} (hp : Of p)
    (now : Int64) :
    (∃ q, Of q ∧ (r.register (p.compile c.generation) now).1 = q.compile c.generation ∧
      (q.compile c.generation).fingerprint = (p.compile c.generation).fingerprint) ∧
      (r.register (p.compile c.generation) now).2.IsOf c Of := by
  obtain ⟨returned, kept⟩ := Holds.register h (fun _ => ⟨p, hp, rfl, rfl⟩) now
  refine ⟨?_, kept⟩
  rcases returned with hown | ⟨-, q, hq, hcompiled, hfingerprint⟩
  · exact ⟨p, hp, hown, rfl⟩
  · exact ⟨q, hq, hcompiled.symm, hcompiled ▸ hfingerprint⟩

theorem IsOf.step {Of : CheckedPlan → Prop} (h : r.IsOf c Of) {e : RegistryStep}
    (he : ∀ p, c.Registers policy [e] p → Of p) : (r.step c policy e).IsOf c Of := by
  cases e with
  | register plan now =>
    rw [Registry.step]
    cases hcheck : plan.check c policy with
    | error err => exact h
    | ok p => exact (h.register (he p ⟨plan, now, List.mem_singleton_self _, hcheck⟩) now).2
  | lookup fingerprint now => exact (Holds.lookup h fingerprint now).2
  | consume nonce expires now =>
    exact Holds.of_subset h (by rw [Registry.step, consume_entries]; exact List.Subset.refl _)
  | release nonce => exact Holds.release h nonce
  | purge now => exact Holds.purge h now
  | reset generation => exact Holds.reset r generation

theorem IsOf.run {Of : CheckedPlan → Prop} (h : r.IsOf c Of) {steps : List RegistryStep}
    (hsteps : ∀ p, c.Registers policy steps p → Of p) : (r.run c policy steps).IsOf c Of := by
  induction steps generalizing r with
  | nil => exact h
  | cons e steps ih =>
    have hfirst : ∀ p, c.Registers policy [e] p → Of p := by
      rintro p ⟨plan, now, hmem, hcheck⟩
      cases List.mem_singleton.mp hmem
      exact hsteps p ⟨plan, now, List.mem_cons_self, hcheck⟩
    refine ih (h.step hfirst) ?_
    rintro p ⟨plan, now, hmem, hcheck⟩
    exact hsteps p ⟨plan, now, List.mem_cons_of_mem _ hmem, hcheck⟩

theorem IsOf.of_entries_nil (hr : r.entries = []) (Of : CheckedPlan → Prop) : r.IsOf c Of := by
  intro e he
  rw [hr] at he
  cases he

/-- Registering an accepted plan gives back the query of this plan or of one that was registered before.
Unless their byte strings collide, the query given back runs the same statement; and it is the plan's
own just when that plan is on the same entity and ordered by the same fields, as it always is where no
table and no column is shared. -/
theorem register_compile {source : String} {d : CatalogDefinition} {g : UInt64} {c : Catalog}
    (hc : Catalog.ofDefinition source d g = .ok c) (policy : LimitPolicy) {r : Registry}
    (hr : r.entries = []) (steps : List RegistryStep) {plan : Plan} {p : CheckedPlan}
    (hp : plan.check c policy = .ok p)
    (hsized : ∀ q, q = p ∨ c.Registers policy steps q → (q.compile c.generation).IsSized)
    (now : Int64) :
    ∃ q, (q = p ∨ c.Registers policy steps q) ∧
      ((r.run c policy steps).register (p.compile c.generation) now).1 = q.compile c.generation ∧
      (Bytes.Collide (q.compile c.generation).hashed (p.compile c.generation).hashed ∨
        (q.compile c.generation).RunsAs (p.compile c.generation) ∧
        (q.compile c.generation = p.compile c.generation ↔
          q.entity = p.entity ∧ q.orderBy = p.orderBy) ∧
        (c.IsUnshared → q.compile c.generation = p.compile c.generation)) := by
  have hnames := Catalog.names_nodup_of_ofDefinition hc
  have hlive := (IsOf.of_entries_nil hr fun q => q = p ∨ c.Registers policy steps q).run
    fun _ hq => Or.inr hq
  obtain ⟨⟨q, hq, hreturned, hfingerprint⟩, -⟩ := hlive.register (Or.inl rfl) now
  refine ⟨q, hq, hreturned, ?_⟩
  have haccepted : q.IsAccepted ∧ q.entity ∈ c.entities := by
    rcases hq with rfl | ⟨plan', -, -, hcheck⟩
    · exact Plan.isAccepted_of_check hc hp
    · exact Plan.isAccepted_of_check hc hcheck
  obtain ⟨hpaccepted, hpmem⟩ := Plan.isAccepted_of_check hc hp
  have hhash : Bytes.sha256 (q.compile c.generation).hashed =
      Bytes.sha256 (p.compile c.generation).hashed := by
    rw [CheckedPlan.fingerprint_eq, CheckedPlan.fingerprint_eq] at hfingerprint
    exact Bytes.Base64Url.encodeText_injective hfingerprint
  by_cases hbytes : (q.compile c.generation).hashed = (p.compile c.generation).hashed
  · have hruns := haccepted.1.runsAs_of_hashed_eq hpaccepted (hsized q hq) (hsized p (.inl rfl)) hbytes
    exact .inr ⟨hruns, haccepted.1.compile_eq_iff hpaccepted hnames haccepted.2 hpmem hruns,
      fun hunshared => haccepted.1.compile_eq_of_isUnshared hpaccepted hunshared haccepted.2 hpmem
        hruns⟩
  · exact .inl ⟨hbytes, hhash⟩

/-- A query that is live is given back for every other one of its fingerprint. -/
theorem register_of_live {r : Registry} {q q' : CompiledQuery} {now later : Int64}
    (hlive : r.entries = [(q.fingerprint, ⟨q, now⟩)]) (hlater : later - now ≤ r.ttl)
    (hgeneration : q'.generation = r.generation) (hfingerprint : q'.fingerprint = q.fingerprint) :
    (r.register q' later).1 = q := by
  have hkept : (r.purge later).entries = [(q.fingerprint, ⟨q, now⟩)] := by
    have hfresh : r.isFresh later ⟨q, now⟩ = true := decide_eq_true hlater
    have hpurged : (r.purge later).entries = r.entries.filter fun e => r.isFresh later e.2 := rfl
    rw [hpurged, hlive]
    exact List.filter_cons_of_pos hfresh
  have hfound : (r.purge later).entries.lookup q'.fingerprint = some ⟨q, now⟩ := by
    rw [hkept, hfingerprint, List.lookup_cons_self]
  rw [register]
  simp [hgeneration, hfound]

theorem entries_register {r : Registry} (hr : r.entries = []) {q : CompiledQuery}
    (hgeneration : q.generation = r.generation) (now : Int64) :
    (r.register q now).2.entries = [(q.fingerprint, ⟨q, now⟩)] := by
  have hempty : (r.purge now).entries = [] := by simp [purge, hr]
  rw [register]
  simp [hgeneration, hempty]

/-- Of two queries of one fingerprint that are registered one after the other, the first is given back
for the second. -/
theorem register_register {r : Registry} (hr : r.entries = []) {q q' : CompiledQuery}
    (hq : q.generation = r.generation) (hq' : q'.generation = r.generation)
    (hfingerprint : q'.fingerprint = q.fingerprint) {now later : Int64} (hlater : later - now ≤ r.ttl) :
    ((r.register q now).2.register q' later).1 = q := by
  refine register_of_live (entries_register hr hq now) ?_ ?_ hfingerprint
  · rwa [register_ttl]
  · rwa [register_generation]

end Registry

def Plan.countAll (e : Entity) : Plan := (Plan.aggregate e.name).addAggregation "count" none "n"

def CheckedPlan.countAll (e : Entity) (limit : UInt32) : CheckedPlan where
  entity := e
  operation := .aggregate
  filters := []
  orderBy := []
  groupBy := []
  aggregations := [⟨.count, none, "n"⟩]
  timeRange := none
  limit := limit
  requestId := none

theorem Plan.check_countAll {c : Catalog} {e : Entity} (hfound : c.entityNamed? e.name = some e)
    (hfree : e.requiresTimeRange = false) (policy : LimitPolicy) :
    (Plan.countAll e).check c policy = .ok (.countAll e policy.default) := by
  have hrange : checkTimeRange e none = .ok none := by
    simp [checkTimeRange, presentBound, hfree]
  have hentity : (Plan.countAll e).entity = e.name := rfl
  rw [check, hentity, hfound]
  show (do
    let timeRange ← checkTimeRange e none
    let limit ← checkLimit policy none
    .ok _) = _
  rw [hrange]
  rfl

/-- The query shows of its entity the table only. -/
theorem CheckedPlan.hashed_countAll {e e' : Entity} (htable : e.table = e'.table)
    (limit limit' : UInt32) (g : UInt64) :
    ((CheckedPlan.countAll e limit).compile g).hashed =
      ((CheckedPlan.countAll e' limit').compile g).hashed := by
  have hbase : ((CheckedPlan.countAll e limit).compile g).base =
      ((CheckedPlan.countAll e' limit').compile g).base := by
    show ({ output := _, table := e.table, conditions := _ } : Statement Param) = _
    rw [htable]
    rfl
  rw [CompiledQuery.hashed, hbase]
  rfl

/-- What is given back is a plan's own query wherever no table is shared, and this is why the condition
cannot be dropped: two entities of one table that need no time range always have plans, those that count
their rows, of which the query of the one is given back for the other, whatever the fields. -/
theorem Registry.register_sharing {source : String} {d : CatalogDefinition} {g : UInt64} {c : Catalog}
    (hc : Catalog.ofDefinition source d g = .ok c) (policy : LimitPolicy) {e e' : Entity}
    (he : e ∈ c.entities) (he' : e' ∈ c.entities) (hne : e.name ≠ e'.name)
    (htable : e.table = e'.table) (hfree : e.requiresTimeRange = false)
    (hfree' : e'.requiresTimeRange = false) {r : Registry} (hr : r.entries = [])
    (hgeneration : r.generation = c.generation) {now later : Int64} (hlater : later - now ≤ r.ttl) :
    ∃ (plan plan' : Plan) (p p' : CheckedPlan),
      plan.check c policy = .ok p ∧ plan'.check c policy = .ok p' ∧
      p.entity = e ∧ p'.entity = e' ∧
      ((r.register (p.compile c.generation) now).2.register (p'.compile c.generation) later).1 =
        p.compile c.generation ∧ p.compile c.generation ≠ p'.compile c.generation := by
  have hfound {e : Entity} (he : e ∈ c.entities) : c.entityNamed? e.name = some e :=
    (find?_name_eq_some_iff (Catalog.names_nodup_of_ofDefinition hc)).mpr ⟨he, rfl⟩
  refine ⟨_, _, _, _, Plan.check_countAll (hfound he) hfree policy,
    Plan.check_countAll (hfound he') hfree' policy, rfl, rfl, ?_, ?_⟩
  · refine register_register hr hgeneration.symm hgeneration.symm ?_ hlater
    rw [CheckedPlan.fingerprint_eq, CheckedPlan.fingerprint_eq,
      CheckedPlan.hashed_countAll htable]
  · intro hsame
    exact hne (congrArg CompiledQuery.entity hsame)

namespace SharedBooks

def field (unique : Bool) : Field where
  id := 0
  name := "id"
  column := "id"
  kind := .number
  operators := ValueKind.number.defaultOperators
  unique := unique
  nullable := !unique

def book : Entity where
  id := 0
  name := "Book"
  table := "book"
  fields := [field true]
  requiresTimeRange := false
  timeFieldId := none

/-- Copies of a book are in the same table, and the number does not tell them apart. -/
def copy : Entity where
  id := 1
  name := "Copy"
  table := "book"
  fields := [field false]
  requiresTimeRange := false
  timeFieldId := none

def definition : CatalogDefinition where
  entities :=
    [{ name := "Book", table := "book",
       fields := [{ name := "id", column := "id", kind := .number, unique := true }] },
     { name := "Copy", table := "book",
       fields := [{ name := "id", column := "id", kind := .number }] }]

def catalog : Catalog where
  generation := 1
  entities := [book, copy]

theorem ofDefinition_definition : Catalog.ofDefinition "books" definition 1 = .ok catalog := by
  decide

def plan (e : Entity) : Plan := (Plan.list e.name).addOrder "id" "asc"

def checked (e : Entity) (unique : Bool) : CheckedPlan where
  entity := e
  operation := .list
  filters := []
  orderBy := [⟨.field (field unique), .asc⟩]
  groupBy := []
  aggregations := []
  timeRange := none
  limit := 100
  requestId := none

theorem check_book : (plan book).check catalog {} = .ok (checked book true) := by
  rfl

theorem check_copy : (plan copy).check catalog {} = .ok (checked copy false) := by
  rfl

def registry : Registry where
  generation := 1
  ttl := 900

def steps : List RegistryStep := [.register (plan book) 0]

theorem isSized_compile {e : Entity} {unique : Bool} (he : e.fields = [field unique]) :
    ((checked e unique).compile 1).IsSized where
  columns := by
    have hcolumns : ((checked e unique).compile 1).columns = [⟨"id", .number⟩] := by
      show (e.fields.map CheckedPlan.fieldOutput).map (·.2) = _
      rw [he]
      rfl
    rw [hcolumns]
    intro column hcolumn
    cases List.mem_singleton.mp hcolumn
    exact (by decide : (Bytes.ofString "id").length < pow2 64)
  values := by
    intro s hs
    cases hs

/-- The two plans feed the same bytes to the hash. -/
theorem hashed_eq : ((checked copy false).compile 1).hashed = ((checked book true).compile 1).hashed :=
  rfl

/-- The query of the plan on books is given back for the plan on copies: it runs the same statement, but
pages through it by numbers that may be there more than once. -/
theorem returns_book :
    Catalog.ofDefinition "books" definition 1 = .ok catalog ∧
      (plan copy).check catalog {} = .ok (checked copy false) ∧
      ((registry.run catalog {} steps).register ((checked copy false).compile 1) 1).1 =
        (checked book true).compile 1 ∧
      ((checked book true).compile 1).RunsAs ((checked copy false).compile 1) ∧
      ((checked book true).compile 1).cursorMode = .keyset ∧
      ((checked copy false).compile 1).cursorMode = .offset := by
  have hfirst : registry.run catalog {} steps =
      (registry.register ((checked book true).compile 1) 0).2 := rfl
  have hreturned : ((registry.run catalog {} steps).register ((checked copy false).compile 1) 1).1 =
      (checked book true).compile 1 := by
    have hfingerprint : ((checked copy false).compile 1).fingerprint =
        ((checked book true).compile 1).fingerprint := by
      rw [CheckedPlan.fingerprint_eq, CheckedPlan.fingerprint_eq, hashed_eq]
    rw [hfirst]
    exact Registry.register_register rfl rfl rfl hfingerprint (by decide)
  have hsteps : ∀ q, q = checked copy false ∨ catalog.Registers {} steps q →
      q = checked copy false ∨ q = checked book true := by
    rintro q (rfl | ⟨plan', now, hmem, hcheck⟩)
    · exact .inl rfl
    · cases List.mem_singleton.mp hmem
      exact .inr (Except.ok.inj (hcheck.symm.trans check_book))
  have hsized : ∀ q, q = checked copy false ∨ catalog.Registers {} steps q →
      (q.compile 1).IsSized := by
    intro q hq
    rcases hsteps q hq with rfl | rfl <;> exact isSized_compile rfl
  obtain ⟨q, hq, hown, hruns⟩ := Registry.register_compile ofDefinition_definition {} (r := registry)
    rfl steps check_copy hsized 1
  have hgeneration : catalog.generation = 1 := rfl
  rw [hgeneration] at hown hruns
  rw [hreturned] at hown
  refine ⟨ofDefinition_definition, check_copy, hreturned, ?_, rfl, rfl⟩
  rcases hsteps q hq with rfl | rfl
  · exact absurd (congrArg CompiledQuery.entity hown) (by decide)
  · rcases hruns with ⟨hbytes, -⟩ | ⟨hruns, -⟩
    · exact absurd hashed_eq.symm hbytes
    · exact hruns

end SharedBooks

end CatalogQuery
