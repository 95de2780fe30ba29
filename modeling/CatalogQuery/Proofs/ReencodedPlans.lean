import CatalogQuery.Plan.Check
import CatalogQuery.Plan.Encoding
import CatalogQuery.Proofs.RecordReading
import CatalogQuery.Proofs.SortedValues
import CatalogQuery.Proofs.TokenRoundTrip
/-!
# Plans on the wire

A plan is read back from its own form. Conversely, a plan that was read has only sorted values in its
filters, so whatever form it came in, its own form stands for it from then on.
-/
namespace CatalogQuery

open Json

namespace Json

theorem depth_le_of_mem_arr {v : Json} {vs : List Json} (hv : v ∈ vs) : v.depth ≤ (arr vs).depth := by
  have hle : v.depth ≤ depth.depthItems vs := by
    induction vs with
    | nil => cases hv
    | cons w vs ih =>
      rcases List.mem_cons.mp hv with rfl | hv
      · exact Nat.le_max_left _ _
      · exact (ih hv).trans (Nat.le_max_right _ _)
  exact hle.trans (Nat.le_add_left _ _)

theorem depth_le_of_mem_obj {m : String × Json} {ms : List (String × Json)} (hm : m ∈ ms) :
    m.2.depth ≤ (obj ms).depth := by
  have hle : m.2.depth ≤ depth.depthMembers ms := by
    induction ms with
    | nil => cases hm
    | cons n ms ih =>
      rcases List.mem_cons.mp hm with rfl | hm
      · exact Nat.le_max_left _ _
      · exact (ih hm).trans (Nat.le_max_right _ _)
  exact hle.trans (Nat.le_add_left _ _)

theorem Reader.of_items_ok {α : Type} {r : Reader α} {depth : Nat} {ts : List Tree} {xs : List α}
    (h : items r depth ts = .ok xs) : ∀ x ∈ xs, ∃ t, r depth t = .ok x := by
  induction ts generalizing xs with
  | nil =>
    cases h
    exact List.forall_mem_nil _
  | cons t ts ih =>
    rw [items] at h
    obtain ⟨x, hx, h⟩ := bind_ok h
    obtain ⟨xs, hxs, h⟩ := bind_ok h
    cases h
    exact List.forall_mem_cons.mpr ⟨⟨t, hx⟩, ih hxs⟩

/-- Every item of a list was read. -/
theorem Reader.of_list_ok {α : Type} {r : Reader α} {depth : Nat} {t : Tree} {xs : List α}
    (h : r.list depth t = .ok xs) : ∀ x ∈ xs, ∃ depth t, r depth t = .ok x := by
  unfold list at h
  split at h
  next => cases h
  next =>
    obtain ⟨ys, hys, h⟩ := bind_ok h
    split at h
    next =>
      cases h
      exact fun x hx => ⟨_, of_items_ok hys x hx⟩
    next => cases h
  next => cases h

namespace Record

variable {α β : Type} {depth : Nat} {find : String → Option Tree}

/-- A record is made of its members, whichever of its forms it was read from. -/
theorem build_of_reader {r : Record α} {t : Tree} {x : α} (h : r.reader depth t = .ok x) :
    ∃ depth find, r.build depth find = .ok x := by
  unfold reader at h
  split at h
  next => cases h
  next => cases h
  next =>
    obtain ⟨-, -, h⟩ := bind_ok h
    split at h
    next => exact ⟨_, _, h⟩
    next => cases h
  next =>
    obtain ⟨-, -, h⟩ := bind_ok h
    split at h
    next => exact ⟨_, _, h⟩
    next => cases h
  next => cases h

theorem of_build_map {f : α → β} {r : Record α} {y : β} (h : (f <$> r).build depth find = .ok y) :
    ∃ x, r.build depth find = .ok x ∧ f x = y :=
  map_ok h

theorem of_build_seq {f : Record (α → β)} {r : Record α} {y : β}
    (h : (f <*> r).build depth find = .ok y) :
    ∃ g x, f.build depth find = .ok g ∧ r.build depth find = .ok x ∧ g x = y := by
  obtain ⟨g, hg, h⟩ := bind_ok h
  obtain ⟨x, hx, h⟩ := bind_ok h
  exact ⟨g, x, hg, hx, Except.ok.inj h⟩

/-- A member with a default is the default or was read. -/
theorem of_build_withDefault {key : String} {r : Reader α} {default x : α}
    (h : (withDefault key r default).build depth find = .ok x) :
    x = default ∨ ∃ t, r depth t = .ok x := by
  simp only [withDefault, member] at h
  split at h
  next t _ => exact .inr ⟨t, h⟩
  next => exact .inl (Except.ok.inj h).symm

end Record

end Json

namespace Plan

theorem Filter.isSorted_of_reader {depth : Nat} {t : Tree} {f : Filter}
    (h : Filter.record.reader depth t = .ok f) : f.value.IsSorted := by
  obtain ⟨depth, find, hbuild⟩ := Record.build_of_reader h
  obtain ⟨_, v, hoperator, hv, rfl⟩ := Record.of_build_seq hbuild
  obtain ⟨_, operator, hfield, -, rfl⟩ := Record.of_build_seq hoperator
  obtain ⟨field, -, rfl⟩ := Record.of_build_map hfield
  obtain rfl | ⟨t, hv⟩ := Record.of_build_withDefault hv
  · trivial
  · exact isSorted_of_value t depth hv

/-- The values in the filters of a plan that was read are sorted. -/
theorem isSorted_of_reader {depth : Nat} {t : Tree} {p : Plan} (h : record.reader depth t = .ok p) :
    ∀ f ∈ p.filters, f.value.IsSorted := by
  -- the members are taken off from the last to the first
  obtain ⟨depth, find, hbuild⟩ := Record.build_of_reader h
  obtain ⟨_, requestId, hlimit, -, rfl⟩ := Record.of_build_seq hbuild
  obtain ⟨_, limit, htimeRange, -, rfl⟩ := Record.of_build_seq hlimit
  obtain ⟨_, timeRange, haggregations, -, rfl⟩ := Record.of_build_seq htimeRange
  obtain ⟨_, aggregations, hgroupBy, -, rfl⟩ := Record.of_build_seq haggregations
  obtain ⟨_, groupBy, horderBy, -, rfl⟩ := Record.of_build_seq hgroupBy
  obtain ⟨_, orderBy, hprefix, -, rfl⟩ := Record.of_build_seq horderBy
  obtain ⟨_, filters, hoperation, hfilters, rfl⟩ := Record.of_build_seq hprefix
  obtain ⟨_, operation, hentity, -, rfl⟩ := Record.of_build_seq hoperation
  obtain ⟨entity, -, rfl⟩ := Record.of_build_map hentity
  obtain rfl | ⟨t, hread⟩ := Record.of_build_withDefault hfilters
  · exact List.forall_mem_nil _
  · intro f hf
    obtain ⟨depth, t, hread⟩ := Reader.of_list_ok hread f hf
    exact Filter.isSorted_of_reader hread

theorem Filter.reader_toTree {f : Filter} {depth : Nat} (hsorted : f.value.IsSorted)
    (hdepth : f.value.depth ≤ depth) :
    Filter.record.reader (depth + 1) f.toJson.toTree = .ok f := by
  have hwrites : Filter.record.Writes toTree depth
      ([("field", .str f.field)] ++ [("operator", .str f.operator)] ++ [("value", f.value)]) f := by
    refine .seq (.seq (.map ?field _) ?operator ?_) ?value ?_
    case field | operator => exact Record.writes_required rfl
    case value => exact Record.writes_withDefault _ (value_toTree f.value depth hsorted hdepth)
    all_goals decide
  exact hwrites.reader_toTree (by decide)

theorem Order.reader_toTree (o : Order) (depth : Nat) :
    Order.record.reader (depth + 1) o.toJson.toTree = .ok o := by
  have hwrites : Order.record.Writes toTree depth
      ([("field", .str o.field)] ++ [("direction", .str o.direction)]) o := by
    refine .seq (.map ?field _) ?direction ?_
    case field => exact Record.writes_required rfl
    case direction => exact Record.writes_withDefault _ rfl
    all_goals decide
  exact hwrites.reader_toTree (by decide)

theorem Aggregation.reader_toTree (a : Aggregation) (depth : Nat) :
    Aggregation.record.reader (depth + 1) a.toJson.toTree = .ok a := by
  have hwrites : Aggregation.record.Writes toTree depth
      ([("function", .str a.function)] ++ optionMember "field" .str a.field ++
        [("alias", .str a.label)]) a := by
    refine .seq (.seq (.map ?function _) ?field ?_) ?label ?_
    case function | label => exact Record.writes_required rfl
    case field => exact Record.writes_optional fun _ _ => ⟨nofun, rfl⟩
    all_goals decide
  exact hwrites.reader_toTree (by decide)

theorem TimeRange.reader_toTree (r : TimeRange) (depth : Nat) :
    TimeRange.record.reader (depth + 1) r.toJson.toTree = .ok r := by
  have hwrites : TimeRange.record.Writes toTree depth
      (optionMember "start" .str r.start ++ optionMember "end" .str r.finish) r := by
    refine .seq (.map ?start _) ?finish ?_
    case start | finish => exact Record.writes_optional fun _ _ => ⟨nofun, rfl⟩
    all_goals decide
  exact hwrites.reader_toTree (by decide)

theorem reader_toTree {p : Plan} {depth : Nat} (hsorted : ∀ f ∈ p.filters, f.value.IsSorted)
    (hdepth : ∀ f ∈ p.filters, f.value.depth ≤ depth) :
    record.reader (depth + 3) p.toJson.toTree = .ok p := by
  obtain ⟨entity, operation, filters, orderBy, groupBy, aggregations, timeRange, limit, requestId⟩ := p
  have hwrites : record.Writes toTree (depth + 2)
      ([("entity", .str entity)] ++ [("operation", .str operation)] ++
        [("filters", .arr (filters.map Filter.toJson))] ++
        [("orderBy", .arr (orderBy.map Order.toJson))] ++ [("groupBy", .arr (groupBy.map .str))] ++
        [("aggregations", .arr (aggregations.map Aggregation.toJson))] ++
        optionMember "timeRange" TimeRange.toJson timeRange ++
        optionMember "limit" (fun n => .int n.toInt) limit ++ optionMember "requestId" .str requestId)
      ⟨entity, operation, filters, orderBy, groupBy, aggregations, timeRange, limit, requestId⟩ := by
    refine .seq (.seq (.seq (.seq (.seq (.seq (.seq (.seq (.map ?entity _) ?operation ?_) ?filters ?_)
      ?orderBy ?_) ?groupBy ?_) ?aggregations ?_) ?timeRange ?_) ?limit ?_) ?requestId ?_
    case entity | operation => exact Record.writes_required rfl
    case filters =>
      refine Record.writes_withDefault _ (Reader.list_toTree_ok fun f hf => ?_)
      exact Filter.reader_toTree (hsorted f hf) (hdepth f hf)
    case orderBy =>
      exact Record.writes_withDefault _ (Reader.list_toTree_ok fun o _ => o.reader_toTree depth)
    case groupBy => exact Record.writes_withDefault _ (Reader.list_toTree_ok fun _ _ => rfl)
    case aggregations =>
      exact Record.writes_withDefault _ (Reader.list_toTree_ok fun a _ => a.reader_toTree depth)
    case timeRange => exact Record.writes_optional fun r _ => ⟨nofun, r.reader_toTree (depth + 1)⟩
    case limit =>
      refine Record.writes_optional fun n _ => ⟨nofun, ?_⟩
      have hread := int64_tree (depth + 2) n
      rw [tree_int64] at hread
      exact hread
    case requestId => exact Record.writes_optional fun _ _ => ⟨nofun, rfl⟩
    all_goals decide
  exact hwrites.reader_toTree (by decide)

/-- The form of a plan is deeper than the values in its filters. -/
theorem depth_le_depth_toJson {p : Plan} {f : Filter} (hf : f ∈ p.filters) :
    f.value.depth ≤ p.toJson.depth := by
  have hvalue : f.value.depth ≤ f.toJson.depth :=
    depth_le_of_mem_obj (m := ("value", f.value)) (by simp)
  have hlist : f.toJson.depth ≤ (Json.arr (p.filters.map Filter.toJson)).depth :=
    depth_le_of_mem_arr (List.mem_map_of_mem hf)
  have hplan : (Json.arr (p.filters.map Filter.toJson)).depth ≤ p.toJson.depth :=
    depth_le_of_mem_obj (m := ("filters", .arr (p.filters.map Filter.toJson))) (by simp)
  exact (hvalue.trans hlist).trans hplan

theorem ofJson_toJson {p : Plan} (hsorted : ∀ f ∈ p.filters, f.value.IsSorted) :
    ofJson p.toJson = .ok p :=
  reader_toTree hsorted fun _ hf => (depth_le_depth_toJson hf).trans (Nat.le_add_right _ 124)

/-- A plan whose filters hold values, with the members of objects as a map keeps them, is found again
in its own form, and no other plan is. A plan that was read from any form is one of these, and its
check has the same result when it is written and read once more. -/
theorem survives_reencoding :
    (∀ p : Plan, ofJson p.toJson = .ok p ↔ ∀ f ∈ p.filters, f.value.IsSorted) ∧
      ∀ (j : Json) (p : Plan), ofJson j = .ok p →
        ofJson p.toJson = .ok p ∧
          ∀ (c : Catalog) (policy : LimitPolicy),
            (ofJson p.toJson).map (check c policy) = .ok (p.check c policy) := by
  refine ⟨fun p => ⟨fun h => ?_, ofJson_toJson⟩, fun j p h => ?_⟩
  · rw [ofJson, readValue] at h
    exact isSorted_of_reader h
  have hagain := ofJson_toJson (isSorted_of_reader h)
  refine ⟨hagain, fun c policy => ?_⟩
  rw [hagain]
  rfl

end Plan

namespace Orders

/-- A plan in its positions, and so are its filter, its first ordering and its time range; the second
ordering and the aggregation have members that are null, left out or unknown. -/
def wire : Json :=
  .arr
    [.str "Order", .str "aggregate",
     .arr [.arr [.str "status", .str "in",
       .arr [.null, .obj [("z", .arr []), ("a", .real ⟨0x3FF8000000000000⟩), ("z", .int (-3))]]]],
     .arr [.arr [.str "total"], .obj [("note", .int 1), ("field", .str "n"), ("direction", .str "DESC")]],
     .arr [.str "status"],
     .arr [.obj [("alias", .str "n"), ("field", .null), ("function", .str "count")]],
     .arr [.null, .str "2024-01-01"]]

def plan : Plan where
  entity := "Order"
  operation := "aggregate"
  filters :=
    [{ field := "status", operator := "in",
       value := .arr [.null, .obj [("a", .real ⟨0x3FF8000000000000⟩), ("z", .int (-3))]] }]
  orderBy := [{ field := "total" }, { field := "n", direction := "DESC" }]
  groupBy := ["status"]
  aggregations := [{ function := "count", label := "n" }]
  timeRange := some { finish := some "2024-01-01" }

theorem reencodes_wire :
    Plan.ofJson wire = .ok plan ∧ Plan.ofJson plan.toJson = .ok plan := by
  have hread : Plan.ofJson wire = .ok plan := by rfl
  exact ⟨hread, (Plan.survives_reencoding.2 wire plan hread).1⟩

end Orders

end CatalogQuery
