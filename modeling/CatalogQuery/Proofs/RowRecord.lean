import CatalogQuery.Proofs.CheckedResults
import CatalogQuery.Store.Decode
/-!
# Records of rows

The record of a row has the value of every column under the column's name, where the names are
distinct. A value of the kind of its field is shown as it is stored.
-/
namespace CatalogQuery

open Json

theorem Json.lookup_insertMember_ne {α : Type} {key key' : String} (h : key' ≠ key) (value : α)
    (members : List (String × α)) :
    (insertMember key value members).lookup key' = members.lookup key' := by
  have hkey : (key' == key) = false := by simpa using h
  induction members with
  | nil => simp [insertMember, List.lookup_cons, hkey]
  | cons m rest ih =>
    obtain ⟨k, v⟩ := m
    rw [insertMember]
    split
    next heq => simp [← heq, List.lookup_cons, hkey]
    next =>
      split
      next => rw [List.lookup_cons, hkey]
      next => rw [List.lookup_cons, ih, List.lookup_cons]

def recordOf (members : List (String × Json)) : Row :=
  members.foldr (fun m row => insertMember m.1 m.2 row) []

theorem lookup_recordOf_eq_none {members : List (String × Json)} {key : String}
    (h : key ∉ members.map (·.1)) : (recordOf members).lookup key = none := by
  induction members with
  | nil => rfl
  | cons m members ih =>
    rw [List.map_cons, List.mem_cons, not_or] at h
    rw [recordOf, List.foldr_cons, lookup_insertMember_ne h.1]
    exact ih h.2

theorem lookup_recordOf {members : List (String × Json)} (hnodup : (members.map (·.1)).Nodup)
    {m : String × Json} (hm : m ∈ members) : (recordOf members).lookup m.1 = some m.2 := by
  induction members with
  | nil => cases hm
  | cons n members ih =>
    obtain ⟨hfresh, hnodup⟩ := List.nodup_cons.mp hnodup
    rw [recordOf, List.foldr_cons]
    rcases List.mem_cons.mp hm with rfl | hm
    · exact lookup_insertMember_self _ _ _
    · have hne : m.1 ≠ n.1 := by
        intro heq
        apply hfresh
        exact List.mem_map.mpr ⟨m, hm, heq⟩
      rw [lookup_insertMember_ne hne]
      exact ih hnodup hm

section Decode

variable {α : Type} (column : α → OutputColumn) {cell : α → Cell} {xs : List α}

/-- A row of which every value can be shown is decoded to the record of these values. -/
theorem decodeRow_eq_ok {json : α → Json} (hnodup : (xs.map fun x => (column x).name).Nodup)
    (h : ∀ x ∈ xs, (cell x).toJson? (column x).kind = some (json x)) :
    decodeRow (xs.map column) (xs.map cell) =
      .ok (recordOf (xs.map fun x => ((column x).name, json x))) := by
  induction xs with
  | nil => rfl
  | cons x xs ih =>
    obtain ⟨hfresh, hnodup⟩ := List.nodup_cons.mp hnodup
    have hrest := ih hnodup fun y hy => h y (List.mem_cons_of_mem _ hy)
    have hnone : (recordOf (xs.map fun x => ((column x).name, json x))).lookup (column x).name =
        none := by
      apply lookup_recordOf_eq_none
      rw [List.map_map]
      exact hfresh
    rw [List.map_cons, List.map_cons, decodeRow, h x List.mem_cons_self]
    show (decodeRow (xs.map column) (xs.map cell) >>= fun rest => _) = _
    rw [hrest]
    show Except.ok (if _ then _ else _) = _
    rw [hnone]
    rfl

/-- Only a row of which every value can be shown is decoded. -/
theorem shown_of_decodeRow_eq_ok {row : Row}
    (h : decodeRow (xs.map column) (xs.map cell) = .ok row) :
    ∀ x ∈ xs, ((cell x).toJson? (column x).kind).isSome = true := by
  induction xs generalizing row with
  | nil => simp
  | cons x xs ih =>
    rw [List.map_cons, List.map_cons, decodeRow] at h
    cases hjson : (cell x).toJson? (column x).kind with
    | none => rw [hjson] at h; cases h
    | some v =>
      rw [hjson] at h
      cases hrest : decodeRow (xs.map column) (xs.map cell) with
      | error e =>
        simp only [hrest] at h
        cases h
      | ok rest =>
        intro y hy
        rcases List.mem_cons.mp hy with rfl | hy
        · rw [hjson]
          rfl
        · exact ih hrest y hy

/-- Where the names are different, the record that is decoded has the value of every column. -/
theorem lookup_of_decodeRow_eq_ok {row : Row} (hnodup : (xs.map fun x => (column x).name).Nodup)
    (h : decodeRow (xs.map column) (xs.map cell) = .ok row) {x : α} (hx : x ∈ xs) :
    ∃ v, (cell x).toJson? (column x).kind = some v ∧ row.lookup (column x).name = some v := by
  let json (x : α) : Json := ((cell x).toJson? (column x).kind).getD .null
  have hjson : ∀ x ∈ xs, (cell x).toJson? (column x).kind = some (json x) := by
    intro x hx
    obtain ⟨v, hv⟩ := Option.isSome_iff_exists.mp (shown_of_decodeRow_eq_ok column h x hx)
    simp only [json, hv, Option.getD_some]
  rw [decodeRow_eq_ok column hnodup hjson] at h
  cases h
  have hnames : ((xs.map fun x => ((column x).name, json x)).map (·.1)).Nodup := by
    rw [List.map_map]
    exact hnodup
  exact ⟨json x, hjson x hx, lookup_recordOf hnames (List.mem_map_of_mem hx)⟩

end Decode

theorem decodeRows_eq_mapM (columns : List OutputColumn) (rows : List (List Cell)) :
    decodeRows columns rows = rows.mapM (decodeRow columns) := by
  induction rows with
  | nil => rfl
  | cons row rows ih =>
    rw [decodeRows, ih, List.mapM_cons]
    rfl

theorem decodeRows_eq_ok {α : Type} {columns : List OutputColumn} {cells : α → List Cell}
    {record : α → Row} {rows : List α}
    (h : ∀ row ∈ rows, decodeRow columns (cells row) = .ok (record row)) :
    decodeRows columns (rows.map cells) = .ok (rows.map record) := by
  rw [decodeRows_eq_mapM, List.mapM_map]
  exact mapM_eq_ok_map h

theorem exists_of_decodeRows_eq_ok {α : Type} {columns : List OutputColumn} {cells : α → List Cell}
    {rows : List α} {records : List Row} (h : decodeRows columns (rows.map cells) = .ok records) :
    ∀ row ∈ rows, ∃ record, decodeRow columns (cells row) = .ok record := by
  rw [decodeRows_eq_mapM, List.mapM_map] at h
  exact exists_of_mapM_eq_ok h

/-- The value is null or of the kind: a text, a finite number, or one of the numbers zero and one. -/
def ValueKind.fits : ValueKind → Cell → Bool
  | _, .null => true
  | .string, .text _ | .timestamp, .text _ => true
  | .number, .integer _ => true
  | .number, .real x => x.isFinite
  | .boolean, .integer n => n == 0 || n == 1
  | _, _ => false

def ValueKind.json : ValueKind → Cell → Json
  | .boolean, .integer n => .bool (n == 1)
  | _, .integer n => .int n.toInt
  | _, .real x => .real x
  | _, .text s => .str s
  | _, _ => .null

theorem Cell.toJson?_of_fits {kind : ValueKind} {c : Cell} (h : kind.fits c = true) :
    c.toJson? kind = some (kind.json c) := by
  cases c with
  | null => cases kind <;> rfl
  | blob bytes => cases kind <;> cases h
  | text s =>
    cases kind with
    | number | boolean => cases h
    | string | timestamp => exact congrArg (fun s => some (Json.str s)) s.ofList_toList
  | integer n =>
    cases kind with
    | string | timestamp => cases h
    | number => rfl
    | boolean =>
      rcases Bool.or_eq_true_iff.mp h with h | h
      · rw [beq_iff_eq.mp h]
        rfl
      · rw [beq_iff_eq.mp h]
        rfl
  | real x =>
    cases kind with
    | string | timestamp | boolean => cases h
    | number => exact congrArg some (if_pos h)

end CatalogQuery
