import CatalogQuery.Proofs.KeysetWalk
/-!
# Stored values in cursors

A cursor is made from the record of a row and so has the values as they are shown. In a keyset
query every row that is shown makes a cursor of values, whatever classes its values have. A value
stands in the cursor for what is stored just if it is null, a text that is shown as a text, a finite
number that is shown as a number, or one or zero shown as a truth value; any other is bound as
another value, and the next page begins elsewhere.
-/
namespace CatalogQuery

open Json Std

namespace ValueKind

/-- The value keeps its place in the order when it is shown and bound again. -/
def carries : ValueKind → Cell → Bool
  | .boolean, .real x => x.scaled == 0 || x.scaled == Binary64.scaleInt 1
  | kind, c => kind.fits c

def cursorParam (kind : ValueKind) (c : Cell) : Param :=
  ((c.toJson? kind).bind (Param.ofKeyValue? kind)).getD .null

end ValueKind

theorem Param.ofKeyValue?_ofReal (x : Binary64) :
    ofKeyValue? .number (.ofReal x) = some (if x.isFinite then .real x else .null) := by
  rw [Json.ofReal]
  split <;> rfl

/-- A value that is shown is of the kind of its field. -/
theorem Param.ofKeyValue?_of_toJson? {kind : ValueKind} {c : Cell} {v : Json}
    (h : c.toJson? kind = some v) : ofKeyValue? kind v = some (kind.cursorParam c) := by
  have hsome : (ofKeyValue? kind v).isSome = true := by
    cases kind with
    | string | timestamp =>
      cases c with
      | null | integer | real | text => cases h; rfl
      | blob bytes =>
        obtain ⟨s, -, rfl⟩ := Option.map_eq_some_iff.mp h
        rfl
    | number =>
      cases c with
      | null => cases h; rfl
      | integer n =>
        cases h
        rw [ofKeyValue?, Scalar.int64?_toInt]
        rfl
      | real | text | blob =>
        cases h
        rw [ofKeyValue?_ofReal]
        rfl
    | boolean => cases c <;> cases h <;> rfl
  rw [ValueKind.cursorParam, h, Option.bind_some]
  exact (Option.some_get hsome).symm.trans (by rw [← Option.get_eq_getD])

namespace Cell

theorem order_forall_iff {a b : Cell} : (∀ d, a.order d = b.order d) ↔ a.order b = .eq :=
  ⟨fun h => (h b).trans ReflCmp.compare_self, fun h _ => TransCmp.congr_left h⟩

theorem order_ne_eq_of_classRank {a b : Cell} (h : a.classRank ≠ b.classRank) :
    a.order b ≠ .eq := by
  have hcompare : a.order b = compare a.classRank b.classRank := by
    cases a <;> cases b <;> first | rfl | exact absurd rfl h
  rw [hcompare]
  exact mt Nat.compare_eq_eq.mp h

end Cell

theorem Binary64.truncate_of_scaled_eq {x : Binary64} {n : Int} (h : x.scaled = scaleInt n) :
    x.truncate = n := by
  rw [truncate, h, scaleInt, Int.mul_tdiv_cancel]
  exact Int.natCast_ne_zero.mpr (pow2_pos _).ne'

namespace ValueKind

variable {c : Cell}

theorem cursorParam_ofReal {x : Binary64} (h : c.toJson? .number = some (.ofReal x)) :
    Cell.ofParam (number.cursorParam c) = if x.isFinite then .real x else .null := by
  rw [cursorParam, h, Option.bind_some, Param.ofKeyValue?_ofReal, Option.getD_some]
  split
  next hfinite => rw [Cell.ofParam, Binary64.not_isNaN_of_isFinite hfinite]; rfl
  next => rfl

theorem ofParam_cursorParam_of_fits {kind : ValueKind} (h : kind.fits c = true) :
    Cell.ofParam (kind.cursorParam c) = c := by
  rw [cursorParam, Cell.toJson?_of_fits h, Option.bind_some, Param.ofKeyValue?_json h,
    Option.getD_some, Cell.ofParam_param h]

/-- What is shown as a truth value is bound as the number one or zero. -/
theorem cursorParam_boolean (h : c.isNull = false) :
    Cell.ofParam (boolean.cursorParam c) = .integer (if c.isTrue then 1 else 0) := by
  cases c with
  | null => cases h
  | integer | real | text | blob => rfl

/-- What is shown as a number or a truth value is bound as null or a number. -/
theorem classRank_cursorParam_le {kind : ValueKind} (hkind : kind = .number ∨ kind = .boolean)
    (c : Cell) : (Cell.ofParam (kind.cursorParam c)).classRank ≤ 1 := by
  rcases hkind with rfl | rfl
  · cases c with
    | null => exact Nat.zero_le 1
    | integer n =>
      rw [ofParam_cursorParam_of_fits rfl]
      exact Nat.le_refl 1
    | real | text | blob =>
      rw [cursorParam_ofReal rfl]
      split
      next => exact Nat.le_refl 1
      next => exact Nat.zero_le 1
  · cases c with
    | null => exact Nat.zero_le 1
    | integer | real | text | blob => exact Nat.le_refl 1

/-- A byte string that is shown as a text does not keep its place. -/
theorem order_blob_ne_eq {kind : ValueKind} (hkind : kind = .string ∨ kind = .timestamp)
    (bytes : List UInt8) :
    (Cell.ofParam (kind.cursorParam (.blob bytes))).order (.blob bytes) ≠ .eq := by
  apply Cell.order_ne_eq_of_classRank
  rcases hkind with rfl | rfl <;>
  · rw [cursorParam, Cell.toJson?]
    cases Bytes.toString? bytes with
    | none => exact Nat.ne_of_lt (Nat.zero_lt_succ 2)
    | some s => exact Nat.ne_of_lt (Nat.lt_succ_self 2)

/-- Of the integers just zero and one are what they are shown as, a truth value. -/
theorem order_isTrue_integer_iff (n : Int64) :
    (Cell.integer (if Cell.isTrue (.integer n) then 1 else 0)).order (.integer n) = .eq ↔
      n = 0 ∨ n = 1 := by
  show compare (Int64.toInt (if decide (n ≠ 0) then 1 else 0)) n.toInt = .eq ↔ _
  rw [Int.compare_eq_eq, Int64.toInt_inj]
  by_cases hn : n = 0
  · simp [hn]
  · simp [hn, eq_comm]

/-- Of the real numbers just zero and one are what they are shown as. -/
theorem order_isTrue_real_iff (x : Binary64) :
    (Cell.integer (if Cell.isTrue (.real x) then 1 else 0)).order (.real x) = .eq ↔
      x.scaled = 0 ∨ x.scaled = Binary64.scaleInt 1 := by
  have hscaleZero : Binary64.scaleInt 0 = 0 := Int.zero_mul _
  have hscaleOne : Binary64.scaleInt 1 ≠ 0 := by
    rw [Binary64.scaleInt, Int.one_mul]
    exact Int.natCast_ne_zero.mpr (pow2_pos _).ne'
  have hzero : x.scaled = 0 → x.truncate = 0 := fun h =>
    Binary64.truncate_of_scaled_eq (h.trans hscaleZero.symm)
  have hone : x.scaled = Binary64.scaleInt 1 → x.truncate = 1 := Binary64.truncate_of_scaled_eq
  show compare (Binary64.scaleInt (Int64.toInt (if decide (x.truncate ≠ 0) then 1 else 0)))
    x.scaled = .eq ↔ _
  rw [Int.compare_eq_eq]
  by_cases htruncate : x.truncate = 0
  · have hnot : x.scaled ≠ Binary64.scaleInt 1 := fun h => by simp [hone h] at htruncate
    simp [htruncate, hnot, hscaleZero, eq_comm]
  · have hnot : x.scaled ≠ 0 := fun h => htruncate (hzero h)
    simp [htruncate, hnot, eq_comm]

/-- The place in the order is kept just where the value is carried. -/
theorem order_cursorParam_eq_iff (kind : ValueKind) (c : Cell) :
    (Cell.ofParam (kind.cursorParam c)).order c = .eq ↔ kind.carries c = true := by
  have hkept : kind.fits c = true → (Cell.ofParam (kind.cursorParam c)).order c = .eq := by
    intro hfits
    rw [ofParam_cursorParam_of_fits hfits]
    exact ReflCmp.compare_self
  cases kind with
  | string | timestamp =>
    cases c with
    | null | text => exact iff_of_true (hkept rfl) rfl
    | integer | real => exact ⟨nofun, nofun⟩
    | blob bytes => exact iff_of_false (order_blob_ne_eq (by simp) bytes) nofun
  | number =>
    cases c with
    | null | integer => exact iff_of_true (hkept rfl) rfl
    | text | blob =>
      refine iff_of_false (Cell.order_ne_eq_of_classRank ?_) nofun
      exact Nat.ne_of_lt (Nat.lt_of_le_of_lt (classRank_cursorParam_le (.inl rfl) _)
        (Nat.lt_of_sub_ne_zero nofun))
    | real x =>
      show _ ↔ x.isFinite = true
      refine ⟨fun h => ?_, hkept⟩
      rw [cursorParam_ofReal rfl] at h
      by_contra hinfinite
      rw [if_neg hinfinite] at h
      cases h
  | boolean =>
    cases c with
    | null => exact iff_of_true (hkept rfl) rfl
    | text | blob => exact ⟨nofun, nofun⟩
    | integer n =>
      show _ ↔ (n == 0 || n == 1) = true
      rw [cursorParam_boolean rfl, order_isTrue_integer_iff, Bool.or_eq_true, beq_iff_eq,
        beq_iff_eq]
    | real x =>
      rw [cursorParam_boolean rfl, order_isTrue_real_iff, carries, Bool.or_eq_true, beq_iff_eq,
        beq_iff_eq]

/-- A value is bound as it is for a column of an affinity that suits its kind. -/
theorem apply_cursorParam {kind : ValueKind} {a : Affinity} (ha : kind.suits a = true) (c : Cell) :
    a.apply (Cell.ofParam (kind.cursorParam c)) = Cell.ofParam (kind.cursorParam c) := by
  cases a with
  | plain => rfl
  | text =>
    cases kind with
    | number | boolean => cases ha
    | string | timestamp =>
      cases c with
      | null | integer | real | text => rfl
      | blob bytes =>
        rw [cursorParam, Cell.toJson?]
        cases Bytes.toString? bytes <;> rfl
  | number =>
    apply Cell.asNumber_eq_self
    intro s hs
    have hrank : (Cell.ofParam (kind.cursorParam c)).classRank ≤ 1 := by
      cases kind with
      | string | timestamp => cases ha
      | number | boolean => exact classRank_cursorParam_le (by simp) c
    rw [hs] at hrank
    exact absurd hrank (Nat.not_succ_le_self 1)

end ValueKind

namespace CheckedPlan

/-- The values of the ordering keys as a cursor has them. -/
def shownValues (p : CheckedPlan) (value : String → Cell) : List Param :=
  p.keyFields.map fun k => k.1.kind.cursorParam (value k.1.column)

/-- A row that is shown makes a cursor of its values. -/
theorem IsListing.after_eq {p : CheckedPlan} (hp : p.IsListing) (generation : UInt64) {t : Table}
    {row : StoredRow} {record : Row} (hmode : p.cursorMode = .keyset)
    (hrecord : decodeRow (p.compile generation).columns
      ((p.compile generation).base.rowCells t row) = .ok record) (pageSize page : UInt32) :
    Cursor.after (p.compile generation) record pageSize page =
      .keyset (p.shownValues (t.value row)) := by
  have hshows : p.Shows t row := hp.shown_of_decodeRow_eq_ok generation hrecord
  cases hrecord.symm.trans (hp.decodeRow_record generation hshows)
  have hvalues : Cursor.keyValues? (p.compile generation) (p.record t row) =
      some (p.shownValues (t.value row)) := by
    apply hp.keyValues?_recordOf_of generation
    intro k hk
    obtain ⟨v, hv⟩ := Option.isSome_iff_exists.mp (hshows k.1 (hp.keyFields_mem hk))
    rw [hv]
    exact Param.ofKeyValue?_of_toJson? hv
  have hcursor : (p.compile generation).cursorMode = .keyset := hmode
  rw [Cursor.after, hcursor, hvalues]

/-- Where a row of a keyset query is shown, the cursor after it has its values and is no number of
rows. A value of the cursor, compared as the next page compares it, stands for the stored one just if
it ties with it; where the affinity of the column suits the kind of the field, just if the stored
value is one that the kind carries. -/
theorem cursor_stands_iff_carries {source : String} {d : CatalogDefinition} {g : UInt64}
    {c : Catalog} {policy : LimitPolicy} {plan : Plan} {p : CheckedPlan}
    (hcatalog : Catalog.ofDefinition source d g = .ok c) (hplan : plan.check c policy = .ok p)
    {generation : UInt64} (hmode : (p.compile generation).cursorMode = .keyset) {t : Table}
    {row : StoredRow} {record : Row} (hrecord : decodeRow (p.compile generation).columns
      ((p.compile generation).base.rowCells t row) = .ok record) (pageSize page : UInt32) :
    Cursor.after (p.compile generation) record pageSize page =
        .keyset (p.shownValues (t.value row)) ∧
      ∀ k ∈ p.keyFields,
        let stored := t.value row k.1.column
        let bound := t.keyCell (.column k.1.column) (k.1.kind.cursorParam stored)
        ((∀ other, bound.order other = stored.order other) ↔ bound.order stored = .eq) ∧
          (k.1.kind.suits (t.affinity k.1.column) = true →
            ((∀ other, bound.order other = stored.order other) ↔
              k.1.kind.carries stored = true)) := by
  have hlisting : p.IsListing :=
    Plan.isListing_of_check hcatalog hplan (operation_of_cursorMode hmode)
  refine ⟨hlisting.after_eq generation hmode hrecord pageSize page, fun k _ => ?_⟩
  refine ⟨Cell.order_forall_iff, fun hsuits => ?_⟩
  have hbound : t.keyCell (.column k.1.column) (k.1.kind.cursorParam (t.value row k.1.column)) =
      Cell.ofParam (k.1.kind.cursorParam (t.value row k.1.column)) :=
    ValueKind.apply_cursorParam hsuits _
  rw [hbound, Cell.order_forall_iff, ValueKind.order_cursorParam_eq_iff]

end CheckedPlan

namespace NumberedBooks

def unnumbered : StoredRow where
  number := 1
  cells := [.text "n/a"]

/-- The text is shown as the number zero, and with it the next page begins before all numbers above
zero and not behind the text. -/
theorem cursor_after_unnumbered :
    Cursor.after ((checked "id").compile 1) [("id", .real .zero)] 2 1 = .keyset [.real .zero] ∧
      ¬∀ other, ((table "id").keyCell (.column "id") (.real .zero)).order other =
        (Cell.text "n/a").order other := by
  have hid : "id" ∈ names := List.mem_cons_self
  have hrecord : decodeRow ((checked "id").compile 1).columns
      (((checked "id").compile 1).base.rowCells (table "id") unnumbered) =
        .ok [("id", .real .zero)] := rfl
  obtain ⟨hcursor, hcarries⟩ := CheckedPlan.cursor_stands_iff_carries (ofDefinition_definition hid)
    (check_plan hid) rfl hrecord 2 1
  have hkey : (field "id", Direction.asc) ∈ (checked "id").keyFields := by decide +kernel
  have hvalues : (checked "id").shownValues ((table "id").value unnumbered) = [.real .zero] := by
    decide +kernel
  refine ⟨hcursor.trans (congrArg Cursor.keyset hvalues), ?_⟩
  exact mt ((hcarries _ hkey).2 (by decide)).mp (by decide)

end NumberedBooks

end CatalogQuery
