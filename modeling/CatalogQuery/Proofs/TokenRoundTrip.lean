import CatalogQuery.Proofs.JsonText
import CatalogQuery.Proofs.SignedText
/-!
# Tokens and back

The claims of a token are found again in it, except that the floating-point numbers of the cursor
come out as their texts are read.
-/
namespace CatalogQuery

open Json Number

namespace Json

theorem tree_ofInt {n : Int} (hlow : minInt64 ≤ n) (hhigh : n < pow2 64) :
    (Literal.ofInt n).tree = .num (some (.integer n)) := by
  rw [Literal.tree, Literal.value?_ofInt hlow hhigh]
  rfl

/-- What stands where a floating-point number was written. -/
theorem tree_ofReal {x : Binary64} (hfinite : x.isFinite = true) :
    (Literal.ofReal x).tree = .num (x.reread?.map .real) ∨
      ((Literal.ofReal x).tree = .stuck ∧ x.reread? = none) := by
  rw [Literal.tree, Literal.value?_ofReal, Binary64.reread?, if_pos hfinite]
  split
  next h =>
    refine .inr ⟨rfl, ?_⟩
    rw [Literal.stopsInside] at h
    split at h
    next => simpa using (Bool.and_eq_true_iff.mp h).2
    next => cases h
  next => exact .inl rfl

theorem printed_ofReal (x : Binary64) :
    (Json.ofReal x).printed = if x.isFinite then (Literal.ofReal x).tree else .null := by
  rw [Json.ofReal]
  split
  next h => rw [printed, if_pos h]
  next => rfl

theorem real_printed_ofReal (depth : Nat) (x : Binary64) :
    (Reader.real depth (Json.ofReal x).printed).toOption = x.reread? := by
  rw [printed_ofReal]
  split
  next hfinite =>
    rcases tree_ofReal hfinite with h | ⟨h, hnone⟩
    · rw [h]
      cases x.reread? <;> rfl
    · rw [h, hnone]
      rfl
  next hfinite =>
    rw [Binary64.reread?, if_neg hfinite]
    rfl

/-- A number that is read from its text has a value there. -/
theorem value_printed_ofReal (depth : Nat) {x y : Binary64} (h : x.reread? = some y) :
    ((Json.ofReal x).printed.value depth).isOk = true := by
  rw [printed_ofReal]
  split
  next hfinite =>
    rcases tree_ofReal hfinite with htree | ⟨-, hnone⟩
    · rw [htree, h]
      simp [Tree.value, Except.isOk, Except.toBool]
    · rw [h] at hnone
      cases hnone
  next => simp [Tree.value, Except.isOk, Except.toBool]

theorem tree_int64 (n : Int64) : (Literal.ofInt n.toInt).tree = .num (some (.integer n.toInt)) := by
  have hlow := n.le_toInt
  have hhigh := n.toInt_lt
  exact tree_ofInt (by rw [minInt64]; omega) (by simp only [Nat.pow_eq]; omega)

theorem tree_nat {n : Nat} (h : n < pow2 64) :
    (Literal.ofInt n).tree = .num (some (.integer n)) := by
  refine tree_ofInt ?_ (Int.ofNat_lt.mpr h)
  rw [minInt64]
  omega

theorem int64_tree (depth : Nat) (n : Int64) :
    Reader.int64 depth (Literal.ofInt n.toInt).tree = .ok n := by
  have hlow := n.le_toInt
  have hhigh := n.toInt_lt
  rw [tree_int64, Reader.int64, Reader.integer,
    if_pos ⟨by rw [minInt64]; omega, by rw [maxInt64]; omega⟩]
  exact congrArg Except.ok (Int64.ofInt_toInt n)

theorem uint64_tree (depth : Nat) (n : UInt64) :
    Reader.uint64 depth (Literal.ofInt n.toNat).tree = .ok n := by
  have hlt := n.toNat_lt
  rw [tree_nat hlt, Reader.uint64, Reader.integer,
    if_pos ⟨by omega, by simp only [Nat.pow_eq]; omega⟩]
  simp [Except.map]

theorem uint32_tree (depth : Nat) (n : UInt32) :
    Reader.uint32 depth (Literal.ofInt n.toNat).tree = .ok n := by
  have hlt := n.toNat_lt
  have hword : n.toNat < pow2 64 := Nat.lt_trans hlt (by decide)
  rw [tree_nat hword, Reader.uint32, Reader.integer,
    if_pos ⟨by omega, by simp only [Nat.pow_eq]; omega⟩]
  simp [Except.map]

end Json

namespace Param

/-- What the text of a parameter is read as. -/
def reread? : Param → Option Param
  | .real x => x.reread?.map .real
  | p => some p

theorem printed_toJson {p : Param} (hnull : p ≠ .null) :
    p.toJson.printed =
      .obj [(some "type", .str (some p.typeName)), (some "value", p.bareJson.printed)] true := by
  cases p with
  | null => exact absurd rfl hnull
  | text s => rfl
  | integer n => rfl
  | real x => rfl
  | bool b => rfl

/-- A parameter that is read from its text has a value there. -/
theorem value_printed_bareJson (depth : Nat) {p q : Param} (h : p.reread? = some q) :
    (p.bareJson.printed.value depth).isOk = true := by
  cases p with
  | text s => simp [bareJson, printed, Tree.value, Except.isOk, Except.toBool]
  | integer n => simp [bareJson, printed, tree_int64, Tree.value, Except.isOk, Except.toBool]
  | real x =>
    obtain ⟨y, hy, -⟩ := Option.map_eq_some_iff.mp h
    exact value_printed_ofReal depth hy
  | bool b => simp [bareJson, printed, Tree.value, Except.isOk, Except.toBool]
  | null => simp [bareJson, printed, Tree.value, Except.isOk, Except.toBool]

theorem ofTagged_printed (depth : Nat) {p : Param} (hnull : p ≠ .null) :
    (ofTagged p.typeName depth (some p.bareJson.printed)).toOption = p.reread? := by
  cases p with
  | null => exact absurd rfl hnull
  | real x =>
    have hreal := real_printed_ofReal depth x
    simp only [ofTagged, typeName, bareJson, reread?, ← hreal]
    cases Reader.real depth (Json.ofReal x).printed <;> rfl
  | integer n =>
    simp [ofTagged, typeName, bareJson, printed, reread?, int64_tree, Except.map, Except.toOption]
  | text s => rfl
  | bool b => rfl

theorem value_printed_toJson (depth : Nat) {p q : Param} (h : p.reread? = some q) :
    (p.toJson.printed.value (depth + 1)).isOk = true := by
  by_cases hnull : p = .null
  · rw [hnull]
    rfl
  · have hvalue := value_printed_bareJson depth h
    rw [printed_toJson hnull]
    simp only [Tree.value, valueMembers]
    cases hread : p.bareJson.printed.value depth with
    | error e => rw [hread] at hvalue; cases hvalue
    | ok v => rfl

/-- A parameter is read as its text is. -/
theorem reader_printed_toJson (depth : Nat) (p : Param) :
    (reader Reader.isVoid (depth + 1) p.toJson.printed).toOption = p.reread? := by
  by_cases hnull : p = .null
  · rw [hnull]
    rfl
  · have htagged := ofTagged_printed depth hnull
    unfold reader
    cases hread : p.toJson.printed.value (depth + 1) with
    | error e =>
      cases hp : p.reread? with
      | none => rfl
      | some q =>
        have hvalue := value_printed_toJson depth hp
        rw [hread] at hvalue
        cases hvalue
    | ok v =>
      rw [printed_toJson hnull, ← htagged]
      rfl

end Param

namespace Cursor

/-- What the text of a cursor is read as. -/
def reread? : Cursor → Option Cursor
  | .keyset values => (values.mapM Param.reread?).map .keyset
  | c => some c

/-- Every floating-point number in the cursor is read from its text as it is. -/
def IsReread (c : Cursor) : Prop :=
  ∀ values, c = .keyset values → ∀ x, Param.real x ∈ values → x.reread? = some x

theorem reread?_eq_some_iff (c : Cursor) : c.reread? = some c ↔ c.IsReread := by
  have param (p : Param) : p.reread? = some p ↔ ∀ x, p = .real x → x.reread? = some x := by
    cases p <;> simp [Param.reread?]
  have list (values : List Param) :
      values.mapM Param.reread? = some values ↔ ∀ x, Param.real x ∈ values → x.reread? = some x := by
    induction values with
    | nil => simp
    | cons p values ih =>
      have hcons : (p :: values).mapM Param.reread? = some (p :: values) ↔
          p.reread? = some p ∧ values.mapM Param.reread? = some values := by
        simp [List.mapM_cons, Option.bind_eq_some_iff]
      rw [hcons, param, ih]
      simp only [List.mem_cons, eq_comm (a := Param.real _)]
      exact ⟨fun h x hx => hx.elim (h.1 x) (h.2 x), fun h => ⟨fun x hx => h x (.inl hx), fun x hx => h x (.inr hx)⟩⟩
  cases c with
  | start => simp [reread?, IsReread]
  | offset rows => simp [reread?, IsReread]
  | keyset values => simp [reread?, IsReread, list]

theorem items_printed (depth : Nat) (values : List Param) :
    (Reader.items (Param.reader Reader.isVoid) (depth + 1)
      (printedItems (values.map Param.toJson))).toOption = values.mapM Param.reread? := by
  induction values with
  | nil => rfl
  | cons p values ih =>
    have hhead := Param.reader_printed_toJson depth p
    rw [List.mapM_cons, ← hhead, ← ih, List.map_cons, printedItems, Reader.items]
    cases Param.reader Reader.isVoid (depth + 1) p.toJson.printed with
    | error e => rfl
    | ok q =>
      cases Reader.items (Param.reader Reader.isVoid) (depth + 1)
        (printedItems (values.map Param.toJson)) <;> rfl

theorem value_items_printed (depth : Nat) {values qs : List Param}
    (h : values.mapM Param.reread? = some qs) :
    (valueItems (depth + 1) (printedItems (values.map Param.toJson))).isOk = true := by
  induction values generalizing qs with
  | nil => rfl
  | cons p values ih =>
    rw [List.mapM_cons] at h
    obtain ⟨q, hq, h⟩ := Option.bind_eq_some_iff.mp h
    obtain ⟨rest, hrest, -⟩ := Option.bind_eq_some_iff.mp h
    have hhead := Param.value_printed_toJson depth hq
    have htail := ih hrest
    rw [List.map_cons, printedItems, valueItems]
    generalize p.toJson.printed.value (depth + 1) = v,
      valueItems (depth + 1) (printedItems (values.map Param.toJson)) = vs at hhead htail
    cases v with
    | error e => cases hhead
    | ok v => cases vs with
      | error e => cases htail
      | ok vs => rfl

theorem printed_keyset (values : List Param) :
    (Cursor.keyset values).toJson.printed =
      .obj [(some "mode", .str (some "keyset")),
        (some "values", .arr (printedItems (values.map Param.toJson)) true)] true := rfl

theorem printed_offset (rows : UInt64) :
    (Cursor.offset rows).toJson.printed =
      .obj [(some "mode", .str (some "offset")),
        (some "offset", (Literal.ofInt rows.toNat).tree)] true := rfl

/-- A keyset is read twice: for its tag with every value as it stands, and then value by value. -/
theorem reader_keyset (depth : Nat) (ts : List Tree) :
    reader (depth + 3) (.obj [(some "mode", .str (some "keyset")),
        (some "values", .arr ts true)] true) =
      (valueItems (depth + 1) ts).bind fun _ =>
        (Reader.items (Param.reader Reader.isVoid) (depth + 1) ts).map .keyset := by
  have hobject : Tree.value (depth + 3) (.obj [(some "mode", .str (some "keyset")),
      (some "values", .arr ts true)] true) =
      (valueItems (depth + 1) ts).map fun vs =>
        .obj (sortMembers [("mode", .str "keyset"), ("values", .arr vs)]) := by
    simp only [Tree.value, valueMembers]
    cases valueItems (depth + 1) ts <;> rfl
  unfold reader
  rw [hobject]
  cases valueItems (depth + 1) ts with
  | error e => rfl
  | ok vs =>
    have hlist : Reader.list (Param.reader Reader.isVoid) (depth + 2) (.arr ts true) =
        Reader.items (Param.reader Reader.isVoid) (depth + 1) ts := by
      rw [Reader.list]
      cases Reader.items (Param.reader Reader.isVoid) (depth + 1) ts <;> rfl
    rw [← hlist]
    rfl

/-- A cursor is read as its text is. -/
theorem reader_printed_toJson (depth : Nat) (c : Cursor) :
    (reader (depth + 3) c.toJson.printed).toOption = c.reread? := by
  cases c with
  | start => rfl
  | offset rows =>
    rw [printed_offset, tree_nat rows.toNat_lt]
    have huint := uint64_tree (depth + 2) rows
    rw [tree_nat rows.toNat_lt] at huint
    have hread : reader (depth + 3) (.obj [(some "mode", .str (some "offset")),
        (some "offset", .num (some (.integer rows.toNat)))] true) =
      (Reader.uint64 (depth + 2) (.num (some (.integer rows.toNat)))).map .offset := rfl
    rw [hread, huint]
    rfl
  | keyset values =>
    have hitems := items_printed depth values
    rw [printed_keyset, reader_keyset, reread?, ← hitems]
    cases hvalues : valueItems (depth + 1) (printedItems (values.map Param.toJson)) with
    | error e =>
      cases hmap : values.mapM Param.reread? with
      | none => rw [hitems, hmap]; rfl
      | some qs =>
        have hvalue := value_items_printed depth hmap
        rw [hvalues] at hvalue
        cases hvalue
    | ok vs =>
      cases Reader.items (Param.reader Reader.isVoid) (depth + 1)
        (printedItems (values.map Param.toJson)) <;> rfl

end Cursor

namespace PageClaims

/-- The members of a payload as they stand in its text. -/
def printedMembers (c : PageClaims) : List (Option String × Tree) :=
  [(some "fp", .str (some c.fingerprint)), (some "ps", (Literal.ofInt c.pageSize.toNat).tree),
   (some "cursor", c.cursor.toJson.printed), (some "pg", (Literal.ofInt c.page.toNat).tree),
   (some "gen", (Literal.ofInt c.generation.toNat).tree), (some "jti", .str (some c.nonce)),
   (some "iat", (Literal.ofInt c.issuedAt.toInt).tree),
   (some "exp", (Literal.ofInt c.expiresAt.toInt).tree), (some "iss", .str (some c.issuer)),
   (some "aud", .str (some c.audience))]

theorem printed_toJson (c : PageClaims) : c.toJson.printed = .obj c.printedMembers true := rfl

/-- Claims are read as the text of their cursor is. -/
theorem reader_printed_toJson (c : PageClaims) (depth : Nat) :
    record.reader (depth + 1) c.toJson.printed =
      (Cursor.reader depth c.cursor.toJson.printed).map fun cursor => { c with cursor } := by
  have hps := uint32_tree depth c.pageSize
  have hpg := uint32_tree depth c.page
  have hgen := uint64_tree depth c.generation
  have hiat := int64_tree depth c.issuedAt
  have hexp := int64_tree depth c.expiresAt
  rw [printed_toJson, printedMembers]
  generalize (Literal.ofInt c.pageSize.toNat).tree = ps at hps ⊢
  generalize (Literal.ofInt c.page.toNat).tree = pg at hpg ⊢
  generalize (Literal.ofInt c.generation.toNat).tree = gen at hgen ⊢
  generalize (Literal.ofInt c.issuedAt.toInt).tree = iat at hiat ⊢
  generalize (Literal.ofInt c.expiresAt.toInt).tree = exp at hexp ⊢
  generalize c.cursor.toJson.printed = cur
  have hscan : Record.scanMembers record.known depth [] [(some "fp", .str (some c.fingerprint)),
      (some "ps", ps), (some "cursor", cur), (some "pg", pg), (some "gen", gen),
      (some "jti", .str (some c.nonce)), (some "iat", iat), (some "exp", exp),
      (some "iss", .str (some c.issuer)), (some "aud", .str (some c.audience))] =
        (Cursor.reader depth cur).map fun _ => () := by
    simp [Record.scanMembers, record, Record.required, Record.member, Functor.map, Seq.seq,
      List.lookup_cons, hps, hpg, hgen, hiat, hexp]
    cases Cursor.reader depth cur <;> rfl
  have hbuild : record.build depth (Record.findMember [(some "fp", .str (some c.fingerprint)),
      (some "ps", ps), (some "cursor", cur), (some "pg", pg), (some "gen", gen),
      (some "jti", .str (some c.nonce)), (some "iat", iat), (some "exp", exp),
      (some "iss", .str (some c.issuer)), (some "aud", .str (some c.audience))]) =
        (Cursor.reader depth cur).map fun cursor => { c with cursor } := by
    simp [Record.findMember, record, Record.required, Record.member, Functor.map, Seq.seq,
      List.lookup_cons, hps, hpg, hgen, hiat, hexp]
    cases Cursor.reader depth cur <;> rfl
  simp only [Record.reader, hscan, hbuild, if_true]
  cases Cursor.reader depth cur <;> rfl

/-- The claims in the text of a payload. -/
theorem claims?_text (c : PageClaims) :
    Token.claims? (Bytes.ofString c.toJson.text) =
      c.cursor.reread?.map fun cursor => { c with cursor } := by
  have hcursor := Cursor.reader_printed_toJson 123 c.cursor
  have hreader := c.reader_printed_toJson 126
  have hother : (c.toJson.printed.members?).map Token.otherMembersFit = some true := rfl
  rw [Token.claims?, readBytes_text, Tree.ofBytes_text, depthLimit, hreader, ← hcursor]
  cases hmembers : c.toJson.printed.members? with
  | none => rw [hmembers] at hother; cases hother
  | some members =>
    rw [hmembers, Option.map_some, Option.some.injEq] at hother
    cases Cursor.reader 126 c.cursor.toJson.printed with
    | error e => rfl
    | ok cursor => simp [Except.map, Except.toOption, hother]

end PageClaims

namespace TokenConfig

theorem isHeader_header : Token.isHeader (Bytes.ofString Token.header.text) = true := by
  rw [Token.isHeader, readBytes_text]
  rfl

/-- What a token of the configuration's own says. -/
theorem open?_sign (c : TokenConfig) (claims : PageClaims) :
    Token.open? c.secret (c.sign claims) =
      claims.cursor.reread?.map fun cursor => { claims with cursor } := by
  rw [sign, Token.open?_ofTexts_eq _ isHeader_header, PageClaims.claims?_text]

/-- A token that is meant for here and has not expired is verified as what it says. -/
theorem verify_sign {c : TokenConfig} {claims : PageClaims} {now : Int}
    (hissuer : claims.issuer = c.issuer) (haudience : claims.audience = c.audience)
    (hclock : 0 ≤ now) (hnow : now ≤ claims.expiresAt.toInt) :
    c.verify now (c.sign claims) =
      match claims.cursor.reread? with
      | some cursor => .ok { claims with cursor }
      | none => .error .invalidToken := by
  rw [verify, c.open?_sign claims]
  cases claims.cursor.reread? with
  | none => rfl
  | some cursor =>
    simp only [Option.map_some]
    rw [if_neg (by omega), if_neg (by omega), if_pos ⟨hissuer, haudience⟩]

/-- A token of the configuration's own is verified if it is meant for here, has not expired and all
its numbers are read. -/
theorem verify_sign_eq_ok_of {c : TokenConfig} {claims read : PageClaims} {now : Int}
    (hissuer : claims.issuer = c.issuer) (haudience : claims.audience = c.audience) :
    c.verify now (c.sign claims) = .ok read ↔
      0 ≤ claims.expiresAt.toInt ∧ now ≤ claims.expiresAt.toInt ∧
        ∃ cursor, claims.cursor.reread? = some cursor ∧ { claims with cursor } = read := by
  rw [verify, c.open?_sign claims]
  cases claims.cursor.reread? with
  | none => simp
  | some cursor =>
    simp only [Option.map_some, Option.some.injEq, exists_eq_left']
    split
    next hnegative => simp; omega
    next hnegative =>
      split
      next hexpired => simp; omega
      next hexpired =>
        rw [if_pos ⟨hissuer, haudience⟩, Except.ok.injEq]
        exact ⟨fun h => ⟨by omega, by omega, h⟩, fun h => h.2.2⟩

/-- Claims come back from their token just when every floating-point number of the cursor is read from
its text as it is. All else comes back in any case, unless one of these numbers is not read at all. -/
theorem verify_sign_eq_ok_iff {c : TokenConfig} {claims : PageClaims} {now : Int}
    (hissuer : claims.issuer = c.issuer) (haudience : claims.audience = c.audience)
    (hclock : 0 ≤ now) (hnow : now ≤ claims.expiresAt.toInt) :
    (c.verify now (c.sign claims) = .ok claims ↔ claims.cursor.IsReread) ∧
      (∀ cursor, claims.cursor.reread? = some cursor →
        c.verify now (c.sign claims) = .ok { claims with cursor }) ∧
      (claims.cursor.reread? = none → c.verify now (c.sign claims) = .error .invalidToken) := by
  have hverify := verify_sign hissuer haudience hclock hnow
  rw [← Cursor.reread?_eq_some_iff, hverify]
  refine ⟨?_, fun cursor h => by rw [h], fun h => by rw [h]⟩
  cases claims.cursor.reread? with
  | none => simp
  | some cursor =>
    simp only [Except.ok.injEq, Option.some.injEq]
    constructor
    · exact fun h => congrArg PageClaims.cursor h
    · rintro rfl
      rfl

/-- Claims for the page after a row with a number close to the end of the integers that
floating-point numbers tell apart. -/
def rowClaims : PageClaims where
  fingerprint := "f"
  pageSize := 2
  cursor := .keyset [.text "\u00e9", .real (.ofInt 9007199254740991)]
  page := 2
  generation := 1
  nonce := "n"
  issuedAt := 0
  expiresAt := 900
  issuer := "querypilot"
  audience := "querypilot"

/-- The number comes back as the one before it. -/
theorem verify_sign_rowClaims :
    ({} : TokenConfig).verify 0 (({} : TokenConfig).sign rowClaims) =
        .ok { rowClaims with
          cursor := .keyset [.text "\u00e9", .real (.ofInt 9007199254740990)] } ∧
      ({} : TokenConfig).verify 0 (({} : TokenConfig).sign rowClaims) ≠ .ok rowClaims := by
  have hissuer : rowClaims.issuer = ({} : TokenConfig).issuer := rfl
  have haudience : rowClaims.audience = ({} : TokenConfig).audience := rfl
  have hclock : (0 : Int) ≤ 0 := Int.le_refl 0
  obtain ⟨hiff, hsome, -⟩ := verify_sign_eq_ok_iff hissuer haudience hclock (by decide)
  refine ⟨hsome _ (by decide +kernel), fun h => ?_⟩
  have hread := hiff.mp h _ rfl (.ofInt 9007199254740991) (by simp)
  exact absurd hread (by decide +kernel)

end TokenConfig

end CatalogQuery
