import CatalogQuery.Proofs.StatementText
/-!
# Reading statements back

The tokens of a statement are read as that statement, and so is its text with its list of values:
the text and the list say just what the statement says, and each value is in its own place.
-/
namespace CatalogQuery

variable {α β : Type}

/-- The tokens begin with one of these words, if there are any. -/
def BeginsWith (words : List String) (ts : List (Token α)) : Prop :=
  ∀ t ∈ ts.head?, ∃ word ∈ words, t = .word word

/-- The tokens do not go on with an argument. -/
def GoesOn (ts : List (Token α)) : Prop := ∀ t ∈ ts.head?, t.isMark '(' = false

namespace BeginsWith

variable {words : List String} {ts : List (Token α)}

theorem isMark (h : BeginsWith words ts) (mark : Char) : ∀ t ∈ ts.head?, t.isMark mark = false := by
  intro t ht
  obtain ⟨word, -, rfl⟩ := h t ht
  rfl

theorem isWord (h : BeginsWith words ts) {word : String} (hword : word ∉ words) :
    ∀ t ∈ ts.head?, t.isWord word = false := by
  intro t ht
  obtain ⟨w, hw, rfl⟩ := h t ht
  simp only [Token.isWord, beq_eq_false_iff_ne]
  rintro rfl
  exact hword hw

theorem clauseTokens (h : BeginsWith words ts) (word : String) (more : List String)
    (mark : Token α) (members : List (List (Token α))) :
    BeginsWith (word :: words) (clauseTokens (word :: more) mark members ++ ts) := by
  cases members with
  | nil =>
    intro t ht
    obtain ⟨w, hw, rfl⟩ := h t ht
    exact ⟨w, List.mem_cons_of_mem _ hw, rfl⟩
  | cons member members =>
    intro t ht
    refine ⟨word, List.mem_cons_self, ?_⟩
    simpa [CatalogQuery.clauseTokens] using ht.symm

theorem windowTokens (h : BeginsWith words ts) (word : String) (v : Option α) :
    BeginsWith (word :: words) (windowTokens word v ++ ts) := by
  cases v with
  | none =>
    intro t ht
    obtain ⟨w, hw, rfl⟩ := h t ht
    exact ⟨w, List.mem_cons_of_mem _ hw, rfl⟩
  | some v =>
    intro t ht
    refine ⟨word, List.mem_cons_self, ?_⟩
    simpa [CatalogQuery.windowTokens] using ht.symm

end BeginsWith

@[simp] theorem Token.isWord_word (word : String) : isWord word (.word word : Token α) = true :=
  beq_self_eq_true word

theorem afterWords?_map (words : List String) (ts : List (Token α)) :
    afterWords? words (words.map .word ++ ts) = some ts := by
  induction words with
  | nil => rfl
  | cons word words ih => simpa [afterWords?, Token.isWord] using ih

theorem afterWords?_eq_none {word : String} {words : List String} {ts : List (Token α)}
    (h : ∀ t ∈ ts.head?, t.isWord word = false) : afterWords? (word :: words) ts = none := by
  cases ts with
  | nil => rfl
  | cons t ts => simp [afterWords?, h t rfl]

theorem length_le_joinTokens (mark : Token α) (members : List (List (Token α))) :
    members.length ≤ (joinTokens mark members).length + 1 := by
  induction members with
  | nil => simp
  | cons member members ih =>
    cases members with
    | nil => simp
    | cons next members =>
      simp only [joinTokens, List.length_cons, List.length_append] at ih ⊢
      omega

section Lists

variable {read : TokenReader α β} {separates : Token α → Bool} {mark : Token α}

/-- Elements are read one after the other if each is read wherever a separator follows. -/
theorem readUpTo_map {γ : Type} {render : γ → List (Token α)} {made : γ → β} {xs : List γ}
    {follows : List (Token α) → Prop} (hmark : separates mark = true)
    (hfollows : ∀ us, follows (mark :: us))
    (hread : ∀ x ∈ xs, ∀ us, follows us → read (render x ++ us) = some (made x, us)) (hne : xs ≠ [])
    {ts : List (Token α)} (hend : ∀ t ∈ ts.head?, separates t = false) (hts : follows ts) {n : Nat}
    (hn : xs.length ≤ n) :
    readUpTo read separates n (joinTokens mark (xs.map render) ++ ts) = some (xs.map made, ts) := by
  induction xs generalizing n with
  | nil => exact absurd rfl hne
  | cons x xs ih =>
    obtain ⟨m, rfl⟩ : ∃ m, n = m + 1 := ⟨n - 1, by simp at hn; omega⟩
    cases xs with
    | nil =>
      have hx := hread x List.mem_cons_self ts hts
      cases ts with
      | nil =>
        rw [List.append_nil] at hx
        simp [readUpTo, joinTokens, hx]
      | cons t ts => simp [readUpTo, joinTokens, hx, hend t rfl]
    | cons y ys =>
      have hx := hread x List.mem_cons_self
        (mark :: (joinTokens mark ((y :: ys).map render) ++ ts)) (hfollows _)
      have hrest := ih (fun z hz => hread z (List.mem_cons_of_mem _ hz)) (List.cons_ne_nil y ys)
        (by simpa using hn)
      have hjoin : joinTokens mark ((x :: y :: ys).map render) ++ ts =
          render x ++ mark :: (joinTokens mark ((y :: ys).map render) ++ ts) := by
        simp [joinTokens]
      rw [hjoin, readUpTo, hx]
      simp only [Option.bind_eq_bind, Option.bind_some, hmark, if_true, hrest]
      rfl

theorem readList_map {γ : Type} {render : γ → List (Token α)} {made : γ → β} {xs : List γ}
    {follows : List (Token α) → Prop} (hmark : separates mark = true)
    (hfollows : ∀ us, follows (mark :: us))
    (hread : ∀ x ∈ xs, ∀ us, follows us → read (render x ++ us) = some (made x, us)) (hne : xs ≠ [])
    {ts : List (Token α)} (hend : ∀ t ∈ ts.head?, separates t = false) (hts : follows ts) :
    readList read separates (joinTokens mark (xs.map render) ++ ts) = some (xs.map made, ts) := by
  refine readUpTo_map hmark hfollows hread hne hend hts ?_
  have hlength := length_le_joinTokens mark (xs.map render)
  simp only [List.length_map, List.length_append] at hlength ⊢
  omega

variable {render : β → List (Token α)} {xs : List β}

theorem readList_joinTokens (hmark : separates mark = true) (hopen : mark.isMark '(' = false)
    (hread : ∀ x ∈ xs, ∀ us, GoesOn us → read (render x ++ us) = some (x, us)) (hne : xs ≠ [])
    {ts : List (Token α)} (hend : ∀ t ∈ ts.head?, separates t = false) (hts : GoesOn ts) :
    readList read separates (joinTokens mark (xs.map render) ++ ts) = some (xs, ts) := by
  have hlist := readList_map hmark (fun us => by simpa [GoesOn] using hopen) hread hne hend hts
  rwa [List.map_id'] at hlist

theorem readEnclosed_joinTokens (hmark : separates mark = true) (hopen : mark.isMark '(' = false)
    (hclose : separates (.mark ')') = false)
    (hread : ∀ x ∈ xs, ∀ us, GoesOn us → read (render x ++ us) = some (x, us)) (hne : xs ≠ [])
    (ts : List (Token α)) :
    readEnclosed read separates (encloseTokens (joinTokens mark (xs.map render)) ++ ts) =
      some (xs, ts) := by
  have hlist : readList read separates (joinTokens mark (xs.map render) ++ .mark ')' :: ts) =
      some (xs, .mark ')' :: ts) :=
    readList_joinTokens hmark hopen hread hne (by simpa using hclose) (by simp [GoesOn, Token.isMark])
  have htokens : encloseTokens (joinTokens mark (xs.map render)) ++ ts =
      .mark '(' :: (joinTokens mark (xs.map render) ++ .mark ')' :: ts) := by
    simp [encloseTokens]
  rw [htokens, readEnclosed]
  simp [afterMark?, Token.isMark, hlist]

theorem readClause_clauseTokens (word : String) (more : List String) (hmark : separates mark = true)
    (hopen : mark.isMark '(' = false)
    (hread : ∀ x ∈ xs, ∀ us, GoesOn us → read (render x ++ us) = some (x, us))
    {ts : List (Token α)} (hend : ∀ t ∈ ts.head?, separates t = false) (hts : GoesOn ts)
    (hword : ∀ t ∈ ts.head?, t.isWord word = false) :
    readClause (word :: more) read separates
        (clauseTokens (word :: more) mark (xs.map render) ++ ts) = some (xs, ts) := by
  cases xs with
  | nil =>
    have hnone : afterWords? (word :: more) ts = none := afterWords?_eq_none hword
    show readClause (word :: more) read separates ts = _
    simp only [readClause, hnone]
  | cons x xs =>
    have hlist := readList_joinTokens hmark hopen hread (List.cons_ne_nil x xs) hend hts
    have htokens : clauseTokens (word :: more) mark ((x :: xs).map render) ++ ts =
        (word :: more).map .word ++ (joinTokens mark ((x :: xs).map render) ++ ts) :=
      List.append_assoc _ _ _
    rw [htokens]
    simp only [readClause, afterWords?_map]
    exact hlist

end Lists

theorem readOutput_tokens (o : Output) {ts : List (Token α)} (hts : GoesOn ts) :
    readOutput (o.tokens ++ ts) = some (o, ts) := by
  cases o with
  | column name =>
    show readOutput (.word name :: ts) = _
    unfold readOutput
    split
    next heq =>
      cases heq
      cases hts _ rfl
    next heq =>
      cases heq
      cases hts _ rfl
    next heq =>
      cases heq
      rfl
    next hne => exact absurd rfl (hne name ts)
  | aggregate f argument label =>
    have hf : AggregateFunction.all.find? (·.keyword == f.keyword) = some f := by
      cases f <;> decide
    cases argument with
    | none => simp [Output.tokens, readOutput, hf]
    | some name => simp [Output.tokens, readOutput, hf]

theorem readCondition_tokens (c : Condition α) (ts : List (Token α)) :
    readCondition (c.tokens ++ ts) = some (c, ts) := by
  cases c with
  | compare column op v => cases op <;> rfl
  | isIn column vs =>
    cases vs with
    | nil => rfl
    | cons v vs =>
      have hvalues : readEnclosed readValue (Token.isMark ',')
          (encloseTokens (joinTokens (.mark ',') ((v :: vs).map fun v => [.value v])) ++ ts) =
            some (v :: vs, ts) :=
        readEnclosed_joinTokens rfl rfl rfl (fun x _ us _ => rfl) (List.cons_ne_nil v vs) ts
      obtain ⟨us, hus⟩ : ∃ us, encloseTokens (joinTokens (.mark ',')
          ((v :: vs).map fun v => [.value v])) ++ ts = .mark '(' :: .value v :: us := by
        cases vs <;> exact ⟨_, rfl⟩
      rw [hus] at hvalues
      have htokens : Condition.tokens (.isIn column (v :: vs)) ++ ts =
          .word column :: .word "IN" :: .mark '(' :: .value v :: us := by
        rw [← hus]
        rfl
      rw [htokens]
      simp only [readCondition, hvalues, Option.map_some]
  | like column v => rfl
  | between column low high => rfl

theorem readTest_tokens (k : KeyTest α) (ts : List (Token α)) :
    readTest (k.tokens ++ ts) = some (k, ts) := by
  cases k with
  | isNull key => cases key <;> rfl
  | isNotNull key => cases key <;> rfl
  | equal key v => cases key <;> rfl
  | above key v => cases key <;> rfl
  | below key v => cases key <;> rfl
  | belowOrNull key v =>
    have hread : readTest (KeyTest.tokens (.belowOrNull key v) ++ ts) =
        if key = key then some (.belowOrNull key v, ts) else none := by
      cases key <;> rfl
    rw [hread, if_pos rfl]

theorem readKeyset_tokens {branches : List (List (KeyTest α))} (h : ∀ branch ∈ branches, branch ≠ [])
    (ts : List (Token α)) : readKeyset (keysetTokens branches ++ ts) = some (branches, ts) := by
  have hbranch : ∀ branch ∈ branches, ∀ us, GoesOn us →
      readEnclosed readTest (Token.isWord "AND") (branchTokens branch ++ us) = some (branch, us) := by
    intro branch hmem us _
    exact readEnclosed_joinTokens (Token.isWord_word _) rfl rfl (fun k _ us _ => readTest_tokens k us)
      (h branch hmem) us
  cases branches with
  | nil => rfl
  | cons branch branches =>
    have hall : readEnclosed (readEnclosed readTest (Token.isWord "AND")) (Token.isWord "OR")
        (keysetTokens (branch :: branches) ++ ts) = some (branch :: branches, ts) :=
      readEnclosed_joinTokens (Token.isWord_word _) rfl rfl hbranch (List.cons_ne_nil _ _) ts
    obtain ⟨us, hus⟩ : ∃ us, keysetTokens (branch :: branches) ++ ts =
        .mark '(' :: .mark '(' :: us := by
      cases branches <;> exact ⟨_, rfl⟩
    rw [hus] at hall ⊢
    exact hall

theorem readMember_tokens {m : Condition α ⊕ List (List (KeyTest α))}
    (h : ∀ branches, m = .inr branches → ∀ branch ∈ branches, branch ≠ []) (ts : List (Token α)) :
    readMember (m.elim Condition.tokens keysetTokens ++ ts) = some (m, ts) := by
  cases m with
  | inl c =>
    obtain ⟨us, hus⟩ : ∃ us, c.tokens ++ ts = .word c.column :: us := by
      cases c <;> exact ⟨_, rfl⟩
    have hc := readCondition_tokens c ts
    simp only [Sum.elim_inl, hus] at hc ⊢
    simp [readMember, hc]
  | inr branches =>
    obtain ⟨us, hus⟩ : ∃ us, keysetTokens branches ++ ts = .mark '(' :: us := by
      cases branches <;> exact ⟨_, rfl⟩
    have hkeyset := readKeyset_tokens (h branches rfl) ts
    simp only [Sum.elim_inr, hus] at hkeyset ⊢
    simp [readMember, hkeyset]

theorem splitMembers_members (s : Statement α) :
    splitMembers s.members = some (s.conditions, s.keyset) := by
  rw [Statement.members]
  induction s.conditions with
  | nil => cases s.keyset <;> rfl
  | cons c cs ih => simp [splitMembers, ih]

theorem readOrder_tokens (o : Term × Direction) (ts : List (Token α)) :
    readOrder (o.1.tokens ++ o.2.tokens ++ ts) = some (o, ts) := by
  obtain ⟨key, direction⟩ := o
  cases key <;> cases direction <;> rfl

theorem readWindow_tokens (word : String) (v : Option α) {ts : List (Token α)}
    (hts : ∀ t ∈ ts.head?, t.isWord word = false) :
    readWindow word (windowTokens word v ++ ts) = some (v, ts) := by
  cases v with
  | none =>
    show readWindow word ts = _
    simp only [readWindow, afterWords?_eq_none hts]
  | some v => simp [windowTokens, readWindow, afterWords?, Token.isWord, readValue]

theorem readGroupBy_tokens (names : List String) {ts : List (Token α)}
    (hts : BeginsWith ["ORDER", "LIMIT", "OFFSET"] ts) :
    readClause ["GROUP", "BY"] readName (Token.isMark ',')
        (clauseTokens ["GROUP", "BY"] (.mark ',') (names.map fun name => [.word name]) ++ ts) =
      some (names, ts) :=
  readClause_clauseTokens "GROUP" ["BY"] rfl rfl (fun _ _ _ _ => rfl) (hts.isMark ',')
    (hts.isMark '(') (hts.isWord (by decide))

theorem readOrderBy_tokens (keys : List (Term × Direction)) {ts : List (Token α)}
    (hts : BeginsWith ["LIMIT", "OFFSET"] ts) :
    readClause ["ORDER", "BY"] readOrder (Token.isMark ',')
        (clauseTokens ["ORDER", "BY"] (.mark ',') (keys.map fun o => o.1.tokens ++ o.2.tokens) ++ ts) =
      some (keys, ts) :=
  readClause_clauseTokens "ORDER" ["BY"] rfl rfl (fun o _ us _ => readOrder_tokens o us)
    (hts.isMark ',') (hts.isMark '(') (hts.isWord (by decide))

namespace Statement.IsPlain

variable {s : Statement α} (hs : s.IsPlain)

include hs

theorem readOutput_tokens (us : List (Token α)) :
    readList readOutput (Token.isMark ',')
        (joinTokens (.mark ',') (s.output.map Output.tokens) ++ .word "FROM" :: us) =
      some (s.output, .word "FROM" :: us) := by
  refine readList_joinTokens rfl rfl (fun o _ us hus => CatalogQuery.readOutput_tokens o hus)
    hs.output_ne_nil ?_ ?_
  · intro t ht
    cases ht
    rfl
  · intro t ht
    cases ht
    rfl

theorem readWhere_tokens {ts : List (Token α)}
    (hts : BeginsWith ["GROUP", "ORDER", "LIMIT", "OFFSET"] ts) :
    readClause ["WHERE"] readMember (Token.isWord "AND")
        (clauseTokens ["WHERE"] (.word "AND") s.whereTokens ++ ts) = some (s.members, ts) := by
  rw [whereTokens]
  refine readClause_clauseTokens "WHERE" [] (Token.isWord_word "AND") rfl ?_
    (hts.isWord (by decide)) (hts.isMark '(') (hts.isWord (by decide))
  intro m hm us _
  apply readMember_tokens
  rintro branches rfl branch hbranch
  apply hs.branches_ne_nil branch
  rcases mem_members.mp hm with ⟨c, -, hc⟩ | ⟨branches', hkeyset, hmember⟩
  · cases hc
  · cases hmember
    rw [hkeyset]
    exact hbranch

/-- The tokens are read clause by clause; what is left behind each begins with the word of a later
one. -/
theorem readStatement_tokens : readStatement s.tokens = some s := by
  have hend : BeginsWith [] ([] : List (Token α)) := by
    intro t ht
    cases ht
  have hoffset := hend.windowTokens "OFFSET" s.offset
  have hreadOffset := readWindow_tokens "OFFSET" s.offset (hend.isWord (by decide))
  rw [List.append_nil] at hoffset hreadOffset
  have hlimit := hoffset.windowTokens "LIMIT" s.limit
  have hreadLimit := readWindow_tokens "LIMIT" s.limit (hoffset.isWord (by decide))
  have horderBy := hlimit.clauseTokens "ORDER" ["BY"] (.mark ',')
    (s.orderBy.map fun o => o.1.tokens ++ o.2.tokens)
  have hgroupBy := horderBy.clauseTokens "GROUP" ["BY"] (.mark ',')
    (s.groupBy.map fun name => [.word name])
  have hselect (us : List (Token α)) : afterWords? ["SELECT"] (.word "SELECT" :: us) = some us :=
    afterWords?_map ["SELECT"] us
  have hfrom (us : List (Token α)) : afterWords? ["FROM"] (.word "FROM" :: us) = some us :=
    afterWords?_map ["FROM"] us
  rw [tokens, readStatement, tailTokens]
  refine Option.bind_eq_some_iff.mpr ⟨_, hselect _, ?_⟩
  refine Option.bind_eq_some_iff.mpr ⟨_, hs.readOutput_tokens _, ?_⟩
  refine Option.bind_eq_some_iff.mpr ⟨_, hfrom _, ?_⟩
  refine Option.bind_eq_some_iff.mpr ⟨_, rfl, ?_⟩
  refine Option.bind_eq_some_iff.mpr ⟨_, hs.readWhere_tokens hgroupBy, ?_⟩
  refine Option.bind_eq_some_iff.mpr ⟨_, splitMembers_members s, ?_⟩
  refine Option.bind_eq_some_iff.mpr ⟨_, readGroupBy_tokens s.groupBy horderBy, ?_⟩
  refine Option.bind_eq_some_iff.mpr ⟨_, readOrderBy_tokens s.orderBy hlimit, ?_⟩
  refine Option.bind_eq_some_iff.mpr ⟨_, hreadLimit, ?_⟩
  refine Option.bind_eq_some_iff.mpr ⟨_, hreadOffset, ?_⟩
  rfl

/-- The text of a statement, read with its list of values, is the statement. -/
theorem ofText?_text : Statement.ofText? s.text s.values = some s := by
  have hscan : scan s.text = some (s.tokens.map Token.erase) := hs.spells
  have hvalues : bindValues (s.tokens.map Token.erase) s.values = some s.tokens := by
    rw [← s.tokenValues_tokens]
    exact bindValues_erase s.tokens
  simp [Statement.ofText?, hscan, hvalues, hs.readStatement_tokens]

end Statement.IsPlain

end CatalogQuery
