/-!
# Identifiers

Plain SQL identifiers, which may stand in a statement without quotes, and result labels.
-/
namespace CatalogQuery.Text

def isIdentifierHead (c : Char) : Bool := c.isAlpha || c == '_'

/-- An ASCII letter, a decimal digit or an underscore. -/
def isIdentifierTail (c : Char) : Bool := c.isAlphanum || c == '_'

/-- A head character followed by any number of tail characters. -/
def isIdentifier (s : String) : Bool :=
  match s.toList with
  | [] => false
  | c :: rest => isIdentifierHead c && rest.all isIdentifierTail

/-- A letter or an underscore, and then letters, digits and underscores. -/
def IsIdentifierSpelling (s : String) : Prop :=
  ∃ head rest, s.toList = head :: rest ∧ (head.isAlpha = true ∨ head = '_') ∧
    ∀ c ∈ rest, c.isAlphanum = true ∨ c = '_'

theorem isIdentifier_iff (s : String) :
    isIdentifier s = true ↔ IsIdentifierSpelling s := by
  rw [isIdentifier, IsIdentifierSpelling]
  cases s.toList with
  | nil => simp
  | cons head rest =>
    simp only [isIdentifierHead, isIdentifierTail, Bool.and_eq_true, Bool.or_eq_true, beq_iff_eq,
      List.all_eq_true, List.cons.injEq]
    constructor
    · rintro ⟨hhead, hrest⟩
      exact ⟨head, rest, ⟨rfl, rfl⟩, hhead, hrest⟩
    · rintro ⟨_, _, ⟨rfl, rfl⟩, hhead, hrest⟩
      exact ⟨hhead, hrest⟩

theorem isIdentifierTail_of_mem {s : String} (h : isIdentifier s = true) {c : Char}
    (hc : c ∈ s.toList) : isIdentifierTail c = true := by
  rw [isIdentifier] at h
  cases hs : s.toList with
  | nil =>
    rw [hs] at hc
    cases hc
  | cons d rest =>
    simp only [hs, Bool.and_eq_true, List.all_eq_true] at h
    rw [hs] at hc
    rcases List.mem_cons.mp hc with rfl | hc
    · have hhead := h.1
      simp only [isIdentifierHead, Bool.or_eq_true] at hhead
      simp only [isIdentifierTail, Char.isAlphanum, Bool.or_eq_true]
      exact hhead.imp_left Or.inl
    · exact h.2 c hc

def labelLimit : Nat := 63

/-- An identifier of at most `labelLimit` characters. -/
def isLabel (s : String) : Bool := isIdentifier s && s.length ≤ labelLimit

theorem isIdentifier_of_isLabel {s : String} (h : isLabel s = true) : isIdentifier s = true := by
  simp only [isLabel, Bool.and_eq_true] at h
  exact h.1

end CatalogQuery.Text
