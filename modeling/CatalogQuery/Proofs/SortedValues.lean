import CatalogQuery.Json.Tree
import CatalogQuery.Proofs.CheckedResults
import Mathlib.Data.String.Basic
/-!
# Sorted values

A value that is read has the members of its objects in the order of their keys, one for each key. Such
a value is found again in its own tree.
-/
namespace CatalogQuery.Json

section Members

variable {α : Type} {key : String} {value : α} {members : List (String × α)}

theorem insertMember_of_forall_lt (h : ∀ m ∈ members, m.1 < key) :
    insertMember key value members = members ++ [(key, value)] := by
  induction members with
  | nil => rfl
  | cons m members ih =>
    obtain ⟨hm, hmembers⟩ := List.forall_mem_cons.mp h
    rw [insertMember, if_neg hm.ne', if_neg hm.asymm, ih hmembers, List.cons_append]

theorem mem_insertMember {m : String × α} (hm : m ∈ insertMember key value members) :
    m = (key, value) ∨ m ∈ members := by
  induction members with
  | nil => exact .inl (List.mem_singleton.mp hm)
  | cons n members ih =>
    rw [insertMember] at hm
    split at hm
    next => exact (List.mem_cons.mp hm).imp_right (List.mem_cons_of_mem _)
    next =>
      split at hm
      next => exact List.mem_cons.mp hm
      next =>
        rcases List.mem_cons.mp hm with rfl | hm
        · exact .inr List.mem_cons_self
        · exact (ih hm).imp_right (List.mem_cons_of_mem _)

/-- A member is put at its place. -/
theorem pairwise_insertMember (h : members.Pairwise fun a b => a.1 < b.1) :
    (insertMember key value members).Pairwise fun a b => a.1 < b.1 := by
  induction members with
  | nil => exact List.pairwise_singleton _ _
  | cons n members ih =>
    obtain ⟨hfirst, hrest⟩ := List.pairwise_cons.mp h
    rw [insertMember]
    split
    next heq => exact List.pairwise_cons.mpr ⟨fun m hm => heq ▸ hfirst m hm, hrest⟩
    next hne =>
      split
      next hlt =>
        refine List.pairwise_cons.mpr ⟨List.forall_mem_cons.mpr ⟨hlt, fun m hm => ?_⟩, h⟩
        exact hlt.trans (hfirst m hm)
      next hge =>
        refine List.pairwise_cons.mpr ⟨fun m hm => ?_, ih hrest⟩
        rcases mem_insertMember hm with rfl | hm
        · exact lt_of_le_of_ne (not_lt.mp hge) (Ne.symm hne)
        · exact hfirst m hm

/-- A member of a new key is one more. -/
theorem insertMember_perm (h : key ∉ members.map (·.1)) :
    (insertMember key value members).Perm (members ++ [(key, value)]) := by
  induction members with
  | nil => exact .refl _
  | cons n members ih =>
    rw [List.map_cons, List.mem_cons, not_or] at h
    rw [insertMember, if_neg h.1]
    split
    next => exact (List.perm_append_singleton _ _).symm
    next => exact (ih h.2).cons _

/-- The members in order, with those that are already in order before them. -/
def sortInto (sorted members : List (String × α)) : List (String × α) :=
  members.foldl (fun acc m => insertMember m.1 m.2 acc) sorted

theorem sortInto_cons (sorted : List (String × α)) (m : String × α) :
    sortInto sorted (m :: members) = sortInto (insertMember m.1 m.2 sorted) members := rfl

theorem pairwise_sortInto {sorted : List (String × α)}
    (h : sorted.Pairwise fun a b => a.1 < b.1) :
    (sortInto sorted members).Pairwise fun a b => a.1 < b.1 := by
  induction members generalizing sorted with
  | nil => exact h
  | cons m members ih => exact ih (pairwise_insertMember h)

theorem pairwise_sortMembers (members : List (String × α)) :
    (sortMembers members).Pairwise fun a b => a.1 < b.1 :=
  pairwise_sortInto .nil

theorem mem_sortInto {sorted : List (String × α)} {m : String × α}
    (hm : m ∈ sortInto sorted members) : m ∈ sorted ∨ m ∈ members := by
  induction members generalizing sorted with
  | nil => exact .inl hm
  | cons n members ih =>
    rcases ih hm with hm | hm
    · rcases mem_insertMember hm with rfl | hm
      · exact .inr List.mem_cons_self
      · exact .inl hm
    · exact .inr (List.mem_cons_of_mem _ hm)

theorem mem_of_mem_sortMembers {m : String × α} (hm : m ∈ sortMembers members) : m ∈ members :=
  (mem_sortInto hm).resolve_left List.not_mem_nil

theorem sortInto_eq_append {sorted : List (String × α)}
    (h : (sorted ++ members).Pairwise fun a b => a.1 < b.1) :
    sortInto sorted members = sorted ++ members := by
  induction members generalizing sorted with
  | nil => exact (List.append_nil _).symm
  | cons m members ih =>
    have hlast : ∀ n ∈ sorted, n.1 < m.1 := fun n hn =>
      (List.pairwise_append.mp h).2.2 n hn m List.mem_cons_self
    rw [List.append_cons] at h
    rw [sortInto_cons, insertMember_of_forall_lt hlast, ih h, ← List.append_cons]

/-- Members in order stay as they are. -/
theorem sortMembers_eq_self (h : members.Pairwise fun a b => a.1 < b.1) :
    sortMembers members = members :=
  sortInto_eq_append h

theorem sortInto_perm {sorted : List (String × α)} (h : ((sorted ++ members).map (·.1)).Nodup) :
    (sortInto sorted members).Perm (sorted ++ members) := by
  induction members generalizing sorted with
  | nil => rw [List.append_nil]; exact .refl _
  | cons m members ih =>
    rw [List.append_cons] at h ⊢
    have hfresh : m.1 ∉ sorted.map (·.1) := by
      rw [List.map_append, List.map_append] at h
      have hpair := (List.nodup_append.mp (List.nodup_append.mp h).1).2.2
      exact fun hmem => hpair _ hmem _ (List.mem_singleton_self _) rfl
    have hinsert : (insertMember m.1 m.2 sorted).Perm (sorted ++ [m]) := insertMember_perm hfresh
    have hperm := hinsert.append_right members
    exact (ih ((hperm.map _).nodup_iff.mpr h)).trans hperm

/-- Where no key is there twice, sorting loses nothing. -/
theorem sortMembers_perm (h : (members.map (·.1)).Nodup) : (sortMembers members).Perm members :=
  sortInto_perm h

end Members

mutual

/-- The members of every object in the value are in the order of their keys, one for each key. -/
def IsSorted : Json → Prop
  | .arr items => sortedItems items
  | .obj members => (members.Pairwise fun a b => a.1 < b.1) ∧ sortedMembers members
  | .null | .bool _ | .int _ | .real _ | .str _ => True

def sortedItems : List Json → Prop
  | [] => True
  | v :: vs => v.IsSorted ∧ sortedItems vs

def sortedMembers : List (String × Json) → Prop
  | [] => True
  | (_, v) :: ms => v.IsSorted ∧ sortedMembers ms

end

theorem sortedItems_iff (vs : List Json) : sortedItems vs ↔ ∀ v ∈ vs, v.IsSorted := by
  induction vs with
  | nil => simp [sortedItems]
  | cons v vs ih => rw [sortedItems, ih, List.forall_mem_cons]

theorem sortedMembers_iff (ms : List (String × Json)) : sortedMembers ms ↔ ∀ m ∈ ms, m.2.IsSorted := by
  induction ms with
  | nil => simp [sortedMembers]
  | cons m ms ih => rw [sortedMembers, ih, List.forall_mem_cons]

mutual

/-- A value that is read is sorted. -/
theorem isSorted_of_value : ∀ (t : Tree) (depth : Nat) {v : Json}, t.value depth = .ok v → v.IsSorted
  | .broken, _, _, h | .stuck, _, _, h | .num none, _, _, h | .str none, _, _, h
  | .arr _ _, 0, _, h | .obj _ _, 0, _, h => by simp only [Tree.value] at h; cases h
  | .null, _, _, h | .bool _, _, _, h | .num (some (.integer _)), _, _, h
  | .num (some (.real _)), _, _, h | .str (some _), _, _, h => by
    simp only [Tree.value, Except.ok.injEq] at h
    subst h
    trivial
  | .arr items closed, depth + 1, _, h => by
    rw [Tree.value] at h
    obtain ⟨vs, hvs, h⟩ := bind_ok h
    split at h
    next =>
      cases h
      exact (sortedItems_iff vs).mpr (isSorted_of_valueItems items depth hvs)
    next => cases h
  | .obj members closed, depth + 1, _, h => by
    rw [Tree.value] at h
    obtain ⟨ms, hms, h⟩ := bind_ok h
    split at h
    next =>
      cases h
      refine ⟨pairwise_sortMembers ms, (sortedMembers_iff _).mpr fun m hm => ?_⟩
      exact isSorted_of_valueMembers members depth hms m (mem_of_mem_sortMembers hm)
    next => cases h

theorem isSorted_of_valueItems : ∀ (ts : List Tree) (depth : Nat) {vs : List Json},
    valueItems depth ts = .ok vs → ∀ v ∈ vs, v.IsSorted
  | [], _, _, h => by
    cases h
    exact List.forall_mem_nil _
  | t :: ts, depth, _, h => by
    rw [valueItems] at h
    obtain ⟨v, hv, h⟩ := bind_ok h
    obtain ⟨vs, hvs, h⟩ := bind_ok h
    cases h
    exact List.forall_mem_cons.mpr
      ⟨isSorted_of_value t depth hv, isSorted_of_valueItems ts depth hvs⟩

theorem isSorted_of_valueMembers : ∀ (ts : List (Option String × Tree)) (depth : Nat)
    {ms : List (String × Json)}, valueMembers depth ts = .ok ms → ∀ m ∈ ms, m.2.IsSorted
  | [], _, _, h => by
    cases h
    exact List.forall_mem_nil _
  | (none, _) :: _, _, _, h => by
    rw [valueMembers] at h
    cases h
  | (some key, t) :: ts, depth, _, h => by
    rw [valueMembers] at h
    obtain ⟨v, hv, h⟩ := bind_ok h
    obtain ⟨ms, hms, h⟩ := bind_ok h
    cases h
    exact List.forall_mem_cons.mpr
      ⟨isSorted_of_value t depth hv, isSorted_of_valueMembers ts depth hms⟩

end

mutual

/-- A sorted value is found in its own tree. -/
theorem value_toTree : ∀ (v : Json) (levels : Nat), v.IsSorted → v.depth ≤ levels →
    v.toTree.value levels = .ok v
  | .null, _, _, _ | .bool _, _, _, _ | .int _, _, _, _ | .real _, _, _, _ | .str _, _, _, _ => by
    simp only [toTree, Tree.value]
  | .arr items, levels, hsorted, hdepth => by
    rw [depth] at hdepth
    obtain ⟨levels, rfl⟩ : ∃ n, levels = n + 1 := ⟨levels - 1, by omega⟩
    rw [toTree, Tree.value, valueItems_toTrees items levels hsorted (by omega)]
    rfl
  | .obj members, levels, hsorted, hdepth => by
    rw [depth] at hdepth
    obtain ⟨levels, rfl⟩ : ∃ n, levels = n + 1 := ⟨levels - 1, by omega⟩
    rw [toTree, Tree.value, valueMembers_toMembers members levels hsorted.2 (by omega)]
    exact congrArg (fun ms => Except.ok (Json.obj ms)) (sortMembers_eq_self hsorted.1)

theorem valueItems_toTrees : ∀ (vs : List Json) (levels : Nat), sortedItems vs →
    depth.depthItems vs ≤ levels → valueItems levels (toTrees vs) = .ok vs
  | [], _, _, _ => by rw [toTrees, valueItems]
  | v :: vs, levels, hsorted, hdepth => by
    obtain ⟨hv, hvs⟩ := max_le_iff.mp hdepth
    rw [toTrees, valueItems, value_toTree v levels hsorted.1 hv,
      valueItems_toTrees vs levels hsorted.2 hvs]
    rfl

theorem valueMembers_toMembers : ∀ (ms : List (String × Json)) (levels : Nat), sortedMembers ms →
    depth.depthMembers ms ≤ levels → valueMembers levels (toMembers ms) = .ok ms
  | [], _, _, _ => by rw [toMembers, valueMembers]
  | (k, v) :: ms, levels, hsorted, hdepth => by
    obtain ⟨hv, hms⟩ := max_le_iff.mp hdepth
    rw [toMembers, valueMembers, value_toTree v levels hsorted.1 hv,
      valueMembers_toMembers ms levels hsorted.2 hms]
    rfl

end

end CatalogQuery.Json
