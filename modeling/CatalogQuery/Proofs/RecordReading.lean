import CatalogQuery.Catalog.File
import CatalogQuery.Proofs.JsonText
/-!
# Records that were written

A record is read back from an object whose members are written in the order of the record, each one
or left out where it may be. What the object is to be read from is free: the text of it, or the value
itself.
-/
namespace CatalogQuery.Json

def memberTrees (tree : Json → Tree) (members : List (String × Json)) :
    List (Option String × Tree) :=
  members.map fun m => (some m.1, tree m.2)

theorem printedMembers_eq (members : List (String × Json)) :
    printedMembers members = memberTrees printed members := by
  induction members with
  | nil => rfl
  | cons m members ih => rw [printedMembers, ih]; rfl

theorem toMembers_eq (members : List (String × Json)) : toMembers members = memberTrees toTree members := by
  induction members with
  | nil => rfl
  | cons m members ih => rw [toMembers, ih]; rfl

theorem printedItems_eq (vs : List Json) : printedItems vs = vs.map printed := by
  induction vs with
  | nil => rfl
  | cons v vs ih => rw [printedItems, ih]; rfl

theorem toTrees_eq (vs : List Json) : toTrees vs = vs.map toTree := by
  induction vs with
  | nil => rfl
  | cons v vs ih => rw [toTrees, ih]; rfl

theorem findMember_memberTrees (tree : Json → Tree) (members : List (String × Json)) (key : String) :
    Record.findMember (memberTrees tree members) key = (members.lookup key).map tree := by
  induction members with
  | nil => rfl
  | cons m members ih =>
    rw [Record.findMember, memberTrees, List.map_cons, List.lookup_cons, List.lookup_cons]
    by_cases hkey : key = m.1
    · simp [hkey]
    · have hsome : (some key == some m.1) = false := beq_false_of_ne fun h => hkey (Option.some.inj h)
      rw [hsome, beq_false_of_ne hkey]
      exact ih

theorem lookup_eq_none_of_notMem {members : List (String × Json)} {key : String}
    (h : key ∉ members.map (·.1)) : members.lookup key = none := by
  rw [List.lookup_eq_none_iff]
  intro m hm
  rw [bne_iff_ne]
  rintro rfl
  exact h (List.mem_map_of_mem hm)

theorem lookup_eq_some_of_mem {α : Type} {members : List (String × α)}
    (hnodup : (members.map (·.1)).Nodup) {m : String × α} (hm : m ∈ members) :
    members.lookup m.1 = some m.2 := by
  induction members with
  | nil => cases hm
  | cons n members ih =>
    obtain ⟨hfresh, hnodup⟩ := List.nodup_cons.mp hnodup
    rw [List.lookup_cons]
    rcases List.mem_cons.mp hm with rfl | hm
    · rw [beq_self_eq_true]
    · have hne : m.1 ≠ n.1 := fun heq => hfresh (List.mem_map.mpr ⟨m, hm, heq⟩)
      rw [beq_false_of_ne hne]
      exact ih hnodup hm

namespace Reader

theorem nullable_ok {α : Type} {r : Reader α} {depth : Nat} {t : Tree} {x : α} (hnull : t ≠ .null)
    (h : r depth t = .ok x) : r.nullable depth t = .ok (some x) := by
  rw [nullable, h]
  · rfl
  · exact hnull

theorem name_ok {α : Type} {ofName? : String → Option α} {s : String} {x : α} (depth : Nat)
    (h : ofName? s = some x) : name ofName? depth (.str (some s)) = .ok x := by
  rw [name, nameOver, h]

theorem items_ok {α : Type} {r : Reader α} {depth : Nat} {tree : α → Tree} {xs : List α}
    (h : ∀ x ∈ xs, r depth (tree x) = .ok x) : items r depth (xs.map tree) = .ok xs := by
  induction xs with
  | nil => rfl
  | cons x xs ih =>
    rw [List.map_cons, items, h x List.mem_cons_self, ih fun y hy => h y (List.mem_cons_of_mem _ hy)]
    rfl

/-- A list is read back if every item is. -/
theorem list_ok {α : Type} {r : Reader α} {depth : Nat} {tree : α → Tree} {xs : List α}
    (h : ∀ x ∈ xs, r depth (tree x) = .ok x) :
    r.list (depth + 1) (.arr (xs.map tree) true) = .ok xs := by
  rw [list, items_ok h]
  rfl

theorem list_printed_ok {α : Type} {r : Reader α} {depth : Nat} {f : α → Json} {xs : List α}
    (h : ∀ x ∈ xs, r depth (f x).printed = .ok x) :
    r.list (depth + 1) (Json.arr (xs.map f)).printed = .ok xs := by
  rw [printed, printedItems_eq, List.map_map]
  exact list_ok h

theorem list_toTree_ok {α : Type} {r : Reader α} {depth : Nat} {f : α → Json} {xs : List α}
    (h : ∀ x ∈ xs, r depth (f x).toTree = .ok x) :
    r.list (depth + 1) (Json.arr (xs.map f)).toTree = .ok xs := by
  rw [toTree, toTrees_eq, List.map_map]
  exact list_ok h

end Reader

namespace Record

variable {α β : Type}

/-- The value is written as these members: they are members of the record in their order, every one
that is there passes its check, and where just these are found they make the value. -/
structure Writes (tree : Json → Tree) (r : Record α) (depth : Nat) (members : List (String × Json))
    (x : α) : Prop where
  keys : (members.map (·.1)).Sublist (r.known.map (·.1))
  checks : ∀ m ∈ r.known, ∀ v, members.lookup m.1 = some v → m.2 depth (tree v) = .ok ()
  build : ∀ find, (∀ key ∈ r.known.map (·.1), find key = (members.lookup key).map tree) →
    r.build depth find = .ok x

section Writing

variable {tree : Json → Tree} {depth : Nat} {key : String}

theorem known_seq (f : Record (α → β)) (r : Record α) : (f <*> r).known = f.known ++ r.known := rfl

theorem build_map (f : α → β) (r : Record α) (depth : Nat) (find : String → Option Tree) :
    (f <$> r).build depth find = (r.build depth find).map f := rfl

theorem build_seq (f : Record (α → β)) (r : Record α) (depth : Nat) (find : String → Option Tree) :
    (f <*> r).build depth find =
      (f.build depth find).bind fun g => (r.build depth find).bind fun x => .ok (g x) := rfl

theorem Writes.map {r : Record α} {members : List (String × Json)} {x : α}
    (h : r.Writes tree depth members x) (f : α → β) : (f <$> r).Writes tree depth members (f x) where
  keys := h.keys
  checks := h.checks
  build find hfind := by
    rw [build_map, h.build find hfind]
    rfl

/-- Two groups of members are written one after the other. -/
theorem Writes.seq {f : Record (α → β)} {r : Record α} {ms ns : List (String × Json)} {g : α → β}
    {x : α} (hf : f.Writes tree depth ms g) (hr : r.Writes tree depth ns x)
    (hfresh : ∀ key ∈ r.known.map (·.1), key ∉ f.known.map (·.1)) :
    (f <*> r).Writes tree depth (ms ++ ns) (g x) := by
  have hfirst : ∀ key ∈ f.known.map (·.1), (ms ++ ns).lookup key = ms.lookup key := by
    intro key hkey
    have hnone : ns.lookup key = none :=
      lookup_eq_none_of_notMem fun hmem => hfresh key (hr.keys.subset hmem) hkey
    rw [List.lookup_append, hnone, Option.or_none]
  have hsecond : ∀ key ∈ r.known.map (·.1), (ms ++ ns).lookup key = ns.lookup key := by
    intro key hkey
    have hnone : ms.lookup key = none :=
      lookup_eq_none_of_notMem fun hmem => hfresh key hkey (hf.keys.subset hmem)
    rw [List.lookup_append, hnone, Option.none_or]
  constructor
  case keys =>
    rw [known_seq, List.map_append, List.map_append]
    exact hf.keys.append hr.keys
  case checks =>
    intro m hm v hv
    rw [known_seq] at hm
    rcases List.mem_append.mp hm with hm | hm
    · exact hf.checks m hm v (by rwa [hfirst _ (List.mem_map_of_mem hm)] at hv)
    · exact hr.checks m hm v (by rwa [hsecond _ (List.mem_map_of_mem hm)] at hv)
  case build =>
    intro find hfind
    rw [known_seq, List.map_append] at hfind
    have hg := hf.build find fun key hkey => by
      rw [hfind key (List.mem_append_left _ hkey), hfirst key hkey]
    have hx := hr.build find fun key hkey => by
      rw [hfind key (List.mem_append_right _ hkey), hsecond key hkey]
    rw [build_seq, hg, hx]
    rfl

/-- A member that is there. -/
theorem writes_member {r : Reader α} {v : Json} {x : α} (absent : Except Fault α)
    (h : r depth (tree v) = .ok x) : (member key r absent).Writes tree depth [(key, v)] x where
  keys := List.Sublist.refl _
  checks m hm w hw := by
    cases List.mem_singleton.mp hm
    rw [List.lookup_cons_self, Option.some.injEq] at hw
    show (r depth (tree w)).map _ = _
    rw [← hw, h]
    rfl
  build find hfind := by
    have hkey := hfind key (List.mem_singleton_self _)
    rw [List.lookup_cons_self, Option.map_some] at hkey
    simp only [member, hkey, h]

theorem writes_required {r : Reader α} {v : Json} {x : α} (h : r depth (tree v) = .ok x) :
    (required key r).Writes tree depth [(key, v)] x :=
  writes_member _ h

theorem writes_withDefault {r : Reader α} {v : Json} {x : α} (default : α)
    (h : r depth (tree v) = .ok x) : (withDefault key r default).Writes tree depth [(key, v)] x :=
  writes_member _ h

/-- A member that is left out where there is no value for it. -/
theorem writes_optional {r : Reader α} {f : α → Json} {o : Option α}
    (h : ∀ x ∈ o, tree (f x) ≠ .null ∧ r depth (tree (f x)) = .ok x) :
    (optional key r).Writes tree depth (optionMember key f o) o := by
  cases o with
  | some x => exact writes_member _ (Reader.nullable_ok (h x rfl).1 (h x rfl).2)
  | none =>
    constructor
    case keys => exact List.nil_sublist _
    case checks => exact fun _ _ _ hv => nomatch hv
    case build =>
      intro find hfind
      have hkey : find key = none := hfind key (List.mem_singleton_self _)
      simp only [optional, member, hkey]

theorem scanMembers_ok {known : List (String × Reader Unit)} {seen : List String}
    {members : List (String × Json)} (hnodup : (members.map (·.1)).Nodup)
    (hseen : ∀ m ∈ members, m.1 ∉ seen)
    (hchecks : ∀ m ∈ members, ∃ check, known.lookup m.1 = some check ∧
      check depth (tree m.2) = .ok ()) :
    scanMembers known depth seen (memberTrees tree members) = .ok () := by
  induction members generalizing seen with
  | nil => rfl
  | cons m members ih =>
    obtain ⟨hfresh, hnodup⟩ := List.nodup_cons.mp hnodup
    obtain ⟨check, hcheck, hok⟩ := hchecks m List.mem_cons_self
    have hrest : scanMembers known depth (m.1 :: seen) (memberTrees tree members) = .ok () := by
      refine ih hnodup (fun n hn => ?_) fun n hn => hchecks n (List.mem_cons_of_mem _ hn)
      rw [List.mem_cons, not_or]
      exact ⟨fun heq => hfresh (List.mem_map.mpr ⟨n, hn, heq⟩), hseen n (List.mem_cons_of_mem _ hn)⟩
    rw [memberTrees, List.map_cons, scanMembers, hcheck]
    simp only [if_neg (hseen m List.mem_cons_self), hok]
    exact hrest

/-- What was written is read back. -/
theorem Writes.reader_obj {r : Record α} {members : List (String × Json)} {x : α}
    (h : r.Writes tree depth members x) (hknown : (r.known.map (·.1)).Nodup) :
    r.reader (depth + 1) (.obj (memberTrees tree members) true) = .ok x := by
  have hnodup := hknown.sublist h.keys
  have hscan : scanMembers r.known depth [] (memberTrees tree members) = .ok () := by
    refine scanMembers_ok hnodup (fun _ _ => List.not_mem_nil) fun m hm => ?_
    obtain ⟨n, hn, hkey⟩ := List.mem_map.mp (h.keys.subset (List.mem_map_of_mem hm))
    have hfound := lookup_eq_some_of_mem hknown hn
    rw [hkey] at hfound
    exact ⟨n.2, hfound, h.checks n hn m.2 (hkey ▸ lookup_eq_some_of_mem hnodup hm)⟩
  rw [reader, hscan]
  exact h.build _ fun key _ => findMember_memberTrees tree members key

theorem Writes.reader_printed {r : Record α} {members : List (String × Json)} {x : α}
    (h : r.Writes printed depth members x) (hknown : (r.known.map (·.1)).Nodup) :
    r.reader (depth + 1) (Json.obj members).printed = .ok x := by
  rw [printed, printedMembers_eq]
  exact h.reader_obj hknown

theorem Writes.reader_toTree {r : Record α} {members : List (String × Json)} {x : α}
    (h : r.Writes toTree depth members x) (hknown : (r.known.map (·.1)).Nodup) :
    r.reader (depth + 1) (Json.obj members).toTree = .ok x := by
  rw [toTree, toMembers_eq]
  exact h.reader_obj hknown

end Writing

end Record

end CatalogQuery.Json
