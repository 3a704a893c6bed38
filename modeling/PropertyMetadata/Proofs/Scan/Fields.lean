import PropertyMetadata.Proofs.Scan.Findings

/-! Fields in the bodies of classes, and when they are met. The walk comes to every node of a tree
but those that a class holds elsewhere than below a member of its body, and it meets the fields of
the classes to which it comes. -/

namespace PropertyMetadata

namespace Tree

variable {t u cls f : Tree} {p q above place : List Nat} {owner : Option Tree}
  {waiting : List Tree}

/-- A field with a name is a member of the body of a class, with the positions of both. -/
structure HasField (t : Tree) (above : List Nat) (cls : Tree) (place : List Nat) (f : Tree) :
    Prop where
  owner : t.at? above = some cls
  isClass : Tree.isClass cls.label = true
  member : ∃ b i, cls.bodyPlace? = some b ∧ place = above ++ [b, i]
  field : t.at? place = some f
  isField : f.isField = true
  named : (f.part? "name").isSome = true

/-- The walk comes to a node. Below a class it comes only to what is below the members of the body.
-/
inductive Reached : Tree → List Nat → Prop
  | here (t : Tree) : Reached t []
  | child {t u : Tree} {i : Nat} {p : List Nat} : isClass t.label = false →
    t.children[i]? = some u → Reached u p → Reached t (i :: p)
  | inside {t u : Tree} {b i j : Nat} {p : List Nat} : isClass t.label = true →
    t.bodyPlace? = some b → t.at? [b, i, j] = some u → Reached u p → Reached t (b :: i :: j :: p)

/-- Every class above a position holds it below a member of its body. -/
def Inside (t : Tree) (p : List Nat) : Prop :=
  ∀ q r cls, p = q ++ r → r ≠ [] → t.at? q = some cls → isClass cls.label = true →
    ∃ b i j s, cls.bodyPlace? = some b ∧ r = b :: i :: j :: s

/-! ### Parts of trees -/

theorem HasField.below (hu : t.at? q = some u) (h : u.HasField above cls place f) :
    t.HasField (q ++ above) cls (q ++ place) f where
  owner := (at?_below hu above).trans h.owner
  isClass := h.isClass
  member := by
    obtain ⟨b, i, hb, rfl⟩ := h.member
    exact ⟨b, i, hb, (List.append_assoc _ _ _).symm⟩
  field := (at?_below hu place).trans h.field
  isField := h.isField
  named := h.named

theorem HasField.within (hu : t.at? q = some u) (h : t.HasField (q ++ above) cls place f) :
    ∃ rest, place = q ++ rest ∧ u.HasField above cls rest f := by
  obtain ⟨b, i, hb, rfl⟩ := h.member
  rw [List.append_assoc] at h ⊢
  exact ⟨above ++ [b, i], rfl, (at?_below hu above).symm.trans h.owner, h.isClass,
    ⟨b, i, hb, rfl⟩, (at?_below hu _).symm.trans h.field, h.isField, h.named⟩

theorem Inside.within (hu : t.at? q = some u) (h : t.Inside (q ++ p)) : u.Inside p := by
  rintro r s cls rfl hs hr hc
  exact h (q ++ r) s cls (List.append_assoc _ _ _).symm hs ((at?_below hu r).trans hr) hc

/-- The walk comes to every node that all classes above hold below members of their bodies. -/
theorem reached_of_inside {t : Tree} {p : List Nat} (there : (t.at? p).isSome = true)
    (h : t.Inside p) : Reached t p := by
  match p with
  | [] => exact .here t
  | i :: p =>
    -- a class is left by three steps at once, through its body and a member, other nodes by one
    cases hc : isClass t.label with
    | true =>
      obtain ⟨b, k, j, rest, hb, heq⟩ := h [] _ t rfl (List.cons_ne_nil _ _) (at?_nil t) hc
      obtain ⟨rfl, rfl⟩ := List.cons.inj heq
      obtain ⟨u, hu, inner⟩ := isSome_at?_append (p := [i, k, j]).1 there
      exact .inside hc hb hu (reached_of_inside inner (Inside.within hu h))
    | false =>
      obtain ⟨u, hu, inner⟩ := isSome_at?_append (p := [i]).1 there
      have hi : t.children[i]? = some u := (at?_singleton t i).symm.trans hu
      exact .child hc hi (reached_of_inside inner (Inside.within hu h))
termination_by p.length

/-! ### Findings of fields -/

/-- A field that is met stands in a class to which the walk has come. -/
theorem hasField_of_findingAt? (h : findingAt? p t = some (.field owner f waiting))
    (named : (f.part? "name").isSome = true) :
    ∃ above cls, t.HasField above cls p f ∧ Reached t above ∧ owner = cls.part? "name" := by
  fun_induction findingAt? p t with
  | case1 | case2 | case5 => cases h
  | case3 b t hc hb i =>
    obtain ⟨body, hbody, h⟩ := Option.bind_eq_some_iff.1 h
    obtain ⟨hf, isField, rfl, -⟩ := memberFinding?_eq_field.1 h
    have field : t.at? [b, i] = some f := at?_pair_eq_some.2 ⟨body, hbody, hf⟩
    exact ⟨[], t, ⟨at?_nil t, hc, ⟨b, i, hb, rfl⟩, field, isField, named⟩, .here t, rfl⟩
  | case4 b t hc hb i j p ih =>
    obtain ⟨u, hu, h⟩ := Option.bind_eq_some_iff.1 h
    obtain ⟨above, cls, field, reached, rfl⟩ := ih u h
    exact ⟨_, cls, field.below hu, .inside hc hb hu reached, rfl⟩
  | case6 b p t hc ih =>
    obtain ⟨u, hu, h⟩ := Option.bind_eq_some_iff.1 h
    obtain ⟨above, cls, field, reached, rfl⟩ := ih u h
    rw [← at?_singleton] at hu
    exact ⟨_, cls, field.below hu, .child (Bool.eq_false_iff.2 hc) (at?_singleton t b ▸ hu) reached,
      rfl⟩

/-- A field in a class to which the walk comes is met. -/
theorem HasField.findingAt?_eq (h : t.HasField above cls place f) (reached : Reached t above) :
    ∃ waiting, findingAt? place t = some (.field (cls.part? "name") f waiting) := by
  induction reached generalizing place with
  | here t =>
    obtain rfl := Option.some.inj ((at?_nil t).symm.trans h.owner)
    obtain ⟨b, i, hb, rfl⟩ := h.member
    obtain ⟨body, hbody, hf⟩ := at?_pair_eq_some.1 h.field
    refine ⟨(body.children.take i).foldl waitingAfter [], ?_⟩
    rw [List.nil_append, findingAt?_member h.isClass hb hbody]
    exact memberFinding?_eq_field.2 ⟨hf, h.isField, rfl, rfl⟩
  | @child t u i p hc hu _ ih =>
    obtain ⟨rest, rfl, inner⟩ := HasField.within (q := [i]) ((at?_singleton t i).trans hu) h
    obtain ⟨waiting, hw⟩ := ih inner
    exact ⟨waiting, (findingAt?_of_not_class hc hu rest).trans hw⟩
  | @inside t u b i j p hc hb hu _ ih =>
    obtain ⟨rest, rfl, inner⟩ := HasField.within hu h
    obtain ⟨waiting, hw⟩ := ih inner
    exact ⟨waiting, (findingAt?_inside hc hb hu rest).trans hw⟩

theorem HasField.above_eq {above' : List Nat} {cls' f' : Tree} (h : t.HasField above cls place f)
    (h' : t.HasField above' cls' place f') : above = above' := by
  obtain ⟨b, i, -, rfl⟩ := h.member
  obtain ⟨b', i', -, same⟩ := h'.member
  exact (List.append_inj' same rfl).1

end Tree

end PropertyMetadata
