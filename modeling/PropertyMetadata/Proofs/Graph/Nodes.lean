import PropertyMetadata.Proofs.Graph.Names

/-! What nodes that are put into a graph one behind the other amount to, whatever values name them.
A name is there if one of the nodes has a name like it, and the last of these nodes that gives an
attribute decides its value. -/

namespace PropertyMetadata.TypeGraph

variable {g : TypeGraph} {id : Json} {n : Node} {ns : List Node}

/-! ### Attributes -/

/-- Attributes under different names are set one behind the other. -/
theorem updated_nil {fields : List (String × Json)} (h : (fields.map (·.1)).Nodup) :
    updated [] fields = fields := by
  have behind (before : List (String × Json)) (h : ((before ++ fields).map (·.1)).Nodup) :
      updated before fields = before ++ fields := by
    induction fields generalizing before with
    | nil => simp [updated]
    | cons f fields ih =>
      have new : f.1 ∉ before.map (·.1) := by
        rw [List.map_append, List.map_cons] at h
        exact fun hf => (List.nodup_append.1 h).2.2 _ hf _ List.mem_cons_self rfl
      rw [List.append_cons] at h
      rw [updated, List.foldl_cons, Json.insert_of_not_mem new, ← updated,
        ih (List.nodup_cons.1 (List.nodup_append.1 (by simpa using h)).2.1).2 _ h,
        List.append_assoc]
      rfl
  exact behind [] h

theorem lookup_updated (base new : List (String × Json)) (key : String) :
    Json.lookup (updated base new) key =
      (Json.lookup (updated [] new) key).or (Json.lookup base key) := by
  induction new generalizing base with
  | nil => rfl
  | cons f new ih =>
    have one : updated base (f :: new) = updated (Json.insert base f.1 f.2) new := rfl
    have alone : updated [] (f :: new) = updated [f] new := rfl
    rw [one, alone, ih, ih [f], Json.lookup_insert, Option.or_assoc]
    congr 1
    rw [Json.lookup]
    split <;> rfl

theorem mem_of_mem_updated {base new : List (String × Json)} {f : String × Json}
    (h : f ∈ updated base new) : f ∈ base ∨ f ∈ new := by
  induction new generalizing base with
  | nil => exact .inl h
  | cons a new ih =>
    rcases ih h with old | mem
    · rcases Json.mem_of_mem_insert old with rfl | old
      · exact .inr List.mem_cons_self
      · exact .inl old
    · exact .inr (List.mem_cons_of_mem _ mem)

/-! ### Names -/

def put (g : TypeGraph) (n : Node) : TypeGraph := g.setNode n.id n.attributes

def ofNodes (ns : List Node) : TypeGraph := ns.foldl put (empty true)

theorem map_id_put (g : TypeGraph) (n : Node) : (g.put n).nodes.map Node.id =
    if g.has n.id then g.nodes.map Node.id else g.nodes.map Node.id ++ [n.id] := by
  rw [put, setNode]
  split
  next old =>
    rw [List.map_map]
    refine List.map_congr_left fun m _ => ?_
    simp only [Function.comp_apply]
    split <;> rfl
  next new => rw [List.map_append, List.map_singleton]

/-- A graph stays one of string names just as long as the nodes that are put into it are named by
strings. -/
theorem stringNamed_put : (g.put n).StringNamed ↔ g.StringNamed ∧ ∃ s, n.id = .string s := by
  have named (k : TypeGraph) :
      k.StringNamed ↔ ∀ id ∈ k.nodes.map Node.id, ∃ s, id = .string s := by
    rw [List.forall_mem_map]
    rfl
  rw [named, map_id_put, named g]
  split
  next old => exact ⟨fun hg => ⟨hg, ((named g).2 hg).string_of_has old⟩, And.left⟩
  next new => rw [List.forall_mem_append, List.forall_mem_singleton]

theorem stringNamed_ofNodes {ns : List Node} :
    (ofNodes ns).StringNamed ↔ ∀ n ∈ ns, ∃ s, n.id = .string s := by
  have behind (g : TypeGraph) : (ns.foldl put g).StringNamed ↔
      g.StringNamed ∧ ∀ n ∈ ns, ∃ s, n.id = .string s := by
    induction ns generalizing g with
    | nil => simp
    | cons n ns ih => rw [List.foldl_cons, ih, stringNamed_put, List.forall_mem_cons, and_assoc]
  have none : (empty true).StringNamed := by simp [StringNamed, empty]
  exact (behind _).trans (and_iff_right none)

/-- The node that is put in under a new name. -/
def fresh (n : Node) : Node := ⟨n.id, updated [] n.attributes⟩

/-- The node of a name after another node is put into a graph: one with a name like it sets its
attributes on top, any other changes nothing. -/
theorem node?_put (scalar : id.isScalar = true) (g : TypeGraph) (n : Node) : (g.put n).node? id =
    if n.id.alike id then
      some (((g.node? id).map fun m => ⟨m.id, updated m.attributes n.attributes⟩).getD (fresh n))
    else g.node? id := by
  have find (g : TypeGraph) : g.node? id = g.nodes.find? fun m => m.id.alike id := if_pos scalar
  rw [put, setNode]
  split
  next old =>
    rw [node?_map (fun m => by split <;> rfl)]
    split
    next alike =>
      have one := Json.Interchangeable.of_alike (.inr scalar) alike
      rw [has, node?_interchange one] at old
      obtain ⟨m, hm⟩ := Option.isSome_iff_exists.1 old
      simp [hm, one.right, (alike_of_node? hm).2]
    next other =>
      cases hm : g.node? id with
      | none => rfl
      | some m =>
        have apart : ¬ m.id.alike n.id = true := fun alike => by
          have one := Json.Interchangeable.of_alike (.inr (isScalar_of_has old)) alike
          exact other (one.left id ▸ (alike_of_node? hm).2)
        simp [apart]
  next new =>
    rw [find, List.find?_append, ← find]
    split
    next alike =>
      have one := Json.Interchangeable.of_alike (.inr scalar) alike
      rw [has, node?_interchange one, Option.isSome_iff_ne_none, not_not] at new
      simp [new, alike, fresh]
    next other => simp [other]

theorem has_put (scalar : id.isScalar = true) (g : TypeGraph) (n : Node) :
    (g.put n).has id = (n.id.alike id || g.has id) := by
  rw [has, node?_put scalar]
  cases n.id.alike id <;> rfl

theorem has_ofNodes_eq (scalar : id.isScalar = true) (ns : List Node) :
    (ofNodes ns).has id = ns.any fun n => n.id.alike id := by
  have behind (g : TypeGraph) :
      (ns.foldl put g).has id = ((ns.any fun n => n.id.alike id) || g.has id) := by
    induction ns generalizing g with
    | nil => rfl
    | cons n ns ih =>
      rw [List.foldl_cons, ih, has_put scalar, List.any_cons, ← Bool.or_assoc,
        Bool.or_comm (n.id.alike id)]
  have none : (empty true).has id = false := by simp [has, node?, empty]
  rw [ofNodes, behind, none, Bool.or_false]

theorem has_ofNodes_iff {s : String} :
    (ofNodes ns).has (.string s) = true ↔ ∃ n ∈ ns, n.id = .string s := by
  have scalar : (Json.string s).isScalar = true := rfl
  simp only [has_ofNodes_eq scalar, List.any_eq_true, Json.alike_string_iff]

theorem map_id_fresh (ns : List Node) : (ns.map fresh).map Node.id = ns.map Node.id := by
  rw [List.map_map]
  rfl

/-- Nodes with different names are put in one behind the other. -/
theorem nodes_ofNodes {names : List String}
    (hn : ns.map Node.id = names.map .string) (hd : names.Nodup) :
    (ofNodes ns).nodes = ns.map fresh := by
  have behind (g : TypeGraph) (hg : ∀ s ∈ names, g.has (.string s) = false) :
      (ns.foldl put g).nodes = g.nodes ++ ns.map fresh := by
    induction ns generalizing g names with
    | nil => simp
    | cons n ns ih =>
      cases names with
      | nil => cases hn
      | cons s names =>
        simp only [List.map_cons, List.cons.injEq] at hn
        obtain ⟨new, others⟩ := List.forall_mem_cons.1 hg
        obtain ⟨apart, hd⟩ := List.nodup_cons.1 hd
        have added : (g.put n).nodes = g.nodes ++ [fresh n] := by
          rw [put, setNode, hn.1, if_neg (by simp [new]), ← hn.1]
          rfl
        have absent : ∀ s' ∈ names, (g.put n).has (.string s') = false := by
          intro s' hs'
          have other : n.id.alike (.string s') = false := by
            rw [← Bool.not_eq_true, Json.alike_string_iff, hn.1, Json.string.injEq]
            rintro rfl
            exact apart hs'
          rw [has_put rfl, other, others s' hs', Bool.or_false]
        rw [List.foldl_cons, ih hn.2 hd _ absent, added, List.append_assoc]
        rfl
  have none : ∀ s ∈ names, (empty true).has (.string s) = false := fun _ _ => rfl
  exact behind (empty true) none

theorem edges_ofNodes (ns : List Node) : (ofNodes ns).edges = [] := by
  have kept (g : TypeGraph) : (ns.foldl put g).edges = g.edges := by
    induction ns generalizing g with
    | nil => rfl
    | cons n ns ih =>
      rw [List.foldl_cons, ih, put, setNode]
      split <;> rfl
  exact kept (empty true)

/-! ### What nodes tell -/

/-- An attribute of the node of a name. -/
def told? (g : TypeGraph) (id : Json) (key : String) : Option Json :=
  (g.node? id).bind fun n => Json.lookup n.attributes key

/-- What a node that is put into a graph tells of an attribute of the node of a name. -/
def tells? (id : Json) (key : String) (n : Node) : Option Json :=
  if n.id.alike id then Json.lookup (updated [] n.attributes) key else none

/-- A node that is put into a graph sets the attributes that it tells. -/
theorem told?_put (scalar : id.isScalar = true) (g : TypeGraph) (n : Node) (key : String) :
    (g.put n).told? id key = (tells? id key n).or (g.told? id key) := by
  rw [told?, node?_put scalar, tells?]
  split
  · cases hm : g.node? id with
    | none => simp [told?, hm, fresh]
    | some m => simp [told?, hm, lookup_updated m.attributes]
  · rfl

/-- The last of several nodes that tells an attribute decides. -/
theorem told?_ofNodes (scalar : id.isScalar = true) (ns : List Node) (key : String) :
    (ofNodes ns).told? id key = (ns.filterMap (tells? id key)).getLast? := by
  have behind (g : TypeGraph) : (ns.foldl put g).told? id key =
      (ns.filterMap (tells? id key)).getLast?.or (g.told? id key) := by
    induction ns generalizing g with
    | nil => rfl
    | cons n ns ih =>
      rw [List.foldl_cons, ih, told?_put scalar, List.filterMap_cons]
      cases tells? id key n with
      | none => rfl
      | some v =>
        rw [List.getLast?_cons]
        cases (ns.filterMap (tells? id key)).getLast? <;> rfl
  have none : (empty true).told? id key = none := by simp [told?, node?, empty]
  rw [ofNodes, behind, none, Option.or_none]

theorem flags_eq_told (h : g.has id = true) :
    g.flags id = Flags.ofRecord ((g.told? id "flags").getD (.string "")) := by
  obtain ⟨n, hn⟩ := Option.isSome_iff_exists.1 h
  rw [flags, attributes_of_node? hn, told?, hn]
  rfl

end PropertyMetadata.TypeGraph
