import PropertyMetadata.Proofs.Building.Acceptance

/-! What a graph of parts answers. Every question on a type or a symbol is answered by the part that
added it: its kind and its text, and in order the names of what belongs to it. -/

namespace PropertyMetadata

/-- The kinds of types of a shape; enums with members are unions besides. -/
def Shape.kinds : Shape → List String
  | .array => ["array"]
  | .boolean => ["boolean"]
  | .number => ["number"]
  | .string => ["string"]
  | .classType => ["class"]
  | .interface => ["interface"]
  | .enum => ["enum", "enum_literal"]
  | .unionOrIntersection => ["union", "intersection"]
  | .undefined => ["undefined"]

namespace Link

variable {s id relation : String} {ts : List String} {t : Option String}

def leaves (id relation : String) (l : Link) : Bool := l.source == id && l.relation == relation

/-- The position and the end of a link. -/
def placed (l : Link) : Int × Json := ((l.index.getD 0 : Nat), .string l.target)

@[simp] theorem filter_leaves_ordered : (ordered s relation ts).filter (leaves id relation) =
    if s = id then ordered s relation ts else [] := by
  split <;> simp [ordered, leaves, List.filter_map, Function.comp_def, *]

@[simp] theorem filter_leaves_ordered_of_ne {r : String} (h : r ≠ relation) :
    (ordered s r ts).filter (leaves id relation) = [] := by
  rw [ordered, List.filter_map, List.map_eq_nil_iff, List.filter_eq_nil_iff]
  simp [leaves, h]

@[simp] theorem filter_leaves_single : (single s relation t).filter (leaves id relation) =
    if s = id then single s relation t else [] := by
  cases t <;> simp [single, leaves, List.filter_cons]

@[simp] theorem filter_leaves_single_of_ne {r : String} (h : r ≠ relation) :
    (single s r t).filter (leaves id relation) = [] := by
  cases t <;> simp [single, leaves, h]

theorem ordered_pairwise (s relation : String) (ts : List String) :
    ((ordered s relation ts).map placed).Pairwise fun a b => a.1 < b.1 := by
  have places : (ts.zipIdx.map Prod.snd).Pairwise (· < ·) := by
    rw [List.zipIdx_map_snd]
    exact List.pairwise_lt_range'
  rw [List.pairwise_map] at places
  simpa [ordered, placed, List.pairwise_map] using places

theorem single_pairwise (s relation : String) (t : Option String) :
    ((single s relation t).map placed).Pairwise fun a b => a.1 < b.1 := by
  cases t <;> simp [single]

theorem map_target_ordered (s relation : String) (ts : List String) :
    ((ordered s relation ts).map placed).map Prod.snd = ts.map .string := by
  conv_rhs => rw [← List.zipIdx_map_fst 0 ts]
  rw [ordered, List.map_map, List.map_map, List.map_map]
  rfl

theorem map_target_single (s relation : String) (t : Option String) :
    ((single s relation t).map placed).map Prod.snd = t.toList.map .string := by
  cases t <;> rfl

end Link

namespace Part

variable {parts : List Part} {p : Part} {id relation : String}

def DeclaredOnce (parts : List Part) : Prop :=
  ∀ k ∈ parts.flatMap links, ∀ l ∈ parts.flatMap links,
    k.relation = "declared_type" → l.relation = "declared_type" → k.source = l.source →
      k.target = l.target

theorem source_of_mem_links {l : Link} (h : l ∈ p.links) (hr : l.relation ≠ "declared_type") :
    l.source ∈ p.names := by
  cases p with
  | type p => exact List.mem_singleton.2 (mem_links_type h).1
  | symbol p => exact List.mem_singleton.2 (mem_links_symbol h).1
  | declare s t =>
    obtain rfl := List.mem_singleton.1 h
    exact absurd rfl hr

/-- A part adds no links to nodes of other names, but for declarations. -/
theorem filter_leaves_links (h : id ∉ p.names) (hr : relation ≠ "declared_type") :
    p.links.filter (Link.leaves id relation) = [] := by
  refine List.filter_eq_nil_iff.2 fun l hl hleaves => h ?_
  simp only [Link.leaves, Bool.and_eq_true, beq_iff_eq] at hleaves
  obtain ⟨rfl, rfl⟩ := hleaves
  exact source_of_mem_links hl hr

theorem filter_leaves (hd : (parts.flatMap names).Nodup) (hp : p ∈ parts) (hid : id ∈ p.names)
    (hr : relation ≠ "declared_type") :
    (parts.flatMap links).filter (Link.leaves id relation) =
      p.links.filter (Link.leaves id relation) := by
  induction parts with
  | nil => simp at hp
  | cons q parts ih =>
    rw [List.flatMap_cons, List.nodup_append] at hd
    obtain ⟨-, tail, apart⟩ := hd
    rw [List.flatMap_cons, List.filter_append]
    rcases List.mem_cons.1 hp with rfl | hp
    · have others : (parts.flatMap links).filter (Link.leaves id relation) = [] := by
        rw [List.filter_flatMap, List.flatMap_eq_nil_iff]
        intro q hq
        refine filter_leaves_links (fun hmem => ?_) hr
        exact apart id hid id (List.mem_flatMap.2 ⟨q, hq, hmem⟩) rfl
      rw [others, List.append_nil]
    · have none := filter_leaves_links (p := q) (fun hmem => apart id hmem id
        (List.mem_flatMap.2 ⟨p, hp, hid⟩) rfl) hr
      rw [none, List.nil_append, ih tail hp]

end Part

namespace TypeGraph.Built

variable {g : TypeGraph} {parts : List Part} {p : TypePart} {q : SymbolPart} {n : Node}
  {id relation s t : String}

/-! ### Nodes -/

theorem map_id_nodes (h : g.Built parts) :
    g.nodes.map Node.id = (parts.flatMap Part.names).map .string := by
  rw [h.nodes, List.map_flatMap, List.map_flatMap]
  exact List.flatMap_congr fun p _ => p.map_id_nodes

theorem named (h : g.Built parts) : g.StringNamed := by
  intro n hn
  have := List.mem_map_of_mem (f := Node.id) hn
  rw [h.map_id_nodes] at this
  obtain ⟨s, -, hs⟩ := List.mem_map.1 this
  exact ⟨s, hs.symm⟩

theorem indexed (h : g.Built parts) : g.Indexed := by
  intro e he
  have := List.mem_map_of_mem (f := Edge.keyless) he
  rw [h.edges] at this
  obtain ⟨l, -, hl⟩ := List.mem_map.1 this
  exact ⟨_, (congrArg Edge.index hl).symm⟩

theorem attributes_eq (h : g.Built parts) {part : Part} (hp : part ∈ parts) (hn : n ∈ part.nodes) :
    g.has n.id = true ∧ g.attributes n.id = .ok n.attributes := by
  have mem : n ∈ g.nodes := h.nodes ▸ List.mem_flatMap.2 ⟨part, hp, hn⟩
  have distinct : (g.nodes.map Node.id).Nodup := by
    rw [h.map_id_nodes]
    exact h.distinct.map fun _ _ => Json.string.inj
  have found := (h.named.node?_eq_some_iff distinct).2 ⟨mem, rfl⟩
  exact ⟨Option.isSome_of_eq_some found, attributes_of_node? found⟩

theorem has_symbol (h : g.Built parts) (hq : .symbol q ∈ parts) : g.has (.string q.id) = true :=
  (h.attributes_eq hq (List.mem_singleton.2 rfl)).1

theorem kindIn_eq (h : g.Built parts) (hp : .type p ∈ parts) (kinds : List String) :
    g.kindIn kinds (.string p.id) = .ok (decide (p.kind ∈ kinds)) := by
  have := (h.attributes_eq hp (List.mem_singleton.2 rfl)).2
  have any : (kinds.any fun s => (Json.string p.kind).alike (.string s)) =
      decide (p.kind ∈ kinds) := by
    rw [Bool.eq_iff_iff, decide_eq_true_iff]
    simp [Json.alike_string]
  simp [kindIn, kind, this, TypePart.attributes, Json.lookup, any, bind, Except.bind, pure,
    Except.pure]

theorem text_eq (h : g.Built parts) (hp : .type p ∈ parts) (ht : p.text = some s) (hs : s ≠ "") :
    g.text (.string p.id) = .ok (.string s) := by
  have := (h.attributes_eq hp (List.mem_singleton.2 rfl)).2
  simp [TypeGraph.text, this, TypePart.attributes, ht, Json.lookup, hs, bind, Except.bind, pure,
    Except.pure]

theorem flags_eq (h : g.Built parts) (hq : .symbol q ∈ parts) :
    g.flags (.string q.id) = Flags.ofRecord (.string (",".intercalate q.flags)) := by
  have := (h.attributes_eq hq (List.mem_singleton.2 rfl)).2
  simp [TypeGraph.flags, this, SymbolPart.attributes, Json.lookup, bind, Except.bind]

/-! ### Lookups -/

theorem leaving_eq (h : g.Built parts) (id relation : String) :
    (g.edges.filter (Edge.leaves (.string id) relation)).map (fun e => (e.place, e.target)) =
      ((parts.flatMap Part.links).filter (Link.leaves id relation)).map Link.placed := by
  have edges : (g.edges.filter (Edge.leaves (.string id) relation)).map
      (fun e => (e.place, e.target)) =
      ((g.edges.map Edge.keyless).filter (Edge.leaves (.string id) relation)).map
        fun e => (e.place, e.target) := by
    rw [List.filter_map, List.map_map]
    rfl
  have leaves : Edge.leaves (.string id) relation ∘ Link.edge = Link.leaves id relation := by
    funext l
    simp [Edge.leaves, Link.edge, Link.leaves, Json.alike_string]
  rw [edges, h.edges, List.filter_map, List.map_map, leaves]
  rfl

/-- A lookup gives the ends of the links of a part in the order of their positions. -/
theorem targets_eq (h : g.Built parts) {part : Part} (hp : part ∈ parts) (hid : id ∈ part.names)
    (hr : relation ≠ "declared_type")
    (hl : ((part.links.filter (Link.leaves id relation)).map Link.placed).Pairwise
      fun a b => a.1 < b.1) :
    g.targets (.string id) relation =
      .ok (((part.links.filter (Link.leaves id relation)).map Link.placed).map Prod.snd) := by
  have has : g.has (.string id) = true := by
    rw [has_string_iff, h.map_id_nodes]
    exact List.mem_map_of_mem (List.mem_flatMap.2 ⟨part, hp, hid⟩)
  rw [TypeGraph.targets_eq h.named h.wired h.indexed has, sorted_eq h.named h.wired ?_ hl]
  rw [h.leaving_eq, Part.filter_leaves h.distinct hp hid hr]

theorem typeArguments_eq (h : g.Built parts) (hp : .type p ∈ parts) :
    g.targets (.string p.id) "type_argument" = .ok (p.typeArguments.map .string) := by
  have links : (Part.type p).links.filter (Link.leaves p.id "type_argument") =
      Link.ordered p.id "type_argument" p.typeArguments := by
    simp [Part.links]
  rw [h.targets_eq hp (List.mem_singleton.2 rfl) (by decide), links, Link.map_target_ordered]
  exact links ▸ Link.ordered_pairwise _ _ _

theorem members_eq (h : g.Built parts) (hp : .type p ∈ parts) :
    g.targets (.string p.id) "member" = .ok (p.members.map .string) := by
  have links : (Part.type p).links.filter (Link.leaves p.id "member") =
      Link.ordered p.id "member" p.members := by
    simp [Part.links]
  rw [h.targets_eq hp (List.mem_singleton.2 rfl) (by decide), links, Link.map_target_ordered]
  exact links ▸ Link.ordered_pairwise _ _ _

theorem target?_eq (h : g.Built parts) {part : Part} (hp : part ∈ parts) (hid : id ∈ part.names)
    (hr : relation ≠ "declared_type") {t : Option String}
    (hl : part.links.filter (Link.leaves id relation) = Link.single id relation t) :
    g.target? (.string id) relation = .ok (t.map .string) := by
  rw [target?, h.targets_eq hp hid hr (hl ▸ Link.single_pairwise _ _ _), hl,
    Link.map_target_single]
  cases t <;> rfl

theorem symbol_eq (h : g.Built parts) (hp : .type p ∈ parts) :
    g.target? (.string p.id) "symbol" = .ok (p.symbol.map .string) :=
  h.target?_eq hp (List.mem_singleton.2 rfl) (by decide) (by simp [Part.links])

theorem aliasSymbol_eq (h : g.Built parts) (hp : .type p ∈ parts) :
    g.target? (.string p.id) "alias_symbol" = .ok (p.aliasSymbol.map .string) :=
  h.target?_eq hp (List.mem_singleton.2 rfl) (by decide) (by simp [Part.links])

theorem parent_eq (h : g.Built parts) (hq : .symbol q ∈ parts) :
    g.target? (.string q.id) "parent" = .ok (q.parent.map .string) :=
  h.target?_eq hq (List.mem_singleton.2 rfl) (by decide) (by simp [Part.links])

/-! ### Shapes -/

theorem is_eq (h : g.Built parts) (hp : .type p ∈ parts) {k : Shape}
    (hk : k ≠ .unionOrIntersection) :
    g.checker.is k (.string p.id) = .ok (decide (p.kind ∈ k.kinds)) := by
  cases k with
  | unionOrIntersection => exact absurd rfl hk
  | _ => exact h.kindIn_eq hp _

theorem is_unionOrIntersection_eq (h : g.Built parts) (hp : .type p ∈ parts) :
    g.checker.is .unionOrIntersection (.string p.id) =
      .ok (decide (p.kind ∈ Shape.kinds .unionOrIntersection) ||
        (decide (p.kind = "enum") && !p.members.isEmpty)) := by
  simp only [checker, hasShape, h.kindIn_eq hp, h.members_eq hp, Shape.kinds, bind, Except.bind,
    pure, Except.pure]
  by_cases hu : p.kind ∈ ["union", "intersection"]
  · simp [hu]
  · by_cases he : p.kind = "enum" <;> simp [hu, he]

theorem unionMembers_eq (h : g.Built parts) (hp : .type p ∈ parts) :
    g.checker.unionMembers (.string p.id) =
      .ok (if p.kind ∈ Shape.kinds .unionOrIntersection then p.members.map .string else []) := by
  have members : g.checker.members (.string p.id) = .ok (p.members.map .string) := h.members_eq hp
  simp only [Checker.unionMembers, h.is_unionOrIntersection_eq hp, members,
    h.is_eq hp (k := .enum) (by simp), bind, Except.bind, pure, Except.pure]
  by_cases hu : p.kind ∈ Shape.kinds .unionOrIntersection
  · have he : p.kind ∉ Shape.kinds .enum := by
      simp only [Shape.kinds, List.mem_cons, List.not_mem_nil, or_false] at hu ⊢
      rintro (he | he) <;> simp [he] at hu
    simp [hu, he]
  · by_cases he : p.kind = "enum"
    · cases hm : p.members <;> simp [he, Shape.kinds]
    · simp [hu, he]

/-- A symbol that is declared to be one type only declares this type. -/
theorem declaredType_eq (h : g.Built parts)
    (hone : ∀ l ∈ parts.flatMap Part.links, l.leaves s "declared_type" = true → l.target = t)
    (hl : ∃ l ∈ parts.flatMap Part.links, l.leaves s "declared_type" = true)
    (hs : g.has (.string s) = true) : g.declaredType (.string s) = .ok (.string t) := by
  obtain ⟨ts, hts, perm⟩ := TypeGraph.targets_perm h.named h.wired h.indexed hs "declared_type"
  have ends : (g.edges.filter (Edge.leaves (.string s) "declared_type")).map Edge.target =
      ((parts.flatMap Part.links).filter (Link.leaves s "declared_type")).map
        fun l => .string l.target := by
    have := congrArg (List.map Prod.snd) (h.leaving_eq s "declared_type")
    rwa [List.map_map, List.map_map] at this
  rw [ends] at perm
  cases ts with
  | nil =>
    obtain ⟨l, hmem, hleaves⟩ := hl
    have := perm.symm.subset (List.mem_map_of_mem (List.mem_filter.2 ⟨hmem, hleaves⟩))
    simp at this
  | cons u ts =>
    obtain ⟨l, hmem, rfl⟩ := List.mem_map.1 (perm.subset List.mem_cons_self)
    obtain ⟨hmem, hleaves⟩ := List.mem_filter.1 hmem
    simp [declaredType, target?, hts, hone l hmem hleaves, bind, Except.bind, pure, Except.pure]

end TypeGraph.Built

end PropertyMetadata
