import PropertyMetadata.Proofs.Building.Answers
import PropertyMetadata.Proofs.Expression.Closed
import PropertyMetadata.Proofs.Rules

/-! What the nodes of expressions come to. In a graph that holds the parts of an expression, among
any other parts, the answers on its nodes rule out all rules but the one that gives its meaning. -/

namespace PropertyMetadata

theorem IsTold.not_builtIn {kind : String} (h : IsTold kind) :
    kind ∉ ["array", "boolean", "number", "string"] := fun hmem =>
  h.2 (List.mem_append_left ["undefined"] hmem)

/-- The texts of top types mark nothing. -/
theorem shows_of_top {v : Vertex} {s : String} (ht : v.text = some s) (hs : s ∈ topTypes) :
    v.Shows s ∧ s ≠ "Date" := by
  simp only [topTypes, List.mem_cons, List.not_mem_nil, or_false] at hs
  rcases hs with rfl | rfl | rfl <;> exact ⟨⟨ht, by decide, by decide⟩, by decide⟩

theorem Vertex.symbol_mem_parts (v : Vertex) {q : SymbolPart} (hq : q ∈ v.symbol)
    {arguments members : List String} : .symbol q ∈ v.parts arguments members :=
  List.mem_cons_of_mem _ (List.mem_map_of_mem (by simp_all [symbols]))

namespace TypeExpr.Proper

variable {e : TypeExpr}

theorem kind_ne (h : e.Proper) : e.label.kind ≠ "undefined" := by
  cases h with
  | @leaf v k fits _ =>
    cases k with
    | boolean | number | string => simp [label, show v.kind = _ from fits]
    | classType | interface => simp [label, fits.1]
    | date | top =>
      rintro (hk : v.kind = _)
      have := fits.1.2
      simp [hk] at this
  | array kind => simp [label, kind]
  | @wrapper v _ _ _ told =>
    rintro (hk : v.kind = _)
    have := told.2
    simp [hk] at this
  | enum hd => simp [label, hd.kind]
  | literal _ _ kind => simp [label, kind]
  | optional hv | optionalEnum hv | union hv | optionalUnion hv =>
    rcases hv.kind with kind | kind <;> simp [label, kind]

theorem own (h : e.Proper) (he : e.enumId? = none) : e.label.Own := by
  cases h with
  | leaf _ own => exact own
  | array _ own => exact own
  | wrapper _ own => exact own
  | enum hd => exact hd.own
  | literal => simp [enumId?] at he
  | optional hv | optionalEnum hv | union hv | optionalUnion hv => exact hv.own

end TypeExpr.Proper

namespace TypeGraph.Built

variable {g : TypeGraph} {parts : List Part} {v u : Vertex} {d : EnumType} {e : TypeExpr}
  {s : String} {arguments members : List String}

/-! ### Nodes -/

section Node

variable (h : g.Built parts) (hp : .type (v.type arguments members) ∈ parts)
include h hp

theorem is_vertex {k : Shape} (hk : k ≠ .unionOrIntersection) :
    g.checker.is k (.string v.id) = .ok (decide (v.kind ∈ k.kinds)) := h.is_eq hp hk

theorem unionMembers_vertex : g.checker.unionMembers (.string v.id) =
    .ok (if v.kind ∈ Shape.kinds .unionOrIntersection then members.map .string else []) :=
  h.unionMembers_eq hp

theorem ends_builtIn {k : Shape} {r : Descriptor}
    (hk : (k, r) ∈ [(Shape.boolean, Descriptor.boolean), (.number, .number), (.string, .string)])
    (hv : v.kind ∈ k.kinds) : g.checker.Ends (.string v.id) 0 (.ok (.descriptor r)) := by
  refine .answer (Checker.step_builtIn hk fun j hj => ?_)
  rw [h.is_vertex hp (by rintro rfl; simp at hj)]
  simp only [List.mem_cons, Prod.mk.injEq, List.not_mem_nil, or_false] at hj hk
  rcases hk with ⟨rfl, rfl⟩ | ⟨rfl, rfl⟩ | ⟨rfl, rfl⟩ <;>
    simp only [Shape.kinds, List.mem_singleton] at hv <;>
    rcases hj with rfl | rfl | rfl | rfl <;> simp [Shape.kinds, hv]

/-- What is no array and not built in goes by its text. -/
theorem step_told (hk : v.kind ∉ ["array", "boolean", "number", "string"]) (ht : v.text = some s)
    (hs : s ≠ "") :
    g.checker.step (.string v.id) = g.checker.stepRendered (.string v.id) (.string s) := by
  simp only [List.mem_cons, List.not_mem_nil, or_false, not_or] at hk
  refine Checker.step_told (fun k hmem => ?_) (h.text_eq hp ht hs)
  simp only [List.mem_cons, List.not_mem_nil, or_false] at hmem
  rcases hmem with rfl | rfl | rfl | rfl <;> simp [h.is_vertex hp, Shape.kinds, hk]

/-- A text that marks nothing leaves it to the kind and the members. -/
theorem step_union (hk : v.kind ∉ ["array", "boolean", "number", "string", "class"])
    (hv : v.Shows s) (hd : s ≠ "Date") :
    g.checker.step (.string v.id) = g.checker.stepUnion (.string v.id) (.string s) := by
  obtain ⟨ht, hs, hw⟩ := hv
  simp only [List.mem_cons, List.not_mem_nil, or_false, not_or] at hk
  rw [h.step_told hp (by simp [hk]) ht hs]
  exact Checker.stepRendered_other hw (by simp [h.is_vertex hp, Shape.kinds, hk]) hd

theorem ends_fallback (hk : v.kind ∉ ["array", "boolean", "number", "string", "class"])
    (hv : v.Shows s) (hd : s ≠ "Date") (hm : g.checker.unionMembers (.string v.id) = .ok [])
    {r : Resolution} (hr : g.checker.fallback (.string v.id) (.string s) = .ok r) :
    g.checker.Ends (.string v.id) 0 (.ok r) := by
  refine .answer ?_
  rw [h.step_union hp hk hv hd, Checker.stepUnion_defined hm (by simp), hr]
  rfl

/-- Enums and literals have no descriptor. -/
theorem ends_enum (hk : v.kind = "enum" ∨ v.kind = "enum_literal") (hv : v.Named) :
    g.checker.Ends (.string v.id) 0 (.ok (.unresolved "enum")) := by
  obtain ⟨s, shows, hd, htop⟩ := hv
  have hm : g.checker.unionMembers (.string v.id) = .ok [] := by
    rw [h.unionMembers_vertex hp]
    rcases hk with hk | hk <;> simp [Shape.kinds, hk]
  have he : g.checker.is .enum (.string v.id) = .ok true := by
    rw [h.is_vertex hp (by decide)]
    rcases hk with hk | hk <;> simp [Shape.kinds, hk]
  have hi : g.checker.is .interface (.string v.id) = .ok false := by
    rw [h.is_vertex hp (by decide)]
    rcases hk with hk | hk <;> simp [Shape.kinds, hk]
  refine h.ends_fallback hp ?_ shows hd hm
    (Checker.fallback_enum htop hi (h.is_unionOrIntersection_eq hp) he)
  rcases hk with hk | hk <;> simp [hk]

end Node

/-- A type that no other types belong to comes to its meaning. -/
theorem ends_leaf (h : g.Built parts) (hp : .type (v.type [] []) ∈ parts) {k : Leaf}
    (hk : k.Fits v) : g.checker.Ends (.string v.id) 0 (.ok (k.meaning v)) := by
  have noMembers : g.checker.unionMembers (.string v.id) = .ok [] := by
    simpa using h.unionMembers_vertex hp
  cases k with
  | boolean => exact h.ends_builtIn hp (k := .boolean) (by simp) (List.mem_singleton.2 hk)
  | number => exact h.ends_builtIn hp (k := .number) (by simp) (List.mem_singleton.2 hk)
  | string => exact h.ends_builtIn hp (k := .string) (by simp) (List.mem_singleton.2 hk)
  | classType =>
    obtain ⟨kind, s, ht, hs, hw⟩ := hk
    refine .answer ?_
    rw [h.step_told hp (by simp [kind]) ht hs, Checker.stepRendered_class hw, Leaf.meaning, ht]
    · rfl
    · simp [h.is_vertex hp, Shape.kinds, kind]
  | interface =>
    obtain ⟨kind, s, shows, hd⟩ := hk
    refine h.ends_fallback hp (by simp [kind]) shows hd noMembers (Checker.fallback_interface ?_)
    simp [h.is_vertex hp, Shape.kinds, kind]
  | date =>
    obtain ⟨told, ht⟩ := hk
    refine .answer ?_
    rw [h.step_told hp told.not_builtIn ht (by decide)]
    by_cases hc : v.kind = "class"
    · exact Checker.stepRendered_class (by decide) (by simp [h.is_vertex hp, Shape.kinds, hc])
    · exact Checker.stepRendered_date (by simp [h.is_vertex hp, Shape.kinds, hc])
  | top =>
    obtain ⟨told, hc, s, hs, ht⟩ := hk
    obtain ⟨shows, hd⟩ := shows_of_top ht hs
    refine h.ends_fallback hp ?_ shows hd noMembers (Checker.fallback_top hs)
    have builtIn := told.not_builtIn
    simp only [List.mem_cons, List.not_mem_nil, or_false, not_or] at builtIn ⊢
    simp [builtIn, hc]

/-! ### Literals -/

theorem enumOfMember_own (h : g.Built parts) (hs : v.parts arguments members ⊆ parts)
    (hv : v.Own) : g.checker.enumOfMember (.string v.id) = .ok none := by
  refine Checker.enumOfMember_none (h.symbol_eq (hs List.mem_cons_self)) fun q hq => ?_
  simp only [Vertex.type, Option.map_map, Option.mem_def, Option.map_eq_some_iff] at hq
  obtain ⟨q, hq, rfl⟩ := hq
  have symbol : .symbol q ∈ parts := hs (v.symbol_mem_parts hq)
  have parent := h.parent_eq symbol
  cases hp : q.parent with
  | none => exact .inl (by rwa [hp] at parent)
  | some p =>
    rcases hv.flags q hq with none | ⟨f, hf, hne⟩
    · cases hp.symm.trans none
    · exact .inr ⟨.string p, f, by rwa [hp] at parent, (h.flags_eq symbol).trans hf, hne⟩

theorem declaredType_enum (h : g.Built parts) (once : Part.DeclaredOnce parts)
    (hs : d.parts ⊆ parts) (hd : d.Proper) :
    g.checker.declaredType (.string d.parent.id) = .ok (some (.string d.label.id)) := by
  have symbol : .symbol d.parent ∈ parts := hs (by simp [EnumType.parts])
  obtain ⟨l, hl, source, relation, target⟩ : ∃ l ∈ parts.flatMap Part.links,
      l.source = d.parent.id ∧ l.relation = "declared_type" ∧ l.target = d.label.id := by
    cases hdecl : d.parent.declared with
    | none =>
      have declare : .declare d.parent.id d.label.id ∈ parts :=
        hs (by simp [EnumType.parts, EnumType.declaration, hdecl])
      exact ⟨_, List.mem_flatMap.2 ⟨_, declare, List.mem_singleton.2 rfl⟩, rfl, rfl, rfl⟩
    | some s =>
      obtain rfl := hd.parent.declared s hdecl
      refine ⟨⟨d.parent.id, d.label.id, "declared_type", none⟩,
        List.mem_flatMap.2 ⟨_, symbol, ?_⟩, rfl, rfl, rfl⟩
      simp [Part.links, Link.single, hdecl]
  have declared : g.declaredType (.string d.parent.id) = .ok (.string d.label.id) := by
    refine h.declaredType_eq (fun k hk hleaves => ?_)
      ⟨l, hl, by simp [Link.leaves, source, relation]⟩ (h.has_symbol symbol)
    simp only [Link.leaves, Bool.and_eq_true, beq_iff_eq] at hleaves
    exact (once k hk l hl hleaves.2 relation (hleaves.1.trans source.symm)).trans target
  show (g.declaredType _).map some = _
  rw [declared]
  rfl

theorem enumOfMember_literal (h : g.Built parts) (once : Part.DeclaredOnce parts)
    (hs : d.parts ⊆ parts) (hd : d.Proper) (hv : v ∈ d.literals) :
    g.checker.enumOfMember (.string v.id) = .ok (some (some (.string d.label.id))) := by
  have node := List.Subset.trans (EnumType.literal_parts hv) hs
  obtain ⟨-, -, -, q, hq, parent, flags, -⟩ := hd.literals v hv
  have symbol : .symbol q ∈ parts := node (v.symbol_mem_parts hq)
  refine Checker.enumOfMember_literal (q := .string q.id) ?_ ?_ ?_
    (h.declaredType_enum once hs hd)
  · refine (h.symbol_eq (node List.mem_cons_self)).trans ?_
    simp [Vertex.type, hq]
  · refine (h.parent_eq symbol).trans ?_
    simp [parent]
  · exact (h.flags_eq symbol).trans flags

theorem enumOfMember_eq (h : g.Built parts) (once : Part.DeclaredOnce parts) (he : e.Proper)
    (hs : e.parts ⊆ parts) : g.checker.enumOfMember (.string e.id) =
      .ok (e.enumId?.map fun d => some (.string d)) := by
  cases hid : e.enumId? with
  | none =>
    obtain ⟨arguments, members, hl⟩ := he.label_parts
    exact h.enumOfMember_own (List.Subset.trans hl hs) (he.own hid)
  | some i =>
    cases he with
    | literal hd hv =>
      obtain rfl := Option.some.inj hid
      exact h.enumOfMember_literal once hs hd hv
    | _ => cases hid

theorem is_undefined (h : g.Built parts) (hs : u.parts [] [] ⊆ parts) (hu : u.Undefined) :
    g.checker.is .undefined (.string u.id) = .ok true := by
  simp [h.is_vertex (hs List.mem_cons_self), Shape.kinds, hu.1]

theorem is_defined (h : g.Built parts) (he : e.Proper) (hs : e.parts ⊆ parts) :
    g.checker.is .undefined (.string e.id) = .ok false := by
  obtain ⟨arguments, members, hl⟩ := he.label_parts
  refine (h.is_vertex (hs (hl List.mem_cons_self)) (by decide)).trans ?_
  simp [Shape.kinds, he.kind_ne]

/-! ### Unions -/

theorem fallback_union (h : g.Built parts) (hp : .type (v.type arguments members) ∈ parts)
    (hv : v.Union) (s : String) :
    g.checker.fallback (.string v.id) (.string s) = .ok (.descriptor .object) := by
  have hu : g.checker.is .unionOrIntersection (.string v.id) = .ok true := by
    refine (h.is_unionOrIntersection_eq hp).trans ?_
    rcases hv.kind with kind | kind <;> simp [Vertex.type, Shape.kinds, kind]
  refine Checker.fallback_union ?_ hu ?_
  · rw [h.is_vertex hp (by decide)]
    rcases hv.kind with kind | kind <;> simp [Shape.kinds, kind]
  · rw [h.is_vertex hp (by decide)]
    rcases hv.kind with kind | kind <;> simp [Shape.kinds, kind]

/-- A union comes to what its members make of it. -/
theorem step_members (h : g.Built parts) (hp : .type (v.type arguments members) ∈ parts)
    (hv : v.Union) : ∃ s, g.checker.step (.string v.id) =
        g.checker.stepUnion (.string v.id) (.string s) ∧
      g.checker.unionMembers (.string v.id) = .ok (members.map .string) := by
  obtain ⟨s, shows, hd⟩ := hv.text
  refine ⟨s, h.step_union hp ?_ shows hd, ?_⟩
  · rcases hv.kind with kind | kind <;> simp [kind]
  · rw [h.unionMembers_vertex hp]
    rcases hv.kind with kind | kind <;> simp [Shape.kinds, kind]

/-- The union of an undefined type and several others comes to the enum of the others, or is an
object. -/
theorem step_several (h : g.Built parts) {before behind : List String}
    (hp : .type (v.type arguments (before ++ u.id :: behind)) ∈ parts) (hv : v.Union)
    (hb : ∀ b ∈ before, g.checker.is .undefined (.string b) = .ok false)
    (hu : g.checker.is .undefined (.string u.id) = .ok true)
    (two : 2 ≤ (before ++ behind).length) {t : Option Json}
    (common : g.checker.commonEnum none ((before ++ behind).map .string) = .ok t) :
    g.checker.step (.string v.id) = .ok (match t with
      | some e => .through e
      | none => .answer (.descriptor .object)) := by
  obtain ⟨s, step, hm⟩ := h.step_members hp hv
  rw [List.map_append, List.map_cons] at hm
  rw [List.map_append] at common
  have defined : ∀ b ∈ before.map Json.string, g.checker.is .undefined b = .ok false :=
    List.forall_mem_map.2 hb
  rw [step, Checker.stepUnion_several hm defined hu (by simpa using two) common,
    h.fallback_union hp hv]
  cases t <;> rfl

theorem settled (h : g.Built parts) (once : Part.DeclaredOnce parts) {es : List TypeExpr}
    (he : ∀ e ∈ es, e.Proper ∧ e.parts ⊆ parts) :
    g.checker.Settled ((es.map TypeExpr.id).map .string) where
  undefined := by
    rw [List.forall_mem_map, List.forall_mem_map]
    exact fun e hmem => ⟨false, h.is_defined (he e hmem).1 (he e hmem).2⟩
  enum := by
    rw [List.forall_mem_map, List.forall_mem_map]
    intro e hmem
    rw [h.enumOfMember_eq once (he e hmem).1 (he e hmem).2]
    cases e.enumId? with
    | none => exact .inl rfl
    | some d => exact .inr ⟨.string d, rfl, fun _ => Json.alike_string_iff⟩

theorem commonEnum_eq_none (h : g.Built parts) (once : Part.DeclaredOnce parts)
    {es : List TypeExpr} (he : ∀ e ∈ es, e.Proper ∧ e.parts ⊆ parts)
    (hn : ¬ ∃ d, ∀ e ∈ es, e.enumId? = some d) :
    g.checker.commonEnum none ((es.map TypeExpr.id).map .string) = .ok none := by
  rcases (h.settled once he).commonEnum_eq with ⟨t, hne, hall, -⟩ | ⟨-, none⟩
  · obtain ⟨e₀, he₀⟩ := List.exists_mem_of_ne_nil es (by simpa using hne)
    have enum (e : TypeExpr) (hmem : e ∈ es) : e.enumId?.map Json.string = some t := by
      have := (h.enumOfMember_eq once (he e hmem).1 (he e hmem).2).symm.trans
        (hall _ (List.mem_map_of_mem (List.mem_map_of_mem hmem)))
      cases hid : e.enumId? with
      | none => simp [hid] at this
      | some d => simpa [hid] using this
    obtain ⟨d, hd, rfl⟩ := Option.map_eq_some_iff.1 (enum e₀ he₀)
    refine absurd ⟨d, fun e hmem => ?_⟩ hn
    obtain ⟨d', hd', heq⟩ := Option.map_eq_some_iff.1 (enum e hmem)
    rw [hd', Json.string.inj heq]
  · exact none

theorem commonEnum_literals (h : g.Built parts) (once : Part.DeclaredOnce parts)
    (hs : d.parts ⊆ parts) (hd : d.Proper) {vs : List Vertex} (hvs : vs ⊆ d.literals)
    (hne : vs ≠ []) : g.checker.commonEnum none ((vs.map Vertex.id).map .string) =
      .ok (some (.string d.label.id)) := by
  refine Checker.commonEnum_none_of_allOf (fun _ => Json.alike_string_iff) (by simpa using hne) ?_
  unfold Checker.AllOf
  rw [List.forall_mem_map, List.forall_mem_map]
  exact fun v hv => h.enumOfMember_literal once hs hd (hvs hv)

theorem ends_enumType (h : g.Built parts) (hs : d.parts ⊆ parts) (hd : d.Proper) :
    g.checker.Ends (.string d.label.id) 0 (.ok (.unresolved "enum")) := by
  have node : .type (d.label.type [] (d.literals.map Vertex.id)) ∈ d.parts :=
    List.mem_append_left _ (List.mem_append_left _ List.mem_cons_self)
  exact h.ends_enum (hs node) (.inl hd.kind) hd.text

theorem is_defined_literal (h : g.Built parts) (hs : d.parts ⊆ parts) (hd : d.Proper)
    (hv : v ∈ d.literals) : g.checker.is .undefined (.string v.id) = .ok false := by
  refine (h.is_vertex (hs (EnumType.literal_parts hv List.mem_cons_self)) (by decide)).trans ?_
  simp [Shape.kinds, (hd.literals v hv).kind]

end TypeGraph.Built

end PropertyMetadata
