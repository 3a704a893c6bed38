import PropertyMetadata.Proofs.Expression.Basic

/-! Proper expressions are self-contained: whatever a part of an expression refers to is the name of
a part of the expression. So a builder accepts the parts of any expressions, if different nodes have
different names. -/

namespace PropertyMetadata

/-- Parts of known kinds whose links join given names. -/
structure Closed (ns : List String) (ps : List Part) : Prop where
  kinds : ∀ p, .type p ∈ ps → p.kind ∈ TypeGraph.typeKinds
  linked : ∀ p ∈ ps, ∀ k ∈ p.links, k.source ∈ ns ∧ k.target ∈ ns

namespace Closed

variable {ns ns' : List String} {ps qs : List Part}

theorem append (h : Closed ns ps) (h' : Closed ns qs) : Closed ns (ps ++ qs) where
  kinds p hp := (List.mem_append.1 hp).elim (h.kinds p) (h'.kinds p)
  linked p hp := (List.mem_append.1 hp).elim (h.linked p) (h'.linked p)

theorem flatMap {α : Type} {as : List α} {f : α → List Part} (h : ∀ a ∈ as, Closed ns (f a)) :
    Closed ns (as.flatMap f) where
  kinds p hp := by
    obtain ⟨a, ha, hp⟩ := List.mem_flatMap.1 hp
    exact (h a ha).kinds p hp
  linked p hp := by
    obtain ⟨a, ha, hp⟩ := List.mem_flatMap.1 hp
    exact (h a ha).linked p hp

theorem symbol {q : SymbolPart} (hq : q.id ∈ ns) (hp : ∀ s ∈ q.parent, s ∈ ns)
    (hd : ∀ s ∈ q.declared, s ∈ ns) : Closed ns [.symbol q] where
  kinds := by simp
  linked := by
    intro p hp' k hk
    obtain rfl := List.mem_singleton.1 hp'
    obtain ⟨source, ⟨-, target⟩ | ⟨-, target⟩⟩ := Part.mem_links_symbol hk
    · exact ⟨source ▸ hq, hp _ target⟩
    · exact ⟨source ▸ hq, hd _ target⟩

theorem type {p : TypePart} (hk : p.kind ∈ TypeGraph.typeKinds) (hp : p.id ∈ ns)
    (ha : p.typeArguments ⊆ ns) (hm : p.members ⊆ ns) (hs : ∀ s ∈ p.symbol, s ∈ ns)
    (hal : ∀ s ∈ p.aliasSymbol, s ∈ ns) : Closed ns [.type p] where
  kinds := by simp [hk]
  linked := by
    intro q hq k hk
    obtain rfl := List.mem_singleton.1 hq
    obtain ⟨source, ⟨-, target⟩ | ⟨-, target⟩ | ⟨-, target⟩ | ⟨-, target⟩⟩ := Part.mem_links_type hk
    · exact ⟨source ▸ hp, ha target⟩
    · exact ⟨source ▸ hp, hm target⟩
    · exact ⟨source ▸ hp, hs _ target⟩
    · exact ⟨source ▸ hp, hal _ target⟩

end Closed

variable {v u : Vertex} {d : EnumType} {e : TypeExpr} {ns : List String}

namespace Vertex

theorem closed {arguments members : List String} (hk : v.kind ∈ TypeGraph.typeKinds)
    (hv : v.id ∈ ns) (ha : arguments ⊆ ns) (hm : members ⊆ ns)
    (hs : ∀ q ∈ v.symbols,
      q.id ∈ ns ∧ (∀ s ∈ q.parent, s ∈ ns) ∧ ∀ s ∈ q.declared, s ∈ ns) :
    Closed ns (v.parts arguments members) := by
  have vertex : Closed ns [.type (v.type arguments members)] := by
    refine .type hk hv ha hm (fun s h => ?_) fun s h => ?_
    · obtain ⟨q, hq, rfl⟩ := Option.map_eq_some_iff.1 h
      exact (hs q (by simp [symbols, hq])).1
    · obtain ⟨q, hq, rfl⟩ := Option.map_eq_some_iff.1 h
      exact (hs q (by simp [symbols, hq])).1
  have symbols : Closed ns (v.symbols.flatMap fun q => [.symbol q]) :=
    .flatMap fun q hq => .symbol (hs q hq).1 (hs q hq).2.1 (hs q hq).2.2
  rw [← List.map_eq_flatMap] at symbols
  exact vertex.append symbols

theorem names_parts (v : Vertex) (arguments members : List String) :
    (v.parts arguments members).flatMap Part.names =
      v.id :: v.symbols.map SymbolPart.id := by
  simp [parts, Part.names, type, List.flatMap_map, ← List.map_eq_flatMap]

theorem scope_subset (v : Vertex) : v.scope.map SymbolPart.id ⊆ v.symbols.map SymbolPart.id :=
  List.map_subset _ (List.subset_append_right _ _)

theorem Belongs.closed {q : SymbolPart} (h : v.Belongs q) (hq : q.id ∈ ns) (hv : v.id ∈ ns)
    (hn : v.scope.map SymbolPart.id ⊆ ns) :
    q.id ∈ ns ∧ (∀ s ∈ q.parent, s ∈ ns) ∧ ∀ s ∈ q.declared, s ∈ ns := by
  refine ⟨hq, fun s hs => ?_, fun s hs => ?_⟩
  · obtain ⟨p, hp, rfl⟩ := h.parent s hs
    exact hn (List.mem_map_of_mem hp)
  · rw [h.declared s hs]
    exact hv

/-- A vertex whose symbol is its own needs no other names than those of its own parts. -/
theorem Own.closed {arguments members : List String} (h : v.Own)
    (hk : v.kind ∈ TypeGraph.typeKinds)
    (hn : (v.parts arguments members).flatMap Part.names ⊆ ns) (ha : arguments ⊆ ns)
    (hm : members ⊆ ns) : Closed ns (v.parts arguments members) := by
  rw [names_parts, List.cons_subset] at hn
  obtain ⟨hv, symbols⟩ := hn
  refine Vertex.closed hk hv ha hm fun q hq =>
    (h.belongs q hq).closed (symbols (List.mem_map_of_mem hq)) hv ?_
  exact fun s hs => symbols (v.scope_subset hs)

theorem Undefined.closed (h : u.Undefined) (hn : (u.parts [] []).flatMap Part.names ⊆ ns) :
    Closed ns (u.parts [] []) :=
  h.2.closed (by rw [h.1]; decide) hn (by simp) (by simp)

theorem Union.closed {members : List String} (h : v.Union)
    (hn : (v.parts [] members).flatMap Part.names ⊆ ns) (hm : members ⊆ ns) :
    Closed ns (v.parts [] members) :=
  h.own.closed (by rcases h.kind with h | h <;> rw [h] <;> decide) hn (by simp) hm

end Vertex

namespace EnumType

theorem literal_parts {l : Vertex} (hl : l ∈ d.literals) : l.parts [] [] ⊆ d.parts := fun _ hp =>
  List.mem_append_right _ (List.mem_flatMap.2 ⟨l, hl, hp⟩)

theorem declaration_closed (hp : d.parent.id ∈ ns) (hd : d.label.id ∈ ns) :
    Closed ns d.declaration := by
  unfold declaration
  split
  · refine ⟨by simp, fun p hp' k hk => ?_⟩
    obtain rfl := List.mem_singleton.1 hp'
    obtain rfl := List.mem_singleton.1 hk
    exact ⟨hp, hd⟩
  · exact ⟨by simp, by simp⟩

theorem Proper.closed (h : d.Proper) (hn : d.parts.flatMap Part.names ⊆ ns) :
    Closed ns d.parts := by
  have names (l : Vertex) (hl : l ∈ d.literals) : (l.parts [] []).flatMap Part.names ⊆ ns := by
    intro s hs
    obtain ⟨p, hp, hs⟩ := List.mem_flatMap.1 hs
    exact hn (List.mem_flatMap.2 ⟨p, literal_parts hl hp, hs⟩)
  simp only [parts, List.flatMap_append, List.flatMap_cons, List.append_subset] at hn
  obtain ⟨⟨label, parent, -⟩, -⟩ := hn
  have ids (l : Vertex) (hl : l ∈ d.literals) : l.id ∈ ns :=
    names l hl (by simp [Vertex.names_parts])
  have hd : d.label.id ∈ ns := label (by simp [Vertex.names_parts])
  have hp : d.parent.id ∈ ns := parent (by simp [Part.names])
  have scope : d.label.scope.map SymbolPart.id ⊆ ns := by
    rw [Vertex.names_parts] at label
    exact fun s hs => label (List.mem_cons_of_mem _ (d.label.scope_subset hs))
  have symbol : Closed ns [.symbol d.parent] := by
    obtain ⟨-, parent, declared⟩ := h.parent.closed hp hd scope
    exact .symbol hp parent declared
  refine .append (.append ?_ (symbol.append (declaration_closed hp hd))) (.flatMap fun l hl => ?_)
  · refine h.own.closed (by rw [h.kind]; decide) label (by simp) fun s hs => ?_
    obtain ⟨l, hl, rfl⟩ := List.mem_map.1 hs
    exact ids l hl
  · obtain ⟨known, -, scope, q, hq, parent, -, declared⟩ := h.literals l hl
    refine Vertex.closed known (ids l hl) (by simp) (by simp) fun q' hq' => ?_
    obtain rfl : q' = q := by simpa [Vertex.symbols, scope, hq] using hq'
    have symbol : q'.id ∈ ns := names l hl (by simp [Vertex.names_parts, Vertex.symbols, hq])
    refine ⟨symbol, by simp [parent, hp], fun s hs => ?_⟩
    rw [declared s hs]
    exact ids l hl

end EnumType

namespace TypeExpr

theorem Proper.label_parts (h : e.Proper) :
    ∃ arguments members, e.label.parts arguments members ⊆ e.parts := by
  have first {ps qs rs : List Part} (h : ps ⊆ qs) : ps ⊆ qs ++ rs :=
    List.subset_append_of_subset_left rs h
  cases h with
  | leaf => exact ⟨_, _, List.Subset.refl _⟩
  | union => exact ⟨_, _, first (List.Subset.refl _)⟩
  | array | wrapper | enum | optional | optionalEnum =>
    exact ⟨_, _, first (first (List.Subset.refl _))⟩
  | optionalUnion => exact ⟨_, _, first (first (first (List.Subset.refl _)))⟩
  | literal _ hl => exact ⟨_, _, EnumType.literal_parts hl⟩

theorem Proper.id_mem (h : e.Proper) : e.id ∈ e.parts.flatMap Part.names := by
  obtain ⟨arguments, members, hs⟩ := h.label_parts
  exact List.mem_flatMap.2 ⟨_, hs List.mem_cons_self, List.mem_singleton.2 rfl⟩

theorem ids_subset {es : List TypeExpr} (h : ∀ e ∈ es, e.Proper)
    (hn : (allParts es).flatMap Part.names ⊆ ns) : es.map id ⊆ ns := by
  intro s hs
  obtain ⟨e, he, rfl⟩ := List.mem_map.1 hs
  rw [allParts_eq, List.flatMap_assoc] at hn
  exact hn (List.mem_flatMap.2 ⟨e, he, (h e he).id_mem⟩)

/-- Every name that the parts of an expression refer to is the name of one of them. -/
theorem Proper.closed (h : e.Proper) (hn : e.parts.flatMap Part.names ⊆ ns) :
    Closed ns e.parts := by
  have all {es : List TypeExpr} (ih : ∀ e ∈ es, e.parts.flatMap Part.names ⊆ ns → Closed ns e.parts)
      (hn : (allParts es).flatMap Part.names ⊆ ns) : Closed ns (allParts es) := by
    rw [allParts_eq, List.flatMap_assoc] at hn
    rw [allParts_eq]
    exact .flatMap fun e he => ih e he fun s hs => hn (List.mem_flatMap.2 ⟨e, he, hs⟩)
  induction h with
  | @leaf v k fits own =>
    refine own.closed ?_ hn (by simp) (by simp)
    cases k with
    | boolean | number | string => rw [fits]; decide
    | classType | interface => rw [fits.1]; decide
    | date | top => exact fits.1.1
  | array kind own he more ih ihs =>
    simp only [parts, List.flatMap_append, List.append_subset] at hn
    obtain ⟨⟨label, element⟩, rest⟩ := hn
    refine .append (.append (own.closed (by rw [kind]; decide) label ?_ (by simp)) (ih element))
      (all ihs rest)
    exact List.cons_subset.2 ⟨element he.id_mem, ids_subset more rest⟩
  | wrapper told own _ _ he more ih ihs =>
    simp only [parts, List.flatMap_append, List.append_subset] at hn
    obtain ⟨⟨label, payload⟩, rest⟩ := hn
    refine .append (.append (own.closed told.1 label ?_ (by simp)) (ih payload)) (all ihs rest)
    exact List.cons_subset.2 ⟨payload he.id_mem, ids_subset more rest⟩
  | enum hd => exact hd.closed hn
  | literal hd => exact hd.closed hn
  | @optional v u front e hv hu he ih =>
    simp only [parts, List.flatMap_append, List.append_subset] at hn
    obtain ⟨⟨label, undef⟩, payload⟩ := hn
    have hu' : u.id ∈ ns := undef (by simp [Vertex.names_parts])
    have he' : e.id ∈ ns := payload he.id_mem
    refine .append (.append (hv.closed label ?_) (hu.closed undef)) (ih payload)
    cases front <;> simp [hu', he']
  | @optionalEnum v u d before behind hv hu hd literals _ =>
    simp only [parts, List.flatMap_append, List.append_subset] at hn
    obtain ⟨⟨label, undef⟩, enum⟩ := hn
    refine .append (.append (hv.closed label ?_) (hu.closed undef)) (hd.closed enum)
    have ids : (before ++ behind).map Vertex.id ⊆ ns := by
      intro s hs
      obtain ⟨l, hl, rfl⟩ := List.mem_map.1 hs
      exact enum (List.mem_flatMap.2 ⟨_, EnumType.literal_parts (literals hl) List.mem_cons_self,
        List.mem_singleton.2 rfl⟩)
    rw [List.map_append, List.append_subset] at ids
    have hu' : u.id ∈ ns := undef (by simp [Vertex.names_parts])
    exact List.append_subset.2 ⟨ids.1, List.cons_subset.2 ⟨hu', ids.2⟩⟩
  | union hv members ih =>
    simp only [parts, List.flatMap_append, List.append_subset] at hn
    obtain ⟨label, rest⟩ := hn
    exact .append (hv.closed label (ids_subset members rest)) (all ih rest)
  | optionalUnion hv hu hbefore hbehind _ _ ihb ihb' =>
    simp only [parts, List.flatMap_append, List.append_subset] at hn
    obtain ⟨⟨⟨label, undef⟩, before⟩, behind⟩ := hn
    refine .append (.append (.append (hv.closed label ?_) (hu.closed undef)) (all ihb before))
      (all ihb' behind)
    exact List.append_subset.2 ⟨ids_subset hbefore before,
      List.cons_subset.2 ⟨undef (by simp [Vertex.names_parts]), ids_subset hbehind behind⟩⟩

end TypeExpr

/-- The parts of proper expressions make up a graph, if different nodes have different names. -/
theorem Part.wellFormed_of_proper {parts : List Part} {es : List TypeExpr}
    (distinct : (parts.flatMap Part.names).Nodup)
    (exact : ∀ p, p ∈ parts ↔ ∃ e ∈ es, p ∈ e.parts) (proper : ∀ e ∈ es, e.Proper) :
    Part.WellFormed parts := by
  have closed (e : TypeExpr) (he : e ∈ es) : Closed (parts.flatMap Part.names) e.parts := by
    refine (proper e he).closed fun s hs => ?_
    obtain ⟨p, hp, hs⟩ := List.mem_flatMap.1 hs
    exact List.mem_flatMap.2 ⟨p, (exact p).2 ⟨e, he, hp⟩, hs⟩
  refine ⟨distinct, fun p hp => ?_, fun l hl => ?_⟩
  · obtain ⟨e, he, hp⟩ := (exact _).1 hp
    exact (closed e he).kinds p hp
  · obtain ⟨p, hp, hl⟩ := List.mem_flatMap.1 hl
    obtain ⟨e, he, hp⟩ := (exact p).1 hp
    exact (closed e he).linked p hp l hl

end PropertyMetadata
