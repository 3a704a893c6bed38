import PropertyMetadata.Proofs.Circles
import PropertyMetadata.Proofs.Expression.Steps

/-! Expressions resolve to their meanings. Whatever else is built along with an expression, and
however much of it is shared, its resolution ends, and it ends with its meaning. -/

namespace PropertyMetadata

namespace TypeGraph.Built

variable {g : TypeGraph} {parts : List Part} {e : TypeExpr}

/-- The resolution of an expression ends with its meaning. -/
theorem ends_meaning (h : g.Built parts) (once : Part.DeclaredOnce parts) (he : e.Proper)
    (hs : e.parts ⊆ parts) : ∃ k, g.checker.Ends (.string e.id) k (.ok e.meaning) := by
  have each {es : List TypeExpr} (hp : ∀ e ∈ es, e.Proper)
      (hs : TypeExpr.allParts es ⊆ parts) : ∀ e ∈ es, e.Proper ∧ e.parts ⊆ parts := by
    rw [TypeExpr.allParts_eq] at hs
    exact fun e hmem => ⟨hp e hmem, fun p hp => hs (List.mem_flatMap.2 ⟨e, hmem, hp⟩)⟩
  induction he with
  | leaf fits => exact ⟨0, h.ends_leaf (hs List.mem_cons_self) fits⟩
  | @array v e more kind _ _ _ ih =>
    simp only [TypeExpr.parts, List.append_subset] at hs
    obtain ⟨⟨node, element⟩, -⟩ := hs
    obtain ⟨k, hk⟩ := ih element
    have array : g.checker.is .array (.string v.id) = .ok true := by
      simp [h.is_vertex (node List.mem_cons_self), Shape.kinds, kind]
    exact ⟨k + 1, .element (Checker.step_array array (h.typeArguments_eq (node List.mem_cons_self)))
      hk⟩
  | @wrapper v e more s told _ ht hw _ _ ih =>
    simp only [TypeExpr.parts, List.append_subset] at hs
    obtain ⟨⟨node, payload⟩, -⟩ := hs
    obtain ⟨k, hk⟩ := ih payload
    have nonempty : s ≠ "" := by
      rintro rfl
      exact absurd hw (by decide)
    have step := h.step_told (node List.mem_cons_self) told.not_builtIn ht nonempty
    rw [Checker.stepRendered_wrapper hw (h.typeArguments_eq (node List.mem_cons_self))] at step
    exact ⟨k + 1, .through step hk⟩
  | enum hd => exact ⟨0, h.ends_enumType hs hd⟩
  | @literal d v hd hv kind named =>
    exact ⟨0, h.ends_enum (hs (EnumType.literal_parts hv List.mem_cons_self)) (.inr kind) named⟩
  | @optional v u front e hv hu he ih =>
    simp only [TypeExpr.parts, List.append_subset] at hs
    obtain ⟨⟨node, undef⟩, payload⟩ := hs
    obtain ⟨k, hk⟩ := ih payload
    obtain ⟨s, step, members⟩ := h.step_members (node List.mem_cons_self) hv
    rw [Checker.stepUnion_optional (u := .string u.id) (e := .string e.id) members
      (h.members_eq (node List.mem_cons_self)) (by cases front <;> simp)
      (h.is_undefined undef hu) (h.is_defined he payload)] at step
    exact ⟨k + 1, .through step hk⟩
  | optionalEnum hv hu hd literals two =>
    simp only [TypeExpr.parts, List.append_subset] at hs
    obtain ⟨⟨node, undef⟩, enum⟩ := hs
    have nonempty := List.ne_nil_of_length_pos (Nat.lt_of_lt_of_le Nat.two_pos two)
    have common := h.commonEnum_literals once enum hd literals nonempty
    rw [List.map_append] at common
    have step := h.step_several (node List.mem_cons_self) hv ?_ (h.is_undefined undef hu)
      (by simpa using two) common
    · exact ⟨1, .through step (h.ends_enumType enum hd)⟩
    · rw [List.forall_mem_map]
      exact fun l hl => h.is_defined_literal enum hd (literals (List.mem_append_left _ hl))
  | @union v es hv proper _ =>
    simp only [TypeExpr.parts, List.append_subset] at hs
    obtain ⟨node, rest⟩ := hs
    have all := each proper rest
    obtain ⟨s, step, members⟩ := h.step_members (node List.mem_cons_self) hv
    refine ⟨0, .answer ?_⟩
    refine step.trans ((Checker.stepUnion_defined members fun t ht => ?_).trans ?_)
    · simp only [List.map_map, List.mem_map] at ht
      obtain ⟨e, hmem, rfl⟩ := ht
      exact h.is_defined (all e hmem).1 (all e hmem).2
    · rw [h.fallback_union (node List.mem_cons_self) hv]
      rfl
  | @optionalUnion v u before behind hv hu hbefore hbehind two others _ _ =>
    simp only [TypeExpr.parts, List.append_subset] at hs
    obtain ⟨⟨⟨node, undef⟩, first⟩, second⟩ := hs
    have all : ∀ e ∈ before ++ behind, e.Proper ∧ e.parts ⊆ parts :=
      List.forall_mem_append.2 ⟨each hbefore first, each hbehind second⟩
    have common := h.commonEnum_eq_none once all others
    rw [List.map_append] at common
    have step := h.step_several (node List.mem_cons_self) hv ?_ (h.is_undefined undef hu)
      (by simpa using two) common
    · exact ⟨0, .answer step⟩
    · rw [List.forall_mem_map]
      intro e hmem
      have := all e (List.mem_append_left _ hmem)
      exact h.is_defined this.1 this.2

end TypeGraph.Built

/-- Calls that add the parts of proper expressions, each node under a name of its own and no symbol
declared to be two types, build a graph in which every expression resolves to its meaning. -/
theorem TypeExpr.resolve_meaning {calls : List Builder.Call} {parts : List Part}
    {es : List TypeExpr} (added : Builder.named {} calls = parts.map Part.call)
    (exact : ∀ p, p ∈ parts ↔ ∃ e ∈ es, p ∈ e.parts)
    (distinct : (parts.flatMap Part.names).Nodup) (once : Part.DeclaredOnce parts)
    (proper : ∀ e ∈ es, e.Proper) :
    ∃ g, (Builder.performAll {} calls).build = .ok g ∧
      ∀ e ∈ es, g.resolve none (.string e.id) = .ok e.meaning := by
  obtain ⟨g, hg, built⟩ := TypeGraph.build_of_wellFormed added
    (Part.wellFormed_of_proper distinct exact proper)
  refine ⟨g, hg, fun e he => ?_⟩
  obtain ⟨k, ends⟩ := built.ends_meaning once (proper e he) fun p hp => (exact p).2 ⟨e, he, hp⟩
  exact built.named.resolve_of_ends ends

namespace SharedUsers

/-- Calls that build a promise of an array of users, the optional array, which shares the array with
it, and an optional enum. -/
def calls : List Builder.Call := [
  .type { kind := .string "undefined", text := .string "undefined" },
  .type { kind := .string "class", text := .string "User" },
  .type { kind := .string "array", typeArguments := Json.ofStrings ["t2"] },
  .type { kind := .string "reference", text := .string "Promise<User[]>"
          typeArguments := Json.ofStrings ["t3"] },
  .type { kind := .string "union", text := .string "User[] | undefined"
          members := Json.ofStrings ["t1", "t3"] },
  .symbol { name := .string "Color", flags := Json.ofStrings ["Enum"] },
  .symbol { name := .string "Red", flags := Json.ofStrings ["EnumMember"]
            parent := .string "s6" },
  .symbol { name := .string "Blue", flags := Json.ofStrings ["EnumMember"]
            parent := .string "s6" },
  .type { kind := .string "enum_literal", text := .string "Red", symbol := .string "s7" },
  .type { kind := .string "enum_literal", text := .string "Blue", symbol := .string "s8" },
  .type { kind := .string "enum", text := .string "Color", symbol := .string "s6"
          members := Json.ofStrings ["t9", "t10"] },
  .declare (.string "s6") (.string "t11"),
  .type { kind := .string "union", text := .string "Color | undefined"
          members := Json.ofStrings ["t9", "t1", "t10"] }]

def undefined : Vertex := { id := "t1", kind := "undefined", text := some "undefined" }

def users : TypeExpr :=
  .array { id := "t3", kind := "array" }
    (.leaf { id := "t2", kind := "class", text := some "User" } .classType) []

def promise : TypeExpr :=
  .wrapper { id := "t4", kind := "reference", text := some "Promise<User[]>" } users []

def maybeUsers : TypeExpr :=
  .optional { id := "t5", kind := "union", text := some "User[] | undefined" } undefined true users

def colorSymbol : SymbolPart := { id := "s6", name := "Color", flags := ["Enum"] }

def literal (id name symbol : String) : Vertex where
  id := id
  kind := "enum_literal"
  text := some name
  symbol := some { id := symbol, name := name, flags := ["EnumMember"], parent := some "s6" }

def red : Vertex := literal "t9" "Red" "s7"

def blue : Vertex := literal "t10" "Blue" "s8"

def color : EnumType where
  label := { id := "t11", kind := "enum", text := some "Color", symbol := some colorSymbol }
  parent := colorSymbol
  literals := [red, blue]

def maybeColor : TypeExpr :=
  .optionalEnum { id := "t12", kind := "union", text := some "Color | undefined" } color [red]
    undefined [blue]

def parts : List Part := [
  .type (undefined.type [] []),
  .type { id := "t2", kind := "class", text := some "User" },
  .type { id := "t3", kind := "array", typeArguments := ["t2"] },
  .type (promise.label.type ["t3"] []),
  .type (maybeUsers.label.type [] ["t1", "t3"]),
  .symbol colorSymbol,
  .symbol { id := "s7", name := "Red", flags := ["EnumMember"], parent := some "s6" },
  .symbol { id := "s8", name := "Blue", flags := ["EnumMember"], parent := some "s6" },
  .type (red.type [] []),
  .type (blue.type [] []),
  .type (color.label.type [] ["t9", "t10"]),
  .declare "s6" "t11",
  .type (maybeColor.label.type [] ["t9", "t1", "t10"])]

theorem flags : Flags.ofRecord (.string (",".intercalate ["EnumMember"])) = .ok .enumMember := by
  have spelled : Flags.spelling "EnumMember" = "ENUM_MEMBER" := by decide +kernel
  have listed : Flags.listed "EnumMember" = ["EnumMember"] := by decide +kernel
  rw [String.intercalate_singleton, Flags.ofRecord, listed]
  simp only [Flags.ofNames, Flags.named, Flags.named?, spelled]
  rfl

theorem own {v : Vertex} (h : v.symbols = []) : v.Own := by
  have none : v.symbol = none := by
    simp_all [Vertex.symbols]
  exact ⟨by simp [h], by simp [none]⟩

theorem literal_proper (id name symbol : String) : color.Literal (literal id name symbol) :=
  ⟨show "enum_literal" ∈ TypeGraph.typeKinds by decide, show "enum_literal" ≠ "undefined" by decide,
    ⟨rfl, rfl⟩, _, rfl, rfl, flags, by simp⟩

theorem color_proper : color.Proper where
  kind := rfl
  own := ⟨List.forall_mem_singleton.2 ⟨by simp [colorSymbol], by simp [colorSymbol]⟩,
    by simp [color, colorSymbol]⟩
  text := ⟨"Color", ⟨rfl, by decide, by decide⟩, by decide, by decide⟩
  parent := ⟨by simp [color, colorSymbol], by simp [color, colorSymbol]⟩
  literals := List.forall_mem_cons.2 ⟨literal_proper _ _ _,
    List.forall_mem_singleton.2 (literal_proper _ _ _)⟩

theorem undefined_proper : undefined.Undefined := ⟨rfl, own rfl⟩

theorem users_proper : users.Proper :=
  .array rfl (own rfl) (.leaf ⟨rfl, "User", rfl, by decide, by decide⟩ (own rfl)) (by simp)

theorem promise_proper : promise.Proper :=
  .wrapper ⟨by decide, by decide⟩ (own rfl) rfl (by decide) users_proper (by simp)

theorem maybeUsers_proper : maybeUsers.Proper :=
  .optional ⟨.inl rfl, own rfl, _, ⟨rfl, by decide, by decide⟩, by decide⟩ undefined_proper
    users_proper

theorem maybeColor_proper : maybeColor.Proper :=
  .optionalEnum ⟨.inl rfl, own rfl, _, ⟨rfl, by decide, by decide⟩, by decide⟩ undefined_proper
    color_proper (by simp [color]) (by decide)

/-- The expressions resolve to what they say in one graph. -/
theorem resolve_sharedUsers : ∃ g, (Builder.performAll {} calls).build = .ok g ∧
    g.resolve none (.string "t4") = .ok (.descriptor (Descriptor.ofString "User").bracketed) ∧
    g.resolve none (.string "t5") = .ok (.descriptor (Descriptor.ofString "User").bracketed) ∧
    g.resolve none (.string "t12") = .ok (.unresolved "enum") := by
  have added : Builder.named {} calls = parts.map Part.call := by rfl
  have exact (p : Part) : p ∈ parts ↔ ∃ e ∈ [promise, maybeUsers, maybeColor], p ∈ e.parts := by
    have all : ∀ p ∈ parts, p ∈ [promise, maybeUsers, maybeColor].flatMap TypeExpr.parts := by
      decide
    have only : ∀ p ∈ [promise, maybeUsers, maybeColor].flatMap TypeExpr.parts, p ∈ parts := by
      decide
    exact ⟨fun hp => List.mem_flatMap.1 (all p hp), fun h => only p (List.mem_flatMap.2 h)⟩
  have once : Part.DeclaredOnce parts := by
    unfold Part.DeclaredOnce
    decide
  have proper : ∀ e ∈ [promise, maybeUsers, maybeColor], e.Proper := by
    simp [promise_proper, maybeUsers_proper, maybeColor_proper]
  obtain ⟨g, hg, resolves⟩ := TypeExpr.resolve_meaning added exact (by decide) once proper
  exact ⟨g, hg, resolves promise (by simp), resolves maybeUsers (by simp),
    resolves maybeColor (by simp)⟩

end SharedUsers

end PropertyMetadata
