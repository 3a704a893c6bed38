import PropertyMetadata.Proofs.Graph.Answering

/-! The unions that a compiler makes of optional enums. Such a union has an undefined member and,
with the first one set aside, literals of one enum only. In a graph that answers, this enum is what
is found for the union, and for every other node nothing is found. -/

namespace PropertyMetadata.TypeGraph

variable {g : TypeGraph} {t m u E : Json} {ts before behind : List Json}

/-- The symbol of a node is an enum member and nothing else, and its parent declares an enum. -/
def IsLiteralOf (g : TypeGraph) (m E : Json) : Prop :=
  ∃ s p d, g.target? m "symbol" = .ok (some s) ∧ g.flags s = .ok .enumMember ∧
    g.target? s "parent" = .ok (some p) ∧ g.target? p "declared_type" = .ok (some d) ∧
    d.alike E = true

/-- A node is the union of an undefined node and of literals of one enum. Other undefined nodes
behind the first one would have to be literals too. -/
structure IsEnumUnion (g : TypeGraph) (t E : Json) : Prop where
  kind : g.kind t = .ok (.string "union") ∨ g.kind t = .ok (.string "intersection")
  members : ∃ before u behind, g.targets t "member" = .ok (before ++ u :: behind) ∧
    (∀ m ∈ before, g.kind m ≠ .ok (.string "undefined")) ∧
    g.kind u = .ok (.string "undefined") ∧
    before ++ behind ≠ [] ∧ ∀ m ∈ before ++ behind, g.IsLiteralOf m E

theorem declaredType_eq_ok_iff {p d : Json} :
    g.checker.declaredType p = .ok (some d) ↔ g.target? p "declared_type" = .ok (some d) := by
  show (g.declaredType p).map some = _ ↔ _
  rw [declaredType]
  cases g.target? p "declared_type" with
  | error => simp [bind, Except.bind, Except.map]
  | ok d? => cases d? <;> simp [bind, Except.bind, pure, Except.pure, Except.map]

theorem isLiteralOf_iff : g.IsLiteralOf m E ↔
    ∃ d, g.checker.enumOfMember m = .ok (some (some d)) ∧ d.alike E = true := by
  simp only [Checker.enumOfMember_eq_some_iff, declaredType_eq_ok_iff]
  constructor
  · rintro ⟨s, p, d, symbol, flags, parent, declared, alike⟩
    exact ⟨d, ⟨s, p, symbol, flags, parent, declared⟩, alike⟩
  · rintro ⟨d, ⟨s, p, symbol, flags, parent, declared⟩, alike⟩
    exact ⟨s, p, d, symbol, flags, parent, declared, alike⟩

theorem undefined_iff :
    g.checker.is .undefined m = .ok true ↔ g.kind m = .ok (.string "undefined") := by
  show g.kindIn ["undefined"] m = _ ↔ _
  simp [kindIn_iff]

/-- Where the members of a union are known up to the first undefined one, the others decide. -/
theorem isEnumUnion_split_iff (union : g.IsUnion t)
    (hts : g.targets t "member" = .ok (before ++ u :: behind))
    (nodes : ∀ m ∈ before ++ u :: behind, g.has m = true)
    (hb : ∀ m ∈ before, g.checker.is .undefined m = .ok false)
    (hu : g.checker.is .undefined u = .ok true) :
    g.IsEnumUnion t E ↔ before ++ behind ≠ [] ∧ ∀ m ∈ before ++ behind, g.IsLiteralOf m E := by
  constructor
  · rintro ⟨-, before', u', behind', hts', hb', hu', hne, all⟩
    have same := Except.ok.inj (hts'.symm.trans hts)
    have defined : ∀ m ∈ before', g.checker.is .undefined m = .ok false := by
      intro m hm
      have node : g.has m = true := nodes m (same ▸ List.mem_append_left _ hm)
      obtain ⟨b, hb⟩ := kindIn_of_has node ["undefined"]
      cases b with
      | false => exact hb
      | true => exact absurd (undefined_iff.1 hb) (hb' m hm)
    have split : g.checker.splitUndefined (before' ++ u' :: behind') =
        .ok (some (before', behind')) :=
      Checker.splitUndefined_eq_some defined (undefined_iff.2 hu')
    rw [same, Checker.splitUndefined_eq_some hb hu] at split
    simp only [Except.ok.injEq, Option.some.injEq, Prod.mk.injEq] at split
    obtain ⟨rfl, rfl⟩ := split
    exact ⟨hne, all⟩
  · rintro ⟨hne, all⟩
    refine ⟨isUnion_iff.1 union, before, u, behind, hts, fun m hm undefined => ?_,
      undefined_iff.1 hu, hne, all⟩
    cases (hb m hm).symm.trans (undefined_iff.2 undefined)

namespace Answering

/-- Nodes are literals of one enum just when they are members of enums of one name. -/
theorem allKeyed_iff (ha : g.Answering) (h : ∀ m ∈ ts, g.has m = true) :
    g.checker.AllKeyed Json.name? E.name? ts ↔ ∀ m ∈ ts, g.IsLiteralOf m E := by
  refine forall₂_congr fun m hm => ?_
  rw [isLiteralOf_iff]
  refine exists_congr fun d => and_congr_right fun some => ?_
  rcases ha.enumOfMember_cases (h m hm) with none | ⟨d', some', node⟩
  · cases none.symm.trans some
  · obtain rfl : d' = d := by simpa using some'.symm.trans some
    rw [has_alike_iff node, eq_comm]

/-- Either the enum is found, which has no other names than those that are like the one found, or
nothing is. -/
theorem enumUnion?_cases (ha : g.Answering) (h : g.has t = true) :
    (∃ e, g.checker.enumUnion? t = .ok (some e) ∧ g.has e = true ∧
        ∀ E, g.IsEnumUnion t E ↔ e.alike E = true) ∨
      g.checker.enumUnion? t = .ok none ∧ ∀ E, ¬ g.IsEnumUnion t E := by
  rcases ha.unionMembers_cases h with empty | ⟨ts, hm, union, hts, nodes⟩
  · refine .inr ⟨by rw [Checker.enumUnion?_eq empty]; rfl, fun E hE => ?_⟩
    obtain ⟨before, u, behind, hts, -⟩ := hE.members
    simpa using empty.symm.trans ((isUnion_iff.2 hE.kind).unionMembers_eq hts)
  · have answered : ∀ m ∈ ts, ∃ b, g.checker.is .undefined m = .ok b :=
      fun m hm => kindIn_of_has (nodes m hm) ["undefined"]
    have common := Checker.enumUnion?_eq hm
    rcases Checker.undefined_cases answered with none | ⟨before, u, behind, rfl, hb, hu⟩
    · rw [Checker.splitUndefined_eq_none none] at common
      refine .inr ⟨common, fun E hE => ?_⟩
      obtain ⟨before, u, behind, hts', -, hu, -⟩ := hE.members
      obtain rfl := Except.ok.inj (hts.symm.trans hts')
      cases (none u (by simp)).symm.trans (undefined_iff.2 hu)
    · rw [Checker.splitUndefined_eq_some hb hu] at common
      have others : ∀ m ∈ before ++ behind, g.has m = true :=
        fun m hm => nodes m ((List.sublist_cons_self u behind).append_left before |>.subset hm)
      have spec (E : Json) : g.IsEnumUnion t E ↔
          before ++ behind ≠ [] ∧ g.checker.AllKeyed Json.name? E.name? (before ++ behind) :=
        (isEnumUnion_split_iff union hts nodes hb hu).trans
          (and_congr_right fun _ => (ha.allKeyed_iff others).symm)
      rcases (ha.keyed others).commonEnum_none with ⟨e, found, node, hne, all⟩ | ⟨none, no⟩
      · refine .inl ⟨e, common.trans found, node, fun E => ?_⟩
        rw [spec, has_alike_iff node]
        exact ⟨fun h => h.2.unique all hne, fun same => ⟨hne, same ▸ all⟩⟩
      · exact .inr ⟨common.trans none, fun E hE => no _ ((spec E).1 hE).1 ((spec E).1 hE).2⟩

end Answering

/-- The enum of an optional enum is what is found for its union, and no other node has one. -/
theorem isEnumUnion_iff (ha : g.Answering) (h : g.has t = true) :
    (∀ E, g.IsEnumUnion t E ↔
      ∃ e, g.checker.enumUnion? t = .ok (some e) ∧ e.alike E = true) ∧
    ((∀ E, ¬ g.IsEnumUnion t E) → g.checker.enumUnion? t = .ok none) := by
  rcases ha.enumUnion?_cases h with ⟨e, found, node, spec⟩ | ⟨none, no⟩
  · refine ⟨fun E => (spec E).trans ⟨fun alike => ⟨e, found, alike⟩, ?_⟩,
      fun no => absurd ((spec e).2 (alike_self node)) (no e)⟩
    rintro ⟨e', found', alike⟩
    obtain rfl : e = e' := by simpa using found.symm.trans found'
    exact alike
  · refine ⟨fun E => ⟨fun hE => absurd hE (no E), ?_⟩, fun _ => none⟩
    rintro ⟨e, found, -⟩
    cases none.symm.trans found

/-! ### An optional enum -/

/-- An optional enum of two colors, of which the last one comes first. -/
def colors : TypeGraph where
  directed := true
  nodes := [
    ⟨.string "maybe", [("kind", .string "union")]⟩,
    ⟨.string "nothing", [("kind", .string "undefined")]⟩,
    ⟨.string "red", [("kind", .string "enum_literal")]⟩,
    ⟨.string "blue", [("kind", .string "enum_literal")]⟩,
    ⟨.string "color", [("kind", .string "enum")]⟩,
    ⟨.string "Red", [("flags", .string "ENUM_MEMBER")]⟩,
    ⟨.string "Blue", [("flags", .string "ENUM_MEMBER")]⟩,
    ⟨.string "Color", [("category", .string "symbol")]⟩]
  edges := [
    ⟨.string "maybe", .string "red", .int 0, some (.string "member"), some (.int 2)⟩,
    ⟨.string "maybe", .string "nothing", .int 0, some (.string "member"), some (.int 1)⟩,
    ⟨.string "maybe", .string "blue", .int 0, some (.string "member"), some (.int 0)⟩,
    ⟨.string "red", .string "Red", .int 0, some (.string "symbol"), some (.int 0)⟩,
    ⟨.string "blue", .string "Blue", .int 0, some (.string "symbol"), some (.int 0)⟩,
    ⟨.string "Red", .string "Color", .int 0, some (.string "parent"), some (.int 0)⟩,
    ⟨.string "Blue", .string "Color", .int 0, some (.string "parent"), some (.int 0)⟩,
    ⟨.string "Color", .string "color", .int 0, some (.string "declared_type"), some (.int 0)⟩]

theorem ofRecord_member : Flags.ofRecord (.string "ENUM_MEMBER") = .ok .enumMember := by
  have spelled : Flags.spelling "ENUM_MEMBER" = "ENUM_MEMBER" := by decide +kernel
  have listed : Flags.listed "ENUM_MEMBER" = ["ENUM_MEMBER"] := by decide +kernel
  rw [Flags.ofRecord, listed]
  simp only [Flags.ofNames, Flags.named, Flags.named?, spelled]
  rfl

theorem answering_colors : colors.Answering where
  directed := rfl
  target := by simp [colors, has_string_iff]
  placed := by simp [colors, Edge.position, Json.whole]
  flags id := by
    refine flags_of_has ?_
    simp only [colors, List.forall_mem_cons]
    exact ⟨⟨_, rfl⟩, ⟨_, rfl⟩, ⟨_, rfl⟩, ⟨_, rfl⟩, ⟨_, rfl⟩, ⟨_, ofRecord_member⟩,
      ⟨_, ofRecord_member⟩, ⟨_, rfl⟩, by simp⟩
  declared := by simp [colors, Edge.leaves_string_iff]

theorem isEnumUnion_maybe : colors.IsEnumUnion (.string "maybe") (.string "color") where
  kind := .inl rfl
  members := by
    refine ⟨[.string "blue"], .string "nothing", [.string "red"], by cbv, ?_, rfl, by simp, ?_⟩
    · have kind : colors.kind (.string "blue") = .ok (.string "enum_literal") := rfl
      simp [kind]
    · simp only [List.cons_append, List.nil_append, List.forall_mem_cons]
      exact ⟨⟨.string "Blue", .string "Color", .string "color", by cbv, ofRecord_member, by cbv,
          by cbv, rfl⟩,
        ⟨.string "Red", .string "Color", .string "color", by cbv, ofRecord_member, by cbv, by cbv,
          rfl⟩,
        by simp⟩

theorem isEnumUnion_colors : colors.Answering ∧ colors.has (.string "maybe") = true ∧
    colors.IsEnumUnion (.string "maybe") (.string "color") ∧
    colors.checker.enumUnion? (.string "maybe") = .ok (some (.string "color")) ∧
    colors.has (.string "color") = true ∧ (∀ E, ¬ colors.IsEnumUnion (.string "color") E) ∧
    colors.checker.enumUnion? (.string "color") = .ok none := by
  have maybe : colors.has (.string "maybe") = true := by simp [colors, has_string_iff]
  have color : colors.has (.string "color") = true := by simp [colors, has_string_iff]
  have no (E : Json) : ¬ colors.IsEnumUnion (.string "color") E := by
    have kind : colors.kind (.string "color") = .ok (.string "enum") := rfl
    rintro ⟨union | intersection, -⟩
    · simp [kind] at union
    · simp [kind] at intersection
  obtain ⟨e, found, alike⟩ :=
    ((isEnumUnion_iff answering_colors maybe).1 (.string "color")).1 isEnumUnion_maybe
  obtain rfl := Json.alike_string_iff.1 alike
  exact ⟨answering_colors, maybe, isEnumUnion_maybe, found, color, no,
    (isEnumUnion_iff answering_colors color).2 no⟩

end PropertyMetadata.TypeGraph
