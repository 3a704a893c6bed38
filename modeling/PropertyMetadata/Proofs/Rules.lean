import PropertyMetadata.Proofs.Members

/-! The rules of a step, one by one. Each says what a type comes to when the answers of a checker
rule out all rules before it. -/

namespace PropertyMetadata.Checker

variable {Handle : Type} {c : Checker Handle} {t u e : Handle} {us ts before behind : List Handle}
  {s : String} {x : Json}

/-! ### Texts -/

theorem step_array (ha : c.is .array t = .ok true) (hu : c.typeArguments t = .ok (u :: us)) :
    c.step t = .ok (.element u) := by
  simp [step, ha, hu, bind, Except.bind, pure, Except.pure]

theorem step_builtIn {k : Shape} {d : Descriptor}
    (hk : (k, d) ∈ [(Shape.boolean, Descriptor.boolean), (.number, .number), (.string, .string)])
    (h : ∀ j ∈ [Shape.array, .boolean, .number, .string], c.is j t = .ok (decide (j = k))) :
    c.step t = .ok (.answer (.descriptor d)) := by
  have ha := h .array (by simp)
  have hb := h .boolean (by simp)
  have hn := h .number (by simp)
  have hs := h .string (by simp)
  simp only [List.mem_cons, Prod.mk.injEq, List.not_mem_nil, or_false] at hk
  rcases hk with ⟨rfl, rfl⟩ | ⟨rfl, rfl⟩ | ⟨rfl, rfl⟩ <;>
    simp [step, ha, hb, hn, hs, bind, Except.bind, pure, Except.pure]

theorem step_told (h : ∀ k ∈ [Shape.array, .boolean, .number, .string], c.is k t = .ok false)
    (hx : c.text t = .ok x) : c.step t = c.stepRendered t x := by
  have ha := h .array (by simp)
  have hb := h .boolean (by simp)
  have hn := h .number (by simp)
  have hs := h .string (by simp)
  simp [step, ha, hb, hn, hs, render, hx, bind, Except.bind]

theorem stepRendered_wrapper (hw : isWrapper s = true) (hu : c.typeArguments t = .ok (u :: us)) :
    c.stepRendered t (.string s) = .ok (.through u) := by
  simp [stepRendered, marksWrapper, hw, hu, bind, Except.bind, pure, Except.pure]

theorem stepRendered_class (hw : isWrapper s = false) (hc : c.is .classType t = .ok true) :
    c.stepRendered t (.string s) = .ok (.answer (.descriptor (.ofString s))) := by
  simp [stepRendered, marksWrapper, hw, hc, Descriptor.ofString, bind, Except.bind, pure,
    Except.pure]

theorem stepRendered_date (hc : c.is .classType t = .ok false) :
    c.stepRendered t (.string "Date") = .ok (.answer (.descriptor .date)) := by
  have hw : isWrapper "Date" = false := by decide
  simp [stepRendered, marksWrapper, hw, hc, Json.alike_string, bind, Except.bind, pure, Except.pure]

theorem stepRendered_other (hw : isWrapper s = false) (hc : c.is .classType t = .ok false)
    (hd : s ≠ "Date") : c.stepRendered t (.string s) = c.stepUnion t (.string s) := by
  simp [stepRendered, marksWrapper, hw, hc, hd, Json.alike_string, bind, Except.bind]

/-! ### Unions -/

theorem stepUnion_defined (hm : c.unionMembers t = .ok ts)
    (h : ∀ u ∈ ts, c.is .undefined u = .ok false) :
    c.stepUnion t x = (c.fallback t x).map .answer := by
  have optional : c.isOptionalUnion t = .ok false := by
    rw [isOptionalUnion_eq hm, splitUndefined_eq_none h]
    split <;> rfl
  have enum : c.enumUnion? t = .ok none := by
    rw [enumUnion?_eq hm, splitUndefined_eq_none h]
    rfl
  simp only [stepUnion, optional, enum, bind, Except.bind, pure, Except.pure]
  cases c.fallback t x <;> rfl

theorem stepUnion_optional (hm : c.unionMembers t = .ok ts) (ht : c.members t = .ok ts)
    (hts : ts = [u, e] ∨ ts = [e, u]) (hu : c.is .undefined u = .ok true)
    (he : c.is .undefined e = .ok false) : c.stepUnion t x = .ok (.through e) := by
  have optional : c.isOptionalUnion t = .ok true := by
    rw [isOptionalUnion_eq hm]
    rcases hts with rfl | rfl <;>
      simp [splitUndefined, hu, he, bind, Except.bind, pure, Except.pure, Except.map]
  have last : c.lastDefinedMember t = .ok (some e) := by
    rcases hts with rfl | rfl <;>
      simp [lastDefinedMember, ht, firstDefined, hu, he, bind, Except.bind, pure, Except.pure]
  simp [stepUnion, optional, last, bind, Except.bind, pure, Except.pure]

/-- What an undefined type and several others are a union of depends on the others' enum. -/
theorem stepUnion_several (hm : c.unionMembers t = .ok (before ++ u :: behind))
    (hb : ∀ b ∈ before, c.is .undefined b = .ok false) (hu : c.is .undefined u = .ok true)
    (hl : 2 ≤ (before ++ behind).length) {enum : Option Handle}
    (he : c.commonEnum none (before ++ behind) = .ok enum) :
    c.stepUnion t x = match enum with
      | some e => .ok (.through e)
      | none => (c.fallback t x).map .answer := by
  have optional : c.isOptionalUnion t = .ok false := by
    rw [List.length_append] at hl
    rw [isOptionalUnion_eq hm, if_neg]
    rw [List.length_append, List.length_cons]
    omega
  have common : c.enumUnion? t = .ok enum := by
    rw [enumUnion?_eq hm, splitUndefined_eq_some hb hu]
    exact he
  simp only [stepUnion, optional, common, bind, Except.bind, pure, Except.pure]
  cases enum with
  | some e => rfl
  | none => cases c.fallback t x <;> rfl

/-! ### The rest -/

theorem isTopType_string (s : String) : isTopType (.string s) = .ok (decide (s ∈ topTypes)) := by
  have any : (topTypes.any fun r => (Json.string s).alike (.string r)) = decide (s ∈ topTypes) := by
    rw [Bool.eq_iff_iff, decide_eq_true_iff]
    simp [Json.alike_string]
  simp [isTopType, any, Json.hashable, Json.isScalar, bind, Except.bind, pure, Except.pure]

theorem fallback_top (hs : s ∈ topTypes) :
    c.fallback t (.string s) = .ok (.descriptor .object) := by
  simp [fallback, isTopType_string, hs, bind, Except.bind, pure, Except.pure]

theorem fallback_interface (hi : c.is .interface t = .ok true) :
    c.fallback t (.string s) = .ok (.descriptor .object) := by
  by_cases hs : s ∈ topTypes <;>
    simp [fallback, isTopType_string, hs, hi, bind, Except.bind, pure, Except.pure]

theorem fallback_union (hi : c.is .interface t = .ok false)
    (hu : c.is .unionOrIntersection t = .ok true) (he : c.is .enum t = .ok false) :
    c.fallback t (.string s) = .ok (.descriptor .object) := by
  by_cases hs : s ∈ topTypes <;>
    simp [fallback, isTopType_string, hs, hi, hu, he, bind, Except.bind, pure, Except.pure]

/-- Enums have no descriptor, whether or not they are unions of their members. -/
theorem fallback_enum (hs : s ∉ topTypes) (hi : c.is .interface t = .ok false) {b : Bool}
    (hu : c.is .unionOrIntersection t = .ok b) (he : c.is .enum t = .ok true) :
    c.fallback t (.string s) = .ok (.unresolved "enum") := by
  simp [fallback, isTopType_string, hs, hi, hu, he, bind, Except.bind, pure, Except.pure]

/-! ### Members of enums -/

/-- A literal of an enum is told by its symbol and by what the parent of the symbol declares. -/
theorem enumOfMember_literal {q p : Handle} (hq : c.symbol t = .ok (some q))
    (hp : c.parent q = .ok (some p)) (hf : c.flags q = .ok .enumMember)
    (hd : c.declaredType p = .ok (some e)) : c.enumOfMember t = .ok (some (some e)) := by
  simp [enumOfMember, hq, hp, hf, hd, bind, Except.bind, pure, Except.pure]

theorem enumOfMember_eq_some_iff : c.enumOfMember t = .ok (some (some e)) ↔
    ∃ q p, c.symbol t = .ok (some q) ∧ c.flags q = .ok .enumMember ∧ c.parent q = .ok (some p) ∧
      c.declaredType p = .ok (some e) := by
  refine ⟨fun h => ?_, fun ⟨q, p, hq, hf, hp, hd⟩ => enumOfMember_literal hq hp hf hd⟩
  unfold enumOfMember at h
  obtain ⟨symbol, hq, h⟩ := bind_eq_ok_iff.1 h
  cases symbol with
  | none => cases h
  | some q =>
    obtain ⟨parent, hp, h⟩ := bind_eq_ok_iff.1 h
    cases parent with
    | none => cases h
    | some p =>
      obtain ⟨f, hf, h⟩ := bind_eq_ok_iff.1 h
      split at h
      next member =>
        obtain ⟨d, hd, h⟩ := bind_eq_ok_iff.1 h
        obtain rfl : d = some e := by simpa [pure, Except.pure] using h
        exact ⟨q, p, hq, member ▸ hf, hp, hd⟩
      next => cases h

/-- A type is no literal of an enum if it has no symbol, or one without a parent, or one that is
anything but an enum member. -/
theorem enumOfMember_none {q : Option Handle} (hq : c.symbol t = .ok q)
    (h : ∀ s ∈ q, c.parent s = .ok none ∨
      ∃ p f, c.parent s = .ok (some p) ∧ c.flags s = .ok f ∧ f ≠ .enumMember) :
    c.enumOfMember t = .ok none := by
  cases q with
  | none => simp [enumOfMember, hq, bind, Except.bind, pure, Except.pure]
  | some s =>
    rcases h s rfl with hp | ⟨p, f, hp, hf, hne⟩
    · simp [enumOfMember, hq, hp, bind, Except.bind, pure, Except.pure]
    · simp [enumOfMember, hq, hp, hf, hne, bind, Except.bind, pure, Except.pure]

end PropertyMetadata.Checker
