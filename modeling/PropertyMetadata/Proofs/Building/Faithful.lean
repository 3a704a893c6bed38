import Mathlib.Data.List.Pairwise
import PropertyMetadata.Proofs.Building.Answers
import PropertyMetadata.Proofs.Flags

/-! Builders keep what they are told. Calls in any order, each of which may name what only a later
one adds, build a graph that answers every question on a type or a symbol with what the call that
added it passed. -/

namespace PropertyMetadata

namespace Builder

variable {b : Builder} {c : Call} {calls : List Call} {p : Part} {parts : List Part}

/-- What a call gives back: the name of the node that it adds, if it adds one. -/
def Call.outcome (b : Builder) : Call → Except Fault (Option Json)
  | .type p => (b.addType p).1.map some
  | .symbol p => (b.addSymbol p).1.map some
  | .declare _ _ => .ok none

def outcomes : Builder → List Call → List (Except Fault (Option Json))
  | _, [] => []
  | b, c :: cs => c.outcome b :: outcomes (b.perform c) cs

theorem outcome_part (h : c.named b = p.call) :
    c.outcome b = .ok (p.names.head?.map .string) := by
  cases c with
  | type q =>
    cases p with
    | type p =>
      simp only [Call.named, Part.call, Call.type.injEq, TypeParts.mk.injEq] at h
      obtain ⟨-, -, args, members, -, -, id⟩ := h
      simp only [Call.outcome, addType, args, members, id, Json.ofStrings, Json.members]
      rfl
    | symbol p => cases h
    | declare s t => cases h
  | symbol q =>
    cases p with
    | type p => cases h
    | symbol p =>
      simp only [Call.named, Part.call, Call.symbol.injEq, SymbolParts.mk.injEq] at h
      obtain ⟨-, flags, -, -, id⟩ := h
      simp only [Call.outcome, addSymbol, flags, id, Json.ofStrings, Json.members]
      rfl
    | declare s t => cases h
  | declare q r =>
    cases p with
    | type p => cases h
    | symbol p => cases h
    | declare s t => rfl

theorem outcomes_parts (h : named b calls = parts.map Part.call) :
    outcomes b calls = parts.map fun p => .ok (p.names.head?.map .string) := by
  induction calls generalizing b parts with
  | nil =>
    obtain rfl : parts = [] := by simpa [named] using h
    rfl
  | cons c calls ih =>
    cases parts with
    | nil => cases h
    | cons p parts =>
      simp only [named, List.map_cons, List.cons.injEq] at h
      rw [outcomes, outcome_part h.1, ih h.2, List.map_cons]

end Builder

/-! ### Answers -/

structure TypePart.Answered (g : TypeGraph) (p : TypePart) : Prop where
  typeArguments : g.checker.typeArguments (.string p.id) = .ok (p.typeArguments.map .string)
  members : g.checker.members (.string p.id) = .ok (p.members.map .string)
  symbol : g.checker.symbol (.string p.id) = .ok (p.symbol.map .string)
  aliasSymbol : g.checker.aliasSymbol (.string p.id) = .ok (p.aliasSymbol.map .string)
  text : ∀ s, p.text = some s → s ≠ "" → g.checker.text (.string p.id) = .ok (.string s)
  textless : p.text = none ∨ p.text = some "" →
    ∃ m, g.checker.text (.string p.id) = .error (.unrenderable m)

/-- A graph answers questions on a symbol with what a part passed, or with the type that it is
declared to be by another one. -/
structure SymbolPart.Answered (g : TypeGraph) (parts : List Part) (q : SymbolPart) : Prop where
  flags : g.checker.flags (.string q.id) = Flags.ofNames q.flags
  parent : g.checker.parent (.string q.id) = .ok (q.parent.map .string)
  declared : ∀ t, q.declared = some t →
    g.checker.declaredType (.string q.id) = .ok (some (.string t))
  undeclared : q.declared = none → (∀ t, .declare q.id t ∉ parts) →
    g.checker.declaredType (.string q.id) = .error (.graph (.undeclared (.string q.id)))

def Part.Answered (g : TypeGraph) (parts : List Part) : Part → Prop
  | .type p => p.Answered g
  | .symbol q => q.Answered g parts
  | .declare s t => g.checker.declaredType (.string s) = .ok (some (.string t))

/-- A name is the name of one part only. -/
theorem Part.eq_of_mem_names {parts : List Part} {p q : Part} {id : String}
    (hd : (parts.flatMap names).Nodup) (hp : p ∈ parts) (hq : q ∈ parts) (hid : id ∈ p.names)
    (hid' : id ∈ q.names) : p = q := by
  by_contra hne
  have : Std.Symm (Function.onFun List.Disjoint names) := ⟨fun _ _ h _ hq hp => h hp hq⟩
  exact (List.nodup_flatMap.1 hd).2.forall hp hq hne hid hid'

namespace TypeGraph.Built

variable {g : TypeGraph} {parts : List Part} {p : TypePart} {q : SymbolPart} {l : Link}
  {s : String}

theorem text_eq_error (h : g.Built parts) (hp : .type p ∈ parts)
    (ht : p.text = none ∨ p.text = some "") :
    ∃ m, g.text (.string p.id) = .error (.unrenderable m) := by
  have := (h.attributes_eq hp (List.mem_singleton.2 rfl)).2
  rcases ht with ht | ht <;>
    simp [TypeGraph.text, this, TypePart.attributes, ht, Json.lookup, bind, Except.bind]

theorem answered_type (h : g.Built parts) (hp : .type p ∈ parts) : p.Answered g where
  typeArguments := h.typeArguments_eq hp
  members := h.members_eq hp
  symbol := h.symbol_eq hp
  aliasSymbol := h.aliasSymbol_eq hp
  text _ ht hs := h.text_eq hp ht hs
  textless := h.text_eq_error hp

theorem declaredType_of_link (h : g.Built parts) (hw : Part.WellFormed parts)
    (once : Part.DeclaredOnce parts) (hl : l ∈ parts.flatMap Part.links)
    (hr : l.relation = "declared_type") :
    g.checker.declaredType (.string l.source) = .ok (some (.string l.target)) := by
  have has : g.has (.string l.source) = true := by
    rw [has_string_iff, h.map_id_nodes]
    exact List.mem_map_of_mem (hw.linked l hl).1
  have declares := h.declaredType_eq (s := l.source) (t := l.target) ?_ ⟨l, hl, ?_⟩ has
  · exact congrArg (Except.map some) declares
  · intro k hk leaves
    simp only [Link.leaves, Bool.and_eq_true, beq_iff_eq] at leaves
    exact once k hk l hl leaves.2 hr leaves.1
  · simp [Link.leaves, hr]

theorem declaredType_eq_error (h : g.Built parts) (has : g.has (.string s) = true)
    (none : ∀ l ∈ parts.flatMap Part.links, l.leaves s "declared_type" = false) :
    g.checker.declaredType (.string s) = .error (.graph (.undeclared (.string s))) := by
  have leaving := h.leaving_eq s "declared_type"
  rw [List.filter_eq_nil_iff.2 fun l hl => Bool.eq_false_iff.1 (none l hl)] at leaving
  have sorted : g.sorted (.string s) "declared_type" = [] :=
    sorted_eq h.named h.wired (.of_eq leaving) .nil
  have targets := TypeGraph.targets_eq h.named h.wired h.indexed has "declared_type"
  rw [sorted] at targets
  show (g.declaredType _).map some = _
  simp [declaredType, target?, targets, bind, Except.bind, pure, Except.pure, Except.map]

theorem answered_symbol (h : g.Built parts) (hw : Part.WellFormed parts)
    (once : Part.DeclaredOnce parts) (hq : .symbol q ∈ parts)
    (flags : ∃ f, Flags.ofNames q.flags = .ok f) : q.Answered g parts where
  flags := by
    obtain ⟨f, hf⟩ := flags
    exact (h.flags_eq hq).trans (Flags.ofRecord_intercalate hf)
  parent := h.parent_eq hq
  declared t ht := by
    have hl : (⟨q.id, t, "declared_type", none⟩ : Link) ∈ parts.flatMap Part.links :=
      List.mem_flatMap.2 ⟨_, hq, by simp [Part.links, Link.single, ht]⟩
    exact h.declaredType_of_link hw once hl rfl
  undeclared ht none := by
    refine h.declaredType_eq_error (h.has_symbol hq) fun l hl => Bool.eq_false_iff.2 ?_
    intro leaves
    simp only [Link.leaves, Bool.and_eq_true, beq_iff_eq] at leaves
    obtain ⟨part, hpart, hl⟩ := List.mem_flatMap.1 hl
    cases part with
    | type p =>
      obtain ⟨-, ⟨hr, -⟩ | ⟨hr, -⟩ | ⟨hr, -⟩ | ⟨hr, -⟩⟩ := Part.mem_links_type hl <;>
        exact absurd (hr.symm.trans leaves.2) (by decide)
    | symbol p =>
      obtain ⟨source, ⟨hr, -⟩ | ⟨-, declared⟩⟩ := Part.mem_links_symbol hl
      · exact absurd (hr.symm.trans leaves.2) (by decide)
      · have same : Part.symbol p = .symbol q := Part.eq_of_mem_names hw.distinct hpart hq
          (List.mem_singleton.2 source) (List.mem_singleton.2 leaves.1)
        obtain rfl := Part.symbol.inj same
        rw [ht] at declared
        contradiction
    | declare s t =>
      obtain rfl := List.mem_singleton.1 hl
      obtain rfl : s = q.id := leaves.1
      exact none t hpart

end TypeGraph.Built

/-- Builders are faithful. Calls that add parts with different names, known kinds and flags and one
type at most for each symbol, and that name nothing but what one of them adds, give back these
names and build a graph with one node for each of them, and the graph answers with what was
passed. -/
theorem Builder.build_faithful {calls : List Builder.Call} {parts : List Part}
    (added : Builder.named {} calls = parts.map Part.call) (hw : Part.WellFormed parts)
    (once : Part.DeclaredOnce parts)
    (flags : ∀ q, .symbol q ∈ parts → ∃ f, Flags.ofNames q.flags = .ok f) :
    Builder.outcomes {} calls = parts.map (fun p => .ok (p.names.head?.map .string)) ∧
      ∃ g, (Builder.performAll {} calls).build = .ok g ∧
        g.nodes.map Node.id = (parts.flatMap Part.names).map .string ∧
        ∀ p ∈ parts, p.Answered g parts := by
  obtain ⟨g, hg, built⟩ := TypeGraph.build_of_wellFormed added hw
  refine ⟨outcomes_parts added, g, hg, built.map_id_nodes, fun p hp => ?_⟩
  cases p with
  | type p => exact built.answered_type hp
  | symbol q => exact built.answered_symbol hw once hp (flags q hp)
  | declare s t =>
    have hl : (⟨s, t, "declared_type", none⟩ : Link) ∈ parts.flatMap Part.links :=
      List.mem_flatMap.2 ⟨_, hp, List.mem_singleton.2 rfl⟩
    exact built.declaredType_of_link hw once hl rfl

/-- Calls that build an optional color; its members and its symbol come later. -/
def colorCalls : List Builder.Call := [
  .type { kind := .string "union", members := Json.ofStrings ["red", "t2", "red"] },
  .type { kind := .string "undefined", text := .string "" },
  .type { kind := .string "enum_literal", symbol := .string "color", id := .string "red" },
  .declare (.string "color") (.string "t1"),
  .symbol { name := .string "Color", flags := Json.ofStrings ["EnumMember", "PROPERTY"]
            id := .string "color" }]

/-- The parts that the calls add. -/
def colorParts : List Part := [
  .type { id := "t1", kind := "union", members := ["red", "t2", "red"] },
  .type { id := "t2", kind := "undefined", text := some "" },
  .type { id := "red", kind := "enum_literal", symbol := some "color" },
  .declare "color" "t1",
  .symbol { id := "color", name := "Color", flags := ["EnumMember", "PROPERTY"] }]

/-- What is built of the calls answers with what they passed. -/
theorem build_color : ∃ g, (Builder.performAll {} colorCalls).build = .ok g ∧
    g.checker.members (.string "t1") = .ok [.string "red", .string "t2", .string "red"] ∧
    (∃ m, g.checker.text (.string "t2") = .error (.unrenderable m)) ∧
    g.checker.flags (.string "color") = .ok ⟨6⟩ ∧
    g.checker.declaredType (.string "color") = .ok (some (.string "t1")) := by
  have added : Builder.named {} colorCalls = colorParts.map Part.call := by rfl
  have proper : Part.WellFormed colorParts := ⟨by decide, by simp [colorParts]; decide, by decide⟩
  have once : Part.DeclaredOnce colorParts := by
    unfold Part.DeclaredOnce
    decide
  have named : Flags.ofNames ["EnumMember", "PROPERTY"] = .ok ⟨6⟩ := by
    have worded : Flags.spelling "EnumMember" = "ENUM_MEMBER" := by decide +kernel
    have capital : Flags.spelling "PROPERTY" = "PROPERTY" := by decide +kernel
    simp only [Flags.ofNames, Flags.named, Flags.named?, worded, capital]
    rfl
  obtain ⟨-, g, hg, -, answers⟩ := Builder.build_faithful added proper once (by
    intro q hq
    obtain rfl : q = _ := by simpa [colorParts] using hq
    exact ⟨_, named⟩)
  obtain ⟨union, undefined, -, declare, symbol, -⟩ := by
    simpa only [colorParts, List.forall_mem_cons, Part.Answered] using answers
  refine ⟨g, hg, union.members, undefined.textless (.inr rfl), ?_, declare⟩
  exact symbol.flags.trans named

end PropertyMetadata
