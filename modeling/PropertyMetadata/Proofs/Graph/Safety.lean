import PropertyMetadata.Proofs.Graph.Loading
import PropertyMetadata.Proofs.Graph.Reordering

/-! Resolutions of regular graphs. From a node a step gives an answer or leads to another node, with
one exception: the union of two undefined types counts as the union of an optional property, but
has no member to go on with, and the step leads to nothing. A resolution is safe just as long as it
does not get to a union like that. -/

namespace PropertyMetadata

namespace Checker

variable {Handle : Type} {c : Checker Handle} {t u v : Handle} {k : Nat}

/-- A resolution of a type gets to another one after so many steps. -/
inductive Reaches (c : Checker Handle) : Nat → Handle → Handle → Prop
  | refl (t : Handle) : Reaches c 0 t t
  | element {k : Nat} {t u v : Handle} : c.step t = .ok (.element u) → Reaches c k u v →
    Reaches c (k + 1) t v
  | through {k : Nat} {t u v : Handle} : c.step t = .ok (.through u) → Reaches c k u v →
    Reaches c (k + 1) t v

/-- The first type that is not undefined is one of the types, unless all of them are undefined. -/
theorem Settled.firstDefined_cases {ts : List Handle} (h : c.Settled ts) :
    (∃ e ∈ ts, c.firstDefined ts = .ok (some e)) ∨
      c.firstDefined ts = .ok none ∧ ∀ u ∈ ts, c.is .undefined u = .ok true := by
  induction ts with
  | nil => exact .inr ⟨rfl, by simp⟩
  | cons t ts ih =>
    have rest := ih (h.of_subset (List.subset_cons_self t ts))
    obtain ⟨b, hb⟩ := h.undefined t List.mem_cons_self
    cases b with
    | false => exact .inl ⟨t, List.mem_cons_self, by simp only [firstDefined, hb]; rfl⟩
    | true =>
      have skip : c.firstDefined (t :: ts) = c.firstDefined ts := by
        simp only [firstDefined, hb]
        rfl
      rw [skip]
      rcases rest with ⟨e, he, found⟩ | ⟨none, all⟩
      · exact .inl ⟨e, List.mem_cons_of_mem _ he, found⟩
      · exact .inr ⟨none, List.forall_mem_cons.2 ⟨hb, all⟩⟩

end Checker

namespace TypeGraph

variable {g : TypeGraph} {schema t u : Json} {s : String} {ts : List Json} {n : Nat}

def Textual (g : TypeGraph) : Prop :=
  ∀ n ∈ g.nodes, ∀ x, Json.lookup n.attributes "text" = some x → ∃ s, x = .string s

/-- A union or intersection has two members, both of them undefined. -/
def TwoUndefined (g : TypeGraph) (t : Json) : Prop :=
  g.IsUnion t ∧ ∃ a b, g.targets t "member" = .ok [a, b] ∧
    g.kindIn ["undefined"] a = .ok true ∧ g.kindIn ["undefined"] b = .ok true

/-- A union or intersection of two undefined types is taken for that of an optional property, since
its text says nothing else. -/
def Hollow (g : TypeGraph) (t : Json) : Prop :=
  g.TwoUndefined t ∧ ∃ s, g.text t = .ok (.string s) ∧ isWrapper s = false ∧ s ≠ "Date"

/-- A step gives an answer or leads to a node. -/
def Settles (g : TypeGraph) (m : Except Fault (Step Json)) : Prop :=
  (∃ r, m = .ok (.answer r)) ∨
    ∃ u, g.has u = true ∧ (m = .ok (.element u) ∨ m = .ok (.through u))

/-! ### Questions -/

theorem text_cases (hx : g.Textual) (hg : g.StringNamed) (h : g.has t = true) :
    (∃ m, g.text t = .error (.unrenderable m)) ∨ ∃ s, g.text t = .ok (.string s) := by
  obtain ⟨n, hn⟩ := Option.isSome_iff_exists.1 h
  obtain ⟨hmem, -, -⟩ := hg.node?_eq_some hn
  simp only [TypeGraph.text, attributes_of_node? hn, bind, Except.bind]
  cases hl : Json.lookup n.attributes "text" with
  | none => exact .inl ⟨_, rfl⟩
  | some x =>
    obtain ⟨s, rfl⟩ := hx n hmem x hl
    by_cases hs : s = ""
    · subst hs
      exact .inl ⟨_, rfl⟩
    · exact .inr ⟨s, by simp [hs, pure, Except.pure]⟩

namespace Regular

theorem fallback_ok (hr : g.Regular) (hw : g.Wired) (h : g.has t = true) (s : String) :
    ∃ r, g.checker.fallback t (.string s) = .ok r := by
  obtain ⟨interface, hi⟩ := (hr.answering hw).hasShape_ok h .interface
  obtain ⟨union, hu⟩ := (hr.answering hw).hasShape_ok h .unionOrIntersection
  obtain ⟨enum, he⟩ := (hr.answering hw).hasShape_ok h .enum
  obtain ⟨named, ha⟩ : ∃ a, g.target? t "alias_symbol" = .ok a := by
    rcases (hr.answering hw).target?_cases h "alias_symbol" with ⟨none, -⟩ | ⟨a, some, -⟩
    · exact ⟨_, none⟩
    · exact ⟨_, some⟩
  simp only [Checker.fallback, Checker.isTopType_string, checker, hi, hu, he, ha, bind, Except.bind,
    pure, Except.pure]
  repeat' split
  all_goals exact ⟨_, rfl⟩

/-! ### Steps -/

theorem commonEnum_cases (hr : g.Regular) (hw : g.Wired) (h : ∀ u ∈ ts, g.has u = true) :
    g.checker.commonEnum none ts = .ok none ∨
      ∃ e, g.has e = true ∧ g.checker.commonEnum none ts = .ok (some e) := by
  rcases ((hr.answering hw).keyed h).commonEnum_none with ⟨e, common, node, -⟩ | ⟨common, -⟩
  · exact .inr ⟨e, node, common⟩
  · exact .inl common

/-- A node that may be the union of an optional property leads on, unless both of its members are
undefined. -/
theorem stepUnion_cases (hr : g.Regular) (hw : g.Wired) (h : g.has t = true) (s : String) :
    g.Settles (g.checker.stepUnion t (.string s)) ∨ g.TwoUndefined t := by
  obtain ⟨r, fallback⟩ := hr.fallback_ok hw h s
  have ending (enum : Option Json) (optional : g.checker.isOptionalUnion t = .ok false)
      (common : g.checker.enumUnion? t = .ok enum) (node : ∀ e ∈ enum, g.has e = true) :
      g.Settles (g.checker.stepUnion t (.string s)) := by
    simp only [Checker.stepUnion, optional, common, fallback, bind, Except.bind, pure, Except.pure]
    cases enum with
    | none => exact .inl ⟨r, rfl⟩
    | some e => exact .inr ⟨e, node e rfl, .inr rfl⟩
  rcases (hr.answering hw).unionMembers_cases h with hm | ⟨ts, hm, union, hts, nodes⟩
  · have optional := Checker.isOptionalUnion_eq hm
    have common := Checker.enumUnion?_eq hm
    exact .inl (ending none optional common (by simp))
  · have optional := Checker.isOptionalUnion_eq hm
    have common := Checker.enumUnion?_eq hm
    have settled := hr.settled hw nodes
    rcases Checker.undefined_cases settled.undefined with none | ⟨before, u, behind, rfl, hb, hu⟩
    · rw [Checker.splitUndefined_eq_none none] at optional common
      exact .inl (ending .none (optional.trans (ite_self _)) common (by simp))
    · rw [Checker.splitUndefined_eq_some hb hu] at optional common
      by_cases two : (before ++ u :: behind).length = 2
      · rw [if_pos two] at optional
        have last : g.checker.lastDefinedMember t =
            g.checker.firstDefined (before ++ u :: behind).reverse := by
          rw [Checker.lastDefinedMember, show g.checker.members t = _ from hts]
          rfl
        have settled := settled.of_subset (List.reverse_subset.2 (List.Subset.refl _))
        rcases settled.firstDefined_cases with ⟨e, he, found⟩ | ⟨-, all⟩
        · refine .inl (.inr ⟨e, nodes e (List.mem_reverse.1 he), .inr ?_⟩)
          simp only [Checker.stepUnion, optional, last, found]
          rfl
        · obtain ⟨a, b, hab⟩ := List.length_eq_two.1 two
          rw [hab] at hts all
          exact .inr ⟨union, a, b, hts, all a (by simp), all b (by simp)⟩
      · rw [if_neg two] at optional
        have some : ∀ v ∈ before ++ behind, g.has v = true := by
          intro v hv
          exact nodes v (by simp at hv ⊢; tauto)
        rcases hr.commonEnum_cases hw some with none | ⟨e, node, some⟩
        · exact .inl (ending .none optional (common.trans none) (by simp))
        · exact .inl (ending (.some e) optional (common.trans some) (by simpa using node))

/-- A node with a text gives an answer or leads to a node, unless it is hollow. -/
theorem stepRendered_cases (hr : g.Regular) (hw : g.Wired) (h : g.has t = true)
    (ht : g.text t = .ok (.string s)) :
    g.Settles (g.checker.stepRendered t (.string s)) ∨ g.Hollow t := by
  obtain ⟨args, hargs, nodes⟩ := (hr.answering hw).targets_ok h "type_argument"
  have arguments : g.checker.typeArguments t = .ok args := hargs
  obtain ⟨isClass, hc⟩ : ∃ b, g.checker.is .classType t = .ok b :=
    (hr.answering hw).hasShape_ok h .classType
  cases wraps : isWrapper s with
  | true =>
    cases args with
    | nil =>
      refine .inl (.inl ⟨.unresolved (s ++ " without type argument"), ?_⟩)
      simp [Checker.stepRendered, marksWrapper, wraps, arguments, Json.text, bind, Except.bind, pure,
        Except.pure]
    | cons u us =>
      have through := Checker.stepRendered_wrapper wraps arguments
      exact .inl (.inr ⟨u, nodes u List.mem_cons_self, .inr through⟩)
  | false =>
    cases isClass with
    | true => exact .inl (.inl ⟨_, Checker.stepRendered_class wraps hc⟩)
    | false =>
      by_cases date : s = "Date"
      · exact .inl (.inl ⟨_, date ▸ Checker.stepRendered_date hc⟩)
      · rw [Checker.stepRendered_other wraps hc date]
        refine (hr.stepUnion_cases hw h s).imp_right fun two => ?_
        exact ⟨two, s, ht, wraps, date⟩

/-- A step from a node gives an answer or leads to a node, unless the node is hollow. -/
theorem step_cases (hr : g.Regular) (hw : g.Wired) (hx : g.Textual) (h : g.has t = true) :
    g.Settles (g.checker.step t) ∨ g.Hollow t := by
  have shape (k : Shape) : ∃ b, g.checker.is k t = .ok b := (hr.answering hw).hasShape_ok h k
  obtain ⟨array, ha⟩ := shape .array
  obtain ⟨boolean, hb⟩ := shape .boolean
  obtain ⟨number, hn⟩ := shape .number
  obtain ⟨string, hs⟩ := shape .string
  obtain ⟨args, hargs, nodes⟩ := (hr.answering hw).targets_ok h "type_argument"
  have arguments : g.checker.typeArguments t = .ok args := hargs
  cases array with
  | true =>
    cases args with
    | nil =>
      refine .inl (.inl ⟨.unresolved "array without element type", ?_⟩)
      simp [Checker.step, ha, arguments, bind, Except.bind, pure, Except.pure]
    | cons u us =>
      have element := Checker.step_array ha arguments
      exact .inl (.inr ⟨u, nodes u List.mem_cons_self, .inl element⟩)
  | false =>
    by_cases builtIn : boolean = true ∨ number = true ∨ string = true
    · refine .inl (.inl ?_)
      simp only [Checker.step, ha, hb, hn, hs, bind, Except.bind, pure, Except.pure]
      rcases builtIn with rfl | rfl | rfl
      · exact ⟨_, rfl⟩
      · cases boolean <;> exact ⟨_, rfl⟩
      · cases boolean <;> cases number <;> exact ⟨_, rfl⟩
    · simp only [not_or, Bool.not_eq_true] at builtIn
      obtain ⟨rfl, rfl, rfl⟩ := builtIn
      rcases text_cases hx hr.named h with ⟨m, unrenderable⟩ | ⟨s, ht⟩
      · have text : g.checker.text t = _ := unrenderable
        refine .inl (.inl ⟨.unresolved ("render failed: " ++ m), ?_⟩)
        simp [Checker.step, Checker.render, ha, hb, hn, hs, text, bind, Except.bind, pure,
          Except.pure]
      · have told : ∀ k ∈ [Shape.array, .boolean, .number, .string],
            g.checker.is k t = .ok false := by
          simp [ha, hb, hn, hs]
        rw [Checker.step_told told ht]
        exact hr.stepRendered_cases hw h ht

end Regular

theorem Hollow.step_eq (h : g.Hollow t) : g.checker.step t = .ok (.through .null) := by
  obtain ⟨⟨union, a, b, hts, ha, hb⟩, s, ht, wraps, date⟩ := h
  have members : g.checker.members t = .ok [a, b] := hts
  have first : g.checker.is .undefined a = .ok true := ha
  have second : g.checker.is .undefined b = .ok true := hb
  have optional : g.checker.isOptionalUnion t = .ok true := by
    simp [Checker.isOptionalUnion_eq (union.unionMembers_eq hts), Checker.splitUndefined, first,
      bind, Except.bind, pure, Except.pure, Except.map]
  have last : g.checker.lastDefinedMember t = .ok none := by
    simp [Checker.lastDefinedMember, members, Checker.firstDefined, first, second, bind,
      Except.bind]
  rw [Checker.step_told union.told ht,
    Checker.stepRendered_other wraps (union.kindIn_eq (by decide)) date]
  simp only [Checker.stepUnion, optional, last, bind, Except.bind, pure, Except.pure]
  rfl

/-! ### Resolutions -/

/-- A step that leads on passes on the faults of where it leads. -/
theorem run_eq_error_iff {e : Fault}
    (hs : g.checker.step t = .ok (.element u) ∨ g.checker.step t = .ok (.through u)) :
    g.checker.run (n + 1) t = some (.error e) ↔ g.checker.run n u = some (.error e) := by
  rcases hs with hs | hs
  · simp only [Checker.run, hs]
    rcases g.checker.run n u with _ | _ | _ <;> simp [Except.map]
  · simp only [Checker.run, hs]

/-- What is reached from a type and is not the type itself is reached from where the step of the
type leads. -/
theorem reaches_of_leads {k : Nat} {v : Json}
    (hs : g.checker.step t = .ok (.element u) ∨ g.checker.step t = .ok (.through u))
    (hne : v ≠ t) (h : g.checker.Reaches k t v) : ∃ l, k = l + 1 ∧ g.checker.Reaches l u v := by
  cases h with
  | refl => exact absurd rfl hne
  | @element k _ w _ hs' rest =>
    obtain rfl : w = u := by simpa [hs'] using hs
    exact ⟨k, rfl, rest⟩
  | @through k _ w _ hs' rest =>
    obtain rfl : w = u := by simpa [hs'] using hs
    exact ⟨k, rfl, rest⟩

/-- Looking at so many types, a resolution fails if there is a hollow one before the last, and for
no other reason. -/
theorem run_cases (hr : g.Regular) (hw : g.Wired) (hx : g.Textual) (h : g.has t = true) (n : Nat) :
    (g.checker.run n t = some (.error (.graph (.unknownNode .null))) ∧
        ∃ k u, g.checker.Reaches k t u ∧ g.Hollow u ∧ k + 1 < n) ∨
      (∀ e, g.checker.run n t ≠ some (.error e)) ∧
        ∀ k u, g.checker.Reaches k t u → g.Hollow u → n ≤ k + 1 := by
  -- on the number of types that may be looked at: a step leads from node to node up to a hollow one
  induction n generalizing t with
  | zero => exact .inr ⟨by simp [Checker.run], by omega⟩
  | succ n ih =>
    rcases hr.step_cases hw hx h with (⟨r, hs⟩ | ⟨u, hu, hs⟩) | hollow
    · refine .inr ⟨by simp [Checker.run, hs], fun k v reach hollow => ?_⟩
      cases reach with
      | refl => cases hs.symm.trans hollow.step_eq
      | element hs' => cases hs.symm.trans hs'
      | through hs' => cases hs.symm.trans hs'
    · have apart {v : Json} (hollow : g.Hollow v) : v ≠ t := by
        rintro rfl
        rw [hollow.step_eq] at hs
        obtain rfl : Json.null = u := by simpa using hs
        simp [TypeGraph.has, hr.named.node?_null] at hu
      rcases ih hu with ⟨fails, k, v, reach, hollow, hk⟩ | ⟨safe, far⟩
      · refine .inl ⟨(run_eq_error_iff hs).2 fails, k + 1, v, ?_, hollow, by omega⟩
        exact hs.elim (.element · reach) (.through · reach)
      · refine .inr ⟨fun e he => safe e ((run_eq_error_iff hs).1 he), fun k v reach hollow => ?_⟩
        obtain ⟨l, rfl, rest⟩ := reaches_of_leads hs (apart hollow) reach
        exact Nat.succ_le_succ (far l v rest hollow)
    · have next : g.checker.run (n + 1) t = g.checker.run n .null := by
        simp only [Checker.run, hollow.step_eq]
      rw [next]
      cases n with
      | zero => exact .inr ⟨by simp [Checker.run], by omega⟩
      | succ n =>
        refine .inl ⟨?_, 0, t, .refl t, hollow, by omega⟩
        simp only [Checker.run, step_eq_error hr.named.node?_null]

/-- Resolutions of regular graphs are safe but for hollow unions. Under a bound on the depth, a node
of an accepted schema with string names, string texts, whole indices, flags that can be read and
parents that declare types has a resolution just when the bound is too low to go on from a hollow
union. If it has none, the checker was asked for the type that is no type. -/
theorem resolve_safe (h : ofSchema schema = .ok g) (hr : g.Regular) (hx : g.Textual)
    (ht : g.has t = true) (limit : Int) :
    ((∃ r, g.resolve (some limit) t = .ok r) ↔
      ∀ k u, g.checker.Reaches k t u → g.Hollow u → limit ≤ k) ∧
    ∀ e, g.resolve (some limit) t = .error e → e = .graph (.unknownNode .null) := by
  rw [resolve, Checker.resolve_some_eq_run]
  rcases run_cases hr (ofSchema_wired h) hx ht (limit + 1).toNat with
    ⟨fails, k, u, reach, hollow, hk⟩ | ⟨safe, far⟩
  · rw [fails]
    refine ⟨⟨by simp, fun all => ?_⟩, fun e he => ?_⟩
    · have := all k u reach hollow
      omega
    · exact (Except.error.inj he).symm
  · have found : ∃ r, (g.checker.run (limit + 1).toNat t).getD (.ok Checker.tooDeep) = .ok r := by
      cases hrun : g.checker.run (limit + 1).toNat t with
      | none => exact ⟨_, rfl⟩
      | some outcome =>
        cases outcome with
        | error e => exact absurd hrun (safe e)
        | ok r => exact ⟨r, rfl⟩
    refine ⟨⟨fun _ k u reach hollow => ?_, fun _ => found⟩, fun e he => ?_⟩
    · have := far k u reach hollow
      omega
    · obtain ⟨r, hr⟩ := found
      cases he.symm.trans hr

def missing : Json := .object [
  ("nodes", .array [
    .object [("id", .string "nothing"), ("kind", .string "union"),
      ("text", .string "Missing | Absent")],
    .object [("id", .string "missing"), ("kind", .string "undefined"), ("text", .string "Missing")],
    .object [("id", .string "absent"), ("kind", .string "undefined"), ("text", .string "Absent")],
    .object [("id", .string "m"), ("category", .string "symbol"), ("name", .string "Missing")],
    .object [("id", .string "a"), ("category", .string "symbol"), ("name", .string "Absent")]]),
  ("edges", .array [
    .object [("from", .string "nothing"), ("to", .string "missing"), ("relation", .string "member"),
      ("index", .int 0)],
    .object [("from", .string "nothing"), ("to", .string "absent"), ("relation", .string "member"),
      ("index", .int 1)],
    .object [("from", .string "missing"), ("to", .string "m"), ("relation", .string "alias_symbol")],
    .object [("from", .string "absent"), ("to", .string "a"),
      ("relation", .string "alias_symbol")]])]

def missingGraph : TypeGraph where
  directed := true
  nodes := [
    ⟨.string "nothing", [("kind", .string "union"), ("text", .string "Missing | Absent"),
      ("category", .string "type")]⟩,
    ⟨.string "missing", [("kind", .string "undefined"), ("text", .string "Missing"),
      ("category", .string "type")]⟩,
    ⟨.string "absent", [("kind", .string "undefined"), ("text", .string "Absent"),
      ("category", .string "type")]⟩,
    ⟨.string "m", [("category", .string "symbol"), ("name", .string "Missing")]⟩,
    ⟨.string "a", [("category", .string "symbol"), ("name", .string "Absent")]⟩]
  edges := [
    ⟨.string "nothing", .string "missing", .int 0, some (.string "member"), some (.int 0)⟩,
    ⟨.string "nothing", .string "absent", .int 0, some (.string "member"), some (.int 1)⟩,
    ⟨.string "missing", .string "m", .int 0, some (.string "alias_symbol"), some (.int 0)⟩,
    ⟨.string "absent", .string "a", .int 0, some (.string "alias_symbol"), some (.int 0)⟩]

theorem missingGraph_regular : missingGraph.Regular := by
  refine ⟨by simp [StringNamed, missingGraph], by simp [Indexed, Edge.Indexed, missingGraph], ?_,
    by simp [missingGraph]⟩
  intro n hn
  simp only [missingGraph, List.mem_cons, List.not_mem_nil, or_false] at hn
  rcases hn with rfl | rfl | rfl | rfl | rfl <;> exact ⟨.none, rfl⟩

theorem missingGraph_textual : missingGraph.Textual := by
  intro n hn x hx
  simp only [missingGraph, List.mem_cons, List.not_mem_nil, or_false] at hn
  rcases hn with rfl | rfl | rfl | rfl | rfl <;> simp [Json.lookup] at hx <;> exact ⟨_, hx.symm⟩

/-- The union has a resolution when nothing below it is looked at, and none otherwise. -/
theorem resolve_missing : ofSchema missing = .ok missingGraph ∧ missingGraph.Regular ∧
    missingGraph.Textual ∧ (∃ r, missingGraph.resolve (some 0) (.string "nothing") = .ok r) ∧
    ¬ ∃ r, missingGraph.resolve (some 1) (.string "nothing") = .ok r := by
  have loaded : ofSchema missing = .ok missingGraph := by rfl
  have safe := resolve_safe (t := .string "nothing") loaded missingGraph_regular
    missingGraph_textual (by decide)
  have hollow : missingGraph.Hollow (.string "nothing") :=
    ⟨⟨by rfl, .string "missing", .string "absent", by cbv, by rfl, by rfl⟩,
      "Missing | Absent", by rfl, by decide, by decide⟩
  refine ⟨loaded, missingGraph_regular, missingGraph_textual, (safe 0).1.2 (by omega), fun some => ?_⟩
  have := (safe 1).1.1 some 0 _ (.refl _) hollow
  omega

/-- Although both members of the union resolve to an object type, the union itself has no
resolution. -/
theorem resolve_missing_fails : ofSchema missing = .ok missingGraph ∧ missingGraph.Regular ∧
    missingGraph.Textual ∧ missingGraph.has (.string "nothing") = true ∧
    missingGraph.resolve (some 3) (.string "missing") = .ok (.descriptor .object) ∧
    missingGraph.resolve (some 3) (.string "absent") = .ok (.descriptor .object) ∧
    missingGraph.resolve (some 3) (.string "nothing") =
      .error (.graph (.unknownNode .null)) := by
  refine ⟨by rfl, missingGraph_regular, missingGraph_textual, by decide, ?_, ?_, ?_⟩ <;>
    rw [resolve, Checker.resolve_some_eq_run] <;> cbv

end TypeGraph

end PropertyMetadata
