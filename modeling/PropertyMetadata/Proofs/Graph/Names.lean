import PropertyMetadata.Graph.Checker
import PropertyMetadata.Graph.Schema
import PropertyMetadata.Proofs.Alike

/-! Names of nodes. A node is found under every name that is like its own, and these names are
interchangeable. A string is like no value but itself, so that a graph whose nodes are named by
strings knows them by their very names. -/

namespace PropertyMetadata

namespace Json

theorem alike_string_iff {x : Json} {s : String} : x.alike (string s) = true ↔ x = string s := by
  cases x <;> simp [alike, number?]

theorem string_alike_iff {x : Json} {s : String} : (string s).alike x = true ↔ x = string s := by
  cases x <;> simp [alike, number?]
  exact eq_comm

theorem alike_string_self (s : String) : (string s).alike (string s) = true :=
  alike_string_iff.2 rfl

end Json

namespace TypeGraph

open Json (Interchangeable)

variable {g : TypeGraph} {id t u x : Json} {n : Node}

/-! ### Names that are alike -/

theorem alike_of_node? (h : g.node? id = some n) :
    id.isScalar = true ∧ n.id.alike id = true := by
  unfold node? at h
  split at h
  next scalar => exact ⟨scalar, by simpa using List.find?_some h⟩
  next => cases h

theorem interchangeable_of_node? (ht : g.node? t = some n) (hu : g.node? u = some n) :
    Interchangeable t u :=
  Json.interchangeable_of_alike (alike_of_node? ht).1 (alike_of_node? hu).1 (alike_of_node? ht).2
    (alike_of_node? hu).2

theorem node?_interchange (h : Interchangeable t u) : g.node? t = g.node? u := by
  simp only [node?, h.scalar, h.right]

theorem isScalar_of_has (h : g.has id = true) : id.isScalar = true := by
  obtain ⟨n, hn⟩ := Option.isSome_iff_exists.1 h
  exact (alike_of_node? hn).1

theorem exists_name_of_has (h : g.has id = true) : ∃ n, id.name? = some n := by
  obtain ⟨n, hn⟩ := Option.isSome_iff_exists.1 h
  obtain ⟨scalar, alike⟩ := alike_of_node? hn
  obtain ⟨m, hm, -⟩ := (Json.alike_iff_name (.inr scalar)).1 alike
  exact ⟨m, hm⟩

theorem alike_iff_of_has (h : g.has id = true) : x.alike id = true ↔ x.name? = id.name? := by
  obtain ⟨n, hn⟩ := exists_name_of_has h
  rw [Json.alike_iff_name (.inr (isScalar_of_has h)), Json.SameName, hn]
  simp [eq_comm]

theorem has_alike_iff (h : g.has id = true) : id.alike x = true ↔ x.name? = id.name? := by
  obtain ⟨n, hn⟩ := exists_name_of_has h
  rw [Json.alike_iff_name (.inl (isScalar_of_has h)), Json.SameName, hn]
  simp

theorem alike_self (h : g.has id = true) : id.alike id = true := (alike_iff_of_has h).2 rfl

theorem interchangeable_of_has (h : g.has id = true) (hx : x.alike id = true) :
    Interchangeable x id := .of_alike (.inr (isScalar_of_has h)) hx

/-! ### Names that are strings -/

/-- Every node is named by a string. -/
def StringNamed (g : TypeGraph) : Prop := ∀ n ∈ g.nodes, ∃ s, n.id = .string s

theorem mem_of_node? (h : g.node? id = some n) : n ∈ g.nodes := by
  unfold node? at h
  split at h
  · exact List.mem_of_find?_eq_some h
  · contradiction

theorem StringNamed.node?_eq_some (hg : g.StringNamed) (h : g.node? id = some n) :
    n ∈ g.nodes ∧ n.id = id ∧ ∃ s, id = .string s := by
  have hn := mem_of_node? h
  have ha := (alike_of_node? h).2
  obtain ⟨s, hs⟩ := hg n hn
  rw [hs, Json.string_alike_iff] at ha
  exact ⟨hn, hs.trans ha.symm, s, ha⟩

theorem StringNamed.string_of_has (hg : g.StringNamed) (h : g.has id = true) :
    ∃ s, id = .string s := by
  obtain ⟨n, hn⟩ := Option.isSome_iff_exists.1 h
  exact (hg.node?_eq_some hn).2.2

theorem StringNamed.node?_null (hg : g.StringNamed) : g.node? .null = none := by
  refine Option.eq_none_iff_forall_ne_some.2 fun n hn => ?_
  obtain ⟨-, -, s, hs⟩ := hg.node?_eq_some hn
  cases hs

theorem node?_of_not_has (h : g.has id = false) : g.node? id = none :=
  Option.isNone_iff_eq_none.1 (by simpa [TypeGraph.has] using h)

theorem has_string_iff {s : String} :
    g.has (.string s) = true ↔ .string s ∈ g.nodes.map Node.id := by
  simp [TypeGraph.has, node?, Json.isScalar, Json.alike_string_iff]

theorem attributes_of_node? (h : g.node? id = some n) : g.attributes id = .ok n.attributes := by
  simp [attributes, h]

theorem attributes_eq_error (h : g.node? id = none) :
    g.attributes id = .error (.graph (.unknownNode id)) := by
  rw [attributes, h]

theorem step_eq_error (h : g.node? id = none) :
    g.checker.step id = .error (.graph (.unknownNode id)) := by
  simp [Checker.step, checker, hasShape, kindIn, kind, attributes, h, bind, Except.bind]

/-! ### Graphs whose nodes have other attributes -/

variable {m : Node → Node} (keeps : ∀ n, (m n).id = n.id)
include keeps

theorem node?_map (g : TypeGraph) (t : Json) :
    ({ g with nodes := g.nodes.map m } : TypeGraph).node? t = (g.node? t).map m := by
  simp only [node?, List.find?_map, Function.comp_def, keeps]
  split <;> rfl

/-- What is asked of the attributes of a node is answered as before where the other attributes
answer it alike. -/
theorem asked_map {α : Type} (g : TypeGraph) (t : Json)
    {ask : List (String × Json) → Except Fault α}
    (h : ∀ n ∈ g.nodes, ask (m n).attributes = ask n.attributes) :
    (({ g with nodes := g.nodes.map m } : TypeGraph).attributes t >>= ask) =
      g.attributes t >>= ask := by
  rw [attributes, attributes, node?_map keeps]
  cases hn : g.node? t with
  | none => rfl
  | some n => exact h n (mem_of_node? hn)

omit keeps

/-! ### Graphs with the same answers -/

variable {g' : TypeGraph}

/-- Graphs whose nodes have the same kinds and flags, and whose edges have the same ends, answer
alike but for texts. -/
theorem checker_eq (kindIn : g'.kindIn = g.kindIn) (flags : g'.flags = g.flags)
    (targets : ∀ id, ∀ relation ∈ relations, g'.targets id relation = g.targets id relation) :
    g'.checker = { g.checker with text := g'.text } ∧ g'.declaredType = g.declaredType := by
  have target (id : Json) (relation : String) (hr : relation ∈ relations) :
      g'.target? id relation = g.target? id relation := by
    simp only [target?, targets id relation hr]
  have shape : g'.hasShape = g.hasShape := by
    funext s id
    cases s with
    | unionOrIntersection => simp only [hasShape, kindIn, targets id "member" (by decide)]
    | _ => simp only [hasShape, kindIn]
  have declared : g'.declaredType = g.declaredType := by
    funext id
    simp only [declaredType, target id "declared_type" (by decide)]
  refine ⟨?_, declared⟩
  simp only [checker, shape, flags, declared, fun id => targets id "type_argument" (by decide),
    fun id => targets id "member" (by decide), fun id => target id "symbol" (by decide),
    fun id => target id "alias_symbol" (by decide), fun id => target id "parent" (by decide)]

/-! ### Graphs with the same attributes of nodes -/

variable (same : g'.attributes = g.attributes)
include same

theorem kindIn_congr : g'.kindIn = g.kindIn := by
  funext kinds id
  simp only [kindIn, kind, same]

theorem text_congr : g'.text = g.text := by
  funext id
  simp only [text, same]

theorem flags_congr : g'.flags = g.flags := by
  funext id
  simp only [flags, same]

end TypeGraph

end PropertyMetadata
