import Mathlib.Data.List.Forall2
import PropertyMetadata.Command.Run
import PropertyMetadata.GraphMl.Writer
import PropertyMetadata.Proofs.GraphMl.Reading
import PropertyMetadata.Proofs.Text.Utf8

/-! Graphs that are saved. A writer and a reader of documents give a graph back if its nodes come
back in their order with the values of their attributes, and its edges as they are listed; empty
strings may be lost. The graph of an accepted schema that is given back answers every question as
before: how edges from different sources are mixed is not asked for, nor whether an attribute is
missing or an empty string. GraphML as it is written and read here gives back every such graph whose
integers can be read. -/

namespace PropertyMetadata

open List (Forall₂)

/-- A node that was given back: the values of its attributes are those that they were, but empty
strings may be missing. -/
structure Node.Restored (n n' : Node) : Prop where
  id : n'.id = n.id
  attributes : ∀ key, Json.lookup n'.attributes key = Json.lookup n.attributes key ∨
    Json.lookup n'.attributes key = none ∧ Json.lookup n.attributes key = some (.string "")

theorem Node.Restored.refl (n : Node) : n.Restored n := ⟨rfl, fun _ => .inl rfl⟩

/-- A missing value that an empty string stands for is no loss. -/
theorem Node.Restored.lookup_getD {n n' : Node} (h : n.Restored n') (key : String) :
    (Json.lookup n'.attributes key).getD (.string "") =
      (Json.lookup n.attributes key).getD (.string "") := by
  rcases h.attributes key with same | ⟨lost, blank⟩
  · rw [same]
  · rw [lost, blank]
    rfl

namespace TypeGraph

variable {g g' k : TypeGraph} {schema : Json}

/-! ### Agreement -/

/-- One graph answers every question as the other does: it has nodes of the same names, its checker
finds the same kinds, texts, flags and ends of edges, or the same faults, and so every resolution is
the same under every bound. -/
structure Agrees (g g' : TypeGraph) : Prop where
  has : g'.has = g.has
  checker : g'.checker = g.checker
  target? : g'.target? = g.target?
  declared : g'.declaredType = g.declaredType
  resolve : ∀ depth id, g'.resolve depth id = g.resolve depth id

theorem Agrees.trans (h : g.Agrees g') (h' : g'.Agrees k) : g.Agrees k where
  has := h'.has.trans h.has
  checker := h'.checker.trans h.checker
  target? := h'.target?.trans h.target?
  declared := h'.declared.trans h.declared
  resolve depth id := (h'.resolve depth id).trans (h.resolve depth id)

/-- Graphs of as many nodes agree if nodes have the same kinds, texts and flags, and edges the same
ends. -/
theorem agrees_of (size : g'.nodes.length = g.nodes.length) (has : g'.has = g.has)
    (kindIn : g'.kindIn = g.kindIn) (text : g'.text = g.text) (flags : g'.flags = g.flags)
    (targets : g'.targets = g.targets) : g.Agrees g' := by
  obtain ⟨checker, declared⟩ := checker_eq kindIn flags fun _ _ _ => by rw [targets]
  rw [text] at checker
  have target : g'.target? = g.target? := by
    funext id relation
    simp only [target?, targets]
  have same : g'.checker = g.checker := checker
  refine ⟨has, same, target, declared, fun depth id => ?_⟩
  rw [resolve, resolve, same, size]

/-! ### Graphs that are given back -/

/-- A graph that was given back: the nodes in their order, and the edges as they are listed, perhaps
under other keys. -/
structure Restored (g g' : TypeGraph) : Prop where
  directed : g'.directed = g.directed
  nodes : Forall₂ Node.Restored g.nodes g'.nodes
  edges : ∃ key : Json → Json, g'.edges = g.listed.map fun e => { e with key := key e.key }

theorem node?_restored (h : Forall₂ Node.Restored g.nodes g'.nodes) (id : Json) :
    Option.Rel Node.Restored (g.node? id) (g'.node? id) := by
  rw [node?, node?]
  generalize g.nodes = ns, g'.nodes = ns' at h
  split
  · induction h with
    | nil => exact .none
    | @cons n n' _ _ hn _ ih =>
      rw [List.find?_cons, List.find?_cons, hn.id]
      cases n.id.alike id with
      | true => exact .some hn
      | false => exact ih
  · exact .none

theorem has_restored (h : Forall₂ Node.Restored g.nodes g'.nodes) (id : Json) :
    g'.has id = g.has id := by
  have found := node?_restored h id
  rw [has, has]
  generalize g.node? id = x, g'.node? id = y at found
  cases found <;> rfl

/-- What is asked of the attributes of a node is answered as before where nodes that were given back
answer it alike. -/
theorem asked_restored {α : Type} (h : Forall₂ Node.Restored g.nodes g'.nodes) (id : Json)
    {ask : List (String × Json) → Except Fault α}
    (same : ∀ n n' : Node, n.Restored n' → ask n'.attributes = ask n.attributes) :
    (g'.attributes id >>= ask) = g.attributes id >>= ask := by
  have found := node?_restored h id
  rw [attributes, attributes]
  generalize g.node? id = x, g'.node? id = y at found
  cases found with
  | none => rfl
  | some restored => exact same _ _ restored

/-- Attributes that were given back make no difference. -/
theorem agrees_of_nodes (directed : g'.directed = g.directed)
    (nodes : Forall₂ Node.Restored g.nodes g'.nodes) (edges : g'.edges = g.edges) : g.Agrees g' := by
  obtain ⟨directed', nodes', edges'⟩ := g'
  obtain rfl : directed' = g.directed := directed
  obtain rfl : edges' = g.edges := edges
  have has : TypeGraph.has ⟨g.directed, nodes', g.edges⟩ = g.has :=
    funext fun id => has_restored nodes id
  have kindIn : TypeGraph.kindIn ⟨g.directed, nodes', g.edges⟩ = g.kindIn := by
    funext kinds id
    have kind : TypeGraph.kind ⟨g.directed, nodes', g.edges⟩ id = g.kind id :=
      asked_restored nodes id fun _ _ restored => congrArg pure (restored.lookup_getD "kind")
    simp only [TypeGraph.kindIn, kind]
  have flags : TypeGraph.flags ⟨g.directed, nodes', g.edges⟩ = g.flags := by
    funext id
    exact asked_restored nodes id fun _ _ restored =>
      congrArg Flags.ofRecord (restored.lookup_getD "flags")
  have text : TypeGraph.text ⟨g.directed, nodes', g.edges⟩ = g.text := by
    funext id
    refine asked_restored nodes id fun n n' restored => ?_
    rcases restored.attributes "text" with same | ⟨lost, blank⟩
    · rw [same]
    · rw [lost, blank]
      rfl
  have targets : TypeGraph.targets ⟨g.directed, nodes', g.edges⟩ = g.targets := by
    funext id relation
    exact asked_restored nodes id fun _ _ _ => rfl
  exact agrees_of nodes.length_eq.symm has kindIn text flags targets

theorem agrees_relisted (hg : g.StringNamed) (hw : g.Wired) (hd : (g.nodes.map Node.id).Nodup)
    (rekey : Json → Json) : g.Agrees (g.relisted rekey) :=
  agrees_of rfl rfl rfl rfl rfl (targets_relisted hg hw hd rekey)

/-- A graph that is given back agrees with what it was. -/
theorem Restored.agrees (h : g.Restored g') (hg : g.StringNamed) (hw : g.Wired)
    (hd : (g.nodes.map Node.id).Nodup) : g.Agrees g' := by
  obtain ⟨key, edges⟩ := h.edges
  exact (agrees_relisted hg hw hd key).trans (agrees_of_nodes h.directed h.nodes edges)

/-! ### Documents of schemas -/

/-- A graph that documents keep: its names and strings are of characters that stand in documents,
its other attributes are integers or truth values, and its indices are integers. -/
structure Kept (g : TypeGraph) : Prop where
  named : ∀ n ∈ g.nodes, ∃ s, n.id = .string s ∧ Markup.Clean s
  attributes : ∀ n ∈ g.nodes, ∀ f ∈ n.attributes, Markup.Clean f.1 ∧ GraphMl.Simple f.2
  indexed : g.Indexed

theorem Kept.stringNamed (h : g.Kept) : g.StringNamed := fun n hn =>
  (h.named n hn).imp fun _ => And.left

theorem Kept.clean_of_has (h : g.Kept) {id : Json} (hid : g.has id = true) :
    ∃ s, id = .string s ∧ Markup.Clean s := by
  obtain ⟨n, hn⟩ := Option.isSome_iff_exists.1 hid
  obtain ⟨hmem, rfl, -⟩ := h.stringNamed.node?_eq_some hn
  exact h.named n hmem

/-- An edge of an accepted schema lies between names that are kept. -/
theorem Kept.exists_edge (h : g.Kept) (wired : g.Wired) (tidy : g.Tidy) {e : Edge}
    (he : e ∈ g.edges) : ∃ source target key relation index,
      Markup.Clean source ∧ Markup.Clean target ∧ relation ∈ relations ∧ e = {
        source := .string source, target := .string target, key := .int key,
        relation := some (.string relation), index := some (.int index) } := by
  obtain ⟨source, hsource, cs⟩ := h.clean_of_has (wired.source e he)
  obtain ⟨target, htarget, ct⟩ := h.clean_of_has (wired.target e he)
  obtain ⟨key, hkey⟩ := wired.key e he
  obtain ⟨relation, known, hrelation⟩ := tidy.related e he
  obtain ⟨index, hindex⟩ := h.indexed e he
  refine ⟨source, target, key, relation, index, cs, ct, known, ?_⟩
  rw [← hsource, ← htarget, ← hkey, ← hrelation, ← hindex]

/-- The graph of an accepted schema can be stored. -/
theorem storable_of_ofSchema (h : ofSchema schema = .ok g) (kept : g.Kept) :
    GraphMl.Storable g := by
  have wired := ofSchema_wired h
  have tidy := ofSchema_tidy h kept.stringNamed
  have perm := listed_perm kept.stringNamed wired tidy.nodes.distinct
  have nodes : ∀ n ∈ g.nodes, Markup.Clean n.id.text := by
    intro n hn
    obtain ⟨s, hs, clean⟩ := kept.named n hn
    exact hs ▸ clean
  refine ⟨⟨wired.directed, fun n hn => ⟨nodes n hn, kept.attributes n hn⟩, fun e he => ?_⟩,
    kept.stringNamed, wired, tidy, fun e he => ?_⟩
  · obtain ⟨source, target, key, relation, index, cs, ct, known, rfl⟩ :=
      kept.exists_edge wired tidy (perm.mem_iff.1 he)
    have clean : ∀ r ∈ relations, Markup.Clean r := by decide
    refine ⟨cs, ct, GraphMl.clean_toString key, ?_⟩
    simp only [GraphMl.edgeAttributes, Option.map_some, Option.toList_some, List.singleton_append,
      List.forall_mem_cons, List.not_mem_nil, false_imp_iff, implies_true, and_true]
    exact ⟨⟨by decide, .string (clean relation known)⟩, by decide, .int index⟩
  · obtain ⟨source, target, key, relation, index, -, -, -, rfl⟩ := kept.exists_edge wired tidy he
    exact ⟨source, target, key, relation, index, rfl⟩

end TypeGraph

/-! ### Files -/

/-- The bytes of a printed document are read as its text: they begin with no mark of another
encoding, and none of them is broken. -/
theorem GraphFormats.markupText_encode_print (doc : Markup.Element) :
    markupText (Text.Utf8.encode (Markup.print doc)) = Markup.print doc := by
  obtain ⟨bs, first⟩ : ∃ bs, Text.Utf8.encode (Markup.print doc) = 0x3c :: bs := by
    have shape : Markup.print doc = String.ofList ('<' ::
        ("?xml version='1.0' encoding='utf-8'?>\n".toList ++ Markup.printIn "" doc)) := rfl
    have single : String.utf8EncodeChar '<' = [0x3c] := by decide
    rw [shape, Text.Utf8.encode_ofList, List.flatMap_cons, single]
    exact ⟨_, rfl⟩
  have whole := Text.Utf8.firstBroken_encode (Markup.print doc)
  have read := Text.Utf8.decode_encode (Markup.print doc)
  rw [first] at whole read ⊢
  simpa [markupText, whole] using read

namespace Command

theorem endsWith_iff {s ending : String} :
    s.endsWith ending = true ↔ ending.toList <:+ s.toList := by
  rw [← String.endsWith_toSlice, String.Slice.endsWith_string_iff, String.copy_toSlice]

theorem not_endsWith_json {path : String} (ending : path.endsWith ".graphml" = true) :
    path.endsWith ".json" = false := by
  rw [← Bool.not_eq_true]
  intro other
  rcases List.suffix_or_suffix_of_suffix (endsWith_iff.1 ending) (endsWith_iff.1 other) with
    below | below
  · exact absurd below (by decide)
  · exact absurd below (by decide)

theorem loadGraph_graphml (formats : GraphFormats) {d : Disk} {path : String} {bytes : List UInt8}
    (ending : path.endsWith ".graphml" = true) (read : d.read path = .ok bytes) :
    loadGraph formats d path = formats.document bytes := by
  rw [loadGraph, not_endsWith_json ending, ending, read]
  rfl

end Command

namespace TypeGraph

variable {g : TypeGraph} {schema : Json}

/-- What is relied on in a writer and a reader of documents: a graph that documents keep can be
written, and from what is written it is given back. -/
def GivenBack (write : TypeGraph → Except Fault (List UInt8))
    (read : List UInt8 → Except Fault TypeGraph) (g : TypeGraph) : Prop :=
  g.Kept → ∃ bytes g', write g = .ok bytes ∧ read bytes = .ok g' ∧ g.Restored g'

/-- GraphML gives back the graph of an accepted schema if its integers have no more digits than may
be read. -/
theorem givenBack_graphMl (h : ofSchema schema = .ok g) (fits : GraphMl.Fits g) :
    g.GivenBack GraphMl.file GraphFormats.usual.document := by
  intro kept
  obtain ⟨doc, written, reads⟩ := GraphMl.ofText_iff (storable_of_ofSchema h kept)
  refine ⟨Text.Utf8.encode (Markup.print doc), g.relisted GraphMl.rekey, ?_, ?_, rfl, ?_, _, rfl⟩
  · rw [GraphMl.file, written]
    rfl
  · show GraphMl.ofText (GraphFormats.markupText _) = _
    rw [GraphFormats.markupText_encode_print]
    exact (reads _).2 ⟨fits, rfl⟩
  · exact List.forall₂_same.2 fun n _ => .refl n

/-- Saving keeps the meaning of a graph. The graph of an accepted schema that documents keep is
written, where writer and reader do what is relied on, and from a file with what was written a graph
is loaded that agrees with it. -/
theorem agrees_saved {write : TypeGraph → Except Fault (List UInt8)} (formats : GraphFormats)
    (h : ofSchema schema = .ok g) (kept : g.Kept) (back : g.GivenBack write formats.document) :
    ∃ bytes, write g = .ok bytes ∧ ∀ (d : Disk) (path : String),
      path.endsWith ".graphml" = true → d.read path = .ok bytes →
      ∃ g', Command.loadGraph formats d path = .ok g' ∧ g.Agrees g' := by
  obtain ⟨bytes, g', written, given, restored⟩ := back kept
  refine ⟨bytes, written, fun d path ending read => ⟨g', ?_, ?_⟩⟩
  · rw [Command.loadGraph_graphml formats ending read, given]
  · exact restored.agrees kept.stringNamed (ofSchema_wired h)
      (ofSchema_tidy h kept.stringNamed).nodes.distinct

/-- A schema in which edges from one node are not all together, with an empty text, a list of flags,
and attributes that are no strings. -/
def shelf : Json := .object [
  ("nodes", .array [
    .object [("id", .string "maybe"), ("kind", .string "union"), ("text", .string "Maybe")],
    .object [("id", .string "none"), ("kind", .string "undefined"), ("text", .string "")],
    .object [("id", .string "text"), ("kind", .string "string"), ("line", .int 7)],
    .object [("id", .string "Color"), ("category", .string "symbol"),
      ("flags", .array [.string "Enum", .string "Class"]), ("exported", .bool true)]]),
  ("edges", .array [
    .object [("from", .string "maybe"), ("to", .string "text"), ("relation", .string "member"),
      ("index", .int 1)],
    .object [("from", .string "Color"), ("to", .string "text"),
      ("relation", .string "declared_type")],
    .object [("from", .string "maybe"), ("to", .string "none"), ("relation", .string "member"),
      ("index", .int 0)]])]

def shelfGraph : TypeGraph where
  directed := true
  nodes := [
    ⟨.string "maybe", [("kind", .string "union"), ("text", .string "Maybe"),
      ("category", .string "type")]⟩,
    ⟨.string "none", [("kind", .string "undefined"), ("text", .string ""),
      ("category", .string "type")]⟩,
    ⟨.string "text", [("kind", .string "string"), ("line", .int 7), ("category", .string "type")]⟩,
    ⟨.string "Color", [("category", .string "symbol"), ("flags", .string "Enum,Class"),
      ("exported", .bool true)]⟩]
  edges := [
    ⟨.string "maybe", .string "text", .int 0, some (.string "member"), some (.int 1)⟩,
    ⟨.string "Color", .string "text", .int 0, some (.string "declared_type"), some (.int 0)⟩,
    ⟨.string "maybe", .string "none", .int 0, some (.string "member"), some (.int 0)⟩]

def shelfDisk (bytes : List UInt8) : Disk where
  root := .directory [("shelf.graphml", .file bytes)]
  home := []

/-- The shelf, saved and loaded, still has an optional string whose `undefined` has no text, and a
symbol with both of its flags. -/
theorem agrees_savedShelf : ofSchema shelf = .ok shelfGraph ∧ shelfGraph.Kept ∧
    shelfGraph.GivenBack GraphMl.file GraphFormats.usual.document ∧
    ∃ bytes g', GraphMl.file shelfGraph = .ok bytes ∧
      Command.loadGraph .usual (shelfDisk bytes) "shelf.graphml" = .ok g' ∧
      g'.resolve none (.string "maybe") = .ok (.descriptor .string) ∧
      g'.checker.text (.string "none") =
        .error (.unrenderable "Type none has no textual representation") ∧
      g'.checker.flags (.string "Color") = shelfGraph.flags (.string "Color") := by
  have loaded : ofSchema shelf = .ok shelfGraph := by rfl
  have kept : shelfGraph.Kept := by
    refine ⟨?_, by decide, by simp [Indexed, Edge.Indexed, shelfGraph]⟩
    simp only [shelfGraph, List.forall_mem_cons, Json.string.injEq, exists_eq_left',
      List.not_mem_nil, false_imp_iff, implies_true, and_true]
    decide
  have ending : "shelf.graphml".endsWith ".graphml" = true := Command.endsWith_iff.2 (by decide)
  have back := givenBack_graphMl loaded ⟨by decide, by decide⟩
  have optional : shelfGraph.resolve none (.string "maybe") = .ok (.descriptor .string) := by cbv
  obtain ⟨bytes, written, saved⟩ := agrees_saved .usual loaded kept back
  obtain ⟨g', read, same⟩ := saved (shelfDisk bytes) "shelf.graphml" ending rfl
  refine ⟨loaded, kept, back, bytes, g', written, read, (same.resolve _ _).trans optional, ?_, ?_⟩
  · rw [same.checker]
    rfl
  · rw [same.checker]
    rfl

end TypeGraph

end PropertyMetadata
