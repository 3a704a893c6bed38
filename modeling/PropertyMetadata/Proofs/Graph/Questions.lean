import PropertyMetadata.Proofs.Graph.Permutation
import PropertyMetadata.Proofs.Graph.Regular

/-! Questions on the nodes of an accepted schema. Kinds and relations are checked when a schema is
read, indices and flags only when they are asked for; so a question fails with another fault than
those of graphs and of rendering just when it comes to an index that is no whole number, or to flags
that there are not. -/

namespace PropertyMetadata

open List (Forall₂)

/-- What a checker can be asked on a type or a symbol. -/
inductive Question where
  | is (s : Shape)
  | typeArguments | members | text | symbol | aliasSymbol | flags | parent | declaredType
  deriving DecidableEq

/-- Whether a fault is one of a graph or of rendering. -/
def Fault.isForeseen : Fault → Bool
  | graph _ | unrenderable _ => true
  | _ => false

/-- Whether something fails with a fault that is not foreseen. -/
def slips {α : Type} : Except Fault α → Bool
  | .ok _ => false
  | .error f => !f.isForeseen

def Checker.slips {Handle : Type} (c : Checker Handle) (t : Handle) : Question → Bool
  | .is s => PropertyMetadata.slips (c.is s t)
  | .typeArguments => PropertyMetadata.slips (c.typeArguments t)
  | .members => PropertyMetadata.slips (c.members t)
  | .text => PropertyMetadata.slips (c.text t)
  | .symbol => PropertyMetadata.slips (c.symbol t)
  | .aliasSymbol => PropertyMetadata.slips (c.aliasSymbol t)
  | .flags => PropertyMetadata.slips (c.flags t)
  | .parent => PropertyMetadata.slips (c.parent t)
  | .declaredType => PropertyMetadata.slips (c.declaredType t)

/-! ### Slips -/

section Slips

variable {α β : Type} {m : Except Fault α}

@[simp] theorem slips_ok (a : α) : slips (.ok a) = false := rfl

@[simp] theorem slips_error (f : Fault) : slips (.error f : Except Fault α) = !f.isForeseen := rfl

theorem slips_bind {f : α → Except Fault β} (h : ∀ a, m = .ok a → slips (f a) = false) :
    slips (m >>= f) = slips m := by
  cases m with
  | error e => rfl
  | ok a => exact h a rfl

@[simp] theorem slips_map (f : α → β) (m : Except Fault α) : slips (m.map f) = slips m := by
  cases m <;> rfl

/-- Whatever fails here fails with a fault that is not foreseen. -/
def OnlySlips (m : Except Fault α) : Prop := ∀ f, m = .error f → f.isForeseen = false

theorem OnlySlips.slips_eq (h : OnlySlips m) : slips m = !m.isOk := by
  cases m with
  | error f => simp [h f rfl, Except.isOk, Except.toBool]
  | ok a => rfl

theorem onlySlips_ok (a : α) : OnlySlips (.ok a) := by
  rintro _ ⟨⟩

theorem onlySlips_error {f : Fault} (h : f.isForeseen = false) :
    OnlySlips (.error f : Except Fault α) := by
  rintro _ ⟨⟩
  exact h

theorem OnlySlips.bind {f : α → Except Fault β} (h : OnlySlips m) (hf : ∀ a, OnlySlips (f a)) :
    OnlySlips (m >>= f) := by
  cases m with
  | error e => exact onlySlips_error (h e rfl)
  | ok a => exact hf a

/-- A list of computations slips if one of them does, if none of them fails otherwise. -/
theorem slips_mapM {f : α → Except Fault β} (h : ∀ a, OnlySlips (f a)) (as : List α) :
    slips (as.mapM f) = as.any fun a => !(f a).isOk := by
  induction as with
  | nil => rfl
  | cons a as ih =>
    rw [List.mapM_cons, List.any_cons, ← ih]
    have failed := (h a).slips_eq
    cases hf : f a with
    | error e =>
      rw [hf] at failed
      exact failed
    | ok b =>
      show slips (as.mapM f >>= fun bs => .ok (b :: bs)) = _
      exact slips_bind fun _ _ => rfl

end Slips

theorem onlySlips_whole (x : Json) : OnlySlips x.whole := by
  cases x with
  | bool | int => exact onlySlips_ok _
  | double d =>
    rw [Json.whole]
    split
    · exact onlySlips_ok _
    · refine onlySlips_error ?_
      split <;> rfl
  | string s =>
    rw [Json.whole]
    split
    · exact onlySlips_ok _
    · exact onlySlips_error rfl
  | null | array | object => exact onlySlips_error rfl

theorem onlySlips_members (x : Json) : OnlySlips x.members := by
  cases x with
  | array | object | string => exact onlySlips_ok _
  | null | bool | int | double => exact onlySlips_error rfl

namespace Flags

theorem onlySlips_ofName (x : Json) : OnlySlips (ofName x) := by
  cases x with
  | string s =>
    rw [ofName, named]
    split
    · exact onlySlips_ok _
    · exact onlySlips_error rfl
  | _ => exact onlySlips_error rfl

theorem onlySlips_ofItems (xs : List Json) : OnlySlips (ofItems xs) := by
  induction xs with
  | nil => exact onlySlips_ok _
  | cons x xs ih => exact (onlySlips_ofName x).bind fun _ => ih.bind fun _ => onlySlips_ok _

/-- Reading flags fails with no fault of a graph. -/
theorem onlySlips_ofRecord (x : Json) : OnlySlips (ofRecord x) := by
  have listed (x : Json) : OnlySlips (ofJson x) := by
    rw [ofJson]
    split
    · exact (onlySlips_members x).bind onlySlips_ofItems
    · exact onlySlips_ok _
  cases x with
  | string s =>
    rw [ofRecord, ← ofItems_map_string]
    exact onlySlips_ofItems _
  | _ => exact listed _

end Flags

namespace TypeGraph

variable {g : TypeGraph} {schema record id : Json} {nodes edges : List Json} {ns : List Node}
  {n : Node} {s key relation : String}

/-! ### Questions on a graph -/

/-- The relation whose edges a question on a node follows, if any. Of the shapes only that of unions
follows edges, and only from an enum. -/
def followed? (g : TypeGraph) (id : Json) : Question → Option String
  | .typeArguments => some "type_argument"
  | .members => some "member"
  | .symbol => some "symbol"
  | .aliasSymbol => some "alias_symbol"
  | .parent => some "parent"
  | .declaredType => some "declared_type"
  | .is .unionOrIntersection =>
    match g.kindIn ["enum"] id with
    | .ok true => some "member"
    | _ => none
  | .is _ | .text | .flags => none

/-- A lookup slips if the index of one of the edges that it follows is no whole number. -/
theorem slips_targets_iff (hg : g.StringNamed) (hw : g.Wired) (h : g.has id = true) :
    slips (g.targets id relation) = true ↔
      ∃ e ∈ g.edges, e.leaves id relation = true ∧ (Edge.position e).isOk = false := by
  obtain ⟨fields, hf⟩ := attributes_of_has h
  have asked : g.targets id relation = ((g.related id relation).mapM fun e =>
        Edge.position e >>= fun i => .ok (i, e.target)) >>= fun placed =>
      .ok ((placed.mergeSort fun a b => decide (a.1 ≤ b.1)).map (·.2)) := by
    simp only [targets, hf, hw.directed, Bool.not_true, Bool.false_eq_true, if_false]
    rfl
  have placed (e : Edge) :
      (Edge.position e >>= fun i => (.ok (i, e.target) : Except Fault (Int × Json))).isOk =
        (Edge.position e).isOk := by
    cases Edge.position e <;> rfl
  have slipping (e : Edge) :
      OnlySlips (Edge.position e >>= fun i => (.ok (i, e.target) : Except Fault (Int × Json))) :=
    (onlySlips_whole (e.index.getD (.int 0))).bind fun _ => onlySlips_ok _
  rw [asked, slips_bind fun _ _ => rfl, slips_mapM slipping, List.any_eq_true]
  simp only [placed, (related_perm hg hw id relation).mem_iff, List.mem_filter, and_assoc,
    Bool.not_eq_true']

theorem not_enum_of_union (h : g.kindIn ["union", "intersection"] id = .ok true) :
    g.kindIn ["enum"] id = .ok false := by
  rw [kindIn] at h ⊢
  cases hk : g.kind id with
  | error f => simp [hk, bind, Except.bind] at h
  | ok k =>
    simp only [hk, bind, Except.bind, pure, Except.pure, Except.ok.injEq, List.any_cons,
      List.any_nil, Bool.or_false, Bool.or_eq_true, Json.alike_string_iff] at h
    rcases h with rfl | rfl <;> rfl

/-- Asking for a union slips if an enum is asked for its members and this slips. -/
theorem slips_union_iff (h : g.has id = true) :
    slips (g.hasShape .unionOrIntersection id) = true ↔
      ∃ relation, g.followed? id (.is .unionOrIntersection) = some relation ∧
        slips (g.targets id relation) = true := by
  obtain ⟨union, hu⟩ := kindIn_of_has h ["union", "intersection"]
  obtain ⟨enum, he⟩ := kindIn_of_has h ["enum"]
  cases union with
  | true =>
    have asked : g.hasShape .unionOrIntersection id = .ok true := by
      rw [hasShape, hu]
      rfl
    simp [asked, followed?, not_enum_of_union hu]
  | false =>
    cases enum with
    | true =>
      have asked : g.hasShape .unionOrIntersection id =
          g.targets id "member" >>= fun ts => .ok (!ts.isEmpty) := by
        rw [hasShape, hu, he]
        rfl
      rw [asked, slips_bind fun _ _ => rfl]
      simp [followed?, he]
    | false =>
      have asked : g.hasShape .unionOrIntersection id = .ok false := by
        rw [hasShape, hu, he]
        rfl
      simp [asked, followed?, he]

/-- A question slips if the lookup that it makes does, or if it asks for flags that cannot be
read. -/
theorem slips_iff (h : g.has id = true) (q : Question) : g.checker.slips id q = true ↔
    (∃ relation, g.followed? id q = some relation ∧ slips (g.targets id relation) = true) ∨
      q = .flags ∧ slips (g.flags id) = true := by
  have first (relation : String) :
      slips (g.target? id relation) = slips (g.targets id relation) :=
    slips_bind fun _ _ => rfl
  have known (kinds : List String) : slips (g.kindIn kinds id) = false := by
    obtain ⟨b, hb⟩ := kindIn_of_has h kinds
    rw [hb]
    rfl
  cases q with
  | typeArguments | members => simp [Checker.slips, checker, followed?]
  | symbol | aliasSymbol | parent => simp [Checker.slips, checker, followed?, first]
  | flags => simp [Checker.slips, checker, followed?]
  | text =>
    have textless : slips (g.text id) = false := by
      obtain ⟨fields, hf⟩ := attributes_of_has h
      rw [text, hf]
      simp only [bind, Except.bind]
      split <;> rfl
    simp [Checker.slips, checker, followed?, textless]
  | declaredType =>
    have declared : slips (g.declaredType id) = slips (g.target? id "declared_type") :=
      slips_bind fun t _ => by cases t <;> rfl
    simp [Checker.slips, checker, followed?, declared, first]
  | is s =>
    cases s with
    | unionOrIntersection => simp [Checker.slips, checker, slips_union_iff h]
    | _ => simp [Checker.slips, checker, followed?, hasShape, known]

/-! ### Attributes -/

/-- An attribute of the node of a name. -/
def attribute? (g : TypeGraph) (s key : String) : Option Json :=
  (g.node? (.string s)).bind fun n => Json.lookup n.attributes key

/-- What a node that is put into a graph gives to an attribute of the node of a name. -/
def given? (s key : String) (n : Node) : Option Json :=
  if n.id.alike (.string s) then Json.lookup (updated [] n.attributes) key else none

/-- What a node record gives to an attribute of the node of a name. -/
def recordGiven? (s key : String) (record : Json) : Option Json :=
  match record.required "id" with
  | .error _ => none
  | .ok id =>
    match nodeAttributes id (recordFields record) with
    | .error _ => none
    | .ok attributes => given? s key ⟨id, attributes⟩

theorem DescribesNode.recordGiven?_eq (h : DescribesNode record n) (s key : String) :
    recordGiven? s key record = given? s key n := by
  simp only [recordGiven?, h.id, h.attributes]

/-- The last node that gives an attribute decides. -/
theorem attribute?_ofNodes (ns : List Node) (s key : String) :
    (ofNodes ns).attribute? s key = (ns.filterMap (given? s key)).getLast? :=
  told?_ofNodes rfl ns key

/-! ### Records -/

/-- The flags of a node are those that its records gave last. -/
theorem Holds.flags_eq {es : List Edge} (holds : g.Holds ns es)
    (hns : Forall₂ DescribesNode nodes ns) (h : g.has (.string s) = true) :
    g.flags (.string s) =
      Flags.ofRecord ((nodes.filterMap (recordGiven? s "flags")).getLast?.getD (.string "")) := by
  have same : g.told? (.string s) "flags" = (ofNodes ns).attribute? s "flags" := by
    simp only [told?, attribute?, node?, holds.nodes]
  have told : nodes.filterMap (recordGiven? s "flags") = ns.filterMap (given? s "flags") :=
    filterMap_eq_of_forall₂ (fun _ _ described => described.recordGiven?_eq s "flags") hns
  rw [flags_eq_told h, same, attribute?_ofNodes, told]

/-- The edges of a relation that leave a node have the indices that the records of these edges give
them. -/
theorem Holds.exists_misplaced_iff {es : List Edge} (holds : g.Holds ns es)
    (hes : Forall₂ (DescribesEdge g.has) edges es) :
    (∃ e ∈ g.edges, e.leaves (.string s) relation = true ∧ (Edge.position e).isOk = false) ↔
      ∃ r ∈ edges, leavesBy s relation r = true ∧ (recordIndex r).whole.isOk = false := by
  have same {r : Json} {e : Edge} (h : DescribesEdge g.has r e) :
      leavesBy s relation r = e.leaves (.string s) relation ∧
        (recordIndex r).whole = Edge.position e := by
    simp [leavesBy, h.source, Edge.leaves, h.relation, Edge.position, h.index]
  constructor
  · rintro ⟨e, he, leaves, misplaced⟩
    have held : e.keyless ∈ es := holds.edges ▸ List.mem_map_of_mem he
    obtain ⟨r, hr, described⟩ := exists_of_forall₂ hes _ held
    exact ⟨r, hr, (same described).1.trans leaves, (same described).2 ▸ misplaced⟩
  · rintro ⟨r, hr, leaves, misplaced⟩
    obtain ⟨e, held, described⟩ := exists_of_forall₂ hes.flip r hr
    obtain ⟨e, he, rfl⟩ := List.mem_map.1 (holds.edges.symm ▸ held)
    exact ⟨e, he, (same described).1.symm.trans leaves, (same described).2 ▸ misplaced⟩

/-- A question on a node of an accepted schema fails with another fault than those of graphs and of
rendering just when it follows the edge of a record whose index is no whole number, or when it asks
for the flags and those that the records of the node gave last cannot be read. -/
theorem slips_iff_records (h : ofSchema schema = .ok g) (hn : records schema "nodes" = .ok nodes)
    (he : records schema "edges" = .ok edges) (named : g.StringNamed)
    (declared : g.has (.string s) = true) (q : Question) :
    g.checker.slips (.string s) q = true ↔
      (∃ relation, g.followed? (.string s) q = some relation ∧
        ∃ r ∈ edges, leavesBy s relation r = true ∧ (recordIndex r).whole.isOk = false) ∨
      q = .flags ∧ (Flags.ofRecord
        ((nodes.filterMap (recordGiven? s "flags")).getLast?.getD (.string ""))).isOk = false := by
  obtain ⟨nodes', edges', ns, es, hn', he', hns, hes, holds⟩ := holds_of_ofSchema h
  obtain rfl := Except.ok.inj (hn.symm.trans hn')
  obtain rfl := Except.ok.inj (he.symm.trans he')
  rw [slips_iff declared, holds.flags_eq hns declared,
    (Flags.onlySlips_ofRecord _).slips_eq, Bool.not_eq_true']
  simp only [slips_targets_iff named holds.wired declared, holds.exists_misplaced_iff hes]

/-! ### Records that fail late -/

def lateNodes : List Json := [
  .object [("id", .string "user"), ("kind", .string "class"), ("text", .string "User")],
  .object [("id", .string "users"), ("kind", .string "array"), ("text", .string "User[]")],
  .object [("id", .string "role"), ("category", .string "symbol"), ("name", .string "Role"),
    ("flags", .array [.string "Bogus"])]]

def lateEdges : List Json := [
  .object [("from", .string "users"), ("to", .string "user"),
    ("relation", .string "type_argument"), ("index", .null)]]

def lateSchema : Json := .object [("nodes", .array lateNodes), ("edges", .array lateEdges)]

def lateGraph : TypeGraph where
  directed := true
  nodes := [
    ⟨.string "user",
      [("kind", .string "class"), ("text", .string "User"), ("category", .string "type")]⟩,
    ⟨.string "users",
      [("kind", .string "array"), ("text", .string "User[]"), ("category", .string "type")]⟩,
    ⟨.string "role",
      [("category", .string "symbol"), ("name", .string "Role"), ("flags", .string "Bogus")]⟩]
  edges := [
    ⟨.string "users", .string "user", .int 0, some (.string "type_argument"), some .null⟩]

theorem ofSchema_late : ofSchema lateSchema = .ok lateGraph := rfl

theorem stringNamed_late : lateGraph.StringNamed := by simp [StringNamed, lateGraph]

/-- The null is met by a question for type arguments, and by no question for members; the flag is
met by the question for flags. -/
theorem slips_late_records : ofSchema lateSchema = .ok lateGraph ∧
    records lateSchema "nodes" = .ok lateNodes ∧ records lateSchema "edges" = .ok lateEdges ∧
    lateGraph.StringNamed ∧ lateGraph.has (.string "users") = true ∧
    lateGraph.has (.string "role") = true ∧
    lateGraph.checker.slips (.string "users") .typeArguments = true ∧
    lateGraph.checker.slips (.string "users") .members = false ∧
    lateGraph.checker.slips (.string "role") .flags = true := by
  have slips {s : String} (declared : lateGraph.has (.string s) = true) (q : Question) :=
    slips_iff_records ofSchema_late rfl rfl stringNamed_late declared q
  refine ⟨ofSchema_late, rfl, rfl, stringNamed_late, rfl, rfl, ?_, ?_, ?_⟩
  · exact (slips rfl .typeArguments).2 (.inl ⟨"type_argument", rfl, _, List.mem_singleton_self _,
      rfl, rfl⟩)
  · rw [← Bool.not_eq_true, slips rfl .members]
    rintro (⟨relation, followed, r, hr, leaves, -⟩ | ⟨other, -⟩)
    · obtain rfl := Option.some.inj followed
      obtain rfl := List.mem_singleton.1 hr
      exact absurd leaves (by decide +kernel)
    · cases other
  · exact (slips rfl .flags).2 (.inr ⟨rfl, by decide +kernel⟩)

/-- The schema is accepted, and questions on its nodes fail with faults that are neither of graphs
nor of rendering. -/
theorem late_slips : ofSchema lateSchema = .ok lateGraph ∧ lateGraph.StringNamed ∧
    lateGraph.has (.string "users") = true ∧ lateGraph.has (.string "role") = true ∧
    lateGraph.checker.typeArguments (.string "users") = .error (.mismatch (.notInteger .null)) ∧
    lateGraph.checker.flags (.string "role") = .error (.missingKey (.string "BOGUS")) := by
  refine ⟨ofSchema_late, stringNamed_late, rfl, rfl, rfl, ?_⟩
  have spelled : Flags.spelling "Bogus" = "BOGUS" := by decide +kernel
  have listed : Flags.listed "Bogus" = ["Bogus"] := by decide +kernel
  have flags : lateGraph.checker.flags (.string "role") = Flags.ofNames (Flags.listed "Bogus") :=
    rfl
  rw [flags, listed, Flags.ofNames, Flags.named, Flags.named?, spelled]
  rfl

end TypeGraph

end PropertyMetadata
