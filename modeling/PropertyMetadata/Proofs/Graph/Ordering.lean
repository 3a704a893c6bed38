import PropertyMetadata.Proofs.Graph.Records

/-! The order of what a graph looks up. The edges of a relation that leave a node are those that the
records of a schema tell, each as often as it is told, whatever nodes are told again. They come in
the order of their indices. Those of one index come in the order in which their targets were first
linked from the node, by whatever relation, and those to one target in the order of the schema. -/

namespace PropertyMetadata

open List (Forall₂)

/-! ### Sorting -/

section Sorting

variable {α : Type} (key : α → ℤ)

/-- Sorting by a key keeps the members that have one key in their order. -/
theorem filter_mergeSort_of_key (as : List α) (k : ℤ) :
    ((as.mergeSort fun a b => decide (key a ≤ key b)).filter fun a => decide (key a = k)) =
      as.filter fun a => decide (key a = k) := by
  have tied : (as.filter fun a => decide (key a = k)).Pairwise
      fun a b => decide (key a ≤ key b) = true := by
    refine List.pairwise_of_forall_mem_list fun a ha b hb => ?_
    have same := of_decide_eq_true (List.mem_filter.1 ha).2
    have same' := of_decide_eq_true (List.mem_filter.1 hb).2
    simp [same, same']
  -- they are sorted among themselves already, so sorting leaves them there one behind the other
  have kept := (List.sublist_mergeSort (trans_of_key key) (total_of_key key) tied
    List.filter_sublist).filter fun a => decide (key a = k)
  rw [List.filter_filter] at kept
  simp only [Bool.and_self] at kept
  exact (kept.eq_of_length ((List.mergeSort_perm as _).filter _).length_eq.symm).symm

/-- After sorting by a key, what has the same key is in the order that it had. -/
theorem pairwise_mergeSort_of_key {R : α → α → Prop} {as : List α} (h : as.Pairwise R) :
    (as.mergeSort fun a b => decide (key a ≤ key b)).Pairwise
      fun a b => key a < key b ∨ key a = key b ∧ R a b := by
  have sorted := List.pairwise_mergeSort (trans_of_key key) (total_of_key key) as
  refine List.pairwise_iff_forall_sublist.2 fun {a b} hab => ?_
  have le := of_decide_eq_true (List.pairwise_iff_forall_sublist.1 sorted hab)
  rcases Int.lt_or_eq_of_le le with lt | same
  · exact .inl lt
  · have tied := hab.filter fun c => decide (key c = key b)
    rw [filter_mergeSort_of_key] at tied
    simp only [same, decide_true, List.filter_cons_of_pos, List.filter_nil] at tied
    exact .inr ⟨same, List.pairwise_iff_forall_sublist.1 (h.filter _) tied⟩

end Sorting

namespace TypeGraph

variable {g : TypeGraph} {schema record : Json} {has : Json → Bool} {e : Edge} {es : List Edge}
  {edges : List Json} {seen : List Json} {s relation : String}

/-! ### Targets -/

theorem distinctTargets_pairwise {own : Edge → Bool}
    (hs : ∀ e ∈ es, ∃ s, e.target = .string s) :
    (distinctTargets seen (es.filter own)).Pairwise fun t t' =>
      es.findIdx (fun e => own e && e.target.alike t) <
        es.findIdx fun e => own e && e.target.alike t' := by
  induction es generalizing seen with
  | nil => exact .nil
  | cons e es ih =>
    obtain ⟨⟨s, he⟩, hes⟩ := List.forall_mem_cons.1 hs
    -- a target that the first edge does not have is met one place later
    have later {seen : List Json} (other : ∀ t ∈ distinctTargets seen (es.filter own),
        (own e && e.target.alike t) = false) :
        (distinctTargets seen (es.filter own)).Pairwise fun t t' =>
          (e :: es).findIdx (fun e => own e && e.target.alike t) <
            (e :: es).findIdx fun e => own e && e.target.alike t' := by
      refine (ih hes).imp_of_mem fun {t t'} ht ht' lt => ?_
      rw [List.findIdx_cons, List.findIdx_cons, other t ht, other t' ht']
      simpa using lt
    by_cases mine : own e = true
    · have other {seen : List Json} (met : seen.any e.target.alike = true) :
          ∀ t ∈ distinctTargets seen (es.filter own), (own e && e.target.alike t) = false := by
        intro t ht
        have unmet := (mem_distinctTargets ht).2
        rw [mine, Bool.true_and, he, ← Bool.not_eq_true, Json.string_alike_iff]
        rintro rfl
        rw [he, unmet] at met
        contradiction
      rw [List.filter_cons_of_pos mine, distinctTargets]
      split
      next met => exact later (other met)
      next =>
        have met : (e.target :: seen).any e.target.alike = true := by
          rw [List.any_cons, he, Json.alike_string_self, Bool.true_or]
        refine List.pairwise_cons.2 ⟨fun t ht => ?_, later (other met)⟩
        rw [List.findIdx_cons, List.findIdx_cons, other met t ht, mine, he, Json.alike_string_self]
        simp
    · rw [List.filter_cons_of_neg mine]
      exact later fun t _ => by simp [mine]

/-- What is brought together by target comes in the order of the targets, and for one target in the
order that it had. -/
theorem byTarget_pairwise {α : Type} {f : α → Edge} {as : List α} {first : Json → ℕ}
    {R : α → α → Prop}
    (hs : ∀ a ∈ as, ∃ s, (f a).target = .string s)
    (ordered : (distinctTargets [] (as.map f)).Pairwise fun t t' => first t < first t')
    (h : as.Pairwise R) : (byTarget f as).Pairwise fun a b =>
      first (f a).target < first (f b).target ∨ (f a).target = (f b).target ∧ R a b := by
  have marked {t : Json} {a : α} (ha : a ∈ as.filter fun a => (f a).target.alike t) :
      (f a).target = t := by
    obtain ⟨hmem, alike⟩ := List.mem_filter.1 ha
    obtain ⟨s, hs⟩ := hs a hmem
    rw [hs, Json.string_alike_iff] at alike
    rw [hs, alike]
  refine List.pairwise_flatMap.2 ⟨fun t _ => ?_, ordered.imp fun {t t'} lt a ha b hb => ?_⟩
  · refine (h.filter _).imp_of_mem fun {a b} ha hb hab => ?_
    exact .inr ⟨(marked ha).trans (marked hb).symm, hab⟩
  · rw [marked ha, marked hb]
    exact .inl lt

/-! ### Records -/

def recordEdge (record : Json) : Edge where
  source := (record.field? "from").getD .null
  target := (record.field? "to").getD .null
  key := .null
  relation := some (recordRelation record)
  index := some (recordIndex record)

theorem DescribesEdge.eq_recordEdge (h : DescribesEdge has record e) : e = recordEdge record := by
  rw [recordEdge, field?_of_required h.source, field?_of_required h.target, ← h.key, ← h.relation,
    ← h.index, Option.getD_some, Option.getD_some]

theorem eq_map_recordEdge (h : Forall₂ (DescribesEdge has) edges es) :
    es = edges.map recordEdge := by
  have told : Forall₂ (fun record e => recordEdge record = e) edges es :=
    h.imp fun _ _ he => he.eq_recordEdge.symm
  rw [← List.forall₂_map_left_iff, List.forall₂_eq_eq_eq] at told
  exact told.symm

/-- When the two ends of an edge were first linked in this direction: the place of the first edge
between them, by whatever relation. -/
def firstLink (es : List Edge) (e : Edge) : ℕ :=
  es.findIdx fun e' => e'.source.alike e.source && e'.target.alike e.target

/-- Of two edges with their places in a list, the first one is looked up before the second one. -/
def Precedes (es : List Edge) (p q : Edge × ℕ) : Prop :=
  p.1.place < q.1.place ∨ p.1.place = q.1.place ∧
    (firstLink es p.1 < firstLink es q.1 ∨ p.1.target = q.1.target ∧ p.2 < q.2)

/-! ### Lookups -/

/-- The edges that leave a node, by whatever relation, with their places. -/
def placedFrom (es : List Edge) (s : String) : List (Edge × ℕ) :=
  es.zipIdx.filter fun p => p.1.source.alike (.string s)

/-- The edges of a relation that leave a node, with their places, by target. -/
def placedBy (es : List Edge) (s relation : String) : List (Edge × ℕ) :=
  (byTarget Prod.fst (placedFrom es s)).filter fun p =>
    p.1.relation.any fun r => r.alike (.string relation)

theorem map_fst_placedFrom (es : List Edge) (s : String) :
    (placedFrom es s).map Prod.fst = es.filter fun e => e.source.alike (.string s) := by
  conv_rhs => rw [← List.zipIdx_map_fst 0 es, List.filter_map]
  rfl

section Placed

variable (strings : ∀ e ∈ es, ∃ u, e.target = .string u)
include strings

theorem placedFrom_strings : ∀ p ∈ placedFrom es s, ∃ u, p.1.target = .string u := by
  intro p hp
  have hmem : p.1 ∈ (placedFrom es s).map Prod.fst := List.mem_map_of_mem hp
  rw [map_fst_placedFrom] at hmem
  exact strings p.1 (List.mem_filter.1 hmem).1

theorem placedBy_perm (relation : String) : (placedBy es s relation).Perm
    (es.zipIdx.filter fun p => p.1.leaves (.string s) relation) := by
  refine ((byTarget_perm (placedFrom_strings strings)).filter _).trans ?_
  rw [placedFrom, List.filter_filter]
  exact .of_eq (List.filter_congr fun p _ => Bool.and_comm _ _)

/-- By target, edges come in the order in which their targets were first linked, and those to one
target in the order of their places. -/
theorem placedBy_pairwise (relation : String) : (placedBy es s relation).Pairwise fun p q =>
    firstLink es p.1 < firstLink es q.1 ∨ p.1.target = q.1.target ∧ p.2 < q.2 := by
  have places : es.zipIdx.Pairwise fun p q => p.2 < q.2 := by
    refine .of_map Prod.snd (fun _ _ lt => lt) ?_
    rw [List.zipIdx_map_snd]
    exact List.pairwise_lt_range'
  have targets : (distinctTargets [] ((placedFrom es s).map Prod.fst)).Pairwise fun t t' =>
      es.findIdx (fun e => e.source.alike (.string s) && e.target.alike t) <
        es.findIdx fun e => e.source.alike (.string s) && e.target.alike t' :=
    map_fst_placedFrom es s ▸ distinctTargets_pairwise strings
  have source : ∀ p ∈ placedBy es s relation, p.1.source = .string s := by
    intro p hp
    have left := (placedBy_perm strings relation).mem_iff.1 hp
    exact (Edge.leaves_string_iff.1 (List.mem_filter.1 left).2).1
  have ordered := byTarget_pairwise (placedFrom_strings strings) targets (places.filter _)
  refine (ordered.filter _).imp_of_mem fun {p q} hp hq before => ?_
  rwa [firstLink, firstLink, source p hp, source q hq]

end Placed

theorem map_related (strings : ∀ e ∈ es, ∃ u, e.target = .string u)
    (he : g.edges.map Edge.keyless = es) (s relation : String) :
    (g.related (.string s) relation).map Edge.keyless = (placedBy es s relation).map Prod.fst := by
  have leaving : (g.leaving (.string s)).map Edge.keyless =
      (byTarget Prod.fst (placedFrom es s)).map Prod.fst := by
    rw [← bunched_map (placedFrom_strings strings), map_fst_placedFrom, ← he, List.filter_map,
      TypeGraph.leaving, ← Edge.along_id, ← bunched_along .id]
    rfl
  rw [← Edge.along_id, TypeGraph.related, filter_along, Edge.along_id, leaving, List.filter_map]
  rfl

/-- The edges of a relation that leave a node, with their places, in the order of lookups. -/
def lookedUp (es : List Edge) (s relation : String) : List (Edge × ℕ) :=
  (placedBy es s relation).mergeSort fun p q => decide (p.1.place ≤ q.1.place)

theorem targets_eq_lookedUp (hg : g.StringNamed) (hw : g.Wired) (hi : g.Indexed)
    (hx : g.has (.string s) = true) (strings : ∀ e ∈ es, ∃ u, e.target = .string u)
    (he : g.edges.map Edge.keyless = es) (relation : String) :
    g.targets (.string s) relation = .ok ((lookedUp es s relation).map fun p => p.1.target) := by
  let atEnd (p : Edge × ℕ) : ℤ × Json := (p.1.place, p.1.target)
  have ends : (g.related (.string s) relation).map (fun e => (e.place, e.target)) =
      (placedBy es s relation).map atEnd := by
    calc (g.related (.string s) relation).map (fun e => (e.place, e.target))
      _ = ((g.related (.string s) relation).map Edge.keyless).map
          fun e => (e.place, e.target) := by rw [List.map_map]; rfl
      _ = (placedBy es s relation).map atEnd := by
        rw [map_related strings he, List.map_map]; rfl
  have sorted : g.sorted (.string s) relation = (lookedUp es s relation).map atEnd := by
    rw [TypeGraph.sorted, ends]
    exact (List.map_mergeSort (f := atEnd) fun _ _ _ _ => rfl).symm
  rw [targets_eq hg hw hi hx relation, sorted, List.map_map]
  rfl

/-- What an accepted schema tells of edges is what its graph looks up. -/
theorem ofSchema_edges (h : ofSchema schema = .ok g) (he : records schema "edges" = .ok edges)
    (named : g.StringNamed) (whole : ∀ record ∈ edges, ∃ i, recordIndex record = .int i) :
    g.Wired ∧ g.Indexed ∧ (∀ e ∈ edges.map recordEdge, ∃ u, e.target = .string u) ∧
      g.edges.map Edge.keyless = edges.map recordEdge := by
  obtain ⟨nodes, edges', ns, es, -, he', -, hes, holds⟩ := holds_of_ofSchema h
  obtain rfl : edges = edges' := Except.ok.inj (he.symm.trans he')
  have told : g.edges.map Edge.keyless = edges.map recordEdge :=
    holds.edges.trans (eq_map_recordEdge hes)
  refine ⟨holds.wired, fun e hmem => ?_, ?_, told⟩
  · have kept : e.keyless ∈ edges.map recordEdge := told ▸ List.mem_map_of_mem hmem
    obtain ⟨record, hrecord, same⟩ := List.mem_map.1 kept
    obtain ⟨i, hi⟩ := whole record hrecord
    have index : (recordEdge record).index = e.keyless.index := congrArg Edge.index same
    exact ⟨i, index.symm.trans (congrArg some hi)⟩
  · rw [← told]
    exact List.forall_mem_map.2 fun e hmem => named.string_of_has (holds.wired.target e hmem)

/-- No edge of a schema is lost, and none is invented. If nodes are named by strings and indices are
whole numbers, a lookup gives the ends of the edges of a relation that leave a node, each as often
as a record tells of it, in the order of lookups; a lookup of a single node gives the first of them.
Nothing but the edge records counts, however nodes are told. -/
theorem targets_of_records (h : ofSchema schema = .ok g) (he : records schema "edges" = .ok edges)
    (named : g.StringNamed) (whole : ∀ record ∈ edges, ∃ i, recordIndex record = .int i)
    (hx : g.has (.string s) = true) (relation : String) :
    (∃ found : List (Edge × ℕ),
      found.Perm ((edges.map recordEdge).zipIdx.filter fun p => p.1.leaves (.string s) relation) ∧
        found.Pairwise (Precedes (edges.map recordEdge)) ∧
        g.targets (.string s) relation = .ok (found.map fun p => p.1.target) ∧
        g.target? (.string s) relation = .ok (found.map fun p => p.1.target).head?) ∧
      ∀ schema' g', ofSchema schema' = .ok g' → records schema' "edges" = .ok edges →
        g'.StringNamed → g'.has (.string s) = true →
          g'.targets (.string s) relation = g.targets (.string s) relation := by
  obtain ⟨wired, indexed, strings, told⟩ := ofSchema_edges h he named whole
  have looked := targets_eq_lookedUp named wired indexed hx strings told relation
  refine ⟨⟨lookedUp (edges.map recordEdge) s relation, ?_, ?_, looked, ?_⟩, ?_⟩
  · exact (List.mergeSort_perm _ _).trans (placedBy_perm strings relation)
  · exact pairwise_mergeSort_of_key (fun p : Edge × ℕ => p.1.place)
      (placedBy_pairwise strings relation)
  · rw [target?, looked]
    rfl
  · intro schema' g' h' he' named' hx'
    obtain ⟨wired', indexed', -, told'⟩ := ofSchema_edges h' he' named' whole
    rw [looked, targets_eq_lookedUp named' wired' indexed' hx' strings told' relation]

def tiedRecords : List Json := [
  .object [("from", .string "either"), ("to", .string "late"), ("relation", .string "symbol")],
  .object [("from", .string "either"), ("to", .string "early"), ("relation", .string "member")],
  .object [("from", .string "either"), ("to", .string "late"), ("relation", .string "member")],
  .object [("from", .string "either"), ("to", .string "early"), ("relation", .string "member"),
    ("index", .int 0)],
  .object [("from", .string "either"), ("to", .string "early"), ("relation", .string "member"),
    ("index", .int (-1))]]

def tiedSchema : Json := .object [
  ("nodes", .array [
    .object [("id", .string "either"), ("kind", .string "union"), ("text", .string "Either")],
    .object [("id", .string "early"), ("kind", .string "string")],
    .object [("id", .string "late"), ("kind", .string "number")],
    .object [("id", .string "either"), ("kind", .string "intersection")]]),
  ("edges", .array tiedRecords)]

def tiedGraph : TypeGraph where
  directed := true
  nodes := [
    ⟨.string "either", [("kind", .string "intersection"), ("text", .string "Either"),
      ("category", .string "type")]⟩,
    ⟨.string "early", [("kind", .string "string"), ("category", .string "type")]⟩,
    ⟨.string "late", [("kind", .string "number"), ("category", .string "type")]⟩]
  edges := [
    ⟨.string "either", .string "late", .int 0, some (.string "symbol"), some (.int 0)⟩,
    ⟨.string "either", .string "early", .int 0, some (.string "member"), some (.int 0)⟩,
    ⟨.string "either", .string "late", .int 1, some (.string "member"), some (.int 0)⟩,
    ⟨.string "either", .string "early", .int 1, some (.string "member"), some (.int 0)⟩,
    ⟨.string "either", .string "early", .int 2, some (.string "member"), some (.int (-1))⟩]

/-- The member of the lowest index comes first; of the others, the type that was linked first, as a
symbol, comes before the one that was told first. -/
theorem targets_tied : ofSchema tiedSchema = .ok tiedGraph ∧
    records tiedSchema "edges" = .ok tiedRecords ∧ tiedGraph.StringNamed ∧
    (∀ record ∈ tiedRecords, ∃ i, recordIndex record = .int i) ∧
    tiedGraph.has (.string "either") = true ∧
    tiedGraph.targets (.string "either") "member" =
      .ok [.string "early", .string "late", .string "early", .string "early"] ∧
    ∃ found : List (Edge × ℕ),
      found.Perm
        ((tiedRecords.map recordEdge).zipIdx.filter fun p => p.1.leaves (.string "either") "member") ∧
      found.Pairwise (Precedes (tiedRecords.map recordEdge)) ∧
      (found.map fun p => p.1.target) =
        [.string "early", .string "late", .string "early", .string "early"] := by
  have loaded : ofSchema tiedSchema = .ok tiedGraph := by rfl
  have looked : tiedGraph.targets (.string "either") "member" =
      .ok [.string "early", .string "late", .string "early", .string "early"] := by cbv
  have named : tiedGraph.StringNamed := by simp [StringNamed, tiedGraph]
  have whole : ∀ record ∈ tiedRecords, ∃ i, recordIndex record = .int i := by
    simp [tiedRecords, recordIndex, Json.field?, Json.lookup]
  have told : records tiedSchema "edges" = .ok tiedRecords := rfl
  have there : tiedGraph.has (.string "either") = true := rfl
  obtain ⟨⟨found, perm, ordered, ends, -⟩, -⟩ :=
    targets_of_records loaded told named whole there "member"
  exact ⟨loaded, told, named, whole, there, looked, found, perm, ordered,
    Except.ok.inj (ends.symm.trans looked)⟩

end TypeGraph

end PropertyMetadata
