import Mathlib.Data.List.Permutation
import PropertyMetadata.Proofs.Graph.Names

/-! What a graph looks up. The ends of the edges of a relation are the targets of these edges, none
lost and none invented, although the edges are brought together by target on the way; where the
positions differ, their order decides. -/

namespace PropertyMetadata

/-- An edge of a relation that leaves a node. -/
def Edge.leaves (id : Json) (relation : String) (e : Edge) : Bool :=
  e.source.alike id && e.relation.any fun r => r.alike (.string relation)

theorem Edge.leaves_string_iff {e : Edge} {s relation : String} :
    e.leaves (.string s) relation = true ↔
      e.source = .string s ∧ e.relation = some (.string relation) := by
  rw [Edge.leaves, Bool.and_eq_true, Json.alike_string_iff]
  cases e.relation <;> simp [Json.alike_string_iff]

theorem Edge.relation_of_leaves {e : Edge} {id : Json} {relation : String}
    (h : e.leaves id relation = true) : e.relation = some (.string relation) := by
  rw [Edge.leaves, Bool.and_eq_true] at h
  simpa [Option.any_eq_true, Json.alike_string_iff] using h.2

/-- The position of an edge whose index is a whole number. -/
def Edge.place (e : Edge) : Int :=
  match e.index with
  | some (.int i) => i
  | _ => 0

def Edge.Indexed (e : Edge) : Prop := ∃ i, e.index = some (.int i)

section Keys

variable {α : Type} (key : α → Int)

theorem trans_of_key (a b c : α) (hab : decide (key a ≤ key b) = true)
    (hbc : decide (key b ≤ key c) = true) : decide (key a ≤ key c) = true := by
  simp only [decide_eq_true_eq] at hab hbc ⊢
  omega

theorem total_of_key (a b : α) : (decide (key a ≤ key b) || decide (key b ≤ key a)) = true := by
  simp only [Bool.or_eq_true, decide_eq_true_eq]
  omega

end Keys

namespace TypeGraph

theorem position_eq {e : Edge} (h : e.Indexed) : Edge.position e = .ok e.place := by
  obtain ⟨i, hi⟩ := h
  simp [Edge.position, Edge.place, hi, Json.whole]

/-! ### Bunches -/

/-- Cutting a list into the parts that belong to several marks, one each, loses nothing. -/
theorem flatMap_filter_perm {α β : Type} (as : List α) (ts : List β) (same : α → β → Bool)
    (covered : ∀ a ∈ as, ∃ t ∈ ts, same a t = true)
    (apart : ts.Pairwise fun t t' => ∀ a ∈ as, same a t = true → same a t' = false) :
    (ts.flatMap fun t => as.filter (same · t)).Perm as := by
  induction ts generalizing as with
  | nil =>
    have : as = [] := List.eq_nil_iff_forall_not_mem.2 fun a ha => by simpa using covered a ha
    simp [this]
  | cons t ts ih =>
    obtain ⟨head, tail⟩ := List.pairwise_cons.1 apart
    have rest : (ts.flatMap fun t' => as.filter (same · t')) =
        ts.flatMap fun t' => (as.filter fun a => !same a t).filter (same · t') := by
      refine List.flatMap_congr fun t' ht' => ?_
      rw [List.filter_filter]
      refine List.filter_congr fun a ha => ?_
      cases h : same a t
      · simp
      · simp [head t' ht' a ha h]
    have others := ih (as.filter fun a => !same a t)
      (fun a ha => by
        obtain ⟨ha, hne⟩ := List.mem_filter.1 ha
        obtain ⟨t', ht', hs⟩ := covered a ha
        rcases List.mem_cons.1 ht' with rfl | ht'
        · simp [hs] at hne
        · exact ⟨t', ht', hs⟩)
      (tail.imp fun h a ha => h a (List.mem_filter.1 ha).1)
    rw [List.flatMap_cons, rest]
    exact (others.append_left _).trans (List.filter_append_perm _ as)

variable {es : List Edge} {seen : List Json} {t : Json}

theorem mem_distinctTargets (h : t ∈ distinctTargets seen es) :
    (∃ e ∈ es, e.target = t) ∧ seen.any t.alike = false := by
  induction es generalizing seen with
  | nil => simp [distinctTargets] at h
  | cons e es ih =>
    simp only [distinctTargets] at h
    split at h
    next =>
      obtain ⟨⟨e', he', ht⟩, hseen⟩ := ih h
      exact ⟨⟨e', List.mem_cons_of_mem _ he', ht⟩, hseen⟩
    next hnew =>
      rcases List.mem_cons.1 h with rfl | h
      · exact ⟨⟨e, List.mem_cons_self, rfl⟩, by simpa using hnew⟩
      · obtain ⟨⟨e', he', ht⟩, hseen⟩ := ih h
        rw [List.any_cons, Bool.or_eq_false_iff] at hseen
        exact ⟨⟨e', List.mem_cons_of_mem _ he', ht⟩, hseen.2⟩

theorem distinctTargets_covers (hs : ∀ e ∈ es, e.target.alike e.target = true) (seen : List Json)
    {e : Edge} (he : e ∈ es) :
    seen.any e.target.alike = true ∨ ∃ t ∈ distinctTargets seen es, e.target.alike t = true := by
  induction es generalizing seen with
  | nil => simp at he
  | cons e' es ih =>
    simp only [distinctTargets]
    have later := ih fun e he => hs e (List.mem_cons_of_mem _ he)
    split
    next hold =>
      rcases List.mem_cons.1 he with rfl | he
      · exact .inl hold
      · exact later seen he
    next hnew =>
      rcases List.mem_cons.1 he with rfl | he
      · exact .inr ⟨e.target, List.mem_cons_self, hs e List.mem_cons_self⟩
      · rcases later (e'.target :: seen) he with hany | ⟨t, ht, ha⟩
        · rw [List.any_cons, Bool.or_eq_true] at hany
          rcases hany with ha | hany
          · exact .inr ⟨e'.target, List.mem_cons_self, ha⟩
          · exact .inl hany
        · exact .inr ⟨t, List.mem_cons_of_mem _ ht, ha⟩

theorem distinctTargets_apart :
    (distinctTargets seen es).Pairwise fun t t' => t'.alike t = false := by
  induction es generalizing seen with
  | nil => exact .nil
  | cons e es ih =>
    simp only [distinctTargets]
    split
    · exact ih
    · refine List.pairwise_cons.2 ⟨fun t' ht' => ?_, ih⟩
      have := (mem_distinctTargets ht').2
      rw [List.any_cons, Bool.or_eq_false_iff] at this
      exact this.1

/-- Members of a list brought together by the targets of their edges, in the order in which each
target is met first. -/
def byTarget {α : Type} (f : α → Edge) (as : List α) : List α :=
  (distinctTargets [] (as.map f)).flatMap fun t => as.filter fun a => (f a).target.alike t

section ByTarget

variable {α : Type} {f : α → Edge} {as : List α}

/-- Edges are brought together by target as what they are the edges of. -/
theorem bunched_map (hs : ∀ a ∈ as, ∃ s, (f a).target = .string s) :
    bunched (as.map f) = (byTarget f as).map f := by
  rw [bunched, byTarget, List.map_flatMap]
  refine List.flatMap_congr fun t ht => ?_
  obtain ⟨⟨e, he, rfl⟩, -⟩ := mem_distinctTargets ht
  obtain ⟨a', ha', rfl⟩ := List.mem_map.1 he
  obtain ⟨s, hs'⟩ := hs a' ha'
  rw [List.filter_map, List.map_map]
  refine List.map_congr_left fun a ha => ?_
  have same := (List.mem_filter.1 ha).2
  rw [Function.comp_apply, hs', Json.alike_string_iff] at same
  rw [Function.comp_apply, hs', ← same]

theorem byTarget_perm (hs : ∀ a ∈ as, ∃ s, (f a).target = .string s) :
    (byTarget f as).Perm as := by
  refine flatMap_filter_perm as _ (fun a t => (f a).target.alike t) (fun a ha => ?_) ?_
  · have self : ∀ e ∈ as.map f, e.target.alike e.target = true := by
      refine List.forall_mem_map.2 fun a' ha' => ?_
      obtain ⟨s, hs⟩ := hs a' ha'
      rw [hs]
      exact Json.alike_string_self s
    simpa using distinctTargets_covers self [] (List.mem_map_of_mem ha)
  · refine distinctTargets_apart.imp fun {t t'} hne a ha ht => ?_
    obtain ⟨s, hs'⟩ := hs a ha
    -- the target is a string, so it is the first mark itself and not like the second
    rw [hs', Json.string_alike_iff] at ht
    rw [ht] at hne
    rw [hs', ← Bool.not_eq_true, Json.string_alike_iff]
    rintro rfl
    rw [Json.alike_string_self] at hne
    contradiction

end ByTarget

theorem bunched_perm (hs : ∀ e ∈ es, ∃ s, e.target = .string s) : (bunched es).Perm es := by
  have named := bunched_map (f := id) hs
  rw [List.map_id, List.map_id] at named
  rw [named]
  exact byTarget_perm hs

/-! ### Lookups -/

variable {g : TypeGraph} {id : Json} {relation : String}

/-- Every edge joins two nodes in one direction, and is told apart by a whole number. -/
structure Wired (g : TypeGraph) : Prop where
  directed : g.directed = true
  source : ∀ e ∈ g.edges, g.has e.source = true
  target : ∀ e ∈ g.edges, g.has e.target = true
  key : ∀ e ∈ g.edges, ∃ i, e.key = .int i

def Indexed (g : TypeGraph) : Prop := ∀ e ∈ g.edges, e.Indexed

theorem StringNamed.node?_eq_some_iff {n : Node} (hg : g.StringNamed)
    (hd : (g.nodes.map Node.id).Nodup) : g.node? id = some n ↔ n ∈ g.nodes ∧ n.id = id := by
  constructor
  · intro h
    obtain ⟨hn, hid, -⟩ := hg.node?_eq_some h
    exact ⟨hn, hid⟩
  · rintro ⟨hn, rfl⟩
    obtain ⟨s, hs⟩ := hg n hn
    have found : g.has n.id = true := by
      rw [hs, has_string_iff, ← hs]
      exact List.mem_map_of_mem hn
    obtain ⟨m, hm⟩ := Option.isSome_iff_exists.1 found
    obtain ⟨hmem, hid, -⟩ := hg.node?_eq_some hm
    obtain rfl := List.inj_on_of_nodup_map hd hmem hn hid
    exact hm

theorem attributes_of_has (h : g.has id = true) : ∃ fields, g.attributes id = .ok fields := by
  obtain ⟨n, hn⟩ := Option.isSome_iff_exists.1 h
  exact ⟨_, attributes_of_node? hn⟩

theorem related_perm (hg : g.StringNamed) (hw : g.Wired) (id : Json) (relation : String) :
    (g.related id relation).Perm (g.edges.filter (Edge.leaves id relation)) := by
  have named : ∀ e ∈ g.edges.filter (fun e => e.source.alike id), ∃ s, e.target = .string s :=
    fun e he => hg.string_of_has (hw.target e (List.mem_filter.1 he).1)
  have := (bunched_perm named).filter fun e => e.relation.any fun r => r.alike (.string relation)
  rw [List.filter_filter] at this
  refine this.trans (.of_eq (List.filter_congr fun e _ => ?_))
  exact Bool.and_comm _ _

theorem mapM_eq_ok {α β : Type} {f : α → Except Fault β} {h : α → β} {as : List α}
    (hf : ∀ a ∈ as, f a = .ok (h a)) : as.mapM f = .ok (as.map h) := by
  induction as with
  | nil => rfl
  | cons a as ih =>
    rw [List.mapM_cons, hf a List.mem_cons_self, ih fun b hb => hf b (List.mem_cons_of_mem _ hb)]
    rfl

theorem mapM_eq_ok_iff {α β : Type} {f : α → Except Fault β} {as : List α} {bs : List β} :
    as.mapM f = .ok bs ↔ List.Forall₂ (fun a b => f a = .ok b) as bs := by
  induction as generalizing bs with
  | nil => cases bs <;> simp [pure, Except.pure]
  | cons a as ih =>
    rw [List.mapM_cons]
    constructor
    · intro h
      obtain ⟨b, hb, h⟩ := bind_eq_ok_iff.1 h
      obtain ⟨bs', hbs, h⟩ := bind_eq_ok_iff.1 h
      obtain rfl := Except.ok.inj h
      exact .cons hb (ih.1 hbs)
    · intro h
      cases h with
      | cons hb hbs => rw [hb, ih.2 hbs]; rfl

theorem exists_edge_of_mem_targets (hg : g.StringNamed) (hw : g.Wired) {ts : List Json} {t : Json}
    (h : g.targets id relation = .ok ts) (ht : t ∈ ts) :
    ∃ e ∈ g.edges, e.leaves id relation = true ∧ e.target = t := by
  unfold targets at h
  obtain ⟨fields, -, h⟩ := bind_eq_ok_iff.1 h
  rw [hw.directed] at h
  obtain ⟨placed, hp, h⟩ := bind_eq_ok_iff.1 h
  obtain rfl := Except.ok.inj h
  obtain ⟨p, hmem, rfl⟩ := List.mem_map.1 ht
  obtain ⟨e, he, hpos⟩ : ∃ e ∈ g.related id relation,
      (do return (← Edge.position e, e.target) : Except Fault (Int × Json)) = .ok p := by
    have hmem := (List.mergeSort_perm placed _).mem_iff.1 hmem
    obtain ⟨i, hi, rfl⟩ := List.mem_iff_getElem.1 hmem
    have asked := mapM_eq_ok_iff.1 hp
    have hi' : i < (g.related id relation).length := asked.length_eq ▸ hi
    exact ⟨_, List.getElem_mem hi', asked.get hi' hi⟩
  obtain ⟨i, -, hi⟩ := bind_eq_ok_iff.1 hpos
  obtain rfl := Except.ok.inj hi
  obtain ⟨hmem, hl⟩ := List.mem_filter.1 ((related_perm hg hw id relation).mem_iff.1 he)
  exact ⟨e, hmem, hl, rfl⟩

def sorted (g : TypeGraph) (id : Json) (relation : String) : List (Int × Json) :=
  ((g.related id relation).map fun e => (e.place, e.target)).mergeSort
    fun a b => decide (a.1 ≤ b.1)

theorem targets_eq (hg : g.StringNamed) (hw : g.Wired) (hi : g.Indexed) (h : g.has id = true)
    (relation : String) : g.targets id relation = .ok ((g.sorted id relation).map (·.2)) := by
  obtain ⟨fields, hf⟩ := attributes_of_has h
  have indexed : ∀ e ∈ g.related id relation, e.Indexed := fun e he =>
    hi e (List.mem_filter.1 ((related_perm hg hw id relation).mem_iff.1 he)).1
  have placed : ∀ e ∈ g.related id relation,
      (do return (← Edge.position e, e.target) : Except Fault (Int × Json)) =
        .ok (e.place, e.target) := by
    intro e he
    rw [position_eq (indexed e he)]
    rfl
  simp only [targets, hf, hw.directed, bind, Except.bind, pure, Except.pure] at placed ⊢
  rw [mapM_eq_ok placed]
  rfl

theorem sorted_perm (hg : g.StringNamed) (hw : g.Wired) (id : Json) (relation : String) :
    (g.sorted id relation).Perm
      ((g.edges.filter (Edge.leaves id relation)).map fun e => (e.place, e.target)) :=
  (List.mergeSort_perm _ _).trans ((related_perm hg hw id relation).map _)

theorem targets_perm (hg : g.StringNamed) (hw : g.Wired) (hi : g.Indexed) (h : g.has id = true)
    (relation : String) : ∃ ts, g.targets id relation = .ok ts ∧
      ts.Perm ((g.edges.filter (Edge.leaves id relation)).map Edge.target) := by
  refine ⟨_, targets_eq hg hw hi h relation, ?_⟩
  have := (sorted_perm hg hw id relation).map (·.2)
  rwa [List.map_map] at this

theorem sorted_pairwise (g : TypeGraph) (id : Json) (relation : String) :
    (g.sorted id relation).Pairwise fun a b => a.1 ≤ b.1 := by
  have sorted := List.pairwise_mergeSort (trans_of_key Prod.fst) (total_of_key Prod.fst)
    ((g.related id relation).map fun e => (e.place, e.target))
  exact sorted.imp of_decide_eq_true

/-- A list of the edges in the order of different positions is the order of the lookup. -/
theorem sorted_eq (hg : g.StringNamed) (hw : g.Wired) {list : List (Int × Json)}
    (hp : ((g.edges.filter (Edge.leaves id relation)).map fun e => (e.place, e.target)).Perm list)
    (hl : list.Pairwise fun a b => a.1 < b.1) : g.sorted id relation = list := by
  have perm := (sorted_perm hg hw id relation).trans hp
  refine List.Perm.eq_of_pairwise (fun a b ha hb hab hba => ?_) (g.sorted_pairwise id relation)
    (hl.imp Int.le_of_lt) perm
  have nodup : (list.map (·.1)).Nodup := List.pairwise_map.2 (hl.imp Int.ne_of_lt)
  exact List.inj_on_of_nodup_map nodup (perm.mem_iff.1 ha) hb (Int.le_antisymm hab hba)

end TypeGraph

end PropertyMetadata
