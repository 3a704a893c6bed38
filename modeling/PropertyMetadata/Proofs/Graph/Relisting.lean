import PropertyMetadata.Proofs.Graph.Permutation

/-! The edges of a graph as they are listed, source by source and then target by target. Listing
them loses none and invents none, and what was brought together by target stays as it is when it is
brought together again. So a graph with its edges in this order, and under other keys, gives the
same answers. -/

namespace PropertyMetadata.TypeGraph

variable {g g' : TypeGraph} {es rest : List Edge} {seen ts : List Json} {t x : Json}
  {block : Json → List Edge}

/-! ### Bunches of bunches -/

/-- Where all members of a list but one give nothing, the one gives all. -/
theorem flatMap_eq_of_unique {α β : Type} {as : List α} {f : α → List β} {a : α} (ha : a ∈ as)
    (nodup : as.Nodup) (others : ∀ b ∈ as, b ≠ a → f b = []) : as.flatMap f = f a := by
  induction as with
  | nil => cases ha
  | cons b as ih =>
    obtain ⟨apart, nodup⟩ := List.nodup_cons.1 nodup
    obtain ⟨hb, has⟩ := List.forall_mem_cons.1 others
    rw [List.flatMap_cons]
    rcases List.mem_cons.1 ha with rfl | ha
    · have none : as.flatMap f = [] := by
        rw [List.flatMap_eq_nil_iff]
        intro b hb
        exact has b hb fun same => apart (same ▸ hb)
      rw [none, List.append_nil]
    · rw [hb fun same => apart (same ▸ ha), List.nil_append, ih ha nodup has]

theorem distinctTargets_seen (h : ∀ e ∈ es, seen.any e.target.alike = true) :
    distinctTargets seen (es ++ rest) = distinctTargets seen rest := by
  induction es with
  | nil => rfl
  | cons e es ih =>
    obtain ⟨he, hes⟩ := List.forall_mem_cons.1 h
    rw [List.cons_append, distinctTargets, if_pos he, ih hes]

theorem distinctTargets_flatMap (strings : ∀ t ∈ ts, ∃ s, t = .string s) (nodup : ts.Nodup)
    (blocks : ∀ t ∈ ts, block t ≠ [] ∧ ∀ e ∈ block t, e.target = t)
    (new : ∀ t ∈ ts, seen.any t.alike = false) : distinctTargets seen (ts.flatMap block) = ts := by
  induction ts generalizing seen with
  | nil => rfl
  | cons t ts ih =>
    obtain ⟨⟨s, rfl⟩, named⟩ := List.forall_mem_cons.1 strings
    obtain ⟨apart, nodup⟩ := List.nodup_cons.1 nodup
    obtain ⟨⟨nonempty, all⟩, blocks⟩ := List.forall_mem_cons.1 blocks
    obtain ⟨first, new⟩ := List.forall_mem_cons.1 new
    obtain ⟨e, es, shape⟩ := List.exists_cons_of_ne_nil nonempty
    rw [shape] at all
    obtain ⟨he, hes⟩ := List.forall_mem_cons.1 all
    have others : distinctTargets (.string s :: seen) (ts.flatMap block) = ts := by
      refine ih named nodup blocks fun t ht => ?_
      rw [List.any_cons, new t ht, Bool.or_false, ← Bool.not_eq_true, Json.alike_string_iff]
      rintro rfl
      exact apart ht
    rw [List.flatMap_cons, shape, List.cons_append, distinctTargets, he, if_neg (by simp [first]),
      distinctTargets_seen, others]
    intro e' he'
    rw [hes e' he', List.any_cons, Json.alike_string_self, Bool.true_or]

theorem distinctTargets_nodup (strings : ∀ e ∈ es, ∃ s, e.target = .string s) :
    (distinctTargets [] es).Nodup := by
  refine distinctTargets_apart.imp_of_mem fun {t t'} ht _ hne => ?_
  rintro rfl
  obtain ⟨⟨e, he, rfl⟩, -⟩ := mem_distinctTargets ht
  obtain ⟨s, hs⟩ := strings e he
  rw [hs, Json.alike_string_self] at hne
  contradiction

/-- What was brought together by target stays as it is. -/
theorem bunched_bunched (strings : ∀ e ∈ es, ∃ s, e.target = .string s) :
    bunched (bunched es) = bunched es := by
  let ts := distinctTargets [] es
  let block (t : Json) : List Edge :=
    (es.filter fun e => e.target.alike t).map fun e => { e with target := t }
  have named : ∀ t ∈ ts, ∃ s, t = .string s := by
    intro t ht
    obtain ⟨⟨e, he, rfl⟩, -⟩ := mem_distinctTargets ht
    exact strings e he
  have nodup : ts.Nodup := distinctTargets_nodup strings
  have all : ∀ t, ∀ e ∈ block t, e.target = t := by
    intro t e he
    obtain ⟨e', -, rfl⟩ := List.mem_map.1 he
    rfl
  have nonempty : ∀ t ∈ ts, block t ≠ [] := by
    intro t ht
    obtain ⟨⟨e, he, rfl⟩, -⟩ := mem_distinctTargets ht
    obtain ⟨s, hs⟩ := strings e he
    have kept : e ∈ es.filter fun e' => e'.target.alike e.target :=
      List.mem_filter.2 ⟨he, by rw [hs]; exact Json.alike_string_self s⟩
    exact List.ne_nil_of_mem (List.mem_map_of_mem kept)
  have targets : distinctTargets [] (ts.flatMap block) = ts :=
    distinctTargets_flatMap named nodup (fun t ht => ⟨nonempty t ht, all t⟩) fun _ _ => rfl
  have parts : ∀ t ∈ ts, (ts.flatMap block).filter (fun e => e.target.alike t) = block t := by
    intro t ht
    obtain ⟨s, rfl⟩ := named t ht
    rw [List.filter_flatMap, flatMap_eq_of_unique ht nodup]
    · refine List.filter_eq_self.2 fun e he => ?_
      rw [all _ e he]
      exact Json.alike_string_self s
    · intro t' _ other
      refine List.filter_eq_nil_iff.2 fun e he => ?_
      rw [all _ e he, Json.alike_string_iff]
      exact other
  show (distinctTargets [] (ts.flatMap block)).flatMap
    (fun t => ((ts.flatMap block).filter fun e => e.target.alike t).map
      fun e => { e with target := t }) = ts.flatMap block
  rw [targets]
  refine List.flatMap_congr fun t ht => ?_
  rw [parts t ht, List.map_map]
  rfl

/-! ### Listed edges -/

/-- The edges that leave a node are edges of the graph. -/
theorem mem_leaving (hg : g.StringNamed) (hw : g.Wired) {s : String} {e : Edge} :
    e ∈ g.leaving (.string s) ↔ e ∈ g.edges ∧ e.source = .string s := by
  have named : ∀ e ∈ g.edges.filter (fun e => e.source.alike (.string s)),
      ∃ s, e.target = .string s := fun e he => hg.string_of_has (hw.target e (List.mem_filter.1 he).1)
  rw [leaving, (bunched_perm named).mem_iff, List.mem_filter, Json.alike_string_iff]

theorem listed_eq (hg : g.StringNamed) (hw : g.Wired) :
    g.listed = g.nodes.flatMap fun n => g.leaving n.id := by
  rw [listed, if_pos hw.directed]
  refine List.flatMap_congr fun n hn => ?_
  obtain ⟨s, hs⟩ := hg n hn
  rw [hs]
  conv_rhs => rw [← List.map_id (g.leaving (.string s))]
  refine List.map_congr_left fun e he => ?_
  rw [← ((mem_leaving hg hw).1 he).2]
  rfl

/-- Listing edges loses none and invents none. -/
theorem listed_perm (hg : g.StringNamed) (hw : g.Wired) (hd : (g.nodes.map Node.id).Nodup) :
    g.listed.Perm g.edges := by
  have parts : ∀ n ∈ g.nodes,
      (g.leaving n.id).Perm (g.edges.filter fun e => e.source.alike n.id) := fun n _ =>
    bunched_perm fun e he => hg.string_of_has (hw.target e (List.mem_filter.1 he).1)
  rw [listed_eq hg hw]
  refine (List.Perm.flatMap_left _ parts).trans
    (flatMap_filter_perm g.edges g.nodes (fun e n => e.source.alike n.id) (fun e he => ?_) ?_)
  · obtain ⟨n, hn⟩ := Option.isSome_iff_exists.1 (hw.source e he)
    obtain ⟨hmem, hid, s, hs⟩ := hg.node?_eq_some hn
    exact ⟨n, hmem, by rw [hid, hs, Json.alike_string_self]⟩
  · refine (List.pairwise_map.1 hd).imp_of_mem fun {n n'} hn hn' other e _ same => ?_
    obtain ⟨s, hs⟩ := hg n hn
    obtain ⟨s', hs'⟩ := hg n' hn'
    rw [hs, Json.alike_string_iff] at same
    rw [← Bool.not_eq_true, hs', Json.alike_string_iff, same, ← hs, ← hs']
    exact other

/-- The listed edges that leave a node are the edges that leave it, by target. -/
theorem filter_listed (hg : g.StringNamed) (hw : g.Wired) (hd : (g.nodes.map Node.id).Nodup)
    (hx : g.has x = true) : (g.listed.filter fun e => e.source.alike x) = g.leaving x := by
  obtain ⟨n, hn⟩ := Option.isSome_iff_exists.1 hx
  obtain ⟨hmem, rfl, s, hs⟩ := hg.node?_eq_some hn
  rw [listed_eq hg hw, List.filter_flatMap, flatMap_eq_of_unique hmem hd.of_map]
  · refine List.filter_eq_self.2 fun e he => ?_
    rw [hs] at he ⊢
    rw [((mem_leaving hg hw).1 he).2]
    exact Json.alike_string_self s
  · intro n' hn' other
    obtain ⟨s', hs'⟩ := hg n' hn'
    refine List.filter_eq_nil_iff.2 fun e he => ?_
    rw [hs'] at he
    rw [hs, Json.alike_string_iff, ((mem_leaving hg hw).1 he).2, ← hs, ← hs']
    exact fun same => other (List.inj_on_of_nodup_map hd hn' hmem same)

/-- A graph with its edges as they are listed, under other keys. -/
def relisted (g : TypeGraph) (rekey : Json → Json) : TypeGraph :=
  { g with edges := g.listed.map fun e => { e with key := rekey e.key } }

/-- The order of edges from different sources, or to different targets, makes no difference, and
neither do keys. -/
theorem targets_relisted (hg : g.StringNamed) (hw : g.Wired) (hd : (g.nodes.map Node.id).Nodup)
    (rekey : Json → Json) : (g.relisted rekey).targets = g.targets := by
  funext x relation
  cases hx : g.has x with
  | false =>
    have absent := node?_of_not_has hx
    have absent' : (g.relisted rekey).node? x = none := absent
    rw [TypeGraph.targets, TypeGraph.targets, attributes_eq_error absent,
      attributes_eq_error absent']
    rfl
  | true =>
    have strings : ∀ e ∈ g.edges.filter (fun e => e.source.alike x), ∃ s, e.target = .string s :=
      fun e he => hg.string_of_has (hw.target e (List.mem_filter.1 he).1)
    have own : ((g.relisted rekey).edges.filter fun e => e.source.alike x) =
        (g.leaving x).map fun e => { e with key := rekey e.key } := by
      rw [← filter_listed hg hw hd hx, relisted, List.filter_map]
      rfl
    have edges : ((g.relisted rekey).leaving x).map Edge.keyless =
        (g.leaving x).map (Edge.along id) := by
      calc ((g.relisted rekey).leaving x).map Edge.keyless
        _ = bunched ((g.leaving x).map Edge.keyless) := by
          rw [leaving, own, ← Edge.along_id, ← bunched_along .id, List.map_map]
          rfl
        _ = (bunched (g.leaving x)).map (Edge.along id) := bunched_along .id _
        _ = (g.leaving x).map (Edge.along id) := by rw [leaving, bunched_bunched strings]
    have hx' : (g.relisted rekey).has x = true := hx
    have directed : (g.relisted rekey).directed = g.directed := rfl
    rw [targets_of_leaving directed hx hx' edges relation]
    cases g.targets x relation <;> simp [Except.map]

end PropertyMetadata.TypeGraph
