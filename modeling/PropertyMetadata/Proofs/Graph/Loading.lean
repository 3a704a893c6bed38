import PropertyMetadata.Graph.Schema
import PropertyMetadata.Proofs.Graph.Lookup

/-! What loading a schema makes of its records. Every edge record that is accepted becomes an edge
of its own behind the edges before, between nodes that are there, and is told apart from the others
by a new key. -/

namespace PropertyMetadata

namespace Json

theorem int_alike_iff {i : Int} {x : Json} (hx : ∃ j, x = int j) :
    (int i).alike x = true ↔ x = int i := by
  obtain ⟨j, rfl⟩ := hx
  simp only [alike, number?, sameNumber, beq_iff_eq, int.injEq]
  exact eq_comm

end Json

namespace TypeGraph

variable {g g' : TypeGraph} {source target record : Json} {relation index : Option Json}

/-! ### Keys -/

/-- A key that is taken after all shows that all keys tried before it are taken, too. -/
theorem mem_of_freeKey_mem {keys : List Json} {fuel n : Nat}
    (hk : ∀ k ∈ keys, ∃ i, k = .int i) (h : Json.int (freeKey keys fuel n) ∈ keys) :
    ∀ j ≤ fuel, Json.int ((n + j : Nat) : Int) ∈ keys := by
  induction fuel generalizing n with
  | zero =>
    intro j hj
    obtain rfl := Nat.le_zero.1 hj
    exact h
  | succ fuel ih =>
    simp only [freeKey] at h
    split at h
    next taken =>
      obtain ⟨k, hmem, ha⟩ := List.any_eq_true.1 taken
      rw [Json.int_alike_iff (hk k hmem)] at ha
      intro j hj
      cases j with
      | zero => exact ha ▸ hmem
      | succ j =>
        have := ih h j (by omega)
        rwa [show n + 1 + j = n + (j + 1) by omega] at this
    next free =>
      refine absurd ?_ free
      obtain ⟨i, hi⟩ := hk _ h
      exact List.any_eq_true.2 ⟨_, h, (Json.int_alike_iff (hk _ h)).2 rfl⟩

/-- There are more keys to try than keys that can be taken. -/
theorem freeKey_not_mem {keys : List Json} (hk : ∀ k ∈ keys, ∃ i, k = .int i) (n : Nat) :
    Json.int (freeKey keys keys.length n) ∉ keys := by
  intro h
  have tried := mem_of_freeKey_mem hk h
  have nodup :
      ((List.range (keys.length + 1)).map fun j => Json.int ((n + j : Nat) : Int)).Nodup := by
    refine List.Nodup.map (fun i j hij => ?_) List.nodup_range
    simp only [Json.int.injEq] at hij
    omega
  have taken :
      ((List.range (keys.length + 1)).map fun j => Json.int ((n + j : Nat) : Int)) ⊆ keys := by
    intro k hkey
    obtain ⟨j, hj, rfl⟩ := List.mem_map.1 hkey
    exact tried j (Nat.le_of_lt_succ (List.mem_range.1 hj))
  have := nodup.length_le_of_subset taken
  rw [List.length_map, List.length_range] at this
  omega

/-- The key of the next edge between two nodes. -/
def newKey (g : TypeGraph) (source target : Json) : Nat :=
  let keys := (g.edges.filter (g.joins source target)).map Edge.key
  freeKey keys keys.length keys.length

theorem Wired.addEdge_eq (hw : g.Wired) (source target : Json) (relation index : Option Json) :
    g.addEdge source target none relation index = { g with edges :=
      g.edges ++ [⟨source, target, .int (g.newKey source target), relation, index⟩] } := by
  have ints : ∀ k ∈ (g.edges.filter (g.joins source target)).map Edge.key, ∃ i, k = .int i := by
    intro k hk
    obtain ⟨e, he, rfl⟩ := List.mem_map.1 hk
    exact hw.key e (List.mem_filter.1 he).1
  have free := freeKey_not_mem ints ((g.edges.filter (g.joins source target)).map Edge.key).length
  refine if_neg fun taken => free ?_
  obtain ⟨k, hk, ha⟩ := List.any_eq_true.1 taken
  exact (Json.int_alike_iff (ints k hk)).1 ha ▸ hk

theorem Wired.addEdge (hw : g.Wired) (hs : g.has source = true) (ht : g.has target = true) :
    (g.addEdge source target none relation index).Wired := by
  rw [hw.addEdge_eq]
  have all {P : Edge → Prop} (old : ∀ e ∈ g.edges, P e)
      (new : P ⟨source, target, .int (g.newKey source target), relation, index⟩) :
      ∀ e ∈ g.edges ++ [⟨source, target, .int (g.newKey source target), relation, index⟩], P e :=
    List.forall_mem_append.2 ⟨old, by simpa using new⟩
  exact ⟨hw.directed, all hw.source hs, all hw.target ht, all hw.key ⟨_, rfl⟩⟩

/-! ### Records -/

/-- The index that an edge record gives, or the one that it leaves out. -/
def recordIndex (record : Json) : Json := (record.field? "index").getD (.int 0)

theorem addEdgeRecord_eq_ok_iff : addEdgeRecord g record = .ok g' ↔
    ∃ source target, record.required "from" = .ok source ∧ record.required "to" = .ok target ∧
      g.has source = true ∧ g.has target = true ∧
      isOneOf (recordRelation record) relations = true ∧
      g' = g.addEdge source target none (some (recordRelation record))
        (some (recordIndex record)) := by
  unfold addEdgeRecord recordIndex
  rw [bind_eq_ok_iff]
  refine exists_congr fun source => ?_
  rw [bind_eq_ok_iff, ← exists_and_left]
  refine exists_congr fun target => and_congr_right fun _ => and_congr_right fun _ => ?_
  by_cases hs : g.has source = true
  · by_cases ht : g.has target = true
    · by_cases hr : isOneOf (recordRelation record) relations = true
      · simp [hs, ht, hr, pure, Except.pure, eq_comm]
      · simp [hs, ht, hr]
    · simp [hs, ht]
  · simp [hs]

theorem Wired.addEdgeRecord (hw : g.Wired) (h : addEdgeRecord g record = .ok g') : g'.Wired := by
  obtain ⟨source, target, -, -, hs, ht, -, rfl⟩ := addEdgeRecord_eq_ok_iff.1 h
  exact hw.addEdge hs ht

theorem addNodeRecord_keeps (h : addNodeRecord g record = .ok g') :
    g'.directed = g.directed ∧ g'.edges = g.edges := by
  simp only [addNodeRecord, bind_eq_ok_iff] at h
  obtain ⟨id, -, attributes, -, h⟩ := h
  unfold addNode at h
  split at h
  · contradiction
  · obtain ⟨-, -, h⟩ := bind_eq_ok_iff.1 h
    split at h
    · contradiction
    · obtain rfl := Except.ok.inj h
      unfold setNode
      split <;> exact ⟨rfl, rfl⟩

/-- What every accepted step keeps, accepted steps one after the other keep. -/
theorem foldlM_keeps {σ α : Type} {P : σ → Prop} {f : σ → α → Except Fault σ}
    (step : ∀ s a s', P s → f s a = .ok s' → P s') {as : List α} {s s' : σ} (hs : P s)
    (h : as.foldlM f s = .ok s') : P s' := by
  induction as generalizing s with
  | nil =>
    obtain rfl := Except.ok.inj h
    exact hs
  | cons a as ih =>
    rw [List.foldlM_cons, bind_eq_ok_iff] at h
    obtain ⟨s₁, h₁, h⟩ := h
    exact ih (step s a s₁ hs h₁) h

theorem ofSchema_eq_ok_iff {schema : Json} : ofSchema schema = .ok g ↔
    ∃ nodes bare edges, records schema "nodes" = .ok nodes ∧
      nodes.foldlM addNodeRecord (empty true) = .ok bare ∧
      records schema "edges" = .ok edges ∧ edges.foldlM addEdgeRecord bare = .ok g := by
  simp only [ofSchema, bind_eq_ok_iff]
  constructor
  · rintro ⟨nodes, hn, bare, hb, edges, he, hg⟩
    exact ⟨nodes, bare, edges, hn, hb, he, hg⟩
  · rintro ⟨nodes, bare, edges, hn, hb, he, hg⟩
    exact ⟨nodes, hn, bare, hb, edges, he, hg⟩

theorem bare_wired {nodes : List Json} (h : nodes.foldlM addNodeRecord (empty true) = .ok g) :
    g.Wired := by
  obtain ⟨hd, he⟩ : g.directed = true ∧ g.edges = [] := by
    refine foldlM_keeps (P := fun g => g.directed = true ∧ g.edges = []) ?_ ⟨rfl, rfl⟩ h
    rintro s record s' ⟨hd, he⟩ hstep
    obtain ⟨hd', he'⟩ := addNodeRecord_keeps hstep
    exact ⟨hd'.trans hd, he'.trans he⟩
  exact ⟨hd, by simp [he], by simp [he], by simp [he]⟩

/-- The edges of an accepted schema join nodes that are there. -/
theorem ofSchema_wired {schema : Json} (h : ofSchema schema = .ok g) : g.Wired := by
  obtain ⟨nodes, bare, edges, -, hb, -, hg⟩ := ofSchema_eq_ok_iff.1 h
  exact foldlM_keeps (fun _ _ _ hw => hw.addEdgeRecord) (bare_wired hb) hg

end TypeGraph

end PropertyMetadata
