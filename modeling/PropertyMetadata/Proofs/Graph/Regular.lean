import PropertyMetadata.Proofs.Graph.Answering

/-! Regular graphs, which answer every question on their nodes. What a compiler hands over is
regular: names are strings, indices are whole numbers, flags can be read, and a symbol that is the
parent of another one declares a type. -/

namespace PropertyMetadata

namespace TypeGraph

variable {g : TypeGraph}

/-- A graph of proper names, indices and flags, in which every parent declares a type. -/
structure Regular (g : TypeGraph) : Prop where
  named : g.StringNamed
  indexed : g.Indexed
  flags : ∀ n ∈ g.nodes, ∃ f, g.flags n.id = .ok f
  declared : ∀ e ∈ g.edges, e.relation = some (.string "parent") →
    ∃ e' ∈ g.edges, e'.source = e.target ∧ e'.relation = some (.string "declared_type")

namespace Regular

theorem answering (hr : g.Regular) (hw : g.Wired) : g.Answering where
  directed := hw.directed
  target := hw.target
  placed e he := ⟨e.place, position_eq (hr.indexed e he)⟩
  flags id h := by
    obtain ⟨n, hn⟩ := Option.isSome_iff_exists.1 h
    obtain ⟨hmem, rfl, -⟩ := hr.named.node?_eq_some hn
    exact hr.flags n hmem
  declared e he hp := by
    obtain ⟨e', he', source, hrel⟩ := hr.declared e he hp
    refine ⟨e', he', ?_⟩
    rw [Edge.leaves, source, hrel, alike_self (hw.target e he)]
    simp [Json.alike_string_iff]

theorem settled (hr : g.Regular) (hw : g.Wired) {ts : List Json} (h : ∀ t ∈ ts, g.has t = true) :
    g.checker.Settled ts where
  undefined t ht := kindIn_of_has (h t ht) ["undefined"]
  enum t ht := by
    rcases (hr.answering hw).enumOfMember_cases (h t ht) with none | ⟨e, some, node⟩
    · exact .inl none
    · obtain ⟨s, rfl⟩ := hr.named.string_of_has node
      exact .inr ⟨_, some, fun d => Json.alike_string_iff⟩

end Regular

end TypeGraph

end PropertyMetadata
