import PropertyMetadata.Proofs.Graph.Likeness
import PropertyMetadata.Proofs.NormalForm
import PropertyMetadata.Proofs.Rules

/-! The layers of arrays. The element type of a type can be asked for by itself, again and again,
until it is no array; resolving the type goes down the same layers. So the two agree: a type comes
to what is left without its layers, in as many brackets, where each layer uses up one step of a
bound on the depth. Where a layer has no element type there is nothing to resolve. -/

namespace PropertyMetadata

/-- Results in brackets are unresolved, for the same reason, if they were so without. -/
theorem map_iterate_bracketed_unresolved_iff {k : ℕ} {o : Except Fault Resolution}
    {reason : String} : o.map (Resolution.bracketed^[k]) = .ok (.unresolved reason) ↔
      o = .ok (.unresolved reason) := by
  cases o with
  | error e => simp [Except.map]
  | ok r =>
    cases r with
    | descriptor d => simp [Except.map, Resolution.iterate_bracketed_descriptor]
    | unresolved s => simp [Except.map, Resolution.iterate_bracketed_unresolved]

namespace Checker

variable {Handle : Type} {c : Checker Handle} {t u b : Handle} {k m : ℕ}
  {o : Option (Handle × Bool)} {r : Except Fault Resolution}

/-! ### One layer -/

/-- What the element type of a type is told from. -/
theorem elementType?_cases (h : c.elementType? t = .ok o) :
    (∃ u us, c.is .array t = .ok true ∧ c.typeArguments t = .ok (u :: us) ∧ o = some (u, true)) ∨
      (c.is .array t = .ok true ∧ c.typeArguments t = .ok [] ∧ o = none) ∨
      c.is .array t = .ok false ∧ o = some (t, false) := by
  obtain ⟨array, asked, h⟩ := bind_eq_ok_iff.1 h
  cases array with
  | false => exact .inr (.inr ⟨asked, (Except.ok.inj h).symm⟩)
  | true =>
    obtain ⟨arguments, given, h⟩ := bind_eq_ok_iff.1 h
    cases arguments with
    | nil => exact .inr (.inl ⟨asked, given, (Except.ok.inj h).symm⟩)
    | cons u us => exact .inl ⟨u, us, asked, given, (Except.ok.inj h).symm⟩

/-- What is no array is its own element type. -/
theorem eq_of_elementType? (h : c.elementType? t = .ok (some (b, false))) : b = t := by
  rcases elementType?_cases h with ⟨u, us, -, -, same⟩ | ⟨-, -, same⟩ | ⟨-, same⟩
  · cases same
  · cases same
  · cases same
    rfl

theorem step_layer (h : c.elementType? t = .ok (some (u, true))) :
    c.step t = .ok (.element u) := by
  rcases elementType?_cases h with ⟨v, us, array, given, same⟩ | ⟨-, -, same⟩ | ⟨-, same⟩
  · cases same
    exact step_array array given
  · cases same
  · cases same

/-- The reason for which an array without element type is unresolved. -/
def elementless : Resolution := .unresolved "array without element type"

theorem step_elementless (h : c.elementType? t = .ok none) :
    c.step t = .ok (.answer elementless) := by
  rcases elementType?_cases h with ⟨v, us, -, -, same⟩ | ⟨array, given, -⟩ | ⟨-, same⟩
  · cases same
  · simp [step, array, given, elementless, bind, Except.bind, pure, Except.pure]
  · cases same

/-! ### All layers -/

/-- The element type of a type is asked for again and again: so many layers come off, until a type
is left that is no array, or an array without element type. -/
inductive Peels (c : Checker Handle) : Handle → ℕ → Option Handle → Prop
  | core {t b : Handle} : c.elementType? t = .ok (some (b, false)) → Peels c t 0 (some b)
  | bare {t : Handle} : c.elementType? t = .ok none → Peels c t 0 none
  | layer {t u : Handle} {k : ℕ} {left : Option Handle} : c.elementType? t = .ok (some (u, true)) →
    Peels c u k left → Peels c t (k + 1) left

namespace Peels

/-- Resolving a type takes one step for each layer, and then the steps of what is left. -/
theorem ends (h : c.Peels t k (some b)) (hb : c.Ends b m r) :
    c.Ends t (m + k) (r.map (Resolution.bracketed^[k])) := by
  generalize hl : some b = left at h
  induction h with
  | core h =>
    obtain rfl := Option.some.inj hl
    obtain rfl := eq_of_elementType? h
    cases r <;> exact hb
  | bare => cases hl
  | layer h _ ih =>
    have outer := Ends.element (step_layer h) (ih hl)
    cases r with
    | error e => exact outer
    | ok a =>
      rw [Except.map, Function.iterate_succ_apply']
      exact outer

theorem endless (h : c.Peels t k (some b)) (hb : c.Endless b) : c.Endless t := by
  generalize hl : some b = left at h
  induction h with
  | core h =>
    obtain rfl := Option.some.inj hl
    rwa [← eq_of_elementType? h]
  | bare => cases hl
  | layer h _ ih => exact (ih hl).of_leads (.inl (step_layer h))

/-- Below the last layer there may be nothing to resolve. -/
theorem ends_bare (h : c.Peels t k none) : c.Ends t k (.ok elementless) := by
  generalize hl : none = left at h
  induction h with
  | core => cases hl
  | bare h => exact .answer (step_elementless h)
  | layer h _ ih => exact .element (step_layer h) (ih hl)

/-- The outcome of a type is the one of what is left without its layers, in brackets. Without a
bound this is so for every number of types that leaves room for the steps to the end. -/
theorem resolve_eq (h : c.Peels t k (some b)) {size : ℕ} {depth : Option ℤ}
    (room : depth = none → ∀ m r, c.Ends t m r → m ≤ size) :
    c.resolve size depth t =
      (c.resolve size (depth.map (· - k)) b).map (Resolution.bracketed^[k]) := by
  have deep : (Except.ok tooDeep : Except Fault Resolution) =
      (Except.ok tooDeep).map (Resolution.bracketed^[k]) :=
    congrArg Except.ok (Resolution.iterate_bracketed_unresolved k _).symm
  by_cases never : c.Endless b
  · cases depth with
    | none => rw [Option.map_none, never.resolve_none, (h.endless never).resolve_none, Except.map]
    | some n => rw [Option.map_some, never.resolve_some, (h.endless never).resolve_some, ← deep]
  · obtain ⟨m, r, hb⟩ : ∃ m r, c.Ends b m r := by simpa [Endless] using never
    have ht := h.ends hb
    cases depth with
    | none =>
      have within := room rfl _ _ ht
      rw [Option.map_none, ht.resolve_none within, hb.resolve_none (by omega)]
    | some n =>
      rw [Option.map_some, ht.resolve_some, hb.resolve_some]
      by_cases fits : (m : ℤ) ≤ n - k
      · rw [if_pos fits, if_pos (by push_cast; omega)]
      · rw [if_neg fits, if_neg (by push_cast; omega), ← deep]

end Peels

/-- Resolving a type and asking for its element types go the same way. If so many layers come off
until a type is left that is no array, the type has the outcome of what is left in as many brackets,
where a bound on the depth is lower by as many, and is unresolved just when that is, for the same
reason; without a bound it takes one step more for each layer, or never ends if that does not. If a
layer has no element type, the type is unresolved. -/
theorem resolve_peeled (c : Checker Handle) (t : Handle) (k : ℕ) :
    (∀ b, c.Peels t k (some b) →
      (∀ size depth, (depth = none → ∀ m r, c.Ends t m r → m ≤ size) →
        c.resolve size depth t =
          (c.resolve size (depth.map (· - (k : ℤ))) b).map (Resolution.bracketed^[k]) ∧
        ∀ reason, c.resolve size depth t = .ok (.unresolved reason) ↔
          c.resolve size (depth.map (· - (k : ℤ))) b = .ok (.unresolved reason)) ∧
      (∀ m r, c.Ends b m r → c.Ends t (m + k) (r.map (Resolution.bracketed^[k]))) ∧
      (c.Endless b → c.Endless t)) ∧
    (c.Peels t k none → ∀ size depth, (depth = none → k ≤ size) →
      ∃ reason, c.resolve size depth t = .ok (.unresolved reason)) := by
  refine ⟨fun b h => ⟨fun size depth room => ⟨h.resolve_eq room, fun reason => ?_⟩,
    fun m r => h.ends, h.endless⟩, fun h size depth room => ?_⟩
  · rw [h.resolve_eq room]
    exact map_iterate_bracketed_unresolved_iff
  · have ends := h.ends_bare
    cases depth with
    | none => exact ⟨_, ends.resolve_none (room rfl)⟩
    | some n =>
      rw [ends.resolve_some]
      split
      · exact ⟨_, rfl⟩
      · exact ⟨_, rfl⟩

/-- Arrays of arrays, of promises and of nothing. -/
def matrices : Table where
  types := [
    ("matrix", { shapes := [.array], typeArguments := some [.string "row"] }),
    ("row", { shapes := [.array], typeArguments := some [.string "cell", .string "text"] }),
    ("cell", { text := .string "Promise<string>", typeArguments := some [.string "text"] }),
    ("text", { shapes := [.string] }),
    ("list", { shapes := [.array], typeArguments := some [.string "bare"] }),
    ("bare", { shapes := [.array] })]
  symbols := []

/-- The matrix has two layers, so two of the three steps that a bound allows are used up when it
comes to the promise. -/
theorem resolve_matrices :
    matrices.checker.Peels (.string "matrix") 2 (some (.string "cell")) ∧
    matrices.checker.resolve 6 none (.string "matrix") =
      .ok (.descriptor (.ofString "[[String]]")) ∧
    matrices.checker.resolve 6 (some 3) (.string "matrix") =
      .ok (.descriptor (.ofString "[[String]]")) ∧
    matrices.checker.resolve 6 (some 2) (.string "matrix") = .ok tooDeep ∧
    matrices.checker.resolve 6 (some 1) (.string "matrix") = .ok tooDeep ∧
    matrices.checker.Peels (.string "list") 1 none ∧
    ∃ reason, matrices.checker.resolve 6 none (.string "list") = .ok (.unresolved reason) := by
  have matrix : matrices.checker.Peels (.string "matrix") 2 (some (.string "cell")) :=
    .layer (by rfl) (.layer (by rfl) (.core (by rfl)))
  have list : matrices.checker.Peels (.string "list") 1 none := .layer (by rfl) (.bare (by rfl))
  have cell : matrices.checker.Ends (.string "cell") 1 (.ok (.descriptor .string)) :=
    .through (by rfl) (.answer (by rfl))
  obtain ⟨agrees, ends, -⟩ := (resolve_peeled matrices.checker (.string "matrix") 2).1 _ matrix
  have steps := ends _ _ cell
  have room (m : ℕ) (r : Except Fault Resolution)
      (h : matrices.checker.Ends (.string "matrix") m r) : m ≤ 6 := by
    have := (h.unique steps).1
    omega
  have unbounded := (agrees 6 none fun _ => room).1
  have bounded (n : ℤ) := (agrees 6 (some n) (by simp)).1
  rw [Option.map_none, cell.resolve_none (by decide)] at unbounded
  simp only [Option.map_some, cell.resolve_some] at bounded
  exact ⟨matrix, unbounded, bounded 3, bounded 2, bounded 1, list,
    (resolve_peeled matrices.checker (.string "list") 1).2 list 6 none (by decide)⟩

end Checker

/-- A graph gives a node the outcome of what is left without its layers, in brackets. -/
theorem TypeGraph.resolve_layers {g : TypeGraph} {t b : Json} {k : ℕ}
    (h : g.checker.Peels t k (some b)) (depth : Option ℤ) : g.resolve depth t =
      (g.resolve (depth.map (· - (k : ℤ))) b).map (Resolution.bracketed^[k]) :=
  h.resolve_eq fun _ _ _ => ends_le_length

end PropertyMetadata
