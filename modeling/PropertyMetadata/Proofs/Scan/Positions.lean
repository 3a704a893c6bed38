import Mathlib.Data.List.Nodup
import PropertyMetadata.Tree

/-! Positions in syntax trees. Nodes that are alike can stand at several positions, so a node is
known by its position: the way down to it from the root. The positions of a tree are listed in the
order of a walk that comes to a node before it comes to what is below, which is the order of the
positions as lists. -/

namespace PropertyMetadata.Tree

/-- The node at a position, which names a place among the children for each step down. -/
def at? : Tree → List Nat → Option Tree
  | t, [] => some t
  | t, i :: p => t.children[i]?.bind fun c => c.at? p

mutual

/-- The positions of a tree, the root first. -/
def positions : Tree → List (List Nat)
  | node _ ts => [] :: positionsFrom 0 ts

/-- The positions in trees side by side, from the place of the first one on. -/
def positionsFrom (k : Nat) : List Tree → List (List Nat)
  | [] => []
  | t :: ts => t.positions.map (k :: ·) ++ positionsFrom (k + 1) ts

end

@[simp] theorem at?_nil (t : Tree) : t.at? [] = some t := by
  rw [at?]

theorem at?_cons (t : Tree) (i : Nat) (p : List Nat) :
    t.at? (i :: p) = t.children[i]?.bind fun c => c.at? p := by
  rw [at?]

theorem at?_singleton (t : Tree) (i : Nat) : t.at? [i] = t.children[i]? := by
  rw [at?_cons]
  cases t.children[i]? <;> simp

theorem at?_pair_eq_some {t u : Tree} {i j : Nat} :
    t.at? [i, j] = some u ↔ ∃ c, t.children[i]? = some c ∧ c.children[j]? = some u := by
  simp only [at?_cons t, at?_singleton, Option.bind_eq_some_iff]

theorem at?_append (t : Tree) (p q : List Nat) :
    t.at? (p ++ q) = (t.at? p).bind fun u => u.at? q := by
  induction p generalizing t with
  | nil => simp
  | cons i p ih =>
    rw [List.cons_append, at?_cons, at?_cons]
    cases t.children[i]? with
    | none => rfl
    | some c => exact ih c

theorem at?_below {t u : Tree} {p : List Nat} (hu : t.at? p = some u) (q : List Nat) :
    t.at? (p ++ q) = u.at? q := by
  rw [at?_append, hu, Option.bind_some]

theorem isSome_at?_append {t : Tree} {p q : List Nat} :
    (t.at? (p ++ q)).isSome = true ↔ ∃ u, t.at? p = some u ∧ (u.at? q).isSome = true := by
  rw [at?_append, Option.isSome_bind, Option.any_eq_true]

mutual

theorem mem_positions : ∀ {t : Tree} {p : List Nat}, p ∈ t.positions ↔ (t.at? p).isSome
  | node l ts, p => by
    rw [positions, List.mem_cons, mem_positionsFrom]
    cases p with
    | nil => simp
    | cons i p => simp [at?_cons, children, Option.isSome_bind, Option.any_eq_true]

theorem mem_positionsFrom : ∀ {ts : List Tree} {k : Nat} {p : List Nat},
    p ∈ positionsFrom k ts ↔ ∃ i q, p = (k + i) :: q ∧ ∃ u, ts[i]? = some u ∧ (u.at? q).isSome
  | [], k, p => by simp [positionsFrom]
  | t :: ts, k, p => by
    rw [positionsFrom, List.mem_append, List.mem_map, mem_positionsFrom]
    constructor
    · rintro (⟨q, hq, rfl⟩ | ⟨i, q, rfl, u, hu, hq⟩)
      · exact ⟨0, q, rfl, t, rfl, mem_positions.1 hq⟩
      · exact ⟨i + 1, q, by rw [Nat.add_right_comm, Nat.add_assoc], u, hu, hq⟩
    · rintro ⟨i, q, rfl, u, hu, hq⟩
      cases i with
      | zero =>
        obtain rfl := Option.some.inj hu
        exact .inl ⟨q, mem_positions.2 hq, rfl⟩
      | succ i => exact .inr ⟨i, q, by rw [Nat.add_right_comm, Nat.add_assoc], u, hu, hq⟩

end

mutual

/-- The positions ascend: a node comes before what is below it, and that before what is right of
it. -/
theorem pairwise_positions : ∀ t : Tree, t.positions.Pairwise (· < ·)
  | node l ts => by
    refine List.pairwise_cons.2 ⟨fun p hp => ?_, pairwise_positionsFrom ts 0⟩
    obtain ⟨i, q, rfl, -⟩ := mem_positionsFrom.1 hp
    exact List.nil_lt_cons _ _

theorem pairwise_positionsFrom : ∀ (ts : List Tree) (k : Nat),
    (positionsFrom k ts).Pairwise (· < ·)
  | [], _ => .nil
  | t :: ts, k => by
    refine List.pairwise_append.2 ⟨?_, pairwise_positionsFrom ts (k + 1), fun p hp q hq => ?_⟩
    · have deeper {p q : List Nat} (h : p < q) : k :: p < k :: q :=
        List.cons_lt_cons_iff.2 (.inr ⟨rfl, h⟩)
      exact List.pairwise_map.2 ((pairwise_positions t).imp deeper)
    · obtain ⟨p, -, rfl⟩ := List.mem_map.1 hp
      obtain ⟨i, q, rfl, -⟩ := mem_positionsFrom.1 hq
      exact List.cons_lt_cons_iff.2 (.inl (by omega))

end

theorem nodup_positions (t : Tree) : t.positions.Nodup := by
  refine (pairwise_positions t).imp ?_
  rintro p _ h rfl
  exact List.lt_irrefl p h

end PropertyMetadata.Tree
