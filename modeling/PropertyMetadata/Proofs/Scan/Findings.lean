import PropertyMetadata.Proofs.Scan.Positions
import PropertyMetadata.Property.Scan

/-! What the walk for properties meets, position by position. At a position below nodes that are no
classes the walk meets what it meets from the child on. From a class it goes into the members of the
body alone: it meets the members themselves, and whatever it meets from their children on. All in
all it meets the findings of the positions in their order. -/

namespace PropertyMetadata.Tree

def isBody (t : Tree) : Bool := t.label.field == some "body"

def bodyPlace? (t : Tree) : Option Nat := t.children.findIdx? isBody

/-- The finding that a member of a body is by itself, at a place among the members. -/
def memberFinding? (owner : Option Tree) (members : List Tree) (i : Nat) : Option Finding :=
  members[i]?.bind fun m => (ownFinding owner ((members.take i).foldl waitingAfter []) m).head?

/-- What the walk meets at a position below a node. -/
def findingAt? : List Nat → Tree → Option Finding
  | [], _ => none
  | b :: p, t =>
    if isClass t.label then
      if t.bodyPlace? = some b then
        match p with
        | [] => none
        | [i] => t.children[b]?.bind fun body => memberFinding? (t.part? "name") body.children i
        | i :: j :: p => (t.at? [b, i, j]).bind fun u => findingAt? p u
      else none
    else t.children[b]?.bind fun u => findingAt? p u

variable {owner : Option Tree} {waiting : List Tree}

theorem ownFinding_eq (owner : Option Tree) (waiting : List Tree) (m : Tree) :
    ownFinding owner waiting m = (ownFinding owner waiting m).head?.toList := by
  unfold ownFinding
  split
  · rfl
  · split <;> rfl

theorem ownFinding_eq_field {m f : Tree} {o : Option Tree} {w : List Tree} :
    (ownFinding owner waiting m).head? = some (.field o f w) ↔
      m.isField = true ∧ f = m ∧ o = owner ∧ w = waiting := by
  unfold ownFinding
  split
  next hd =>
    have other : m.isField = false := by simp_all [isDecorator, isField]
    simp [other]
  next =>
    split
    next hf => simp [hf, eq_comm, and_left_comm]
    next hf => simp [hf]

theorem memberFinding?_eq_field {members : List Tree} {i : Nat} {f : Tree} {o : Option Tree}
    {w : List Tree} : memberFinding? owner members i = some (.field o f w) ↔
      members[i]? = some f ∧ f.isField = true ∧ o = owner ∧
        w = (members.take i).foldl waitingAfter [] := by
  rw [memberFinding?, Option.bind_eq_some_iff]
  simp only [ownFinding_eq_field]
  constructor
  · rintro ⟨m, hm, hf, rfl, rfl, rfl⟩
    exact ⟨hm, hf, rfl, rfl⟩
  · rintro ⟨hm, hf, rfl, rfl⟩
    exact ⟨f, hm, hf, rfl, rfl, rfl⟩

/-! ### The walk at single positions -/

theorem findingAt?_of_not_class {t u : Tree} {i : Nat} (hc : isClass t.label = false)
    (hu : t.children[i]? = some u) (p : List Nat) : findingAt? (i :: p) t = findingAt? p u := by
  rw [findingAt?.eq_def]
  simp only [hc, Bool.false_eq_true, if_false, hu, Option.bind_some]

theorem findingAt?_other {t : Tree} {b : Nat} (hc : isClass t.label = true)
    (hb : t.bodyPlace? ≠ some b) (p : List Nat) : findingAt? (b :: p) t = none := by
  rw [findingAt?.eq_def]
  simp only [hc, if_true, hb, if_false]

theorem findingAt?_body {t : Tree} {b : Nat} (hc : isClass t.label = true) :
    findingAt? [b] t = none := by
  rw [findingAt?, if_pos hc]
  split <;> rfl

theorem findingAt?_member {t body : Tree} {b : Nat} (hc : isClass t.label = true)
    (hb : t.bodyPlace? = some b) (hbody : t.children[b]? = some body) (i : Nat) :
    findingAt? [b, i] t = memberFinding? (t.part? "name") body.children i := by
  rw [findingAt?, if_pos hc, if_pos hb, hbody, Option.bind_some]

theorem findingAt?_inside {t u : Tree} {b i j : Nat} (hc : isClass t.label = true)
    (hb : t.bodyPlace? = some b) (hu : t.at? [b, i, j] = some u) (p : List Nat) :
    findingAt? (b :: i :: j :: p) t = findingAt? p u := by
  rw [findingAt?, if_pos hc, if_pos hb, hu, Option.bind_some]

/-! ### The walk over all positions -/

theorem filterMap_positions (g : List Nat → Option Finding) (l : Label) (ts : List Tree) :
    (node l ts).positions.filterMap g = (g []).toList ++ (positionsFrom 0 ts).filterMap g := by
  rw [positions, List.filterMap_cons]
  cases g [] <;> rfl

theorem filterMap_positionsFrom (g : List Nat → Option Finding) (k : Nat) (t : Tree)
    (ts : List Tree) : (positionsFrom k (t :: ts)).filterMap g =
      t.positions.filterMap (fun p => g (k :: p)) ++ (positionsFrom (k + 1) ts).filterMap g := by
  rw [positionsFrom, List.filterMap_append, List.filterMap_map]
  rfl

/-- What is met at positions in trees side by side is what is met in each of them. -/
def MeetsIn (g : List Nat → Option Finding) (k : Nat) (ts : List Tree) : Prop :=
  ∀ i u, ts[i]? = some u → ∀ p, g ((k + i) :: p) = findingAt? p u

/-- What is met at positions in the members of a body is each member by itself, behind the
decorators that wait for it, and what is met below it. -/
def MeetsMembers (g : List Nat → Option Finding) (owner : Option Tree) (waiting : List Tree)
    (k : Nat) (ms : List Tree) : Prop :=
  ∀ i m, ms[i]? = some m →
    g [k + i] = (ownFinding owner ((ms.take i).foldl waitingAfter waiting) m).head? ∧
      MeetsIn (fun p => g ((k + i) :: p)) 0 m.children

theorem MeetsIn.cons {g : List Nat → Option Finding} {k : Nat} {t : Tree} {ts : List Tree}
    (h : MeetsIn g k (t :: ts)) : (∀ p, g (k :: p) = findingAt? p t) ∧ MeetsIn g (k + 1) ts := by
  refine ⟨h 0 t rfl, fun i u hu p => ?_⟩
  rw [Nat.add_right_comm]
  exact h (i + 1) u hu p

theorem MeetsMembers.cons {g : List Nat → Option Finding} {k : Nat} {m : Tree} {ms : List Tree}
    (h : MeetsMembers g owner waiting k (m :: ms)) :
    (g [k] = (ownFinding owner waiting m).head? ∧ MeetsIn (fun p => g (k :: p)) 0 m.children) ∧
      MeetsMembers g owner (waitingAfter waiting m) (k + 1) ms := by
  refine ⟨h 0 m rfl, fun i u hu => ?_⟩
  rw [Nat.add_right_comm]
  exact h (i + 1) u hu

/-- A class has its members met behind the decorators of its body, and what is below them met as if
it stood alone. -/
theorem meetsMembers_body {t body : Tree} {b : Nat} (hc : isClass t.label = true)
    (hb : t.bodyPlace? = some b) (hbody : t.children[b]? = some body) :
    MeetsMembers (fun p => findingAt? (b :: p) t) (t.part? "name") [] 0 body.children := by
  intro i m hm
  rw [Nat.zero_add]
  constructor
  · change findingAt? [b, i] t = _
    rw [findingAt?_member hc hb hbody, memberFinding?, hm, Option.bind_some]
  · intro j u hu p
    rw [Nat.zero_add]
    refine findingAt?_inside hc hb ?_ p
    rw [at?_cons, hbody, Option.bind_some, at?_cons, hm, Option.bind_some, at?_cons, hu]
    exact at?_nil u

mutual

/-- What the walk meets in a tree are the findings of its positions. -/
theorem findings_eq : ∀ t : Tree, t.findings = t.positions.filterMap fun p => findingAt? p t
  | node l ts => by
    rw [findings, filterMap_positions, findingAt?, Option.toList_none, List.nil_append]
    split
    next hc =>
      refine bodyFindings_eq _ ts 0 _ (fun b body hbody hb => ?_) fun i u p hu hb => ?_
      · rw [Nat.zero_add]
        exact ⟨findingAt?_body (t := node l ts) hc, meetsMembers_body hc hb hbody⟩
      · rw [Nat.zero_add]
        exact findingAt?_other (t := node l ts) hc hb p
    next hc =>
      refine findingsIn_eq ts 0 _ fun i u hu p => ?_
      rw [Nat.zero_add]
      exact findingAt?_of_not_class (t := node l ts) (Bool.eq_false_iff.2 hc) hu p

theorem findingsIn_eq : ∀ (ts : List Tree) (k : Nat) (g : List Nat → Option Finding),
    MeetsIn g k ts → findingsIn ts = (positionsFrom k ts).filterMap g
  | [], _, _, _ => rfl
  | t :: ts, k, g, h => by
    obtain ⟨head, tail⟩ := h.cons
    rw [findingsIn, filterMap_positionsFrom, findings_eq t, findingsIn_eq ts (k + 1) g tail]
    simp only [head]

/-- Only the body among the children of a class has anything to meet, and not the body itself. -/
theorem bodyFindings_eq (owner : Option Tree) : ∀ (ts : List Tree) (k : Nat)
    (g : List Nat → Option Finding),
    (∀ i u, ts[i]? = some u → ts.findIdx? isBody = some i →
      g [k + i] = none ∧ MeetsMembers (fun p => g ((k + i) :: p)) owner [] 0 u.children) →
    (∀ i u p, ts[i]? = some u → ts.findIdx? isBody ≠ some i → g ((k + i) :: p) = none) →
    bodyFindings owner ts = (positionsFrom k ts).filterMap g
  | [], _, _, _, _ => rfl
  | node l ms :: ts, k, g, inside, outside => by
    rw [bodyFindings, filterMap_positionsFrom]
    split
    next hb =>
      have here : (node l ms :: ts).findIdx? isBody = some 0 := by
        rw [List.findIdx?_cons, isBody, if_pos hb]
      obtain ⟨self, members⟩ := inside 0 _ rfl here
      -- only the first child of that part is the body, so nothing is met in the others
      have rest : (positionsFrom (k + 1) ts).filterMap g = [] := by
        refine List.filterMap_eq_nil_iff.2 fun p hp => ?_
        obtain ⟨i, q, rfl, u, hu, -⟩ := mem_positionsFrom.1 hp
        rw [Nat.add_right_comm]
        exact outside (i + 1) u q hu (by rw [here]; simp)
      rw [membersFindings, filterMap_positions, rest, memberFindings_eq owner ms [] 0 _ members]
      simpa using self
    next hb =>
      have later : (node l ms :: ts).findIdx? isBody = (ts.findIdx? isBody).map (· + 1) := by
        rw [List.findIdx?_cons, isBody, if_neg hb]
      have none : (node l ms).positions.filterMap (fun p => g (k :: p)) = [] :=
        List.filterMap_eq_nil_iff.2 fun p _ => outside 0 _ p rfl (by rw [later]; simp)
      rw [none, List.nil_append]
      refine bodyFindings_eq owner ts (k + 1) g (fun i u hu hi => ?_) fun i u p hu hi => ?_
      · rw [Nat.add_right_comm]
        exact inside (i + 1) u hu (by rw [later, hi]; rfl)
      · rw [Nat.add_right_comm]
        exact outside (i + 1) u p hu (by rw [later]; simpa using hi)

theorem memberFindings_eq (owner : Option Tree) : ∀ (ms : List Tree) (waiting : List Tree) (k : Nat)
    (g : List Nat → Option Finding), MeetsMembers g owner waiting k ms →
    memberFindings owner waiting ms = (positionsFrom k ms).filterMap g
  | [], _, _, _, _ => rfl
  | node l ts :: ms, waiting, k, g, h => by
    obtain ⟨⟨own, below⟩, tail⟩ := h.cons
    rw [memberFindings, filterMap_positionsFrom, filterMap_positions, own, ← ownFinding_eq,
      findingsBelow, findingsIn_eq ts 0 _ below, memberFindings_eq owner ms _ (k + 1) g tail]

end

end PropertyMetadata.Tree
