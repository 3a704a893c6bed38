import Mathlib.Data.List.Permutation
import PropertyMetadata.Proofs.Depth
import PropertyMetadata.Proofs.Graph.Names
import PropertyMetadata.Proofs.Reasons

/-! Resolutions that never end go round in a circle. A resolution that ends never comes back to a
type, so it takes no more steps than there are types that lead to others. In a graph these are
nodes: the number of nodes is a bound on the depth that every resolution that ends stays within,
and the bounded resolution tells the ones that never end. -/

namespace PropertyMetadata

namespace Checker

variable {Handle : Type} {c : Checker Handle} {t u : Handle} {k n : Nat} {ts : List Handle}
  {r : Except Fault Resolution}

/-- The answer of a type comes from another type. -/
def Leads (c : Checker Handle) (t : Handle) : Prop :=
  ∃ u, c.step t = .ok (.element u) ∨ c.step t = .ok (.through u)

variable {α : Type} {key : Handle → α} {keys : List α}

/-- A key tells apart types that are different numbers of steps away from the end. -/
def Tells (c : Checker Handle) (key : Handle → α) : Prop :=
  ∀ t u k l r s, c.Leads t → c.Leads u → key t = key u → c.Ends t k r → c.Ends u l s → k = l

/-- Types that a resolution of `k` steps goes on from. Their keys differ, because each is a
different number of steps away from the end. -/
structure Path (c : Checker Handle) (key : Handle → α) (k : Nat) (ts : List Handle) : Prop where
  length : ts.length = k
  nodup : (ts.map key).Nodup
  leads : ∀ u ∈ ts, c.Leads u
  ends : ∀ u ∈ ts, ∃ l s, l ≤ k ∧ c.Ends u l s

theorem Path.cons (h : c.Path key k ts) (tells : c.Tells key) (ht : c.Leads t)
    (he : c.Ends t (k + 1) r) : c.Path key (k + 1) (t :: ts) where
  length := by simp [h.length]
  nodup := by
    refine List.nodup_cons.2 ⟨fun hmem => ?_, h.nodup⟩
    obtain ⟨u, hu, same⟩ := List.mem_map.1 hmem
    obtain ⟨l, s, hl, hs⟩ := h.ends u hu
    have := tells u t l (k + 1) s r (h.leads u hu) ht same hs he
    omega
  leads := List.forall_mem_cons.2 ⟨ht, h.leads⟩
  ends := by
    refine List.forall_mem_cons.2 ⟨⟨k + 1, r, Nat.le_refl _, he⟩, fun u hu => ?_⟩
    obtain ⟨l, s, hl, hs⟩ := h.ends u hu
    exact ⟨l, s, by omega, hs⟩

theorem Ends.exists_path (h : c.Ends t k r) (tells : c.Tells key) : ∃ ts, c.Path key k ts := by
  induction h with
  | fault | answer => exact ⟨[], rfl, .nil, by simp, by simp⟩
  | element hs hu ih =>
    obtain ⟨ts, hts⟩ := ih
    exact ⟨_, hts.cons tells ⟨_, .inl hs⟩ (.element hs hu)⟩
  | through hs hu ih =>
    obtain ⟨ts, hts⟩ := ih
    exact ⟨_, hts.cons tells ⟨_, .inr hs⟩ (.through hs hu)⟩

/-- A resolution takes no more steps than there are keys of types that lead to others. -/
theorem Ends.le_length (h : c.Ends t k r) (tells : c.Tells key)
    (hkeys : ∀ u, c.Leads u → key u ∈ keys) : k ≤ keys.length := by
  obtain ⟨path, hp⟩ := h.exists_path tells
  have inside : path.map key ⊆ keys := by
    intro x hx
    obtain ⟨u, hu, rfl⟩ := List.mem_map.1 hx
    exact hkeys u (hp.leads u hu)
  calc
    k = (path.map key).length := by rw [List.length_map, hp.length]
    _ ≤ keys.length := hp.nodup.length_le_of_subset inside

theorem Ends.ne_tooDeep (h : c.Ends t k r) : r ≠ .ok tooDeep := by
  induction h with
  | fault => simp
  | answer hs =>
    rintro ⟨⟩
    exact step_ne_tooDeep c _ _ hs rfl
  | @element _ _ _ r _ _ ih =>
    intro hr
    cases r with
    | error e => cases hr
    | ok r =>
      simp only [Except.map, Except.ok.injEq, Resolution.bracketed_eq_tooDeep] at hr
      exact ih (congrArg Except.ok hr)
  | through _ _ ih => exact ih

end Checker

namespace TypeGraph

open Checker

variable {g : TypeGraph} {t : Json} {k : Nat} {r : Except Fault Resolution}

theorem StringNamed.mem_of_leads (hg : g.StringNamed) (h : g.checker.Leads t) :
    t ∈ g.nodes.map Node.id := by
  obtain ⟨u, hu⟩ := h
  cases hn : g.node? t with
  | none => simp [step_eq_error hn] at hu
  | some n =>
    obtain ⟨hmem, hid, -⟩ := hg.node?_eq_some hn
    exact List.mem_map.2 ⟨n, hmem, hid⟩

/-- A resolution takes no more steps than the graph has nodes. -/
theorem StringNamed.le_length (hg : g.StringNamed) (h : g.checker.Ends t k r) :
    k ≤ g.nodes.length := by
  have tells : g.checker.Tells id := by
    rintro t _ k l r s - - rfl ht hu
    exact (ht.unique hu).1
  simpa using h.le_length tells fun _ => hg.mem_of_leads

theorem StringNamed.resolve_of_ends (hg : g.StringNamed) (h : g.checker.Ends t k r) :
    g.resolve none t = r := h.resolve_none (hg.le_length h)

/-- The number of nodes is a bound on the depth that decides whether a resolution ends: a higher
bound changes nothing, the resolution is too deep just when it never ends without a bound, and else
it has the outcome that it has without a bound. -/
theorem resolve_node_count (hg : g.StringNamed) (t : Json) :
    (∀ limit : Int, g.nodes.length ≤ limit →
      g.resolve (some limit) t = g.resolve (some g.nodes.length) t) ∧
    (g.resolve (some g.nodes.length) t = .ok tooDeep ↔ g.checker.Endless t) ∧
    (g.checker.Endless t → g.resolve none t = .error .endless) ∧
    (∀ k r, g.checker.Ends t k r →
      g.resolve (some g.nodes.length) t = r ∧ g.resolve none t = r) := by
  by_cases h : g.checker.Endless t
  · have deep (limit : Int) : g.resolve (some limit) t = .ok tooDeep := h.resolve_some _ limit
    exact ⟨by simp [deep], by simp [deep, h], fun _ => h.resolve_none _,
      fun k r he => absurd he (h k r)⟩
  · obtain ⟨k, r, he⟩ : ∃ k r, g.checker.Ends t k r := by simpa [Endless] using h
    have hk := hg.le_length he
    have done (limit : Int) (hl : g.nodes.length ≤ limit) : g.resolve (some limit) t = r :=
      (he.resolve_some _ limit).trans (if_pos (by omega))
    refine ⟨fun limit hl => by rw [done limit hl, done _ (Int.le_refl _)], ?_, (absurd · h), ?_⟩
    · rw [done _ (Int.le_refl _)]
      exact ⟨fun hr => absurd hr he.ne_tooDeep, (absurd · h)⟩
    · intro l s hs
      obtain ⟨-, rfl⟩ := he.unique hs
      exact ⟨done _ (Int.le_refl _), hg.resolve_of_ends hs⟩

/-- An optional list whose elements are optional lists of the same type again. -/
def ring : TypeGraph where
  directed := true
  nodes := [
    ⟨.string "maybe", [("kind", .string "union"), ("text", .string "Tree | undefined")]⟩,
    ⟨.string "none", [("kind", .string "undefined")]⟩,
    ⟨.string "list", [("kind", .string "array")]⟩]
  edges := [
    ⟨.string "maybe", .string "none", .int 0, some (.string "member"), some (.int 1)⟩,
    ⟨.string "maybe", .string "list", .int 0, some (.string "member"), some (.int 0)⟩,
    ⟨.string "list", .string "maybe", .int 0, some (.string "type_argument"), some (.int 0)⟩]

/-- Three nodes make three steps the bound that tells: the list goes round for ever. -/
theorem resolve_ring : ring.StringNamed ∧ ring.checker.Endless (.string "maybe") ∧
    ring.resolve (some 9) (.string "maybe") = .ok tooDeep ∧
    ring.resolve none (.string "maybe") = .error .endless := by
  have named : ring.StringNamed := by simp [StringNamed, ring]
  obtain ⟨higher, tells, never, -⟩ := resolve_node_count named (.string "maybe")
  have deep : ring.resolve (some 3) (.string "maybe") = .ok tooDeep := by
    have open_end : ring.checker.run 4 (.string "maybe") = none := by cbv
    rw [TypeGraph.resolve, resolve_some_eq_run]
    exact congrArg (Option.getD · (.ok tooDeep)) open_end
  have endless := tells.1 deep
  exact ⟨named, endless, (higher 9 (by decide)).trans deep, never endless⟩

end TypeGraph

end PropertyMetadata
