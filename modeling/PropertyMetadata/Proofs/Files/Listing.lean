import Mathlib.Data.List.Nodup
import Mathlib.Data.String.Basic
import PropertyMetadata.Files.Sources
import PropertyMetadata.Proofs.Specifier.Places

/-! What lies below an entry. In directories as file systems have them, with distinct names, the
list of all paths below an entry holds each place with something once; so the sorted list depends
only on where something is. -/

namespace PropertyMetadata

namespace Entry

/-- An entry as file systems have them: the names in every directory are distinct, and each is one
that a path can have as a segment. -/
inductive Proper : Entry → Prop
  | file (bytes : List UInt8) : Proper (.file bytes)
  | directory {es : List (String × Entry)} (nodup : (es.map (·.1)).Nodup)
      (names : ∀ f ∈ es, Path.IsName f.1) (below : ∀ f ∈ es, Proper f.2) : Proper (.directory es)

variable {e : Entry} {es : List (String × Entry)} {q : List String}

theorem mem_pathsIn : q ∈ pathsIn es ↔
    ∃ f ∈ es, ∃ r, q = f.1 :: r ∧ (r = [] ∨ r ∈ f.2.paths) := by
  induction es with
  | nil => simp [pathsIn]
  | cons f es ih =>
    obtain ⟨name, e⟩ := f
    rw [pathsIn, List.mem_append, ih]
    simp only [List.mem_cons, List.mem_map, exists_eq_or_imp]
    refine or_congr_left ⟨?_, ?_⟩
    · rintro (rfl | ⟨r, hr, rfl⟩)
      · exact ⟨[], rfl, .inl rfl⟩
      · exact ⟨r, rfl, .inr hr⟩
    · rintro ⟨r, rfl, rfl | hr⟩
      · exact .inl rfl
      · exact .inr ⟨r, hr, rfl⟩

theorem Proper.mem_paths (h : e.Proper) : q ∈ e.paths ↔ q ≠ [] ∧ (e.at? q).isSome := by
  induction h generalizing q with
  | file bytes => cases q <;> simp [paths, at?, child?, entries, Json.lookup]
  | @directory es nodup names below ih =>
    rw [paths, mem_pathsIn]
    cases q with
    | nil => simp
    | cons s r =>
      simp only [List.cons.injEq, at?, child?, entries, ne_eq, reduceCtorEq, not_false_eq_true,
        true_and]
      constructor
      · rintro ⟨f, hf, r, ⟨rfl, rfl⟩, there⟩
        rw [Json.lookup_of_mem nodup hf, Option.bind_some]
        rcases there with rfl | there
        · rfl
        · exact ((ih f hf).1 there).2
      · intro there
        obtain ⟨x, hx⟩ := Option.isSome_iff_exists.1 there
        obtain ⟨c, hc, hx⟩ := Option.bind_eq_some_iff.1 hx
        have hf := Json.mem_of_lookup hc
        refine ⟨(s, c), hf, r, ⟨rfl, rfl⟩, ?_⟩
        by_cases here : r = []
        · exact .inl here
        · exact .inr ((ih _ hf).2 ⟨here, by rw [hx]; rfl⟩)

theorem Proper.nodup_paths (h : e.Proper) : e.paths.Nodup := by
  induction h with
  | file bytes => exact List.nodup_nil
  | @directory es nodup names below ih =>
    rw [paths]
    clear names
    induction es with
    | nil => exact List.nodup_nil
    | cons f es ihs =>
      obtain ⟨apart, nodup'⟩ := List.nodup_cons.1 nodup
      obtain ⟨proper, below'⟩ := List.forall_mem_cons.1 below
      obtain ⟨first, rest⟩ := List.forall_mem_cons.1 ih
      obtain ⟨name, e⟩ := f
      rw [pathsIn, List.nodup_append]
      refine ⟨?_, ihs nodup' below' rest, ?_⟩
      · refine List.nodup_cons.2 ⟨?_, List.Nodup.map List.cons_injective first⟩
        intro here
        obtain ⟨r, hr, hs⟩ := List.mem_map.1 here
        obtain rfl := (List.cons.inj hs).2
        exact (proper.mem_paths.1 hr).1 rfl
      · rintro a ha b hb rfl
        obtain ⟨g, hg, r, rfl, -⟩ := mem_pathsIn.1 hb
        refine apart (List.mem_map.2 ⟨g, hg, ?_⟩)
        rcases List.mem_cons.1 ha with same | ha
        · exact (List.cons.inj same).1
        · obtain ⟨r', -, same⟩ := List.mem_map.1 ha
          exact (List.cons.inj same).1.symm

theorem Proper.at? (h : e.Proper) {p : List String} {c : Entry} (hc : e.at? p = some c) :
    c.Proper := by
  induction p generalizing e with
  | nil => exact Option.some.inj hc ▸ h
  | cons s p ih =>
    obtain ⟨x, hx, found⟩ := Option.bind_eq_some_iff.1 hc
    cases h with
    | file bytes => cases hx
    | directory nodup names below =>
      have proper : x.Proper := below (s, x) (Json.mem_of_lookup hx)
      exact ih proper found

theorem Proper.set {new : Entry} (h : e.Proper) (hnew : new.Proper) {p : List String}
    (hp : ∀ s ∈ p, Path.IsName s) : (e.set p new).Proper := by
  induction p generalizing e with
  | nil => exact hnew
  | cons s p ih =>
    obtain ⟨name, rest⟩ := List.forall_mem_cons.1 hp
    cases h with
    | file bytes => exact .file bytes
    | @directory es nodup names below =>
      have inner : (((Json.lookup es s).getD (.directory [])).set p new).Proper := by
        refine ih ?_ rest
        cases found : Json.lookup es s with
        | none => exact .directory .nil (List.forall_mem_nil _) (List.forall_mem_nil _)
        | some c => exact below (s, c) (Json.mem_of_lookup found)
      refine .directory (Json.nodup_insert nodup _ _) (fun f hf => ?_) (fun f hf => ?_)
      · rcases Json.mem_of_mem_insert hf with rfl | hf
        · exact name
        · exact names f hf
      · rcases Json.mem_of_mem_insert hf with rfl | hf
        · exact inner
        · exact below f hf

theorem Proper.isName_of_mem_paths (h : e.Proper) (hq : q ∈ e.paths) : ∀ s ∈ q, Path.IsName s := by
  induction h generalizing q with
  | file bytes => cases hq
  | directory nodup names below ih =>
    obtain ⟨f, hf, r, rfl, here | there⟩ := mem_pathsIn.1 hq
    · exact List.forall_mem_cons.2 ⟨names f hf, by simp [here]⟩
    · exact List.forall_mem_cons.2 ⟨names f hf, ih f hf there⟩

end Entry

namespace Location

theorem precedes_iff (as bs : List String) : precedes as bs = true ↔ as ≤ bs := by
  induction as generalizing bs with
  | nil =>
    cases bs with
    | nil => exact iff_of_true rfl le_rfl
    | cons b bs => exact iff_of_true rfl (le_of_lt .nil)
  | cons a as ih =>
    cases bs with
    | nil => exact iff_of_false Bool.false_ne_true (not_le_of_gt .nil)
    | cons b bs =>
      have order : a :: as < b :: bs ↔ a < b ∨ a = b ∧ as < bs := List.cons_lt_cons_iff
      simp only [precedes, Bool.or_eq_true, decide_eq_true_eq, Bool.and_eq_true, beq_iff_eq, ih,
        le_iff_lt_or_eq, order, List.cons.injEq, and_or_left, or_assoc]

def sorted (qs : List (List String)) : List (List String) := qs.mergeSort precedes

theorem sorted_pairwise (qs : List (List String)) : (sorted qs).Pairwise (· ≤ ·) := by
  refine (List.pairwise_mergeSort ?_ ?_ qs).imp fun {a b} h => (precedes_iff a b).1 h
  · intro a b c hab hbc
    rw [precedes_iff] at hab hbc ⊢
    exact le_trans hab hbc
  · intro a b
    rw [Bool.or_eq_true, precedes_iff, precedes_iff]
    exact le_total a b

theorem sorted_perm (qs : List (List String)) : (sorted qs).Perm qs := List.mergeSort_perm _ _

theorem sorted_eq {qs list : List (List String)} (hq : qs.Nodup) (hl : list.Nodup)
    (same : ∀ q, q ∈ qs ↔ q ∈ list) (order : list.Pairwise (· ≤ ·)) : sorted qs = list := by
  have perm : qs.Perm list := (List.perm_ext_iff_of_nodup hq hl).2 same
  exact ((sorted_perm qs).trans perm).eq_of_pairwise (fun _ _ _ _ => le_antisymm)
    (sorted_pairwise qs) order

end Location

end PropertyMetadata
