import Mathlib.Data.List.Forall2
import PropertyMetadata.Proofs.Scan.Fields

/-! What a search reports. Every property that a tree declares is the one of a field in the body of
a class, and it belongs to that class; the fields come in the order of their positions, each of them
once. A field with a name is reported exactly if the walk comes to its class. -/

namespace PropertyMetadata

open List (Forall₂)

variable {t f cls : Tree} {place above : List Nat} {source : List UInt8} {file : String}
  {ps : List Property}

/-- Whether a finding is a field with a name. -/
def Finding.declares : Finding → Bool
  | decorator _ => false
  | field _ f _ => (f.part? "name").isSome

theorem Tree.property?_eq_ok {owner : Option Tree} {before : List Tree} {x : Option Property}
    (h : f.property? source file owner before = .ok x) :
    x.isSome = (f.part? "name").isSome ∧ ∀ p ∈ x, p.className = owner.map (text source) := by
  rw [property?] at h
  cases hn : f.part? "name" with
  | none =>
    rw [hn] at h
    cases h
    exact ⟨rfl, fun _ h => nomatch h⟩
  | some name =>
    simp only [hn] at h
    obtain ⟨ds, -, h⟩ := bind_eq_ok_iff.1 h
    cases h
    refine ⟨rfl, fun p hp => ?_⟩
    cases hp
    rfl

/-- The property of a field at a place, which belongs to the class whose body holds the field. -/
def Tree.DeclaredAt (t : Tree) (source : List UInt8) (file : String) (place : List Nat)
    (p : Property) : Prop :=
  ∃ above cls f waiting, t.HasField above cls place f ∧
    f.property? source file (cls.part? "name") waiting = .ok (some p) ∧
    p.className = (cls.part? "name").map (text source)

/-- The positions at which the walk meets a field with a name. -/
def Tree.fieldPlaces (t : Tree) : List (List Nat) :=
  t.positions.filter fun place => (t.findingAt? place).any Finding.declares

/-- A field with a name is met exactly if the walk comes to its class. -/
theorem Tree.HasField.met_iff (h : t.HasField above cls place f) :
    (t.findingAt? place).any Finding.declares = true ↔ t.Reached above := by
  rw [Option.any_eq_true]
  constructor
  · rintro ⟨x, met, declares⟩
    cases x with
    | decorator => cases declares
    | field owner f' waiting =>
      obtain ⟨above', cls', h', reached, -⟩ := hasField_of_findingAt? met declares
      rwa [h.above_eq h']
  · intro reached
    obtain ⟨waiting, met⟩ := h.findingAt?_eq reached
    exact ⟨_, met, h.named⟩

/-- A field with a name is at one of the positions at which the walk meets such a field exactly if
the walk comes to its class. -/
theorem Tree.HasField.mem_fieldPlaces_iff (h : t.HasField above cls place f) :
    place ∈ t.fieldPlaces ↔ t.Reached above := by
  rw [Tree.fieldPlaces, List.mem_filter, Tree.mem_positions, h.field]
  exact (and_iff_right rfl).trans h.met_iff

theorem Finding.properties_eq_ok {x : Finding} {ps : List Property}
    (h : x.properties source file = .ok ps) :
    (x.declares = false ∧ ps = []) ∨ ∃ owner f waiting p, x = .field owner f waiting ∧
      x.declares = true ∧ ps = [p] ∧ f.property? source file owner waiting = .ok (some p) := by
  cases x with
  | decorator d =>
    obtain ⟨_, -, h⟩ := bind_eq_ok_iff.1 h
    cases h
    exact .inl ⟨rfl, rfl⟩
  | field owner f waiting =>
    obtain ⟨found, hf, h⟩ := bind_eq_ok_iff.1 h
    cases h
    have named := (Tree.property?_eq_ok hf).1
    cases found with
    | none => exact .inl ⟨named.symm, rfl⟩
    | some p => exact .inr ⟨owner, f, waiting, p, rfl, named.symm, rfl, hf⟩

/-- The positions with a field of a name have one property each, and the others have none. -/
theorem properties_filterMap {g : List Nat → Option Finding} {places : List (List Nat)}
    {pss : List (List Property)}
    (h : (places.filterMap g).mapM (Finding.properties source file) = .ok pss) :
    Forall₂ (fun place p => ∃ owner f waiting, g place = some (.field owner f waiting) ∧
        f.property? source file owner waiting = .ok (some p))
      (places.filter fun place => (g place).any Finding.declares) pss.flatten := by
  induction places generalizing pss with
  | nil =>
    cases h
    exact .nil
  | cons place places ih =>
    cases hg : g place with
    | none =>
      rw [List.filterMap_cons_none hg] at h
      rw [List.filter_cons_of_neg (by simp [hg])]
      exact ih h
    | some x =>
      rw [List.filterMap_cons_some hg, List.mapM_cons] at h
      obtain ⟨ps, hx, h⟩ := bind_eq_ok_iff.1 h
      obtain ⟨pss, rest, h⟩ := bind_eq_ok_iff.1 h
      cases h
      obtain ⟨silent, rfl⟩ | ⟨owner, f, waiting, p, rfl, loud, rfl, hp⟩ :=
        Finding.properties_eq_ok hx
      · rw [List.filter_cons_of_neg (by simp [hg, silent]), List.flatten_cons, List.nil_append]
        exact ih rest
      · rw [List.filter_cons_of_pos (by simp [hg, loud])]
        exact .cons ⟨owner, f, waiting, hg, hp⟩ (ih rest)

namespace Property

/-- The properties of a tree are those of the positions at which the walk meets a field with a name.
-/
theorem declaredAt_of_all (h : all source file t = .ok ps) :
    Forall₂ (t.DeclaredAt source file) t.fieldPlaces ps := by
  obtain ⟨pss, read, h⟩ := bind_eq_ok_iff.1 h
  cases h
  rw [Tree.findings_eq] at read
  refine (properties_filterMap read).imp fun place p => ?_
  rintro ⟨owner, f, waiting, met, hp⟩
  obtain ⟨same, className⟩ := Tree.property?_eq_ok hp
  obtain ⟨above, cls, field, -, rfl⟩ := Tree.hasField_of_findingAt? met same.symm
  exact ⟨above, cls, f, waiting, field, hp, className p rfl⟩

/-- Every property comes from a field with a name in the body of a class and belongs to that class.
The fields are distinct, and in the order in which they stand in the tree. -/
theorem all_declared (h : all source file t = .ok ps) :
    ∃ places, places.Sublist t.positions ∧ places.Nodup ∧
      Forall₂ (t.DeclaredAt source file) places ps :=
  ⟨_, List.filter_sublist, t.nodup_positions.filter _, declaredAt_of_all h⟩

end Property

/-! ### Trees in one row -/

namespace OneRow

def token (kind : String) (start stop : Int) : Tree :=
  .node ⟨kind, false, start, stop, 0, 0, none⟩ []

def span (kind : String) (start stop : Int) (field : Option String) (ts : List Tree) : Tree :=
  .node ⟨kind, true, start, stop, 0, 0, field⟩ ts

def letter (start : Int) : Tree :=
  span "public_field_definition" start (start + 1) none
    [span "property_identifier" start (start + 1) (some "name") []]

def body (start : Int) : Tree :=
  span "class_body" start (start + 5) (some "body")
    [token "\x7b" start (start + 1), letter (start + 2), token "\x7d" (start + 4) (start + 5)]

def nameless (start : Int) (field : Option String) : Tree :=
  span "class" start (start + 11) field [token "class" start (start + 5), body (start + 6)]

def nestedSource : List UInt8 := Text.Utf8.encode "class A \x7b x = class \x7b y \x7d \x7d"

def nested : Tree :=
  span "program" 0 27 none [span "class_declaration" 0 27 none [
    token "class" 0 5, span "type_identifier" 6 7 (some "name") [],
    span "class_body" 8 27 (some "body") [
      token "\x7b" 8 9,
      span "public_field_definition" 10 25 none [
        span "property_identifier" 10 11 (some "name") [], token "=" 12 13,
        nameless 14 (some "value")],
      token "\x7d" 26 27]]]

def plain (name : String) (className : Option String) : Property :=
  ⟨name, className, false, none, [], 1, 1, "a.ts"⟩

end OneRow

open OneRow

theorem Property.all_nested :
    Property.all nestedSource "a.ts" nested = .ok [plain "x" (some "A"), plain "y" none] ∧
    ∃ places, places.Sublist nested.positions ∧ places.Nodup ∧
      Forall₂ (nested.DeclaredAt nestedSource "a.ts") places
        [plain "x" (some "A"), plain "y" none] := by
  have run : Property.all nestedSource "a.ts" nested =
      .ok [plain "x" (some "A"), plain "y" none] := by with_unfolding_all rfl
  exact ⟨run, all_declared run⟩

namespace Property

@[simp] theorem scan_none : scan none source file t = all source file t := by
  have whole (ps : List Property) : ps.filter (isKept none) = ps := List.filter_true ps
  cases h : all source file t <;> simp [scan, h, whole, bind, Except.bind, pure, Except.pure]

/-- A field with a name in the body of a class has its property found exactly if the walk comes to
the class; it comes there whenever each class above holds it below a member of its body. -/
theorem scan_reached (h : scan none source file t = .ok ps) :
    ∃ places, Forall₂ (t.DeclaredAt source file) places ps ∧
      ∀ above cls place f, t.HasField above cls place f →
        (place ∈ places ↔ t.Reached above) ∧ (t.Inside above → place ∈ places) := by
  rw [scan_none] at h
  refine ⟨_, declaredAt_of_all h, fun above cls place f field => ?_⟩
  have there : (t.at? above).isSome = true := by rw [field.owner]; rfl
  have found := field.mem_fieldPlaces_iff
  exact ⟨found, fun inside => found.2 (Tree.reached_of_inside there inside)⟩

end Property

namespace OneRow

def heritageSource : List UInt8 :=
  Text.Utf8.encode "class A extends (class \x7b q \x7d) \x7b x \x7d"

/-- A class whose parent is a class without name. -/
def heritage : Tree :=
  span "program" 0 35 none [span "class_declaration" 0 35 none [
    token "class" 0 5, span "type_identifier" 6 7 (some "name") [],
    span "class_heritage" 8 29 none [span "extends_clause" 8 29 none [
      token "extends" 8 15, span "parenthesized_expression" 16 29 (some "value") [
        token "(" 16 17, nameless 17 none, token ")" 28 29]]],
    body 30]]

theorem scan_heritage : Property.scan none heritageSource "a.ts" heritage =
    .ok [plain "x" (some "A")] := by
  with_unfolding_all rfl

end OneRow

theorem Property.scan_reached_heritage :
    Property.scan none heritageSource "a.ts" heritage = .ok [plain "x" (some "A")] ∧
    ∃ places, Forall₂ (heritage.DeclaredAt heritageSource "a.ts") places [plain "x" (some "A")] ∧
      ∀ above cls place f, heritage.HasField above cls place f →
        (place ∈ places ↔ heritage.Reached above) ∧ (heritage.Inside above → place ∈ places) :=
  ⟨scan_heritage, Property.scan_reached scan_heritage⟩

/-- The field of a class that stands in the heritage of another class is not found. -/
theorem Property.scan_misses_heritage :
    ∃ ps above cls place f, Property.scan none heritageSource "a.ts" heritage = .ok ps ∧
      heritage.HasField above cls place f ∧
      (f.part? "name").map (Tree.text heritageSource) = some "q" ∧ ∀ p ∈ ps, p.name ≠ "q" := by
  have field : heritage.HasField [0, 2, 0, 1, 1] (nameless 17 none) [0, 2, 0, 1, 1, 1, 1]
      (letter 25) := by
    exact ⟨rfl, rfl, ⟨1, 1, rfl, rfl⟩, rfl, rfl, rfl⟩
  have spelled : ((letter 25).part? "name").map (Tree.text heritageSource) = some "q" := by
    with_unfolding_all rfl
  exact ⟨_, _, _, _, _, scan_heritage, field, spelled, by decide⟩

end PropertyMetadata
