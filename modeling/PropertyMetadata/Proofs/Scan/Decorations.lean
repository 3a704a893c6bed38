import PropertyMetadata.Proofs.Scan.Reports

/-! Which decorators a property has. The decorators in a body that come to a field are those between
the field and the last member before it that decorators do not wait across; behind them come the
decorators inside the field. So a decorator in a body belongs to one field at most, and to none if
anything but decorators, separators and comments stands between the two. -/

namespace PropertyMetadata

open List (Forall₂)

variable {t f m : Tree} {ms : List Tree} {p place above : List Nat} {owner : Option Tree}
  {waiting before : List Tree} {source : List UInt8} {file : String} {ps : List Property}
  {i k start : Nat}

namespace Tree

/-- Whether decorators wait across a node: another decorator, or what may stand between. -/
def isPassed (t : Tree) : Bool := t.isDecorator || t.isBetween

/-- The stretch of members before a place across which decorators wait. It begins with the first
member, or behind the last one before the place that they do not wait across. -/
structure Stretch (ms : List Tree) (start i : Nat) : Prop where
  le : start ≤ i
  passed : ∀ l m, start ≤ l → l < i → ms[l]? = some m → m.isPassed = true
  begins : start = 0 ∨ ∃ m, ms[start - 1]? = some m ∧ m.isPassed = false

/-- The decorators among members from a place on and before another one. -/
def decoratorsIn (ms : List Tree) (start i : Nat) : List Tree :=
  ((ms.take i).drop start).filter isDecorator

/-- A decorator in a body belongs to a field in the body. -/
structure Decorates (ms : List Tree) (k i : Nat) : Prop where
  decorator : ∃ m, ms[k]? = some m ∧ m.isDecorator = true
  field : ∃ f, ms[i]? = some f ∧ f.isField = true
  near : ∃ start, Stretch ms start i ∧ start ≤ k ∧ k < i

/-! ### Waiting -/

/-- Across a member decorators wait, and it joins them if it is one, or it ends their waiting. -/
theorem waitingAfter_eq (waiting : List Tree) (m : Tree) :
    waitingAfter waiting m = if m.isPassed then waiting ++ [m].filter isDecorator else [] := by
  unfold waitingAfter isPassed
  cases hd : m.isDecorator <;> cases hb : m.isBetween <;> simp [hd]

theorem take_succ_eq (h : ms[i]? = some m) : ms.take (i + 1) = ms.take i ++ [m] := by
  rw [List.take_add_one, h, Option.toList_some]

/-- What waits at a place are the decorators in the stretch before it. -/
theorem Stretch.waiting_eq (h : Stretch ms start i) (hi : i ≤ ms.length) :
    (ms.take i).foldl waitingAfter [] = decoratorsIn ms start i := by
  unfold decoratorsIn
  -- on the place: the stretch before the next one is longer by the member here, or begins anew
  induction i with
  | zero => simp
  | succ i ih =>
    obtain ⟨m, hm⟩ : ∃ m, ms[i]? = some m := ⟨_, List.getElem?_eq_getElem hi⟩
    rw [take_succ_eq hm, List.foldl_append, List.foldl_cons, List.foldl_nil, waitingAfter_eq]
    rcases Nat.lt_or_eq_of_le h.le with inside | rfl
    · have le : start ≤ i := Nat.le_of_lt_succ inside
      have shorter : Stretch ms start i :=
        ⟨le, fun l u hs hl => h.passed l u hs (Nat.lt_succ_of_lt hl), h.begins⟩
      have long : start ≤ (ms.take i).length := by
        rw [List.length_take]
        omega
      rw [if_pos (h.passed i m le (Nat.lt_succ_self i) hm), ih shorter (Nat.le_of_succ_le hi),
        List.drop_append_of_le_length long, List.filter_append]
    · obtain ended | ⟨u, hu, ended⟩ := h.begins
      · omega
      · obtain rfl : m = u := Option.some.inj (hm.symm.trans hu)
        rw [if_neg (by simp [ended]), List.drop_eq_nil_of_le, List.filter_nil]
        rw [List.length_append, List.length_singleton]
        exact Nat.succ_le_succ (List.length_take_le i ms)

theorem exists_stretch (ms : List Tree) (i : Nat) : ∃ start, Stretch ms start i := by
  induction i with
  | zero => exact ⟨0, Nat.le_refl _, by omega, .inl rfl⟩
  | succ i ih =>
    obtain ⟨start, h⟩ := ih
    by_cases ends : ∃ m, ms[i]? = some m ∧ m.isPassed = false
    · exact ⟨i + 1, Nat.le_refl _, by omega, .inr ends⟩
    · refine ⟨start, Nat.le_succ_of_le h.le, fun l m hs hl hm => ?_, h.begins⟩
      rcases Nat.lt_or_eq_of_le (Nat.le_of_lt_succ hl) with before | rfl
      · exact h.passed l m hs before hm
      · rw [← Bool.not_eq_false]
        exact fun ended => ends ⟨m, hm, ended⟩

theorem not_isPassed_of_isField (h : f.isField = true) : f.isPassed = false := by
  have kind : f.kind = "public_field_definition" := eq_of_beq h
  simp [isPassed, isDecorator, isBetween, kind]

namespace Decorates

/-- Nothing but decorators, separators and comments stands between a decorator and its field. -/
theorem between (h : Decorates ms k i) {l : Nat} (hk : k < l) (hl : l < i) (hm : ms[l]? = some m) :
    m.isDecorator = true ∨ m.isBetween = true := by
  obtain ⟨start, stretch, hs, -⟩ := h.near
  exact Bool.or_eq_true_iff.1 (stretch.passed l m (by omega) hl hm)

/-- A decorator belongs to one field at most: the first field behind it ends its waiting. -/
theorem unique {j : Nat} (h : Decorates ms k i) (h' : Decorates ms k j) : i = j := by
  have apart {i j : Nat} (h : Decorates ms k i) (h' : Decorates ms k j) : ¬ i < j := by
    intro lt
    obtain ⟨f, hf, isField⟩ := h.field
    obtain ⟨-, -, -, hi⟩ := h.near
    obtain ⟨start, stretch, hs, -⟩ := h'.near
    have passed := stretch.passed i f (by omega) lt hf
    rw [not_isPassed_of_isField isField] at passed
    cases passed
  have := apart h h'
  have := apart h' h
  omega

end Decorates

/-! ### Properties -/

/-- A field that is met is met with the decorators in the stretch before it. -/
theorem waiting_of_findingAt? (h : findingAt? p t = some (.field owner f waiting)) :
    ∃ above b body i start, p = above ++ [b, i] ∧ t.at? (above ++ [b]) = some body ∧
      Stretch body.children start i ∧ waiting = decoratorsIn body.children start i := by
  fun_induction findingAt? p t with
  | case1 | case2 | case5 => cases h
  | case3 b t hc hb i =>
    obtain ⟨body, hbody, h⟩ := Option.bind_eq_some_iff.1 h
    obtain ⟨hf, -, -, rfl⟩ := memberFinding?_eq_field.1 h
    obtain ⟨start, stretch⟩ := exists_stretch body.children i
    obtain ⟨inside, -⟩ := List.getElem?_eq_some_iff.1 hf
    exact ⟨[], b, body, i, start, rfl, (at?_singleton t b).trans hbody, stretch,
      stretch.waiting_eq (Nat.le_of_lt inside)⟩
  | case4 b t hc hb i j p ih =>
    obtain ⟨u, hu, h⟩ := Option.bind_eq_some_iff.1 h
    obtain ⟨above, c, body, k, start, rfl, hbody, found⟩ := ih u h
    exact ⟨b :: i :: j :: above, c, body, k, start, rfl, (at?_below hu _).trans hbody, found⟩
  | case6 b p t hc ih =>
    obtain ⟨u, hu, h⟩ := Option.bind_eq_some_iff.1 h
    obtain ⟨above, c, body, k, start, rfl, hbody, found⟩ := ih u h
    rw [← at?_singleton] at hu
    exact ⟨b :: above, c, body, k, start, rfl, (at?_below hu _).trans hbody, found⟩

/-- A property has the decorators that came to its field and then those inside it. -/
theorem decorators_of_property? {q : Property}
    (h : f.property? source file owner before = .ok (some q)) :
    (before ++ f.children.filter isDecorator).mapM (decorator source) = .ok q.decorators := by
  rw [property?] at h
  cases named : f.part? "name" with
  | none => simp [named] at h
  | some name =>
    simp only [named] at h
    obtain ⟨ds, decorated, h⟩ := bind_eq_ok_iff.1 h
    cases h
    exact decorated

/-- The property of a field at a place, with the decorators in the stretch before the field and then
those inside the field. -/
def DecoratedAt (t : Tree) (source : List UInt8) (file : String) (place : List Nat)
    (q : Property) : Prop :=
  ∃ above cls b i body start f, t.HasField above cls place f ∧ place = above ++ [b, i] ∧
    t.at? (above ++ [b]) = some body ∧ Stretch body.children start i ∧
    f.property? source file (cls.part? "name") (decoratorsIn body.children start i) =
      .ok (some q) ∧
    (decoratorsIn body.children start i ++ f.children.filter isDecorator).mapM
      (decorator source) = .ok q.decorators

end Tree

namespace Property

theorem decoratedAt_of_all (h : all source file t = .ok ps) :
    Forall₂ (t.DecoratedAt source file) t.fieldPlaces ps := by
  obtain ⟨pss, read, h⟩ := bind_eq_ok_iff.1 h
  cases h
  rw [Tree.findings_eq] at read
  refine (properties_filterMap read).imp fun place q => ?_
  rintro ⟨owner, f, waiting, met, hq⟩
  have named := (Tree.property?_eq_ok hq).1.symm
  obtain ⟨above, cls, field, -, rfl⟩ := Tree.hasField_of_findingAt? met named
  obtain ⟨above', b, body, i, start, rfl, hbody, stretch, rfl⟩ := Tree.waiting_of_findingAt? met
  obtain ⟨c, k, -, same⟩ := field.member
  obtain ⟨rfl, -⟩ := List.append_inj' same rfl
  exact ⟨above', cls, b, i, body, start, f, field, rfl, hbody, stretch, hq,
    Tree.decorators_of_property? hq⟩

/-- The fields with names in the classes to which the walk comes have one property each, with the
decorators between the field and the last member before it that decorators do not wait across, and
those inside the field behind them. So a decorator in a body is given to one field at most, and
nothing but decorators, separators and comments stands between the two. -/
theorem all_decorated (h : all source file t = .ok ps) :
    (∃ places, places.Nodup ∧ Forall₂ (t.DecoratedAt source file) places ps ∧
      ∀ above cls place f, t.HasField above cls place f → (place ∈ places ↔ t.Reached above)) ∧
    ∀ ms k i, Tree.Decorates ms k i → (∀ j, Tree.Decorates ms k j → j = i) ∧
      ∀ l m, k < l → l < i → ms[l]? = some m → m.isDecorator = true ∨ m.isBetween = true :=
  ⟨⟨_, t.nodup_positions.filter _, decoratedAt_of_all h,
      fun _ _ _ _ field => field.mem_fieldPlaces_iff⟩,
    fun _ _ _ belongs => ⟨fun _ other => other.unique belongs,
      fun _ _ behind before member => belongs.between behind before member⟩⟩

end Property

namespace OneRow

def decoratedSource : List UInt8 :=
  Text.Utf8.encode "class A \x7b @D; x; @E m() \x7b\x7d @F y \x7d"

def mark (start : Int) : Tree :=
  span "decorator" start (start + 2) none [
    token "@" start (start + 1), span "identifier" (start + 1) (start + 2) none []]

/-- A class with a decorator that comes to a field, one that a method keeps, and one in a field. -/
def decorated : Tree :=
  span "program" 0 33 none [span "class_declaration" 0 33 none [
    token "class" 0 5, span "type_identifier" 6 7 (some "name") [],
    span "class_body" 8 33 (some "body") [
      token "\x7b" 8 9, mark 10, token ";" 12 13, letter 14, token ";" 15 16, mark 17,
      span "method_definition" 20 26 none [],
      span "public_field_definition" 27 31 none [
        mark 27, span "property_identifier" 30 31 (some "name") []],
      token "\x7d" 32 33]]]

def decoratedFields : List Property := [
  { plain "x" (some "A") with decorators := [{ name := some "D", text := "@D" }] },
  { plain "y" (some "A") with decorators := [{ name := some "F", text := "@F" }] }]

end OneRow

open OneRow

theorem Property.all_decorated_fields :
    Property.all decoratedSource "a.ts" decorated = .ok decoratedFields ∧
    (∃ places, places.Nodup ∧
      Forall₂ (decorated.DecoratedAt decoratedSource "a.ts") places decoratedFields ∧
      ∀ above cls place f, decorated.HasField above cls place f →
        (place ∈ places ↔ decorated.Reached above)) ∧
    ∀ ms k i, Tree.Decorates ms k i → (∀ j, Tree.Decorates ms k j → j = i) ∧
      ∀ l m, k < l → l < i → ms[l]? = some m → m.isDecorator = true ∨ m.isBetween = true := by
  have run : Property.all decoratedSource "a.ts" decorated = .ok decoratedFields := by
    with_unfolding_all rfl
  exact ⟨run, all_decorated run⟩

end PropertyMetadata
