import PropertyMetadata.GraphMl.Reader
import PropertyMetadata.GraphMl.Writer
import PropertyMetadata.Proofs.Graph.Records
import PropertyMetadata.Proofs.Markup.Documents
import PropertyMetadata.Proofs.Number.Integers

/-! Attributes as the data of GraphML elements. A value is written as text under a key that knows
its name and its type, and read by this type from that text. What is written for the attributes of a
node or an edge is read as these attributes, unless one is an integer of more digits than may be
read. -/

namespace PropertyMetadata.GraphMl

open Markup Number
open List (Forall₂)

variable {v w : Json} {scope id : String} {uses uses' final : List KeyUse} {keys : List Key}
  {fields part : List (String × Json)} {f : String × Json}

/-! ### Values -/

/-- A value that can be written and keeps its type: a string of characters that documents keep, an
integer or a truth value. -/
inductive Simple : Json → Prop
  | string {s : String} : Clean s → Simple (.string s)
  | int (i : Int) : Simple (.int i)
  | bool (b : Bool) : Simple (.bool b)

instance : DecidablePred Simple
  | .string s => decidable_of_iff (Clean s) ⟨.string, fun | .string h => h⟩
  | .int i => .isTrue (.int i)
  | .bool b => .isTrue (.bool b)
  | .null | .double _ | .array _ | .object _ => .isFalse nofun

/-- A value is not an integer of more digits than may be read. -/
def Readable (v : Json) : Prop := ∀ i, v = .int i → Short i

instance : DecidablePred Readable
  | .int i => decidable_of_iff (Short i) ⟨fun h _ same => Json.int.inj same ▸ h, fun h => h i rfl⟩
  | .null | .double _ | .array _ | .object _ | .string _ | .bool _ => .isTrue nofun

def simpleType : Json → ValueType
  | .int _ => .integer
  | .bool _ => .boolean
  | _ => .string

theorem typeOf_eq (h : Simple v) : typeOf v = .ok (simpleType v) := by
  cases h <;> rfl

theorem clean_toString (i : Int) : Clean (toString i) := by
  intro c hc
  have digits : ∀ n < 58, 48 ≤ n → isLegal (Char.ofNat n) = true ∧ Char.ofNat n ≠ '\r' := by
    decide
  rw [toList_toString, List.mem_append] at hc
  rcases hc with hc | hc
  · split at hc
    · obtain rfl := List.mem_singleton.1 hc
      decide
    · cases hc
  · obtain ⟨low, high⟩ := toNat_of_isDigit (isDigit_of_mem_digitsOf c hc)
    simpa using digits c.toNat (by omega) low

theorem toString_ne_empty (i : Int) : toString i ≠ "" := by
  intro h
  have none := toList_toString i
  rw [h] at none
  exact Nat.toDigits_ne_nil (List.append_eq_nil_iff.1 none.symm).2

theorem clean_text (h : Simple v) : Clean v.text := by
  cases h with
  | string clean => exact clean
  | int i => exact clean_toString i
  | bool b => cases b <;> decide

theorem eq_of_text_empty (h : Simple v) (empty : v.text = "") : v = .string "" := by
  cases h with
  | string => exact congrArg Json.string empty
  | int i => exact absurd empty (toString_ne_empty i)
  | bool b => cases b <;> exact absurd empty (by decide)

/-- The text of a simple value is read as that value, but for an integer of too many digits. -/
theorem read_text_iff (h : Simple v) :
    (simpleType v).read v.text = .ok w ↔ Readable v ∧ w = v := by
  cases h with
  | string =>
    simp [Readable, simpleType, ValueType.read, eq_comm]
  | int i =>
    have text : (Json.int i).text = toString i := rfl
    simp only [Readable, simpleType, ValueType.read, text, integer?_toString, Json.int.injEq,
      forall_eq']
    by_cases short : Short i <;> simp [short, eq_comm]
  | bool b =>
    have read : ValueType.boolean.read (Json.bool b).text = .ok (.bool b) := by
      cases b <;> rfl
    simp [Readable, simpleType, read, eq_comm]

/-! ### Keys -/

theorem keyId_injective {m n : Nat} (h : keyId m = keyId n) : m = n := by
  have same : (toString m).toList = (toString n).toList := by
    have := congrArg String.toList h
    simp only [keyId, String.toList_append] at this
    exact List.append_cancel_left this
  simp only [Nat.toString_eq_ofList_toDigits, String.toList_ofList] at same
  rw [← Nat.ofDigitChars_ten_toDigits (n := m), same, Nat.ofDigitChars_ten_toDigits]

theorem attribute?_element (base : String) (as : List (String × String)) (text : Option String)
    (children : List Element) (key : String) :
    (element base as text children).attribute? key = Json.lookup as key := by
  rw [Element.attribute?]
  show ((as.map fun a => ((⟨"", a.1⟩, a.2) : Name × String)).find? _).map _ = _
  induction as with
  | nil => rfl
  | cons a as ih =>
    by_cases h : a.1 = key
    · simp [Json.lookup, h]
    · simpa [Json.lookup, h] using ih

/-- The keys that key elements stand for. -/
def keyList : Nat → List KeyUse → List Key
  | _, [] => []
  | n, u :: us => ⟨some (keyId n), u.name, u.type⟩ :: keyList (n + 1) us

theorem mapM_keyElements (n : Nat) (us : List KeyUse) :
    (keyElements n us).mapM Key.ofElement = .ok (keyList n us) := by
  induction us generalizing n with
  | nil => rfl
  | cons u us ih =>
    have read : Key.ofElement (element "key"
        [("id", keyId n), ("for", u.scope), ("attr.name", u.name), ("attr.type", u.type.name)]
        none []) = .ok ⟨some (keyId n), u.name, u.type⟩ := by
      simp only [Key.ofElement, Key.described, attribute?_element, Json.lookup]
      simp [ValueType.lookup_names_name, Key.checkDefault, Element.childrenNamed, element,
        Element.children, bind, Except.bind, pure, Except.pure]
    rw [keyElements, List.mapM_cons, read, ih]
    rfl

theorem mem_keyList {n : Nat} {us : List KeyUse} {k : Key} : k ∈ keyList n us ↔
    ∃ i, ∃ h : i < us.length, k = ⟨some (keyId (n + i)), us[i].name, us[i].type⟩ := by
  induction us generalizing n with
  | nil => simp [keyList]
  | cons u us ih =>
    rw [keyList, List.mem_cons, ih]
    constructor
    · rintro (rfl | ⟨i, h, rfl⟩)
      · exact ⟨0, by simp, rfl⟩
      · exact ⟨i + 1, by simpa using h, by simp [Nat.add_assoc, Nat.add_comm 1 i]⟩
    · rintro ⟨i, h, rfl⟩
      cases i with
      | zero => exact .inl rfl
      | succ i =>
        exact .inr ⟨i, by simpa using h, by simp [Nat.add_assoc, Nat.add_comm 1 i]⟩

theorem find?_eq_some_of_unique {α : Type} {p : α → Bool} {as : List α} {a : α} (ha : a ∈ as)
    (hp : p a = true) (unique : ∀ b ∈ as, p b = true → b = a) : as.find? p = some a := by
  obtain ⟨b, hb⟩ := Option.isSome_iff_exists.1 (List.find?_isSome.2 ⟨a, ha, hp⟩)
  rw [hb, unique b (List.mem_of_find?_eq_some hb) (List.find?_some hb)]

theorem find?_keyList {u : KeyUse} (h : u ∈ final) : ∃ key,
    Key.find? (keyList 0 final) (some (keyId (final.idxOf u))) = some ⟨key, u.name, u.type⟩ := by
  have bound : final.idxOf u < final.length := List.idxOf_lt_length_of_mem h
  have there : final[final.idxOf u] = u := List.getElem_idxOf bound
  refine ⟨some (keyId (final.idxOf u)), find?_eq_some_of_unique ?_ (by simp) ?_⟩
  · rw [List.mem_reverse, mem_keyList]
    exact ⟨final.idxOf u, bound, by rw [there, Nat.zero_add]⟩
  · intro k hk same
    obtain ⟨i, hi, rfl⟩ := mem_keyList.1 (List.mem_reverse.1 hk)
    simp only [Nat.zero_add, beq_iff_eq, Option.some.injEq] at same
    obtain rfl := keyId_injective same
    rw [there, Nat.zero_add]

/-! ### Data -/

def useOf (scope : String) (f : String × Json) : KeyUse := ⟨scope, f.1, simpleType f.2⟩

def dataElement (final : List KeyUse) (scope : String) (f : String × Json) : Element :=
  element "data" [("key", keyId (final.idxOf (useOf scope f)))]
    (if f.2.text.isEmpty then none else some f.2.text) []

theorem dataElement_of_prefix (h : uses <+: final) (used : useOf scope f ∈ uses) :
    dataElement final scope f = dataElement uses scope f := by
  obtain ⟨more, rfl⟩ := h
  rw [dataElement, dataElement, List.idxOf_append_of_mem used]

/-- Keys grow behind the ones that there are, by those of some attributes. -/
structure Grows (scope : String) (fields : List (String × Json)) (uses uses' : List KeyUse) :
    Prop where
  longer : uses <+: uses'
  mem : ∀ u, u ∈ uses' ↔ u ∈ uses ∨ ∃ f ∈ fields, useOf scope f = u

theorem Grows.nil (scope : String) (uses : List KeyUse) : Grows scope [] uses uses :=
  ⟨List.prefix_rfl, by simp⟩

theorem Grows.append {more : List (String × Json)} (h : Grows scope fields uses uses')
    (h' : Grows scope more uses' final) : Grows scope (fields ++ more) uses final where
  longer := h.longer.trans h'.longer
  mem u := by
    rw [h'.mem, h.mem, or_assoc]
    simp only [List.mem_append, or_and_right, exists_or]

theorem Grows.single (scope : String) (f : String × Json) (uses : List KeyUse) :
    Grows scope [f] uses
      (if uses.contains (useOf scope f) then uses else uses ++ [useOf scope f]) := by
  split
  next old =>
    refine ⟨List.prefix_rfl, fun u => ?_⟩
    have known : useOf scope f = u → u ∈ uses := fun same => same ▸ List.contains_iff_mem.1 old
    simpa using known
  next => exact ⟨List.prefix_append _ _, fun u => by simp [eq_comm]⟩

theorem dataElements_eq (scope : String) (uses : List KeyUse) (h : ∀ f ∈ fields, Simple f.2) :
    ∃ es uses', dataElements scope uses fields = .ok (es, uses') ∧ Grows scope fields uses uses' ∧
      ∀ final, uses' <+: final → es = fields.map (dataElement final scope) := by
  induction fields generalizing uses with
  | nil => exact ⟨[], uses, rfl, .nil scope uses, fun _ _ => rfl⟩
  | cons f fields ih =>
    obtain ⟨hf, hfields⟩ := List.forall_mem_cons.1 h
    let next := if uses.contains (useOf scope f) then uses else uses ++ [useOf scope f]
    have first : Grows scope [f] uses next := .single scope f uses
    obtain ⟨es, uses', written, others, shape⟩ := ih next hfields
    refine ⟨dataElement next scope f :: es, uses', ?_, first.append others, fun final hfinal => ?_⟩
    · rw [dataElements, typeOf_eq hf]
      show ((dataElements scope next fields).bind fun r =>
        .ok (dataElement next scope f :: r.1, r.2)) = _
      rw [written]
      rfl
    · have used : useOf scope f ∈ next := (first.mem _).2 (.inr ⟨f, List.mem_cons_self, rfl⟩)
      rw [List.map_cons, shape final hfinal,
        dataElement_of_prefix (others.longer.trans hfinal) used]

/-! ### Reading data -/

/-- A data element is read as the attribute that it was written for. -/
theorem datum_iff (hf : Simple f.2) (used : useOf scope f ∈ final) :
    datum (keyList 0 final) (dataElement final scope f) = .ok part ↔
      Readable f.2 ∧ part = [f] := by
  obtain ⟨key, found⟩ := find?_keyList used
  have name : (dataElement final scope f).attribute? "key" =
      some (keyId (final.idxOf (useOf scope f))) := by
    rw [dataElement, attribute?_element]
    rfl
  rw [datum, name, found]
  simp only [dataElement, element, Element.children, Element.text, List.isEmpty_nil, if_true,
    useOf, String.isEmpty_iff]
  by_cases empty : f.2.text = ""
  · obtain ⟨name, value⟩ := f
    obtain rfl := eq_of_text_empty hf empty
    simp [Readable, eq_comm]
  · simp only [if_neg empty, bind_eq_ok_iff, read_text_iff hf]
    constructor
    · rintro ⟨v, ⟨readable, rfl⟩, same⟩
      exact ⟨readable, (Except.ok.inj same).symm⟩
    · rintro ⟨readable, rfl⟩
      exact ⟨f.2, ⟨readable, rfl⟩, rfl⟩

theorem mapM_datum_iff {parts : List (List (String × Json))} (simple : ∀ f ∈ fields, Simple f.2)
    (used : ∀ f ∈ fields, useOf scope f ∈ final) :
    (fields.map (dataElement final scope)).mapM (datum (keyList 0 final)) = .ok parts ↔
      (∀ f ∈ fields, Readable f.2) ∧ parts = fields.map fun f => [f] := by
  induction fields generalizing parts with
  | nil => simp [pure, Except.pure, eq_comm]
  | cons f fields ih =>
    obtain ⟨hf, hfields⟩ := List.forall_mem_cons.1 simple
    obtain ⟨uf, ufields⟩ := List.forall_mem_cons.1 used
    rw [List.map_cons, List.mapM_cons, bind_eq_ok_iff, List.forall_mem_cons]
    simp only [datum_iff hf uf, bind_eq_ok_iff, ih hfields ufields]
    constructor
    · rintro ⟨part, ⟨readable, rfl⟩, others, ⟨all, rfl⟩, same⟩
      exact ⟨⟨readable, all⟩, (Except.ok.inj same).symm⟩
    · rintro ⟨⟨readable, all⟩, rfl⟩
      exact ⟨_, ⟨readable, rfl⟩, _, ⟨all, rfl⟩, rfl⟩

/-- The data of an element are read as the attributes that they were written for, unless one of them
is an integer of too many digits. -/
theorem data_iff {base : String} {as : List (String × String)} {text : Option String}
    (simple : ∀ f ∈ fields, Simple f.2) (distinct : (fields.map (·.1)).Nodup)
    (used : ∀ f ∈ fields, useOf scope f ∈ final) :
    data (keyList 0 final) (element base as text (fields.map (dataElement final scope))) = .ok part ↔
      (∀ f ∈ fields, Readable f.2) ∧ part = fields := by
  have children : (element base as text (fields.map (dataElement final scope))).childrenNamed
      (named "data") = fields.map (dataElement final scope) := by
    refine List.filter_eq_self.2 fun e he => ?_
    obtain ⟨f, -, rfl⟩ := List.mem_map.1 he
    rfl
  have joined : TypeGraph.updated [] (fields.map fun f => [f]).flatten = fields := by
    rw [← List.flatMap_def, List.flatMap_singleton', TypeGraph.updated_nil distinct]
  rw [data, children, bind_eq_ok_iff]
  simp only [mapM_datum_iff simple used]
  constructor
  · rintro ⟨ps, ⟨readable, rfl⟩, same⟩
    exact ⟨readable, joined ▸ (Except.ok.inj same).symm⟩
  · rintro ⟨readable, rfl⟩
    exact ⟨_, ⟨readable, rfl⟩, congrArg Except.ok joined⟩

end PropertyMetadata.GraphMl
