import Mathlib.Data.List.Forall2
import PropertyMetadata.Property.Declaration
import PropertyMetadata.Proofs.Scan.Reports

/-! Keys of objects. A key is written as a plain name, or as a text between two marks. Each pair and
each shorthand of an object makes one assignment, in order, and the name of the assignment is the
key without any marks at its ends: with the marks around the key go those that the key itself begins
or ends with. So the assignments have the names and the keys of the object just when no key begins
or ends with a mark. -/

namespace PropertyMetadata

open Text
open List (Forall₂)

inductive ObjectKey where
  | plain (name : String)
  | marked (mark : Char) (content : String)
  deriving DecidableEq

namespace ObjectKey

/-- The key that is meant. -/
def content : ObjectKey → String
  | plain s => s
  | marked _ s => s

def written : ObjectKey → String
  | plain s => s
  | marked q s => String.ofList (q :: s.toList ++ [q])

/-- Names without marks, and texts between single or double marks that hold neither these nor
backslashes nor line breaks. -/
inductive Proper : ObjectKey → Prop
  | plain {s : String} (h : ∀ c ∈ s.toList, isQuote c = false) : Proper (plain s)
  | marked {q : Char} {s : String} (mark : q = '\'' ∨ q = '"')
      (h : ∀ c ∈ s.toList, c ≠ q ∧ c ≠ '\\' ∧ c ≠ '\n' ∧ c ≠ '\r') : Proper (marked q s)

/-- Whether a key begins or ends with a mark. -/
def Edged (k : ObjectKey) : Prop :=
  ∃ c, isQuote c = true ∧ (k.content.toList.head? = some c ∨ k.content.toList.getLast? = some c)

/-- The name that an assignment gets from a key. -/
def name (k : ObjectKey) : String := unquoted k.content

variable {k : ObjectKey}

/-- The marks around a key are removed together with those at its own ends. -/
theorem Proper.unquoted_written (h : k.Proper) : unquoted k.written = k.name := by
  cases h with
  | plain => rfl
  | @marked q s mark =>
    have quote : isQuote q = true := by
      rcases mark with rfl | rfl <;> rfl
    rw [written, unquoted, String.toList_ofList, trimBoth_between quote]
    rfl

/-- The name is the key just when this neither begins nor ends with a mark. -/
theorem name_eq_content_iff : k.name = k.content ↔ ¬ k.Edged := by
  rw [name, unquoted, ← String.toList_inj, String.toList_ofList, trimBoth_eq_self_iff, Edged]
  constructor
  · rintro ⟨first, last⟩ ⟨c, quote, h | h⟩
    · exact Bool.false_ne_true ((first c h).symm.trans quote)
    · exact Bool.false_ne_true ((last c h).symm.trans quote)
  · intro h
    exact ⟨fun c hc => Bool.eq_false_iff.2 fun quote => h ⟨c, quote, .inl hc⟩,
      fun c hc => Bool.eq_false_iff.2 fun quote => h ⟨c, quote, .inr hc⟩⟩

theorem not_edged_plain {s : String} (h : (plain s).Proper) : ¬ (plain s).Edged := by
  cases h with
  | plain h =>
    rintro ⟨c, quote, first | last⟩
    · exact Bool.false_ne_true ((h c (List.mem_of_mem_head? first)).symm.trans quote)
    · exact Bool.false_ne_true ((h c (List.mem_of_getLast? last)).symm.trans quote)

theorem unquoted_name (k : ObjectKey) : unquoted k.name = k.name := by
  rw [name, unquoted, unquoted, String.toList_ofList, trimBoth_trimBoth]

/-- The name is what stands in the key between marks, and neither begins nor ends with one. -/
theorem exists_name (k : ObjectKey) : (∃ before after,
    k.content.toList = before ++ k.name.toList ++ after ∧
      ∀ c ∈ before ++ after, isQuote c = true) ∧ ¬ (plain k.name).Edged := by
  constructor
  · rw [name, unquoted, String.toList_ofList]
    exact exists_trimBoth isQuote k.content.toList
  · rw [← name_eq_content_iff]
    exact k.unquoted_name

end ObjectKey

/-- What a member of an object enters: a value under a key. -/
structure KeyedValue where
  key : ObjectKey
  value : String
  deriving DecidableEq

/-- The assignment of an entry. -/
def KeyedValue.assignment (e : KeyedValue) : Assignment := ⟨e.key.name, e.value, false⟩

namespace Tree

variable {source : List UInt8} {t : Tree} {e : Option KeyedValue} {es : List (Option KeyedValue)}

/-- What a member of an object enters: nothing if it is a comment, a name under itself if it is a
shorthand, and the text of its value, if it has one, if it is a pair. -/
inductive Enters (source : List UInt8) (t : Tree) : Option KeyedValue → Prop
  | comment (h : t.kind = "comment") : Enters source t none
  | shorthand {name : String} (h : t.kind = "shorthand_property_identifier")
      (text : t.text source = name) (proper : (ObjectKey.plain name).Proper) :
      Enters source t (some ⟨.plain name, name⟩)
  | pair {part : Tree} {k : ObjectKey} {value : String} (h : t.kind = "pair")
      (key : t.part? "key" = some part) (text : part.text source = k.written) (proper : k.Proper)
      (assigned : ((t.part? "value").map (Tree.text source)).getD "" = value) :
      Enters source t (some ⟨k, value⟩)

theorem Enters.assignment?_eq (h : t.Enters source e) :
    t.assignment? source = .ok (e.map KeyedValue.assignment) := by
  cases h with
  | comment h => simp [assignment?, h]
  | shorthand h text proper =>
    have name := ObjectKey.name_eq_content_iff.2 (ObjectKey.not_edged_plain proper)
    simp [assignment?, h, text, KeyedValue.assignment, name, ObjectKey.content]
  | pair h key text proper assigned =>
    simp [assignment?, h, key, text, proper.unquoted_written, assigned, KeyedValue.assignment]

/-- An object makes one assignment for each entry, in order. -/
theorem assignments_eq (h : Forall₂ (Enters source) t.namedChildren es) :
    t.assignments source = .ok ((es.filterMap id).map KeyedValue.assignment) := by
  have each {ms : List Tree} {es : List (Option KeyedValue)} (h : Forall₂ (Enters source) ms es) :
      ms.mapM (assignment? source) = .ok (es.map (Option.map KeyedValue.assignment)) := by
    induction h with
    | nil => rfl
    | cons first _ ih =>
      rw [List.mapM_cons, first.assignment?_eq, ih]
      rfl
  have given : (es.map (Option.map KeyedValue.assignment)).filterMap id =
      (es.filterMap id).map KeyedValue.assignment := by
    rw [List.filterMap_map, List.map_filterMap]
    rfl
  rw [assignments, each h, ← given]
  rfl

end Tree

namespace Assignment

variable {as bs : List Assignment}

/-- Assignments with synthetic ones put in anywhere. -/
inductive Padded : List Assignment → List Assignment → Prop
  | nil : Padded [] []
  | kept (a : Assignment) {as bs : List Assignment} (h : Padded as bs) : Padded (a :: as) (a :: bs)
  | added (name value : String) {as bs : List Assignment} (h : Padded as bs) :
      Padded as (synthesized name value :: bs)

theorem Padded.hasKey_eq (h : Padded as bs) (key : Option String) :
    hasKey key bs = hasKey key as := by
  induction h with
  | nil => rfl
  | kept a _ ih =>
    rw [hasKey, List.any_cons, ← hasKey, ih]
    rfl
  | added name value _ ih =>
    rw [hasKey, List.any_cons, ← hasKey, ih]
    rfl

theorem Padded.refl (as : List Assignment) : Padded as as := by
  induction as with
  | nil => exact .nil
  | cons a as ih => exact .kept a ih

end Assignment

namespace KeyedValue

open Assignment (hasKey Padded)

variable {entries : List KeyedValue} {all : List Assignment}

/-- The keys that assignments have, whatever synthetic ones are put in, are the names that they got
from the keys of the object. -/
theorem hasKey_iff (h : Padded (entries.map assignment) all) (k : String) :
    hasKey (some k) all = true ↔ ∃ e ∈ entries, e.key.name = k := by
  rw [h.hasKey_eq]
  simp [hasKey, assignment]

/-- The names are the keys just when no key begins or ends with a mark. -/
theorem names_eq_iff : (entries.map assignment).map Assignment.name = entries.map (·.key.content) ↔
    ∀ e ∈ entries, ¬ e.key.Edged := by
  rw [List.map_map, List.map_inj_left]
  exact forall₂_congr fun e _ => ObjectKey.name_eq_content_iff

/-- The keys of the object can be asked for just when none begins or ends with a mark. -/
theorem hasKey_content_iff :
    (∀ all, Padded (entries.map assignment) all → ∀ k,
      (hasKey (some k) all = true ↔ ∃ e ∈ entries, e.key.content = k)) ↔
    ∀ e ∈ entries, ¬ e.key.Edged := by
  constructor
  · intro h e he
    -- an assignment with this key has a name with a mark at an end, unless the key has none
    obtain ⟨e', -, same⟩ :=
      (hasKey_iff (.refl _) _).1 ((h _ (.refl _) e.key.content).2 ⟨e, he, rfl⟩)
    rw [← ObjectKey.name_eq_content_iff, ObjectKey.name, ← same, ObjectKey.unquoted_name]
  · intro h all padded k
    rw [hasKey_iff padded]
    exact exists_congr fun e => and_congr_right fun he => by
      rw [ObjectKey.name_eq_content_iff.2 (h e he)]

end KeyedValue

namespace Tree

open Assignment (hasKey Padded)

variable {source : List UInt8} {t : Tree} {es : List (Option KeyedValue)}

/-- An object makes one assignment for each pair and each shorthand, in order, named by the key
without any marks at its ends, and synthetic assignments put in anywhere give it no keys. So the
names are the keys, and the assignments have the keys of the object, just when no key begins or ends
with a mark, which a plain name never does. -/
theorem assignments_keys (h : Forall₂ (Enters source) t.namedChildren es) :
    ∃ as, t.assignments source = .ok as ∧ as = (es.filterMap id).map KeyedValue.assignment ∧
      (∀ e ∈ es.filterMap id, (∃ before after,
        e.key.content.toList = before ++ e.key.name.toList ++ after ∧
          ∀ c ∈ before ++ after, isQuote c = true) ∧ ¬ (ObjectKey.plain e.key.name).Edged) ∧
      (∀ all, Padded as all → ∀ k,
        (hasKey (some k) all = true ↔ ∃ e ∈ es.filterMap id, e.key.name = k)) ∧
      (as.map Assignment.name = (es.filterMap id).map (·.key.content) ↔
        ∀ e ∈ es.filterMap id, ¬ e.key.Edged) ∧
      ((∀ all, Padded as all → ∀ k,
          (hasKey (some k) all = true ↔ ∃ e ∈ es.filterMap id, e.key.content = k)) ↔
        ∀ e ∈ es.filterMap id, ¬ e.key.Edged) ∧
      ∀ s, (ObjectKey.plain s).Proper → ¬ (ObjectKey.plain s).Edged :=
  ⟨_, assignments_eq h, rfl, fun e _ => e.key.exists_name,
    fun _ padded k => KeyedValue.hasKey_iff padded k,
    KeyedValue.names_eq_iff, KeyedValue.hasKey_content_iff, fun _ => ObjectKey.not_edged_plain⟩

end Tree

namespace OneRow

def shortPair (mark : String) : Tree :=
  span "pair" 2 10 none [
    span "string" 2 7 (some "key") [
      token mark 2 3, span "string_fragment" 3 6 none [], token mark 6 7],
    token ":" 7 8, span "number" 9 10 (some "value") []]

def quotedSource : List UInt8 := Text.Utf8.encode "\x7b 'i\"s': 1, /**/ b \x7d"

def quoted : Tree :=
  span "object" 0 20 none [
    token "\x7b" 0 1, shortPair "'", token "," 10 11, span "comment" 12 16 none [],
    span "shorthand_property_identifier" 17 18 none [], token "\x7d" 19 20]

def innerSource : List UInt8 := Text.Utf8.encode "\x7b \"'a'\": 1 \x7d"

def inner : Tree :=
  span "object" 0 12 none [token "\x7b" 0 1, shortPair "\"", token "\x7d" 11 12]

end OneRow

open OneRow

namespace Tree

open Assignment (hasKey Padded)

theorem assignments_keys_quoted :
    Forall₂ (Enters quotedSource) quoted.namedChildren
      [some ⟨.marked '\'' "i\"s", "1"⟩, none, some ⟨.plain "b", "b"⟩] ∧
    quoted.assignments quotedSource = .ok [⟨"i\"s", "1", false⟩, ⟨"b", "b", false⟩] ∧
    ∀ all, Padded [⟨"i\"s", "1", false⟩, ⟨"b", "b", false⟩] all → ∀ k,
      (hasKey (some k) all = true ↔
        ∃ e ∈ [KeyedValue.mk (.marked '\'' "i\"s") "1", ⟨.plain "b", "b"⟩], e.key.content = k) := by
  have pair : Enters quotedSource (shortPair "'") (some ⟨.marked '\'' "i\"s", "1"⟩) :=
    .pair rfl rfl (by with_unfolding_all rfl) (.marked (.inl rfl) (by simp))
      (by with_unfolding_all rfl)
  have name : Enters quotedSource (span "shorthand_property_identifier" 17 18 none [])
      (some ⟨.plain "b", "b"⟩) :=
    .shorthand rfl (by with_unfolding_all rfl) (.plain (by simp [isQuote]))
  have entered : Forall₂ (Enters quotedSource) quoted.namedChildren
      [some ⟨.marked '\'' "i\"s", "1"⟩, none, some ⟨.plain "b", "b"⟩] :=
    .cons pair (.cons (.comment rfl) (.cons name .nil))
  obtain ⟨as, run, rfl, -, -, -, keys, -⟩ := assignments_keys entered
  refine ⟨entered, run, keys.2 ?_⟩
  intro e he
  rw [← ObjectKey.name_eq_content_iff]
  have each : ∀ e ∈ [KeyedValue.mk (.marked '\'' "i\"s") "1", ⟨.plain "b", "b"⟩],
      e.key.name = e.key.content := by decide
  exact each e he

/-- A key between marks that begins and ends with marks of another kind loses these as well: the
assignment has another name, and the key cannot be asked for. -/
theorem assignments_inner :
    Forall₂ (Enters innerSource) inner.namedChildren [some ⟨.marked '"' "'a'", "1"⟩] ∧
    inner.assignments innerSource = .ok [⟨"a", "1", false⟩] ∧
    hasKey (some "'a'") [⟨"a", "1", false⟩] = false ∧
    hasKey (some "a") [⟨"a", "1", false⟩] = true := by
  have pair : Enters innerSource (shortPair "\"") (some ⟨.marked '"' "'a'", "1"⟩) :=
    .pair rfl rfl (by with_unfolding_all rfl) (.marked (.inr rfl) (by simp))
      (by with_unfolding_all rfl)
  exact ⟨.cons pair .nil, by with_unfolding_all rfl, rfl, rfl⟩

end Tree

end PropertyMetadata
