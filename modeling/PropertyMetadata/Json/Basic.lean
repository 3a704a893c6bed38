import PropertyMetadata.Number.Double

/-! JSON values. Objects keep their fields in order, each key once. Equality of values is `alike`:
numbers are compared by value, also across truth values, integers and doubles, and the order of
fields does not matter. -/

namespace PropertyMetadata

open Number

/-- A JSON value, with integers of any size and doubles apart. -/
inductive Json where
  | null
  | bool (b : Bool)
  | int (i : Int)
  | double (d : Double)
  | string (s : String)
  | array (items : List Json)
  | object (fields : List (String × Json))
  deriving Inhabited, Repr

namespace Json

/-- The value of a key in a list of fields. -/
def lookup {α : Type} : List (String × α) → String → Option α
  | [], _ => none
  | (k, x) :: fs, key => if k = key then some x else lookup fs key

/-- Fields with a key set: a known key keeps its place, a new one goes to the end. -/
def insert {α : Type} : List (String × α) → String → α → List (String × α)
  | [], key, value => [(key, value)]
  | (k, x) :: fs, key, value => if k = key then (k, value) :: fs else (k, x) :: insert fs key value

theorem lookup_insert {α : Type} (fields : List (String × α)) (key : String) (value : α)
    (k : String) :
    lookup (insert fields key value) k = if key = k then some value else lookup fields k := by
  induction fields with
  | nil => rfl
  | cons f fs ih =>
    obtain ⟨k', x⟩ := f
    simp only [insert]
    by_cases h : k' = key
    · subst h; by_cases h' : k' = k <;> simp [lookup, h']
    · by_cases h' : k' = k
      · subst h'; simp [lookup, h, Ne.symm h]
      · simp [lookup, h, h', ih]

theorem mem_of_mem_insert {α : Type} {fields : List (String × α)} {key : String} {value : α}
    {f : String × α} (h : f ∈ insert fields key value) : f = (key, value) ∨ f ∈ fields := by
  induction fields with
  | nil => exact .inl (List.mem_singleton.1 h)
  | cons g fields ih =>
    simp only [insert] at h
    split at h
    · next same =>
      rcases List.mem_cons.1 h with rfl | h
      · exact .inl (same ▸ rfl)
      · exact .inr (List.mem_cons_of_mem _ h)
    · rcases List.mem_cons.1 h with rfl | h
      · exact .inr List.mem_cons_self
      · exact (ih h).imp_right (List.mem_cons_of_mem _)

theorem insert_of_not_mem {α : Type} {fields : List (String × α)} {key : String}
    (h : key ∉ fields.map (·.1)) (value : α) :
    insert fields key value = fields ++ [(key, value)] := by
  induction fields with
  | nil => rfl
  | cons f fields ih =>
    simp only [List.map_cons, List.mem_cons, not_or] at h
    rw [insert, if_neg (Ne.symm h.1), ih h.2]
    rfl

theorem keys_insert {α : Type} (fields : List (String × α)) (key : String) (value : α) :
    (insert fields key value).map (·.1) =
      if key ∈ fields.map (·.1) then fields.map (·.1) else fields.map (·.1) ++ [key] := by
  induction fields with
  | nil => rfl
  | cons f fields ih =>
    by_cases h : f.1 = key
    · simp [insert, h]
    · simp only [insert, h, if_false, List.map_cons, ih, List.mem_cons, Ne.symm h, false_or]
      split <;> rfl

theorem nodup_insert {α : Type} {fields : List (String × α)} (h : (fields.map (·.1)).Nodup)
    (key : String) (value : α) : ((insert fields key value).map (·.1)).Nodup := by
  rw [keys_insert]
  split
  · exact h
  next absent =>
    rw [List.nodup_append]
    exact ⟨h, List.pairwise_singleton _ _, fun a ha b hb same =>
      absent (List.mem_singleton.1 hb ▸ same ▸ ha)⟩

theorem mem_of_lookup {α : Type} {fields : List (String × α)} {key : String} {value : α}
    (h : lookup fields key = some value) : (key, value) ∈ fields := by
  induction fields with
  | nil => cases h
  | cons p fields ih =>
    simp only [lookup] at h
    split at h
    next same =>
      obtain rfl := Option.some.inj h
      exact same ▸ List.mem_cons_self
    next => exact List.mem_cons_of_mem _ (ih h)

theorem lookup_of_mem {α : Type} {fields : List (String × α)} {key : String} {value : α}
    (hn : (fields.map (·.1)).Nodup) (h : (key, value) ∈ fields) :
    lookup fields key = some value := by
  induction fields with
  | nil => cases h
  | cons p fields ih =>
    obtain ⟨apart, hn⟩ := List.nodup_cons.1 hn
    rcases List.mem_cons.1 h with rfl | h
    · simp [lookup]
    · have other : p.1 ≠ key := by
        rintro rfl
        exact apart (List.mem_map.2 ⟨_, h, rfl⟩)
      simp [lookup, other, ih hn h]

def field? : Json → String → Option Json
  | object fields, key => lookup fields key
  | _, _ => none

/-- Whether a value counts as true: all but null, false, zero, and what is empty. -/
def truthy : Json → Bool
  | null => false
  | bool b => b
  | int i => i != 0
  | double d => !d.isZero
  | string s => !s.isEmpty
  | array items => !items.isEmpty
  | object fields => !fields.isEmpty

/-- A number as an integer or a double; truth values count as 1 and 0. -/
def number? : Json → Option (Int ⊕ Double)
  | bool b => some (.inl (if b then 1 else 0))
  | int i => some (.inl i)
  | double d => some (.inr d)
  | _ => none

def sameNumber : Int ⊕ Double → Int ⊕ Double → Bool
  | .inl i, .inl j => i == j
  | .inl i, .inr d => d.sameInt i
  | .inr d, .inl i => d.sameInt i
  | .inr d, .inr d' => d.same d'

mutual

def alike : Json → Json → Bool
  | null, null => true
  | string s, string t => s == t
  | array xs, array ys => alikeItems xs ys
  | object fs, object gs => fs.length == gs.length && alikeFields fs gs
  | x, y =>
    match x.number?, y.number? with
    | some a, some b => sameNumber a b
    | _, _ => false

def alikeItems : List Json → List Json → Bool
  | [], [] => true
  | x :: xs, y :: ys => alike x y && alikeItems xs ys
  | _, _ => false

/-- Every field has a like one under the same key. -/
def alikeFields : List (String × Json) → List (String × Json) → Bool
  | [], _ => true
  | (k, x) :: fs, gs =>
    (match lookup gs k with | some y => alike x y | none => false) && alikeFields fs gs

end

/-- Whether a value can name a node or be looked up in a set: all but arrays and objects. -/
def isScalar : Json → Bool
  | array _ | object _ => false
  | _ => true

theorem alike_string (s t : String) : alike (string s) (string t) = (s == t) := by
  simp [alike]

end Json

end PropertyMetadata
