import PropertyMetadata.Proofs.Building.Faithful

/-! The names that a builder chooses. The counter of a builder goes up with every name that it
chooses, so no two of them are alike, although types and symbols share the counter. It does not look
at the names that calls are given: a chosen name is taken just when an earlier call was given this
very name, and then two nodes become one. -/

namespace PropertyMetadata

open TypeGraph
open List (Forall₂)

namespace Builder

variable {b : Builder} {c d : Call} {calls before : List Call} {k k' : TypeGraph} {s : String}
  {x : Json}

/-- What a call is given as the name of its node. -/
def Call.given? : Call → Option Json
  | .type p => some p.id
  | .symbol p => some p.id
  | .declare _ _ => none

/-- The letter with which a name begins that is chosen for a call. -/
def Call.letter : Call → String
  | .type _ => "t"
  | .symbol _ => "s"
  | .declare _ _ => ""

def Call.isAutomatic (c : Call) : Bool := c.given?.any fun id => !id.truthy

/-- Whether a call adds a node. A symbol is added only if its flags can be read. -/
def Call.adds : Call → Bool
  | .type _ => true
  | .symbol p => p.flags.members.isOk
  | .declare _ _ => false

def Call.name? (b : Builder) (c : Call) : Option Json :=
  c.given?.map fun id => (b.nameFor id c.letter).1

def ids (b : Builder) : List Json := b.nodes.filterMap fun record => record.field? "id"

def bare (b : Builder) : Except Fault TypeGraph := b.nodes.foldlM addNodeRecord (empty true)

/-- The name that is chosen for a call behind others. -/
def chosen (before : List Call) (c : Call) : String :=
  c.letter ++ toString (before.countP Call.isAutomatic + 1)

/-- One of several calls adds a node under a name that it is given. -/
def IsGiven (s : String) (calls : List Call) : Prop :=
  ∃ d ∈ calls, d.adds = true ∧ d.given? = some (.string s)

/-! ### Calls one by one -/

/-- A call moves the counter if its name is left to the builder, even if it fails. -/
theorem next_perform (b : Builder) (c : Call) :
    (b.perform c).next = b.next + if c.isAutomatic then 1 else 0 := by
  have named (id : Json) (letter : String) :
      (b.nameFor id letter).2.next = b.next + if !id.truthy then 1 else 0 := by
    unfold nameFor
    cases id.truthy <;> rfl
  cases c with
  | type p =>
    rw [perform, addType]
    refine Eq.trans ?_ (named p.id "t")
    cases p.typeArguments.members with
    | error e => rfl
    | ok args => cases p.members.members <;> rfl
  | symbol p =>
    rw [perform, addSymbol]
    refine Eq.trans ?_ (named p.id "s")
    cases p.flags.members <;> rfl
  | declare s t => rfl

theorem nodes_perform (b : Builder) (c : Call) : ∃ records,
    (b.perform c).nodes = b.nodes ++ records ∧
      records.map (fun record => record.field? "id") = if c.adds then [c.name? b] else [] := by
  cases c with
  | type p =>
    refine ⟨[.object [("id", (b.nameFor p.id "t").1), ("category", .string "type"),
      ("kind", p.kind), ("text", p.text)]], ?_, rfl⟩
    rw [perform, addType, ← nodes_nameFor b p.id "t"]
    dsimp only
    cases p.typeArguments.members with
    | error e => rfl
    | ok args => cases p.members.members <;> rfl
  | symbol p =>
    rw [perform, addSymbol, Call.adds, ← nodes_nameFor b p.id "s"]
    dsimp only
    cases p.flags.members with
    | error e => exact ⟨[], (List.append_nil _).symm, rfl⟩
    | ok flags => exact ⟨_, rfl, rfl⟩
  | declare s t => exact ⟨[], (List.append_nil _).symm, rfl⟩

theorem ids_perform (b : Builder) (c : Call) :
    (b.perform c).ids = b.ids ++ if c.adds then (c.name? b).toList else [] := by
  obtain ⟨records, nodes, names⟩ := nodes_perform b c
  have added : records.filterMap (fun record => record.field? "id") =
      (records.map fun record => record.field? "id").filterMap id := by
    rw [List.filterMap_map]
    rfl
  rw [ids, nodes, List.filterMap_append, added, names, ← ids]
  cases c.adds with
  | true => cases hn : c.name? b <;> simp
  | false => simp

theorem outcome_eq_ok {y : Option Json} (h : c.outcome b = .ok y) : y = c.name? b := by
  cases c with
  | type p =>
    rw [Call.outcome, addType] at h
    cases hargs : p.typeArguments.members with
    | error e => simp [hargs, Except.map] at h
    | ok args =>
      cases hmembers : p.members.members with
      | error e => simp [hargs, hmembers, Except.map] at h
      | ok members =>
        simpa [hargs, hmembers, Except.map, Call.name?, Call.given?, Call.letter, eq_comm] using h
  | symbol p =>
    rw [Call.outcome, addSymbol] at h
    cases hflags : p.flags.members with
    | error e => simp [hflags, Except.map] at h
    | ok flags =>
      simpa [hflags, Except.map, Call.name?, Call.given?, Call.letter, eq_comm] using h
  | declare s t => exact (Except.ok.inj h).symm

/-! ### Calls one after the other -/

/-- The counter counts the names that are chosen. -/
theorem next_performAll (b : Builder) (calls : List Call) :
    (b.performAll calls).next = b.next + calls.countP Call.isAutomatic := by
  induction calls generalizing b with
  | nil => rfl
  | cons c calls ih =>
    rw [performAll, List.foldl_cons, ← performAll, ih, next_perform, List.countP_cons]
    omega

/-- A name is in the records if it was there before, or if it is the name of a call that adds a
node. -/
theorem mem_ids_performAll : x ∈ (b.performAll calls).ids ↔ x ∈ b.ids ∨
    ∃ before d behind, calls = before ++ d :: behind ∧ d.adds = true ∧
      d.name? (b.performAll before) = some x := by
  induction calls generalizing b with
  | nil => simp [performAll]
  | cons c calls ih =>
    have first : x ∈ (b.perform c).ids ↔ x ∈ b.ids ∨ c.adds = true ∧ c.name? b = some x := by
      rw [ids_perform, List.mem_append]
      cases c.adds <;> simp
    rw [performAll, List.foldl_cons, ← performAll, ih, first, or_assoc]
    refine or_congr_right ⟨?_, ?_⟩
    · rintro (⟨adds, named⟩ | ⟨before, d, behind, rfl, adds, named⟩)
      · exact ⟨[], c, calls, rfl, adds, named⟩
      · exact ⟨c :: before, d, behind, rfl, adds, named⟩
    · rintro ⟨_ | ⟨c', before⟩, d, behind, split, adds, named⟩
      · obtain ⟨rfl, rfl⟩ := List.cons.inj split
        exact .inl ⟨adds, named⟩
      · obtain ⟨rfl, rfl⟩ := List.cons.inj split
        exact .inr ⟨before, d, behind, rfl, adds, named⟩

/-! ### Chosen names -/

theorem toList_chosen (automatic : c.isAutomatic = true) (before : List Call) : ∃ letter,
    (chosen before c).toList =
      letter :: Nat.toDigits 10 (before.countP Call.isAutomatic + 1) := by
  cases c with
  | type p => exact ⟨'t', by simp [chosen, Call.letter]⟩
  | symbol p => exact ⟨'s', by simp [chosen, Call.letter]⟩
  | declare s t => cases automatic

/-- Names that are chosen for calls of which one comes later than the other are not alike, be they
of types or of symbols. -/
theorem countP_eq_of_chosen_eq {earlier : List Call} (hc : c.isAutomatic = true)
    (hd : d.isAutomatic = true) (h : chosen earlier d = chosen before c) :
    earlier.countP Call.isAutomatic = before.countP Call.isAutomatic := by
  obtain ⟨l, hl⟩ := toList_chosen hd earlier
  obtain ⟨m, hm⟩ := toList_chosen hc before
  rw [h, hm] at hl
  have digits := (List.cons.inj hl).2
  have numbers := congrArg (fun ds => Nat.ofDigitChars 10 ds 0) digits
  simp only [Nat.ofDigitChars_ten_toDigits] at numbers
  omega

theorem name?_performAll (d : Call) (before : List Call) :
    d.name? (performAll {} before) =
      if d.isAutomatic then some (.string (chosen before d)) else d.given? := by
  have number : (performAll {} before).next = before.countP Call.isAutomatic + 1 := by
    rw [next_performAll, Nat.add_comm]
  unfold Call.name? Call.isAutomatic chosen
  cases d.given? with
  | none => rfl
  | some id =>
    rw [Option.map_some, Option.any_some, nameFor, number]
    cases id.truthy <;> rfl

/-- A chosen name is taken just when one of the calls before was given this very name. -/
theorem chosen_mem_ids_iff (automatic : c.isAutomatic = true) :
    .string (chosen before c) ∈ (performAll {} before).ids ↔ IsGiven (chosen before c) before := by
  have none : Json.string (chosen before c) ∉ ids {} := List.not_mem_nil
  rw [mem_ids_performAll, or_iff_right none]
  constructor
  · rintro ⟨earlier, d, behind, rfl, adds, named⟩
    rw [name?_performAll] at named
    split at named
    next hd =>
      -- two names of the counter are alike only if it stood at the same number
      have same := Json.string.inj (Option.some.inj named)
      have count := countP_eq_of_chosen_eq automatic hd same
      rw [List.countP_append, List.countP_cons_of_pos hd] at count
      omega
    next => exact ⟨d, by simp, adds, named⟩
  · rintro ⟨d, hd, adds, given⟩
    obtain ⟨earlier, behind, rfl⟩ := List.append_of_mem hd
    refine ⟨earlier, d, behind, rfl, adds, ?_⟩
    obtain ⟨letter, hl⟩ := toList_chosen automatic (earlier ++ d :: behind)
    have spelled : chosen (earlier ++ d :: behind) c ≠ "" := fun h => by simp [h] at hl
    have named : d.isAutomatic = false := by simp [Call.isAutomatic, given, Json.truthy, spelled]
    rw [name?_performAll, named, given]
    rfl

/-! ### Nodes -/

theorem has_bare_iff (h : b.bare = .ok k) : k.has (.string s) = true ↔ .string s ∈ b.ids := by
  obtain ⟨ns, described, rfl⟩ := foldlM_addNodeRecord_iff.1 h
  have names : b.ids = ns.map Node.id := by
    rw [← List.filterMap_eq_map]
    exact filterMap_eq_of_forall₂ (fun _ _ hr => field?_of_required hr.id) described
  rw [names, has_ofNodes_iff, List.mem_map]

/-- A call that adds a node leaves the graph with as many nodes as before just when there is a node
of its name already. -/
theorem length_nodes_perform (hb : b.bare = .ok k) (hc : (b.perform c).bare = .ok k')
    (adds : c.adds = true) (named : c.name? b = some x) :
    k'.nodes.length = k.nodes.length ↔ k.has x = true := by
  obtain ⟨records, nodes, names⟩ := nodes_perform b c
  rw [if_pos adds, named] at names
  obtain ⟨record, rfl, id⟩ := List.map_eq_singleton_iff.1 names
  rw [bare, nodes, List.foldlM_append, bind_eq_ok_iff] at hc
  obtain ⟨k₁, hk, hc⟩ := hc
  obtain rfl : k = k₁ := Except.ok.inj (hb.symm.trans hk)
  simp only [List.foldlM_cons, List.foldlM_nil, bind_pure] at hc
  obtain ⟨n, described, rfl⟩ := addNodeRecord_eq_ok_iff.1 hc
  obtain rfl : n.id = x := Option.some.inj ((field?_of_required described.id).symm.trans id)
  have lengths := congrArg List.length (map_id_put k n)
  rw [List.length_map] at lengths
  rw [lengths]
  split
  next there => simp [there]
  next absent => simp [absent]

/-- A name that a builder chooses is the letter of the call and the number of names chosen so far
and this one: the call gives it back, unless it fails, and its node has it. It is taken just when an
earlier call was given this very name for its node, and just then the two nodes become one. -/
theorem chosen_taken_iff (automatic : c.isAutomatic = true) (before : List Call) :
    (∀ y, c.outcome (performAll {} before) = .ok y → y = some (.string (chosen before c))) ∧
    (performAll {} (before ++ [c])).ids = (performAll {} before).ids ++
      (if c.adds then [.string (chosen before c)] else []) ∧
    (.string (chosen before c) ∈ (performAll {} before).ids ↔ IsGiven (chosen before c) before) ∧
    ∀ k k', (performAll {} before).bare = .ok k → (performAll {} (before ++ [c])).bare = .ok k' →
      c.adds = true →
      (k'.nodes.length = k.nodes.length ↔ IsGiven (chosen before c) before) := by
  have named := name?_performAll c before
  rw [if_pos automatic] at named
  have last : performAll {} (before ++ [c]) = (performAll {} before).perform c :=
    List.foldl_append
  rw [last]
  refine ⟨fun y hy => ?_, ?_, chosen_mem_ids_iff automatic, fun k k' hk hk' adds => ?_⟩
  · exact (outcome_eq_ok hy).trans named
  · rw [ids_perform, named]
    rfl
  · rw [length_nodes_perform hk hk' adds named, has_bare_iff hk]
    exact chosen_mem_ids_iff automatic

/-- A class under a name that looks like a chosen one. -/
def userCall : Call :=
  .type { kind := .string "class", text := .string "User", id := .string "t1" }

/-- A type whose name is left to the builder. -/
def textCall : Call := .type { kind := .string "string", text := .string "string" }

/-- Behind the class the chosen name is taken, and the second node becomes one with the first.
Without the class the same name is free. -/
theorem chosen_text_taken : textCall.isAutomatic = true ∧ chosen [userCall] textCall = "t1" ∧
    textCall.outcome (performAll {} [userCall]) = .ok (some (.string "t1")) ∧
    (performAll {} [userCall, textCall]).ids = [.string "t1", .string "t1"] ∧
    IsGiven "t1" [userCall] ∧ .string "t1" ∈ (performAll {} [userCall]).ids ∧
    (∃ k k', (performAll {} [userCall]).bare = .ok k ∧
      (performAll {} [userCall, textCall]).bare = .ok k' ∧ k'.nodes.length = k.nodes.length) ∧
    chosen [] textCall = "t1" ∧ ¬ IsGiven "t1" [] ∧ .string "t1" ∉ (performAll {} []).ids := by
  have behind : chosen [userCall] textCall = "t1" := by decide
  have alone : chosen [] textCall = "t1" := by decide
  have given : IsGiven "t1" [userCall] := ⟨userCall, List.mem_singleton_self _, rfl, rfl⟩
  have free : ¬ IsGiven "t1" [] := fun ⟨_, absent, _⟩ => List.not_mem_nil absent
  obtain ⟨-, ids, taken, one⟩ := chosen_taken_iff (c := textCall) rfl [userCall]
  obtain ⟨-, -, taken', -⟩ := chosen_taken_iff (c := textCall) rfl []
  rw [behind] at ids taken one
  rw [alone] at taken'
  exact ⟨rfl, behind, rfl, ids, given, taken.2 given,
    ⟨_, _, rfl, rfl, (one _ _ rfl rfl rfl).2 given⟩,
    alone, free, fun h => free (taken'.1 h)⟩

/-- The name that is chosen behind the class is that of the class, and the class is lost. -/
theorem chosen_text_merges : textCall.isAutomatic = true ∧
    userCall.outcome {} = .ok (some (.string "t1")) ∧
    textCall.outcome (performAll {} [userCall]) = .ok (some (.string "t1")) ∧
    ∃ g, (performAll {} [userCall, textCall]).build = .ok g ∧
      g.nodes.map Node.id = [.string "t1"] ∧
      g.checker.is .classType (.string "t1") = .ok false :=
  ⟨rfl, rfl, rfl, _, rfl, rfl, rfl⟩

end Builder

end PropertyMetadata
