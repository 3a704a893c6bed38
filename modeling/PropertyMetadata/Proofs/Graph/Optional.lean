import PropertyMetadata.Proofs.Graph.Likeness
import PropertyMetadata.Proofs.Graph.Safety
import PropertyMetadata.Proofs.Occurrence

/-! Optional properties. A compiler makes the union of a type and `undefined` of an optional
property, and writes it as the text of the type with `undefined` behind it. The union resolves as
the type does. But the text is looked at first: where it has the mark of a wrapper, the union counts
as a wrapper itself and resolves as its own type argument, if it has one. -/

namespace PropertyMetadata

open Text

/-- What a compiler writes behind the text of a type that may be missing. -/
def undefinedMark : String := " | undefined"

theorem toList_undefinedMark : undefinedMark.toList = ' ' :: "| undefined".toList := by rfl

/-- A union has the mark of a wrapper just when the type in it has. -/
theorem isWrapper_undefinedMark (x : String) : isWrapper (x ++ undefinedMark) = isWrapper x := by
  have apart : ∀ m ∈ wrapperMarks, ' ' ∉ m.toList ∧ ¬ m.toList <:+: "| undefined".toList := by
    decide +kernel
  have mark (m : String) (hm : m ∈ wrapperMarks) :
      occurs m.toList (x ++ undefinedMark).toList = true ↔ occurs m.toList x.toList = true := by
    obtain ⟨blank, behind⟩ := apart m hm
    rw [String.toList_append, toList_undefinedMark, occurs_iff, occurs_iff,
      infix_append_cons_iff blank, or_iff_left behind]
  unfold isWrapper
  rw [Bool.eq_iff_iff, List.any_eq_true, List.any_eq_true]
  exact exists_congr fun m => and_congr_right fun hm => mark m hm

namespace TypeGraph

variable {g : TypeGraph} {t u : Json} {x : String}

/-- A node is the union that a compiler makes of a type with a text and `undefined`, in either
order. -/
structure OptionalOf (g : TypeGraph) (u t : Json) (x : String) : Prop where
  union : g.IsUnion u
  members : ∃ missing, g.kindIn ["undefined"] missing = .ok true ∧
    (g.targets u "member" = .ok [missing, t] ∨ g.targets u "member" = .ok [t, missing])
  defined : g.kindIn ["undefined"] t = .ok false
  text : g.text t = .ok (.string x)
  unionText : g.text u = .ok (.string (x ++ undefinedMark))

namespace OptionalOf

theorem step_eq (h : g.OptionalOf u t x) :
    g.checker.step u = g.checker.stepRendered u (.string (x ++ undefinedMark)) :=
  Checker.step_told h.union.told h.unionText

theorem step_through (h : g.OptionalOf u t x) (hw : isWrapper x = false) :
    g.checker.step u = .ok (.through t) := by
  have unmarked : isWrapper (x ++ undefinedMark) = false := (isWrapper_undefinedMark x).trans hw
  have date : x ++ undefinedMark ≠ "Date" := by
    intro same
    have bar : '|' ∈ (x ++ undefinedMark).toList := by
      rw [String.toList_append, toList_undefinedMark]
      exact List.mem_append_right _ (by decide)
    rw [same] at bar
    exact absurd bar (by decide)
  rw [h.step_eq, Checker.stepRendered_other unmarked (h.union.kindIn_eq (by decide)) date]
  obtain ⟨missing, hm, hts⟩ := h.members
  obtain ⟨ts, either, members⟩ : ∃ ts, (ts = [missing, t] ∨ ts = [t, missing]) ∧
      g.targets u "member" = .ok ts := by
    rcases hts with hts | hts
    · exact ⟨_, .inl rfl, hts⟩
    · exact ⟨_, .inr rfl, hts⟩
  exact Checker.stepUnion_optional (h.union.unionMembers_eq members) members either hm h.defined

theorem step_wrapper (h : g.OptionalOf u t x) (hw : isWrapper x = true) :
    g.checker.step u = (g.targets u "type_argument").map fun
      | [] => .answer (.unresolved (x ++ undefinedMark ++ " without type argument"))
      | v :: _ => .through v := by
  have marked : isWrapper (x ++ undefinedMark) = true := (isWrapper_undefinedMark x).trans hw
  have arguments : g.checker.typeArguments u = g.targets u "type_argument" := rfl
  rw [h.step_eq]
  simp only [Checker.stepRendered, marksWrapper, marked, arguments, Json.text, bind, Except.bind,
    pure, Except.pure, if_true]
  rcases g.targets u "type_argument" with e | (_ | ⟨v, vs⟩) <;> rfl

end OptionalOf

/-- The union of an optional property resolves as the type does, unless the text of the type has the
mark of a wrapper. With the mark, the union resolves as its own first type argument does, and has no
descriptor if it has none. -/
theorem resolve_optionalOf (h : g.OptionalOf u t x) :
    (isWrapper x = false → g.resolve none u = g.resolve none t ∧
      ∀ k r, g.checker.Ends t k r → g.checker.Ends u (k + 1) r) ∧
    (isWrapper x = true → match g.targets u "type_argument" with
      | .error e => g.resolve none u = .error e
      | .ok [] => g.resolve none u =
        .ok (.unresolved (x ++ undefinedMark ++ " without type argument"))
      | .ok (v :: _) => g.resolve none u = g.resolve none v) := by
  constructor
  · intro unmarked
    have hs := h.step_through unmarked
    exact ⟨resolve_through hs, fun _ _ ends => .through hs ends⟩
  · intro marked
    have hs := h.step_wrapper marked
    cases arguments : g.targets u "type_argument" with
    | error e =>
      rw [arguments] at hs
      exact resolve_of_ends (.fault hs)
    | ok args =>
      rw [arguments] at hs
      cases args with
      | nil => exact resolve_of_ends (.answer hs)
      | cons v vs => exact resolve_through hs

def profile : Json := .object [
  ("nodes", .array [
    .object [("id", .string "user"), ("kind", .string "class"), ("text", .string "User")],
    .object [("id", .string "users"), ("kind", .string "array"), ("text", .string "User[]")],
    .object [("id", .string "promise"), ("kind", .string "reference"),
      ("text", .string "Promise<User>")],
    .object [("id", .string "none"), ("kind", .string "undefined"), ("text", .string "undefined")],
    .object [("id", .string "maybeUsers"), ("kind", .string "union"),
      ("text", .string "User[] | undefined")],
    .object [("id", .string "maybePromise"), ("kind", .string "union"),
      ("text", .string "Promise<User> | undefined")]]),
  ("edges", .array [
    .object [("from", .string "users"), ("to", .string "user"),
      ("relation", .string "type_argument")],
    .object [("from", .string "promise"), ("to", .string "user"),
      ("relation", .string "type_argument")],
    .object [("from", .string "maybeUsers"), ("to", .string "none"), ("relation", .string "member"),
      ("index", .int 0)],
    .object [("from", .string "maybeUsers"), ("to", .string "users"),
      ("relation", .string "member"), ("index", .int 1)],
    .object [("from", .string "maybePromise"), ("to", .string "promise"),
      ("relation", .string "member"), ("index", .int 0)],
    .object [("from", .string "maybePromise"), ("to", .string "none"),
      ("relation", .string "member"), ("index", .int 1)]])]

def profileGraph : TypeGraph where
  directed := true
  nodes := [
    ⟨.string "user", [("kind", .string "class"), ("text", .string "User"),
      ("category", .string "type")]⟩,
    ⟨.string "users", [("kind", .string "array"), ("text", .string "User[]"),
      ("category", .string "type")]⟩,
    ⟨.string "promise", [("kind", .string "reference"), ("text", .string "Promise<User>"),
      ("category", .string "type")]⟩,
    ⟨.string "none", [("kind", .string "undefined"), ("text", .string "undefined"),
      ("category", .string "type")]⟩,
    ⟨.string "maybeUsers", [("kind", .string "union"), ("text", .string "User[] | undefined"),
      ("category", .string "type")]⟩,
    ⟨.string "maybePromise", [("kind", .string "union"),
      ("text", .string "Promise<User> | undefined"), ("category", .string "type")]⟩]
  edges := [
    ⟨.string "users", .string "user", .int 0, some (.string "type_argument"), some (.int 0)⟩,
    ⟨.string "promise", .string "user", .int 0, some (.string "type_argument"), some (.int 0)⟩,
    ⟨.string "maybeUsers", .string "none", .int 0, some (.string "member"), some (.int 0)⟩,
    ⟨.string "maybeUsers", .string "users", .int 0, some (.string "member"), some (.int 1)⟩,
    ⟨.string "maybePromise", .string "promise", .int 0, some (.string "member"), some (.int 0)⟩,
    ⟨.string "maybePromise", .string "none", .int 0, some (.string "member"), some (.int 1)⟩]

theorem profile_maybeUsers :
    profileGraph.OptionalOf (.string "maybeUsers") (.string "users") "User[]" :=
  ⟨by rfl, ⟨.string "none", by rfl, .inl (by cbv)⟩, by rfl, by rfl, by rfl⟩

theorem profile_maybePromise :
    profileGraph.OptionalOf (.string "maybePromise") (.string "promise") "Promise<User>" :=
  ⟨by rfl, ⟨.string "none", by rfl, .inr (by cbv)⟩, by rfl, by rfl, by rfl⟩

/-- The optional list resolves as the list. The optional promise has no type argument of its own. -/
theorem resolve_profile :
    profileGraph.OptionalOf (.string "maybeUsers") (.string "users") "User[]" ∧
    profileGraph.resolve none (.string "maybeUsers") =
      .ok (.descriptor (.ofString "[User]")) ∧
    profileGraph.OptionalOf (.string "maybePromise") (.string "promise") "Promise<User>" ∧
    profileGraph.resolve none (.string "maybePromise") =
      .ok (.unresolved "Promise<User> | undefined without type argument") := by
  have users : profileGraph.resolve none (.string "users") =
      .ok (.descriptor (.ofString "[User]")) := by cbv
  have same := ((resolve_optionalOf profile_maybeUsers).1 (by decide)).1
  have wrapper := (resolve_optionalOf profile_maybePromise).2 (by decide)
  have arguments : profileGraph.targets (.string "maybePromise") "type_argument" = .ok [] := by cbv
  rw [arguments] at wrapper
  exact ⟨profile_maybeUsers, same.trans users, profile_maybePromise, wrapper⟩

/-- The promise of a user resolves to the user, and an optional one does not. -/
theorem resolve_optionalPromise_fails : ofSchema profile = .ok profileGraph ∧
    profileGraph.OptionalOf (.string "maybePromise") (.string "promise") "Promise<User>" ∧
    profileGraph.checker.Ends (.string "promise") 1 (.ok (.descriptor (.ofString "User"))) ∧
    profileGraph.resolve none (.string "promise") = .ok (.descriptor (.ofString "User")) ∧
    profileGraph.resolve none (.string "maybePromise") =
      .ok (.unresolved "Promise<User> | undefined without type argument") := by
  have loaded : ofSchema profile = .ok profileGraph := by rfl
  have ends : profileGraph.checker.Ends (.string "promise") 1
      (.ok (.descriptor (.ofString "User"))) := .through (by cbv) (.answer (by cbv))
  have arguments : profileGraph.targets (.string "maybePromise") "type_argument" = .ok [] := by cbv
  have lost := profile_maybePromise.step_wrapper (by decide)
  rw [arguments] at lost
  exact ⟨loaded, profile_maybePromise, ends, resolve_of_ends ends, resolve_of_ends (.answer lost)⟩

end TypeGraph

end PropertyMetadata
