import Mathlib.Logic.Function.Iterate
import PropertyMetadata.Command.Run
import PropertyMetadata.Proofs.Graph.Likeness
import PropertyMetadata.Proofs.NormalForm
import PropertyMetadata.Proofs.Rules
import PropertyMetadata.Proofs.Specifier.Markers

/-! Rewriting of what stands in brackets. A bracket ends no import and no word, so a text has the
same imports in brackets as without them. The descriptor of an array is rewritten as the one of its
elements is, and so is what an array resolves to. -/

namespace PropertyMetadata

/-! ### Descriptors that are texts -/

def Descriptor.IsText (d : Descriptor) : Prop := ∃ s, d.text = .string s

namespace Descriptor

theorem isText_ofString (s : String) : (ofString s).IsText := ⟨s, rfl⟩

theorem isText_iterate (s : String) (k : ℕ) : (bracketed^[k] (ofString s)).IsText := by
  cases k with
  | zero => exact isText_ofString s
  | succ k =>
    rw [Function.iterate_succ_apply']
    exact isText_ofString _

end Descriptor

theorem Resolution.isResolved_iterate (k : ℕ) (r : Resolution) :
    (bracketed^[k] r).isResolved = r.isResolved := by
  induction k with
  | zero => rfl
  | succ k ih =>
    rw [Function.iterate_succ_apply', ← ih]
    cases bracketed^[k] r <;> rfl

namespace Specifier

open Text

variable {home : List String} {file : String} {before after : Option Char} {c : Char}
  {cs : List Char} {d : Descriptor} {r : Resolution}

/-! ### The parts of a text in brackets -/

/-- A character behind a text changes no import in it, unless it ends one. -/
theorem import?_concat (hc : c ≠ ')') (cs : List Char) : import? (cs ++ [c]) =
    (import? cs).map fun (path, rest) => (path, rest ++ [c]) := by
  cases h : import? cs with
  | some found =>
    obtain ⟨path, rest⟩ := found
    obtain ⟨hp, hq, rfl⟩ := import?_eq_some_iff.1 h
    exact import?_eq_some_iff.2 ⟨hp, hq, by simp⟩
  | none =>
    rw [Option.map_none, Option.eq_none_iff_forall_ne_some]
    rintro ⟨path, rest⟩ longer
    obtain ⟨hp, hq, written⟩ := import?_eq_some_iff.1 longer
    -- the character would end the import, or the text behind the import
    rcases List.eq_nil_or_concat rest with rfl | ⟨rest, x, rfl⟩
    · have ended : cs ++ [c] = (marker ++ '"' :: path ++ ['"']) ++ [')'] := by simp [written]
      exact hc (List.append_singleton_inj.1 ended).2
    · have ended : cs ++ [c] = (marker ++ '"' :: path ++ '"' :: ')' :: rest) ++ [x] := by
        simp [written]
      have found := import?_eq_some_iff.2 ⟨hp, hq, (List.append_singleton_inj.1 ended).1⟩
      cases h.symm.trans found

theorem parts_concat (hc : c ≠ ')') (before : Option Char) (cs : List Char) :
    parts before (cs ++ [c]) = parts before cs ++ [.plain c] := by
  induction before, cs using parts.induct with
  | case1 before =>
    rw [List.nil_append, parts_of_none (import?_concat hc []), parts_nil, parts_nil]
    rfl
  | case2 before x cs word ih =>
    rw [List.cons_append, parts_of_word word, parts_of_word word, ih]
    rfl
  | case3 before x cs apart path rest found _ ih =>
    have outside : before.any isWord = false := by simpa using apart
    have longer := import?_concat hc (x :: cs)
    rw [found] at longer
    rw [parts_of_some outside longer, parts_of_some outside found, ih]
    rfl
  | case4 before x cs _ none ih =>
    have longer : import? (x :: (cs ++ [c])) = Option.none := by
      rw [← List.cons_append, import?_concat hc, none, Option.map_none]
    rw [List.cons_append, parts_of_none longer, parts_of_none none, ih]
    rfl

theorem parts_congr (h : before.any isWord = after.any isWord) (cs : List Char) :
    parts before cs = parts after cs := by
  cases cs with
  | nil => rw [parts_nil, parts_nil]
  | cons c cs => rw [parts, parts, h]

theorem parts_brackets (cs : List Char) :
    parts none ('[' :: (cs ++ [']'])) = .plain '[' :: (parts none cs ++ [.plain ']']) := by
  have opening : import? ('[' :: (cs ++ [']'])) = none := by
    refine import?_eq_none fun announced => ?_
    cases (List.cons_prefix_cons.1 announced).1
  have outside : (some '[').any isWord = none.any isWord := by decide +kernel
  rw [parts_of_none opening, parts_congr outside, parts_concat (by decide)]

/-! ### Rewriting in brackets -/

theorem toList_brackets (s : String) : ("[" ++ s ++ "]").toList = '[' :: (s.toList ++ [']']) := by
  simp

theorem occurs_brackets (s : String) :
    occurs marker ("[" ++ s ++ "]").toList = occurs marker s.toList := by
  rw [Bool.eq_iff_iff, occurs_iff, occurs_iff, toList_brackets, ← List.nil_append ('[' :: _),
    infix_append_cons_iff (by decide), infix_concat_iff_of_ne (by decide) (by decide)]
  exact or_iff_right (by decide)

/-- A text in brackets is rewritten as it is without them, and keeps them. -/
theorem rewrite_brackets (home : List String) (s file : String) :
    rewrite home ("[" ++ s ++ "]") file = (rewrite home s file).bracketed := by
  have paths : importedPaths (parts none ("[" ++ s ++ "]").toList) =
      importedPaths (parts none s.toList) := by
    rw [toList_brackets, parts_brackets]
    simp [importedPaths]
  have written : String.ofList ((parts none ("[" ++ s ++ "]").toList).flatMap
        (Part.rewritten home file)) =
      "[" ++ String.ofList ((parts none s.toList).flatMap (Part.rewritten home file)) ++ "]" := by
    have plain (c : Char) : Part.rewritten home file (.plain c) = [c] := rfl
    rw [toList_brackets, parts_brackets, List.flatMap_cons, List.flatMap_append, plain,
      List.flatMap_singleton, plain, ← String.toList_inj]
    simp
  simp only [rewrite, occurs_brackets, paths, written]
  split
  · rfl
  split
  · rfl
  split <;> rfl

theorem rewriteValue_bracketed (hd : d.IsText) (home : List String) (file : String) :
    rewriteValue home d.bracketed.text file =
      (rewriteValue home d.text file).map Resolution.bracketed := by
  obtain ⟨s, hs⟩ := hd
  rw [Descriptor.bracketed, hs]
  exact congrArg Except.ok (rewrite_brackets home s file)

theorem rewriteResolution_bracketed (hr : ∀ d, r = .descriptor d → d.IsText)
    (home : List String) (file : String) : rewriteResolution home r.bracketed file =
      (rewriteResolution home r file).map Resolution.bracketed := by
  cases r with
  | descriptor d => exact rewriteValue_bracketed (hr d rfl) home file
  | unresolved reason => rfl

theorem exists_rewriteResolution (hr : ∀ d, r = .descriptor d → d.IsText) (home : List String)
    (file : String) : ∃ a, rewriteResolution home r file = .ok a := by
  cases r with
  | descriptor d =>
    obtain ⟨s, hs⟩ := hr d rfl
    rw [rewriteResolution, hs]
    exact ⟨_, rfl⟩
  | unresolved reason => exact ⟨_, rfl⟩

/-- The descriptor of a text in any number of brackets is rewritten as the text is. -/
theorem rewriteValue_iterate (home : List String) (s file : String) (k : ℕ) :
    rewriteValue home (Descriptor.bracketed^[k] (.ofString s)).text file =
      .ok (Resolution.bracketed^[k] (rewrite home s file)) := by
  induction k with
  | zero => rfl
  | succ k ih =>
    rw [Function.iterate_succ_apply', rewriteValue_bracketed (Descriptor.isText_iterate s k), ih,
      Function.iterate_succ_apply']
    rfl

end Specifier

namespace Command

variable {g : TypeGraph} {a t u : Json} {us : List Json} {home : List String} {file : String}

theorem resolutionIn_eq (g : TypeGraph) (home : List String) (t : Json) (hf : file ≠ "") :
    resolutionIn g home t (some file) none =
      (g.resolve none t).bind fun result => Specifier.rewriteResolution home result file := by
  have named : nonempty? (some file) = some file := by simp [nonempty?, hf]
  rw [resolutionIn, named]
  rfl

theorem resolutionIn_array (ha : g.hasShape .array a = .ok true)
    (hu : g.targets a "type_argument" = .ok (u :: us))
    (text : ∀ d, g.resolve none u = .ok (.descriptor d) → d.IsText) (home : List String)
    (hf : file ≠ "") : resolutionIn g home a (some file) none =
      (resolutionIn g home u (some file) none).map Resolution.bracketed := by
  have element : g.checker.step a = .ok (.element u) := Checker.step_array ha hu
  rw [resolutionIn_eq g home a hf, resolutionIn_eq g home u hf, TypeGraph.resolve_element element]
  cases hr : g.resolve none u with
  | error e => rfl
  | ok result =>
    exact Specifier.rewriteResolution_bracketed (fun d hd => text d (hd ▸ hr)) home file

theorem exists_resolutionIn {n : ℕ} {result : Resolution} (ends : g.checker.Ends u n (.ok result))
    (text : ∀ d, g.resolve none u = .ok (.descriptor d) → d.IsText) (home : List String)
    (hf : file ≠ "") : ∃ out, resolutionIn g home u (some file) none = .ok out := by
  have resolved := TypeGraph.resolve_of_ends ends
  rw [resolutionIn_eq g home u hf, resolved]
  exact Specifier.exists_rewriteResolution (fun d hd => text d (hd ▸ resolved)) home file

theorem map_bracketed_unresolved_iff {x : Except Fault Resolution} :
    (∃ reason, x.map Resolution.bracketed = .ok (.unresolved reason)) ↔
      ∃ reason, x = .ok (.unresolved reason) := by
  cases x with
  | error e => simp [Except.map]
  | ok result => cases result <;> simp [Except.map, Resolution.bracketed]

/-- Rewriting leaves brackets alone. The descriptor of a text in any number of them is rewritten as
the text is, and unresolved just when the text is. So what an array comes to for a file is what its
elements come to for the file, in brackets, and unresolved just when that is; and there is such an
outcome when the elements have one without the file. Of the elements it is only asked that their
descriptor, if they have one, is a text. -/
theorem resolution_of_array :
    (∀ (home : List String) (s file : String) (k : ℕ),
      Specifier.rewriteValue home (Descriptor.bracketed^[k] (.ofString s)).text file =
          .ok (Resolution.bracketed^[k] (Specifier.rewrite home s file)) ∧
        (Resolution.bracketed^[k] (Specifier.rewrite home s file)).isResolved =
          (Specifier.rewrite home s file).isResolved) ∧
    ∀ (g : TypeGraph) (a u : Json) (us : List Json) (file : String),
      g.hasShape .array a = .ok true → g.targets a "type_argument" = .ok (u :: us) →
      (∀ d, g.resolve none u = .ok (.descriptor d) → d.IsText) → file ≠ "" →
      (∀ home, resolutionIn g home a (some file) none =
          (resolutionIn g home u (some file) none).map Resolution.bracketed ∧
        ((∃ reason, resolutionIn g home a (some file) none = .ok (.unresolved reason)) ↔
          ∃ reason, resolutionIn g home u (some file) none = .ok (.unresolved reason)) ∧
        ∀ n result, g.checker.Ends u n (.ok result) →
          ∃ out, resolutionIn g home u (some file) none = .ok out) ∧
      ∀ (formats : GraphFormats) (disk : Disk) (path : String),
        loadGraph formats disk path = .ok g →
        resolution formats disk path a (some file) none =
          (resolution formats disk path u (some file) none).map Resolution.bracketed := by
  refine ⟨fun home s file k => ⟨Specifier.rewriteValue_iterate home s file k,
    Resolution.isResolved_iterate k _⟩, ?_⟩
  intro g a u us file ha hu text hf
  have arrays (home : List String) := resolutionIn_array ha hu text home hf
  refine ⟨fun home => ⟨arrays home, ?_, ?_⟩, fun formats disk path loaded => ?_⟩
  · rw [arrays home]
    exact map_bracketed_unresolved_iff
  · intro n result ends
    exact exists_resolutionIn ends text home hf
  · rw [resolution, resolution, loaded]
    exact arrays disk.home

def importedUsers : TypeGraph where
  directed := true
  nodes := [
    ⟨.string "user", [("kind", .string "class"), ("text", .string "import(\"/app/user\").User")]⟩,
    ⟨.string "users", [("kind", .string "array")]⟩]
  edges := [
    ⟨.string "users", .string "user", .int 0, some (.string "type_argument"), some (.int 0)⟩]

theorem rewrite_importedUser :
    Specifier.rewrite [] "import(\"/app/user\").User" "/app/x.ts" =
      .descriptor (.ofString "require(\"./user\").User") := by
  have unmarked : ∀ s ∈ ["", ".User"], ¬ Specifier.marker <:+: s.toList := by decide +kernel
  have woven : Specifier.Woven "" [⟨"/app/user", ".User"⟩] :=
    .next (unmarked _ (by simp)) (by simp) (by decide +kernel) (by decide +kernel)
      (.last (unmarked _ (by simp)))
  have written : "import(\"/app/user\").User" =
      "" ++ Specifier.Import.woven Specifier.imported [⟨"/app/user", ".User"⟩] := by
    decide +kernel
  have found : Specifier.lead "import(\"/app/user\").User" = "" ∧
      Specifier.imports "import(\"/app/user\").User" = [⟨"/app/user", ".User"⟩] := by
    apply Specifier.scan_unique
    rw [written]
    exact woven.parts_eq rfl
  have required : "" ++ Specifier.Import.woven
        (Specifier.required ∘ Specifier.specifier [] "/app/x.ts") [⟨"/app/user", ".User"⟩] =
      "require(\"./user\").User" := by decide +kernel
  rw [Specifier.rewrite_found found (List.cons_ne_nil _ _)
    (Text.occurs_iff.1 (by decide +kernel)) (by decide +kernel), required]

/-- The list of users for a file names the module of the user as the file would require it. -/
theorem resolution_of_importedUsers :
    importedUsers.hasShape .array (.string "users") = .ok true ∧
    importedUsers.targets (.string "users") "type_argument" = .ok [.string "user"] ∧
    importedUsers.checker.Ends (.string "user") 0
      (.ok (.descriptor (.ofString "import(\"/app/user\").User"))) ∧
    resolutionIn importedUsers [] (.string "users") (some "/app/x.ts") none =
      .ok (.descriptor (.ofString "[require(\"./user\").User]")) := by
  have array : importedUsers.hasShape .array (.string "users") = .ok true := by rfl
  have arguments : importedUsers.targets (.string "users") "type_argument" =
      .ok [.string "user"] := by cbv
  have shapes : ∀ k ∈ [Shape.array, .boolean, .number, .string],
      importedUsers.checker.is k (.string "user") = .ok false := by
    simp only [List.forall_mem_cons]
    exact ⟨rfl, rfl, rfl, rfl, List.forall_mem_nil _⟩
  have text : importedUsers.checker.text (.string "user") =
      .ok (.string "import(\"/app/user\").User") := by rfl
  have ends : importedUsers.checker.Ends (.string "user") 0
      (.ok (.descriptor (.ofString "import(\"/app/user\").User"))) := by
    apply Checker.Ends.answer
    rw [Checker.step_told shapes text, Checker.stepRendered_class (by decide +kernel) (by rfl)]
  have isText : ∀ d, importedUsers.resolve none (.string "user") = .ok (.descriptor d) →
      d.IsText := by
    intro d hd
    rw [TypeGraph.resolve_of_ends ends] at hd
    obtain rfl := Resolution.descriptor.inj (Except.ok.inj hd)
    exact Descriptor.isText_ofString _
  have user : resolutionIn importedUsers [] (.string "user") (some "/app/x.ts") none =
      .ok (.descriptor (.ofString "require(\"./user\").User")) := by
    rw [resolutionIn_eq _ _ _ (by decide), TypeGraph.resolve_of_ends ends, ← rewrite_importedUser]
    rfl
  have users := ((resolution_of_array.2 _ _ _ _ "/app/x.ts" array arguments isText (by decide)).1
    []).1
  rw [user] at users
  exact ⟨array, arguments, ends, users⟩

/-- A schema of a list of users whose text is no string, but a list with the marker. -/
def listedUsers : Json := .object [
  ("nodes", .array [
    .object [("id", .string "user"), ("kind", .string "class"),
      ("text", .array [.string "import("])],
    .object [("id", .string "users"), ("kind", .string "array")]]),
  ("edges", .array [
    .object [("from", .string "users"), ("to", .string "user"),
      ("relation", .string "type_argument"), ("index", .int 0)]])]

def listedUsersGraph : TypeGraph where
  directed := true
  nodes := [
    ⟨.string "user", [("kind", .string "class"), ("text", .array [.string "import("]),
      ("category", .string "type")]⟩,
    ⟨.string "users", [("kind", .string "array"), ("category", .string "type")]⟩]
  edges := [
    ⟨.string "users", .string "user", .int 0, some (.string "type_argument"), some (.int 0)⟩]

theorem rewrite_bracketedList : Specifier.rewrite [] "[['import(']]" "/app/x.ts" =
    .unresolved "unrecognised import specifier" := by
  have unquoted : ¬ Specifier.marker ++ ['"'] <:+: "[['import(']]".toList := by decide +kernel
  have found : Specifier.lead "[['import(']]" = "[['import(']]" ∧
      Specifier.imports "[['import(']]" = [] := by
    apply Specifier.scan_unique
    rw [Specifier.parts_unquoted unquoted]
    rfl
  rw [Specifier.rewrite_marked [] _ (Text.occurs_iff.1 (by decide +kernel)), if_pos found.2]

/-- A text that is a list with the marker cannot be rewritten. In brackets it is a string, and that
can be, and is unresolved. -/
theorem resolution_of_listedUsers : TypeGraph.ofSchema listedUsers = .ok listedUsersGraph ∧
    listedUsersGraph.hasShape .array (.string "users") = .ok true ∧
    listedUsersGraph.targets (.string "users") "type_argument" = .ok [.string "user"] ∧
    listedUsersGraph.checker.Ends (.string "user") 0
      (.ok (.descriptor ⟨.array [.string "import("]⟩)) ∧
    resolutionIn listedUsersGraph [] (.string "user") (some "/app/x.ts") none =
      .error (.mismatch (.notMatchable (.array [.string "import("]))) ∧
    resolutionIn listedUsersGraph [] (.string "users") (some "/app/x.ts") none =
      .ok (.unresolved "unrecognised import specifier") := by
  have array : listedUsersGraph.hasShape .array (.string "users") = .ok true := by rfl
  have arguments : listedUsersGraph.targets (.string "users") "type_argument" =
      .ok [.string "user"] := by cbv
  have ends : listedUsersGraph.checker.Ends (.string "user") 0
      (.ok (.descriptor ⟨.array [.string "import("]⟩)) := .answer (by rfl)
  refine ⟨by rfl, array, arguments, ends, ?_, ?_⟩
  · rw [resolutionIn_eq _ _ _ (by decide), TypeGraph.resolve_of_ends ends]
    rfl
  · have element := TypeGraph.resolve_element (Checker.step_array array arguments)
    rw [TypeGraph.resolve_of_ends ends] at element
    have written : "[" ++ (Json.array [.string "import("]).text ++ "]" = "[['import(']]" := by
      decide +kernel
    rw [resolutionIn_eq _ _ _ (by decide), element, ← rewrite_bracketedList, ← written]
    rfl

end Command

end PropertyMetadata
