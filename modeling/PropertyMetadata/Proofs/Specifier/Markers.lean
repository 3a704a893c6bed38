import PropertyMetadata.Proofs.Occurrence
import PropertyMetadata.Proofs.Specifier.Relative
import PropertyMetadata.Proofs.Specifier.Rewriting

/-! Markers in what is rewritten. The scan takes every text as text with imports in it, and only
these imports are rewritten. As long as no path has the marker itself, no specifier has it either,
so what is rewritten has it just where the text around the imports has it. Such a text has more
markers than imports, and the ones that announce no import stay. -/

namespace PropertyMetadata

namespace Specifier

open Text PropertyMetadata.Path

variable {home : List String} {file path text s : String} {before : Option Char} {cs : List Char}
  {is : List Import}

/-! ### Every text as text with imports -/

/-- The text before the first import among parts, and the imports with the text behind each. -/
def gathered : List Part → String × List Import
  | [] => ("", [])
  | .plain c :: ps => (String.singleton c ++ (gathered ps).1, (gathered ps).2)
  | .imported path :: ps => ("", ⟨String.ofList path, (gathered ps).1⟩ :: (gathered ps).2)

theorem parts_gathered (ps : List Part) : Import.parts (gathered ps).1 (gathered ps).2 = ps := by
  induction ps with
  | nil => rfl
  | cons p ps ih =>
    cases p with
    | plain c =>
      have shifted : Import.parts (String.singleton c ++ (gathered ps).1) (gathered ps).2 =
          .plain c :: Import.parts (gathered ps).1 (gathered ps).2 := by
        simp [Import.parts]
      rw [gathered, shifted, ih]
    | imported path =>
      rw [gathered, Import.parts_cons, ih]
      simp

theorem gathered_plain (cs : List Char) (ps : List Part) : gathered (cs.map .plain ++ ps) =
    (String.ofList cs ++ (gathered ps).1, (gathered ps).2) := by
  induction cs with
  | nil => simp
  | cons c cs ih =>
    rw [List.map_cons, List.cons_append, gathered, ih, ← String.append_assoc]
    simp

theorem gathered_parts (text : String) (is : List Import) :
    gathered (Import.parts text is) = (text, is) := by
  induction is generalizing text with
  | nil =>
    rw [Import.parts, List.flatMap_nil, gathered_plain]
    simp [gathered]
  | cons i is ih =>
    rw [Import.parts_cons, gathered_plain, gathered, ih]
    simp

def Part.source : Part → List Char
  | .plain c => [c]
  | .imported path => (Specifier.imported (String.ofList path)).toList

theorem flatMap_source (before : Option Char) (cs : List Char) :
    (parts before cs).flatMap Part.source = cs := by
  induction before, cs using parts.induct with
  | case1 before => rw [parts_nil, List.flatMap_nil]
  | case2 before c cs word ih =>
    rw [parts_of_word word, List.flatMap_cons, ih]
    rfl
  | case3 before c cs apart path rest found _ ih =>
    obtain ⟨-, -, written⟩ := import?_eq_some_iff.1 found
    rw [parts_of_some (by simpa using apart) found, List.flatMap_cons, ih, Part.source,
      toList_imported, String.toList_ofList, written]
    simp
  | case4 before c cs _ none ih =>
    rw [parts_of_none none, List.flatMap_cons, ih]
    rfl

/-- The text before the first import that is found in a text. -/
def lead (text : String) : String := (gathered (parts none text.toList)).1

/-- The imports that are found in a text, with the text behind each. -/
def imports (text : String) : List Import := (gathered (parts none text.toList)).2

/-- The text before, between and behind the imports that are found in a text. -/
def around (text : String) : List String := lead text :: (imports text).map Import.behind

theorem parts_imports (text : String) :
    parts none text.toList = Import.parts (lead text) (imports text) :=
  (parts_gathered _).symm

/-- A text has no other parts that are text with imports in it. -/
theorem scan_unique {text s : String} (h : parts none text.toList = Import.parts s is) :
    lead text = s ∧ imports text = is := by
  rw [lead, imports, h, gathered_parts]
  exact ⟨rfl, rfl⟩

theorem lead_woven (text : String) :
    lead text ++ Import.woven imported (imports text) = text := by
  have source : (Import.parts (lead text) (imports text)).flatMap Part.source =
      (lead text ++ Import.woven imported (imports text)).toList :=
    flatMap_parts imported (fun _ => rfl) (fun i _ => by rw [Part.source, String.ofList_toList])
      (lead text)
  rw [← parts_imports, flatMap_source] at source
  exact String.toList_inj.1 source.symm

/-! ### What is rewritten -/

theorem rewrite_unmarked (h : ¬ marker <:+: text.toList) :
    rewrite home text file = .descriptor (.ofString text) := by
  rw [rewrite, if_pos]
  simpa [← occurs_iff] using h

/-- A text with the marker is unresolved if no import is found in it, or one without a specifier,
and otherwise all imports that are found become requirements. -/
theorem rewrite_marked (home : List String) (file : String) (h : marker <:+: text.toList) :
    rewrite home text file =
      if imports text = [] then .unresolved "unrecognised import specifier"
      else if ∃ i ∈ imports text, require? home i.path file = none then
        .unresolved "import specifier without module path"
      else .descriptor (.ofString
        (lead text ++ Import.woven (required ∘ specifier home file) (imports text))) := by
  have written : (Import.parts (lead text) (imports text)).flatMap (Part.rewritten home file) =
      (lead text ++ Import.woven (required ∘ specifier home file) (imports text)).toList :=
    flatMap_parts (required ∘ specifier home file) (fun _ => rfl)
      (fun i _ => rewritten_imported home file i.path) (lead text)
  rw [rewrite, if_neg (by simpa [← occurs_iff] using h)]
  simp only [parts_imports, importedPaths_parts, written, String.ofList_toList]
  simp

/-- In a text in which imports are found, and a specifier for each, all of them are rewritten. -/
theorem rewrite_found (h : lead text = s ∧ imports text = is) (hne : is ≠ [])
    (hm : marker <:+: text.toList) (named : ∀ i ∈ is, require? home i.path file ≠ none) :
    rewrite home text file =
      .descriptor (.ofString (s ++ Import.woven (required ∘ specifier home file) is)) := by
  obtain ⟨rfl, rfl⟩ := h
  rw [rewrite_marked home file hm, if_neg hne, if_neg]
  rintro ⟨i, hi, none⟩
  exact named i hi none

/-! ### Markers in specifiers -/

/-- A specifier is spelled with dots, ways up, and segments of the place of its module. -/
theorem exists_spell_of_require? {r : String} (h : require? home path file = some r) :
    ∃ ss, r = spell ss ∧ ∀ s ∈ ss, s = "." ∨ s = ".." ∨ s ∈ place home path := by
  simp only [require?] at h
  split at h
  · split at h
    next => cases h
    next inside _ =>
      refine ⟨_, (Option.some.inj h).symm, fun s hs => ?_⟩
      exact mem_relative (inPackage_subset _ (withoutIndex_subset _ hs))
  · refine ⟨_, (Option.some.inj h).symm, fun s hs => ?_⟩
    exact mem_relative (withoutIndex_subset _ hs)

theorem marker_infix_spell {ss : List String} :
    marker <:+: (spell ss).toList ↔ ∃ s ∈ ss, marker <:+: s.toList := by
  rw [spell, String.toList_ofList, infix_joined_iff (by decide) (by decide)]
  simp

theorem unmarked_place (hh : ∀ s ∈ home, ¬ marker <:+: s.toList)
    (hp : ¬ marker <:+: path.toList) : ∀ s ∈ place home path, ¬ marker <:+: s.toList := by
  refine forall_mem_walk (forall_mem_origin hh _) fun s hs _ _ _ marked => hp ?_
  obtain ⟨p, hmem, rfl⟩ := List.mem_map.1 hs
  rw [String.toList_ofList] at marked
  have whole : marker <:+: (slashed path).toList :=
    (infix_iff_pieces (by decide) (by decide) _).2 ⟨p, hmem, marked⟩
  rw [slashed, String.toList_ofList] at whole
  exact infix_of_infix_replaced (by decide) whole

theorem unmarked_specifier (hh : ∀ s ∈ home, ¬ marker <:+: s.toList)
    (hp : ¬ marker <:+: path.toList) (file : String) :
    ¬ marker <:+: (specifier home file path).toList := by
  unfold specifier
  cases hr : require? home path file with
  | none => decide
  | some r =>
    obtain ⟨ss, rfl, hss⟩ := exists_spell_of_require? hr
    rw [Option.getD_some, marker_infix_spell]
    rintro ⟨s, hs, marked⟩
    rcases hss s hs with rfl | rfl | name
    · exact absurd marked (by decide)
    · exact absurd marked (by decide)
    · exact unmarked_place hh hp s name marked

/-! ### Markers in what is rewritten -/

/-- A requirement has the marker in its specifier only, and none that goes on into other text. -/
theorem marker_infix_required (front back : List Char) (specifier : String) :
    marker <:+: front ++ (required specifier).toList ++ back ↔
      marker <:+: front ∨ marker <:+: specifier.toList ∨ marker <:+: back := by
  have written : front ++ (required specifier).toList ++ back = (front ++ ['r']) ++
      'e' :: ("quire(".toList ++ '"' :: (specifier.toList ++ '"' :: ([] ++ ')' :: back))) := by
    have opening : "require(\"".toList = 'r' :: 'e' :: ("quire(".toList ++ ['"']) := by
      decide +kernel
    have closing : "\")".toList = ['"', ')'] := by decide +kernel
    rw [required, String.toList_append, String.toList_append, opening, closing]
    simp
  have keyword : ¬ marker <:+: "quire(".toList := by decide +kernel
  have nothing : ¬ marker <:+: [] := by decide
  rw [written, infix_append_cons_iff (by decide), infix_concat_iff_of_ne (by decide) (by decide),
    infix_append_cons_iff (by decide), or_iff_right keyword, infix_append_cons_iff (by decide),
    infix_append_cons_iff (by decide), or_iff_right nothing]

theorem marker_infix_woven (write : String → String) (text : String) (is : List Import) :
    marker <:+: (text ++ Import.woven (required ∘ write) is).toList ↔
      (∃ s ∈ text :: is.map Import.behind, marker <:+: s.toList) ∨
        ∃ i ∈ is, marker <:+: (write i.path).toList := by
  induction is generalizing text with
  | nil => simp [Import.woven]
  | cons i is ih =>
    have written : (text ++ Import.woven (required ∘ write) (i :: is)).toList =
        text.toList ++ (required (write i.path)).toList ++
          (i.behind ++ Import.woven (required ∘ write) is).toList := by
      simp [Import.woven]
    rw [written, marker_infix_required, ih]
    simp only [List.map_cons, List.mem_cons, exists_eq_or_imp, or_assoc]
    simp only [or_left_comm]

theorem rewrite_unresolved_iff (home : List String) (file : String)
    (h : marker <:+: text.toList) : (∃ reason, rewrite home text file = .unresolved reason) ↔
      imports text = [] ∨ ∃ i ∈ imports text, require? home i.path file = none := by
  rw [rewrite_marked home file h]
  split
  next nothing => simp [nothing]
  next =>
    split
    next missing => simp [missing]
    next found => simp_all

theorem around_of_unmarked (h : ¬ marker <:+: text.toList) : around text = [text] := by
  have nothing : imports text = [] := by
    by_contra hne
    have marked := occurs_iff.1 (occurs_marker (lead text) hne)
    rw [lead_woven] at marked
    exact h marked
  have whole := lead_woven text
  rw [nothing, Import.woven, String.append_empty] at whole
  rw [around, nothing, whole, List.map_nil]

/-- What a text is rewritten to has the marker just where the text around the imports has it. -/
theorem marker_infix_rewritten (hh : ∀ s ∈ home, ¬ marker <:+: s.toList)
    (hp : ∀ i ∈ imports text, ¬ marker <:+: i.path.toList) {d : Descriptor}
    (h : rewrite home text file = .descriptor d) : ∃ out, d = .ofString out ∧
      (marker <:+: out.toList ↔ ∃ s ∈ around text, marker <:+: s.toList) := by
  by_cases marked : marker <:+: text.toList
  · rw [rewrite_marked home file marked] at h
    split at h
    next => cases h
    next =>
      split at h
      next => cases h
      next =>
        refine ⟨_, (Resolution.descriptor.inj h).symm, ?_⟩
        rw [marker_infix_woven, or_iff_left]
        · rfl
        rintro ⟨i, hi, named⟩
        exact unmarked_specifier hh (hp i hi) file named
  · rw [rewrite_unmarked marked] at h
    refine ⟨text, (Resolution.descriptor.inj h).symm, ?_⟩
    rw [around_of_unmarked marked]
    simp

/-- As long as no path has the marker, a text with the marker is unresolved if no import is found in
it, or one that has no specifier. What any text is rewritten to has the marker just where the text
around the imports has it; without it, nothing is left to rewrite. -/
theorem rewriteValue_marker (hh : ∀ s ∈ home, ¬ marker <:+: s.toList)
    (hp : ∀ i ∈ imports text, ¬ marker <:+: i.path.toList) (file : String) :
    (marker <:+: text.toList →
      ((∃ reason, rewriteValue home (.string text) file = .ok (.unresolved reason)) ↔
        imports text = [] ∨ ∃ i ∈ imports text, require? home i.path file = none)) ∧
    ∀ d, rewriteValue home (.string text) file = .ok (.descriptor d) →
      ∃ out, d = .ofString out ∧
        (marker <:+: out.toList ↔ ∃ s ∈ around text, marker <:+: s.toList) ∧
        ((∀ s ∈ around text, ¬ marker <:+: s.toList) → ∀ home' file',
          rewriteValue home' d.text file' = .ok (.descriptor d)) := by
  have value (home : List String) (s file : String) :
      rewriteValue home (.string s) file = .ok (rewrite home s file) := rfl
  constructor
  · intro marked
    rw [← rewrite_unresolved_iff home file marked, value]
    simp only [Except.ok.injEq]
  · intro d hd
    rw [value] at hd
    obtain ⟨out, rfl, hout⟩ := marker_infix_rewritten hh hp (Except.ok.inj hd)
    refine ⟨out, rfl, hout, fun clean home' file' => ?_⟩
    have unmarked : ¬ marker <:+: out.toList := by
      rw [hout]
      rintro ⟨s, hs, marked⟩
      exact clean s hs marked
    exact (value home' out file').trans (congrArg Except.ok (rewrite_unmarked unmarked))

/-- A map with an import of a path from the root and one of a path from the home directory. -/
def doublyImported : String := "Map<import(\"/app/src/a\").A, import(\"b/index\").B>"

/-- A map with an import, and with a marker before a path in other quotes. -/
def singlyImported : String := "Map<import(\"/app/src/a\").A, import('/app/src/b').B>"

/-- What the first map is rewritten to stays as it is in every other file. -/
theorem rewriteValue_doublyImported :
    (∀ s ∈ ["app"], ¬ marker <:+: s.toList) ∧
    (∀ i ∈ imports doublyImported, ¬ marker <:+: i.path.toList) ∧
    rewriteValue ["app"] (.string doublyImported) "/app/src/dto/x.ts" =
      .ok (.descriptor (.ofString "Map<require(\"../a\").A, require(\"../../b\").B>")) ∧
    ∀ home file,
      rewriteValue home (.string "Map<require(\"../a\").A, require(\"../../b\").B>") file =
        .ok (.descriptor (.ofString "Map<require(\"../a\").A, require(\"../../b\").B>")) := by
  have woven : doublyImported =
      "Map<" ++ Import.woven imported [⟨"/app/src/a", ".A, "⟩, ⟨"b/index", ".B>"⟩] := by
    decide +kernel
  have found : lead doublyImported = "Map<" ∧
      imports doublyImported = [⟨"/app/src/a", ".A, "⟩, ⟨"b/index", ".B>"⟩] := by
    apply scan_unique
    rw [woven]
    exact (woven_pair (by decide +kernel) (by decide +kernel)).parts_eq rfl
  have clean : ∀ s ∈ around doublyImported, ¬ marker <:+: s.toList := by
    rw [around, found.1, found.2]
    decide +kernel
  have paths : ∀ i ∈ imports doublyImported, ¬ marker <:+: i.path.toList := by
    rw [found.2]
    decide +kernel
  have written : "Map<" ++ Import.woven (required ∘ specifier ["app"] "/app/src/dto/x.ts")
        [⟨"/app/src/a", ".A, "⟩, ⟨"b/index", ".B>"⟩] =
      "Map<require(\"../a\").A, require(\"../../b\").B>" := by decide +kernel
  have rewritten : rewriteValue ["app"] (.string doublyImported) "/app/src/dto/x.ts" =
      .ok (.descriptor (.ofString "Map<require(\"../a\").A, require(\"../../b\").B>")) := by
    rw [← written]
    exact congrArg Except.ok (rewrite_found found (List.cons_ne_nil _ _)
      (occurs_iff.1 (by decide +kernel)) (by decide +kernel))
  have home : ∀ s ∈ ["app"], ¬ marker <:+: s.toList := by decide +kernel
  obtain ⟨_, -, -, again⟩ := (rewriteValue_marker home paths "/app/src/dto/x.ts").2 _ rewritten
  exact ⟨home, paths, rewritten, again clean⟩

/-- The second marker stays in what the other map is rewritten to. -/
theorem rewriteValue_singlyImported :
    (∀ i ∈ imports singlyImported, ¬ marker <:+: i.path.toList) ∧
    rewriteValue [] (.string singlyImported) "/app/src/dto/x.ts" =
      .ok (.descriptor (.ofString "Map<require(\"../a\").A, import('/app/src/b').B>")) ∧
    marker <:+: "Map<require(\"../a\").A, import('/app/src/b').B>".toList := by
  have announced : singlyImported.toList = "Map<".toList ++ (marker ++ '"' :: "/app/src/a".toList ++
      '"' :: ')' :: ".A, import('/app/src/b').B>".toList) := by decide +kernel
  have found : lead singlyImported = "Map<" ∧
      imports singlyImported = [⟨"/app/src/a", ".A, import('/app/src/b').B>"⟩] := by
    have unmarked : ¬ marker <:+: "Map<".toList := by decide +kernel
    have boundary : ("Map<".toList.getLast?.or none).any isWord = false := by decide +kernel
    have unquoted : ¬ marker ++ ['"'] <:+: ".A, import('/app/src/b').B>".toList := by
      decide +kernel
    have begins := (List.prefix_append marker ('"' :: "/app/src/a".toList)).trans
      (List.prefix_append _ ('"' :: ')' :: ".A, import('/app/src/b').B>".toList))
    apply scan_unique
    rw [announced, parts_append unmarked (.inr begins),
      parts_of_some boundary (import?_quoted (by decide +kernel) (by decide +kernel) _),
      parts_unquoted unquoted]
    rfl
  have written : "Map<" ++ Import.woven (required ∘ specifier [] "/app/src/dto/x.ts")
        [⟨"/app/src/a", ".A, import('/app/src/b').B>"⟩] =
      "Map<require(\"../a\").A, import('/app/src/b').B>" := by decide +kernel
  refine ⟨?_, ?_, occurs_iff.1 (by decide +kernel)⟩
  · rw [found.2]
    decide +kernel
  · rw [← written]
    exact congrArg Except.ok (rewrite_found found (List.cons_ne_nil _ _)
      (occurs_iff.1 (by decide +kernel)) (by decide +kernel))

end Specifier

end PropertyMetadata
