import PropertyMetadata.Specifier

/-! Rewriting of whole texts. In a text with imports, where no text between them announces another
one and none before them ends in a word, the scan finds exactly these imports, whatever their paths
hold. So each of them is written as a requirement and all text between them is kept, or the whole
text is unresolved. -/

namespace PropertyMetadata

namespace Text

/-- A word whose first character comes back nowhere in it does not begin in a text and go on into
what follows, if that begins with the same character or is empty. -/
theorem prefix_of_prefix_append {c : Char} {word text rest : List Char} (hc : c ∉ word)
    (ht : text ≠ []) (hr : rest = [] ∨ rest.head? = some c) (h : c :: word <+: text ++ rest) :
    c :: word <+: text := by
  rcases hr with rfl | hr
  · simpa using h
  obtain ⟨rest, rfl⟩ := List.head?_eq_some_iff.1 hr
  by_cases hle : (c :: word).length ≤ text.length
  · exact List.prefix_of_prefix_length_le h (List.prefix_append _ _) hle
  · have longer : text ++ [c] <+: text ++ c :: rest := (List.prefix_append_right_inj _).2 (by simp)
    have inside : text ++ [c] <+: c :: word :=
      List.prefix_of_prefix_length_le longer h (by simp at hle ⊢; omega)
    obtain ⟨d, text, rfl⟩ := List.exists_cons_of_ne_nil ht
    have back : text ++ [c] <+: word := (List.cons_prefix_cons.1 inside).2
    exact absurd (back.subset (by simp)) hc

end Text

namespace Specifier

open Text

variable {home : List String} {file text : String} {before : Option Char} {cs path rest : List Char}

/-! ### One import -/

theorem import?_eq_none (h : ¬ marker ++ ['"'] <+: cs) : import? cs = none := by
  rw [import?, if_neg]
  exact fun opening => h (List.isPrefixOf_iff_prefix.1 opening)

theorem import?_quoted (hp : path ≠ []) (hq : '"' ∉ path) (rest : List Char) : import?
    (marker ++ '"' :: path ++ '"' :: ')' :: rest) = some (path, rest) := by
  have opening : marker ++ '"' :: path ++ '"' :: ')' :: rest =
      (marker ++ ['"']) ++ (path ++ '"' :: ')' :: rest) := by simp
  have inside : ∀ c ∈ path, decide (c ≠ '"') = true := fun c hc =>
    decide_eq_true (ne_of_mem_of_not_mem hc hq)
  have taken : (path ++ '"' :: ')' :: rest).takeWhile (· ≠ '"') = path := by
    rw [List.takeWhile_append_of_pos inside]
    simp
  have dropped : (path ++ '"' :: ')' :: rest).dropWhile (· ≠ '"') = '"' :: ')' :: rest := by
    rw [List.dropWhile_append_of_pos inside]
    simp
  rw [opening, import?, if_pos (List.isPrefixOf_iff_prefix.2 (List.prefix_append _ _))]
  simp only [List.drop_left, taken, dropped]
  obtain ⟨c, path, rfl⟩ := List.exists_cons_of_ne_nil hp
  rfl

/-- An import is found just where a text begins with one. -/
theorem import?_eq_some_iff : import? cs = some (path, rest) ↔
    path ≠ [] ∧ '"' ∉ path ∧ cs = marker ++ '"' :: path ++ '"' :: ')' :: rest := by
  constructor
  · intro h
    simp only [import?] at h
    split at h
    next opening =>
      obtain ⟨body, rfl⟩ := List.isPrefixOf_iff_prefix.1 opening
      rw [List.drop_left] at h
      split at h
      next c more rest' taken dropped =>
        obtain ⟨rfl, rfl⟩ := Prod.mk.inj (Option.some.inj h)
        have whole : body = body.takeWhile (· ≠ '"') ++ '"' :: ')' :: rest' := by
          rw [← dropped, List.takeWhile_append_dropWhile]
        refine ⟨fun nothing => ?_, fun quote => ?_, ?_⟩
        · cases nothing.symm.trans taken
        · have inside := List.all_eq_true.1 List.all_takeWhile _ quote
          simp at inside
        · rw [List.append_assoc, List.append_assoc]
          exact congrArg (marker ++ '"' :: ·) whole
      next => cases h
    next => cases h
  · rintro ⟨hp, hq, rfl⟩
    exact import?_quoted hp hq rest

/-! ### The parts of a text -/

theorem parts_nil (before : Option Char) : parts before [] = [] := by
  rw [parts]

theorem parts_of_word {c : Char} (hb : before.any isWord = true) :
    parts before (c :: cs) = .plain c :: parts (some c) cs := by
  rw [parts, if_pos hb]

theorem parts_of_none {c : Char} (h : import? (c :: cs) = none) :
    parts before (c :: cs) = .plain c :: parts (some c) cs := by
  rw [parts]
  split
  next => rfl
  next =>
    split
    next hi => cases h.symm.trans hi
    next => rfl

theorem parts_of_some (hb : before.any isWord = false) (h : import? cs = some (path, rest)) :
    parts before cs = .imported path :: parts (some ')') rest := by
  cases cs with
  | nil => cases length_of_import? h
  | cons c cs =>
    rw [parts, if_neg (by simp [hb])]
    split
    next hi =>
      cases h.symm.trans hi
      rfl
    next hi => cases h.symm.trans hi

theorem parts_unquoted (h : ¬ marker ++ ['"'] <:+: cs) : parts before cs = cs.map .plain := by
  induction cs generalizing before with
  | nil => exact parts_nil before
  | cons c cs ih =>
    rw [List.infix_cons_iff, not_or] at h
    rw [parts_of_none (import?_eq_none h.1), ih h.2, List.map_cons]

theorem parts_append (h : ¬ marker <:+: cs) (hr : rest = [] ∨ marker <+: rest) :
    parts before (cs ++ rest) = cs.map .plain ++ parts (cs.getLast?.or before) rest := by
  induction cs generalizing before with
  | nil => rfl
  | cons c cs ih =>
    rw [List.infix_cons_iff, not_or] at h
    have begins : rest = [] ∨ rest.head? = some 'i' := hr.imp_right fun hm => by
      obtain ⟨more, rfl⟩ := hm
      rfl
    -- the marker has one `i` only, so it cannot begin here and reach into the marker behind
    have none : import? (c :: (cs ++ rest)) = none := import?_eq_none fun hm =>
      h.1 (prefix_of_prefix_append (by decide) (List.cons_ne_nil c cs) begins
        ((List.prefix_append marker ['"']).trans hm))
    have last : cs.getLast?.or (some c) = (c :: cs).getLast?.or before := by
      cases hl : cs.getLast? <;> simp [List.getLast?_cons, hl]
    rw [List.cons_append, parts_of_none none, ih h.2, last]
    rfl

/-! ### Texts with imports -/

/-- An import of a path, as a compiler writes it. -/
def imported (path : String) : String := "import(\"" ++ path ++ "\")"

theorem toList_imported (path : String) :
    (imported path).toList = marker ++ '"' :: path.toList ++ ['"', ')'] := by
  have opening : "import(\"".toList = marker ++ ['"'] := by decide
  have closing : "\")".toList = ['"', ')'] := by decide
  rw [imported, String.toList_append, String.toList_append, opening, closing, List.append_assoc]
  rfl

def required (specifier : String) : String := "require(\"" ++ specifier ++ "\")"

/-- An import in a text: its path, and the text behind it. -/
structure Import where
  path : String
  behind : String
  deriving DecidableEq, Repr

/-- Imports with the text behind each, the imports written in some way. -/
def Import.woven (write : String → String) : List Import → String
  | [] => ""
  | i :: is => write i.path ++ i.behind ++ woven write is

/-- The parts of a text and of imports behind it. -/
def Import.parts (text : String) (is : List Import) : List Part :=
  text.toList.map .plain ++
    is.flatMap fun i => .imported i.path.toList :: i.behind.toList.map .plain

theorem Import.parts_cons (text : String) (i : Import) (is : List Import) :
    Import.parts text (i :: is) =
      text.toList.map .plain ++ .imported i.path.toList :: Import.parts i.behind is := rfl

/-- No text before, between or behind the imports has the marker, a text before an import does not
end in a word, and each path can stand between quotes. -/
inductive Woven : String → List Import → Prop
  | last {text : String} : ¬ marker <:+: text.toList → Woven text []
  | next {text : String} {i : Import} {is : List Import} : ¬ marker <:+: text.toList →
    (∀ c ∈ text.toList.getLast?, isWord c = false) → i.path ≠ "" → '"' ∉ i.path.toList →
    Woven i.behind is → Woven text (i :: is)

variable {is : List Import}

namespace Woven

/-- The scan finds the imports and nothing else. A text between them is either empty, with the end
of an import before it, or ends outside of words. -/
theorem parts_eq (h : Woven text is) (hb : before.any isWord = false) :
    parts before (text ++ Import.woven imported is).toList = Import.parts text is := by
  induction h generalizing before with
  | last unmarked =>
    have copied := @parts_append before _ [] unmarked (.inl rfl)
    rw [parts_nil, List.append_nil] at copied
    rw [Import.woven, String.append_empty, copied]
    rfl
  | @next text i is unmarked apart given quoted _ ih =>
    have written : (text ++ Import.woven imported (i :: is)).toList = text.toList ++
        (marker ++ '"' :: i.path.toList ++
          '"' :: ')' :: (i.behind ++ Import.woven imported is).toList) := by
      simp [Import.woven, toList_imported]
    have announced := (List.prefix_append marker ('"' :: i.path.toList)).trans
      (List.prefix_append _ ('"' :: ')' :: (i.behind ++ Import.woven imported is).toList))
    have boundary : (text.toList.getLast?.or before).any isWord = false := by
      cases hl : text.toList.getLast? with
      | none => simpa using hb
      | some c => simpa using apart c hl
    have closed : (some ')').any isWord = false := by decide +kernel
    rw [written, parts_append unmarked (.inr announced),
      parts_of_some boundary (import?_quoted (by simpa using given) quoted _), ih closed]
    rfl

theorem path_ne (h : Woven text is) : ∀ i ∈ is, i.path ≠ "" := by
  induction h with
  | last => exact List.forall_mem_nil _
  | next _ _ given _ _ ih => exact List.forall_mem_cons.2 ⟨given, ih⟩

end Woven

theorem importedPaths_parts (text : String) (is : List Import) :
    importedPaths (Import.parts text is) = is.map Import.path := by
  have copied (cs : List Char) (ps : List Part) :
      importedPaths (cs.map .plain ++ ps) = importedPaths ps := by
    simp [importedPaths, List.filterMap_append, List.filterMap_map]
  induction is generalizing text with
  | nil => exact copied text.toList []
  | cons i is ih =>
    have found : importedPaths (.imported i.path.toList :: Import.parts i.behind is) =
        i.path :: importedPaths (Import.parts i.behind is) := by
      simp [importedPaths]
    rw [Import.parts_cons, copied, found, ih, List.map_cons]

/-- What stands for the path of an import in a file. -/
def specifier (home : List String) (file path : String) : String :=
  (require? home path file).getD ""

theorem rewritten_imported (home : List String) (file path : String) :
    Part.rewritten home file (.imported path.toList) =
      (required (specifier home file path)).toList := by
  have written (cs : List Char) : Part.rewritten home file (.imported cs) =
      "require(\"".toList ++ ((require? home (String.ofList cs) file).getD "").toList ++
        "\")".toList := rfl
  rw [written, String.ofList_toList, required, specifier, String.toList_append,
    String.toList_append]

theorem flatMap_parts {f : Part → List Char} (write : String → String)
    (hf : ∀ c, f (.plain c) = [c])
    (h : ∀ i ∈ is, f (.imported i.path.toList) = (write i.path).toList) (text : String) :
    (Import.parts text is).flatMap f = (text ++ Import.woven write is).toList := by
  have copied (cs : List Char) : (cs.map .plain).flatMap f = cs := by
    rw [List.flatMap_map, funext hf]
    exact List.flatMap_singleton' cs
  induction is generalizing text with
  | nil => rw [Import.parts, List.flatMap_nil, List.append_nil, copied, Import.woven,
      String.append_empty]
  | cons i is ih =>
    obtain ⟨head, tail⟩ := List.forall_mem_cons.1 h
    rw [Import.parts_cons, List.flatMap_append, copied, List.flatMap_cons, ih tail, head]
    simp [Import.woven]

/-- Text is copied, and each import becomes the requirement of its specifier. -/
theorem rewritten_parts {specifier : String → String}
    (h : ∀ i ∈ is, require? home i.path file = some (specifier i.path)) (text : String) :
    (Import.parts text is).flatMap (Part.rewritten home file) =
      (text ++ Import.woven (required ∘ specifier) is).toList :=
  flatMap_parts (required ∘ specifier) (fun _ => rfl) (fun i hi => by
    rw [rewritten_imported, Specifier.specifier, h i hi]
    rfl) text

theorem occurs_marker (text : String) (hne : is ≠ []) :
    occurs marker (text ++ Import.woven imported is).toList = true := by
  obtain ⟨i, is, rfl⟩ := List.exists_cons_of_ne_nil hne
  refine occurs_iff.2 ⟨text.toList, '"' :: i.path.toList ++
    '"' :: ')' :: (i.behind ++ Import.woven imported is).toList, ?_⟩
  simp [Import.woven, toList_imported]

/-- In a text with imports either all of them are rewritten and the text between them is kept, or,
if one of them has no specifier, the whole text is unresolved. -/
theorem rewriteValue_woven (home : List String) (file : String) (h : Woven text is)
    (hne : is ≠ []) :
    (∀ specifier : String → String,
      (∀ i ∈ is, ofPath home i.path file = .ok (some (specifier i.path))) →
      rewriteValue home (.string (text ++ Import.woven imported is)) file =
        .ok (.descriptor (.ofString (text ++ Import.woven (required ∘ specifier) is)))) ∧
    ((∃ i ∈ is, ofPath home i.path file = .ok none) →
      rewriteValue home (.string (text ++ Import.woven imported is)) file =
        .ok (.unresolved "import specifier without module path")) := by
  have given {i : Import} (hi : i ∈ is) :
      ofPath home i.path file = .ok (require? home i.path file) :=
    ofPath_eq (h.path_ne i hi) home file
  have scanned : rewriteValue home (.string (text ++ Import.woven imported is)) file =
      .ok (if is.any fun i => (require? home i.path file).isNone then
          .unresolved "import specifier without module path"
        else .descriptor (.ofString (String.ofList
          ((Import.parts text is).flatMap (Part.rewritten home file))))) := by
    have found : parts none (text ++ Import.woven imported is).toList = Import.parts text is :=
      h.parts_eq rfl
    change Except.ok (rewrite home (text ++ Import.woven imported is) file) = _
    simp only [rewrite, occurs_marker text hne, found, importedPaths_parts, List.any_map,
      Function.comp_def]
    simp [hne]
  constructor
  · intro specifier all
    have found : ∀ i ∈ is, require? home i.path file = some (specifier i.path) := fun i hi =>
      Except.ok.inj ((given hi).symm.trans (all i hi))
    rw [scanned, if_neg, rewritten_parts found, String.ofList_toList]
    simp only [List.any_eq_true, not_exists, not_and]
    intro i hi
    simp [found i hi]
  · rintro ⟨i, hi, none⟩
    have missing := Except.ok.inj ((given hi).symm.trans none)
    rw [scanned, if_pos (List.any_eq_true.2 ⟨i, hi, by rw [missing]; rfl⟩)]

/-- The types of a map come from two modules, where the path of the first one looks like an import.
-/
def mapped : List Import :=
  [⟨"/app/src/import(a", ".A, "⟩, ⟨"/app/src/b/index", ".B>"⟩]

def partly : List Import := [⟨"/app/src/a", ".A, "⟩, ⟨"/app/node_modules/@types", ".B>"⟩]

theorem woven_pair {p q : String} (hp : p ≠ "" ∧ '"' ∉ p.toList) (hq : q ≠ "" ∧ '"' ∉ q.toList) :
    Woven "Map<" [⟨p, ".A, "⟩, ⟨q, ".B>"⟩] := by
  have unmarked : ∀ s ∈ ["Map<", ".A, ", ".B>"], ¬ marker <:+: s.toList := by decide
  have apart : isWord '<' = false ∧ isWord ' ' = false := by decide +kernel
  exact .next (unmarked _ (by simp)) (by simpa using apart.1) hp.1 hp.2
    (.next (unmarked _ (by simp)) (by simpa using apart.2) hq.1 hq.2 (.last (unmarked _ (by simp))))

/-- Both imports of the one map are rewritten, and the other map is unresolved. -/
theorem rewriteValue_map :
    rewriteValue []
        (.string "Map<import(\"/app/src/import(a\").A, import(\"/app/src/b/index\").B>")
        "/app/src/dto/x.ts" =
      .ok (.descriptor (.ofString "Map<require(\"../import(a\").A, require(\"../b\").B>")) ∧
    rewriteValue []
        (.string "Map<import(\"/app/src/a\").A, import(\"/app/node_modules/@types\").B>")
        "/app/src/dto/x.ts" = .ok (.unresolved "import specifier without module path") := by
  have whole : Woven "Map<" mapped := woven_pair (by decide) (by decide)
  have part : Woven "Map<" partly := woven_pair (by decide) (by decide)
  have specifier : require? [] "/app/src/import(a" "/app/src/dto/x.ts" = some "../import(a" ∧
      require? [] "/app/src/b/index" "/app/src/dto/x.ts" = some "../b" ∧
      require? [] "/app/node_modules/@types" "/app/src/dto/x.ts" = none := by decide +kernel
  have first : ofPath [] "/app/src/import(a" "/app/src/dto/x.ts" = .ok (some "../import(a") := by
    rw [ofPath_eq (by decide), specifier.1]
  have second : ofPath [] "/app/src/b/index" "/app/src/dto/x.ts" = .ok (some "../b") := by
    rw [ofPath_eq (by decide), specifier.2.1]
  have missing : ofPath [] "/app/node_modules/@types" "/app/src/dto/x.ts" = .ok none := by
    rw [ofPath_eq (by decide), specifier.2.2]
  have rewritten := (rewriteValue_woven [] "/app/src/dto/x.ts" whole (List.cons_ne_nil _ _)).1
    (fun p => if p = "/app/src/b/index" then "../b" else "../import(a")
    (List.forall_mem_cons.2 ⟨first, List.forall_mem_singleton.2 second⟩)
  have unresolved := (rewriteValue_woven [] "/app/src/dto/x.ts" part (List.cons_ne_nil _ _)).2
    ⟨_, List.mem_cons_of_mem _ List.mem_cons_self, missing⟩
  exact ⟨rewritten, unresolved⟩

end Specifier

end PropertyMetadata
