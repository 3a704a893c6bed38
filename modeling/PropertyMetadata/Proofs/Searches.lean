import PropertyMetadata.Command.Run
import PropertyMetadata.Proofs.Files.Sources
import PropertyMetadata.Proofs.Json.RoundTrip
import PropertyMetadata.Proofs.Sessions
import PropertyMetadata.Proofs.Text.Utf8

/-! What a search below a root finds. Every source has its own share in the result, in the order of
the sources, and a source that cannot be read or extracted has none; so whatever becomes of such a
file, the shares of the others stay. The records that are stored are read from there as they
were. -/

namespace PropertyMetadata

/-! ### Records -/

theorem Property.plain_textOrNull (s : Option String) : (textOrNull s).Plain := by
  cases s with
  | none => exact .null
  | some s => exact .string s

theorem Assignment.plain_json (a : Assignment) : a.json.Plain := by
  refine .object (show ["name", "value", "synthetic"].Nodup by decide) ?_
  simp only [List.forall_mem_cons]
  exact ⟨.string _, .string _, .bool _, List.forall_mem_nil _⟩

theorem Decorator.plain_json (d : Decorator) : d.json.Plain := by
  refine .object (show ["name", "text", "arguments", "properties"].Nodup by decide) ?_
  simp only [List.forall_mem_cons]
  exact ⟨Property.plain_textOrNull d.name, .string _,
    .array (List.forall_mem_map.2 fun s _ => .string s),
    .array (List.forall_mem_map.2 fun a _ => a.plain_json), List.forall_mem_nil _⟩

theorem Property.plain_json (p : Property) : p.json.Plain := by
  refine .object (show ["kind", "name", "class", "optional", "type_annotation", "decorators",
    "start_line", "end_line", "file_path"].Nodup by decide) ?_
  simp only [List.forall_mem_cons]
  exact ⟨.string _, .string _, plain_textOrNull _, .bool _, plain_textOrNull _,
    .array (List.forall_mem_map.2 fun d _ => d.plain_json), .int _, .int _, .string _,
    List.forall_mem_nil _⟩

/-- The records of an extractor are read from their text. -/
theorem Extractor.parse_text (x : Extractor) : Json.parse x.text = .ok (.array x.records) :=
  (Json.Plain.array (List.forall_mem_map.2 fun p _ => p.plain_json)).parse_printIndented

namespace OneRow

def keyless : Tree :=
  span "program" 0 0 none [span "class_declaration" 0 0 none [span "class_body" 0 0 (some "body") [
    span "decorator" 0 0 none [span "call_expression" 0 0 none [
      span "arguments" 0 0 (some "arguments") [span "object" 0 0 none [span "pair" 0 0 none []]]]]]]]

end OneRow

namespace Command

variable {t : Tools} {s : Surroundings} {d d' e : Disk} {x : Extractor} {l : Location}
  {ls sources : List Location} {names : Option Names} {root : String} {output : Option String}
  {said : List Line} {W : List String → Prop} {path : String} {rs : List Json}

/-! ### Shares -/

/-- The share of a source in a search: the records of what is found in it, and nothing if it cannot
be read or extracted. -/
def share (t : Tools) (s : Surroundings) (names : Option Names) (l : Location) : List Json :=
  match Extractor.ofFile { names, encodings := t.encodings } s.parse s.disk l.path with
  | .ok ps => ps.map Property.json
  | .error _ => []

/-- After sources one by one, an extractor has the records of all their shares. -/
theorem records_extract (t : Tools) (s : Surroundings) (names : Option Names) (ps : List Property)
    (ls : List Location) : (extract s.parse s.disk ⟨names, t.encodings, ps⟩ ls).1.records =
      ps.map Property.json ++ ls.flatMap (share t s names) := by
  induction ls generalizing ps with
  | nil => simp [extract, Extractor.records]
  | cons l ls ih =>
    have same : Extractor.ofFile ⟨names, t.encodings, ps⟩ s.parse s.disk l.path =
        Extractor.ofFile { names, encodings := t.encodings } s.parse s.disk l.path := rfl
    rw [extract, List.flatMap_cons, share]
    simp only [Extractor.process, same]
    cases Extractor.ofFile { names, encodings := t.encodings } s.parse s.disk l.path with
    | error f => exact ih ps
    | ok found =>
      simp only [Extractor.remember]
      rw [ih]
      simp

theorem share_of_absent (h : s.disk.outline (s.disk.place l.path) = none) :
    share t s names l = [] := by
  rw [share, Extractor.ofFile, Encodings.read]
  cases read : s.disk.read l.path with
  | error e => rfl
  | ok bytes =>
    have there := (Disk.read_eq_ok.1 read).2.2
    rw [h] at there
    cases there

theorem file_of_mem_share {r : Json} (hr : r ∈ share t s names l) :
    r.field? "file_path" = some (.string (Path.slashed l.path)) := by
  rw [share] at hr
  split at hr
  · next found =>
    obtain ⟨p, hp, rfl⟩ := List.mem_map.1 hr
    rw [← Extractor.file_of_ofFile found p hp]
    rfl
  · cases hr

theorem share_eq (h : s.disk.Alike W e) (hl : ¬ W (s.disk.place l.path)) :
    share t { s with disk := e } names l = share t s names l := by
  let x : Extractor := { names, encodings := t.encodings }
  have same {ps : List Property} :
      x.ofFile s.parse e l.path = .ok ps ↔ x.ofFile s.parse s.disk l.path = .ok ps :=
    Extractor.ofFile_iff h hl
  rw [share, share]
  cases found : x.ofFile s.parse s.disk l.path with
  | ok ps => rw [same.2 found]
  | error f =>
    cases found' : x.ofFile s.parse e l.path with
    | ok ps => cases found.symm.trans (same.1 found')
    | error f' => rfl

/-! ### Storing -/

theorem read_store (h : store d x path = .ok d') :
    d'.read path = .ok (Text.Utf8.encode x.text) := by
  rw [store] at h
  split at h
  · exact Disk.read_write (Extractor.write_eq_ok.1 h)
  · cases h

theorem exists_store (h : d.Alike W e) (hd : store d x path = .ok d') (y : Extractor) :
    ∃ e', store e y path = .ok e' := by
  rw [store, Disk.withParents] at hd ⊢
  split at hd
  · next made parents =>
    rw [← Disk.place, ← Disk.place_congr h.home] at parents
    obtain ⟨made', parents', alike⟩ := h.withDirectories parents
    rw [← Disk.place, parents']
    rw [Extractor.write_eq_ok] at hd
    obtain ⟨e', written⟩ := alike.exists_write hd (Text.Utf8.encode y.text)
    exact ⟨e', Extractor.write_eq_ok.2 written⟩
  · cases hd

theorem store_congr {y : Extractor} (h : x.records = y.records) (d : Disk) (path : String) :
    store d x path = store d y path := by
  simp only [store, Extractor.write, Extractor.text, Extractor.record, h]

/-! ### Searches -/

/-- A search that succeeds finds the shares of the sources and stores them, where it is to. -/
theorem search_eq_ok : search t s root names output = (said, .ok (rs, d')) ↔
    ∃ sources, Sources.collect s.disk root t.rules = .ok sources ∧
      said = (extract s.parse s.disk { names, encodings := t.encodings } sources).2 ∧
      rs = sources.flatMap (share t s names) ∧
      ((nonempty? output = none ∧ d' = s.disk) ∨ ∃ path x, nonempty? output = some path ∧
        x.records = rs ∧ store s.disk x path = .ok d') := by
  rw [search]
  cases Sources.collect s.disk root t.rules with
  | error e => simp
  | ok sources =>
    have found := records_extract t s names [] sources
    rw [List.map_nil, List.nil_append] at found
    simp only [found, Except.ok.injEq, exists_eq_left']
    cases nonempty? output with
    | none =>
      simp only [Prod.mk.injEq, Except.ok.injEq, true_and, reduceCtorEq, false_and, exists_false,
        or_false]
      exact and_congr eq_comm (and_congr eq_comm eq_comm)
    | some path =>
      simp only [Option.some.injEq, exists_and_left, exists_eq_left', reduceCtorEq, false_and,
        false_or]
      constructor
      · intro h
        split at h
        · next made stored =>
          cases h
          exact ⟨rfl, rfl, _, found, stored⟩
        · cases h
      · rintro ⟨rfl, rfl, x, same, stored⟩
        rw [store_congr (same.trans found.symm)] at stored
        rw [stored]

/-- Where a search succeeds, one on an alike disk succeeds as well, with the shares of the sources
that there are. -/
theorem exists_search (h : search t s root names output = (said, .ok (rs, d')))
    (alike : s.disk.Alike W e) (collected : Sources.collect e root t.rules = .ok ls) :
    ∃ said' e', search t { s with disk := e } root names output =
      (said', .ok (ls.flatMap (share t { s with disk := e } names), e')) := by
  let s' : Surroundings := { s with disk := e }
  let y := (extract s'.parse s'.disk ⟨names, t.encodings, []⟩ ls).1
  have found : y.records = ls.flatMap (share t s' names) := records_extract t s' names [] ls
  obtain ⟨-, -, -, -, stored⟩ := search_eq_ok.1 h
  obtain ⟨e', stored'⟩ : ∃ e', (nonempty? output = none ∧ e' = e) ∨ ∃ path y,
      nonempty? output = some path ∧ y.records = ls.flatMap (share t s' names) ∧
        store e y path = .ok e' := by
    rcases stored with ⟨nowhere, -⟩ | ⟨path, x, somewhere, -, stored⟩
    · exact ⟨e, .inl ⟨nowhere, rfl⟩⟩
    · obtain ⟨e', stored'⟩ := exists_store alike stored y
      exact ⟨e', .inr ⟨path, y, somewhere, found, stored'⟩⟩
  exact ⟨_, e', search_eq_ok.2 ⟨ls, collected, rfl, rfl, stored'⟩⟩

/-- What a search returns is made of the shares of the sources below the root, in the order of the
sources. Every record in a share bears the path of its source. What is stored is text from which the
returned records are read. Where a source is a file, and the file is removed or another one put in
its place, a search finds for every other source the same share at the same place; the source itself
has the share that the new file has, and none if there is no file. -/
theorem search_shares (proper : s.disk.root.Proper)
    (h : search t s root names output = (said, .ok (rs, d'))) :
    ∃ sources, Sources.collect s.disk root t.rules = .ok sources ∧
      sources.Pairwise (fun l m => Location.precedes l.segments m.segments = true) ∧
      sources.Nodup ∧ rs = sources.flatMap (share t s names) ∧
      (∀ l ∈ sources, ∀ r ∈ share t s names l,
        r.field? "file_path" = some (.string (Path.slashed l.path))) ∧
      (∀ path, nonempty? output = some path → ∃ bytes text, d'.read path = .ok bytes ∧
        Text.Utf8.decode? bytes = .ok text ∧ Json.parse text = .ok (.array rs)) ∧
      ∀ l ∈ sources, ∀ (e : Disk) (bytes : List UInt8),
        s.disk.outline (s.disk.place l.path) = some (.file bytes) →
        e.root.Proper → s.disk.DiffersAt (s.disk.place l.path) e →
        e.outline (s.disk.place l.path) ≠ some .directory →
        ∃ before after said' e', sources = before ++ l :: after ∧
          search t { s with disk := e } root names output = (said', .ok
            (before.flatMap (share t s names) ++ share t { s with disk := e } names l ++
              after.flatMap (share t s names), e')) ∧
          (e.outline (s.disk.place l.path) = none → share t { s with disk := e } names l = []) := by
  obtain ⟨sources, collected, rfl, rfl, stored⟩ := search_eq_ok.1 h
  obtain ⟨order, nodup⟩ := Sources.collect_sorted proper collected
  refine ⟨sources, collected, order, nodup, rfl, ?_, ?_, ?_⟩
  · exact fun l _ r hr => file_of_mem_share hr
  · intro path hpath
    rcases stored with ⟨none, -⟩ | ⟨path', x, some, same, stored⟩
    · cases none.symm.trans hpath
    · cases some.symm.trans hpath
      exact ⟨_, x.text, read_store stored, Text.Utf8.decode?_encode x.text, same ▸ x.parse_text⟩
  · intro l hl e bytes file proper' differs other
    have at_l := (Sources.solid_of_mem_collect proper collected hl).place_path (d := s.disk)
    rw [at_l] at file differs other ⊢
    obtain ⟨before, after, rfl, apart, collected'⟩ :=
      Sources.collect_differs proper proper' differs file other collected hl
    have alike := differs.alike file other
    have place (m : Location) (hm : m ∈ before ++ l :: after) :
        s.disk.place m.path = m.place s.disk.home :=
      (Sources.solid_of_mem_collect proper collected hm).place_path
    have kept (ms : List Location) (hms : ∀ m ∈ ms, m ∈ before ++ after) :
        ms.flatMap (share t { s with disk := e } names) = ms.flatMap (share t s names) := by
      refine List.flatMap_congr fun m hm => share_eq alike ?_
      have among : m ∈ before ++ l :: after :=
        List.mem_append.2 ((List.mem_append.1 (hms m hm)).imp_right (List.mem_cons_of_mem l))
      rw [place m among]
      exact apart m (hms m hm)
    have absent : e.outline (l.place s.disk.home) = none →
        share t { s with disk := e } names l = [] := by
      intro h
      refine share_of_absent ?_
      rw [Disk.place_congr differs.home, place l (by simp), h]
    have shares : (before ++ (if (e.outline (l.place s.disk.home)).isSome then [l] else []) ++
        after).flatMap (share t { s with disk := e } names) = before.flatMap (share t s names) ++
          share t { s with disk := e } names l ++ after.flatMap (share t s names) := by
      rw [List.flatMap_append, List.flatMap_append, kept before fun m => List.mem_append_left _,
        kept after fun m => List.mem_append_right _]
      cases seen : e.outline (l.place s.disk.home) with
      | none => simp [absent seen]
      | some x => simp
    obtain ⟨said', e', found⟩ := exists_search h alike collected'
    rw [shares] at found
    exact ⟨before, after, said', e', rfl, found, absent⟩

/-! ### Three sources -/

def filed (files : List (String × List UInt8)) : Disk where
  root := .directory [("w", .directory [("src",
    .directory (files.map fun f => (f.1, .file f.2)))])]
  home := ["w"]

open OneRow

/-- Three sources; the second one has a pair without a key. -/
def threeFiles : Disk :=
  filed [("c.ts", Text.Utf8.encode markedSource), ("b.ts", []),
    ("a.ts", Text.Utf8.encode markedSource)]

def twoFiles : Disk :=
  filed [("c.ts", Text.Utf8.encode markedSource), ("a.ts", Text.Utf8.encode markedSource)]

/-- What a search runs in on a disk with such sources. -/
def inOneRow (d : Disk) : Surroundings :=
  ⟨d, fun s => if s = markedSource then marked else keyless, none⟩

theorem proper_filed {files : List (String × List UInt8)} (nodup : (files.map (·.1)).Nodup)
    (names : ∀ f ∈ files, Path.IsName f.1) : (filed files).root.Proper := by
  have one {s : String} {e : Entry} (hs : Path.IsName s) (he : e.Proper) :
      (Entry.directory [(s, e)]).Proper :=
    .directory (List.nodup_singleton s) (List.forall_mem_singleton.2 hs)
      (List.forall_mem_singleton.2 he)
  refine one ⟨by decide, by decide, by decide, by decide⟩
    (one ⟨by decide, by decide, by decide, by decide⟩ (.directory ?_ ?_ ?_))
  · rwa [List.map_map]
  · exact List.forall_mem_map.2 names
  · exact List.forall_mem_map.2 fun f _ => .file f.2

theorem twoFiles_differ : threeFiles.DiffersAt ["w", "src", "b.ts"] twoFiles := by
  refine ⟨rfl, fun q hq => ?_⟩
  rw [Disk.outline, Disk.outline, threeFiles, twoFiles, filed, filed]
  rcases q with _ | ⟨a, _ | ⟨b, _ | ⟨c, q⟩⟩⟩
  · rfl
  · by_cases ha : "w" = a <;> simp [Entry.at?, Entry.child?, Entry.entries, Json.lookup, ha,
      Entry.outline]
  · by_cases ha : "w" = a <;> by_cases hb : "src" = b <;> simp [Entry.at?, Entry.child?,
      Entry.entries, Json.lookup, ha, hb, Entry.outline]
  · by_cases ha : "w" = a <;> by_cases hb : "src" = b <;> by_cases hc : "b.ts" = c <;>
      simp [Entry.at?, Entry.child?, Entry.entries, Json.lookup, ha, hb, hc]
    subst ha hb hc
    cases q with
    | nil => exact absurd rfl hq
    | cons s q => simp [Entry.at?, Entry.child?, Entry.entries, Json.lookup]

theorem collect_threeFiles : Sources.collect threeFiles "src" =
    .ok [⟨.home, ["src", "a.ts"]⟩, ⟨.home, ["src", "b.ts"]⟩, ⟨.home, ["src", "c.ts"]⟩] := by
  refine Sources.collect_eq_ok.2 (.inr ⟨by rfl, _, by rfl, ?_⟩)
  have found : Sources.below threeFiles (.ofString "src") = [["c.ts"], ["b.ts"], ["a.ts"]] := by
    rfl
  have backwards : [["c.ts"], ["b.ts"], ["a.ts"]].Perm [["a.ts"], ["b.ts"], ["c.ts"]] :=
    List.reverse_perm [["a.ts"], ["b.ts"], ["c.ts"]]
  have sorted : Location.sorted [["c.ts"], ["b.ts"], ["a.ts"]] = [["a.ts"], ["b.ts"], ["c.ts"]] :=
    Location.sorted_eq (by decide) (by decide) (fun _ => backwards.mem_iff) (by decide)
  rw [found, sorted]
  rfl

theorem search_threeFiles : ∃ said d', search {} (inOneRow threeFiles) "src" (some [some "D"])
    (some "out.json") =
      (said, .ok ([(markedField "src/a.ts").json, (markedField "src/c.ts").json], d')) := by
  obtain ⟨d', stored⟩ : ∃ d', store threeFiles
      { names := none, found := [markedField "src/a.ts", markedField "src/c.ts"] } "out.json" =
        .ok d' := ⟨_, by with_unfolding_all rfl⟩
  refine ⟨_, d', search_eq_ok.2 ⟨_, collect_threeFiles, rfl, ?_, .inr ⟨"out.json", _, rfl, rfl,
    stored⟩⟩⟩
  with_unfolding_all rfl

/-- Of three sources the second one fails. The records of the others are returned, and read from the
file where they are stored. When the second source is removed, they are found as before. -/
theorem search_twoFiles : threeFiles.root.Proper ∧ twoFiles.root.Proper ∧
    (∃ said d' bytes text, search {} (inOneRow threeFiles) "src" (some [some "D"]) (some "out.json") =
        (said, .ok ([(markedField "src/a.ts").json, (markedField "src/c.ts").json], d')) ∧
      d'.read "out.json" = .ok bytes ∧ Text.Utf8.decode? bytes = .ok text ∧ Json.parse text =
        .ok (.array [(markedField "src/a.ts").json, (markedField "src/c.ts").json])) ∧
    ∃ said d', search {} (inOneRow twoFiles) "src" (some [some "D"]) (some "out.json") =
      (said, .ok ([(markedField "src/a.ts").json, (markedField "src/c.ts").json], d')) := by
  have three : threeFiles.root.Proper := proper_filed (by decide) (by
    simpa using ⟨⟨by decide, by decide, by decide, by decide⟩,
      ⟨by decide, by decide, by decide, by decide⟩, ⟨by decide, by decide, by decide, by decide⟩⟩)
  have two : twoFiles.root.Proper := proper_filed (by decide) (by
    simpa using ⟨⟨by decide, by decide, by decide, by decide⟩,
      ⟨by decide, by decide, by decide, by decide⟩⟩)
  obtain ⟨said, d', found⟩ := search_threeFiles
  obtain ⟨sources, collected, -, -, shares, -, stored, spared⟩ := search_shares three found
  obtain rfl := Except.ok.inj (collect_threeFiles.symm.trans collected)
  obtain ⟨bytes, text, written⟩ := stored "out.json" rfl
  refine ⟨three, two, ⟨said, d', bytes, text, found, written⟩, ?_⟩
  obtain ⟨before, after, said', e', cut, found', absent⟩ := spared ⟨.home, ["src", "b.ts"]⟩ (by simp)
    twoFiles [] (by rfl) two twoFiles_differ (by decide)
  have lost : share {} (inOneRow threeFiles) (some [some "D"]) ⟨.home, ["src", "b.ts"]⟩ = [] := by
    with_unfolding_all rfl
  rw [cut, List.flatMap_append, List.flatMap_cons, lost, List.nil_append] at shares
  rw [absent (by rfl), List.append_nil, ← shares] at found'
  exact ⟨said', e', found'⟩

end Command

end PropertyMetadata
