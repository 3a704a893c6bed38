import PropertyMetadata.Proofs.Files.Disk
import PropertyMetadata.Proofs.Files.Listing

/-! The sources below a root. They come in the order of their locations, each of them once and at a
place of its own, and where one of them is removed or replaced the others stay as they are. -/

namespace PropertyMetadata

open Text

namespace Location

variable {l : Location} {q home : List String} {d : Disk} {path : String}

/-- The place where a location starts. -/
def base (l : Location) (home : List String) : List String :=
  match l.start with
  | .home => home
  | .root | .slashes => []

def place (l : Location) (home : List String) : List String := Path.walk (l.base home) l.segments

/-- A location whose segments are neither empty nor stand still. -/
def Solid (l : Location) : Prop := ∀ s ∈ l.segments, s ≠ "" ∧ s ≠ "." ∧ '/' ∉ s.toList

theorem solid_ofString (path : String) : (ofString path).Solid := by
  intro s hs
  obtain ⟨written, moves⟩ := List.mem_filter.1 hs
  simp only [Bool.and_eq_true, bne_iff_ne] at moves
  exact ⟨moves.1, moves.2, not_mem_of_mem_split written⟩

theorem Solid.below (h : l.Solid) (hq : ∀ s ∈ q, Path.IsName s) : (l.below q).Solid :=
  List.forall_mem_append.2 ⟨h, fun s hs => ⟨(hq s hs).nonempty, (hq s hs).moves, (hq s hs).whole⟩⟩

theorem place_below (hq : ∀ s ∈ q, Path.IsName s) (l : Location) (home : List String) :
    (l.below q).place home = l.place home ++ q := by
  have same : (l.below q).base home = l.base home := rfl
  rw [place, place, same, below, Path.walk_append, Path.walk_names hq]

/-- The steps of a location's path are its segments, behind an empty one for each slash that it
starts with. -/
theorem Solid.steps_path (h : l.Solid) (hne : l.segments ≠ []) :
    Disk.steps l.path = l.start.text.toList.map (fun _ => "") ++ l.segments := by
  have spelled : split '/' (spelled l.segments) = l.segments :=
    split_joined hne fun s hs => (h s hs).2.2
  have slash (s : String) : split '/' ("/" ++ s) = "" :: split '/' s := by
    rw [← String.empty_append (s := "/"), Path.split_slash]
    rfl
  rw [Disk.steps, path, if_neg (by simp [hne])]
  cases l.start with
  | home => simpa [Start.text] using spelled
  | root => rw [Start.text, slash, spelled]; rfl
  | slashes =>
    have two : "//" ++ Location.spelled l.segments =
        "/" ++ ("/" ++ Location.spelled l.segments) := by
      rw [← String.append_assoc]
      rfl
    rw [Start.text, two, slash, slash, spelled]
    rfl

theorem Solid.origin_path (h : l.Solid) (hne : l.segments ≠ []) :
    d.origin l.path = l.base d.home := by
  obtain ⟨s, ss, segments⟩ := List.exists_cons_of_ne_nil hne
  have full := (h s (by simp [segments])).1
  rw [Disk.origin, h.steps_path hne, segments, base]
  cases l.start <;> simp [Start.text, Path.origin, full]

theorem Solid.place_path (h : l.Solid) : d.place l.path = l.place d.home := by
  by_cases hne : l.segments = []
  · rw [Disk.place, Disk.origin, Location.place, Location.path, hne, base]
    cases l.start <;> rfl
  · rw [Disk.place, h.origin_path hne, h.steps_path hne, Location.place]
    cases l.start <;> simp [Start.text, Path.walk]

theorem Solid.open_path_iff (h : l.Solid) (hne : l.segments ≠ []) :
    d.Open (d.origin l.path) (Disk.steps l.path) ↔ d.Open (l.base d.home) l.segments := by
  obtain ⟨s, ss, segments⟩ := List.exists_cons_of_ne_nil hne
  rw [h.origin_path hne, h.steps_path hne, base]
  -- empty steps stay at the root, where the first segment starts as well
  cases l.start <;> simp +contextual [Start.text, segments, Disk.Open, Path.walk]

end Location

namespace Sources

open Location

variable {d e : Disk} {path : String} {root l : Location} {ls : List Location} {q : List String}
  {rules : Ignore.Rules} {skips : String → Bool}

/-- The paths of all that lies below a root. -/
def below (d : Disk) (root : Location) : List (List String) :=
  match d.look root.path with
  | .ok e => e.paths
  | .error _ => []

theorem proper_look (hd : d.root.Proper) {x : Entry} (h : d.look path = .ok x) : x.Proper :=
  hd.at? (Disk.look_eq_ok.1 h).2.2

theorem mem_below (hd : d.root.Proper) (hr : root.Solid) : q ∈ below d root ↔
    q ≠ [] ∧ (d.look root.path).isOk ∧ (d.outline (root.place d.home ++ q)).isSome := by
  rw [below]
  cases found : d.look root.path with
  | error e => simp [Except.isOk, Except.toBool]
  | ok x =>
    have there := (Disk.look_eq_ok.1 found).2.2
    rw [hr.place_path] at there
    rw [(proper_look hd found).mem_paths, Disk.outline, Entry.at?_append, there]
    simp [Except.isOk, Except.toBool]

theorem nodup_below (hd : d.root.Proper) (root : Location) : (below d root).Nodup := by
  rw [below]
  cases found : d.look root.path with
  | error e => exact List.nodup_nil
  | ok x => exact (proper_look hd found).nodup_paths

theorem isName_of_mem_below (hd : d.root.Proper) (h : q ∈ below d root) :
    ∀ s ∈ q, Path.IsName s := by
  rw [below] at h
  cases found : d.look root.path with
  | error e => simp [found] at h
  | ok x =>
    rw [found] at h
    exact (proper_look hd found).isName_of_mem_paths h

/-- The sources below a root that is no file, or the root itself. -/
theorem collect_eq_ok : collect d path rules = .ok ls ↔
    (d.isFile (ofString path).path = true ∧ ls = [ofString path]) ∨
    (d.isFile (ofString path).path = false ∧ ∃ skips, ignored d rules (ofString path) = .ok skips ∧
      ls = ((sorted (below d (ofString path))).filter (isSource (ofString path) skips)).map
        (ofString path).below) := by
  rw [collect]
  cases d.isFile (ofString path).path with
  | true => simp [eq_comm]
  | false =>
    simp only [Bool.false_eq_true, if_false, false_and, false_or, true_and, bind_eq_ok_iff, below]
    refine exists_congr fun skips => and_congr_right fun _ => ?_
    cases d.look (ofString path).path with
    | error e => simp [sorted, pure, Except.pure, eq_comm]
    | ok x => simp [sorted, pure, Except.pure, eq_comm]

theorem precedes_append (r as bs : List String) :
    precedes (r ++ as) (r ++ bs) = precedes as bs := by
  induction r with
  | nil => rfl
  | cons s r ih => simp [precedes, ih]

/-- Sources come in the order of their locations, each of them once. -/
theorem collect_sorted (hd : d.root.Proper) (h : collect d path rules = .ok ls) :
    ls.Pairwise (fun l m => precedes l.segments m.segments = true) ∧ ls.Nodup := by
  obtain ⟨-, rfl⟩ | ⟨-, skips, -, rfl⟩ := collect_eq_ok.1 h
  · exact ⟨List.pairwise_singleton _ _, List.nodup_singleton _⟩
  · constructor
    · refine List.pairwise_map.2 (((sorted_pairwise _).filter _).imp fun {q r} order => ?_)
      rw [Location.below, Location.below, precedes_append, precedes_iff]
      exact order
    · refine List.Nodup.map (fun q r same => ?_)
        (((sorted_perm _).nodup_iff.2 (nodup_below hd _)).filter _)
      exact List.append_cancel_left (congrArg Location.segments same)

theorem solid_of_mem_collect (hd : d.root.Proper) (h : collect d path rules = .ok ls)
    (hl : l ∈ ls) :
    l.Solid := by
  obtain ⟨-, rfl⟩ | ⟨-, skips, -, rfl⟩ := collect_eq_ok.1 h
  · obtain rfl := List.mem_singleton.1 hl
    exact solid_ofString path
  · obtain ⟨q, hq, rfl⟩ := List.mem_map.1 hl
    have hq := (sorted_perm _).mem_iff.1 (List.mem_filter.1 hq).1
    exact (solid_ofString path).below (isName_of_mem_below hd hq)

/-! ### One file that differs -/

variable {bytes : List UInt8} {W : List String → Prop}

/-- What is to be ignored stands in one file. -/
theorem ignored_eq (h : d.Alike W e) (hp : ¬ W (d.place (root.below [ignoreFile]).path))
    (asked : ignored d rules root = .ok skips) : ignored e rules root = .ok skips := by
  have has : e.has (root.below [ignoreFile]).path = d.has (root.below [ignoreFile]).path :=
    h.look_isOk hp
  simp only [ignored, has] at asked ⊢
  by_cases there : d.has (root.below [ignoreFile]).path = true
  · rw [if_pos there] at asked ⊢
    cases read : d.read (root.below [ignoreFile]).path with
    | error f => simp [Disk.readText, read, bind, Except.bind] at asked
    | ok bytes =>
      rw [← asked]
      simp only [Disk.readText, read, (h.read_iff hp).2 read]
  · rwa [if_neg there] at asked ⊢

theorem isName_ignoreFile : ∀ s ∈ [ignoreFile], Path.IsName s :=
  List.forall_mem_singleton.2 ⟨by decide, by decide, by decide, by decide⟩

theorem ignored_of_no_directory (hr : root.Solid)
    (h : d.outline (root.place d.home) ≠ some .directory) :
    ignored d rules root = .ok fun _ => false := by
  have absent : d.has (root.below [ignoreFile]).path = false := by
    rw [Disk.has]
    cases found : d.look (root.below [ignoreFile]).path with
    | error f => rfl
    | ok x =>
      have solid : (root.below [ignoreFile]).Solid := hr.below isName_ignoreFile
      have isOpen :=
        (solid.open_path_iff (by simp [Location.below])).1 (Disk.look_eq_ok.1 found).2.1
      exact absurd (Disk.open_append.1 isOpen).2.1 h
  rw [ignored, if_neg (by simp [absent]), rules.ofLines_nil]

theorem ne_ignoreFile (h : isSource root skips q = true) : q ≠ [ignoreFile] := by
  rintro rfl
  have source : isSourceName ignoreFile = true := by
    simp only [isSource, Bool.and_eq_true] at h
    exact h.1.2
  exact absurd source (by decide)

/-- A root that is a file is the source of its own while there is a file. -/
theorem collect_of_file (h : d.DiffersAt ((ofString path).place d.home) e)
    (isFile : d.isFile (ofString path).path = true)
    (other : e.outline ((ofString path).place d.home) ≠ some .directory) :
    collect e path rules =
      .ok (if (e.outline ((ofString path).place d.home)).isSome then [ofString path] else []) := by
  have solid := solid_ofString path
  obtain ⟨bytes, read⟩ := Disk.isFile_iff.1 isFile
  obtain ⟨full, isOpen, file⟩ := Disk.read_eq_ok.1 read
  rw [solid.place_path] at file
  have alike := h.alike file other
  have place : e.place (ofString path).path = (ofString path).place d.home := by
    rw [Disk.place_congr h.home, solid.place_path]
  cases seen : e.outline ((ofString path).place d.home) with
  | none =>
    have absent : ∀ x, e.look (ofString path).path ≠ .ok x := by
      intro x found
      have there := (Disk.look_eq_ok.1 found).2.2
      rw [place] at there
      simp [Disk.outline, there] at seen
    refine collect_eq_ok.2 (.inr ⟨?_, _, ignored_of_no_directory solid (h.home ▸ other), ?_⟩)
    · rw [Disk.isFile]
      cases found : e.look (ofString path).path with
      | error f => rfl
      | ok x => exact absurd found (absent x)
    · rw [below]
      cases found : e.look (ofString path).path with
      | error f => simp [sorted]
      | ok x => exact absurd found (absent x)
  | some x =>
    cases x with
    | directory => exact absurd seen other
    | file bytes' =>
      refine collect_eq_ok.2 (.inl ⟨Disk.isFile_iff.2 ⟨bytes', ?_⟩, rfl⟩)
      refine Disk.read_eq_ok.2 ⟨full, ?_, place ▸ seen⟩
      rwa [Disk.origin_congr h.home, alike.open_iff]

/-- The paths below a root, where one of them leads to a file that is removed or replaced. -/
theorem sorted_below_differs (hd : d.root.Proper) (he : e.root.Proper) (hr : root.Solid)
    (h : d.DiffersAt (root.place d.home ++ q) e)
    (file : d.outline (root.place d.home ++ q) = some (.file bytes))
    (other : e.outline (root.place d.home ++ q) ≠ some .directory) (hq : q ∈ below d root) :
    ∃ before after, sorted (below d root) = before ++ q :: after ∧ q ∉ before ++ after ∧
      sorted (below e root) = before ++
        (if (e.outline (root.place d.home ++ q)).isSome then [q] else []) ++ after := by
  obtain ⟨before, after, cut⟩ := List.append_of_mem ((sorted_perm _).mem_iff.2 hq)
  have nodup : (before ++ q :: after).Nodup :=
    cut ▸ (sorted_perm _).nodup_iff.2 (nodup_below hd root)
  have apart : q ∉ before ++ after := (List.nodup_middle.1 nodup).notMem
  have part : (before ++ (if (e.outline (root.place d.home ++ q)).isSome then [q] else []) ++
      after).Sublist (before ++ q :: after) := by
    rw [List.append_assoc]
    refine List.Sublist.append_left ?_ before
    split
    · exact .refl _
    · exact List.sublist_cons_self q after
  refine ⟨before, after, cut, apart, sorted_eq (nodup_below he root) (nodup.sublist part) ?_
    ((cut ▸ sorted_pairwise _).sublist part)⟩
  intro r
  have alike := h.alike file other
  have elsewhere : ¬ d.place root.path = root.place d.home ++ q := by
    rw [hr.place_path]
    intro same
    exact ((mem_below hd hr).1 hq).1 (List.append_right_eq_self.1 same.symm)
  have there : r ∈ below d root ↔ r = q ∨ r ∈ before ++ after := by
    rw [← (sorted_perm _).mem_iff, cut]
    simp only [List.mem_append, List.mem_cons]
    exact or_left_comm
  rw [mem_below he hr, h.home, alike.look_isOk elsewhere]
  by_cases same : r = q
  · subst same
    have found := (mem_below hd hr).1 hq
    simp only [List.mem_append] at apart ⊢
    rw [not_or] at apart
    simp [found.1, found.2.1, apart.1, apart.2]
  · rw [h.seen _ fun eq => same (List.append_cancel_left eq), ← mem_below hd hr, there]
    simp only [same, false_or, List.mem_append]
    split <;> simp [same]

/-- Where a source that is a file is removed, or another file stands in its place, the other sources
stay as they are. -/
theorem collect_differs (hd : d.root.Proper) (he : e.root.Proper)
    (h : d.DiffersAt (l.place d.home) e) (file : d.outline (l.place d.home) = some (.file bytes))
    (other : e.outline (l.place d.home) ≠ some .directory) (hc : collect d path rules = .ok ls)
    (hl : l ∈ ls) : ∃ before after, ls = before ++ l :: after ∧
      (∀ m ∈ before ++ after, m.place d.home ≠ l.place d.home) ∧
      collect e path rules =
        .ok (before ++ (if (e.outline (l.place d.home)).isSome then [l] else []) ++ after) := by
  have solid := solid_ofString path
  obtain ⟨isFile, rfl⟩ | ⟨noFile, skips, asked, rfl⟩ := collect_eq_ok.1 hc
  · obtain rfl := List.mem_singleton.1 hl
    exact ⟨[], [], rfl, by simp, by simpa using collect_of_file h isFile other⟩
  · obtain ⟨q, hq, rfl⟩ := List.mem_map.1 hl
    obtain ⟨hq, source⟩ := List.mem_filter.1 hq
    rw [(sorted_perm _).mem_iff] at hq
    have names := isName_of_mem_below hd hq
    rw [place_below names] at h file other ⊢
    have alike := h.alike file other
    have hqne := ((mem_below hd solid).1 hq).1
    obtain ⟨before, after, cut, apart, cut'⟩ := sorted_below_differs hd he solid h file other hq
    let kept := fun qs : List (List String) =>
      (qs.filter (isSource (ofString path) skips)).map (ofString path).below
    have kept_append (as bs : List (List String)) : kept (as ++ bs) = kept as ++ kept bs := by
      simp [kept]
    have kept_q : kept [q] = [(ofString path).below q] := by simp [kept, source]
    refine ⟨kept before, kept after, ?_, ?_, collect_eq_ok.2 (.inr ⟨?_, skips, ?_, ?_⟩)⟩
    · change kept (sorted (below d (ofString path))) = _
      rw [cut, ← List.singleton_append, kept_append, kept_append, kept_q, List.singleton_append]
    · intro m hm same
      rw [← kept_append] at hm
      obtain ⟨r, hr, rfl⟩ := List.mem_map.1 hm
      have hr := (List.mem_filter.1 hr).1
      have below : r ∈ below d (ofString path) := by
        rw [← (sorted_perm _).mem_iff, cut, ← List.singleton_append]
        rw [List.mem_append] at hr ⊢
        exact hr.imp_right (List.mem_append_right [q])
      rw [place_below (isName_of_mem_below hd below)] at same
      exact apart (List.append_cancel_left same ▸ hr)
    · rw [Bool.eq_false_iff, ne_eq, Disk.isFile_iff] at noFile ⊢
      rintro ⟨b, read⟩
      refine noFile ⟨b, (alike.read_iff ?_).1 read⟩
      rw [solid.place_path]
      exact fun same => hqne (List.append_right_eq_self.1 same.symm)
    · refine ignored_eq alike ?_ asked
      rw [(solid.below isName_ignoreFile).place_path, place_below isName_ignoreFile]
      exact fun same => ne_ignoreFile source (List.append_cancel_left same).symm
    · change _ = kept (sorted (below e (ofString path)))
      rw [cut', kept_append, kept_append]
      split
      · rw [kept_q]
      · rfl

end Sources

end PropertyMetadata
