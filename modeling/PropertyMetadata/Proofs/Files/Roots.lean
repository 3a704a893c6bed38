import PropertyMetadata.Proofs.Files.Sources

/-! Sources from other roots. What is found below a root, seen from the root, depends on what stands
below it and on one thing besides: whether the way to the root leads through a directory of
packages, even if it leads out of it again. From such a root nothing is found. -/

namespace PropertyMetadata

open Text

namespace Location

variable {l : Location} {q : List String}

/-- The segments that lead to a location from a root. -/
def relative (root l : Location) : List String := l.segments.drop root.segments.length

@[simp] theorem relative_below (root : Location) (q : List String) :
    relative root (root.below q) = q :=
  List.drop_left

theorem Solid.path_ne (h : l.Solid) (hne : l.segments ≠ []) : l.path ≠ "" := by
  intro empty
  obtain ⟨s, ss, segments⟩ := List.exists_cons_of_ne_nil hne
  have full := (h s (by simp [segments])).1
  have steps := h.steps_path hne
  rw [empty, show Disk.steps "" = [""] by rfl, segments] at steps
  -- one empty step is less than there are segments, and it is none of them
  cases start : l.start <;> simp [start, Start.text] at steps
  exact full steps.1

end Location

namespace Sources

open Location

variable {content : List String → Option Outline} {d e : Disk} {path path' s : String}
  {root : Location} {q : List String} {bytes : List UInt8} {rules : Ignore.Rules}
  {skips : String → Bool} {ls ms : List Location}

/-- A directory stands at a path, and what is in it is what a content shows place by place. -/
structure Stands (content : List String → Option Outline) (d : Disk) (path : String) : Prop where
  directory : ∃ es, d.look (ofString path).path = .ok (.directory es)
  seen : ∀ q, d.outline ((ofString path).place d.home ++ q) = content q

/-- What is asked to be ignored by what stands in the place of the file for it. -/
def asked (rules : Ignore.Rules) : Option Outline → Option (String → Bool)
  | none => some fun _ => false
  | some .directory => none
  | some (.file bytes) =>
    match rules.decode bytes with
    | .error _ => none
    | .ok s => (rules.ofText (String.ofList (Source.unifiedLines s.toList))).toOption

/-- Whether something is a source as far as the root does not matter. -/
def isSourceBelow (skips : String → Bool) (q : List String) : Bool :=
  isSource ⟨.home, []⟩ skips q

/-- Of the root it only matters whether it lies on a way through packages. -/
theorem isSource_eq (root : Location) (skips : String → Bool) (q : List String) :
    isSource root skips q = (!root.segments.contains packages && isSourceBelow skips q) := by
  simp [isSourceBelow, isSource, Location.below, Bool.and_assoc]

namespace Stands

theorem outline_root (h : Stands content d path) :
    d.outline ((ofString path).place d.home) = some .directory := by
  obtain ⟨es, found⟩ := h.directory
  have there := (Disk.look_eq_ok.1 found).2.2
  rw [(solid_ofString path).place_path] at there
  rw [Disk.outline, there]
  rfl

theorem open_below (h : Stands content d path) (hs : Path.IsName s) :
    ((ofString path).below [s]).path ≠ "" ∧
      d.Open (d.origin ((ofString path).below [s]).path)
        (Disk.steps ((ofString path).below [s]).path) := by
  have solid := solid_ofString path
  have solid' : ((ofString path).below [s]).Solid := solid.below (List.forall_mem_singleton.2 hs)
  have nonempty : ((ofString path).below [s]).segments ≠ [] := by simp [Location.below]
  refine ⟨solid'.path_ne nonempty, (solid'.open_path_iff nonempty).2 ?_⟩
  rw [Location.below, Disk.open_append]
  refine ⟨?_, h.outline_root, trivial⟩
  by_cases here : (ofString path).segments = []
  · rw [here]
    trivial
  · obtain ⟨es, found⟩ := h.directory
    exact (solid.open_path_iff here).1 (Disk.look_eq_ok.1 found).2.1

theorem outline_below (h : Stands content d path) (hs : Path.IsName s) :
    d.outline (d.place ((ofString path).below [s]).path) = content [s] := by
  have names := List.forall_mem_singleton.2 hs
  rw [((solid_ofString path).below names).place_path, place_below names, h.seen]

theorem has_below (h : Stands content d path) (hs : Path.IsName s) :
    d.has ((ofString path).below [s]).path = (content [s]).isSome := by
  obtain ⟨nonempty, isOpen⟩ := h.open_below hs
  rw [Bool.eq_iff_iff, Disk.has, Disk.look_isOk_iff, h.outline_below hs]
  exact ⟨fun found => found.2.2, fun there => ⟨nonempty, isOpen, there⟩⟩

theorem read_below (h : Stands content d path) (hs : Path.IsName s) :
    d.read ((ofString path).below [s]).path = .ok bytes ↔ content [s] = some (.file bytes) := by
  obtain ⟨nonempty, isOpen⟩ := h.open_below hs
  rw [Disk.read_eq_ok, h.outline_below hs]
  exact ⟨fun found => found.2.2, fun there => ⟨nonempty, isOpen, there⟩⟩

theorem ignored_eq_ok_iff (h : Stands content d path) :
    ignored d rules (ofString path) = .ok skips ↔
      asked rules (content [ignoreFile]) = some skips := by
  have name := isName_ignoreFile ignoreFile (List.mem_singleton_self _)
  rw [ignored, h.has_below name]
  cases shown : content [ignoreFile] with
  | none => simp [asked, rules.ofLines_nil]
  | some x =>
    rw [Option.isSome_some, if_pos rfl]
    cases x with
    | directory =>
      -- a directory has no bytes to read
      cases read : d.read ((ofString path).below [ignoreFile]).path with
      | error f => simp [Disk.readText, read, asked, bind, Except.bind]
      | ok bytes => exact absurd ((h.read_below name).1 read) (by simp [shown])
    | file bytes =>
      rw [Disk.readText, (h.read_below name).2 shown, asked]
      dsimp only
      cases rules.decode bytes with
      | error f => simp [bind, Except.bind]
      | ok s =>
        simp only [bind, Except.bind, pure, Except.pure]
        cases rules.ofText (String.ofList (Source.unifiedLines s.toList)) <;>
          simp [Except.toOption]

theorem mem_below_iff (h : Stands content d path) (hd : d.root.Proper) :
    q ∈ below d (ofString path) ↔ q ≠ [] ∧ (content q).isSome := by
  obtain ⟨es, found⟩ := h.directory
  rw [mem_below hd (solid_ofString path), h.seen, found]
  simp [Except.isOk, Except.toBool]

theorem not_isFile (h : Stands content d path) : d.isFile (ofString path).path = false := by
  obtain ⟨es, found⟩ := h.directory
  rw [Disk.isFile, found]
  rfl

/-- What is found below a root, seen from the root. -/
theorem collect_eq_ok_iff (h : Stands content d path) : collect d path rules = .ok ls ↔
    ∃ skips, asked rules (content [ignoreFile]) = some skips ∧
      ls = ((sorted (below d (ofString path))).filter (isSource (ofString path) skips)).map
        (ofString path).below := by
  rw [collect_eq_ok, h.not_isFile]
  simp only [Bool.false_eq_true, false_and, false_or, true_and, h.ignored_eq_ok_iff]

/-- A search succeeds if what is to be ignored can be read. -/
theorem isOk_collect (h : Stands content d path) :
    (collect d path rules).isOk = (asked rules (content [ignoreFile])).isSome := by
  cases found : collect d path rules with
  | ok ls =>
    obtain ⟨skips, hs, -⟩ := h.collect_eq_ok_iff.1 found
    rw [hs]
    rfl
  | error f =>
    cases hs : asked rules (content [ignoreFile]) with
    | none => rfl
    | some skips => cases found.symm.trans (h.collect_eq_ok_iff.2 ⟨skips, hs, rfl⟩)

theorem relative_collect (h : Stands content d path) (hc : collect d path rules = .ok ls)
    (hs : asked rules (content [ignoreFile]) = some skips) :
    ls.map (relative (ofString path)) =
      if packages ∈ (ofString path).segments then []
      else (sorted (below d (ofString path))).filter (isSourceBelow skips) := by
  obtain ⟨skips', hs', rfl⟩ := h.collect_eq_ok_iff.1 hc
  obtain rfl : skips' = skips := Option.some.inj (hs'.symm.trans hs)
  have whole : relative (ofString path) ∘ (ofString path).below = id :=
    funext fun q => relative_below _ q
  rw [List.map_map, whole, List.map_id]
  simp only [funext (isSource_eq (ofString path) skips')]
  split
  next within => simp [within]
  next outside => simp [outside]

/-- The same stands below roots at which one content stands. -/
theorem sorted_below_eq (h : Stands content d path) (h' : Stands content e path')
    (hd : d.root.Proper) (he : e.root.Proper) :
    sorted (below d (ofString path)) = sorted (below e (ofString path')) := by
  refine sorted_eq (nodup_below hd _) ((sorted_perm _).nodup_iff.2 (nodup_below he _))
    (fun q => ?_) (sorted_pairwise _)
  rw [(sorted_perm _).mem_iff, h.mem_below_iff hd, h'.mem_below_iff he]

end Stands

/-- Below two roots at which one content stands the same sources are found in the same order, seen
from the roots, or both searches fail, unless the way to just one of the roots leads through a
directory of packages: from this root nothing is found. -/
theorem collect_relative_iff (hd : d.root.Proper) (he : e.root.Proper) (h : Stands content d path)
    (h' : Stands content e path') (rules : Ignore.Rules) :
    (collect d path rules).isOk = (collect e path' rules).isOk ∧
    ∀ ls ms, collect d path rules = .ok ls → collect e path' rules = .ok ms →
      (ls.map (relative (ofString path)) = ms.map (relative (ofString path')) ↔
        (packages ∈ (ofString path).segments ↔ packages ∈ (ofString path').segments) ∨
          ls = [] ∧ ms = []) ∧
      (packages ∈ (ofString path).segments → ls = []) := by
  refine ⟨h.isOk_collect.trans h'.isOk_collect.symm, fun ls ms found found' => ?_⟩
  obtain ⟨skips, hs, -⟩ := h.collect_eq_ok_iff.1 found
  have seen := h.relative_collect found hs
  have seen' := h'.relative_collect found' hs
  rw [← h.sorted_below_eq h' hd he] at seen'
  rw [← List.map_eq_nil_iff (f := relative (ofString path)),
    ← List.map_eq_nil_iff (f := relative (ofString path')), seen, seen']
  by_cases within : packages ∈ (ofString path).segments <;>
    by_cases within' : packages ∈ (ofString path').segments <;> simp [within, within']

/-! ### Two directories -/

def twoDirectories : Disk where
  root := .directory [("app", .directory [("a.ts", .file [])]), (packages, .directory [])]
  home := []

theorem proper_twoDirectories : twoDirectories.root.Proper := by
  have name {s : String} (h : s ∈ ["app", "a.ts", packages]) : Path.IsName s := by
    simp only [List.mem_cons, List.not_mem_nil, or_false] at h
    rcases h with rfl | rfl | rfl <;> exact ⟨by decide, by decide, by decide, by decide⟩
  have app : (Entry.directory [("a.ts", .file [])]).Proper :=
    .directory (by decide) (by simpa using name (by simp)) (by simpa using .file [])
  have empty : (Entry.directory []).Proper :=
    .directory .nil (List.forall_mem_nil _) (List.forall_mem_nil _)
  refine .directory (by decide) (fun f hf => ?_) (fun f hf => ?_)
  · rcases List.mem_pair.1 hf with rfl | rfl <;> exact name (by simp)
  · rcases List.mem_pair.1 hf with rfl | rfl
    · exact app
    · exact empty

def appContent (q : List String) : Option Outline := twoDirectories.outline ("app" :: q)

theorem stands_app : Stands appContent twoDirectories "app" := ⟨⟨_, rfl⟩, fun _ => rfl⟩

/-- The same place, by a way out of it and back. -/
theorem stands_app_again : Stands appContent twoDirectories "app/../app" :=
  ⟨⟨_, rfl⟩, fun _ => rfl⟩

/-- The same place, by a way through the directory of packages. -/
theorem stands_app_through : Stands appContent twoDirectories "node_modules/../app" :=
  ⟨⟨_, rfl⟩, fun _ => rfl⟩

theorem collect_app : collect twoDirectories "app" = .ok [⟨.home, ["app", "a.ts"]⟩] := by
  refine collect_eq_ok.2 (.inr ⟨by rfl, _, by rfl, ?_⟩)
  have found : below twoDirectories (.ofString "app") = [["a.ts"]] := by rfl
  rw [found, sorted, List.mergeSort_singleton]
  rfl

/-- From a root that is spelled differently the same is found, unless the way to it leads through
packages: then it is not. -/
theorem collect_relative_iff_app : twoDirectories.root.Proper ∧
    Stands appContent twoDirectories "app" ∧ Stands appContent twoDirectories "app/../app" ∧
    Stands appContent twoDirectories "node_modules/../app" ∧
    (∃ ls, collect twoDirectories "app/../app" = .ok ls ∧
      ls.map (relative (ofString "app/../app")) = [["a.ts"]]) ∧
    ∃ ls, collect twoDirectories "node_modules/../app" = .ok ls ∧
      ls.map (relative (ofString "node_modules/../app")) ≠ [["a.ts"]] := by
  have collected {r : Except Fault (List Location)}
      (h : (collect twoDirectories "app").isOk = r.isOk) : ∃ ls, r = .ok ls := by
    rw [collect_app] at h
    cases r with
    | ok ls => exact ⟨ls, rfl⟩
    | error f => cases h
  obtain ⟨isOk, again⟩ := collect_relative_iff proper_twoDirectories proper_twoDirectories
    stands_app stands_app_again .usual
  obtain ⟨isOk', through⟩ := collect_relative_iff proper_twoDirectories proper_twoDirectories
    stands_app stands_app_through .usual
  obtain ⟨ls, found⟩ := collected isOk
  obtain ⟨ms, found'⟩ := collected isOk'
  have outside : packages ∉ (ofString "app").segments ∧
      packages ∉ (ofString "app/../app").segments := by decide
  have inside : packages ∈ (ofString "node_modules/../app").segments := by decide
  have same := (again _ ls collect_app found).1.2 (.inl (iff_of_false outside.1 outside.2))
  have other := mt (through _ ms collect_app found').1.1
    (by simp [outside.1, inside])
  exact ⟨proper_twoDirectories, stands_app, stands_app_again, stands_app_through,
    ⟨ls, found, same.symm⟩, ms, found', fun seen => other seen.symm⟩

/-- Of two spellings of one root the first one has a source and the second one has none. -/
theorem collect_differs_app : Stands appContent twoDirectories "app" ∧
    Stands appContent twoDirectories "node_modules/../app" ∧
    collect twoDirectories "app" = .ok [⟨.home, ["app", "a.ts"]⟩] ∧
    collect twoDirectories "node_modules/../app" = .ok [] := by
  refine ⟨stands_app, stands_app_through, collect_app, ?_⟩
  refine collect_eq_ok.2 (.inr ⟨by rfl, _, by rfl, ?_⟩)
  have within : packages ∈ (ofString "node_modules/../app").segments := by decide
  simp [isSource_eq, within]

end Sources

end PropertyMetadata
