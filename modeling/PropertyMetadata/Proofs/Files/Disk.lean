import Mathlib.Data.List.Basic
import PropertyMetadata.Files.Disk

/-! Disks place by place. A place is seen from outside: a file with its bytes, a directory, or
nothing. What a path leads to depends on the directories on its way and on what stands at its place,
and a file that is written is seen at its place alone. -/

namespace PropertyMetadata

/-- What an entry is from outside: a file with its bytes, or a directory. -/
inductive Outline where
  | file (bytes : List UInt8)
  | directory
  deriving DecidableEq, Repr

namespace Entry

variable {e new : Entry} {place q : List String} {s : String}

def outline : Entry → Outline
  | file bytes => .file bytes
  | directory _ => .directory

theorem outline_eq_directory : e.outline = .directory ↔ ∃ es, e = directory es := by
  cases e <;> simp [outline]

theorem outline_eq_file {bytes : List UInt8} : e.outline = .file bytes ↔ e = file bytes := by
  cases e <;> simp [outline]

theorem at?_append (e : Entry) (place q : List String) :
    e.at? (place ++ q) = (e.at? place).bind fun c => c.at? q := by
  induction place generalizing e with
  | nil => rfl
  | cons s place ih =>
    simp only [List.cons_append, at?]
    cases e.child? s <;> simp [ih]

theorem at?_singleton (e : Entry) (s : String) : e.at? [s] = e.child? s := by
  cases h : e.child? s <;> simp [at?, h]

theorem at?_cons_of_outline_ne (h : e.outline ≠ .directory) (s : String) (q : List String) :
    e.at? (s :: q) = none := by
  cases e with
  | directory es => exact absurd rfl h
  | file bytes => rfl

/-- Setting what has no entries, in a directory and not over another one, is seen at its place
alone. -/
theorem outline_at?_set (hd : (e.at? place).map outline = some .directory)
    (hv : (e.at? (place ++ [s])).map outline ≠ some .directory)
    (bare : ∀ s, new.child? s = none) (q : List String) :
    ((e.set (place ++ [s]) new).at? q).map outline =
      if q = place ++ [s] then some new.outline else (e.at? q).map outline := by
  induction place generalizing e q with
  | nil =>
    obtain ⟨es, rfl⟩ := outline_eq_directory.1 (Option.some.inj hd)
    cases q with
    | nil => rfl
    | cons t q =>
      simp only [List.nil_append, set, at?, child?, entries, Json.lookup_insert, List.cons.injEq]
      by_cases hst : s = t
      · subst hst
        cases q with
        | nil => simp [at?]
        | cons u q =>
          have vacant : (Json.lookup es s).bind (fun c => c.at? (u :: q)) = none := by
            rw [Option.bind_eq_none_iff]
            intro c hc
            refine at?_cons_of_outline_ne (fun hcd => hv ?_) u q
            rw [List.nil_append, at?_singleton, child?, entries, hc, Option.map_some, hcd]
          rw [vacant]
          simp [at?, bare]
      · simp [hst, Ne.symm hst]
  | cons a place ih =>
    simp only [List.cons_append, at?] at hd hv
    cases e with
    | file bytes => cases hd
    | directory es =>
      simp only [child?, entries] at hd hv
      cases hc : Json.lookup es a with
      | none => simp [hc] at hd
      | some c =>
        simp only [hc, Option.bind_some] at hd hv
        cases q with
        | nil => rfl
        | cons t q =>
          simp only [List.cons_append, set, at?, child?, entries, Json.lookup_insert, hc,
            Option.getD_some, List.cons.injEq]
          by_cases hat : a = t
          · subst hat
            simpa [hc] using ih hd hv q
          · simp [hat, Ne.symm hat]

end Entry

namespace Disk

variable {d d' e : Disk} {path name : String} {p q lead ss : List String} {bytes : List UInt8}

def outline (d : Disk) (p : List String) : Option Outline :=
  (d.root.at? p).map Entry.outline

def place (d : Disk) (path : String) : List String := Path.walk (d.origin path) (steps path)

theorem origin_congr (h : e.home = d.home) (path : String) : e.origin path = d.origin path := by
  rw [Disk.origin, h, Disk.origin]

theorem place_congr (h : e.home = d.home) (path : String) : e.place path = d.place path := by
  rw [Disk.place, origin_congr h, Disk.place]

def Open (d : Disk) : List String → List String → Prop
  | _, [] => True
  | p, s :: ss => d.outline p = some .directory ∧ d.Open (Path.walk p [s]) ss

/-! ### Following paths -/

theorem open_append : d.Open p (lead ++ ss) ↔
    d.Open p lead ∧ d.Open (Path.walk p lead) ss := by
  induction lead generalizing p with
  | nil => simp [Open, Path.walk]
  | cons s lead ih =>
    rw [List.cons_append, Open, Open, ih, ← Path.walk_append, List.singleton_append, and_assoc]

/-- What is open and ends at something begins at something. -/
theorem Open.isSome (h : d.Open p ss) (there : (d.outline (Path.walk p ss)).isSome) :
    (d.outline p).isSome := by
  cases ss with
  | nil => exact there
  | cons s ss => simp [h.1]

theorem lookup_of_outline {es : List (String × Entry)} (hp : d.root.at? p = some (.directory es))
    (s : String) : (Json.lookup es s).map Entry.outline = d.outline (p ++ [s]) := by
  rw [outline, Entry.at?_append, hp, Option.bind_some, Entry.at?_singleton]
  rfl

theorem exists_directory (h : d.outline p = some .directory) :
    ∃ es, d.root.at? p = some (.directory es) := by
  obtain ⟨x, hx, hd⟩ := Option.map_eq_some_iff.1 h
  obtain ⟨es, rfl⟩ := Entry.outline_eq_directory.1 hd
  exact ⟨es, hx⟩

/-- Steps that can be followed are open and lead where the walk along them leads. -/
theorem follow_eq_ok (h : d.follow path p ss = .ok q) :
    d.Open p ss ∧ q = Path.walk p ss := by
  induction ss generalizing p with
  | nil =>
    cases h
    exact ⟨trivial, rfl⟩
  | cons s ss ih =>
    unfold follow at h
    split at h
    · cases h
    · cases h
    · next es hes =>
      have directory : d.outline p = some .directory := by simp [outline, hes, Entry.outline]
      rw [Open, ← List.singleton_append, Path.walk_append]
      split at h
      · next still => simpa [Path.walk, still, directory] using ih h
      · next still =>
        split at h
        · next up => simpa [Path.walk, still, up, directory] using ih h
        · next down =>
          split at h
          · simpa [Path.walk, still, down, directory] using ih h
          · cases h

/-- Steps that are open and lead to something can be followed. -/
theorem Open.follow (h : d.Open p ss) (there : (d.outline (Path.walk p ss)).isSome) :
    d.follow path p ss = .ok (Path.walk p ss) := by
  induction ss generalizing p with
  | nil => rfl
  | cons s ss ih =>
    obtain ⟨directory, rest⟩ := h
    obtain ⟨es, hes⟩ := exists_directory directory
    rw [← List.singleton_append, Path.walk_append] at there ⊢
    have next := rest.isSome there
    have go := ih rest there
    rw [List.singleton_append, Disk.follow]
    simp only [hes]
    split
    · next still => simpa [Path.walk, still] using go
    · next still =>
      split
      · next up => simpa [Path.walk, still, up] using go
      · next down =>
        have moved : Path.walk p [s] = p ++ [s] := by simp [Path.walk, still, down]
        rw [moved] at next go ⊢
        rw [← lookup_of_outline hes] at next
        cases hs : Json.lookup es s with
        | none => simp [hs] at next
        | some c => exact go

/-! ### Reading and writing -/

theorem look_eq_ok {x : Entry} : d.look path = .ok x ↔
    path ≠ "" ∧ d.Open (d.origin path) (steps path) ∧ d.root.at? (d.place path) = some x := by
  unfold look
  by_cases empty : path = ""
  · simp [empty]
  · rw [if_neg (by simpa using empty)]
    constructor
    · intro h
      cases followed : d.follow path (d.origin path) (steps path) with
      | error e => simp [followed, bind, Except.bind] at h
      | ok q =>
        obtain ⟨isOpen, rfl⟩ := follow_eq_ok followed
        simp only [followed, bind, Except.bind] at h
        split at h
        · next e he =>
          cases h
          exact ⟨empty, isOpen, he⟩
        · cases h
    · rintro ⟨-, isOpen, there⟩
      have found : (d.outline (d.place path)).isSome := by simp [outline, there]
      have there' : d.root.at? (Path.walk (d.origin path) (steps path)) = some x := there
      simp [isOpen.follow found, there', bind, Except.bind, pure, Except.pure]

theorem look_isOk_iff : (d.look path).isOk = true ↔
    path ≠ "" ∧ d.Open (d.origin path) (steps path) ∧ (d.outline (d.place path)).isSome := by
  rw [outline, Option.isSome_map, Option.isSome_iff_exists]
  simp only [← exists_and_left, ← look_eq_ok]
  cases d.look path <;> simp [Except.isOk, Except.toBool]

theorem read_eq_ok : d.read path = .ok bytes ↔
    path ≠ "" ∧ d.Open (d.origin path) (steps path) ∧
      d.outline (d.place path) = some (.file bytes) := by
  have file : d.outline (d.place path) = some (.file bytes) ↔
      d.root.at? (d.place path) = some (.file bytes) := by
    simp [outline, Option.map_eq_some_iff, Entry.outline_eq_file]
  rw [file, ← look_eq_ok, read]
  cases d.look path with
  | error e => simp [bind, Except.bind]
  | ok x => cases x <;> simp [bind, Except.bind, pure, Except.pure]

theorem isFile_iff : d.isFile path = true ↔ ∃ bytes, d.read path = .ok bytes := by
  rw [isFile, read]
  cases d.look path with
  | error e => simp [bind, Except.bind]
  | ok x => cases x <;> simp [bind, Except.bind, pure, Except.pure, Entry.isDirectory]

/-- A path at which a file can be written: its last step is a name, it is open, and it does not lead
to a directory. -/
structure Admits (d : Disk) (path : String) : Prop where
  named : ∃ lead name, steps path = lead ++ [name] ∧ name ≠ "" ∧ name ≠ "." ∧ name ≠ ".."
  isOpen : d.Open (d.origin path) (steps path)
  vacant : d.outline (d.place path) ≠ some .directory

/-- A walk along a path that ends with a name ends in what the name stands for. -/
theorem place_of_named (h : steps path = lead ++ [name])
    (hn : name ≠ "" ∧ name ≠ "." ∧ name ≠ "..") :
    d.place path = Path.walk (d.origin path) lead ++ [name] := by
  rw [place, h, Path.walk_append]
  simp [Path.walk, hn]

/-- Steps that do not end with an empty one are left whole where empty ones are taken off. -/
theorem named_eq_self {named : List String}
    (h : (ss.reverse.dropWhile (·.isEmpty)).reverse = named) (whole : ss.length ≤ named.length)
    (last : named.getLast? = some name) : named = ss ∧ ss = ss.dropLast ++ [name] ∧ name ≠ "" := by
  have front : named <+: ss := by
    rw [← h, ← List.reverse_suffix, List.reverse_reverse]
    exact List.dropWhile_suffix _
  obtain rfl : named = ss := front.eq_of_length_le whole
  refine ⟨rfl, (List.dropLast_append_getLast? name last).symm, ?_⟩
  have full := List.head?_dropWhile_not (fun s : String => s.isEmpty) named.reverse
  rw [← List.getLast?_reverse, h, last] at full
  simpa using full

theorem admits_of_write (h : d.write path bytes = .ok d') :
    d.Admits path ∧ d' = { d with root := d.root.set (d.place path) (.file bytes) } := by
  unfold write at h
  simp only at h
  generalize hnamed : ((steps path).reverse.dropWhile (·.isEmpty)).reverse = named at h
  split at h
  · cases h
  next name last =>
  cases followed : d.follow path (d.origin path) named.dropLast with
  | error e => simp [followed, bind, Except.bind] at h
  | ok q =>
    obtain ⟨isOpen, rfl⟩ := follow_eq_ok followed
    simp only [followed, bind, Except.bind] at h
    split at h
    · next es hes =>
      split at h
      · cases h
      next proper =>
      simp only [not_or] at proper
      obtain ⟨rfl, split, nonempty⟩ := named_eq_self hnamed (by omega) last
      have here := place_of_named (d := d) split ⟨nonempty, proper.2⟩
      have directory :
          d.outline (Path.walk (d.origin path) (steps path).dropLast) = some .directory := by
        simp [outline, hes, Entry.outline]
      have opened : d.Open (d.origin path) (steps path) := by
        rw [split, open_append]
        exact ⟨isOpen, directory, trivial⟩
      split at h
      · cases h
      next vacant =>
      cases h
      refine ⟨⟨⟨_, name, split, nonempty, proper.2⟩, opened, fun hd => ?_⟩, by rw [here]⟩
      rw [here, ← lookup_of_outline hes] at hd
      obtain ⟨x, hx, hd⟩ := Option.map_eq_some_iff.1 hd
      obtain ⟨es', rfl⟩ := Entry.outline_eq_directory.1 hd
      exact vacant es' hx
    · cases h
    · cases h

theorem Admits.write_eq (h : d.Admits path) (bytes : List UInt8) :
    d.write path bytes = .ok { d with root := d.root.set (d.place path) (.file bytes) } := by
  obtain ⟨⟨lead, name, split, proper⟩, isOpen, vacant⟩ := h
  unfold write
  simp only
  have all : ((steps path).reverse.dropWhile (·.isEmpty)).reverse = lead ++ [name] := by
    rw [split]
    simp [proper.1]
  rw [all]
  rw [split, open_append] at isOpen
  obtain ⟨isOpen, directory, -⟩ := isOpen
  obtain ⟨es, hes⟩ := exists_directory directory
  have here := place_of_named (d := d) split proper
  rw [here, ← lookup_of_outline hes] at vacant
  simp only [List.getLast?_append, List.getLast?_singleton, Option.some_or,
    List.dropLast_concat, isOpen.follow (by simp [directory]), bind, Except.bind, hes, split,
    Nat.lt_irrefl, proper.2, or_self, if_false]
  cases hn : Json.lookup es name with
  | none => simp [here, pure, Except.pure]
  | some x =>
    cases x with
    | file b => simp [here, pure, Except.pure]
    | directory es' => simp [hn, Entry.outline] at vacant

theorem write_eq_ok : d.write path bytes = .ok d' ↔
    d.Admits path ∧ d' = { d with root := d.root.set (d.place path) (.file bytes) } := by
  refine ⟨admits_of_write, ?_⟩
  rintro ⟨admits, rfl⟩
  exact admits.write_eq bytes

/-- A file that is written is seen at its place alone. -/
theorem outline_write (h : d.write path bytes = .ok d') :
    d'.home = d.home ∧
      ∀ q, d'.outline q = if q = d.place path then some (.file bytes) else d.outline q := by
  obtain ⟨⟨⟨lead, name, split, proper⟩, isOpen, vacant⟩, rfl⟩ := write_eq_ok.1 h
  rw [split, open_append] at isOpen
  have here := place_of_named (d := d) split proper
  rw [here] at vacant ⊢
  exact ⟨rfl, Entry.outline_at?_set isOpen.2.1 vacant fun _ => rfl⟩

theorem read_write (h : d.write path bytes = .ok d') : d'.read path = .ok bytes := by
  obtain ⟨home, seen⟩ := outline_write h
  obtain ⟨⟨⟨lead, name, split, proper⟩, isOpen, vacant⟩, -⟩ := write_eq_ok.1 h
  have kept : ∀ p ss, d.Open p ss → d'.Open p ss := by
    intro p ss
    induction ss generalizing p with
    | nil => exact id
    | cons s ss ih =>
      rintro ⟨directory, rest⟩
      have other : p ≠ d.place path := by
        rintro rfl
        exact vacant directory
      exact ⟨by rw [seen, if_neg other, directory], ih _ rest⟩
  refine read_eq_ok.2 ⟨?_, ?_, by rw [place_congr home, seen, if_pos rfl]⟩
  · rintro rfl
    have last := congrArg List.getLast? split
    rw [List.getLast?_concat] at last
    exact proper.1 (Option.some.inj last).symm
  · rw [origin_congr home]
    exact kept _ _ isOpen

/-! ### Disks that differ in files -/

/-- Disks that look the same but where the first one has a file and a place is one of those given:
there the second one may have anything but a directory. -/
structure Alike (W : List String → Prop) (d e : Disk) : Prop where
  home : e.home = d.home
  seen : ∀ p, e.outline p = d.outline p ∨
    W p ∧ (∃ bytes, d.outline p = some (.file bytes)) ∧ e.outline p ≠ some .directory

namespace Alike

variable {W : List String → Prop} {bytes' : List UInt8} {e' : Disk}

theorem refl (W : List String → Prop) (d : Disk) : Alike W d d := ⟨rfl, fun _ => .inl rfl⟩

theorem directory_iff (h : Alike W d e) (p : List String) :
    e.outline p = some .directory ↔ d.outline p = some .directory := by
  rcases h.seen p with same | ⟨-, ⟨bytes, file⟩, other⟩
  · rw [same]
  · simp [file, other]

theorem open_iff (h : Alike W d e) (p ss : List String) : e.Open p ss ↔ d.Open p ss := by
  induction ss generalizing p with
  | nil => rfl
  | cons s ss ih => rw [Open, Open, h.directory_iff, ih]

theorem look_isOk (h : Alike W d e) (hp : ¬ W (d.place path)) :
    (e.look path).isOk = (d.look path).isOk := by
  rw [Bool.eq_iff_iff, look_isOk_iff, look_isOk_iff, place_congr h.home, origin_congr h.home,
    h.open_iff, (h.seen _).resolve_right fun w => hp w.1]

theorem read_iff (h : Alike W d e) (hp : ¬ W (d.place path)) :
    e.read path = .ok bytes ↔ d.read path = .ok bytes := by
  rw [read_eq_ok, read_eq_ok, place_congr h.home, origin_congr h.home, h.open_iff,
    (h.seen _).resolve_right fun w => hp w.1]

theorem admits_iff (h : Alike W d e) (path : String) : e.Admits path ↔ d.Admits path := by
  constructor
  · rintro ⟨named, isOpen, vacant⟩
    rw [origin_congr h.home, h.open_iff] at isOpen
    rw [place_congr h.home, ne_eq, h.directory_iff] at vacant
    exact ⟨named, isOpen, vacant⟩
  · rintro ⟨named, isOpen, vacant⟩
    rw [← h.open_iff, ← origin_congr h.home] at isOpen
    rw [ne_eq, ← h.directory_iff, ← place_congr h.home] at vacant
    exact ⟨named, isOpen, vacant⟩

theorem exists_write (h : Alike W d e) (hd : d.write path bytes = .ok d') (bytes' : List UInt8) :
    ∃ e', e.write path bytes' = .ok e' :=
  ⟨_, write_eq_ok.2 ⟨(h.admits_iff path).2 (write_eq_ok.1 hd).1, rfl⟩⟩

/-- Disks stay alike when files are written at one of the places. -/
theorem write (h : Alike W d e) (hd : d.write path bytes = .ok d')
    (he : e.write path bytes' = .ok e') (hp : W (d.place path)) : Alike W d' e' := by
  obtain ⟨home, seen⟩ := outline_write hd
  obtain ⟨home', seen'⟩ := outline_write he
  refine ⟨by rw [home, home', h.home], fun p => ?_⟩
  rw [seen, seen', place_congr h.home]
  split
  · next here =>
    subst here
    exact .inr ⟨hp, ⟨bytes, rfl⟩, by simp⟩
  · exact h.seen p

theorem withDirectories (h : Alike W d e) (hd : d.withDirectories p ss = .ok d') :
    ∃ e', e.withDirectories p ss = .ok e' ∧ Alike W d' e' := by
  induction ss generalizing p d e with
  | nil =>
    cases hd
    exact ⟨e, rfl, h⟩
  | cons s ss ih =>
    unfold Disk.withDirectories at hd ⊢
    simp only at hd ⊢
    split at hd
    · next es hes =>
      have directory : d.outline p = some .directory := by simp [outline, hes, Entry.outline]
      obtain ⟨es', hes'⟩ := exists_directory ((h.directory_iff p).2 directory)
      simp only [hes']
      have next := lookup_of_outline hes s
      have next' := lookup_of_outline hes' s
      split at hd
      · next x hx =>
        rw [hx, Option.map_some] at next
        obtain ⟨x', hx', dir'⟩ := Option.map_eq_some_iff.1
          (next'.trans ((h.directory_iff _).2 next.symm))
        obtain ⟨es'', rfl⟩ := Entry.outline_eq_directory.1 dir'
        simp only [hx']
        exact ih h hd
      · split at hd <;> cases hd
      · next absent =>
        rw [absent, Option.map_none] at next
        have same : e.outline (p ++ [s]) = none := by
          rcases h.seen (p ++ [s]) with same | ⟨-, ⟨bytes, file⟩, -⟩
          · rw [same, next]
          · cases next.trans file
        rw [same, Option.map_eq_none_iff] at next'
        simp only [next']
        have alike : Alike W { d with root := d.root.set (p ++ [s]) (.directory []) }
            { e with root := e.root.set (p ++ [s]) (.directory []) } := by
          refine ⟨h.home, fun q => ?_⟩
          have vacant : d.outline (p ++ [s]) ≠ some .directory := by simp [← next]
          have vacant' : e.outline (p ++ [s]) ≠ some .directory := by simp [same]
          rw [outline, outline, Entry.outline_at?_set directory vacant fun _ => rfl,
            Entry.outline_at?_set ((h.directory_iff p).2 directory) vacant' fun _ => rfl]
          split
          · exact .inl rfl
          · exact h.seen q
        exact ih alike hd
    · cases hd

end Alike

/-- Disks that look the same but at one place. -/
structure DiffersAt (p : List String) (d e : Disk) : Prop where
  home : e.home = d.home
  seen : ∀ q, q ≠ p → e.outline q = d.outline q

/-- Where a file is removed, or another one stands in its place, disks are alike. -/
theorem DiffersAt.alike (h : DiffersAt p d e) (file : d.outline p = some (.file bytes))
    (other : e.outline p ≠ some .directory) : Alike (· = p) d e := by
  refine ⟨h.home, fun q => ?_⟩
  by_cases here : q = p
  · subst here
    exact .inr ⟨rfl, ⟨bytes, file⟩, other⟩
  · exact .inl (h.seen q here)

end Disk

end PropertyMetadata
