import Mathlib.Data.List.Forall2
import PropertyMetadata.Property.Session
import PropertyMetadata.Proofs.Scan.Files

/-! What an extractor remembers. It remembers what it has answered to the files that it was given,
in the order of the questions, and nothing else changes it. An extractor that looks for decorators
fails where one that keeps everything fails, and remembers of the same properties those that carry
such a decorator. -/

namespace PropertyMetadata

open List (Forall₂)

variable {parse : Parser} {names : Names} {path : String}

def Property.Carries (names : Names) (p : Property) : Prop := ∃ d ∈ p.decorators, d.name ∈ names

instance (names : Names) (p : Property) : Decidable (p.Carries names) :=
  inferInstanceAs (Decidable (∃ d ∈ p.decorators, d.name ∈ names))

def Property.carrying (names : Names) (ps : List Property) : List Property :=
  ps.filter fun p => decide (p.Carries names)

theorem Property.isKept_some (names : Names) (p : Property) :
    isKept (some names) p = decide (p.Carries names) := by
  rw [Bool.eq_iff_iff, decide_eq_true_iff]
  simp [isKept, Decorator.find?, Decorator.isNamed, Carries]

namespace Extractor

variable {x y : Extractor} {d e : Disk} {W : List String → Prop}

/-- A search for decorators fails where the search for all properties fails, and finds those with
such a decorator. -/
theorem scan_eq_map (hx : x.names = some names) (hy : y.names = none) (file source : String) :
    x.scan parse file source = (y.scan parse file source).map (Property.carrying names) := by
  rw [scan, scan, hx, hy, Property.scan_none, Property.scan, funext (Property.isKept_some names)]
  cases Property.all _ file (parse source) <;> rfl

theorem ofFile_eq_ok (hx : x.names = some names) (hy : y.names = none)
    (same : x.encodings = y.encodings) (h : d.Alike W e) (hp : ¬ W (d.place path))
    {ps : List Property} :
    x.ofFile parse e path = .ok ps ↔
      ∃ qs, y.ofFile parse d path = .ok qs ∧ ps = Property.carrying names qs := by
  rw [ofFile_iff h hp]
  simp only [ofFile, scan_eq_map hx hy, same]
  cases y.encodings.read d path with
  | error f => simp [bind, Except.bind]
  | ok s => cases found : y.scan parse path s <;> simp [bind, Except.bind, Except.map, found, eq_comm]

end Extractor

namespace Session

variable {W : List String → Prop} {s t : Session} {u : Use} {us : List Use}

def Reply.found : Reply → List Property
  | .processed (.ok ps) => ps
  | _ => []

/-- Whether a search or the writing of records has failed. -/
def Reply.failed : Reply → Bool
  | .processed r | .scanned r => !r.isOk
  | .written r => !r.isOk
  | .text _ | .kept _ | .recorded _ => false

/-! ### One session -/

theorem extractor_perform (parse : Parser) (s : Session) (u : Use) :
    (s.perform parse u).2.extractor = s.extractor.remember (s.perform parse u).1.found := by
  have same : s.extractor = s.extractor.remember [] := by
    rw [Extractor.remember, List.append_nil]
  cases u with
  | process path =>
    simp only [perform, Extractor.process]
    cases s.extractor.ofFile parse s.disk path with
    | ok ps => rfl
    | error e => exact same
  | write path =>
    simp only [perform]
    cases s.extractor.write s.disk path <;> exact same
  | _ => exact same

/-- All answers are remembered in their order. -/
theorem extractor_run (parse : Parser) (s : Session) (us : List Use) :
    (s.run parse us).2.extractor =
      s.extractor.remember ((s.run parse us).1.flatMap Reply.found) := by
  induction us generalizing s with
  | nil => simp [run, Extractor.remember]
  | cons u us ih =>
    rw [run, ih, extractor_perform, List.flatMap_cons]
    simp [Extractor.remember]

theorem run_take (parse : Parser) (s : Session) (us : List Use) (n : Nat) :
    (s.run parse (us.take n)).1 = (s.run parse us).1.take n := by
  induction us generalizing s n with
  | nil => simp [run]
  | cons u us ih =>
    cases n with
    | zero => rfl
    | succ n => simp [run, ih]

/-! ### Two sessions -/

/-- What a use may touch: files are not taken from given places, and written to them alone. -/
def Use.Respects (W : List String → Prop) (d : Disk) : Use → Prop
  | .process path => ¬ W (d.place path)
  | .write path => W (d.place path)
  | _ => True

theorem Use.Respects.of_home {d e : Disk} (h : u.Respects W d) (home : e.home = d.home) :
    u.Respects W e := by
  cases u with
  | process path => rwa [Use.Respects, Disk.place_congr home]
  | write path => rwa [Use.Respects, Disk.place_congr home]
  | _ => trivial

/-- A session with names beside one without, which reads files by the same encodings: it remembers
what carries a decorator with one of the names, and the disks differ in the contents of files at
given places. -/
structure Narrows (names : Names) (W : List String → Prop) (s t : Session) : Prop where
  named : s.extractor.names = some names
  free : t.extractor.names = none
  encodings : s.extractor.encodings = t.extractor.encodings
  found : s.extractor.found = Property.carrying names t.extractor.found
  disk : t.disk.Alike W s.disk
  disk' : s.disk.Alike W t.disk

/-- The step of two sessions: both fail or none does, and they stay beside each other. -/
theorem Narrows.perform (h : Narrows names W s t) (hu : u.Respects W t.disk) (parse : Parser) :
    (s.perform parse u).1.failed = (t.perform parse u).1.failed ∧
      Narrows names W (s.perform parse u).2 (t.perform parse u).2 := by
  cases u with
  | process path =>
    have found {ps : List Property} : s.extractor.ofFile parse s.disk path = .ok ps ↔
        ∃ qs, t.extractor.ofFile parse t.disk path = .ok qs ∧ ps = Property.carrying names qs :=
      Extractor.ofFile_eq_ok h.named h.free h.encodings h.disk hu
    simp only [Session.perform, Extractor.process]
    cases whole : t.extractor.ofFile parse t.disk path with
    | ok qs =>
      rw [found.2 ⟨qs, whole, rfl⟩]
      refine ⟨rfl, h.named, h.free, h.encodings, ?_, h.disk, h.disk'⟩
      simp [Extractor.remember, Property.carrying, h.found]
    | error e =>
      cases part : s.extractor.ofFile parse s.disk path with
      | ok ps =>
        obtain ⟨qs, hqs, -⟩ := found.1 part
        cases whole.symm.trans hqs
      | error e' => exact ⟨rfl, h⟩
  | scan file source =>
    refine ⟨?_, h⟩
    simp only [Session.perform, Reply.failed, Extractor.scan_eq_map h.named h.free]
    cases t.extractor.scan parse file source <;> rfl
  | keep p => exact ⟨rfl, h⟩
  | read path => exact ⟨rfl, h⟩
  | records => exact ⟨rfl, h⟩
  | write path =>
    simp only [Session.perform]
    cases part : s.extractor.write s.disk path with
    | ok d =>
      rw [Extractor.write_eq_ok] at part
      obtain ⟨e, whole⟩ := h.disk'.exists_write part (Text.Utf8.encode t.extractor.text)
      rw [Extractor.write_eq_ok.2 whole]
      have there : W (s.disk.place path) := by rwa [Disk.place_congr h.disk.home]
      exact ⟨rfl, h.named, h.free, h.encodings, h.found, h.disk.write whole part hu,
        h.disk'.write part whole there⟩
    | error e =>
      cases whole : t.extractor.write t.disk path with
      | ok d =>
        rw [Extractor.write_eq_ok] at whole
        obtain ⟨e', part'⟩ := h.disk.exists_write whole (Text.Utf8.encode s.extractor.text)
        cases part.symm.trans (Extractor.write_eq_ok.2 part')
      | error e' => exact ⟨rfl, h⟩

theorem home_perform (parse : Parser) (s : Session) (u : Use) :
    (s.perform parse u).2.disk.home = s.disk.home := by
  cases u with
  | write path =>
    simp only [perform]
    cases h : s.extractor.write s.disk path with
    | ok d => exact (Disk.outline_write (Extractor.write_eq_ok.1 h)).1
    | error e => rfl
  | _ => rfl

/-- Two sessions fail at the same questions and stay beside each other. -/
theorem Narrows.run (h : Narrows names W s t) (hus : ∀ u ∈ us, u.Respects W t.disk)
    (parse : Parser) :
    Forall₂ (fun r r' => r.failed = r'.failed) (s.run parse us).1 (t.run parse us).1 ∧
      Narrows names W (s.run parse us).2 (t.run parse us).2 := by
  induction us generalizing s t with
  | nil => exact ⟨.nil, h⟩
  | cons u us ih =>
    obtain ⟨hu, rest⟩ := List.forall_mem_cons.1 hus
    obtain ⟨same, next⟩ := h.perform hu parse
    have rest' : ∀ u' ∈ us, u'.Respects W (t.perform parse u).2.disk :=
      fun u' hu' => (rest u' hu').of_home (home_perform parse t u)
    obtain ⟨sames, last⟩ := ih next rest'
    exact ⟨.cons same sames, last⟩

/-- The files that are asked for are not written to. -/
def SourcesFixed (d : Disk) (us : List Use) : Prop :=
  ∀ path path', .process path ∈ us → .write path' ∈ us → d.place path' ≠ d.place path

/-- An extractor remembers, after every question, what it has found in files, in the order of the
questions: an answer that is a failure leaves no trace, and nor does any other question. An
extractor that looks for names fails at the searches at which one without names fails, whatever is
known of encodings, and remembers after every question, of what that one remembers, the properties
that carry a decorator with such a name. -/
theorem remembers (parse : Parser) (encodings : Encodings) (d : Disk) (names : Names)
    (us : List Use) :
    (∀ (s : Session) (n : Nat), (s.run parse (us.take n)).2.extractor =
      s.extractor.remember (((s.run parse us).1.take n).flatMap Reply.found)) ∧
    (SourcesFixed d us → ∀ n,
      let part := run parse ⟨{ names := some names, encodings }, d⟩ (us.take n)
      let whole := run parse ⟨{ names := none, encodings }, d⟩ (us.take n)
      Forall₂ (fun r r' => r.failed = r'.failed) part.1 whole.1 ∧
        part.2.extractor.found =
          whole.2.extractor.found.filter fun p => decide (p.Carries names)) := by
  refine ⟨fun s n => ?_, fun fixed n => ?_⟩
  · rw [extractor_run, run_take]
  · have start : Narrows names (fun p => ∃ path, .write path ∈ us ∧ d.place path = p)
        ⟨{ names := some names, encodings }, d⟩ ⟨{ names := none, encodings }, d⟩ :=
      ⟨rfl, rfl, rfl, rfl, .refl _ d, .refl _ d⟩
    have respects : ∀ u ∈ us.take n,
        u.Respects (fun p => ∃ path, .write path ∈ us ∧ d.place path = p) d := by
      intro u hu
      cases u with
      | process path =>
        rintro ⟨path', written, place⟩
        exact fixed path path' (List.mem_of_mem_take hu) written place
      | write path => exact ⟨path, List.mem_of_mem_take hu, rfl⟩
      | _ => trivial
    obtain ⟨alike, last⟩ := start.run respects parse
    exact ⟨alike, last.found⟩

end Session

namespace OneRow

def markedSource : String := "class A \x7b @D x; y \x7d"

/-- A class with two fields, of which the first has a decorator. -/
def marked : Tree :=
  span "program" 0 19 none [span "class_declaration" 0 19 none [
    token "class" 0 5, span "type_identifier" 6 7 (some "name") [],
    span "class_body" 8 19 (some "body") [
      token "\x7b" 8 9,
      span "public_field_definition" 10 14 none [
        span "decorator" 10 12 none [token "@" 10 11, span "identifier" 11 12 none []],
        span "property_identifier" 13 14 (some "name") []],
      token ";" 14 15, letter 16, token "\x7d" 18 19]]]

def markedField (file : String) : Property :=
  ⟨"x", some "A", false, none, [⟨some "D", "@D", [], []⟩], 1, 1, file⟩

def plainField (file : String) : Property := ⟨"y", some "A", false, none, [], 1, 1, file⟩

end OneRow

namespace Session

open OneRow

def oneFile : Disk where
  root := .directory [("w", .directory [("a.ts", .file (Text.Utf8.encode markedSource))])]
  home := ["w"]

/-- A file, a path that leads nowhere, the records, and the file once more. -/
def twice : List Use := [.process "a.ts", .process "b.ts", .write "out.json", .process "./a.ts"]

theorem whole_twice :
    (run (fun _ => marked) ⟨{ names := none }, oneFile⟩ twice).2.extractor.found =
      [markedField "a.ts", plainField "a.ts", markedField "./a.ts", plainField "./a.ts"] := by
  with_unfolding_all rfl

/-- A file that is asked for twice is remembered twice, and one that is missing not at all. -/
theorem remembers_twice : SourcesFixed oneFile twice ∧
    (run (fun _ => marked) ⟨{ names := none }, oneFile⟩ twice).2.extractor.found =
      [markedField "a.ts", plainField "a.ts", markedField "./a.ts", plainField "./a.ts"] ∧
    (run (fun _ => marked) ⟨{ names := some [some "D"] }, oneFile⟩ twice).2.extractor.found =
      [markedField "a.ts", markedField "./a.ts"] := by
  have fixed : SourcesFixed oneFile twice := by
    intro path path' asked written
    simp only [twice, List.mem_cons, Use.process.injEq, Use.write.injEq, reduceCtorEq, false_or,
      or_false, List.not_mem_nil] at asked written
    subst written
    rcases asked with rfl | rfl | rfl <;> decide
  refine ⟨fixed, whole_twice, ?_⟩
  have narrowed := (((remembers (fun _ => marked) .marked oneFile [some "D"] twice).2 fixed) 4).2
  rw [show twice.take 4 = twice from rfl, whole_twice] at narrowed
  rw [narrowed]
  decide

end Session

end PropertyMetadata
