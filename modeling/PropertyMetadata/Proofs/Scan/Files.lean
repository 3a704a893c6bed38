import PropertyMetadata.Proofs.Files.Disk
import PropertyMetadata.Proofs.Scan.Reports
import PropertyMetadata.Property.Extractor

/-! Extractors on files. What they find in a file depends on what the disk has at its path alone,
and bears that path. -/

namespace PropertyMetadata

variable {parse : Parser} {source : List UInt8} {file path : String} {t : Tree} {ps : List Property}

theorem Tree.file_of_property? {owner : Option Tree} {before : List Tree} {p : Property}
    (h : t.property? source file owner before = .ok (some p)) : p.file = Path.slashed file := by
  rw [property?] at h
  cases named : t.part? "name" with
  | none => simp [named] at h
  | some name =>
    simp only [named, bind_eq_ok_iff] at h
    obtain ⟨ds, -, h⟩ := h
    cases h
    rfl

theorem Property.file_of_scan {names : Option Names} (h : scan names source file t = .ok ps) :
    ∀ p ∈ ps, p.file = Path.slashed file := by
  obtain ⟨qs, all, h⟩ := bind_eq_ok_iff.1 h
  cases h
  have declared := declaredAt_of_all all
  have files : ∀ p ∈ qs, p.file = Path.slashed file := by
    generalize t.fieldPlaces = places at declared
    clear all h
    induction declared with
    | nil => exact List.forall_mem_nil _
    | cons declared _ ih =>
      obtain ⟨above, cls, f, waiting, -, declares, -⟩ := declared
      exact List.forall_mem_cons.2 ⟨Tree.file_of_property? declares, ih⟩
  exact fun p hp => files p (List.mem_filter.1 hp).1

theorem Encodings.read_eq_ok {e : Encodings} {d : Disk} {s : String} :
    e.read d path = .ok s ↔ ∃ bytes, d.read path = .ok bytes ∧ e.text bytes = .ok s := by
  rw [read]
  cases d.read path <;> simp

namespace Extractor

variable {x : Extractor} {d d' e : Disk} {W : List String → Prop}

/-- Disks that agree on a file give the same properties for it. -/
theorem ofFile_iff (h : d.Alike W e) (hp : ¬ W (d.place path)) :
    x.ofFile parse e path = .ok ps ↔ x.ofFile parse d path = .ok ps := by
  simp only [ofFile, bind_eq_ok_iff, Encodings.read_eq_ok, h.read_iff hp]

theorem file_of_ofFile (h : x.ofFile parse d path = .ok ps) :
    ∀ p ∈ ps, p.file = Path.slashed path := by
  obtain ⟨s, -, found⟩ := bind_eq_ok_iff.1 h
  exact Property.file_of_scan found

theorem write_eq_ok : x.write d path = .ok d' ↔
    d.write path (Text.Utf8.encode x.text) = .ok d' := by
  rw [write]
  cases d.write path (Text.Utf8.encode x.text) <;> simp

end Extractor

end PropertyMetadata
