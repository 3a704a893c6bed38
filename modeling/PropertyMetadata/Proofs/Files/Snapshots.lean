import PropertyMetadata.Proofs.Files.Listing
import PropertyMetadata.Snapshot

/-! The disks of snapshots are as file systems have them. -/

namespace PropertyMetadata

variable {d d' : Disk} {path : String} {p ss : List String}

theorem Disk.isName_place (hh : ∀ s ∈ d.home, Path.IsName s) (path : String) :
    ∀ s ∈ Path.walk (d.origin path) (steps path), Path.IsName s :=
  Path.isName_walk (Path.forall_mem_origin hh _) fun _ hs => Text.not_mem_of_mem_split hs

theorem Disk.proper_withDirectories (hd : d.root.Proper) (hp : ∀ s ∈ p, Path.IsName s)
    (hs : ∀ s ∈ ss, Path.IsName s) (h : d.withDirectories p ss = .ok d') :
    d'.root.Proper ∧ d'.home = d.home := by
  induction ss generalizing d p with
  | nil =>
    cases h
    exact ⟨hd, rfl⟩
  | cons s ss ih =>
    obtain ⟨name, rest⟩ := List.forall_mem_cons.1 hs
    have next : ∀ t ∈ p ++ [s], Path.IsName t :=
      List.forall_mem_append.2 ⟨hp, List.forall_mem_singleton.2 name⟩
    unfold withDirectories at h
    simp only at h
    split at h
    · split at h
      · exact ih hd next rest h
      · split at h <;> cases h
      · have empty : (Entry.directory []).Proper :=
          .directory .nil (List.forall_mem_nil _) (List.forall_mem_nil _)
        have made := ih (d := { d with root := d.root.set (p ++ [s]) (.directory []) })
          (hd.set empty next) next rest h
        exact made
    · cases h

namespace Snapshot

theorem proper_withContent (hd : d.root.Proper) (hh : ∀ s ∈ d.home, Path.IsName s)
    (f : String × Json) :
    (withContent d f).root.Proper ∧ (withContent d f).home = d.home := by
  rw [withContent]
  split
  · exact ⟨hd, rfl⟩
  · next made parents =>
    have names := Disk.isName_place hh f.1
    obtain ⟨proper, home⟩ := Disk.proper_withDirectories hd (List.forall_mem_nil _)
      (fun s hs => names s (List.dropLast_subset _ hs)) parents
    have place := Disk.isName_place (d := made) (by rwa [home]) f.1
    have empty : (Entry.directory []).Proper :=
      .directory .nil (List.forall_mem_nil _) (List.forall_mem_nil _)
    dsimp only
    split
    · split
      · exact ⟨proper, home⟩
      · exact ⟨proper.set empty place, home⟩
    · exact ⟨proper.set (.file _) place, home⟩

/-- The disk of every snapshot is proper. -/
theorem proper_disk {home : List String} (hh : ∀ s ∈ home, Path.IsName s) (x : Json) :
    (disk home x).root.Proper := by
  have empty : (Entry.directory []).Proper :=
    .directory .nil (List.forall_mem_nil _) (List.forall_mem_nil _)
  have kept : ∀ (fs : List (String × Json)) (d : Disk), d.root.Proper → d.home = home →
      (fs.foldl withContent d).root.Proper := by
    intro fs
    induction fs with
    | nil => exact fun d hd _ => hd
    | cons f fs ih =>
      intro d hd hhome
      obtain ⟨proper, same⟩ := proper_withContent hd (hhome ▸ hh) f
      exact ih _ proper (same.trans hhome)
  exact kept _ _ (empty.set empty hh) rfl

end Snapshot

end PropertyMetadata
