import Mathlib.Data.List.Forall2
import PropertyMetadata.Flags
import PropertyMetadata.Text.Pieces

/-! Names of flags. Several names are accepted if each of them spells a flag, and have the bits of
any of these flags, whatever their order and however often they occur. Names that are accepted hold
neither commas nor blanks, so that they survive being joined with commas: what is read from the text
are the names. -/

namespace PropertyMetadata

open Text
open List (Forall₂)

namespace Text

/-! ### Blanks -/

/-- The runs of code points between changes, each with its first one and the first one behind it. -/
def CharClass.runs : List Nat → List (Nat × Nat)
  | a :: b :: l => (a, b) :: runs l
  | _ => []

theorem CharClass.exists_run {n : Nat} : ∀ {l : List Nat}, l.Pairwise (· < ·) → l.length % 2 = 0 →
    l.countP (fun p => decide (p ≤ n)) % 2 = 1 → ∃ r ∈ runs l, r.1 ≤ n ∧ n < r.2
  | [], _, _, odd => by simp at odd
  | [_], _, even, _ => by simp at even
  | a :: b :: l, sorted, even, odd => by
    obtain ⟨ha, hb, sorted⟩ : (∀ c ∈ b :: l, a < c) ∧ (∀ c ∈ l, b < c) ∧ l.Pairwise (· < ·) := by
      simpa [List.pairwise_cons] using sorted
    rw [List.countP_cons, List.countP_cons] at odd
    by_cases below : n < b
    · have none : l.countP (fun p => decide (p ≤ n)) = 0 := by
        rw [List.countP_eq_zero]
        intro p hp
        have := hb p hp
        simp only [decide_eq_true_eq]
        omega
      by_cases inside : a ≤ n
      · exact ⟨(a, b), List.mem_cons_self, inside, below⟩
      · simp [none, inside, Nat.not_le.2 below] at odd
    · have above : a < b := ha b List.mem_cons_self
      -- both changes lie below, which leaves an odd number of the others
      simp only [decide_eq_true_eq, if_pos (show a ≤ n by omega), if_pos (show b ≤ n by omega)] at odd
      simp only [List.length_cons] at even
      have rest : l.countP (fun p => decide (p ≤ n)) % 2 = 1 := by omega
      obtain ⟨r, hr, hn⟩ := exists_run sorted (by omega) rest
      exact ⟨r, List.mem_cons_of_mem _ hr, hn⟩

theorem upperChar_of_isBlank {c : Char} (h : isBlank c = true) : upperChar c = [c] := by
  have all : ∀ r ∈ CharClass.runs blanks.changes, ∀ n ∈ List.range' r.1 (r.2 - r.1),
      upperChar (Char.ofNat n) = [Char.ofNat n] := by
    decide +kernel
  obtain ⟨r, hr, first, last⟩ := CharClass.exists_run (by decide) (by decide) (eq_of_beq h)
  have same := all r hr c.toNat (List.mem_range'_1.2 ⟨first, by omega⟩)
  rwa [Char.ofNat_toNat] at same

theorem trim_of_not_blank {s : String} (h : ∀ c ∈ s.toList, isBlank c = false) : trim s = s := by
  rw [trim, trimBoth_of_all h, String.ofList_toList]

/-- Texts that do not hold the separator are the pieces of what is joined from them. -/
theorem split_intercalate {sep : Char} {ss : List String} (hne : ss ≠ [])
    (h : ∀ s ∈ ss, sep ∉ s.toList) : split sep ((String.singleton sep).intercalate ss) = ss := by
  rw [intercalate_eq_joined, split_joined hne h]

end Text

namespace Flags

variable {name : String} {names : List String} {f : Flags} {c : Char}

/-! ### Spellings -/

/-- A name spells a flag: in capitals with underscores, or else so that it becomes this when an
underscore is put before every capital behind the first character and all is put in capitals. -/
inductive Spells (name : String) (f : Flags) : Prop
  | capitals (h : (name, f) ∈ Flags.names)
  | words (other : name ≠ upper name)
      (h : (upper (String.ofList (worded name.toList)), f) ∈ Flags.names)

/-- The names that are accepted are those that spell flags. -/
theorem named_eq_ok_iff : named name = .ok f ↔ Spells name f := by
  have distinct : (Flags.names.map (·.1)).Nodup := by decide
  have found : named name = .ok f ↔ (spelling name, f) ∈ Flags.names := by
    unfold named named?
    cases h : Json.lookup Flags.names (spelling name) with
    | none =>
      simp only [reduceCtorEq, false_iff]
      intro mem
      rw [Json.lookup_of_mem distinct mem] at h
      cases h
    | some g =>
      rw [Except.ok.injEq]
      constructor
      · rintro rfl
        exact Json.mem_of_lookup h
      · intro mem
        exact Option.some.inj (h.symm.trans (Json.lookup_of_mem distinct mem))
  have kept : ∀ p ∈ Flags.names, p.1 = upper p.1 := by decide +kernel
  rw [found, spelling]
  constructor
  · split
    · exact .capitals
    next other => exact .words other
  · rintro (h | ⟨other, h⟩)
    · rwa [if_pos (kept _ h)]
    · rwa [if_neg other]

theorem ofNames_eq_ok_iff :
    ofNames names = .ok f ↔ ∃ fs, Forall₂ Spells names fs ∧ f = fs.foldr union none := by
  induction names generalizing f with
  | nil =>
    constructor
    · intro h
      exact ⟨[], .nil, (Except.ok.inj h).symm⟩
    · rintro ⟨_, ⟨⟩, rfl⟩
      rfl
  | cons n ns ih =>
    have step : ofNames (n :: ns) = .ok f ↔
        ∃ g h, Spells n g ∧ ofNames ns = .ok h ∧ f = g.union h := by
      rw [ofNames]
      simp only [bind_eq_ok_iff, named_eq_ok_iff, pure, Except.pure, Except.ok.injEq,
        exists_and_left, eq_comm (b := f)]
    rw [step]
    constructor
    · rintro ⟨g, h, hn, hns, rfl⟩
      obtain ⟨fs, hfs, rfl⟩ := ih.1 hns
      exact ⟨g :: fs, .cons hn hfs, rfl⟩
    · rintro ⟨_, hfs, rfl⟩
      cases hfs with
      | @cons _ g _ fs hn hns => exact ⟨g, _, hn, ih.2 ⟨fs, hns, rfl⟩, rfl⟩

/-- Names are refused if one of them spells no flag. -/
theorem ofNames_eq_error_iff :
    (∃ e, ofNames names = .error e) ↔ ∃ n ∈ names, ∀ f, ¬ Spells n f := by
  induction names with
  | nil => simp [ofNames]
  | cons n ns ih =>
    rw [List.exists_mem_cons_iff, ← ih, ofNames]
    simp only [← named_eq_ok_iff]
    cases named n with
    | error e => simp [bind, Except.bind]
    | ok g => cases ofNames ns <;> simp [bind, Except.bind, pure, Except.pure]

/-- Accepted names have the bits of all flags that they spell, and no others. -/
theorem testBit_ofNames (h : ofNames names = .ok f) (i : Nat) :
    f.bits.testBit i = true ↔ ∃ n ∈ names, ∃ g, Spells n g ∧ g.bits.testBit i = true := by
  obtain ⟨fs, hfs, rfl⟩ := ofNames_eq_ok_iff.1 h
  clear h
  induction hfs with
  | nil => simp [none]
  | @cons n g ns fs hn _ ih =>
    have one : (∃ g', Spells n g' ∧ g'.bits.testBit i = true) ↔ g.bits.testBit i = true := by
      constructor
      · rintro ⟨g', hg', bit⟩
        obtain rfl := Except.ok.inj ((named_eq_ok_iff.2 hn).symm.trans (named_eq_ok_iff.2 hg'))
        exact bit
      · exact fun bit => ⟨g, hn, bit⟩
    rw [List.exists_mem_cons_iff, one, ← ih, List.foldr_cons, union, Nat.testBit_or,
      Bool.or_eq_true]

/-- The same names have the same flags, in whatever order and however often they occur. -/
theorem ofNames_congr {names' : List String} (same : ∀ n, n ∈ names ↔ n ∈ names') :
    ofNames names = .ok f ↔ ofNames names' = .ok f := by
  have one {names names' : List String} (same : ∀ n, n ∈ names ↔ n ∈ names')
      (h : ofNames names = .ok f) : ofNames names' = .ok f := by
    cases h' : ofNames names' with
    | error e =>
      obtain ⟨n, hn, none⟩ := ofNames_eq_error_iff.1 ⟨e, h'⟩
      obtain ⟨e', he'⟩ := ofNames_eq_error_iff.2 ⟨n, (same n).2 hn, none⟩
      cases h.symm.trans he'
    | ok f' =>
      have bits : f'.bits = f.bits := Nat.eq_of_testBit_eq fun i => by
        rw [Bool.eq_iff_iff, testBit_ofNames h', testBit_ofNames h]
        simp only [same]
      exact congrArg (Except.ok ∘ Flags.mk) bits
  exact ⟨one same, one fun n => (same n).symm⟩

theorem ofNames_append (names names' : List String) : ofNames (names ++ names') = do
    let f ← ofNames names
    return f.union (← ofNames names') := by
  induction names with
  | nil =>
    rw [List.nil_append]
    cases ofNames names' with
    | error e => rfl
    | ok g => simp [ofNames, union, none, bind, Except.bind, pure, Except.pure]
  | cons n ns ih =>
    rw [List.cons_append, ofNames, ofNames, ih]
    cases named n with
    | error e => rfl
    | ok f =>
      cases ofNames ns with
      | error e => rfl
      | ok g =>
        cases ofNames names' with
        | error e => rfl
        | ok h => simp [union, bind, Except.bind, pure, Except.pure, Nat.or_assoc]

/-! ### Names in one text -/

theorem mem_worded {cs : List Char} (h : c ∈ cs) : c ∈ worded cs := by
  cases cs with
  | nil => simp at h
  | cons d cs =>
    rcases List.mem_cons.1 h with rfl | h
    · exact List.mem_cons_self
    · refine List.mem_cons_of_mem _ (List.mem_flatMap.2 ⟨c, h, ?_⟩)
      split <;> simp

/-- The spelling of a name holds all its characters that are in upper case. -/
theorem mem_spelling (h : c ∈ name.toList) (same : upperChar c = [c]) :
    c ∈ (spelling name).toList := by
  unfold spelling
  split
  · exact h
  · rw [upper, String.toList_ofList, String.toList_ofList, List.mem_flatMap]
    exact ⟨c, mem_worded h, by simp [same]⟩

/-- Accepted names are not empty and hold neither commas nor blanks. -/
theorem proper_of_named (h : named name = .ok f) :
    name ≠ "" ∧ ',' ∉ name.toList ∧ ∀ c ∈ name.toList, isBlank c = false := by
  have letters : ∀ p ∈ Flags.names, ∀ c ∈ p.1.toList, c ≠ ',' ∧ isBlank c = false := by
    have all : (Flags.names.all fun p =>
        p.1.toList.all fun c => !(c == ',') && !isBlank c) = true := by decide
    simpa using all
  obtain ⟨p, hp, spelled⟩ : ∃ p ∈ Flags.names, p.1 = spelling name := by
    unfold named named? at h
    split at h
    next g found => exact ⟨_, Json.mem_of_lookup found, rfl⟩
    next => cases h
  have kept (c : Char) (hc : c ∈ name.toList) (same : upperChar c = [c]) :
      c ≠ ',' ∧ isBlank c = false := letters p hp c (spelled ▸ mem_spelling hc same)
  refine ⟨?_, fun comma => ?_, fun c hc => ?_⟩
  · rintro rfl
    cases h
  · exact (kept ',' comma (by decide)).1 rfl
  · refine Bool.eq_false_iff.2 fun blank => ?_
    have other := (kept c hc (upperChar_of_isBlank blank)).2
    exact Bool.false_ne_true (other.symm.trans blank)

theorem named_of_ofNames (h : ofNames names = .ok f) : ∀ n ∈ names, ∃ g, named n = .ok g := by
  induction names generalizing f with
  | nil => simp
  | cons n ns ih =>
    obtain ⟨g, hg, h⟩ := bind_eq_ok_iff.1 h
    obtain ⟨g', hg', -⟩ := bind_eq_ok_iff.1 h
    exact List.forall_mem_cons.2 ⟨⟨g, hg⟩, ih hg'⟩

/-- The flags of accepted names are read from the text of these names. -/
theorem ofRecord_intercalate (h : ofNames names = .ok f) :
    ofRecord (.string (",".intercalate names)) = ofNames names := by
  suffices listed (",".intercalate names) = names by rw [ofRecord, this]
  cases names with
  | nil => decide
  | cons n ns =>
    have proper : ∀ s ∈ n :: ns, s ≠ "" ∧ ',' ∉ s.toList ∧ ∀ c ∈ s.toList, isBlank c = false := by
      intro s hs
      obtain ⟨g, hg⟩ := named_of_ofNames h s hs
      exact proper_of_named hg
    have pieces : split ',' (",".intercalate (n :: ns)) = n :: ns :=
      split_intercalate (List.cons_ne_nil n ns) fun s hs => (proper s hs).2.1
    have trimmed : (n :: ns).map trim = n :: ns :=
      (List.map_congr_left fun s hs => trim_of_not_blank (proper s hs).2.2).trans (List.map_id _)
    rw [listed, pieces, trimmed, List.filter_eq_self]
    intro s hs
    simp [(proper s hs).1]

end Flags

end PropertyMetadata
