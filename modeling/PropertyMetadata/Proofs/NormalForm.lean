import Mathlib.Logic.Function.Iterate
import PropertyMetadata.Proofs.Depth
import PropertyMetadata.Proofs.Reasons

/-! The form of resolutions. A resolution goes from type to type: from an array or a wrapper to its
first type argument, from the union of an optional property to its last member that is not
undefined, and from the union of an optional enum to the enum. Where it stops, a type is built in, a
class, an object, or has no descriptor. The result is what is said there, in as many brackets as
there were arrays on the way; a reason is passed on as it is.

One kind of step is out of this form. A union of two undefined types counts as one of an optional
property, but has no member to go on with, and what is resolved then is no type. -/

namespace PropertyMetadata

/-! ### Brackets -/

/-- A text in so many brackets; what stands in none is left as it is. -/
def enclosed : Nat → Json → Json
  | 0, x => x
  | k + 1, x => .string (String.ofList
      (List.replicate (k + 1) '[' ++ x.text.toList ++ List.replicate (k + 1) ']'))

theorem enclosed_succ (k : Nat) (x : Json) : enclosed (k + 1) x =
    .string ("[" ++ (enclosed k x).text ++ "]") := by
  have inner : (enclosed k x).text.toList =
      List.replicate k '[' ++ x.text.toList ++ List.replicate k ']' := by
    cases k with
    | zero => simp [enclosed]
    | succ k => simp [enclosed]
  have outer : ("[" ++ (enclosed k x).text ++ "]").toList =
      List.replicate (k + 1) '[' ++ x.text.toList ++ List.replicate (k + 1) ']' := by
    rw [String.toList_append, String.toList_append, inner, List.replicate_succ,
      List.replicate_succ']
    simp
  rw [enclosed, ← outer, String.ofList_toList]

namespace Descriptor

theorem text_iterate_bracketed (k : Nat) (d : Descriptor) :
    (bracketed^[k] d).text = enclosed k d.text := by
  induction k with
  | zero => rfl
  | succ k ih => rw [Function.iterate_succ_apply', enclosed_succ, ← ih, bracketed, ofString]

theorem inBrackets_brackets (s : String) : inBrackets ("[" ++ s ++ "]") = true := by
  have written : ("[" ++ s ++ "]").toList = ('[' :: s.toList) ++ [']'] := by simp
  rw [inBrackets, written, List.getLast?_concat]
  rfl

/-- A text without brackets of its own is one of an array if it was put in brackets. -/
theorem isArray?_enclosed {d : Descriptor} {k : Nat} {s : String}
    (hd : d.text = enclosed k (.string s)) (hs : inBrackets s = false) :
    d.isArray? = some (decide (0 < k)) := by
  cases k with
  | zero =>
    rw [isArray?, hd]
    exact congrArg some hs
  | succ k =>
    rw [enclosed_succ] at hd
    rw [isArray?, hd]
    exact congrArg some (inBrackets_brackets _)

end Descriptor

namespace Resolution

theorem iterate_bracketed_descriptor (k : Nat) (d : Descriptor) :
    bracketed^[k] (.descriptor d) = .descriptor (Descriptor.bracketed^[k] d) := by
  induction k with
  | zero => rfl
  | succ k ih => rw [Function.iterate_succ_apply', ih, Function.iterate_succ_apply', bracketed]

theorem iterate_bracketed_unresolved (k : Nat) (reason : String) :
    bracketed^[k] (.unresolved reason) = .unresolved reason :=
  Function.iterate_fixed rfl k

end Resolution

namespace Checker

variable {Handle : Type} {c : Checker Handle} {t u v : Handle} {k l m n : Nat} {x : Json}
  {r : Resolution} {depth : Option Int} {size : Nat}

/-! ### Steps -/

/-- A type is the first type argument of another one. -/
def FirstArgument (c : Checker Handle) (t u : Handle) : Prop :=
  ∃ us, c.typeArguments t = .ok (u :: us)

/-- A type is the last member of another one that is not undefined. -/
def LastDefined (c : Checker Handle) (t u : Handle) : Prop :=
  ∃ before behind, c.members t = .ok (before ++ u :: behind) ∧ c.is .undefined u = .ok false ∧
    ∀ v ∈ behind, c.is .undefined v = .ok true

/-- A type that is no array has the answer of another one: as a wrapper that of its first type
argument, as the union of an optional property that of its last member that is not undefined, and as
the union of an optional enum that of the enum. -/
inductive Link (c : Checker Handle) (t u : Handle) : Prop
  | argument {x : Json} : c.text t = .ok x → marksWrapper x = .ok true → c.FirstArgument t u →
    Link c t u
  | member : c.isOptionalUnion t = .ok true → c.LastDefined t u → Link c t u
  | enum : c.isOptionalUnion t = .ok false → c.enumUnion? t = .ok (some u) → Link c t u

/-- A union counts as one of an optional property, but all of its members are undefined. -/
structure Hollow (c : Checker Handle) (t : Handle) : Prop where
  text : ∃ x, c.text t = .ok x ∧ marksWrapper x = .ok false
  optional : c.isOptionalUnion t = .ok true
  members : ∃ ts, c.members t = .ok ts ∧ ∀ u ∈ ts, c.is .undefined u = .ok true

/-- The descriptors without brackets: those of fixed names, and the text of a class that has no mark
of a wrapper. -/
def IsBase (c : Checker Handle) (t : Handle) (d : Descriptor) : Prop :=
  d ∈ [Descriptor.boolean, .number, .string, .date, .object] ∨
    c.is .classType t = .ok true ∧ c.text t = .ok d.text ∧ marksWrapper d.text = .ok false

/-- What a step tells of a type. -/
def Explains (c : Checker Handle) (t : Handle) : Step Handle → Prop
  | .answer (.descriptor d) => c.IsBase t d
  | .answer (.unresolved _) => True
  | .element u => c.is .array t = .ok true ∧ c.FirstArgument t u
  | .through u => c.Link t u ∨ c.Hollow t ∧ u = c.absent

theorem explains_object (c : Checker Handle) (t : Handle) :
    c.Explains t (.answer (.descriptor .object)) := .inl (by simp)

theorem fallback_explained (c : Checker Handle) (t : Handle) (text : Json) :
    Yields (c.fallback t text) fun r => c.Explains t (.answer r) := by
  have object : Yields (.ok (.descriptor .object)) fun r => c.Explains t (.answer r) :=
    .ok (c.explains_object t)
  refine .branch object (.branch object (.bind fun b _ => ?_))
  refine .branch object (.branch (.ok trivial) (.bind fun a _ => ?_))
  split
  · exact object
  · exact .ok trivial

theorem firstDefined_cases {ts : List Handle} {o : Option Handle} (h : c.firstDefined ts = .ok o) :
    match o with
    | some u => ∃ before behind, ts = before ++ u :: behind ∧ c.is .undefined u = .ok false ∧
      ∀ v ∈ before, c.is .undefined v = .ok true
    | none => ∀ v ∈ ts, c.is .undefined v = .ok true := by
  induction ts with
  | nil =>
    obtain rfl := Except.ok.inj h
    exact List.forall_mem_nil _
  | cons t ts ih =>
    obtain ⟨b, hb, h⟩ := bind_eq_ok_iff.1 h
    cases b with
    | false =>
      obtain rfl := Except.ok.inj h
      exact ⟨[], ts, rfl, hb, List.forall_mem_nil _⟩
    | true =>
      have rest := ih h
      cases o with
      | some u =>
        obtain ⟨before, behind, rfl, hu, all⟩ := rest
        exact ⟨t :: before, behind, rfl, hu, List.forall_mem_cons.2 ⟨hb, all⟩⟩
      | none => exact List.forall_mem_cons.2 ⟨hb, rest⟩

theorem lastDefinedMember_cases {o : Option Handle} (h : c.lastDefinedMember t = .ok o) :
    match o with
    | some u => c.LastDefined t u
    | none => ∃ ts, c.members t = .ok ts ∧ ∀ v ∈ ts, c.is .undefined v = .ok true := by
  obtain ⟨ts, hts, found⟩ := bind_eq_ok_iff.1 h
  have cases := firstDefined_cases found
  cases o with
  | some u =>
    obtain ⟨before, behind, reversed, hu, all⟩ := cases
    refine ⟨behind.reverse, before.reverse, ?_, hu, fun v hv => all v (List.mem_reverse.1 hv)⟩
    rw [hts, ← List.reverse_reverse ts, reversed]
    simp
  | none => exact ⟨ts, hts, fun v hv => cases v (List.mem_reverse.2 hv)⟩

theorem stepUnion_explained (hx : c.text t = .ok x) (hm : marksWrapper x = .ok false) :
    Yields (c.stepUnion t x) (c.Explains t) := by
  refine .question (fun b optional hb => ?_) (fun b plain hb => ?_)
  · subst hb
    refine .bind fun o found => .ok ?_
    have cases := lastDefinedMember_cases found
    cases o with
    | some u => exact .inl (.member optional cases)
    | none => exact .inr ⟨⟨⟨x, hx, hm⟩, optional, cases⟩, rfl⟩
  · subst hb
    refine .bind fun o enum => ?_
    cases o with
    | some e => exact .ok (.inl (.enum plain enum))
    | none => exact .bind fun r hr => .ok (fallback_explained c t x r hr)

theorem stepRendered_explained (hx : c.text t = .ok x) :
    Yields (c.stepRendered t x) (c.Explains t) := by
  refine .question (fun b marked hb => ?_) (fun b unmarked hb => ?_)
  · subst hb
    refine .bind fun args hargs => ?_
    cases args with
    | nil => exact .ok trivial
    | cons u us => exact .ok (.inl (.argument hx marked ⟨us, hargs⟩))
  · subst hb
    refine .question (fun b hb isClass => ?_) (fun _ _ _ => ?_)
    · subst isClass
      exact .ok (.inr ⟨hb, hx, unmarked⟩)
    · split
      · exact .ok (.inl (by simp))
      · exact stepUnion_explained hx unmarked

/-- Every step is explained by what the checker says of the type. -/
theorem step_explained (c : Checker Handle) (t : Handle) :
    Yields (c.step t) (c.Explains t) := by
  have fixed {d : Descriptor} (hd : d ∈ [Descriptor.boolean, .number, .string]) :
      Yields (.ok (.answer (.descriptor d))) (c.Explains t) :=
    .ok (.inl (List.mem_append_left [Descriptor.date, .object] hd))
  refine .question (fun b array hb => ?_) (fun _ _ _ => ?_)
  · subst hb
    refine .bind fun args hargs => ?_
    cases args with
    | nil => exact .ok trivial
    | cons u us => exact .ok ⟨array, us, hargs⟩
  · refine .branch (fixed (by simp)) (.branch (fixed (by simp)) (.branch (fixed (by simp)) ?_))
    refine .bind fun r hr => ?_
    cases r with
    | unresolved reason => exact .ok trivial
    | descriptor d =>
      have text : c.text t = .ok d.text := by
        unfold render at hr
        split at hr
        · next x hx =>
          cases hr
          exact hx
        · cases hr
        · cases hr
      exact stepRendered_explained text

/-! ### Trails -/

/-- The types that a resolution goes along, with the number of arrays among those that it goes on
from, and the number of all of them. -/
inductive Trail (c : Checker Handle) : Nat → Nat → Handle → Handle → Prop
  | here (t : Handle) : Trail c 0 0 t t
  | array {k m : Nat} {t u v : Handle} : c.step t = .ok (.element u) → c.is .array t = .ok true →
    c.FirstArgument t u → Trail c k m u v → Trail c (k + 1) (m + 1) t v
  | link {k m : Nat} {t u v : Handle} : c.step t = .ok (.through u) → c.Link t u →
    Trail c k m u v → Trail c k (m + 1) t v

/-- A hollow union that the resolution goes on from all the same. -/
def Loses (c : Checker Handle) (t : Handle) : Prop :=
  c.Hollow t ∧ c.step t = .ok (.through c.absent)

/-- A trail gets to a hollow union, where the bound leaves room to go on. -/
def GoesAstray (c : Checker Handle) (depth : Option Int) (t : Handle) : Prop :=
  ∃ k m u, c.Trail k m t u ∧ c.Loses u ∧ ∀ n ∈ depth, (m : Int) ≤ n

/-- What is said of a type by itself when it stands so many types below the first one. -/
def Says (c : Checker Handle) (depth : Option Int) (m : Nat) (t : Handle) (r : Resolution) : Prop :=
  (∀ n ∈ depth, (m : Int) ≤ n) ∧ c.step t = .ok (.answer r) ∨
    (∃ n ∈ depth, n < (m : Int)) ∧ r = tooDeep

/-- The form of resolutions: a base in as many brackets as there are arrays on the trail to it, or
the reason that is given at the end of the trail. -/
inductive NormalForm (c : Checker Handle) (depth : Option Int) (t : Handle) : Resolution → Prop
  | descriptor {k m : Nat} {u : Handle} {base d : Descriptor} : c.Trail k m t u →
    c.Says depth m u (.descriptor base) → c.IsBase u base → d.text = enclosed k base.text →
    (∀ s, base.text = .string s → Descriptor.inBrackets s = false →
      d.isArray? = some (decide (0 < k))) →
    NormalForm c depth t (.descriptor d)
  | unresolved {k m : Nat} {u : Handle} {reason : String} : c.Trail k m t u →
    c.Says depth m u (.unresolved reason) → NormalForm c depth t (.unresolved reason)

namespace Trail

/-- Of two trails from one type, the longer one goes on from the end of the other. -/
theorem rest {k k' m' : Nat} (h : c.Trail k m t u) (h' : c.Trail k' m' t v) (hm : m ≤ m') :
    ∃ l, c.Trail l (m' - m) u v := by
  induction h generalizing k' m' with
  | here => exact ⟨k', h'⟩
  | array hs _ _ _ ih =>
    cases h' with
    | here => omega
    | array hs' _ _ rest =>
      cases hs.symm.trans hs'
      obtain ⟨l, more⟩ := ih rest (by omega)
      exact ⟨l, by simpa using more⟩
    | link hs' => cases hs.symm.trans hs'
  | link hs _ _ ih =>
    cases h' with
    | here => omega
    | array hs' => cases hs.symm.trans hs'
    | link hs' _ rest =>
      cases hs.symm.trans hs'
      obtain ⟨l, more⟩ := ih rest (by omega)
      exact ⟨l, by simpa using more⟩

theorem length_eq_zero_of_answer (h : c.Trail k m t u) (hs : c.step t = .ok (.answer r)) :
    m = 0 := by
  cases h with
  | here => rfl
  | array hs' => cases hs.symm.trans hs'
  | link hs' => cases hs.symm.trans hs'

/-- No trail goes on from a hollow union: it has no member to go on with, and is neither a wrapper
nor a union of another kind. -/
theorem length_eq_zero_of_loses (h : c.Trail k m t u) (ht : c.Loses t) : m = 0 := by
  obtain ⟨⟨⟨x, hx, unmarked⟩, optional, ts, hts, all⟩, hs⟩ := ht
  cases h with
  | here => rfl
  | array hs' => cases hs.symm.trans hs'
  | link _ link =>
    cases link with
    | argument hx' marked =>
      cases hx.symm.trans hx'
      cases unmarked.symm.trans marked
    | member _ last =>
      obtain ⟨before, behind, hmem, defined, -⟩ := last
      cases hts.symm.trans hmem
      cases (all _ (by simp)).symm.trans defined
    | enum plain => cases optional.symm.trans plain

end Trail

/-- A resolution without a bound that comes to a result has a trail to where the result is from. -/
theorem Ends.exists_trail (h : c.Ends t m (.ok r)) :
    (∃ k u a, c.Trail k m t u ∧ c.step u = .ok (.answer a) ∧ r = Resolution.bracketed^[k] a) ∨
      ∃ k l u, c.Trail k l t u ∧ c.Loses u ∧ l < m := by
  generalize ho : Except.ok r = o at h
  induction h generalizing r with
  | fault => cases ho
  | @answer t a hs =>
    obtain rfl := Except.ok.inj ho
    exact .inl ⟨0, t, r, .here t, hs, rfl⟩
  | @element t u m o hs _ ih =>
    obtain ⟨array, first⟩ := c.step_explained t _ hs
    cases o with
    | error e => cases ho
    | ok inner =>
      obtain rfl : r = inner.bracketed := Except.ok.inj ho
      rcases ih rfl with ⟨k, v, a, trail, answer, rfl⟩ | ⟨k, l, v, trail, loses, hl⟩
      · refine .inl ⟨k + 1, v, a, .array hs array first trail, answer, ?_⟩
        rw [Function.iterate_succ_apply']
      · exact .inr ⟨k + 1, l + 1, v, .array hs array first trail, loses, by omega⟩
  | @through t u m o hs _ ih =>
    rcases c.step_explained t _ hs with link | ⟨hollow, rfl⟩
    · rcases ih ho with ⟨k, v, a, trail, answer, hr⟩ | ⟨k, l, v, trail, loses, hl⟩
      · exact .inl ⟨k, v, a, .link hs link trail, answer, hr⟩
      · exact .inr ⟨k, l + 1, v, .link hs link trail, loses, by omega⟩
    · exact .inr ⟨0, 0, t, .here t, ⟨hollow, hs⟩, by omega⟩

/-- A resolution that is not at an end after looking at `n` types has a trail of `n` types. -/
theorem exists_trail_of_run (h : c.run n t = none) :
    (∃ k u, c.Trail k n t u) ∨ ∃ k l u, c.Trail k l t u ∧ c.Loses u ∧ l < n := by
  induction n generalizing t with
  | zero => exact .inl ⟨0, t, .here t⟩
  | succ n ih =>
    simp only [run] at h
    split at h
    · cases h
    · cases h
    · next u hs =>
      obtain ⟨array, first⟩ := c.step_explained t _ hs
      rcases ih (Option.map_eq_none_iff.1 h) with ⟨k, v, trail⟩ | ⟨k, l, v, trail, loses, hl⟩
      · exact .inl ⟨k + 1, v, .array hs array first trail⟩
      · exact .inr ⟨k + 1, l + 1, v, .array hs array first trail, loses, by omega⟩
    · next u hs =>
      rcases c.step_explained t _ hs with link | ⟨hollow, rfl⟩
      · rcases ih h with ⟨k, v, trail⟩ | ⟨k, l, v, trail, loses, hl⟩
        · exact .inl ⟨k, v, .link hs link trail⟩
        · exact .inr ⟨k, l + 1, v, .link hs link trail, loses, by omega⟩
      · exact .inr ⟨0, 0, t, .here t, ⟨hollow, hs⟩, by omega⟩

/-! ### Results -/

/-- What is said at the end of a trail, in brackets, is of the form of resolutions. -/
theorem normalForm_of_trail {a : Resolution} (trail : c.Trail k m t u) (said : c.Says depth m u a)
    (hr : r = Resolution.bracketed^[k] a) : c.NormalForm depth t r := by
  subst hr
  cases a with
  | unresolved reason =>
    rw [Resolution.iterate_bracketed_unresolved]
    exact .unresolved trail said
  | descriptor base =>
    have answer : c.step u = .ok (.answer (.descriptor base)) := by
      rcases said with ⟨-, answer⟩ | ⟨-, deep⟩
      · exact answer
      · cases deep
    rw [Resolution.iterate_bracketed_descriptor]
    have text := Descriptor.text_iterate_bracketed k base
    refine .descriptor trail said (c.step_explained u _ answer) text fun s hb hs => ?_
    rw [hb] at text
    exact Descriptor.isArray?_enclosed text hs

/-- A resolution of this form does not go astray. -/
theorem NormalForm.not_goesAstray (h : c.NormalForm depth t r) : ¬ c.GoesAstray depth t := by
  rintro ⟨k', m', v, astray, loses, room⟩
  obtain ⟨k, m, u, a, trail, said⟩ : ∃ k m u a, c.Trail k m t u ∧ c.Says depth m u a := by
    cases h with
    | descriptor trail said => exact ⟨_, _, _, _, trail, said⟩
    | unresolved trail said => exact ⟨_, _, _, _, trail, said⟩
  rcases Nat.le_total m m' with hle | hle
  · obtain ⟨l, rest⟩ := trail.rest astray hle
    rcases said with ⟨-, answer⟩ | ⟨⟨n, hn, deep⟩, -⟩
    · -- the trail that is lost does not go on from where there is an answer
      have lost : c.step v = .ok (.answer a) := by
        have hzero := rest.length_eq_zero_of_answer answer
        rw [hzero] at rest
        cases rest
        exact answer
      cases loses.2.symm.trans lost
    · have := room n hn
      omega
  · obtain ⟨l, rest⟩ := astray.rest trail hle
    have hzero := rest.length_eq_zero_of_loses loses
    rw [hzero] at rest
    cases rest
    rcases said with ⟨-, answer⟩ | ⟨⟨n, hn, deep⟩, -⟩
    · cases loses.2.symm.trans answer
    · have := room n hn
      omega

/-- Every result has the form of resolutions, unless the resolution goes astray. -/
theorem resolve_normalForm (h : c.resolve size depth t = .ok r) :
    c.NormalForm depth t r ↔ ¬ c.GoesAstray depth t := by
  refine ⟨NormalForm.not_goesAstray, fun straight => ?_⟩
  cases depth with
  | none =>
    obtain ⟨m, ends⟩ := exists_ends_of_resolve_none h
    rcases ends.exists_trail with ⟨k, u, a, trail, answer, hr⟩ | ⟨k, l, u, trail, loses, -⟩
    · exact normalForm_of_trail trail (.inl ⟨by simp, answer⟩) hr
    · exact absurd ⟨k, l, u, trail, loses, by simp⟩ straight
  | some limit =>
    rw [resolve_some_eq_run] at h
    cases hrun : c.run (limit + 1).toNat t with
    | none =>
      rw [hrun] at h
      obtain rfl : tooDeep = r := Except.ok.inj h
      rcases exists_trail_of_run hrun with ⟨k, u, trail⟩ | ⟨k, l, u, trail, loses, hl⟩
      · have deep : limit < ((limit + 1).toNat : Int) := by omega
        exact normalForm_of_trail trail (.inr ⟨⟨limit, rfl, deep⟩, rfl⟩)
          (Resolution.iterate_bracketed_unresolved k _).symm
      · exact absurd ⟨k, l, u, trail, loses, by simp; omega⟩ straight
    | some o =>
      rw [hrun] at h
      obtain rfl : o = .ok r := h
      obtain ⟨m, hm, ends⟩ := run_eq_some_iff.1 hrun
      rcases ends.exists_trail with ⟨k, u, a, trail, answer, hr⟩ | ⟨k, l, u, trail, loses, hl⟩
      · exact normalForm_of_trail trail (.inl ⟨by simp; omega, answer⟩) hr
      · exact absurd ⟨k, l, u, trail, loses, by simp; omega⟩ straight

theorem not_hollow_promises (u : Json) : ¬ promises.checker.Hollow u := by
  intro hollow
  have plain : promises.checker.is .unionOrIntersection u = .ok false := by
    cases u with
    | string s =>
      by_cases hl : s = "list"
      · subst hl
        rfl
      by_cases hp : s = "promise"
      · subst hp
        rfl
      by_cases ht : s = "text"
      · subst ht
        rfl
      simp [promises, Table.checker, Table.type, Json.lookup, Ne.symm hl, Ne.symm hp, Ne.symm ht]
    | _ => rfl
  have optional : (.ok false : Except Fault Bool) = .ok true := by
    have unfolded := hollow.optional
    rwa [isOptionalUnion, unionMembers, plain] at unfolded
  cases optional

/-- The list is the array of what it comes to over a promise. -/
theorem normalForm_promises :
    promises.checker.resolve 3 none (.string "list") =
      .ok (.descriptor Descriptor.string.bracketed) ∧
    ¬ promises.checker.GoesAstray none (.string "list") ∧
    promises.checker.NormalForm none (.string "list")
      (.descriptor Descriptor.string.bracketed) := by
  have found : promises.checker.resolve 3 none (.string "list") =
      .ok (.descriptor Descriptor.string.bracketed) := by rfl
  have straight : ¬ promises.checker.GoesAstray none (.string "list") := by
    rintro ⟨_, _, u, _, loses, _⟩
    exact not_hollow_promises u loses.1
  exact ⟨found, straight, (resolve_normalForm found).2 straight⟩

/-- A table of the union of two names for `undefined`. -/
def namesOfNothing : Table where
  types := [
    ("nothing", { shapes := [.unionOrIntersection], text := .string "Missing | Absent"
                  members := some [.string "missing", .string "absent"] }),
    ("missing", { shapes := [.undefined], text := .string "Missing" }),
    ("absent", { shapes := [.undefined], text := .string "Absent" })]
  symbols := []

/-- The result for the union is the one for no type, and not of the form of resolutions. -/
theorem resolve_namesOfNothing :
    namesOfNothing.checker.resolve 3 none (.string "nothing") =
      .ok (.unresolved "render failed: no text for None") ∧
    ¬ namesOfNothing.checker.NormalForm none (.string "nothing")
      (.unresolved "render failed: no text for None") := by
  refine ⟨by rfl, fun form => form.not_goesAstray ?_⟩
  have members : namesOfNothing.checker.members (.string "nothing") =
      .ok [.string "missing", .string "absent"] := by rfl
  have hollow : namesOfNothing.checker.Hollow (.string "nothing") := by
    refine ⟨⟨_, rfl, by rfl⟩, by rfl, _, members, ?_⟩
    exact List.forall_mem_cons.2 ⟨by rfl, List.forall_mem_singleton.2 (by rfl)⟩
  exact ⟨0, 0, _, .here _, ⟨hollow, by rfl⟩, by simp⟩

end Checker

end PropertyMetadata
