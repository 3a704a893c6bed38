import Mathlib.Data.List.Basic
import PropertyMetadata.Proofs.Depth

/-! The members of a union in any order. Where the undefined members of a union are one type, it
does not matter where among the members this type stands, and the enum that the other members have
in common does not depend on their order. So a type comes to the same whatever the order of its
members is. -/

namespace PropertyMetadata.Checker

variable {Handle : Type} {c : Checker Handle} {ts ts' before behind : List Handle}
  {t u e : Handle}

/-- A checker can say of types whether they are undefined, and what enums they are members of; it
knows these enums by their handles. -/
structure Settled (c : Checker Handle) (ts : List Handle) : Prop where
  undefined : ∀ t ∈ ts, ∃ b, c.is .undefined t = .ok b
  enum : ∀ t ∈ ts, c.enumOfMember t = .ok none ∨
    ∃ e, c.enumOfMember t = .ok (some (some e)) ∧ ∀ d, c.same d e = true ↔ d = e

theorem Settled.of_subset (h : c.Settled ts) (hs : ts' ⊆ ts) : c.Settled ts' :=
  ⟨fun t ht => h.undefined t (hs ht), fun t ht => h.enum t (hs ht)⟩

/-- The undefined ones among some types are one type. -/
def OneUndefined (c : Checker Handle) (ts : List Handle) : Prop :=
  ∀ t ∈ ts, ∀ u ∈ ts, c.is .undefined t = .ok true → c.is .undefined u = .ok true → t = u

/-! ### Lists of types -/

section Congr

variable {c' : Checker Handle}

theorem splitUndefined_congr (h : c'.is = c.is) (ts : List Handle) :
    c'.splitUndefined ts = c.splitUndefined ts := by
  induction ts with
  | nil => rfl
  | cons t ts ih => simp only [splitUndefined, h, ih]

theorem firstDefined_congr (h : c'.is = c.is) (ts : List Handle) :
    c'.firstDefined ts = c.firstDefined ts := by
  induction ts with
  | nil => rfl
  | cons t ts ih => simp only [firstDefined, h, ih]

theorem commonEnum_congr (h : c'.enumOfMember = c.enumOfMember) (hs : c'.same = c.same)
    (before : Option Handle) (ts : List Handle) :
    c'.commonEnum before ts = c.commonEnum before ts := by
  induction ts generalizing before with
  | nil => rfl
  | cons t ts ih => simp only [commonEnum, h, hs, ih]

end Congr

/-! ### Setting an undefined type aside -/

theorem splitUndefined_eq_none (h : ∀ t ∈ ts, c.is .undefined t = .ok false) :
    c.splitUndefined ts = .ok none := by
  induction ts with
  | nil => rfl
  | cons t ts ih =>
    simp only [splitUndefined, h t List.mem_cons_self, bind, Except.bind]
    rw [ih fun u hu => h u (List.mem_cons_of_mem _ hu)]
    rfl

theorem splitUndefined_eq_some (hb : ∀ t ∈ before, c.is .undefined t = .ok false)
    (hu : c.is .undefined u = .ok true) :
    c.splitUndefined (before ++ u :: behind) = .ok (some (before, behind)) := by
  induction before with
  | nil => simp [splitUndefined, hu, bind, Except.bind, pure, Except.pure]
  | cons t before ih =>
    simp only [List.cons_append, splitUndefined, hb t List.mem_cons_self, bind, Except.bind]
    rw [ih fun v hv => hb v (List.mem_cons_of_mem _ hv)]
    rfl

theorem undefined_cases (h : ∀ t ∈ ts, ∃ b, c.is .undefined t = .ok b) :
    (∀ t ∈ ts, c.is .undefined t = .ok false) ∨
      ∃ before u behind, ts = before ++ u :: behind ∧
        (∀ t ∈ before, c.is .undefined t = .ok false) ∧ c.is .undefined u = .ok true := by
  induction ts with
  | nil => exact .inl (by simp)
  | cons t ts ih =>
    obtain ⟨⟨b, hb⟩, rest⟩ := List.forall_mem_cons.1 h
    cases b with
    | true => exact .inr ⟨[], t, ts, rfl, by simp, hb⟩
    | false =>
      rcases ih rest with none | ⟨before, u, behind, rfl, hbs, hu⟩
      · exact .inl (List.forall_mem_cons.2 ⟨hb, none⟩)
      · exact .inr ⟨t :: before, u, behind, rfl, List.forall_mem_cons.2 ⟨hb, hbs⟩, hu⟩

/-- Setting an undefined type aside leaves the same types in some order. -/
theorem Settled.splitUndefined_perm (h : c.Settled ts) (ho : c.OneUndefined ts)
    (hp : ts'.Perm ts) :
    (c.splitUndefined ts = .ok none ∧ c.splitUndefined ts' = .ok none) ∨
      ∃ before behind before' behind', c.splitUndefined ts = .ok (some (before, behind)) ∧
        c.splitUndefined ts' = .ok (some (before', behind')) ∧
        (before' ++ behind').Perm (before ++ behind) ∧ before ++ behind ⊆ ts := by
  rcases undefined_cases h.undefined with none | ⟨before, u, behind, rfl, hb, hu⟩
  · exact .inl ⟨splitUndefined_eq_none none,
      splitUndefined_eq_none fun t ht => none t (hp.subset ht)⟩
  · have mem : u ∈ before ++ u :: behind := by simp
    rcases undefined_cases (h.of_subset hp.subset).undefined with
      none | ⟨before', u', behind', rfl, hb', hu'⟩
    · cases (none u (hp.symm.subset mem)).symm.trans hu
    · obtain rfl := ho u' (hp.subset (by simp)) u mem hu' hu
      refine .inr ⟨before, behind, before', behind', splitUndefined_eq_some hb hu,
        splitUndefined_eq_some hb' hu', ?_, by simp⟩
      exact (List.perm_middle.symm.trans (hp.trans List.perm_middle)).cons_inv

/-! ### The common enum -/

section Keyed

variable {α : Type} {key : Handle → α} {known : Handle → Prop}

/-- A key tells the enums apart that some types are members of, as far as they are members of
any. -/
structure Keyed (c : Checker Handle) (key : Handle → α) (known : Handle → Prop)
    (ts : List Handle) : Prop where
  tells : ∀ d e, known d → known e → (c.same d e = true ↔ key d = key e)
  enum : ∀ t ∈ ts, c.enumOfMember t = .ok none ∨
    ∃ e, c.enumOfMember t = .ok (some (some e)) ∧ known e

/-- All types are members of enums with one key. -/
def AllKeyed (c : Checker Handle) (key : Handle → α) (k : α) (ts : List Handle) : Prop :=
  ∀ t ∈ ts, ∃ e, c.enumOfMember t = .ok (some (some e)) ∧ key e = k

theorem AllKeyed.unique {k k' : α} (h : c.AllKeyed key k ts) (h' : c.AllKeyed key k' ts)
    (hne : ts ≠ []) : k = k' := by
  obtain ⟨t, ht⟩ := List.exists_mem_of_ne_nil ts hne
  obtain ⟨e, some, rfl⟩ := h t ht
  obtain ⟨e', some', rfl⟩ := h' t ht
  obtain rfl : e = e' := by simpa using some.symm.trans some'
  rfl

theorem Keyed.tail (h : c.Keyed key known (t :: ts)) : c.Keyed key known ts :=
  ⟨h.tells, fun u hu => h.enum u (List.mem_cons_of_mem t hu)⟩

/-- Behind a type of a known enum, the search goes on with this enum, up to its key, until a type
is no member of it. -/
theorem Keyed.commonEnum_some (h : c.Keyed key known ts) (he : known e) :
    (∃ d, c.commonEnum (some e) ts = .ok (some d) ∧ known d ∧ key d = key e) ∧
        c.AllKeyed key (key e) ts ∨
      c.commonEnum (some e) ts = .ok none ∧ ¬ c.AllKeyed key (key e) ts := by
  induction ts generalizing e with
  | nil => exact .inl ⟨⟨e, rfl, he, rfl⟩, fun _ h => absurd h List.not_mem_nil⟩
  | cons t ts ih =>
    rcases h.enum t List.mem_cons_self with none | ⟨d, some, hd⟩
    · refine .inr ⟨by simp [commonEnum, none, bind, Except.bind, pure, Except.pure], fun all => ?_⟩
      obtain ⟨d, some, -⟩ := all t List.mem_cons_self
      cases none.symm.trans some
    · by_cases same : key d = key e
      · have next : c.commonEnum (Option.some e) (t :: ts) = c.commonEnum (Option.some d) ts := by
          simp [commonEnum, some, (h.tells d e hd he).2 same, bind, Except.bind]
        rw [next, ← same]
        refine (ih h.tail hd).imp (And.imp_right fun all => ?_) (And.imp_right fun no all => no ?_)
        · exact List.forall_mem_cons.2 ⟨⟨d, some, rfl⟩, all⟩
        · exact (List.forall_mem_cons.1 all).2
      · have other : c.same d e = false := Bool.eq_false_iff.2 fun hs =>
          same ((h.tells d e hd he).1 hs)
        refine .inr ⟨by simp [commonEnum, some, other, bind, Except.bind, pure, Except.pure],
          fun all => same ?_⟩
        obtain ⟨d', some', hd'⟩ := all t List.mem_cons_self
        obtain rfl : d = d' := by simpa using some.symm.trans some'
        exact hd'

/-- The enum that is found is the one that all types are members of, up to its key. -/
theorem Keyed.commonEnum_none (h : c.Keyed key known ts) :
    (∃ e, c.commonEnum none ts = .ok (some e) ∧ known e ∧ ts ≠ [] ∧ c.AllKeyed key (key e) ts) ∨
      c.commonEnum none ts = .ok none ∧ ∀ k, ts ≠ [] → ¬ c.AllKeyed key k ts := by
  cases ts with
  | nil => exact .inr ⟨rfl, by simp⟩
  | cons t ts =>
    rcases h.enum t List.mem_cons_self with none | ⟨d, some, hd⟩
    · refine .inr ⟨by simp [commonEnum, none, bind, Except.bind, pure, Except.pure],
        fun k _ all => ?_⟩
      obtain ⟨d, some, -⟩ := all t List.mem_cons_self
      cases none.symm.trans some
    · have start : c.commonEnum none (t :: ts) = c.commonEnum (Option.some d) ts := by
        simp [commonEnum, some, bind, Except.bind]
      rw [start]
      rcases h.tail.commonEnum_some hd with ⟨⟨e, he, hk, same⟩, all⟩ | ⟨none, no⟩
      · rw [← same] at all
        exact .inl ⟨e, he, hk, List.cons_ne_nil t ts,
          List.forall_mem_cons.2 ⟨⟨d, some, same.symm⟩, all⟩⟩
      · refine .inr ⟨none, fun k _ all => no ?_⟩
        obtain ⟨⟨d', some', hd'⟩, rest⟩ := List.forall_mem_cons.1 all
        obtain rfl : d = d' := by simpa using some.symm.trans some'
        exact hd' ▸ rest

end Keyed

/-- All types are members of one enum. -/
def AllOf (c : Checker Handle) (e : Handle) (ts : List Handle) : Prop :=
  ∀ t ∈ ts, c.enumOfMember t = .ok (some (some e))

theorem allKeyed_id : c.AllKeyed id e ts ↔ c.AllOf e ts := by
  simp [AllKeyed, AllOf]

theorem Settled.keyed (h : c.Settled ts) :
    c.Keyed id (fun e => ∀ d, c.same d e = true ↔ d = e) ts :=
  ⟨fun d _ _ he => he d, h.enum⟩

/-- The enum that is found is the one that all types are members of. -/
theorem Settled.commonEnum_eq (h : c.Settled ts) :
    (∃ e, ts ≠ [] ∧ c.AllOf e ts ∧ c.commonEnum none ts = .ok (some e)) ∨
      ((∀ e, ts ≠ [] → ¬ c.AllOf e ts) ∧ c.commonEnum none ts = .ok none) := by
  rcases h.keyed.commonEnum_none with ⟨e, he, -, hne, all⟩ | ⟨none, no⟩
  · exact .inl ⟨e, hne, allKeyed_id.1 all, he⟩
  · exact .inr ⟨fun e hne all => no e hne (allKeyed_id.2 all), none⟩

theorem commonEnum_none_of_allOf (hs : ∀ d, c.same d e = true ↔ d = e) (hne : ts ≠ [])
    (h : c.AllOf e ts) : c.commonEnum none ts = .ok (some e) := by
  have keyed : c.Keyed id (fun e => ∀ d, c.same d e = true ↔ d = e) ts :=
    ⟨fun d _ _ he => he d, fun t ht => .inr ⟨e, h t ht, hs⟩⟩
  rcases keyed.commonEnum_none with ⟨d, hd, -, -, all⟩ | ⟨-, no⟩
  · obtain ⟨t, ht⟩ := List.exists_mem_of_ne_nil ts hne
    obtain rfl : d = e := by simpa using (allKeyed_id.1 all t ht).symm.trans (h t ht)
    exact hd
  · exact absurd (allKeyed_id.2 h) (no e hne)

theorem Settled.commonEnum_perm (h : c.Settled ts) (hp : ts'.Perm ts) :
    c.commonEnum none ts' = c.commonEnum none ts := by
  have all (e : Handle) : c.AllOf e ts' ↔ c.AllOf e ts :=
    ⟨fun h t ht => h t (hp.symm.subset ht), fun h t ht => h t (hp.subset ht)⟩
  have nonempty : ts' ≠ [] ↔ ts ≠ [] := by
    rw [← List.length_pos_iff, ← List.length_pos_iff, hp.length_eq]
  rcases h.commonEnum_eq with ⟨e, hne, hall, he⟩ | ⟨hno, he⟩ <;>
    rcases (h.of_subset hp.subset).commonEnum_eq with ⟨e', hne', hall', he'⟩ | ⟨hno', he'⟩
  · obtain ⟨t, ht⟩ := List.exists_mem_of_ne_nil ts hne
    have := (hall t ht).symm.trans ((all e').1 hall' t ht)
    simp only [Except.ok.injEq, Option.some.injEq] at this
    rw [he, he', this]
  · exact absurd ((all e).2 hall) (hno' e (nonempty.2 hne))
  · exact absurd ((all e').1 hall') (hno e' (nonempty.1 hne'))
  · rw [he, he']

/-! ### The member behind an optional type -/

def isDefined (c : Checker Handle) (t : Handle) : Bool :=
  match c.is .undefined t with
  | .ok b => !b
  | .error _ => false

theorem Settled.firstDefined_eq (h : c.Settled ts) :
    c.firstDefined ts = .ok (ts.filter c.isDefined).head? := by
  induction ts with
  | nil => rfl
  | cons t ts ih =>
    have rest := ih (h.of_subset (List.subset_cons_self t ts))
    obtain ⟨b, hb⟩ := h.undefined t List.mem_cons_self
    cases b with
    | true => simpa [firstDefined, isDefined, hb, bind, Except.bind] using rest
    | false => simp [firstDefined, isDefined, hb, bind, Except.bind, pure, Except.pure]

theorem Settled.firstDefined_perm (h : c.Settled ts) (hp : ts'.Perm ts) (hl : ts.length = 2)
    (hu : u ∈ ts) (hundef : c.is .undefined u = .ok true) :
    c.firstDefined ts'.reverse = c.firstDefined ts.reverse := by
  have perm : ts'.reverse.Perm ts.reverse :=
    (List.reverse_perm ts').trans (hp.trans (List.reverse_perm ts).symm)
  have settled : c.Settled ts.reverse := h.of_subset (List.reverse_subset.2 (List.Subset.refl ts))
  rw [settled.firstDefined_eq, (settled.of_subset perm.subset).firstDefined_eq]
  have few : (ts.reverse.filter c.isDefined).length < ts.reverse.length :=
    List.length_filter_lt_length_iff_exists.2
      ⟨u, List.mem_reverse.2 hu, by simp [isDefined, hundef]⟩
  have left := perm.filter c.isDefined
  rw [List.length_reverse, hl] at few
  generalize ts.reverse.filter c.isDefined = kept at left few ⊢
  match kept with
  | [] => rw [left.eq_nil]
  | [v] => rw [left.eq_singleton]
  | _ :: _ :: _ =>
    simp only [List.length_cons] at few
    omega

/-! ### Steps -/

variable {members : Handle → Except Fault (List Handle)}

def withMembers (c : Checker Handle) (members : Handle → Except Fault (List Handle)) :
    Checker Handle := { c with members }

/-- Two lists of members of a union hold the same types, of which enough is known. -/
structure Shuffled (c : Checker Handle) (t : Handle)
    (members : Handle → Except Fault (List Handle)) (ts ts' : List Handle) : Prop where
  before : c.members t = .ok ts
  after : members t = .ok ts'
  perm : ts'.Perm ts
  settled : c.Settled ts
  single : c.OneUndefined ts

/-- The lists of members of a type are shuffled if it is a union or intersection and no enum. -/
def Shuffles (c : Checker Handle) (members : Handle → Except Fault (List Handle)) (t : Handle) :
    Prop :=
  c.is .unionOrIntersection t = .ok true → c.is .enum t = .ok false →
    ∃ ts ts', c.Shuffled t members ts ts'

theorem splitUndefined_withMembers (ts : List Handle) :
    (c.withMembers members).splitUndefined ts = c.splitUndefined ts :=
  splitUndefined_congr (by rfl) ts

theorem commonEnum_withMembers (before : Option Handle) (ts : List Handle) :
    (c.withMembers members).commonEnum before ts = c.commonEnum before ts :=
  commonEnum_congr (by rfl) (by rfl) before ts

theorem unionMembers_withMembers (h : c.Shuffles members t) :
    ((c.withMembers members).unionMembers t = c.unionMembers t ∧
      ∀ ts, c.unionMembers t = .ok ts → ts = []) ∨
    ∃ ts ts', c.Shuffled t members ts ts' ∧ c.unionMembers t = .ok ts ∧
      (c.withMembers members).unionMembers t = .ok ts' := by
  unfold unionMembers withMembers
  dsimp only
  cases hu : c.is .unionOrIntersection t with
  | error e => exact .inl ⟨rfl, by rintro ts ⟨⟩⟩
  | ok union =>
    cases union with
    | false => exact .inl ⟨rfl, by rintro ts ⟨⟩; rfl⟩
    | true =>
      cases he : c.is .enum t with
      | error e => exact .inl ⟨rfl, by rintro ts ⟨⟩⟩
      | ok enum =>
        cases enum with
        | true => exact .inl ⟨rfl, by rintro ts ⟨⟩; rfl⟩
        | false =>
          obtain ⟨ts, ts', hs⟩ := h hu he
          exact .inr ⟨ts, ts', hs, hs.before, hs.after⟩

theorem isOptionalUnion_eq (h : c.unionMembers t = .ok ts) : c.isOptionalUnion t =
    if ts.length = 2 then (c.splitUndefined ts).map Option.isSome else .ok false := by
  unfold isOptionalUnion
  rw [h]
  cases ts with
  | nil => rfl
  | cons u ts =>
    by_cases hl : (u :: ts).length = 2
    · simp only [bind, Except.bind, ne_eq, hl, not_true_eq_false, if_false, if_true]
      cases c.splitUndefined (u :: ts) <;> rfl
    · simp only [bind, Except.bind, ne_eq, hl, not_false_eq_true, if_false, if_true]
      rfl

theorem enumUnion?_eq (h : c.unionMembers t = .ok ts) : c.enumUnion? t =
    c.splitUndefined ts >>= fun s =>
      match s with
      | none => .ok none
      | some (before, behind) => c.commonEnum none (before ++ behind) := by
  unfold enumUnion?
  rw [h]
  cases ts <;> rfl

theorem isOptionalUnion_withMembers (h : c.Shuffles members t) :
    (c.withMembers members).isOptionalUnion t = c.isOptionalUnion t := by
  rcases unionMembers_withMembers h with ⟨same, -⟩ | ⟨ts, ts', hs, before, after⟩
  · cases hm : c.unionMembers t with
    | error e => simp [isOptionalUnion, same, hm, bind, Except.bind]
    | ok ts =>
      rw [isOptionalUnion_eq hm, isOptionalUnion_eq (same.trans hm), splitUndefined_withMembers]
  · rw [isOptionalUnion_eq before, isOptionalUnion_eq after, splitUndefined_withMembers,
      hs.perm.length_eq]
    rcases hs.settled.splitUndefined_perm hs.single hs.perm with
      ⟨none, none'⟩ | ⟨b, r, b', r', some, some', -⟩
    · rw [none, none']
    · rw [some, some']
      rfl

theorem enumUnion?_withMembers (h : c.Shuffles members t) :
    (c.withMembers members).enumUnion? t = c.enumUnion? t := by
  rcases unionMembers_withMembers h with ⟨same, -⟩ | ⟨ts, ts', hs, before, after⟩
  · cases hm : c.unionMembers t with
    | error e => simp [enumUnion?, same, hm, bind, Except.bind]
    | ok ts =>
      rw [enumUnion?_eq hm, enumUnion?_eq (same.trans hm), splitUndefined_withMembers]
      simp only [commonEnum_withMembers]
  · rw [enumUnion?_eq before, enumUnion?_eq after, splitUndefined_withMembers]
    simp only [commonEnum_withMembers]
    rcases hs.settled.splitUndefined_perm hs.single hs.perm with
      ⟨none, none'⟩ | ⟨b, r, b', r', some, some', perm, sub⟩
    · rw [none, none']
    · rw [some, some']
      exact (hs.settled.of_subset sub).commonEnum_perm perm

theorem firstDefined_withMembers (ts : List Handle) :
    (c.withMembers members).firstDefined ts = c.firstDefined ts :=
  firstDefined_congr (by rfl) ts

theorem lastDefinedMember_withMembers (h : c.Shuffles members t)
    (ho : c.isOptionalUnion t = .ok true) :
    (c.withMembers members).lastDefinedMember t = c.lastDefinedMember t := by
  rcases unionMembers_withMembers h with ⟨-, empty⟩ | ⟨ts, ts', hs, before, -⟩
  · cases hm : c.unionMembers t with
    | error e => simp [isOptionalUnion, hm, bind, Except.bind] at ho
    | ok ts => simp [isOptionalUnion_eq hm, empty ts hm] at ho
  · have hl : ts.length = 2 := by
      by_contra hl
      simp [isOptionalUnion_eq before, hl] at ho
    rw [isOptionalUnion_eq before, if_pos hl] at ho
    have hu : ∃ u ∈ ts, c.is .undefined u = .ok true := by
      rcases undefined_cases hs.settled.undefined with none | ⟨b, u, r, rfl, -, hu⟩
      · simp [splitUndefined_eq_none none, Except.map] at ho
      · exact ⟨u, by simp, hu⟩
    obtain ⟨u, hmem, hu⟩ := hu
    have first := hs.settled.firstDefined_perm hs.perm hl hmem hu
    simp only [lastDefinedMember, firstDefined_withMembers, hs.before, bind, Except.bind]
    rw [show (c.withMembers members).members t = .ok ts' from hs.after]
    exact first

theorem stepUnion_withMembers (h : c.Shuffles members t) (text : Json) :
    (c.withMembers members).stepUnion t text = c.stepUnion t text := by
  unfold stepUnion
  rw [isOptionalUnion_withMembers h, enumUnion?_withMembers h]
  cases ho : c.isOptionalUnion t with
  | error e => rfl
  | ok b =>
    cases b with
    | false => rfl
    | true =>
      rw [lastDefinedMember_withMembers h ho]
      rfl

/-- A type comes to the same with its members in another order. -/
theorem step_withMembers (h : c.Shuffles members t) :
    (c.withMembers members).step t = c.step t := by
  have rendered (text : Json) : (c.withMembers members).stepRendered t text =
      c.stepRendered t text := by
    simp only [stepRendered, stepUnion_withMembers h]
    rfl
  simp only [step, rendered]
  rfl

theorem run_congr {c' : Checker Handle} (h : ∀ t, c'.step t = c.step t) (n : Nat) (t : Handle) :
    c'.run n t = c.run n t := by
  induction n generalizing t with
  | zero => rfl
  | succ n ih => simp only [run, h, ih]

theorem resolve_congr {c' : Checker Handle} (h : ∀ t, c'.step t = c.step t) (size : Nat)
    (depth : Option Int) (t : Handle) : c'.resolve size depth t = c.resolve size depth t := by
  cases depth with
  | none => simp only [resolve, resolveFully, run_congr h]
  | some limit => rw [resolve_some_eq_run, resolve_some_eq_run, run_congr h]

end PropertyMetadata.Checker
