import Mathlib.Data.List.Forall2
import PropertyMetadata.Proofs.Depth

/-! Handles mean nothing by themselves. Two checkers match along a relation of their handles if
every question on related handles has related answers, and if they agree on which handles name the
same type. Then related types come to the same, step by step and as a whole: to one descriptor, to
no descriptor, to a fault of one kind, or to no end. -/

namespace PropertyMetadata

open List (Forall₂)

/-- Faults of one kind, which differ at most in what they name. -/
def Fault.Akin : Fault → Fault → Prop
  | .file c, .file c' => c.ctorIdx = c'.ctorIdx
  | e, e' => e.ctorIdx = e'.ctorIdx

theorem Fault.Akin.refl (e : Fault) : e.Akin e := by
  cases e <;> rfl

theorem Fault.Akin.unrenderable_iff {e e' : Fault} (h : e.Akin e') :
    (∃ m, e = .unrenderable m) ↔ ∃ m, e' = .unrenderable m := by
  have index (f : Fault) : (∃ m, f = .unrenderable m) ↔ f.ctorIdx = 1 := by
    cases f <;> simp [Fault.ctorIdx]
  have same : e.ctorIdx = e'.ctorIdx := by
    cases e <;> cases e' <;> first | exact h | rfl
  rw [index, index, same]

/-- Two computations end alike: with related results, or with faults of one kind. -/
inductive Agree {α β : Type} (R : α → β → Prop) : Except Fault α → Except Fault β → Prop
  | ok {a : α} {b : β} : R a b → Agree R (.ok a) (.ok b)
  | fault {e e' : Fault} : e.Akin e' → Agree R (.error e) (.error e')

namespace Agree

variable {α β γ δ : Type} {R : α → β → Prop} {S : γ → δ → Prop} {m : Except Fault α}
  {m' : Except Fault β}

theorem refl (m : Except Fault α) : Agree Eq m m := by
  cases m with
  | ok a => exact .ok rfl
  | error e => exact .fault (.refl e)

theorem bind {f : α → Except Fault γ} {f' : β → Except Fault δ} (h : Agree R m m')
    (hf : ∀ a b, R a b → Agree S (f a) (f' b)) : Agree S (m >>= f) (m' >>= f') := by
  cases h with
  | ok h => exact hf _ _ h
  | fault h => exact .fault h

theorem bind_congr {m m' : Except Fault α} {f : α → Except Fault γ} (h : Agree Eq m m') :
    Agree Eq (m >>= f) (m' >>= f) := by
  refine bind h ?_
  rintro a _ rfl
  exact refl _

theorem imp {S : α → β → Prop} (h : Agree R m m') (hs : ∀ a b, R a b → S a b) : Agree S m m' := by
  cases h with
  | ok h => exact .ok (hs _ _ h)
  | fault h => exact .fault h

theorem map {f : α → γ} {f' : β → δ} (h : Agree R m m') (hf : ∀ a b, R a b → S (f a) (f' b)) :
    Agree S (m.map f) (m'.map f') := by
  cases h with
  | ok h => exact .ok (hf _ _ h)
  | fault h => exact .fault h

theorem branch {q q' : Except Fault Bool} {p : Bool → Bool} {x y : Except Fault γ}
    {x' y' : Except Fault δ} (hq : Agree Eq q q') (hx : Agree S x x') (hy : Agree S y y') :
    Agree S (q >>= fun b => if p b = true then x else y)
      (q' >>= fun b => if p b = true then x' else y') := by
  refine bind hq ?_
  rintro b _ rfl
  split
  · exact hx
  · exact hy

end Agree

/-- Equal resolutions: one descriptor, or none for whatever reasons. -/
inductive Resolution.Same : Resolution → Resolution → Prop
  | descriptor (d : Descriptor) : Same (.descriptor d) (.descriptor d)
  | unresolved (reason reason' : String) : Same (.unresolved reason) (.unresolved reason')

theorem Resolution.Same.refl (r : Resolution) : r.Same r := by
  cases r with
  | descriptor d => exact .descriptor d
  | unresolved reason => exact .unresolved reason reason

theorem Resolution.Same.bracketed {r r' : Resolution} (h : r.Same r') :
    r.bracketed.Same r'.bracketed := by
  cases h with
  | descriptor d => exact .descriptor d.bracketed
  | unresolved reason reason' => exact .unresolved reason reason'

inductive Step.Same {H H' : Type} (R : H → H' → Prop) : Step H → Step H' → Prop
  | answer {r r' : Resolution} : r.Same r' → Same R (.answer r) (.answer r')
  | element {t : H} {t' : H'} : R t t' → Same R (.element t) (.element t')
  | through {t : H} {t' : H'} : R t t' → Same R (.through t) (.through t')

namespace Checker

variable {H H' : Type} {c : Checker H} {c' : Checker H'} {R : H → H' → Prop} {t : H} {t' : H'}
  {ts : List H} {ts' : List H'}

/-- Checkers with related answers to every question on related handles. -/
structure Matches (c : Checker H) (c' : Checker H') (R : H → H' → Prop) : Prop where
  is : ∀ t t', R t t' → ∀ s, Agree Eq (c.is s t) (c'.is s t')
  typeArguments : ∀ t t', R t t' → Agree (Forall₂ R) (c.typeArguments t) (c'.typeArguments t')
  members : ∀ t t', R t t' → Agree (Forall₂ R) (c.members t) (c'.members t')
  text : ∀ t t', R t t' → Agree Eq (c.text t) (c'.text t')
  symbol : ∀ t t', R t t' → Agree (Option.Rel R) (c.symbol t) (c'.symbol t')
  aliasSymbol : ∀ t t', R t t' → Agree (Option.Rel R) (c.aliasSymbol t) (c'.aliasSymbol t')
  flags : ∀ t t', R t t' → Agree Eq (c.flags t) (c'.flags t')
  parent : ∀ t t', R t t' → Agree (Option.Rel R) (c.parent t) (c'.parent t')
  declaredType : ∀ t t', R t t' → Agree (Option.Rel R) (c.declaredType t) (c'.declaredType t')
  absent : R c.absent c'.absent
  same : ∀ t t' u u', R t t' → R u u' → c.same t u = c'.same t' u'

theorem render_error {e : Fault} (h : c.text t = .error e) (he : ¬ ∃ m, e = .unrenderable m) :
    c.render t = .error e := by
  rw [render, h]
  cases e with
  | unrenderable m => exact absurd ⟨m, rfl⟩ he
  | _ => rfl

namespace Matches

/-! ### Unions -/

theorem unionMembers (h : c.Matches c' R) (ht : R t t') :
    Agree (Forall₂ R) (c.unionMembers t) (c'.unionMembers t') := by
  have none : Agree (Forall₂ R) (.ok []) (.ok []) := .ok .nil
  have enum := h.is t t' ht .enum
  exact .branch (p := not) (h.is t t' ht _) none (.branch enum none (h.members t t' ht))

/-- Two parts of one list on each side, related one by one. -/
def Parts (R : H → H' → Prop) (s : List H × List H) (s' : List H' × List H') : Prop :=
  Forall₂ R s.1 s'.1 ∧ Forall₂ R s.2 s'.2

theorem splitUndefined (h : c.Matches c' R) (hts : Forall₂ R ts ts') :
    Agree (Option.Rel (Parts R)) (c.splitUndefined ts) (c'.splitUndefined ts') := by
  induction hts with
  | nil => exact .ok .none
  | @cons t t' ts ts' ht hts ih =>
    refine .branch (h.is t t' ht .undefined) (.ok (.some ⟨.nil, hts⟩)) (.bind ih ?_)
    intro s s' hs
    cases hs with
    | none => exact .ok .none
    | some hs => exact .ok (.some ⟨.cons ht hs.1, hs.2⟩)

theorem isOptionalUnion (h : c.Matches c' R) (ht : R t t') :
    Agree Eq (c.isOptionalUnion t) (c'.isOptionalUnion t') := by
  refine .bind (h.unionMembers ht) ?_
  intro ts ts' hts
  cases hts with
  | nil => exact .refl _
  | @cons u u' us us' hu hus =>
    have length : (u :: us).length = (u' :: us').length := (Forall₂.cons hu hus).length_eq
    dsimp only
    by_cases hl : (u :: us).length ≠ 2
    · rw [if_pos hl, if_pos (length ▸ hl)]
      exact .refl _
    · rw [if_neg hl, if_neg (length ▸ hl)]
      refine .bind (h.splitUndefined (.cons hu hus)) ?_
      intro s s' hs
      cases hs <;> exact .refl _

theorem enumOfMember (h : c.Matches c' R) (ht : R t t') :
    Agree (Option.Rel (Option.Rel R)) (c.enumOfMember t) (c'.enumOfMember t') := by
  refine .bind (h.symbol t t' ht) ?_
  intro s s' hs
  cases hs with
  | none => exact .ok .none
  | some hs =>
    refine .bind (h.parent _ _ hs) ?_
    intro p p' hp
    cases hp with
    | none => exact .ok .none
    | some hp =>
      refine .bind (h.flags _ _ hs) ?_
      rintro f _ rfl
      by_cases hf : f = .enumMember
      · rw [if_pos hf, if_pos hf]
        refine .bind (h.declaredType _ _ hp) ?_
        intro d d' hd
        exact .ok (.some hd)
      · rw [if_neg hf, if_neg hf]
        exact .ok .none

/-- Related enums have the same name just when the other ones have. This is the one place where
handles are compared. -/
theorem commonEnum (h : c.Matches c' R) (hts : Forall₂ R ts ts') {before : Option H}
    {before' : Option H'} (hb : Option.Rel R before before') :
    Agree (Option.Rel R) (c.commonEnum before ts) (c'.commonEnum before' ts') := by
  induction hts generalizing before before' with
  | nil => exact .ok hb
  | @cons t t' ts ts' ht _ ih =>
    refine .bind (h.enumOfMember ht) ?_
    intro e e' he
    cases he with
    | none => exact .ok .none
    | @some d d' hd =>
      cases hb with
      | none => exact ih hd
      | some he =>
        cases hd with
        | none => exact .ok .none
        | some hd =>
          simp only [h.same _ _ _ _ hd he]
          split
          · exact ih (.some hd)
          · exact .ok .none

theorem enumUnion? (h : c.Matches c' R) (ht : R t t') :
    Agree (Option.Rel R) (c.enumUnion? t) (c'.enumUnion? t') := by
  refine .bind (h.unionMembers ht) ?_
  intro ts ts' hts
  cases hts with
  | nil => exact .ok .none
  | cons hu hus =>
    refine .bind (h.splitUndefined (.cons hu hus)) ?_
    intro s s' hs
    cases hs with
    | none => exact .ok .none
    | some hs => exact h.commonEnum (List.rel_append hs.1 hs.2) .none

theorem firstDefined (h : c.Matches c' R) (hts : Forall₂ R ts ts') :
    Agree (Option.Rel R) (c.firstDefined ts) (c'.firstDefined ts') := by
  induction hts with
  | nil => exact .ok .none
  | @cons t t' ts ts' ht _ ih => exact .branch (h.is t t' ht .undefined) ih (.ok (.some ht))

theorem lastDefinedMember (h : c.Matches c' R) (ht : R t t') :
    Agree (Option.Rel R) (c.lastDefinedMember t) (c'.lastDefinedMember t') := by
  refine .bind (h.members t t' ht) ?_
  intro ts ts' hts
  exact h.firstDefined (List.rel_reverse hts)

/-! ### Steps -/

/-- What cannot be rendered by one checker cannot be rendered by the other. -/
theorem render (h : c.Matches c' R) (ht : R t t') :
    Agree Resolution.Same (c.render t) (c'.render t') := by
  have text := h.text t t' ht
  generalize hx : c.text t = x, hx' : c'.text t' = x' at text
  -- only what cannot be rendered is no fault, so the kind of the fault decides for both sides
  cases text with
  | ok same =>
    cases same
    rw [Checker.render, Checker.render, hx, hx']
    exact .ok (.refl _)
  | @fault e e' he =>
    by_cases hm : ∃ m, e = .unrenderable m
    · obtain ⟨m', rfl⟩ := he.unrenderable_iff.1 hm
      obtain ⟨m, rfl⟩ := hm
      rw [Checker.render, Checker.render, hx, hx']
      exact .ok (.unresolved _ _)
    · have hm' : ¬ ∃ m, e' = .unrenderable m := fun h => hm (he.unrenderable_iff.2 h)
      rw [render_error hx hm, render_error hx' hm']
      exact .fault he

theorem fallback (h : c.Matches c' R) (ht : R t t') (text : Json) :
    Agree Resolution.Same (c.fallback t text) (c'.fallback t' text) := by
  have object : Agree Resolution.Same (.ok (.descriptor .object)) (.ok (.descriptor .object)) :=
    .ok (.descriptor _)
  have is (s : Shape) := h.is t t' ht s
  refine .branch (.refl _) object (.branch (is .interface) object (.bind (is _) ?_))
  rintro union _ rfl
  refine .branch (is .enum) object (.branch (is .enum) (.ok (.refl _)) ?_)
  refine .bind (h.aliasSymbol t t' ht) ?_
  intro s s' hs
  cases hs with
  | none => exact .ok (.refl _)
  | some => exact object

theorem stepUnion (h : c.Matches c' R) (ht : R t t') (text : Json) :
    Agree (Step.Same R) (c.stepUnion t text) (c'.stepUnion t' text) := by
  refine .branch (h.isOptionalUnion ht) (.bind (h.lastDefinedMember ht) ?_)
    (.bind (h.enumUnion? ht) ?_)
  · intro m m' hm
    cases hm with
    | none => exact .ok (.through h.absent)
    | some hm => exact .ok (.through hm)
  · intro e e' he
    cases he with
    | none => exact .bind (h.fallback ht text) fun r r' hr => .ok (.answer hr)
    | some he => exact .ok (.through he)

theorem stepRendered (h : c.Matches c' R) (ht : R t t') (text : Json) :
    Agree (Step.Same R) (c.stepRendered t text) (c'.stepRendered t' text) := by
  refine .branch (.refl _) (.bind (h.typeArguments t t' ht) ?_)
    (.branch (h.is t t' ht .classType) (.ok (.answer (.refl _))) ?_)
  · intro us us' hus
    cases hus with
    | nil => exact .ok (.answer (.refl _))
    | cons hu _ => exact .ok (.through hu)
  · split
    · exact .ok (.answer (.refl _))
    · exact h.stepUnion ht text

/-- Related types come to the same. -/
theorem step (h : c.Matches c' R) (ht : R t t') :
    Agree (Step.Same R) (c.step t) (c'.step t') := by
  have is (s : Shape) := h.is t t' ht s
  have builtIn (d : Descriptor) : Agree (Step.Same R) (.ok (.answer (.descriptor d)))
      (.ok (.answer (.descriptor d))) := .ok (.answer (.refl _))
  refine .branch (is .array) (.bind (h.typeArguments t t' ht) ?_) (.branch (is .boolean)
    (builtIn _) (.branch (is .number) (builtIn _) (.branch (is .string) (builtIn _) ?_)))
  · intro us us' hus
    cases hus with
    | nil => exact .ok (.answer (.refl _))
    | cons hu _ => exact .ok (.element hu)
  · refine .bind (h.render ht) ?_
    intro r r' hr
    cases hr with
    | descriptor d => exact h.stepRendered ht d.text
    | unresolved => exact .ok (.answer (.unresolved _ _))

/-! ### Resolutions -/

/-- Looking at as many types, both checkers find the same or leave the same open. -/
theorem run (h : c.Matches c' R) (n : Nat) (ht : R t t') :
    Option.Rel (Agree Resolution.Same) (c.run n t) (c'.run n t') := by
  induction n generalizing t t' with
  | zero => exact .none
  | succ n ih =>
    have step := h.step ht
    generalize hs : c.step t = s, hs' : c'.step t' = s' at step
    simp only [Checker.run, hs, hs']
    cases step with
    | fault he => exact .some (.fault he)
    | ok same =>
      cases same with
      | answer hr => exact .some (.ok hr)
      | through hu => exact ih hu
      | @element u u' hu =>
        have inner := ih hu
        dsimp only
        generalize c.run n u = r, c'.run n u' = r' at inner
        cases inner with
        | none => exact .none
        | some hr => exact .some (hr.map fun _ _ hr => hr.bracketed)

/-- A resolution that ends has a counterpart that takes as many steps and ends alike. -/
theorem ends (h : c.Matches c' R) (ht : R t t') {k : Nat} {r : Except Fault Resolution}
    (he : c.Ends t k r) : ∃ r', c'.Ends t' k r' ∧ Agree Resolution.Same r r' := by
  have found := h.run (k + 1) ht
  have pending := h.run k ht
  rw [he.run_eq k.lt_succ_self] at found
  rw [run_eq_none_of_ends he (Nat.le_refl k)] at pending
  generalize hr' : c'.run (k + 1) t' = r' at found
  cases found with
  | some hr =>
    obtain ⟨l, hl, he'⟩ := run_eq_some_iff.1 hr'
    -- looking at `k` types leaves it open, so it does not take fewer steps
    rcases Nat.lt_succ_iff_lt_or_eq.1 hl with less | rfl
    · rw [he'.run_eq less] at pending
      cases pending
    · exact ⟨_, he', hr⟩

theorem endless_iff (h : c.Matches c' R) (ht : R t t') : c.Endless t ↔ c'.Endless t' := by
  constructor
  · intro he k' r' he'
    have run := h.run (k' + 1) ht
    rw [he.run_eq_none, he'.run_eq k'.lt_succ_self] at run
    cases run
  · intro he' k r he
    have run := h.run (k + 1) ht
    rw [he'.run_eq_none, he.run_eq k.lt_succ_self] at run
    cases run

/-- Under one bound both resolutions come to the same. -/
theorem resolve_some (h : c.Matches c' R) (ht : R t t') (size size' : Nat) (limit : Int) :
    Agree Resolution.Same (c.resolve size (some limit) t) (c'.resolve size' (some limit) t') := by
  rw [resolve_some_eq_run, resolve_some_eq_run]
  have run := h.run (limit + 1).toNat ht
  generalize c.run _ t = r, c'.run _ t' = r' at run
  cases run with
  | none => exact .ok (.refl _)
  | some hr => exact hr

end Matches

end Checker

end PropertyMetadata
