import PropertyMetadata.Resolve

/-! The reasons for which a type by itself is unresolved. None of them says that the type is too
deep: only a bound on the depth does. -/

namespace PropertyMetadata

/-- Whatever a computation comes to has a property; a fault has none to show. -/
def Yields {α : Type} (m : Except Fault α) (P : α → Prop) : Prop := ∀ a, m = .ok a → P a

namespace Yields

variable {α β : Type} {m : Except Fault α} {P : β → Prop}

theorem ok {a : β} (h : P a) : Yields (.ok a) P := by
  rintro _ ⟨⟩
  exact h

theorem bind {f : α → Except Fault β} (h : ∀ a, m = .ok a → Yields (f a) P) :
    Yields (m >>= f) P := by
  cases m with
  | error e => rintro _ ⟨⟩
  | ok a => exact h a rfl

theorem question {q : Except Fault Bool} {p : Bool → Bool} {x y : Except Fault β}
    (hx : ∀ b, q = .ok b → p b = true → Yields x P)
    (hy : ∀ b, q = .ok b → p b = false → Yields y P) :
    Yields (q >>= fun b => if p b = true then x else y) P := by
  refine bind fun b hq => ?_
  cases hp : p b with
  | true => exact hx b hq hp
  | false => exact hy b hq hp

theorem branch {q : Except Fault Bool} {p : Bool → Bool} {x y : Except Fault β} (hx : Yields x P)
    (hy : Yields y P) : Yields (q >>= fun b => if p b = true then x else y) P :=
  question (fun _ _ _ => hx) (fun _ _ _ => hy)

end Yields

namespace Checker

variable {Handle : Type}

/-- A reason says that a type is too deep only if it begins and ends so. -/
theorem tooDeep_ends {s : String} (h : Resolution.unresolved s = tooDeep) :
    s.toList.head? = some 'm' ∧ s.toList.getLast? = some 'd' := by
  cases h
  exact ⟨rfl, rfl⟩

theorem render_ne_tooDeep (c : Checker Handle) (t : Handle) :
    Yields (c.render t) (· ≠ tooDeep) := by
  unfold render
  split
  · exact .ok (by simp [tooDeep])
  · refine .ok fun h => ?_
    simpa using (tooDeep_ends h).1
  · rintro _ ⟨⟩

theorem fallback_ne_tooDeep (c : Checker Handle) (t : Handle) (text : Json) :
    Yields (c.fallback t text) (· ≠ tooDeep) := by
  have object : Yields (.ok (.descriptor .object)) (· ≠ tooDeep) := .ok (by simp [tooDeep])
  refine .branch object (.branch object (.bind fun b _ => ?_))
  refine .branch object (.branch (.ok (by simp [tooDeep])) (.bind fun a _ => ?_))
  split
  · exact object
  · exact .ok (by simp [tooDeep])

theorem stepUnion_ne_tooDeep (c : Checker Handle) (t : Handle) (text : Json) :
    Yields (c.stepUnion t text) (· ≠ .answer tooDeep) := by
  refine .branch (.bind fun m _ => .ok (by simp)) (.bind fun e _ => ?_)
  split
  · exact .ok (by simp)
  · refine .bind fun r hr => .ok fun h => ?_
    exact fallback_ne_tooDeep c t text r hr (Step.answer.inj h)

theorem stepRendered_ne_tooDeep (c : Checker Handle) (t : Handle) (text : Json) :
    Yields (c.stepRendered t text) (· ≠ .answer tooDeep) := by
  refine .branch (.bind fun args _ => ?_) (.branch (.ok (by simp [tooDeep])) ?_)
  · split
    · refine .ok fun h => ?_
      simpa using (tooDeep_ends (Step.answer.inj h)).2
    · exact .ok (by simp)
  · split
    · exact .ok (by simp [tooDeep, Descriptor.date])
    · exact stepUnion_ne_tooDeep c t text

/-- No type by itself is unresolved for being too deep. -/
theorem step_ne_tooDeep (c : Checker Handle) (t : Handle) :
    Yields (c.step t) (· ≠ .answer tooDeep) := by
  refine .branch (.bind fun args _ => ?_) (.branch (.ok (by simp [tooDeep])) ?_)
  · split
    · exact .ok (by simp [tooDeep])
    · exact .ok (by simp)
  · refine .branch (.ok (by simp [tooDeep])) (.branch (.ok (by simp [tooDeep])) ?_)
    refine .bind fun r hr => ?_
    split
    · next reason _ => exact .ok fun h => render_ne_tooDeep c t _ hr (Step.answer.inj h)
    · exact stepRendered_ne_tooDeep c t _

end Checker

end PropertyMetadata
