import PropertyMetadata.Table

/-! How deep resolutions go. A resolution without a bound either ends after some number of steps to
other types or goes on for ever. A bound on the depth leaves a resolution as it is when it has room
for all of these steps, and otherwise makes it unresolved, with the one reason that says so. -/

namespace PropertyMetadata

namespace Resolution

@[simp] theorem bracketed_tooDeep : Checker.tooDeep.bracketed = Checker.tooDeep := rfl

theorem bracketed_eq_tooDeep {r : Resolution} :
    r.bracketed = Checker.tooDeep ↔ r = Checker.tooDeep := by
  cases r <;> simp [bracketed, Checker.tooDeep]

end Resolution

namespace Checker

variable {Handle : Type} {c : Checker Handle} {t u : Handle} {k l n : Nat}
  {r s : Except Fault Resolution}

/-- Resolving a type without a bound ends with an outcome, after as many steps to another type. -/
inductive Ends (c : Checker Handle) : Handle → Nat → Except Fault Resolution → Prop
  | fault {t : Handle} {e : Fault} : c.step t = .error e → Ends c t 0 (.error e)
  | answer {t : Handle} {r : Resolution} : c.step t = .ok (.answer r) → Ends c t 0 (.ok r)
  | element {t u : Handle} {k : Nat} {r : Except Fault Resolution} :
    c.step t = .ok (.element u) → Ends c u k r → Ends c t (k + 1) (r.map Resolution.bracketed)
  | through {t u : Handle} {k : Nat} {r : Except Fault Resolution} :
    c.step t = .ok (.through u) → Ends c u k r → Ends c t (k + 1) r

/-- Resolving a type without a bound never ends. -/
def Endless (c : Checker Handle) (t : Handle) : Prop := ∀ k r, ¬ c.Ends t k r

namespace Ends

/-- There is one outcome, and one number of steps to it. -/
theorem unique (h : c.Ends t k r) (h' : c.Ends t l s) : k = l ∧ r = s := by
  induction h generalizing l s with
  | fault hs | answer hs => cases h' <;> simp_all
  | element hs _ ih =>
    cases h' with
    | element hs' hu' =>
      cases hs.symm.trans hs'
      obtain ⟨rfl, rfl⟩ := ih hu'
      exact ⟨rfl, rfl⟩
    | fault hs' | answer hs' | through hs' _ => simp [hs] at hs'
  | through hs _ ih =>
    cases h' with
    | through hs' hu' =>
      cases hs.symm.trans hs'
      obtain ⟨rfl, rfl⟩ := ih hu'
      exact ⟨rfl, rfl⟩
    | fault hs' | answer hs' | element hs' _ => simp [hs] at hs'

theorem run_eq (h : c.Ends t k r) (hn : k < n) : c.run n t = some r := by
  induction h generalizing n with
  | fault hs | answer hs =>
    obtain ⟨n, rfl⟩ := Nat.exists_eq_succ_of_ne_zero (Nat.ne_zero_of_lt hn)
    simp [run, hs]
  | element hs _ ih | through hs _ ih =>
    obtain ⟨n, rfl⟩ := Nat.exists_eq_succ_of_ne_zero (Nat.ne_zero_of_lt hn)
    simp [run, hs, ih (Nat.lt_of_succ_lt_succ hn)]

end Ends

/-- What looking at `n` types finds, and what it leaves open. -/
theorem run_eq_some_iff : c.run n t = some r ↔ ∃ k < n, c.Ends t k r := by
  refine ⟨fun h => ?_, fun ⟨_, hk, h⟩ => h.run_eq hk⟩
  induction n generalizing t r with
  | zero => simp [run] at h
  | succ n ih =>
    simp only [run] at h
    split at h
    next e hs =>
      obtain rfl := Option.some.inj h
      exact ⟨0, n.succ_pos, .fault hs⟩
    next a hs =>
      obtain rfl := Option.some.inj h
      exact ⟨0, n.succ_pos, .answer hs⟩
    next u hs =>
      obtain ⟨r', hu, rfl⟩ := Option.map_eq_some_iff.1 h
      obtain ⟨k, hk, he⟩ := ih hu
      exact ⟨k + 1, Nat.succ_lt_succ hk, .element hs he⟩
    next u hs =>
      obtain ⟨k, hk, he⟩ := ih h
      exact ⟨k + 1, Nat.succ_lt_succ hk, .through hs he⟩

theorem run_eq_none_of_ends (h : c.Ends t k r) (hn : n ≤ k) : c.run n t = none := by
  refine Option.eq_none_iff_forall_ne_some.2 fun s hs => ?_
  obtain ⟨l, hl, h'⟩ := run_eq_some_iff.1 hs
  have := (h.unique h').1
  omega

theorem Endless.run_eq_none (h : c.Endless t) (n : Nat) : c.run n t = none := by
  refine Option.eq_none_iff_forall_ne_some.2 fun s hs => ?_
  obtain ⟨k, _, he⟩ := run_eq_some_iff.1 hs
  exact h k s he

/-- What leads to a type that never comes to an end never does either. -/
theorem Endless.of_leads (h : c.Endless u)
    (hs : c.step t = .ok (.element u) ∨ c.step t = .ok (.through u)) : c.Endless t := by
  intro k r he
  cases he with
  | fault hs' | answer hs' => simp [hs'] at hs
  | element hs' hu | through hs' hu =>
    simp only [hs', Except.ok.injEq, Step.element.injEq, Step.through.injEq, reduceCtorEq,
      false_or, or_false] at hs
    subst hs
    exact h _ _ hu

/-- A bounded resolution looks at as many types as the bound leaves room for. On the way out, an
array around what is too deep changes nothing. -/
theorem resolveBelow_eq_run (c : Checker Handle) (limit : Int) (depth : Nat) (t : Handle) :
    c.resolveBelow limit depth t = (c.run (limit + 1 - depth).toNat t).getD (.ok tooDeep) := by
  generalize hn : (limit + 1 - depth).toNat = n
  induction n generalizing depth t with
  | zero =>
    rw [resolveBelow, if_pos (by omega)]
    rfl
  | succ n ih =>
    have deeper (u : Handle) := ih (depth + 1) u (by push_cast; omega)
    rw [resolveBelow, if_neg (by omega), run]
    split
    · rfl
    · rfl
    · next u _ =>
      rw [deeper u]
      cases c.run n u <;> rfl
    · next u _ => exact deeper u

theorem resolve_some_eq_run (c : Checker Handle) (size : Nat) (limit : Int) (t : Handle) :
    c.resolve size (some limit) t = (c.run (limit + 1).toNat t).getD (.ok tooDeep) := by
  simpa [resolve, resolveWithin] using c.resolveBelow_eq_run limit 0 t

theorem Ends.resolve_some (h : c.Ends t k r) (size : Nat) (limit : Int) :
    c.resolve size (some limit) t = if k ≤ limit then r else .ok tooDeep := by
  rw [resolve_some_eq_run]
  split
  next hk => rw [h.run_eq (by omega), Option.getD_some]
  next hk => rw [run_eq_none_of_ends h (by omega), Option.getD_none]

theorem Endless.resolve_some (h : c.Endless t) (size : Nat) (limit : Int) :
    c.resolve size (some limit) t = .ok tooDeep := by
  rw [resolve_some_eq_run, h.run_eq_none, Option.getD_none]

/-- Without a bound a checker gives the outcome of every resolution that takes no more steps than
it has types that lead to others. -/
theorem Ends.resolve_none (h : c.Ends t k r) {size : Nat} (hk : k ≤ size) :
    c.resolve size none t = r := by
  rw [resolve, resolveFully, h.run_eq (Nat.lt_succ_of_le hk), Option.getD_some]

theorem Endless.resolve_none (h : c.Endless t) (size : Nat) :
    c.resolve size none t = .error .endless := by
  rw [resolve, resolveFully, h.run_eq_none, Option.getD_none]

theorem exists_ends_of_resolve_none {size : Nat} {a : Resolution}
    (h : c.resolve size none t = .ok a) : ∃ k, c.Ends t k (.ok a) := by
  rw [resolve, resolveFully] at h
  cases hrun : c.run (size + 1) t with
  | none =>
    rw [hrun] at h
    cases h
  | some o =>
    rw [hrun] at h
    obtain rfl : o = .ok a := h
    obtain ⟨k, -, ends⟩ := run_eq_some_iff.1 hrun
    exact ⟨k, ends⟩

/-- The bound on the depth is sharp: a resolution that takes `k` steps has the outcome that it has
without a bound under every bound from `k` on, and is too deep under every lower one. A resolution
that never ends is too deep under every bound. -/
theorem resolve_threshold (c : Checker Handle) (size : Nat) (t : Handle) :
    (∀ k r, c.Ends t k r → (k ≤ size → c.resolve size none t = r) ∧ ∀ limit : Int,
      c.resolve size (some limit) t = if k ≤ limit then r else .ok tooDeep) ∧
    (c.Endless t → c.resolve size none t = .error .endless ∧
      ∀ limit : Int, c.resolve size (some limit) t = .ok tooDeep) :=
  ⟨fun _ _ h => ⟨h.resolve_none, h.resolve_some size⟩,
    fun h => ⟨h.resolve_none size, h.resolve_some size⟩⟩

def promises : Table where
  types := [
    ("list", { shapes := [.array], typeArguments := some [.string "promise"] }),
    ("promise", { text := .string "Promise<string>", typeArguments := some [.string "text"] }),
    ("text", { shapes := [.string] })]
  symbols := []

/-- The list takes two steps, so it needs a bound of two. -/
theorem resolve_promises :
    promises.checker.Ends (.string "list") 2 (.ok (.descriptor Descriptor.string.bracketed)) ∧
    promises.checker.resolve 3 none (.string "list") =
      .ok (.descriptor Descriptor.string.bracketed) ∧
    promises.checker.resolve 3 (some 2) (.string "list") =
      .ok (.descriptor Descriptor.string.bracketed) ∧
    promises.checker.resolve 3 (some 1) (.string "list") = .ok tooDeep ∧
    promises.checker.resolve 3 (some (-1)) (.string "list") = .ok tooDeep := by
  have text : promises.checker.Ends (.string "text") 0 (.ok (.descriptor .string)) :=
    .answer (by rfl)
  have promise : promises.checker.Ends (.string "promise") 1 (.ok (.descriptor .string)) :=
    .through (by rfl) text
  have ends : promises.checker.Ends (.string "list") 2
      (.ok (.descriptor Descriptor.string.bracketed)) := .element (by rfl) promise
  obtain ⟨unbounded, sharp⟩ := (resolve_threshold promises.checker 3 (.string "list")).1 _ _ ends
  exact ⟨ends, unbounded (by decide), sharp 2, sharp 1, sharp (-1)⟩

end Checker

end PropertyMetadata
