import PropertyMetadata.Proofs.Graph.Optional
import PropertyMetadata.Proofs.Graph.Safety

/-! Types that cannot be rendered. Only a type that is no array and not built in goes by its text,
and without its text a resolution that gets to it stops there and has no descriptor. No other rule
takes its place: a graph whose nodes have lost their texts gives the descriptors that it gave
before, or none. -/

namespace PropertyMetadata

namespace Checker

variable {Handle : Type} {c : Checker Handle} {text : Handle → Except Fault Json} {t u : Handle}
  {k n : Nat}

/-- A checker that renders types in another way. -/
def withText (c : Checker Handle) (text : Handle → Except Fault Json) : Checker Handle :=
  { c with text }

/-- A type is no array and not built in. -/
def GoesByText (c : Checker Handle) (t : Handle) : Prop :=
  ∀ k ∈ [Shape.array, .boolean, .number, .string], c.is k t = .ok false

/-- What can still be rendered is rendered as before. -/
def Muffles (c : Checker Handle) (text : Handle → Except Fault Json) : Prop :=
  ∀ t, text t = c.text t ∨ ∃ m, text t = .error (.unrenderable m)

/-! ### Steps -/

/-- Behind the text of a type no other text is asked for. -/
theorem stepRendered_withText (c : Checker Handle) (text : Handle → Except Fault Json) (t : Handle)
    (x : Json) : (c.withText text).stepRendered t x = c.stepRendered t x := by
  have split (ts : List Handle) : (c.withText text).splitUndefined ts = c.splitUndefined ts :=
    splitUndefined_congr (by rfl) ts
  have defined (ts : List Handle) : (c.withText text).firstDefined ts = c.firstDefined ts :=
    firstDefined_congr (by rfl) ts
  have common (ts : List Handle) :
      (c.withText text).commonEnum none ts = c.commonEnum none ts :=
    commonEnum_congr (by rfl) (by rfl) none ts
  simp only [stepRendered, stepUnion, isOptionalUnion, enumUnion?, lastDefinedMember, split,
    defined, common]
  rfl

theorem question_congr {α : Type} {q : Except Fault Bool} {x y y' : Except Fault α}
    (h : q = .ok false → y = y') :
    (q >>= fun b => if b = true then x else y) = q >>= fun b => if b = true then x else y' := by
  cases q with
  | error e => rfl
  | ok b =>
    cases b with
    | true => rfl
    | false => exact h rfl

theorem step_withText (h : c.GoesByText t → text t = c.text t) :
    (c.withText text).step t = c.step t := by
  refine question_congr fun array => question_congr fun boolean => question_congr fun number =>
    question_congr fun string => ?_
  have same : text t = c.text t := h (by
    simp only [GoesByText, List.forall_mem_cons]
    exact ⟨array, boolean, number, string, by simp⟩)
  have rendered : (c.withText text).render t = c.render t := by
    simp only [render, withText, same]
  rw [rendered]
  simp only [stepRendered_withText]

/-- A type that goes by its text and has none stops a resolution. -/
theorem step_unrenderable (ht : c.GoesByText t) {m : String}
    (hx : text t = .error (.unrenderable m)) :
    (c.withText text).step t = .ok (.answer (.unresolved ("render failed: " ++ m))) := by
  have is (k : Shape) (hk : k ∈ [Shape.array, .boolean, .number, .string]) :
      (c.withText text).is k t = .ok false := ht k hk
  have unrenderable : (c.withText text).text t = .error (.unrenderable m) := hx
  simp [step, render, is, unrenderable, bind, Except.bind, pure, Except.pure]

/-! ### Runs -/

/-- Looking at as many types, a checker that renders less finds the same, or that there is no
descriptor. -/
theorem run_withText (h : c.Muffles text) (n : Nat) (t : Handle) :
    (c.withText text).run n t = c.run n t ∨
      ∃ reason, (c.withText text).run n t = some (.ok (.unresolved reason)) := by
  induction n generalizing t with
  | zero => exact .inl rfl
  | succ n ih =>
    by_cases lost : c.GoesByText t ∧ ∃ m, text t = .error (.unrenderable m)
    · obtain ⟨byText, m, hm⟩ := lost
      exact .inr ⟨"render failed: " ++ m, by simp only [run, step_unrenderable byText hm]⟩
    · have same : (c.withText text).step t = c.step t := by
        refine step_withText fun byText => (h t).resolve_right fun hm => lost ⟨byText, hm⟩
      simp only [run, same]
      split
      · exact .inl rfl
      · exact .inl rfl
      · next u _ =>
        refine (ih u).imp (fun found => by rw [found]) ?_
        rintro ⟨reason, found⟩
        exact ⟨reason, by rw [found]; rfl⟩
      · next u _ => exact ih u

/-- A run that gets to no type that has lost its text stays as it is. -/
theorem run_withText_eq (h : ∀ k u, c.Reaches k t u → k < n → c.GoesByText u → text u = c.text u) :
    (c.withText text).run n t = c.run n t := by
  induction n generalizing t with
  | zero => rfl
  | succ n ih =>
    have same : (c.withText text).step t = c.step t :=
      step_withText (h 0 t (.refl t) n.succ_pos)
    simp only [run, same]
    split
    · rfl
    · rfl
    · next u hs => rw [ih fun k v hv hk => h (k + 1) v (.element hs hv) (Nat.succ_lt_succ hk)]
    · next u hs => exact ih fun k v hv hk => h (k + 1) v (.through hs hv) (Nat.succ_lt_succ hk)

/-- A resolution looks at so many types, and none of them is too deep. -/
theorem exists_resolve_eq_run (Handle : Type) (size : Nat) (depth : Option Int) :
    ∃ n out, (∀ (c : Checker Handle) t, c.resolve size depth t = (c.run n t).getD out) ∧
      ∀ k < n, ∀ d ∈ depth, (k : Int) ≤ d := by
  cases depth with
  | none => exact ⟨size + 1, .error .endless, fun _ _ => rfl, by simp⟩
  | some limit =>
    refine ⟨(limit + 1).toNat, .ok tooDeep, fun c t => c.resolve_some_eq_run size limit t, ?_⟩
    intro k hk d hd
    obtain rfl := Option.some.inj hd
    omega

end Checker

/-! ### Graphs -/

/-- How a node comes to have no text. -/
inductive Silence where
  | removed | emptied
  deriving DecidableEq, Repr

namespace Silence

def apply (s : Silence) (fields : List (String × Json)) : List (String × Json) :=
  match s with
  | removed => fields.filter fun f => f.1 != "text"
  | emptied => Json.insert fields "text" (.string "")

theorem lookup_filter_ne {α : Type} (fields : List (String × α)) (key k : String) :
    Json.lookup (fields.filter fun f => f.1 != key) k =
      if key = k then none else Json.lookup fields k := by
  induction fields with
  | nil => simp [Json.lookup]
  | cons f fields ih =>
    obtain ⟨k', x⟩ := f
    by_cases hk : k' = key
    · subst hk
      simp only [List.filter_cons, bne_self_eq_false, Bool.false_eq_true, if_false, ih, Json.lookup]
      split <;> rfl
    · have kept : (k' != key) = true := by simpa using hk
      simp only [List.filter_cons, kept, if_true, Json.lookup, ih]
      split
      next same => rw [if_neg (same ▸ Ne.symm hk)]
      next => rfl

theorem lookup_apply (s : Silence) (fields : List (String × Json)) {key : String}
    (h : key ≠ "text") : Json.lookup (s.apply fields) key = Json.lookup fields key := by
  cases s with
  | removed => exact (lookup_filter_ne fields "text" key).trans (if_neg (Ne.symm h))
  | emptied => exact (Json.lookup_insert fields "text" _ key).trans (if_neg (Ne.symm h))

theorem lookup_text (s : Silence) (fields : List (String × Json)) :
    Json.lookup (s.apply fields) "text" = none ∨
      Json.lookup (s.apply fields) "text" = some (.string "") := by
  cases s with
  | removed => exact .inl ((lookup_filter_ne fields "text" "text").trans (if_pos rfl))
  | emptied => exact .inr ((Json.lookup_insert fields "text" _ "text").trans (if_pos rfl))

end Silence

/-- A node after it may have lost its text. -/
def Node.silenced (how : Json → Option Silence) (n : Node) : Node where
  id := n.id
  attributes := match how n.id with
    | some s => s.apply n.attributes
    | none => n.attributes

theorem Node.lookup_silenced (how : Json → Option Silence) (n : Node) {key : String}
    (h : key ≠ "text") :
    Json.lookup (n.silenced how).attributes key = Json.lookup n.attributes key := by
  unfold silenced
  cases how n.id with
  | none => rfl
  | some s => exact s.lookup_apply n.attributes h

namespace TypeGraph

variable {g : TypeGraph} {how : Json → Option Silence} {t : Json} {depth : Option Int}
  {r : Resolution} {n : Node}

def silenced (g : TypeGraph) (how : Json → Option Silence) : TypeGraph :=
  { g with nodes := g.nodes.map (Node.silenced how) }

theorem node?_silenced (g : TypeGraph) (how : Json → Option Silence) (t : Json) :
    (g.silenced how).node? t = (g.node? t).map (Node.silenced how) :=
  node?_map (m := Node.silenced how) (fun _ => rfl) g t

/-- What is asked of the attributes of a node but for its text is answered as before. -/
theorem asked_silenced {α : Type} (g : TypeGraph) (how : Json → Option Silence) (t : Json)
    {ask : List (String × Json) → Except Fault α}
    (h : ∀ n : Node, ask (n.silenced how).attributes = ask n.attributes) :
    ((g.silenced how).attributes t >>= ask) = g.attributes t >>= ask :=
  asked_map (m := Node.silenced how) (fun _ => rfl) g t fun n _ => h n

theorem kind_silenced (g : TypeGraph) (how : Json → Option Silence) :
    (g.silenced how).kind = g.kind := by
  funext t
  exact g.asked_silenced how t fun n => by rw [n.lookup_silenced how (by decide)]

theorem flags_silenced (g : TypeGraph) (how : Json → Option Silence) :
    (g.silenced how).flags = g.flags := by
  funext t
  exact g.asked_silenced how t fun n => by rw [n.lookup_silenced how (by decide)]

theorem targets_silenced (g : TypeGraph) (how : Json → Option Silence) :
    (g.silenced how).targets = g.targets := by
  funext t relation
  exact g.asked_silenced how t fun _ => rfl

/-- Of the questions that a graph answers, only the one for the text is answered in another way. -/
theorem checker_silenced (g : TypeGraph) (how : Json → Option Silence) :
    (g.silenced how).checker = g.checker.withText (g.silenced how).text := by
  have kindIn : (g.silenced how).kindIn = g.kindIn := by
    funext kinds t
    simp only [TypeGraph.kindIn, kind_silenced]
  exact (checker_eq kindIn (g.flags_silenced how) fun _ _ _ => by rw [targets_silenced]).1

theorem text_silenced (hn : g.node? t = some n) {s : Silence} (hs : how n.id = some s) :
    (g.silenced how).text t =
      .error (.unrenderable ("Type " ++ t.text ++ " has no textual representation")) := by
  have attributes : (g.silenced how).attributes t = .ok (s.apply n.attributes) := by
    rw [TypeGraph.attributes, node?_silenced, hn]
    simp only [Option.map_some, Node.silenced, hs]
  simp only [TypeGraph.text, attributes, bind, Except.bind]
  rcases s.lookup_text n.attributes with lost | lost <;> rw [lost] <;> rfl

theorem text_silenced_of_none (h : ∀ n, g.node? t = some n → how n.id = none) :
    (g.silenced how).text t = g.text t := by
  unfold TypeGraph.text TypeGraph.attributes
  rw [node?_silenced]
  cases hn : g.node? t with
  | none => rfl
  | some n =>
    have same : n.silenced how = n := by
      simp only [Node.silenced, h n hn]
    rw [Option.map_some, same]

theorem muffles_silenced (g : TypeGraph) (how : Json → Option Silence) :
    g.checker.Muffles (g.silenced how).text := by
  intro t
  by_cases spared : ∀ n, g.node? t = some n → how n.id = none
  · exact .inl (text_silenced_of_none spared)
  · simp only [not_forall] at spared
    obtain ⟨n, hn, hs⟩ := spared
    obtain ⟨s, hs⟩ := Option.ne_none_iff_exists'.1 hs
    exact .inr ⟨_, text_silenced hn hs⟩

/-- A node is an array or built in, and never rendered. -/
def NeverRendered (g : TypeGraph) (t : Json) : Prop :=
  g.kindIn ["array", "boolean", "number", "string"] t = .ok true

theorem NeverRendered.not_goesByText (h : g.NeverRendered t) : ¬ g.checker.GoesByText t := by
  intro byText
  have array : g.kindIn ["array"] t = .ok false := byText .array (by simp)
  have boolean : g.kindIn ["boolean"] t = .ok false := byText .boolean (by simp)
  have number : g.kindIn ["number"] t = .ok false := byText .number (by simp)
  have string : g.kindIn ["string"] t = .ok false := byText .string (by simp)
  simp only [NeverRendered, kindIn] at h array boolean number string
  cases hk : g.kind t with
  | error e => simp [hk, bind, Except.bind] at h
  | ok k =>
    simp only [hk, bind, Except.bind, pure, Except.pure, Except.ok.injEq, List.any_cons,
      List.any_nil, Bool.or_false] at h array boolean number string
    simp [array, boolean, number, string] at h

/-- No node that a resolution gets to and renders is silenced. -/
def Spares (g : TypeGraph) (how : Json → Option Silence) (depth : Option Int) (t : Json) : Prop :=
  ∀ k u n, g.checker.Reaches k t u → (∀ d ∈ depth, (k : Int) ≤ d) → g.node? u = some n →
    how n.id = none ∨ g.NeverRendered u

theorem Spares.text_eq (h : g.Spares how depth t) {k : Nat} {u : Json}
    (reach : g.checker.Reaches k t u) (room : ∀ d ∈ depth, (k : Int) ≤ d)
    (byText : g.checker.GoesByText u) : (g.silenced how).text u = g.checker.text u :=
  text_silenced_of_none fun n hn =>
    (h k u n reach room hn).resolve_right fun never => never.not_goesByText byText

/-- Types that cannot be rendered only lose information. Where some nodes have lost their texts,
every resolution that had a result still has it or has no descriptor. It still has it if no silenced
node is rendered on the way. -/
theorem resolve_silenced (h : g.resolve depth t = .ok r) :
    (∃ r', (g.silenced how).resolve depth t = .ok r' ∧
      (r' = r ∨ ∃ reason, r' = .unresolved reason)) ∧
    (g.Spares how depth t → (g.silenced how).resolve depth t = .ok r) := by
  have size : (g.silenced how).nodes.length = g.nodes.length := List.length_map _
  obtain ⟨n, out, eq_run, room⟩ := Checker.exists_resolve_eq_run Json g.nodes.length depth
  rw [resolve, size, checker_silenced, eq_run]
  rw [resolve, eq_run] at h
  refine ⟨?_, fun spares => ?_⟩
  · rcases Checker.run_withText (g.muffles_silenced how) n t with same | ⟨reason, lost⟩
    · exact ⟨r, by rw [same, h], .inl rfl⟩
    · exact ⟨.unresolved reason, by rw [lost, Option.getD_some], .inr ⟨reason, rfl⟩⟩
  · rw [Checker.run_withText_eq fun k u reach hk byText =>
      spares.text_eq reach (room k hk) byText, h]

def withoutOthers (id : Json) : Option Silence :=
  if id.alike (.string "users") then some .removed
  else if id.alike (.string "none") then some .emptied
  else none

def withoutUser (id : Json) : Option Silence :=
  if id.alike (.string "user") then some .removed else none

theorem step_maybeUsers : profileGraph.checker.step (.string "maybeUsers") =
    .ok (.through (.string "users")) := profile_maybeUsers.step_through (by decide)

theorem step_users : profileGraph.checker.step (.string "users") =
    .ok (.element (.string "user")) := Checker.step_array (by rfl) (by cbv)

theorem step_user : profileGraph.checker.step (.string "user") =
    .ok (.answer (.descriptor (.ofString "User"))) := by rfl

theorem profile_spares : profileGraph.Spares withoutOthers none (.string "maybeUsers") := by
  have named : profileGraph.StringNamed := by simp [StringNamed, profileGraph]
  intro k u n reach _ hn
  obtain ⟨-, rfl, -⟩ := named.node?_eq_some hn
  generalize n.id = u at reach
  cases reach with
  | refl => exact .inl (by rfl)
  | element hs => cases step_maybeUsers.symm.trans hs
  | through hs reach =>
    cases step_maybeUsers.symm.trans hs
    cases reach with
    | refl => exact .inr (by rfl)
    | through hs => cases step_users.symm.trans hs
    | element hs reach =>
      cases step_users.symm.trans hs
      cases reach with
      | refl => exact .inl (by rfl)
      | element hs => cases step_user.symm.trans hs
      | through hs => cases step_user.symm.trans hs

/-- The optional list of the profile keeps its descriptor when the list and the type `undefined`
have no text. A user without a text has no descriptor. -/
theorem resolve_profile_silenced :
    profileGraph.resolve none (.string "maybeUsers") = .ok (.descriptor (.ofString "[User]")) ∧
    profileGraph.Spares withoutOthers none (.string "maybeUsers") ∧
    (profileGraph.silenced withoutOthers).resolve none (.string "maybeUsers") =
      .ok (.descriptor (.ofString "[User]")) ∧
    profileGraph.resolve (some 0) (.string "user") = .ok (.descriptor (.ofString "User")) ∧
    (profileGraph.silenced withoutUser).resolve (some 0) (.string "user") =
      .ok (.unresolved "render failed: Type user has no textual representation") := by
  have found : profileGraph.resolve none (.string "maybeUsers") =
      .ok (.descriptor (.ofString "[User]")) :=
    resolve_of_ends (.through step_maybeUsers (.element step_users (.answer step_user)))
  have kept : (profileGraph.silenced withoutOthers).resolve none (.string "maybeUsers") =
      .ok (.descriptor (.ofString "[User]")) := (resolve_silenced found).2 profile_spares
  have user : profileGraph.resolve (some 0) (.string "user") =
      .ok (.descriptor (.ofString "User")) := by
    rw [resolve, Checker.resolve_some_eq_run]
    rfl
  have silent : (profileGraph.silenced withoutUser).resolve (some 0) (.string "user") =
      .ok (.unresolved "render failed: Type user has no textual representation") := by
    rw [resolve, Checker.resolve_some_eq_run]
    rfl
  exact ⟨found, profile_spares, kept, user, silent⟩

end TypeGraph

end PropertyMetadata
