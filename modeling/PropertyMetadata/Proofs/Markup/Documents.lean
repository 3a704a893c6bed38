import PropertyMetadata.Proofs.Markup.Tags

/-! Documents, read as they were written. Every token of the content of an element leads from one
stack of open elements to another; the tokens of a printed element lead from the element around it
to that element with one more child. So a printed document is read as the element that it was
printed from. -/

namespace PropertyMetadata.Markup

open List (Forall₂)

variable {c : Char} {cs rest after : List Char} {top : Open} {outer : List Open} {e whole : Element}
  {sp : String}

/-- A text that documents keep: of characters that stand in documents, but for the carriage return,
which is read as the end of a line. -/
def Clean (s : String) : Prop := ∀ c ∈ s.toList, isLegal c = true ∧ c ≠ '\r'

instance (s : String) : Decidable (Clean s) := List.decidableBAll _ s.toList

/-- A stack of open elements and the text before it lead to a complete element and what follows
it. -/
def Reads (top : Open) (outer : List Open) (cs : List Char) (e : Element) (rest : List Char) :
    Prop := ∀ fuel, cs.length < fuel → content fuel top outer cs = .ok (e, rest)

theorem Reads.step {top' : Open} {outer' : List Open}
    (h : contentStep top outer cs = .ok (.inside top' outer', after))
    (shorter : after.length < cs.length) (later : Reads top' outer' after e rest) :
    Reads top outer cs e rest := by
  intro fuel enough
  obtain ⟨fuel, rfl⟩ := Nat.exists_eq_succ_of_ne_zero (Nat.ne_zero_of_lt enough)
  rw [content, h]
  exact later fuel (by omega)

theorem Reads.last (h : contentStep top outer cs = .ok (.complete e, rest)) :
    Reads top outer cs e rest := by
  intro fuel enough
  obtain ⟨fuel, rfl⟩ := Nat.exists_eq_succ_of_ne_zero (Nat.ne_zero_of_lt enough)
  rw [content, h]
  rfl

/-! ### Tokens -/

theorem contentStep_char (amp : c ≠ '&') (lt : c ≠ '<') (legal : isLegal c = true) (cr : c ≠ '\r')
    (closing : ∀ cs', c :: cs ≠ ']' :: ']' :: '>' :: cs') :
    contentStep top outer (c :: cs) = .ok (.inside (top.addChar c) outer, cs) := by
  unfold contentStep
  split
  all_goals first
    | rfl
    | simp_all

theorem text_ne_bracket (cs tail cs' : List Char) :
    cs.flatMap textChar ++ '<' :: tail ≠ '>' :: cs' := by
  intro h
  cases cs with
  | nil => cases h
  | cons c cs =>
    rw [List.flatMap_cons] at h
    rcases textChar_cases c with ⟨same, -, -, gt⟩ | ⟨w, same, -⟩ <;> rw [same] at h
    · exact gt (List.cons.inj h).1
    · cases h

theorem text_ne_closing (cs tail cs' : List Char) :
    cs.flatMap textChar ++ '<' :: tail ≠ ']' :: '>' :: cs' := by
  intro h
  cases cs with
  | nil => cases h
  | cons c cs =>
    rw [List.flatMap_cons] at h
    rcases textChar_cases c with ⟨same, -⟩ | ⟨w, same, -⟩ <;> rw [same] at h
    · exact text_ne_bracket cs tail cs' (List.cons.inj h).2
    · cases h

/-- A reference in text counts as the character that it refers to. -/
theorem contentStep_reference {ds : List Char} (h : IsReference ds c) (rest : List Char) :
    contentStep top outer (ds ++ rest) = .ok (.inside (top.addChar c) outer, rest) := by
  obtain ⟨w, rfl, refers⟩ := h
  have shape : '&' :: w ++ [';'] ++ rest = '&' :: (w ++ ';' :: rest) := by simp
  obtain ⟨p, read, hp⟩ := refers ('&' :: (w ++ ';' :: rest)) rest
  rw [shape, contentStep]
  simp only [read, located, bind, Except.bind, hp.char_eq]
  rfl

/-- A name begins no other markup than an element. -/
theorem contentStep_start (top : Open) (outer : List Open) (cs : List Char)
    (hc : isNameStart c = true) : contentStep top outer ('<' :: c :: cs) = (do
      let (tag, rest) ← located ('<' :: c :: cs) (startTag (c :: cs))
      let o ← Open.ofTag top.scope ('<' :: c :: cs) tag
      if tag.isEmpty then return (completed (top :: outer) o.close, rest)
      else return (.inside o (top :: outer), rest)) := by
  have other (d : Char) (hd : isNameStart d = false) : c ≠ d := by
    rintro rfl
    rw [hc] at hd
    contradiction
  rw [contentStep]
  · exact fun _ h => other '/' (by decide) (List.cons.inj h).1
  · exact fun _ h => other '!' (by decide) (List.cons.inj h).1
  · exact fun _ h => other '!' (by decide) (List.cons.inj h).1
  · exact fun _ h => other '!' (by decide) (List.cons.inj h).1
  · exact fun _ h => other '?' (by decide) (List.cons.inj h).1

theorem contentStep_end {base : String} (hb : isName base.toList = true)
    (h : top.written = bare base) (rest : List Char) :
    contentStep top outer ('<' :: '/' :: (base.toList ++ '>' :: rest)) =
      .ok (completed outer top.close, rest) := by
  have named : endTag (base.toList ++ '>' :: rest) = .ok (bare base, rest) := by
    rw [endTag, writtenName_append hb (by decide) (by decide)]
    rfl
  rw [contentStep, named]
  simp only [located, bind, Except.bind, h]
  rfl

/-! ### Text -/

theorem addChars_eq (h : top.children = []) (cs : List Char) :
    top.addChars cs = { top with text := cs.reverse ++ top.text } := by
  induction cs generalizing top with
  | nil => rfl
  | cons c cs ih =>
    have added : top.addChar c = { top with text := c :: top.text } := by
      rw [Open.addChar, h]
      rfl
    rw [Open.addChars, List.foldl_cons, ← Open.addChars, added, ih (by exact h)]
    simp

/-- Text before markup counts for the element on top. -/
theorem Reads.text (clean : ∀ c ∈ cs, isLegal c = true ∧ c ≠ '\r')
    (later : Reads (top.addChars cs) outer ('<' :: after) e rest) :
    Reads top outer (cs.flatMap textChar ++ '<' :: after) e rest := by
  induction cs generalizing top with
  | nil => exact later
  | cons c cs ih =>
    obtain ⟨⟨legal, cr⟩, clean⟩ := List.forall_mem_cons.1 clean
    have others := ih clean later
    rw [List.flatMap_cons, List.append_assoc]
    rcases textChar_cases c with ⟨same, amp, lt, -⟩ | refers
    · rw [same, List.singleton_append]
      refine .step (contentStep_char amp lt legal cr ?_) (by simp) others
      intro cs' h
      exact text_ne_closing cs after cs' (List.cons.inj h).2
    · refine .step (contentStep_reference refers _) ?_ others
      obtain ⟨w, same, -⟩ := refers
      simp only [same, List.length_append, List.length_cons]
      omega

/-! ### Elements -/

/-- Elements of one namespace that can be written: names that are names, attributes without
namespace and under different names, and text that documents keep. -/
inductive Plain (sp : String) : Element → Prop
  | mk {base : String} {as : List (String × String)} {text : Option String}
    {children : List Element} : isName base.toList = true →
    (∀ a ∈ as, IsWritable a ∧ a.1 ≠ "xmlns") → (as.map (·.1)).Nodup →
    (∀ s, text = some s → s ≠ "" ∧ Clean s) → (∀ e ∈ children, Plain sp e) →
    Plain sp (.mk ⟨sp, base⟩ (as.map fun a => (⟨"", a.1⟩, a.2)) text children)

def inner (sp base : String) (text : Option String) (children : List Element) : List Char :=
  ((text.getD "").toList.flatMap textChar) ++ (printChildren sp children ++
    '<' :: '/' :: (base.toList ++ ['>']))

/-- The attributes of a tag: a namespace is declared unless it is the one around the element. -/
def declared (space sp : String) (as : List (String × String)) : List (String × String) :=
  if sp = space then as else ("xmlns", sp) :: as

/-- The text of an element: its start tag and, unless there is nothing in it, what follows that. -/
theorem printIn_eq (space sp base : String) (as : List (String × String)) (text : Option String)
    (children : List Element) (rest : List Char) :
    let isEmpty := ((text.getD "").toList.flatMap textChar ++ printChildren sp children).isEmpty
    printIn space (.mk ⟨sp, base⟩ (as.map fun a => (⟨"", a.1⟩, a.2)) text children) ++ rest =
      '<' :: (base.toList ++ (((declared space sp as).flatMap fun a => printedAttribute a.1 a.2) ++
        (tagEnd isEmpty ++ if isEmpty then rest else inner sp base text children ++ rest))) := by
  have attributes : (as.map fun a => ((⟨"", a.1⟩, a.2) : Name × String)).flatMap
      (fun a => printedAttribute a.1.base a.2) = as.flatMap fun a => printedAttribute a.1 a.2 := by
    rw [List.flatMap_map]
  simp only [printIn, tagEnd, inner, attributes, declared]
  split_ifs <;> simp

theorem printIn_head (space : String) (e : Element) : ∃ cs, printIn space e = '<' :: cs := by
  obtain ⟨name, as, text, children⟩ := e
  simp only [printIn]
  split <;> exact ⟨_, rfl⟩

theorem printChildren_head (sp : String) (es : List Element) (tail : List Char) :
    ∃ cs, printChildren sp es ++ '<' :: tail = '<' :: cs := by
  cases es with
  | nil => exact ⟨tail, rfl⟩
  | cons e es =>
    obtain ⟨cs, h⟩ := printIn_head sp e
    refine ⟨cs ++ printChildren sp es ++ '<' :: tail, ?_⟩
    rw [printChildren, h]
    simp

/-- An element is empty if nothing is written between its tags. -/
theorem empty_of_isEmpty {text : Option String} {children : List Element}
    (ht : ∀ s, text = some s → s ≠ "")
    (h : (text.getD "").toList.flatMap textChar ++ printChildren sp children = []) :
    text = none ∧ children = [] := by
  obtain ⟨none, nil⟩ := List.append_eq_nil_iff.1 h
  constructor
  · cases text with
    | none => rfl
    | some s =>
      cases hs : s.toList with
      | nil => exact absurd (String.toList_eq_nil_iff.1 hs) (ht s rfl)
      | cons c cs =>
        simp only [Option.getD_some, hs, List.flatMap_cons, List.append_eq_nil_iff] at none
        rcases textChar_cases c with ⟨same, -⟩ | ⟨w, same, -⟩ <;>
          simp [same] at none
  · cases children with
    | nil => rfl
    | cons e es =>
      obtain ⟨cs, h⟩ := printIn_head sp e
      rw [printChildren, h] at nil
      cases nil

/-- An element is read as a child of the element around it. -/
def IsChild (sp : String) (e : Element) : Prop :=
  ∀ {top : Open} {outer : List Open} {rest after : List Char} {whole : Element},
    top.scope.find? none = some sp → Reads (top.addChild e) outer rest whole after →
      Reads top outer (printIn sp e ++ rest) whole after

theorem Reads.children {es : List Element} (h : ∀ e ∈ es, IsChild sp e)
    (scope : top.scope.find? none = some sp)
    (later : Reads (es.foldl Open.addChild top) outer rest whole after) :
    Reads top outer (printChildren sp es ++ rest) whole after := by
  induction es generalizing top with
  | nil => exact later
  | cons e es ih =>
    obtain ⟨he, hes⟩ := List.forall_mem_cons.1 h
    rw [printChildren, List.append_assoc]
    exact he scope (ih hes scope later)

theorem foldl_addChild (top : Open) (es : List Element) :
    es.foldl Open.addChild top = { top with children := es.reverse ++ top.children } := by
  induction es generalizing top with
  | nil => rfl
  | cons e es ih =>
    rw [List.foldl_cons, ih]
    simp [Open.addChild]

/-- What stands between the tags of an element makes up the element that its end tag completes. -/
theorem Reads.inner {base : String} {text : Option String} {children : List Element}
    (ht : ∀ s, text = some s → s ≠ "" ∧ Clean s) (hc : ∀ e ∈ children, IsChild sp e)
    (scope : top.scope.find? none = some sp) (fresh : top.text = [] ∧ top.children = [])
    (later : ∀ o : Open, o.written = top.written →
      o.close = .mk top.name top.attributes text children →
        Reads o outer ('<' :: '/' :: (base.toList ++ '>' :: rest)) whole after) :
    Reads top outer (inner sp base text children ++ rest) whole after := by
  have clean : ∀ c ∈ (text.getD "").toList, isLegal c = true ∧ c ≠ '\r' := by
    cases text with
    | none => simp
    | some s => exact (ht s rfl).2
  obtain ⟨cs, head⟩ := printChildren_head sp children ('/' :: (base.toList ++ '>' :: rest))
  have shape : Markup.inner sp base text children ++ rest =
      (text.getD "").toList.flatMap textChar ++ '<' :: cs := by
    rw [← head]
    simp [Markup.inner]
  rw [shape]
  refine .text clean ?_
  rw [← head, addChars_eq fresh.2]
  refine .children hc scope ?_
  rw [foldl_addChild]
  refine later _ rfl ?_
  simp only [Open.close, fresh, List.append_nil, List.reverse_reverse, List.isEmpty_iff,
    List.reverse_eq_nil_iff]
  congr 1
  cases text with
  | none => rfl
  | some s => simp [(ht s rfl).1]

def begun (s : Scope) (sp base : String) (as : List (String × String)) : Open where
  written := bare base
  name := ⟨sp, base⟩
  attributes := as.map fun a => (⟨"", a.1⟩, a.2)
  scope := s

theorem ofTag_declared {s : Scope} {base space : String} {as : List (String × String)}
    {was : List WrittenAttribute} (token : List Char) (isEmpty : Bool)
    (scope : s.find? none = some space ∨ sp ≠ space) (others : ∀ a ∈ as, a.1 ≠ "xmlns")
    (distinct : (as.map (·.1)).Nodup)
    (h : Forall₂ (fun w a => w.Reads a.1 a.2) was (declared space sp as)) :
    Open.ofTag s token ⟨bare base, was, isEmpty⟩ =
      .ok (begun (if sp = space then s else (none, sp) :: s) sp base as) := by
  have unbound : as.filterMap binding = [] := by
    rw [List.filterMap_eq_nil_iff]
    intro a ha
    simp [binding, others a ha]
  have kept : as.filter (fun a => a.1 ≠ "xmlns") = as := by
    rw [List.filter_eq_self]
    intro a ha
    simp [others a ha]
  obtain rfl | same := eq_or_ne sp space
  · simp only [declared, if_true] at h ⊢
    rw [ofTag_eq token h distinct (by simpa [unbound] using scope), unbound, kept]
    rfl
  · simp only [declared, if_neg same] at h ⊢
    have absent : "xmlns" ∉ as.map (·.1) := by
      rw [List.mem_map]
      rintro ⟨a, ha, hx⟩
      exact others a ha hx
    have bound : (("xmlns", sp) :: as).filterMap binding = [(none, sp)] := by
      simp [binding, unbound]
    rw [ofTag_eq token h (List.nodup_cons.2 ⟨absent, distinct⟩) (by rw [bound]; rfl), bound,
      List.filter_cons_of_neg (by simp), kept]
    rfl

/-- The start tag of an element that can be written, read in a scope. -/
theorem exists_startTag {base : String} {as : List (String × String)} {text : Option String}
    (hb : isName base.toList = true) (ha : ∀ a ∈ as, IsWritable a ∧ a.1 ≠ "xmlns")
    (distinct : (as.map (·.1)).Nodup) (children : List Element)
    (ht : ∀ s, text = some s → s ≠ "") {s : Scope} {space : String}
    (scope : s.find? none = some space ∨ sp ≠ space)
    (legal : ∀ c ∈ sp.toList, isLegal c = true) (rest : List Char) :
    ∃ tag d tail behind, printIn space
        (.mk ⟨sp, base⟩ (as.map fun a => (⟨"", a.1⟩, a.2)) text children) ++ rest = '<' :: d :: tail ∧
      isNameStart d = true ∧ startTag (d :: tail) = .ok (tag, behind) ∧
      behind.length ≤ tail.length ∧
      (∀ token, Open.ofTag s token tag =
        .ok (begun (if sp = space then s else (none, sp) :: s) sp base as)) ∧
      ((tag.isEmpty = true ∧ behind = rest ∧ text = none ∧ children = []) ∨
        (tag.isEmpty = false ∧ behind = inner sp base text children ++ rest)) := by
  let isEmpty := ((text.getD "").toList.flatMap textChar ++ printChildren sp children).isEmpty
  let behind := if isEmpty then rest else inner sp base text children ++ rest
  have writable : ∀ a ∈ declared space sp as, IsWritable a := by
    intro a h
    simp only [declared] at h
    split at h
    · exact (ha a h).1
    · rcases List.mem_cons.1 h with rfl | h
      · exact ⟨(by decide : isName "xmlns".toList = true), legal⟩
      · exact (ha a h).1
  obtain ⟨was, reads, read⟩ := startTag_append hb writable isEmpty behind
  obtain ⟨d, ds, name, first, -⟩ := isName_iff.1 hb
  let tail := ds ++ (((declared space sp as).flatMap fun a => printedAttribute a.1 a.2) ++
    (tagEnd isEmpty ++ behind))
  rw [name, List.cons_append] at read
  have printed : printIn space
      (.mk ⟨sp, base⟩ (as.map fun a => (⟨"", a.1⟩, a.2)) text children) ++ rest =
        '<' :: d :: tail := by
    rw [printIn_eq, name]
    rfl
  have shorter : behind.length ≤ tail.length := by
    simp only [tail, List.length_append]
    omega
  refine ⟨⟨bare base, was, isEmpty⟩, d, tail, behind, printed, first, read, shorter, fun token =>
    ofTag_declared token isEmpty scope (fun a h => (ha a h).2) distinct reads, ?_⟩
  cases h : isEmpty with
  | true =>
    obtain ⟨none, nil⟩ := empty_of_isEmpty ht (List.isEmpty_iff.1 h)
    exact .inl ⟨rfl, if_pos h, none, nil⟩
  | false => exact .inr ⟨rfl, if_neg (by simp [h])⟩

/-- An element that can be written is read as a child of the element around it. -/
theorem Plain.isChild (legal : ∀ c ∈ sp.toList, isLegal c = true) (h : Plain sp e) :
    IsChild sp e := by
  induction h with
  | @mk base as text children hb ha distinct ht _ ih =>
    intro top outer rest after whole scope later
    obtain ⟨tag, d, tail, behind, printed, first, read, shorter, opened, ends⟩ :=
      exists_startTag hb ha distinct children (fun s hs => (ht s hs).1) (.inl scope)
        legal rest
    have step := contentStep_start top outer tail first
    simp only [read, located, bind, Except.bind, opened, if_true] at step
    rw [printed]
    rcases ends with ⟨empty, rfl, rfl, rfl⟩ | ⟨full, rfl⟩
    · rw [empty] at step
      refine .step step (by simp only [List.length_cons]; omega) later
    · rw [full] at step
      refine .step step (by simp only [List.length_cons]; omega) ?_
      refine .inner ht ih scope ⟨rfl, rfl⟩ fun o written closed => ?_
      refine .step (contentStep_end hb written rest) (by simp; omega) ?_
      rw [closed]
      exact later

/-! ### Documents -/

def header : List Char := "<?xml version='1.0' encoding='utf-8'?>\n".toList

theorem instruction_header (cs : List Char) :
    instruction (header.drop 2 ++ cs) = .ok ("xml".toList, '\n' :: cs) := by
  rfl

theorem declaration_header (cs : List Char) : declaration (header ++ cs) = .ok ('\n' :: cs) := by
  have opens : ("<?xml".toList.isPrefixOf (header ++ cs) &&
      ((header ++ cs).drop 5).head?.any isGap) = true := rfl
  have behind : (header ++ cs).drop 2 = header.drop 2 ++ cs := rfl
  have inside : ((header ++ cs).drop 5).take
      ((header ++ cs).length - 5 - ('\n' :: cs).length - 2) = (header.drop 5).take 31 := by
    rw [show (header ++ cs).length - 5 - ('\n' :: cs).length - 2 = 31 by
      rw [List.length_append, show header.length = 39 from rfl, List.length_cons]; omega]
    rfl
  unfold declaration
  dsimp only
  rw [show "<?xml".toList.length = 5 from rfl, if_pos opens, behind, instruction_header]
  simp only [located, bind, Except.bind, inside]
  rfl

theorem prologue_name (hc : isNameStart c = true) (fuel : Nat) (kindKnown : Bool) :
    prologue (fuel + 1) kindKnown ('<' :: c :: cs) = .ok ('<' :: c :: cs) := by
  have other (d : Char) (hd : isNameStart d = false) : c ≠ d := by
    rintro rfl
    rw [hc] at hd
    contradiction
  rw [prologue, if_pos hc]
  · exact fun _ h => absurd h (other '!' (by decide))
  · exact other '!' (by decide)
  · exact other '?' (by decide)

theorem parse_eq_ok {s : String} (text : s.toList = '<' :: cs)
    (h : document ('<' :: cs) = .ok e) : parse s = .ok e := by
  rw [parse, text]
  simp [h]

/-- A printed document is read as the element that it was printed from. -/
theorem parse_print (legal : ∀ c ∈ sp.toList, isLegal c = true) (space : sp ≠ "")
    (h : Plain sp e) : parse (print e) = .ok e := by
  cases h with
  | @mk base as text children hb ha distinct ht hc =>
    obtain ⟨tag, d, tail, behind, printed, first, read, -, opened, ends⟩ :=
      exists_startTag hb ha distinct children (fun s hs => (ht s hs).1)
        (s := .outermost) (.inr space) legal []
    rw [List.append_nil] at printed
    let e : Element := .mk ⟨sp, base⟩ (as.map fun a => (⟨"", a.1⟩, a.2)) text children
    have start (fuel : Nat) : prologue (fuel + 2) false ('\n' :: printIn "" e) =
        .ok ('<' :: d :: tail) := by
      show prologue (fuel + 1) false (printIn "" e) = _
      rw [printed]
      exact prologue_name first fuel false
    have whole : document (header ++ printIn "" e) = .ok e := by
      have long : (header ++ printIn "" e).length + 1 = (header ++ printIn "" e).length - 1 + 2 := by
        rw [List.length_append, show header.length = 39 from rfl]
        omega
      rw [document, declaration_header, long]
      simp only [bind, Except.bind, start, List.drop_one, List.tail_cons, read, located, opened,
        if_neg space]
      rcases ends with ⟨empty, rfl, rfl, rfl⟩ | ⟨full, rfl⟩
      · rw [empty]
        rfl
      · have inside : Reads (begun ((none, sp) :: Scope.outermost) sp base as) []
            (inner sp base text children ++ []) e [] := by
          refine .inner ht (fun e he => (hc e he).isChild legal) rfl ⟨rfl, rfl⟩
            fun o written closed => .last ?_
          rw [contentStep_end hb written [], closed]
          rfl
        rw [full]
        rw [inside _ (Nat.lt_succ_self _)]
        rfl
    exact parse_eq_ok (s := print e) String.toList_ofList whole

end PropertyMetadata.Markup
