import PropertyMetadata.Proofs.Json.Scalars

/-! JSON that was printed, read again. A value without doubles, in whose objects every key stands
once, is read from its own text, however its parts are set apart by blanks. -/

namespace PropertyMetadata.Json

open Number Text

variable {cs rest : List Char} {layout : Layout} {x : Json}

/-! ### Blanks -/

theorem skip_append {bs : List Char} (blank : ∀ c ∈ bs, isSpace c = true) (cs : List Char) :
    skip (bs ++ cs) = skip cs := by
  rw [skip, List.dropWhile_append_of_pos blank, ← skip]

theorem skip_cons {c : Char} (h : isSpace c = false) (cs : List Char) :
    skip (c :: cs) = c :: cs := by
  rw [skip, List.dropWhile_cons_of_neg (by simp [h])]

/-- A layout that sets parts apart by blanks, and by one comma between two of them. -/
structure Layout.Loose (layout : Layout) : Prop where
  opening : ∀ n, ∀ c ∈ (layout.opening n).toList, isSpace c = true
  between : ∀ n, ∃ bs, (layout.between n).toList = ',' :: bs ∧ ∀ c ∈ bs, isSpace c = true
  closing : ∀ n, ∀ c ∈ (layout.closing n).toList, isSpace c = true

theorem Layout.loose_indented : Layout.indented.Loose := by
  have blank (n : Nat) : ∀ c ∈ (indentation n).toList, isSpace c = true := by
    rw [indentation, String.toList_ofList, List.forall_mem_cons]
    exact ⟨by decide, fun c hc => (List.eq_of_mem_replicate hc) ▸ by decide⟩
  refine ⟨blank, fun n => ⟨(indentation n).toList, ?_, blank n⟩, fun n => blank _⟩
  exact String.toList_append

/-- What closes a list of parts is no part of a number. -/
theorem Layout.Loose.closes (loose : layout.Loose) (n : Nat) {c : Char} (hc : c = ']' ∨ c = '\x7d')
    (cs : List Char) : Closes ((layout.closing n).toList ++ c :: cs) := by
  intro d hd
  cases closing : (layout.closing n).toList with
  | nil =>
    rw [closing] at hd
    obtain rfl := Option.some.inj hd
    exact .inr (.inr hc)
  | cons b bs =>
    rw [closing] at hd
    obtain rfl := Option.some.inj hd
    exact .inl (loose.closing n b (closing ▸ List.mem_cons_self))

theorem Layout.Loose.closes_between (loose : layout.Loose) (n : Nat) (cs : List Char) :
    Closes ((layout.between n).toList ++ cs) := by
  obtain ⟨bs, between, -⟩ := loose.between n
  rw [between]
  intro d hd
  obtain rfl := Option.some.inj hd
  exact .inr (.inl rfl)

/-! ### Values -/

/-- A value without doubles, in whose objects every key stands once. -/
inductive Plain : Json → Prop
  | null : Plain .null
  | bool (b : Bool) : Plain (.bool b)
  | int (i : Int) : Plain (.int i)
  | string (s : String) : Plain (.string s)
  | array {xs : List Json} (items : ∀ x ∈ xs, Plain x) : Plain (.array xs)
  | object {fs : List (String × Json)} (distinct : (fs.map (·.1)).Nodup)
      (values : ∀ f ∈ fs, Plain f.2) : Plain (.object fs)

/-- A text that begins with a character that is no blank or byte order mark and closes no array or
object. -/
def Begins (s : String) : Prop :=
  ∃ c cs, s.toList = c :: cs ∧ isSpace c = false ∧ c ≠ '\ufeff' ∧ c ≠ ']' ∧ c ≠ '\x7d'

theorem Begins.append {s : String} (h : Begins s) (t : String) : Begins (s ++ t) := by
  obtain ⟨c, cs, text, visible⟩ := h
  exact ⟨c, cs ++ t.toList, by rw [String.toList_append, text, List.cons_append], visible⟩

theorem Begins.skip {s : String} (h : Begins s) (rest : List Char) :
    skip (s.toList ++ rest) = s.toList ++ rest := by
  obtain ⟨c, cs, text, visible, -⟩ := h
  rw [text, List.cons_append, skip_cons visible]

theorem Begins.length_pos {s : String} (h : Begins s) : 0 < s.toList.length := by
  obtain ⟨c, cs, text, -⟩ := h
  simp [text]

theorem begins_printedString (s : String) : Begins (printedString s) :=
  ⟨'"', _, toList_printedString s, by decide, by decide, by decide, by decide⟩

theorem Plain.begins (h : x.Plain) (layout : Layout) (level : Nat) :
    Begins (printAt layout level x) := by
  have digit {c : Char} (hc : c.isDigit = true) : isSpace c = false ∧ c ≠ '\ufeff' ∧
      c ≠ ']' ∧ c ≠ '\x7d' := by
    simp only [isSpace, Bool.or_eq_false_iff, beq_eq_false_iff_ne, and_assoc]
    refine ⟨?_, ?_, ?_, ?_, ?_, ?_, ?_⟩ <;> rintro rfl <;> cases hc
  cases h with
  | null => exact ⟨'n', _, by rw [printAt]; rfl, by decide, by decide, by decide, by decide⟩
  | bool b =>
    cases b with
    | false => exact ⟨'f', _, by rw [printAt]; rfl, by decide, by decide, by decide, by decide⟩
    | true => exact ⟨'t', _, by rw [printAt]; rfl, by decide, by decide, by decide, by decide⟩
  | int i =>
    obtain ⟨d, ds, digits, isDigit⟩ := exists_digitsOf i
    rw [Begins, printAt, toList_toString]
    split
    · exact ⟨'-', _, rfl, by decide, by decide, by decide, by decide⟩
    · exact ⟨d, ds, digits, digit isDigit⟩
  | string s =>
    rw [printAt]
    exact begins_printedString s
  | @array xs items =>
    have bracket : Begins "[" := ⟨'[', [], rfl, by decide, by decide, by decide, by decide⟩
    cases xs with
    | nil => exact bracket.append "]"
    | cons x xs => simpa only [printAt, String.append_assoc] using bracket.append _
  | @object fs distinct values =>
    have brace : Begins "\x7b" := ⟨'\x7b', [], rfl, by decide, by decide, by decide, by decide⟩
    cases fs with
    | nil => exact brace.append "\x7d"
    | cons f fs => simpa only [printAt, String.append_assoc] using brace.append _

theorem begins_printItems {xs : List Json} (hne : xs ≠ []) (plain : ∀ x ∈ xs, x.Plain)
    (layout : Layout) (level : Nat) : Begins (printItems layout level xs) := by
  obtain ⟨x, xs, rfl⟩ := List.exists_cons_of_ne_nil hne
  have first := (plain x List.mem_cons_self).begins layout (level + 1)
  cases xs with
  | nil => rwa [printItems]
  | cons y xs => simpa only [printItems, String.append_assoc] using first.append _

theorem begins_printFields {fs : List (String × Json)} (hne : fs ≠ []) (layout : Layout)
    (level : Nat) : Begins (printFields layout level fs) := by
  obtain ⟨⟨key, x⟩, fs, rfl⟩ := List.exists_cons_of_ne_nil hne
  cases fs with
  | nil => simpa only [printFields, String.append_assoc] using (begins_printedString key).append _
  | cons f fs =>
    simpa only [printFields, String.append_assoc] using (begins_printedString key).append _

/-- A value is read from its text with enough fuel, whatever closes it. -/
def Reads (layout : Layout) (x : Json) : Prop :=
  ∀ fuel level rest, 2 * (printAt layout level x).toList.length ≤ fuel → Closes rest →
    readValue fuel ((printAt layout level x).toList ++ rest) = .ok (x, rest)

/-! ### Arrays and objects -/

theorem skip_closing (loose : layout.Loose) (level : Nat) {c : Char} (hc : c = ']' ∨ c = '\x7d')
    (rest : List Char) : skip ((layout.closing level).toList ++ c :: rest) = c :: rest := by
  rw [skip_append (loose.closing level), skip_cons]
  rcases hc with rfl | rfl <;> decide

theorem Layout.Loose.skip_between (loose : layout.Loose) (level : Nat) {s : String} (h : Begins s) :
    ∃ bs, (∀ cs, skip ((layout.between level).toList ++ cs) = ',' :: (bs ++ cs)) ∧
      ∀ cs, skip (bs ++ (s.toList ++ cs)) = s.toList ++ cs := by
  obtain ⟨bs, between, blank⟩ := loose.between level
  exact ⟨bs, fun cs => between ▸ skip_cons (by decide) _,
    fun cs => (skip_append blank _).trans (h.skip cs)⟩

theorem readItems_last {fuel : Nat} {cs behind : List Char}
    (value : readValue fuel cs = .ok (x, behind))
    (closing : skip behind = ']' :: rest) : readItems (fuel + 1) cs = .ok ([x], rest) := by
  simp only [readItems, value, closing, bind, Except.bind]
  rfl

theorem readItems_more {fuel : Nat} {cs behind next : List Char} {xs : List Json}
    (value : readValue fuel cs = .ok (x, behind)) (comma : skip behind = ',' :: next)
    (more : readItems fuel (skip next) = .ok (xs, rest)) :
    readItems (fuel + 1) cs = .ok (x :: xs, rest) := by
  simp only [readItems, value, comma, more, bind, Except.bind]
  rfl

theorem readItems_printItems (loose : layout.Loose) {xs : List Json} (hne : xs ≠ [])
    (plain : ∀ x ∈ xs, x.Plain) (reads : ∀ x ∈ xs, x.Reads layout) {fuel level : Nat}
    (h : 2 * (printItems layout level xs).toList.length < fuel) (rest : List Char) :
    readItems fuel ((printItems layout level xs).toList ++
      ((layout.closing level).toList ++ ']' :: rest)) = .ok (xs, rest) := by
  induction xs generalizing fuel with
  | nil => exact absurd rfl hne
  | cons x xs ih =>
    obtain ⟨fuel, rfl⟩ := Nat.exists_eq_add_one_of_ne_zero (Nat.ne_of_gt (Nat.zero_lt_of_lt h))
    obtain ⟨plain_x, plain⟩ := List.forall_mem_cons.1 plain
    obtain ⟨read, reads⟩ := List.forall_mem_cons.1 reads
    cases xs with
    | nil =>
      rw [printItems] at h ⊢
      exact readItems_last (read fuel (level + 1) _ (by omega) (loose.closes level (.inl rfl) rest))
        (skip_closing loose level (.inl rfl) rest)
    | cons y ys =>
      obtain ⟨bs, comma, blank⟩ := loose.skip_between level
        (begins_printItems (List.cons_ne_nil y ys) plain layout level)
      simp only [printItems, String.toList_append, List.length_append, List.append_assoc] at h ⊢
      have long := (plain_x.begins layout (level + 1)).length_pos
      refine readItems_more (read fuel (level + 1) _ (by omega) (loose.closes_between level _))
        (comma _) ?_
      rw [blank]
      exact ih (List.cons_ne_nil y ys) plain reads (by omega)

theorem readFields_last {fuel : Nat} {before : List (String × Json)} (key : String)
    {cs behind : List Char} (value : readValue fuel (skip cs) = .ok (x, behind))
    (closing : skip behind = '\x7d' :: rest) :
    readFields (fuel + 1) before ((printedString key).toList ++ ':' :: cs) =
      .ok (insert before key x, rest) := by
  have string := readString_printed key (':' :: cs)
  rw [toList_printedString, List.cons_append] at string ⊢
  simp only [readFields, string, bind, Except.bind, skip_cons (show isSpace ':' = false by decide),
    value, closing]
  rfl

theorem readFields_more {fuel : Nat} {before : List (String × Json)} (key : String)
    {cs behind : List Char} (value : readValue fuel (skip cs) = .ok (x, behind))
    (comma : skip behind = ',' :: rest) :
    readFields (fuel + 1) before ((printedString key).toList ++ ':' :: cs) =
      readFields fuel (insert before key x) (skip rest) := by
  have string := readString_printed key (':' :: cs)
  rw [toList_printedString, List.cons_append] at string ⊢
  simp only [readFields, string, bind, Except.bind, skip_cons (show isSpace ':' = false by decide),
    value, comma]

theorem readFields_printFields (loose : layout.Loose) {fs before : List (String × Json)}
    (hne : fs ≠ []) (distinct : ((before ++ fs).map (·.1)).Nodup)
    (plain : ∀ f ∈ fs, f.2.Plain) (reads : ∀ f ∈ fs, f.2.Reads layout) {fuel level : Nat}
    (h : 2 * (printFields layout level fs).toList.length < fuel) (rest : List Char) :
    readFields fuel before ((printFields layout level fs).toList ++
      ((layout.closing level).toList ++ '\x7d' :: rest)) = .ok (before ++ fs, rest) := by
  induction fs generalizing fuel before with
  | nil => exact absurd rfl hne
  | cons f fs ih =>
    obtain ⟨fuel, rfl⟩ := Nat.exists_eq_add_one_of_ne_zero (Nat.ne_of_gt (Nat.zero_lt_of_lt h))
    obtain ⟨key, x⟩ := f
    obtain ⟨plain_x, plain⟩ := List.forall_mem_cons.1 plain
    obtain ⟨read, reads⟩ := List.forall_mem_cons.1 reads
    have new : insert before key x = before ++ [(key, x)] := by
      refine insert_of_not_mem ?_ x
      simp only [List.map_append, List.map_cons, List.nodup_append] at distinct
      exact fun old => distinct.2.2 key old key List.mem_cons_self rfl
    have value {behind : List Char} (closes : Closes behind)
        (enough : 2 * (printAt layout (level + 1) x).toList.length ≤ fuel) :
        readValue fuel (skip (' ' :: ((printAt layout (level + 1) x).toList ++ behind))) =
          .ok (x, behind) :=
      (congrArg _ ((plain_x.begins layout (level + 1)).skip behind)).trans
        (read fuel (level + 1) behind enough closes)
    have colon (cs : List Char) : ": ".toList ++ cs = ':' :: ' ' :: cs := rfl
    cases fs with
    | nil =>
      simp only [printFields, String.toList_append, List.length_append, List.append_assoc, colon,
        List.cons_append, List.length_cons] at h ⊢
      rw [readFields_last key (value (loose.closes level (.inr rfl) rest) (by omega))
        (skip_closing loose level (.inr rfl) rest), new]
    | cons g gs =>
      obtain ⟨bs, comma, blank⟩ := loose.skip_between level
        (begins_printFields (List.cons_ne_nil g gs) layout level)
      simp only [printFields, String.toList_append, List.length_append, List.append_assoc, colon,
        List.cons_append, List.length_cons] at h ⊢
      rw [readFields_more key (value (loose.closes_between level _) (by omega)) (comma _),
        blank, new, ih (List.cons_ne_nil g gs) (by simpa using distinct) plain reads (by omega),
        List.append_assoc]
      rfl

theorem Plain.reads_of_succ (h : x.Plain) (step : ∀ fuel level rest,
    2 * (printAt layout level x).toList.length ≤ fuel + 1 → Closes rest →
      readValue (fuel + 1) ((printAt layout level x).toList ++ rest) = .ok (x, rest)) :
    x.Reads layout := by
  intro fuel level rest enough closes
  have long := (h.begins layout level).length_pos
  obtain ⟨fuel, rfl⟩ := Nat.exists_eq_add_one_of_ne_zero (show fuel ≠ 0 by omega)
  exact step fuel level rest enough closes

theorem readValue_array {fuel : Nat} {xs : List Json} {s : String} (h : Begins s)
    (items : readItems fuel (s.toList ++ cs) = .ok (xs, rest)) (loose : layout.Loose) (level : Nat) :
    readValue (fuel + 1) ('[' :: ((layout.opening level).toList ++ (s.toList ++ cs))) =
      .ok (.array xs, rest) := by
  obtain ⟨c, front, text, visible, -, other, -⟩ := h
  rw [text, List.cons_append] at items ⊢
  rw [readValue, skip_append (loose.opening level), skip_cons visible]
  split
  next closed => exact absurd (List.cons.inj closed).1 other
  next => rw [items]; rfl

theorem readValue_object {fuel : Nat} {fs : List (String × Json)} {s : String} (h : Begins s)
    (fields : readFields fuel [] (s.toList ++ cs) = .ok (fs, rest)) (loose : layout.Loose)
    (level : Nat) :
    readValue (fuel + 1) ('\x7b' :: ((layout.opening level).toList ++ (s.toList ++ cs))) =
      .ok (.object fs, rest) := by
  obtain ⟨c, front, text, visible, -, -, other⟩ := h
  rw [text, List.cons_append] at fields ⊢
  rw [readValue, skip_append (loose.opening level), skip_cons visible]
  split
  next closed => exact absurd (List.cons.inj closed).1 other
  next => rw [fields]; rfl

/-- A value without doubles and with distinct keys is read from its text. -/
theorem Plain.reads (loose : layout.Loose) (h : x.Plain) : x.Reads layout := by
  induction h with
  | null =>
    refine Plain.null.reads_of_succ fun fuel level rest _ _ => ?_
    rw [printAt]
    exact readValue_null fuel rest
  | bool b =>
    refine (Plain.bool b).reads_of_succ fun fuel level rest _ _ => ?_
    rw [printAt]
    exact readValue_bool fuel b rest
  | int i =>
    refine (Plain.int i).reads_of_succ fun fuel level rest _ closes => ?_
    rw [printAt]
    exact readValue_int fuel i closes
  | string s =>
    refine (Plain.string s).reads_of_succ fun fuel level rest _ _ => ?_
    rw [printAt]
    exact readValue_string fuel s rest
  | @array xs items ih =>
    refine (Plain.array items).reads_of_succ fun fuel level rest enough closes => ?_
    cases xs with
    | nil =>
      rw [printAt]
      rfl
    | cons x xs =>
      have begins := begins_printItems (List.cons_ne_nil x xs) items layout level
      have bracket (cs : List Char) : "[".toList ++ cs = '[' :: cs := rfl
      have closing : "]".toList = [']'] := rfl
      simp only [printAt, String.toList_append, List.length_append, List.append_assoc, bracket,
        closing, List.length_cons, List.singleton_append] at enough ⊢
      exact readValue_array begins (readItems_printItems loose (List.cons_ne_nil x xs) items ih
        (by omega) rest) loose level
  | @object fs distinct values ih =>
    refine (Plain.object distinct values).reads_of_succ fun fuel level rest enough closes => ?_
    cases fs with
    | nil =>
      rw [printAt]
      rfl
    | cons f fs =>
      have begins := begins_printFields (List.cons_ne_nil f fs) layout level
      have brace (cs : List Char) : "\x7b".toList ++ cs = '\x7b' :: cs := rfl
      have closing : "\x7d".toList = ['\x7d'] := rfl
      simp only [printAt, String.toList_append, List.length_append, List.append_assoc, brace,
        closing, List.length_cons, List.singleton_append] at enough ⊢
      exact readValue_object begins (readFields_printFields loose (List.cons_ne_nil f fs) distinct
        values ih (by omega) rest) loose level

/-- What was printed, indented, is read as it was. -/
theorem Plain.parse_printIndented (h : x.Plain) : parse x.printIndented = .ok x := by
  have begins := h.begins .indented 1
  have read := h.reads Layout.loose_indented (2 * x.printIndented.toList.length + 2) 1 []
    (Nat.le_add_right _ 2) (fun c hc => nomatch hc)
  have start := begins.skip []
  obtain ⟨c, cs, text, -, mark, -⟩ := begins
  rw [List.append_nil] at read start
  simp only [parse, printIndented] at read start ⊢
  split
  next marked => exact absurd (List.cons.inj (text.symm.trans marked)).1 mark
  next =>
    rw [start, read]
    rfl

end PropertyMetadata.Json
