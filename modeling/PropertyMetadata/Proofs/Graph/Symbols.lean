import PropertyMetadata.Proofs.Building.Acceptance
import PropertyMetadata.Proofs.Flags

/-! The flags of symbols in a schema. A record lists the names of the flags, the graph keeps them in
one text, and what is read from this text are the flags of the listed names: whatever else the
record holds, whatever names its node, and whatever other records the schema has, unless a later one
gives the node other flags. -/

namespace PropertyMetadata

open List (Forall₂)

namespace TypeGraph

variable {g : TypeGraph} {schema schema' id t : Json} {fields : List (String × Json)}
  {flags : List String} {before after : List Json} {ns : List Node}

/-- A record of a symbol that lists the names of flags and can be put into a graph. -/
structure SymbolRecord (fields : List (String × Json)) (id : Json) (flags : List String) :
    Prop where
  distinct : (fields.map (·.1)).Nodup
  named : ("id", id) ∈ fields
  category : ("category", .string "symbol") ∈ fields
  listed : ("flags", Json.ofStrings flags) ∈ fields
  proper : ∀ f ∈ fields, f.1 ∈ reserved → f.2 = .null
  scalar : id.isScalar = true
  present : id ≠ .null

/-- A record that says nothing of the flags of the node of a name: it has another name, or no flags
but null. -/
def LeavesFlags (id record : Json) : Prop :=
  ∀ other, record.required "id" = .ok other → other.alike id = true →
    ∀ f ∈ recordFields record, f.1 = "flags" → f.2 = .null

/-- The fields of a record that are neither its name nor null. -/
def keptFields (fields : List (String × Json)) : List (String × Json) :=
  fields.filter fun f => f.1 != "id" && match f.2 with | .null => false | _ => true

theorem mem_keptFields_iff {f : String × Json} :
    f ∈ keptFields fields ↔ f ∈ fields ∧ f.1 ≠ "id" ∧ f.2 ≠ .null := by
  obtain ⟨k, v⟩ := f
  cases v <;> simp [keptFields]

theorem nodup_keptFields (h : (fields.map (·.1)).Nodup) : ((keptFields fields).map (·.1)).Nodup :=
  h.sublist (List.filter_sublist.map _)

theorem recordAttributes_eq (fields : List (String × Json)) : recordAttributes fields =
    match Json.lookup (keptFields fields) "category" with
    | some _ => keptFields fields
    | none => keptFields fields ++ [("category", .string "type")] := rfl

/-- All attributes that a record gives to its node but the category stand in the record. -/
theorem exists_field_of_mem {attributes : List (String × Json)} {a : String × Json}
    (h : nodeAttributes id fields = .ok attributes) (ha : a ∈ attributes)
    (other : a.1 ≠ "category") :
    ∃ f ∈ fields, f.1 = a.1 ∧ f.2 ≠ .null := by
  have own {b : String × Json} (hb : b ∈ recordAttributes fields) (other : b.1 ≠ "category") :
      ∃ f ∈ fields, f.1 = b.1 ∧ f.2 ≠ .null := by
    have kept : b ∈ keptFields fields := by
      rw [recordAttributes_eq] at hb
      split at hb
      · exact hb
      · refine (List.mem_append.1 hb).resolve_right fun last => ?_
        exact other (congrArg Prod.fst (List.mem_singleton.1 last))
    obtain ⟨mem, -, present⟩ := mem_keptFields_iff.1 kept
    exact ⟨b, mem, rfl, present⟩
  have same (h : attributes = recordAttributes fields) : ∃ f ∈ fields, f.1 = a.1 ∧ f.2 ≠ .null :=
    own (h ▸ ha) other
  unfold nodeAttributes at h
  simp only at h
  split at h
  · obtain ⟨-, -, h⟩ := bind_eq_ok_iff.1 h
    split at h
    · exact same (Except.ok.inj h).symm
    · cases h
  · split at h
    · split at h
      next names found =>
        -- the list of flags becomes one text under the same name
        obtain ⟨text, -, h⟩ := bind_eq_ok_iff.1 h
        obtain rfl := Except.ok.inj h
        rcases Json.mem_of_mem_insert ha with rfl | ha
        · have list := own (Json.mem_of_lookup found) other
          exact list
        · exact own ha other
      next => exact same (Except.ok.inj h).symm
    · exact same (Except.ok.inj h).symm

/-! ### The node of a symbol -/

def symbolNode (id : Json) (fields : List (String × Json)) (flags : List String) : Node :=
  ⟨id, Json.insert (keptFields fields) "flags" (.string (",".intercalate flags))⟩

namespace SymbolRecord

variable (hr : SymbolRecord fields id flags)
include hr

theorem describes : DescribesNode (.object fields) (symbolNode id fields flags) where
  id := by simp [symbolNode, Json.required, Json.lookup_of_mem hr.distinct hr.named]
  attributes := by
    have kept {key : String} {value : Json} (h : (key, value) ∈ fields) (hk : key ≠ "id")
        (hv : value ≠ .null) : Json.lookup (keptFields fields) key = some value :=
      Json.lookup_of_mem (nodup_keptFields hr.distinct) (mem_keptFields_iff.2 ⟨h, hk, hv⟩)
    have category := kept hr.category (by decide) (by simp)
    have listed := kept hr.listed (by decide) (by simp [Json.ofStrings])
    have attributes : recordAttributes fields = keptFields fields := by
      rw [recordAttributes_eq, category]
    simp [symbolNode, nodeAttributes, recordFields, attributes, category, listed, Json.ofStrings,
      Json.alike_string, commaJoined_strings, bind, Except.bind, pure, Except.pure]
  proper := by
    intro a ha
    rcases Json.mem_of_mem_insert ha with rfl | ha
    · simp [reserved]
    · obtain ⟨mem, -, present⟩ := mem_keptFields_iff.1 ha
      exact fun clash => present (hr.proper a mem clash)
  scalar := hr.scalar
  present := hr.present

theorem tells (ht : id.alike t = true) :
    tells? t "flags" (symbolNode id fields flags) = some (.string (",".intercalate flags)) := by
  have distinct := Json.nodup_insert (nodup_keptFields hr.distinct) "flags"
    (.string (",".intercalate flags))
  rw [tells?, symbolNode, if_pos ht, updated_nil distinct, Json.lookup_insert, if_pos rfl]

end SymbolRecord

theorem LeavesFlags.tells {record : Json} {n : Node} (h : LeavesFlags t record)
    (hn : DescribesNode record n) : tells? t "flags" n = none := by
  rw [tells?]
  split
  next alike =>
    refine Option.eq_none_iff_forall_ne_some.2 fun v found => ?_
    have told := (mem_of_mem_updated (Json.mem_of_lookup found)).resolve_left List.not_mem_nil
    obtain ⟨f, hf, same, present⟩ := exists_field_of_mem hn.attributes told (by simp)
    exact present (h n.id hn.id alike f hf same)
  next => rfl

/-! ### Schemas -/

/-- The flags of a symbol in an accepted schema are read from the text of the names that its record
lists, unless a later record gives it others. -/
theorem flags_of_record (h : ofSchema schema = .ok g)
    (hn : records schema "nodes" = .ok (before ++ .object fields :: after))
    (hr : SymbolRecord fields id flags) (ht : id.alike t = true)
    (later : ∀ r ∈ after, LeavesFlags t r) :
    g.flags t = Flags.ofRecord (.string (",".intercalate flags)) := by
  obtain ⟨nodes, edges, ns, es, hn', -, hns, -, holds⟩ := holds_of_ofSchema h
  obtain rfl := Except.ok.inj (hn.symm.trans hn')
  obtain ⟨ns₁, _, rfl, -, hns⟩ := exists_append_of_forall₂ hns
  cases hns with
  | @cons _ n _ ns₂ own hns₂ =>
    obtain rfl := hr.describes.unique own
    have silent : ns₂.filterMap (tells? t "flags") = [] := by
      rw [List.filterMap_eq_nil_iff]
      intro m hm
      obtain ⟨record, mem, described⟩ := exists_of_forall₂ hns₂ m hm
      exact (later record mem).tells described
    have scalar : t.isScalar = true :=
      (Json.Interchangeable.of_alike (.inl hr.scalar) ht).scalar ▸ hr.scalar
    have told : g.told? t "flags" = some (.string (",".intercalate flags)) := by
      have same (ms : List Node) (hm : g.nodes = (ofNodes ms).nodes) :
          g.told? t "flags" = (ofNodes ms).told? t "flags" := by
        simp only [told?, node?, hm]
      rw [same _ holds.nodes, told?_ofNodes scalar, List.filterMap_append, List.filterMap_cons,
        hr.tells ht, silent, List.getLast?_concat]
    have declared : g.has t = true := by
      obtain ⟨n, hn, -⟩ := Option.bind_eq_some_iff.1 told
      exact Option.isSome_iff_exists.2 ⟨n, hn⟩
    rw [flags_eq_told declared, told, Option.getD_some]

/-- The record of a symbol can be put between the records of any accepted schema. -/
theorem exists_ofSchema_insert (h : ofSchema schema = .ok g)
    (hn : records schema "nodes" = .ok (before ++ after))
    (hn' : records schema' "nodes" = .ok (before ++ .object fields :: after))
    (he : records schema' "edges" = records schema "edges") (hr : SymbolRecord fields id flags) :
    ∃ g', ofSchema schema' = .ok g' := by
  obtain ⟨nodes, edges, ns, es, hn₀, he₀, hns, hes, holds⟩ := holds_of_ofSchema h
  obtain rfl := Except.ok.inj (hn.symm.trans hn₀)
  obtain ⟨ns₁, ns₂, rfl, hns₁, hns₂⟩ := exists_append_of_forall₂ hns
  have more (x : Json) (hx : g.has x = true) :
      (ofNodes (ns₁ ++ symbolNode id fields flags :: ns₂)).has x = true := by
    have scalar := isScalar_of_has hx
    rw [← holds.has_eq, has_ofNodes_eq scalar, List.any_append, Bool.or_eq_true] at hx
    rw [has_ofNodes_eq scalar, List.any_append, List.any_cons, Bool.or_eq_true, Bool.or_eq_true]
    exact hx.imp_right .inr
  obtain ⟨g', hg', -⟩ := exists_holds hn' (he.trans he₀)
    (List.rel_append hns₁ (.cons hr.describes hns₂))
    (hes.imp fun _ _ described => described.mono more)
  exact ⟨g', hg'⟩

/-- Names are refused if one of them spells no flag, and else have the bits of all flags that they
spell. So names from two lists have the flags of either list, and neither their order nor how often
they occur counts. Names that are accepted have the same flags when the record of a symbol lists
them, and any schema that is accepted is so with this record as well. -/
theorem stored_flags (L : List String) :
    ((∃ e, Flags.ofNames L = .error e) ↔ ∃ n ∈ L, ∀ f, ¬ Flags.Spells n f) ∧
    (∀ F, Flags.ofNames L = .ok F ↔
      ∃ fs, Forall₂ Flags.Spells L fs ∧ F = fs.foldr Flags.union Flags.none) ∧
    (∀ M, Flags.ofNames (L ++ M) = do
      let f ← Flags.ofNames L
      return f.union (← Flags.ofNames M)) ∧
    (∀ M F, (∀ n, n ∈ L ↔ n ∈ M) → (Flags.ofNames L = .ok F ↔ Flags.ofNames M = .ok F)) ∧
    ∀ F, Flags.ofNames L = .ok F → ∀ id fields, SymbolRecord fields id L → ∀ before after,
      (∀ plain schema g, ofSchema plain = .ok g → records plain "nodes" = .ok (before ++ after) →
        records schema "nodes" = .ok (before ++ .object fields :: after) →
        records schema "edges" = records plain "edges" → ∃ g', ofSchema schema = .ok g') ∧
      ∀ schema g, ofSchema schema = .ok g →
        records schema "nodes" = .ok (before ++ .object fields :: after) →
        ∀ t, id.alike t = true → (∀ r ∈ after, LeavesFlags t r) → g.checker.flags t = .ok F := by
  refine ⟨Flags.ofNames_eq_error_iff, fun F => Flags.ofNames_eq_ok_iff, Flags.ofNames_append L,
    fun M F same => Flags.ofNames_congr same, fun F hF id fields hr before after => ⟨?_, ?_⟩⟩
  · intro plain schema g h hn hn' he
    exact exists_ofSchema_insert h hn hn' he hr
  · intro schema g h hn t ht later
    exact (flags_of_record h hn hr ht later).trans ((Flags.ofRecord_intercalate hF).trans hF)

/-! ### The symbol of a color -/

def redFlags : List String := ["EnumMember", "property", "EnumMember"]

def redFields : List (String × Json) := [
  ("id", .string "red"), ("name", .string "Red"), ("category", .string "symbol"),
  ("flags", Json.ofStrings redFlags)]

def redBefore : List Json :=
  [.object [("id", .string "color"), ("kind", .string "enum"), ("text", .string "Color")]]

def redAfter : List Json :=
  [.object [("id", .string "red"), ("name", .string "RED"), ("category", .string "symbol"),
    ("flags", .null)]]

def redEdges : List Json := [
  .object [("from", .string "red"), ("to", .string "color"), ("relation", .string "declared_type")]]

def redSchema (nodes : List Json) : Json :=
  .object [("nodes", .array nodes), ("edges", .array redEdges)]

def redGraph (attributes : List (String × Json)) : TypeGraph where
  directed := true
  nodes := [
    ⟨.string "color",
      [("kind", .string "enum"), ("text", .string "Color"), ("category", .string "type")]⟩,
    ⟨.string "red", attributes⟩]
  edges := [
    ⟨.string "red", .string "color", .int 0, some (.string "declared_type"), some (.int 0)⟩]

theorem ofSchema_red_plain : ofSchema (redSchema (redBefore ++ redAfter)) =
    .ok (redGraph [("name", .string "RED"), ("category", .string "symbol")]) := rfl

theorem ofSchema_red : ofSchema (redSchema (redBefore ++ .object redFields :: redAfter)) =
    .ok (redGraph [("name", .string "RED"), ("category", .string "symbol"),
      ("flags", .string "EnumMember,property,EnumMember")]) := rfl

theorem stored_flags_red :
    Flags.ofNames redFlags = .ok ⟨6⟩ ∧ SymbolRecord redFields (.string "red") redFlags ∧
    (∀ n, n ∈ redFlags ↔ n ∈ ["property", "EnumMember"]) ∧
    Flags.ofNames ["property", "EnumMember"] = .ok ⟨6⟩ ∧
    (∃ g, ofSchema (redSchema (redBefore ++ .object redFields :: redAfter)) = .ok g) ∧
    (redGraph [("name", .string "RED"), ("category", .string "symbol"),
      ("flags", .string "EnumMember,property,EnumMember")]).checker.flags (.string "red") =
        .ok ⟨6⟩ := by
  have member : Flags.Spells "EnumMember" ⟨4⟩ := .words (by decide +kernel) (by decide +kernel)
  have property : Flags.Spells "property" ⟨2⟩ := .words (by decide +kernel) (by decide +kernel)
  have accepted : Flags.ofNames redFlags = .ok ⟨6⟩ :=
    Flags.ofNames_eq_ok_iff.2 ⟨_, .cons member (.cons property (.cons member .nil)), rfl⟩
  have symbol : SymbolRecord redFields (.string "red") redFlags := by
    constructor <;> simp [redFields, reserved, Json.isScalar]
  have same : ∀ n, n ∈ redFlags ↔ n ∈ ["property", "EnumMember"] := by
    intro n
    simp [redFlags]
    tauto
  have later : ∀ r ∈ redAfter, LeavesFlags (.string "red") r := by
    intro r hr other _ _ f hf key
    obtain rfl := List.mem_singleton.1 hr
    simp only [recordFields, List.mem_cons, List.not_mem_nil, or_false] at hf
    rcases hf with rfl | rfl | rfl | rfl <;> simp_all
  obtain ⟨-, -, -, congr, stored⟩ := stored_flags redFlags
  obtain ⟨insert, read⟩ := stored ⟨6⟩ accepted (.string "red") redFields symbol redBefore redAfter
  exact ⟨accepted, symbol, same, (congr _ _ same).1 accepted,
    insert _ _ _ ofSchema_red_plain rfl rfl rfl,
    read _ _ ofSchema_red rfl _ (Json.alike_string_self _) later⟩

end TypeGraph

end PropertyMetadata
