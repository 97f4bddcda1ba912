import WarehouseLoader.Proofs.Json.RoundTrip
import WarehouseLoader.Proofs.Schema.Refusal
import WarehouseLoader.Schema.Wire

/-!
# A schema survives its own text

The wire form of a schema is a description of the schema: in the order in which
it is written, and in the order of the names in which it is read back
(`describesAll_wire`). So a schema that came from a description comes back from
its text, through the walk and through the typed reading alike
(`ofText_text`).

The text must also be no deeper than the reader goes, and the wrapping makes it
deeper by one than a bare list of descriptors. It fits, because each level of
records takes two brackets, one for the list and one for the descriptor: a bare
list cannot use up an odd number of them (`Describes.layered`).
-/

namespace WarehouseLoader

open Json (Reading member? sortedItems itemDocuments)

namespace Field

/-- Records are inside of records no deeper than this. -/
inductive Layered : Nat → Field → Prop
  | scalar {depth name type mode} : Layered depth (.mk name type mode none)
  | record {depth name type mode fields} (hfields : ∀ f ∈ fields, Layered depth f) :
      Layered (depth + 1) (.mk name type mode (some fields))

variable {name : String} {type : FieldType} {mode : FieldMode} {fields : List Field}
  {members : List (String × Json)} {items : List Json} {item : Json}
    {f : Field} {depth : Nat}

/-! ### The wire form -/

theorem listToJson_eq_map : listToJson fields = fields.map toJson := by
  induction fields with
  | nil => rfl
  | cons f fields ih => rw [listToJson, ih, List.map_cons]

theorem forall_mem_listToJson {p : Json → Prop} :
    (∀ v ∈ listToJson fields, p v) ↔ ∀ f ∈ fields, p f.toJson := by
  rw [listToJson_eq_map, List.forall_mem_map]

theorem textual_toJson (h : Layered depth f) : f.toJson.Textual := by
  induction h with
  | scalar =>
      refine .object ?_
      simp only [List.forall_mem_append, List.forall_mem_cons]
      exact ⟨⟨.text, .text, .text, nofun⟩, nofun⟩
  | record hfields ih =>
      refine .object ?_
      simp only [List.forall_mem_append, List.forall_mem_cons]
      exact ⟨⟨.text, .text, .text, nofun⟩, .array (forall_mem_listToJson.mpr ih), nofun⟩

theorem within_toJson (h : Layered depth f) : f.toJson.Within (2 * depth + 1) := by
  induction h with
  | scalar =>
      refine .object ?_
      simp only [List.forall_mem_append, List.forall_mem_cons]
      exact ⟨⟨.text, .text, .text, nofun⟩, nofun⟩
  | record hfields ih =>
      refine .object ?_
      simp only [List.forall_mem_append, List.forall_mem_cons]
      exact ⟨⟨.text, .text, .text, nofun⟩, .array (forall_mem_listToJson.mpr ih), nofun⟩

/-! ### The typed reading -/

theorem ofName?_name : FieldType.ofName? type.name = some type := by
  cases type <;> rfl

theorem ofTag?_name : FieldMode.ofTag? mode.name = some mode := by
  cases mode <;> rfl

theorem mapM_read (h : ∀ f ∈ fields, read depth f.toJson.document = some f) :
    (itemDocuments (listToJson fields)).mapM (read depth) = some fields := by
  induction fields with
  | nil => rfl
  | cons f fields ih =>
      have hfields := ih fun other hother => h other (List.mem_cons_of_mem _ hother)
      rw [listToJson, itemDocuments, List.mapM_cons, h f List.mem_cons_self, hfields]
      rfl

theorem read_scalar : read (depth + 1) (mk name type mode none).toJson.document =
    some (.mk name type mode none) := by
  have hmembers : (mk name type mode none).toJson.document.record? memberNames (depth + 1) =
      some [("name", .text (some name)), ("type", .text (some type.name)),
        ("mode", .text (some mode.name))] := rfl
  rw [read, hmembers]
  simp [Reading.required, lookup_entry, Reading.text, Reading.name,
    ofName?_name, ofTag?_name]

theorem read_record : read (depth + 2) (mk name type mode (some fields)).toJson.document =
    ((itemDocuments (listToJson fields)).mapM (read depth)).map
      fun fs => .mk name type mode (some fs) := by
  have hmembers : (mk name type mode (some fields)).toJson.document.record? memberNames
      (depth + 2) = some [("name", .text (some name)), ("type", .text (some type.name)),
        ("mode", .text (some mode.name)),
        ("fields", .array (itemDocuments (listToJson fields)))] :=
    rfl
  rw [read, hmembers]
  simp [Reading.required, lookup_entry, Reading.text, Reading.name,
    ofName?_name, ofTag?_name]

theorem read_document {brackets : Nat} (h : Layered depth f)
    (hfit : 2 * depth + 1 ≤ brackets) : read brackets f.toJson.document = some f := by
  induction h generalizing brackets with
  | scalar =>
      obtain ⟨inner, rfl⟩ : ∃ inner, brackets = inner + 1 := ⟨brackets - 1, by omega⟩
      exact read_scalar
  | record hfields ih =>
      obtain ⟨inner, rfl⟩ : ∃ inner, brackets = inner + 2 := ⟨brackets - 2, by omega⟩
      rw [read_record, mapM_read fun f hf => ih f hf (by omega)]
      rfl

/-! ### The walk -/

theorem headed_of_wire (hnonempty : name ≠ "")
    (hname : member? members "name" = some (.text name))
    (htype : member? members "type" = some (.text type.name))
    (hmode : member? members "mode" = some (.text mode.name)) :
    Headed members name type mode :=
  ⟨⟨hname, hnonempty⟩, ⟨type.name, htype, by cases type <;> decide⟩,
    ⟨mode.name, hmode, by cases mode <;> decide⟩⟩

theorem DescribesAll.ne_nil_iff (h : DescribesAll items fields) :
    items ≠ [] ↔ fields ≠ [] := by
  cases h <;> simp

/-- The wire form of described columns describes them, as it is written and as
it is read back. -/
theorem describesAll_wire (h : DescribesAll items fields) :
    DescribesAll (listToJson fields) fields ∧
      DescribesAll (sortedItems (listToJson fields)) fields := by
  induction items using descriptors_induction generalizing fields with
  | nil =>
      cases h
      exact ⟨.nil, .nil⟩
  | cons item rest hinner ih =>
      cases h with
      | cons hitem hrest hnew =>
          obtain ⟨hwritten, hread⟩ := ih hrest
          cases hitem with
          | scalar hhead hscalar habsent =>
              have hnonempty := hhead.name.nonempty
              exact ⟨.cons (.scalar (headed_of_wire hnonempty rfl rfl rfl) hscalar rfl)
                  hwritten hnew,
                .cons (.scalar (headed_of_wire hnonempty rfl rfl rfl)
                  hscalar rfl) hread hnew⟩
          | record hhead hlist hsome hitems =>
              have hnonempty := hhead.name.nonempty
              have hcolumns := hitems.ne_nil_iff.mp hsome
              obtain ⟨hitemsWritten, hitemsRead⟩ := hinner _ _ rfl hlist hitems
              have hsomeWritten := hitemsWritten.ne_nil_iff.mpr hcolumns
              have hsomeRead := hitemsRead.ne_nil_iff.mpr hcolumns
              exact ⟨.cons (.record (headed_of_wire hnonempty rfl rfl rfl) rfl hsomeWritten
                  hitemsWritten) hwritten hnew,
                .cons (.record (headed_of_wire hnonempty rfl rfl rfl) rfl
                  hsomeRead hitemsRead)
                  hread hnew⟩

/-! ### The brackets of a description -/

theorem within_member? {value : Json} (hobject : (Json.object members).Within depth)
    (hmember : member? members name = some value) :
    ∃ inner, depth = inner + 1 ∧ value.Within inner := by
  cases hobject with
  | object hmembers =>
      obtain ⟨before, after, rfl, -⟩ := List.lookup_eq_some_iff.mp hmember
      exact ⟨_, rfl, hmembers (name, value) (by simp)⟩

theorem Describes.pos_of_within (h : Describes item f) (hwithin : item.Within depth) :
    0 < depth := by
  cases h <;> cases hwithin <;> exact Nat.succ_pos _

theorem DescribesAll.layered (h : DescribesAll items fields)
    (hwithin : ∀ item ∈ items, item.Within depth) :
    ∀ f ∈ fields, Layered ((depth - 1) / 2) f := by
  induction items using descriptors_induction generalizing fields depth with
  | nil =>
      cases h
      nofun
  | cons item rest hinner ih =>
      cases h with
      | cons hitem hrest hnew =>
          have hitemWithin := hwithin item List.mem_cons_self
          refine List.forall_mem_cons.mpr
            ⟨?_, ih hrest fun other hother => hwithin other (List.mem_cons_of_mem _ hother)⟩
          cases hitem with
          | scalar => exact .scalar
          | @record _ _ _ items fields hhead hlist hsome hitems =>
              obtain ⟨outer, rfl, hcolumns⟩ := within_member? hitemWithin hlist
              cases hcolumns with
              | @array inner _ hitemsWithin =>
                  have hlayered := hinner _ _ rfl hlist hitems hitemsWithin
                  have hpos : 0 < inner := by
                    cases hitems with
                    | nil => exact absurd rfl hsome
                    | cons hfirst =>
                        exact hfirst.pos_of_within (hitemsWithin _ List.mem_cons_self)
                  have hdepth : (inner + 1 + 1 - 1) / 2 = (inner - 1) / 2 + 1 := by omega
                  rw [hdepth]
                  exact .record hlayered

end Field

namespace TableSchema

open WarehouseLoader.Field (DescribesAll Layered)

variable {t : String} {s : TableSchema} {v : Json}

theorem ofText_eq_ok_iff :
    ofText t = .ok s ↔ ∃ v, Json.ofText? t = some v ∧ ofJson v = .ok s := by
  rw [ofText]
  cases Json.ofText? t with
  | none => simp
  | some v => simp

/-- With the brackets that the reader allows, 62 levels of records go into a
list of columns, and there is room for the object around it. -/
theorem layered_of_ofJson (h : ofJson v = .ok s) (hwithin : v.Within Json.maxDepth) :
    ∀ f ∈ s.fields, Layered 62 f := by
  obtain ⟨items, hlists, hitems⟩ := ofJson_eq_ok_iff.mp h
  cases hlists with
  | bare =>
      cases hwithin with
      | array hitemsWithin => exact hitems.layered hitemsWithin
  | wrapped hlist =>
      obtain ⟨inner, hinner, hcolumns⟩ := Field.within_member? hwithin hlist
      rw [Json.maxDepth] at hinner
      cases hcolumns with
      | @array depth _ hitemsWithin =>
          obtain rfl : depth = 125 := by omega
          exact hitems.layered hitemsWithin

section Wire

variable (h : ∀ f ∈ s.fields, Layered 62 f)
include h

theorem textual_toJson : s.toJson.Textual := by
  have hcolumns := Field.forall_mem_listToJson.mpr fun f hf => Field.textual_toJson (h f hf)
  exact .object (List.forall_mem_cons.mpr ⟨.array hcolumns, nofun⟩)

theorem within_toJson : s.toJson.Within Json.maxDepth := by
  have hcolumns := Field.forall_mem_listToJson.mpr fun f hf => Field.within_toJson (h f hf)
  exact .object (List.forall_mem_cons.mpr ⟨.array hcolumns, nofun⟩)

/-- The typed reading takes every schema back that fits. -/
theorem decode_text : decode s.text = .ok s := by
  have hcolumns : (Json.itemDocuments (Field.listToJson s.fields)).mapM (Field.read 125) =
      some s.fields := Field.mapM_read fun f hf => Field.read_document (h f hf) (by omega)
  have hread : read Json.maxDepth s.toJson.document = some s := by
    have hmembers : s.toJson.document.record? ["fields"] 127 =
        some [("fields", .array (Json.itemDocuments (Field.listToJson s.fields)))] := rfl
    rw [read, Json.maxDepth, Reading.record, hmembers]
    simp [Reading.required, Reading.list, hcolumns]
  rw [decode, text, Reading.ofText?, Json.documentOfText?_render (textual_toJson h),
    Option.bind_some, hread]

end Wire

/-- A schema that came from a description comes back from its text. -/
theorem ofText_text (h : ofText t = .ok s) :
    ofText s.text = .ok s ∧ ofJson s.toJson = .ok s ∧ decode s.text = .ok s := by
  obtain ⟨v, hread, hv⟩ := ofText_eq_ok_iff.mp h
  have hlayered := layered_of_ofJson hv (Json.within_of_ofText? hread)
  obtain ⟨items, -, hitems⟩ := ofJson_eq_ok_iff.mp hv
  obtain ⟨hwritten, hsorted⟩ := Field.describesAll_wire hitems
  refine ⟨ofText_eq_ok_iff.mpr ⟨s.toJson.sorted, ?_, ?_⟩, ?_, decode_text hlayered⟩
  · exact Json.ofText?_render (textual_toJson hlayered) (within_toJson hlayered)
  · exact ofJson_eq_ok_iff.mpr ⟨_, .wrapped rfl, hsorted⟩
  · exact ofJson_eq_ok_iff.mpr ⟨_, .wrapped rfl, hwritten⟩

/-- Names with what must be escaped, a date inside of a record, and no object
around the list. -/
theorem ofText_text_of_escaped :
    let t :=
      "[\x7b\"name\":\"café\",\"type\":\"RECORD\",\"mode\":\"REPEATED\",\"fields\":[" ++
      "\x7b\"name\":\"\\\"\\u0001\",\"type\":\"DATE\",\"mode\":\"REQUIRED\"\x7d]\x7d]"
    let s : TableSchema :=
      ⟨[.mk "café" .record .repeated (some [.mk "\"\x01" .timestamp .required none])]⟩
    ofText t = .ok s ∧ ofText s.text = .ok s ∧ ofJson s.toJson = .ok s ∧
      decode s.text = .ok s := by
  intro t s
  let date : Json :=
    .object [("name", .text "\"\x01"), ("type", .text "DATE"), ("mode", .text "REQUIRED")]
  let v : Json := .array [.object [("name", .text "café"), ("type", .text "RECORD"),
    ("mode", .text "REPEATED"), ("fields", .array [date])]]
  have ht : v.render = t := by decide +kernel
  have hdate : date.Textual ∧ date.Within 124 :=
    ⟨.object (by simp [Json.Textual.text]), .object (by simp [Json.Within.text])⟩
  have hdates : (Json.array [date]).Textual ∧ (Json.array [date]).Within 125 :=
    ⟨.array (by simp [hdate.1]), .array (by simp [hdate.2])⟩
  have hv : v.Textual ∧ v.Within Json.maxDepth :=
    ⟨.array (List.forall_mem_singleton.mpr
      (.object (by simp [Json.Textual.text, hdates.1]))), .array
        (List.forall_mem_singleton.mpr (.object (by simp [Json.Within.text, hdates.2])))⟩
  have hs : ofJson v.sorted = .ok s := by rfl
  have h : ofText t = .ok s := by
    rw [← ht]
    exact ofText_eq_ok_iff.mpr ⟨_, Json.ofText?_render hv.1 hv.2, hs⟩
  exact ⟨h, ofText_text h⟩

end TableSchema

end WarehouseLoader
