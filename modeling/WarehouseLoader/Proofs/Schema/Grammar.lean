import Mathlib.Data.List.Basic
import WarehouseLoader.Schema.Translate

/-!
# The grammar of schema descriptions

`DescribesAll items fields` says that a list of descriptors is well formed and
that `fields` are the columns it describes, one for each descriptor and in
their order. It is said by rules, one for each kind of descriptor, and neither
by where the walk over the descriptors stands nor by which names it has seen:
the names of siblings are different from each other, and that is all.

The walk accepts exactly what the rules describe
(`ofDescriptors_eq_ok_iff`). It reads the members of a descriptor one after the
other, so what becomes of a descriptor is first told by the member that has its
columns (`Judged`, `ofDescriptor_eq_iff`); after that every proof about the walk
is an induction over the lists of descriptors inside of lists of descriptors
(`descriptors_induction`).
-/

namespace WarehouseLoader

open Json (member?)

namespace Field

/-- What the type of a column may be called in a description. -/
def typeTags : List (String × FieldType) :=
  [("BOOLEAN", .boolean), ("STRING", .string), ("BYTES", .bytes), ("INTEGER", .integer),
    ("FLOAT", .float), ("TIMESTAMP", .timestamp), ("DATE", .timestamp),
    ("TIME", .timestamp), ("DATETIME", .timestamp), ("RECORD", .record)]

def modeTags : List (String × FieldMode) :=
  [("NULLABLE", .nullable), ("REQUIRED", .required), ("REPEATED", .repeated)]

/-- Names are compared without regard to case. -/
def key (f : Field) : String := Text.lowercase f.name

structure Named (members : List (String × Json)) (name : String) : Prop where
  text : member? members "name" = some (.text name)
  nonempty : name ≠ ""

def Typed (members : List (String × Json)) (type : FieldType) : Prop :=
  ∃ tag, member? members "type" = some (.text tag) ∧ (tag, type) ∈ typeTags

def Moded (members : List (String × Json)) (mode : FieldMode) : Prop :=
  ∃ tag, member? members "mode" = some (.text tag) ∧ (tag, mode) ∈ modeTags

structure Headed (members : List (String × Json)) (name : String) (type : FieldType)
    (mode : FieldMode) : Prop where
  name : Named members name
  type : Typed members type
  mode : Moded members mode

mutual

/-- The descriptor is well formed and describes the column. -/
inductive Describes : Json → Field → Prop
  | scalar {members name type mode} (hhead : Headed members name type mode)
      (hscalar : type ≠ .record) (habsent : member? members "fields" = none) :
      Describes (.object members) (.mk name type mode none)
  | record {members name mode items fields} (hhead : Headed members name .record mode)
      (hlist : member? members "fields" = some (.array items)) (hsome : items ≠ [])
      (hitems : DescribesAll items fields) :
      Describes (.object members) (.mk name .record mode (some fields))

inductive DescribesAll : List Json → List Field → Prop
  | nil : DescribesAll [] []
  | cons {item items field fields} (hitem : Describes item field)
      (hitems : DescribesAll items fields)
      (hnew : ∀ other ∈ fields, other.key ≠ field.key) :
      DescribesAll (item :: items) (field :: fields)

end

/-- What becomes of a descriptor, by what is in it. -/
inductive Judged (parent : Option String) (index : Nat) :
    Json → Except LoadError Field → Prop
  | notAnObject {item} (h : ∀ members, item ≠ .object members) :
      Judged parent index item (.error (notAnObject parent index))
  | badHead {members e} (h : Head.ofMembers members parent index = .error e) :
      Judged parent index (.object members) (.error e)
  | scalar {members name type mode} (hhead : Headed members name type mode)
      (hscalar : type ≠ .record) (habsent : member? members "fields" = none) :
      Judged parent index (.object members) (.ok (.mk name type mode none))
  | forbidden {members name type mode value} (hhead : Headed members name type mode)
      (hscalar : type ≠ .record) (hmember : member? members "fields" = some value) :
      Judged parent index (.object members)
        (.error (forbiddenColumns (path parent name) type))
  | missing {members name mode} (hhead : Headed members name .record mode)
      (hempty : ∀ items, member? members "fields" = some (.array items) → items = []) :
      Judged parent index (.object members) (.error (missingColumns (path parent name)))
  | inner {members name mode items e} (hhead : Headed members name .record mode)
      (hlist : member? members "fields" = some (.array items)) (hsome : items ≠ [])
      (hitems : ofDescriptors (some (path parent name)) 0 [] items = .error e) :
      Judged parent index (.object members) (.error e)
  | record {members name mode items fields} (hhead : Headed members name .record mode)
      (hlist : member? members "fields" = some (.array items)) (hsome : items ≠ [])
      (hitems : ofDescriptors (some (path parent name)) 0 [] items = .ok fields) :
      Judged parent index (.object members) (.ok (.mk name .record mode (some fields)))

variable {members : List (String × Json)} {name : String} {type : FieldType}
  {mode : FieldMode}
  {items : List Json} {fields : List Field} {item : Json} {field : Field}

/-! ### Tags -/

theorem type_ofTag?_eq_some_iff {tag : String} :
    FieldType.ofTag? tag = some type ↔ (tag, type) ∈ typeTags := by
  constructor
  · intro h
    rw [FieldType.ofTag?] at h
    split at h
    · next htime =>
        cases h
        rcases htime with rfl | rfl | rfl <;> decide
    · have hname := List.find?_some h
      obtain rfl : type.name = tag := eq_of_beq hname
      cases type <;> decide
  · intro h
    simp only [typeTags, List.mem_cons, Prod.mk.injEq, List.not_mem_nil, or_false] at h
    rcases h with ⟨rfl, rfl⟩ | ⟨rfl, rfl⟩ | ⟨rfl, rfl⟩ | ⟨rfl, rfl⟩ |
      ⟨rfl, rfl⟩ | ⟨rfl, rfl⟩ |
      ⟨rfl, rfl⟩ | ⟨rfl, rfl⟩ | ⟨rfl, rfl⟩ | ⟨rfl, rfl⟩ <;> decide

theorem mode_ofTag?_eq_some_iff {tag : String} :
    FieldMode.ofTag? tag = some mode ↔ (tag, mode) ∈ modeTags := by
  constructor
  · intro h
    have hname := List.find?_some h
    obtain rfl : mode.name = tag := eq_of_beq hname
    cases mode <;> decide
  · intro h
    simp only [modeTags, List.mem_cons, Prod.mk.injEq, List.not_mem_nil, or_false] at h
    rcases h with ⟨rfl, rfl⟩ | ⟨rfl, rfl⟩ | ⟨rfl, rfl⟩ <;> decide

/-! ### The head of a descriptor -/

theorem requiredText_eq_ok_iff {key subject text : String} :
    requiredText members key subject = .ok text ↔
      member? members key = some (.text text) := by
  rw [requiredText]
  constructor
  · intro h
    split at h
    · next hmember =>
        cases h
        exact hmember
    · cases h
    · cases h
  · intro h
    rw [h]

theorem requiredType_eq_ok_iff {path : String} :
    requiredType members path = .ok type ↔ Typed members type := by
  rw [requiredType, bind_eq_ok_iff]
  constructor
  · rintro ⟨tag, htag, h⟩
    split at h
    · next htype =>
        cases h
        exact ⟨tag, requiredText_eq_ok_iff.mp htag, type_ofTag?_eq_some_iff.mp htype⟩
    · cases h
  · rintro ⟨tag, htag, htype⟩
    refine ⟨tag, requiredText_eq_ok_iff.mpr htag, ?_⟩
    rw [type_ofTag?_eq_some_iff.mpr htype]

theorem requiredMode_eq_ok_iff {path : String} :
    requiredMode members path = .ok mode ↔ Moded members mode := by
  rw [requiredMode]
  constructor
  · intro h
    split at h
    · next tag hmember =>
        split at h
        · next hmode =>
            cases h
            exact ⟨tag, hmember, mode_ofTag?_eq_some_iff.mp hmode⟩
        · cases h
    · cases h
    · cases h
  · rintro ⟨tag, htag, hmode⟩
    rw [htag]
    simp only [mode_ofTag?_eq_some_iff.mpr hmode]

theorem ofMembers_eq_ok_iff {parent : Option String} {index : Nat} {head : Head} :
    Head.ofMembers members parent index = .ok head ↔
      head.path = path parent head.name ∧ Headed members head.name head.type head.mode := by
  simp only [Head.ofMembers, bind_eq_ok_iff, requiredText_eq_ok_iff]
  constructor
  · rintro ⟨name, htext, h⟩
    split at h
    · cases h
    · next hnonempty =>
        simp only [bind_eq_ok_iff, requiredType_eq_ok_iff, requiredMode_eq_ok_iff] at h
        obtain ⟨type, htype, mode, hmode, h⟩ := h
        cases h
        exact ⟨rfl, ⟨htext, by simpa using hnonempty⟩, htype, hmode⟩
  · rintro ⟨hpath, ⟨htext, hnonempty⟩, htype, hmode⟩
    refine ⟨head.name, htext, ?_⟩
    rw [if_neg (by simpa using hnonempty)]
    simp only [bind_eq_ok_iff, requiredType_eq_ok_iff, requiredMode_eq_ok_iff]
    refine ⟨head.type, htype, head.mode, hmode, ?_⟩
    rw [← hpath]
    rfl

/-! ### The columns of a descriptor -/

section Columns

variable {head : Head}

theorem columnsOf_of_absent (habsent : member? members "fields" = none) :
    columnsOf head members =
      if head.type = .record then .error (missingColumns head.path) else .ok none := by
  induction members with
  | nil => rw [columnsOf]
  | cons m rest ih =>
      obtain ⟨other, value⟩ := m
      rw [member?, lookup_entry] at habsent
      split at habsent
      · cases habsent
      · next hother =>
          rw [columnsOf.eq_def]
          simp only []
          rw [if_neg (Ne.symm hother), ih habsent]

/-- The first member with columns is the one that counts. -/
theorem columnsOf_of_member {value : Json}
    (hmember : member? members "fields" = some value) :
    columnsOf head members = columnsOf head [("fields", value)] := by
  induction members with
  | nil => cases hmember
  | cons m rest ih =>
      obtain ⟨other, v⟩ := m
      rw [member?, lookup_entry] at hmember
      rw [columnsOf.eq_def, columnsOf.eq_def head [_]]
      simp only [if_true]
      split at hmember
      · next hfields =>
          cases hmember
          rw [if_pos hfields.symm]
      · next hother =>
          rw [if_neg (Ne.symm hother), ih hmember, columnsOf.eq_def]
          simp only [if_true]

theorem columnsOf_of_scalar {value : Json} (hscalar : head.type ≠ .record)
    (hmember : member? members "fields" = some value) :
    columnsOf head members = .error (forbiddenColumns head.path head.type) := by
  rw [columnsOf_of_member hmember, columnsOf.eq_def]
  simp only [if_true, if_neg hscalar]

theorem columnsOf_of_list (hrecord : head.type = .record)
    (hlist : member? members "fields" = some (.array items)) (hsome : items ≠ []) :
    columnsOf head members = (ofDescriptors (some head.path) 0 [] items).map some := by
  obtain ⟨first, more, rfl⟩ := List.exists_cons_of_ne_nil hsome
  rw [columnsOf_of_member hlist, columnsOf.eq_def]
  simp only [if_true, if_pos hrecord]
  cases ofDescriptors (some head.path) 0 [] (first :: more) <;> rfl

theorem columnsOf_of_empty (hrecord : head.type = .record)
    (hempty : ∀ items, member? members "fields" = some (.array items) → items = []) :
    columnsOf head members = .error (missingColumns head.path) := by
  cases hmember : member? members "fields" with
  | none => rw [columnsOf_of_absent hmember, if_pos hrecord]
  | some value =>
      rw [columnsOf_of_member hmember, columnsOf.eq_def]
      simp only [if_true, if_pos hrecord]
      split
      · cases hempty _ hmember
      · rfl

end Columns

/-! ### A descriptor -/

section Descriptor

variable {parent : Option String} {index : Nat}

theorem ofDescriptor_of_headed (hhead : Headed members name type mode) :
    ofDescriptor parent index (.object members) =
      (columnsOf ⟨name, path parent name, type, mode⟩ members).map
      (.mk name type mode) := by
  have hofMembers : Head.ofMembers members parent index =
      .ok ⟨name, path parent name, type, mode⟩ := ofMembers_eq_ok_iff.mpr ⟨rfl, hhead⟩
  rw [ofDescriptor, hofMembers]
  simp only []
  cases columnsOf ⟨name, path parent name, type, mode⟩ members <;> rfl

theorem judged_ofMembers (hhead : Headed members name type mode) :
    Judged parent index (.object members)
      (ofDescriptor parent index (.object members)) := by
  rw [ofDescriptor_of_headed hhead]
  by_cases hrecord : type = .record
  · subst hrecord
    by_cases hlist : ∃ items, member? members "fields" = some (.array items) ∧ items ≠ []
    · obtain ⟨items, hlist, hsome⟩ := hlist
      rw [columnsOf_of_list rfl hlist hsome]
      cases hitems : ofDescriptors (some (path parent name)) 0 [] items with
      | error e => exact .inner hhead hlist hsome hitems
      | ok fields => exact .record hhead hlist hsome hitems
    · have hempty : ∀ items, member? members "fields" = some (.array items) →
          items = [] := by
        intro items hitems
        by_contra hsome
        exact hlist ⟨items, hitems, hsome⟩
      rw [columnsOf_of_empty rfl hempty]
      exact .missing hhead hempty
  · cases hmember : member? members "fields" with
    | none =>
        rw [columnsOf_of_absent hmember, if_neg hrecord]
        exact .scalar hhead hrecord hmember
    | some value =>
        rw [columnsOf_of_scalar hrecord hmember]
        exact .forbidden hhead hrecord hmember

theorem ofDescriptor_eq_iff {result : Except LoadError Field} :
    ofDescriptor parent index item = result ↔ Judged parent index item result := by
  constructor
  · rintro rfl
    by_cases hobject : ∃ members, item = .object members
    · obtain ⟨members, rfl⟩ := hobject
      cases hofMembers : Head.ofMembers members parent index with
      | error e =>
          rw [ofDescriptor, hofMembers]
          exact .badHead hofMembers
      | ok head => exact judged_ofMembers (ofMembers_eq_ok_iff.mp hofMembers).2
    · have hother : ∀ members, item ≠ .object members :=
        fun members h => hobject ⟨members, h⟩
      rw [ofDescriptor.eq_def]
      split
      · next members => exact absurd rfl (hother members)
      · exact .notAnObject hother
  · intro h
    cases h with
    | notAnObject h =>
        rw [ofDescriptor.eq_def]
        split
        · next members => exact absurd rfl (h members)
        · rfl
    | badHead h => rw [ofDescriptor, h]
    | scalar hhead hscalar habsent =>
        rw [ofDescriptor_of_headed hhead, columnsOf_of_absent habsent, if_neg hscalar]
        rfl
    | forbidden hhead hscalar hmember =>
        rw [ofDescriptor_of_headed hhead, columnsOf_of_scalar hscalar hmember]
        rfl
    | missing hhead hempty =>
        rw [ofDescriptor_of_headed hhead, columnsOf_of_empty rfl hempty]
        rfl
    | inner hhead hlist hsome hitems | record hhead hlist hsome hitems =>
        rw [ofDescriptor_of_headed hhead, columnsOf_of_list rfl hlist hsome, hitems]
        rfl

end Descriptor

/-! ### A list of descriptors -/

section Descriptors

variable {parent : Option String} {index : Nat} {seen : List String}

theorem ofDescriptors_of_error {e : LoadError}
    (h : ofDescriptor parent index item = .error e) :
    ofDescriptors parent index seen (item :: items) = .error e := by
  rw [ofDescriptors, h]

theorem ofDescriptors_of_again (h : ofDescriptor parent index item = .ok field)
    (hseen : field.key ∈ seen) :
    ofDescriptors parent index seen (item :: items) =
      .error (duplicate parent field.name) := by
  rw [ofDescriptors, h]
  exact if_pos hseen

theorem ofDescriptors_of_new (h : ofDescriptor parent index item = .ok field)
    (hnew : field.key ∉ seen) :
    ofDescriptors parent index seen (item :: items) =
      (ofDescriptors parent (index + 1) (field.key :: seen) items).map (field :: ·) := by
  rw [ofDescriptors, h]
  refine (if_neg hnew).trans ?_
  rw [key]
  cases ofDescriptors parent (index + 1) (Text.lowercase field.name :: seen) items <;> rfl

theorem sizeOf_lt_of_member? {value : Json} (h : member? members name = some value) :
    sizeOf value < sizeOf members := by
  induction members with
  | nil => cases h
  | cons m rest ih =>
      obtain ⟨other, v⟩ := m
      rw [member?, lookup_entry] at h
      split at h
      · cases h
        simp only [List.cons.sizeOf_spec, Prod.mk.sizeOf_spec]
        omega
      · have := ih h
        simp only [List.cons.sizeOf_spec]
        omega

/-- To prove something of all lists of descriptors, prove it of a list with one
more in front, whose own columns have it already. -/
theorem descriptors_induction {motive : List Json → Prop} (nil : motive [])
    (cons : ∀ item rest, (∀ members items, item = .object members →
      member? members "fields" = some (.array items) → motive items) →
      motive rest → motive (item :: rest)) (items : List Json) : motive items := by
  match items with
  | [] => exact nil
  | item :: rest =>
      refine cons item rest (fun members inner hitem hlist => ?_)
        (descriptors_induction nil cons rest)
      exact descriptors_induction nil cons inner
termination_by sizeOf items
decreasing_by
  · have hlt := sizeOf_lt_of_member? hlist
    subst hitem
    simp only [Json.array.sizeOf_spec] at hlt
    simp only [List.cons.sizeOf_spec, Json.object.sizeOf_spec]
    omega
  · simp only [List.cons.sizeOf_spec]
    omega

/-! ### Accepting -/

theorem ofDescriptor_eq_ok_iff_of (hinner : ∀ members items, item = .object members →
    member? members "fields" = some (.array items) → ∀ parent fields,
      ofDescriptors parent 0 [] items = .ok fields ↔ DescribesAll items fields) :
    ofDescriptor parent index item = .ok field ↔ Describes item field := by
  rw [ofDescriptor_eq_iff]
  constructor
  · intro h
    cases h with
    | scalar hhead hscalar habsent => exact .scalar hhead hscalar habsent
    | record hhead hlist hsome hitems =>
        exact .record hhead hlist hsome ((hinner _ _ rfl hlist _ _).mp hitems)
  · intro h
    cases h with
    | scalar hhead hscalar habsent => exact .scalar hhead hscalar habsent
    | record hhead hlist hsome hitems =>
        exact .record hhead hlist hsome ((hinner _ _ rfl hlist _ _).mpr hitems)

theorem ofDescriptors_eq_ok_iff (parent : Option String) (index : Nat) (seen : List String)
    (items : List Json) (fields : List Field) :
    ofDescriptors parent index seen items = .ok fields ↔
      DescribesAll items fields ∧ ∀ field ∈ fields, field.key ∉ seen := by
  induction items using descriptors_induction generalizing parent index seen fields with
  | nil =>
      rw [ofDescriptors]
      constructor
      · intro h
        cases h
        exact ⟨.nil, by simp⟩
      · rintro ⟨h, -⟩
        cases h
        rfl
  | cons item rest hinner ih =>
      have hitem : ∀ field, ofDescriptor parent index item = .ok field ↔
          Describes item field :=
        fun field =>
          ofDescriptor_eq_ok_iff_of fun members items hitem hlist parent fields => by
          rw [hinner members items hitem hlist]
          simp
      constructor
      · intro h
        cases hhere : ofDescriptor parent index item with
        | error e =>
            rw [ofDescriptors_of_error hhere] at h
            cases h
        | ok field =>
            by_cases hseen : field.key ∈ seen
            · rw [ofDescriptors_of_again hhere hseen] at h
              cases h
            · rw [ofDescriptors_of_new hhere hseen] at h
              obtain ⟨others, hothers, rfl⟩ := map_eq_ok_iff.mp h
              obtain ⟨hrest, hnew⟩ := (ih _ _ _ _).mp hothers
              simp only [List.mem_cons, not_or] at hnew
              refine ⟨.cons ((hitem field).mp hhere) hrest
                fun other hother => (hnew other hother).1, ?_⟩
              rintro other hother
              rcases List.mem_cons.mp hother with rfl | hother
              · exact hseen
              · exact (hnew other hother).2
      · rintro ⟨h, hseen⟩
        cases h with
        | cons hdescribes hrest hnew =>
            rw [ofDescriptors_of_new ((hitem _).mpr hdescribes)
              (hseen _ List.mem_cons_self), (ih _ _ _ _).mpr ⟨hrest, ?_⟩]
            · rfl
            · intro other hother
              simp only [List.mem_cons, not_or]
              exact ⟨hnew other hother, hseen other (List.mem_cons_of_mem _ hother)⟩

theorem ofDescriptor_eq_ok_iff :
    ofDescriptor parent index item = .ok field ↔ Describes item field :=
  ofDescriptor_eq_ok_iff_of fun _ items _ _ parent fields => by
    rw [ofDescriptors_eq_ok_iff parent 0 [] items fields]
    simp

end Descriptors

end Field

end WarehouseLoader
