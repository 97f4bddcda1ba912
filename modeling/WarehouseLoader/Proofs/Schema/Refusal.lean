import WarehouseLoader.Proofs.Schema.Grammar

/-!
# Why a schema description is refused

A description that is not well formed is refused for its first fault, and the
fault has a place: the numbers of the descriptors that lead to it, from the
outermost list inwards. `RefusedIn parent items place e` says that all in front
of the place is well formed, that the descriptor at the place is at fault, and
that `e` is what is said of it. The columns of a record are in front of the
repetition of its own name, and behind the name, type and mode of the record.

The rules leave open what comes behind the place, at every level. So
descriptors that are added there, to the list of the fault or to one around it,
change nothing (`refusedIn_appendAt`).
-/

namespace WarehouseLoader

open Json (member?)

namespace Field

/-- A member that should be a text is missing or is something else. -/
inductive TextRefused (members : List (String × Json)) (name subject : String) :
    LoadError → Prop
  | missing (h : member? members name = none) :
      TextRefused members name subject (.schema s!"{subject} is missing required '{name}'")
  | notText {value} (h : member? members name = some value)
      (hother : ∀ text, value ≠ .text text) :
      TextRefused members name subject (.schema s!"'{name}' of {subject} must be a string")

/-- The first of name, type and mode that is at fault. -/
inductive HeadRefused (parent : Option String) (index : Nat)
    (members : List (String × Json)) :
    LoadError → Prop
  | name {e} (h : TextRefused members "name" s!"field #{index}" e) :
      HeadRefused parent index members e
  | unnamed (h : member? members "name" = some (.text "")) :
      HeadRefused parent index members (.schema s!"field #{index} has an empty name")
  | type {name e} (hname : Named members name)
      (h : TextRefused members "type" s!"field '{path parent name}'" e) :
      HeadRefused parent index members e
  | unknownType {name tag} (hname : Named members name)
      (htag : member? members "type" = some (.text tag))
      (h : ∀ type, (tag, type) ∉ typeTags) :
      HeadRefused parent index members (.unknownType (path parent name) tag)
  | missingMode {name type} (hname : Named members name) (htype : Typed members type)
      (h : member? members "mode" = none) :
      HeadRefused parent index members
        (.schema s!"field '{path parent name}' is missing required 'mode'")
  | modeNotText {name type value} (hname : Named members name) (htype : Typed members type)
      (h : member? members "mode" = some value) (hother : ∀ text, value ≠ .text text) :
      HeadRefused parent index members (.invalidMode (path parent name) value.render)
  | unknownMode {name type tag} (hname : Named members name) (htype : Typed members type)
      (htag : member? members "mode" = some (.text tag))
      (h : ∀ mode, (tag, mode) ∉ modeTags) :
      HeadRefused parent index members (.invalidMode (path parent name) tag)

mutual

/-- The descriptor is refused as number `index` below `parent`. The place is
below the descriptor; it is empty if the fault is the descriptor's own. -/
inductive Refused : Option String → Nat → Json → List Nat → LoadError → Prop
  | notAnObject {parent index item} (h : ∀ members, item ≠ .object members) :
      Refused parent index item [] (notAnObject parent index)
  | head {parent index members e} (h : HeadRefused parent index members e) :
      Refused parent index (.object members) [] e
  | forbidden {parent index members name type mode value}
      (hhead : Headed members name type mode)
      (hscalar : type ≠ .record) (hmember : member? members "fields" = some value) :
      Refused parent index (.object members) [] (forbiddenColumns (path parent name) type)
  | missing {parent index members name mode} (hhead : Headed members name .record mode)
      (hempty : ∀ items, member? members "fields" = some (.array items) → items = []) :
      Refused parent index (.object members) [] (missingColumns (path parent name))
  | inner {parent index members name mode items place e}
      (hhead : Headed members name .record mode)
      (hlist : member? members "fields" = some (.array items))
      (hitems : RefusedIn (some (path parent name)) items place e) :
      Refused parent index (.object members) place e

inductive RefusedIn : Option String → List Json → List Nat → LoadError → Prop
  | item {parent before fields item after place e} (hbefore : DescribesAll before fields)
      (hitem : Refused parent before.length item place e) :
      RefusedIn parent (before ++ item :: after) (before.length :: place) e
  | again {parent before fields item field after} (hbefore : DescribesAll before fields)
      (hitem : Describes item field) (hagain : ∃ other ∈ fields, other.key = field.key) :
      RefusedIn parent (before ++ item :: after) [before.length]
        (duplicate parent field.name)

end

def changedMember (change : List Json → List Json) (name : String) : Json → Json
  | .array items => .array (if name = "fields" then change items else items)
  | value => value

/-- A descriptor with another list of columns, if it has a list. -/
def overColumns (change : List Json → List Json) : Json → Json
  | .object members => .object (members.map fun m => (m.1, changedMember change m.1 m.2))
  | item => item

/-- The path leads inwards, to one of the lists of columns; the empty one stays
with the list that is given. -/
def appendAt (more : List Json) : List Nat → List Json → List Json
  | [], items => items ++ more
  | i :: path, items => items.modify i (overColumns (appendAt more path))

variable {members : List (String × Json)} {name : String} {type : FieldType}
  {mode : FieldMode}
  {items before : List Json} {fields : List Field} {item : Json} {field : Field}
  {parent : Option String} {index : Nat} {e : LoadError}

/-! ### The head of a descriptor -/

theorem requiredText_eq_error_iff {subject : String} :
    requiredText members name subject = .error e ↔ TextRefused members name subject e := by
  rw [requiredText]
  constructor
  · intro h
    split at h
    · cases h
    · next value hother hmember =>
        cases h
        exact .notText hmember fun text htext => hother text htext
    · next hmissing =>
        cases h
        exact .missing hmissing
  · intro h
    cases h with
    | missing h => rw [h]
    | notText h hother =>
        rw [h]
        split
        · next text heq =>
            cases heq
            exact absurd rfl (hother text)
        · rfl
        · next heq => cases heq

theorem requiredType_eq_error_iff {subject : String} :
    requiredType members subject = .error e ↔
      TextRefused members "type" s!"field '{subject}'" e ∨
        ∃ tag, member? members "type" = some (.text tag) ∧
          (∀ type, (tag, type) ∉ typeTags) ∧
          e = .unknownType subject tag := by
  rw [requiredType, bind_eq_error_iff, requiredText_eq_error_iff]
  simp only [requiredText_eq_ok_iff]
  refine or_congr_right (exists_congr fun tag => and_congr_right fun _ => ?_)
  simp only [← type_ofTag?_eq_some_iff]
  cases FieldType.ofTag? tag with
  | none => simp [eq_comm]
  | some type => simp

theorem requiredMode_eq_error_iff {subject : String} :
    requiredMode members subject = .error e ↔
      (member? members "mode" = none ∧
        e = .schema s!"field '{subject}' is missing required 'mode'") ∨
      (∃ value, member? members "mode" = some value ∧ (∀ text, value ≠ .text text) ∧
        e = .invalidMode subject value.render) ∨
      ∃ tag, member? members "mode" = some (.text tag) ∧ (∀ mode, (tag, mode) ∉ modeTags) ∧
        e = .invalidMode subject tag := by
  rw [requiredMode]
  simp only [← mode_ofTag?_eq_some_iff]
  cases hmember : member? members "mode" with
  | none => simp [eq_comm]
  | some value =>
      cases value with
      | text tag =>
          cases htag : FieldMode.ofTag? tag with
          | none => simp [htag, eq_comm]
          | some mode => simp [htag]
      | null | bool | number | array | object => simp [eq_comm]

theorem ofMembers_of_named (hname : Named members name) :
    Head.ofMembers members parent index = (do
      let type ← requiredType members (path parent name)
      let mode ← requiredMode members (path parent name)
      return ⟨name, path parent name, type, mode⟩) := by
  rw [Head.ofMembers, requiredText_eq_ok_iff.mpr hname.text]
  exact if_neg (by simpa using hname.nonempty)

theorem ofMembers_of_unnamed (h : member? members "name" = some (.text "")) :
    Head.ofMembers members parent index =
      .error (.schema s!"field #{index} has an empty name") := by
  rw [Head.ofMembers, requiredText_eq_ok_iff.mpr h]
  rfl

theorem ofMembers_eq_error_iff :
    Head.ofMembers members parent index = .error e ↔
      HeadRefused parent index members e := by
  constructor
  · intro h
    cases htext : requiredText members "name" s!"field #{index}" with
    | error e' =>
        rw [Head.ofMembers, htext] at h
        cases h
        exact .name (requiredText_eq_error_iff.mp htext)
    | ok name =>
        have htext := requiredText_eq_ok_iff.mp htext
        by_cases hempty : name = ""
        · subst hempty
          rw [ofMembers_of_unnamed htext] at h
          cases h
          exact .unnamed htext
        · have hname : Named members name := ⟨htext, hempty⟩
          rw [ofMembers_of_named hname] at h
          simp only [bind_eq_error_iff, requiredType_eq_error_iff,
            requiredMode_eq_error_iff, requiredType_eq_ok_iff] at h
          rcases h with (h | ⟨tag, htag, hunknown, rfl⟩) |
            ⟨type, htype, hmode | ⟨mode, -, h⟩⟩
          · exact .type hname h
          · exact .unknownType hname htag hunknown
          · rcases hmode with ⟨h, rfl⟩ | ⟨value, h, hother, rfl⟩ |
              ⟨tag, htag, hunknown, rfl⟩
            · exact .missingMode hname htype h
            · exact .modeNotText hname htype h hother
            · exact .unknownMode hname htype htag hunknown
          · cases h
  · intro h
    cases h with
    | name h => rw [Head.ofMembers, requiredText_eq_error_iff.mpr h]; rfl
    | unnamed h => exact ofMembers_of_unnamed h
    | type hname h =>
        rw [ofMembers_of_named hname, requiredType_eq_error_iff.mpr (.inl h)]
        rfl
    | unknownType hname htag h =>
        rw [ofMembers_of_named hname,
          requiredType_eq_error_iff.mpr (.inr ⟨_, htag, h, rfl⟩)]
        rfl
    | missingMode hname htype h =>
        rw [ofMembers_of_named hname, requiredType_eq_ok_iff.mpr htype,
          requiredMode_eq_error_iff.mpr (.inl ⟨h, rfl⟩)]
        rfl
    | modeNotText hname htype h hother =>
        rw [ofMembers_of_named hname, requiredType_eq_ok_iff.mpr htype,
          requiredMode_eq_error_iff.mpr (.inr (.inl ⟨_, h, hother, rfl⟩))]
        rfl
    | unknownMode hname htype htag h =>
        rw [ofMembers_of_named hname, requiredType_eq_ok_iff.mpr htype,
          requiredMode_eq_error_iff.mpr (.inr (.inr ⟨_, htag, h, rfl⟩))]
        rfl

/-! ### The first fault -/

theorem DescribesAll.concat (hbefore : DescribesAll before fields)
    (hitem : Describes item field) (hnew : ∀ other ∈ fields, other.key ≠ field.key) :
    DescribesAll (before ++ [item]) (fields ++ [field]) := by
  induction before generalizing fields with
  | nil =>
      cases hbefore
      exact .cons hitem .nil (by simp)
  | cons first before ih =>
      cases hbefore with
      | cons hfirst hbefore hfirstNew =>
          have hfirst' := hnew _ List.mem_cons_self
          refine .cons hfirst (ih hbefore fun other h =>
            hnew other (List.mem_cons_of_mem _ h)) ?_
          intro other hother
          rcases List.mem_append.mp hother with hother | hother
          · exact hfirstNew other hother
          · rw [List.mem_singleton.mp hother]
            exact Ne.symm hfirst'

/-- What is in front is judged first and leaves its names behind. -/
theorem ofDescriptors_append {seen : List String} (hbefore : DescribesAll before fields)
    (hnew : ∀ other ∈ fields, other.key ∉ seen) :
    ofDescriptors parent index seen (before ++ items) =
      (ofDescriptors parent (index + before.length)
        ((fields.map key).reverse ++ seen) items).map
        (fields ++ ·) := by
  induction before generalizing fields seen index with
  | nil =>
      cases hbefore
      simp only [List.nil_append, List.length_nil, Nat.add_zero,
        List.map_nil, List.reverse_nil]
      cases ofDescriptors parent index seen items <;> rfl
  | cons first before ih =>
      cases hbefore with
      | @cons _ _ field fields hfirst hbefore hfirstNew =>
          have hbehind : ∀ other ∈ fields, other.key ∉ field.key :: seen := by
            intro other hother
            simp only [List.mem_cons, not_or]
            exact ⟨hfirstNew other hother, hnew other (List.mem_cons_of_mem _ hother)⟩
          rw [List.cons_append, ofDescriptors_of_new (ofDescriptor_eq_ok_iff.mpr hfirst)
            (hnew _ List.mem_cons_self), ih hbefore hbehind, List.length_cons,
            show index + 1 + before.length = index + (before.length + 1) by omega,
            List.map_cons, List.reverse_cons, List.append_assoc, List.singleton_append]
          cases ofDescriptors parent (index + (before.length + 1))
            ((fields.map key).reverse ++ field.key :: seen) items <;> rfl

theorem RefusedIn.ne_nil {place : List Nat} (h : RefusedIn parent items place e) :
    items ≠ [] := by
  cases h <;> simp

theorem ofDescriptors_of_refusedIn {place : List Nat} (h : RefusedIn parent items place e) :
    ofDescriptors parent 0 [] items = .error e := by
  -- The place gets shorter on the way to the fault, whatever the descriptors are.
  induction place generalizing parent items with
  | nil => cases h
  | cons i place ih =>
      cases h with
      | item hbefore hitem =>
          rw [ofDescriptors_append hbefore (by simp), map_eq_error_iff, Nat.zero_add]
          refine ofDescriptors_of_error (ofDescriptor_eq_iff.mpr ?_)
          cases hitem with
          | notAnObject h => exact .notAnObject h
          | head h => exact .badHead (ofMembers_eq_error_iff.mpr h)
          | forbidden hhead hscalar hmember => exact .forbidden hhead hscalar hmember
          | missing hhead hempty => exact .missing hhead hempty
          | inner hhead hlist hitems => exact .inner hhead hlist hitems.ne_nil (ih hitems)
      | again hbefore hitem hagain =>
          rw [ofDescriptors_append hbefore (by simp), map_eq_error_iff]
          refine ofDescriptors_of_again (ofDescriptor_eq_ok_iff.mpr hitem) ?_
          obtain ⟨other, hother, hkey⟩ := hagain
          simp only [List.append_nil, List.mem_reverse, List.mem_map]
          exact ⟨other, hother, hkey⟩

theorem exists_refusedIn_append {before : List Json} {fields : List Field}
    (hbefore : DescribesAll before fields)
    (h : ofDescriptors parent before.length (fields.map key).reverse items = .error e) :
    ∃ place, RefusedIn parent (before ++ items) place e := by
  induction items using descriptors_induction generalizing parent before fields e with
  | nil =>
      rw [ofDescriptors] at h
      cases h
  | cons item rest hinner ih =>
      cases hhere : ofDescriptor parent before.length item with
      | error e' =>
          rw [ofDescriptors_of_error hhere] at h
          cases h
          rw [ofDescriptor_eq_iff] at hhere
          cases hhere with
          | notAnObject h => exact ⟨_, .item hbefore (.notAnObject h)⟩
          | badHead h => exact ⟨_, .item hbefore (.head (ofMembers_eq_error_iff.mp h))⟩
          | forbidden hhead hscalar hmember =>
              exact ⟨_, .item hbefore (.forbidden hhead hscalar hmember)⟩
          | missing hhead hempty => exact ⟨_, .item hbefore (.missing hhead hempty)⟩
          | inner hhead hlist hsome hitems =>
              obtain ⟨place, hplace⟩ := hinner _ _ rfl hlist .nil hitems
              exact ⟨_, .item hbefore (.inner hhead hlist hplace)⟩
      | ok field =>
          have hitem := ofDescriptor_eq_ok_iff.mp hhere
          by_cases hseen : field.key ∈ (fields.map key).reverse
          · rw [ofDescriptors_of_again hhere hseen] at h
            cases h
            simp only [List.mem_reverse, List.mem_map] at hseen
            exact ⟨_, .again hbefore hitem hseen⟩
          · rw [ofDescriptors_of_new hhere hseen, map_eq_error_iff] at h
            have hnew : ∀ other ∈ fields, other.key ≠ field.key := by
              intro other hother heq
              rw [List.mem_reverse, ← heq] at hseen
              exact hseen (List.mem_map_of_mem hother)
            have hrest : ofDescriptors parent (before ++ [item]).length
                ((fields ++ [field]).map key).reverse rest = .error e := by
              rw [List.length_append, List.length_singleton, List.map_append,
                List.reverse_append]
              exact h
            obtain ⟨place, hplace⟩ := ih (hbefore.concat hitem hnew) hrest
            rw [List.append_assoc] at hplace
            exact ⟨place, hplace⟩

theorem ofDescriptors_eq_error_iff :
    ofDescriptors parent 0 [] items = .error e ↔ ∃ place, RefusedIn parent items place e :=
  ⟨fun h => exists_refusedIn_append .nil h, fun ⟨_, h⟩ => ofDescriptors_of_refusedIn h⟩

/-! ### Behind the fault -/

section Behind

variable {change : List Json → List Json} {more : List Json}

theorem member?_changed :
    member? (members.map fun m => (m.1, changedMember change m.1 m.2)) name =
    (member? members name).map (changedMember change name) := by
  induction members with
  | nil => rfl
  | cons m rest ih =>
      obtain ⟨other, value⟩ := m
      simp only [member?] at ih
      simp only [member?, List.map_cons, lookup_entry]
      split
      · next hname => rw [hname, Option.map_some]
      · exact ih

/-- A change of the columns is no change of the head, which holds texts only. -/
theorem Headed.changed (hhead : Headed members name type mode) :
    Headed (members.map fun m => (m.1, changedMember change m.1 m.2)) name type mode := by
  have hkept : ∀ key text, member? members key = some (.text text) →
      member? (members.map fun m => (m.1, changedMember change m.1 m.2)) key =
        some (.text text) := by
    intro key text h
    rw [member?_changed, h]
    rfl
  obtain ⟨⟨hname, hnonempty⟩, ⟨typeTag, htype, htypeTag⟩, ⟨modeTag, hmode, hmodeTag⟩⟩ :=
    hhead
  exact ⟨⟨hkept _ _ hname, hnonempty⟩, ⟨typeTag, hkept _ _ htype, htypeTag⟩,
    ⟨modeTag, hkept _ _ hmode, hmodeTag⟩⟩

theorem modify_at (before after : List Json) (f : Json → Json) :
    (before ++ item :: after).modify before.length f = before ++ f item :: after := by
  induction before with
  | nil => rfl
  | cons first before ih => exact congrArg (first :: ·) ih

theorem refusedIn_appendAt (path : List Nat) {i : Nat} {place : List Nat}
    (h : RefusedIn parent items (path ++ i :: place) e) :
    RefusedIn parent (appendAt more path items) (path ++ i :: place) e := by
  induction path generalizing parent items with
  | nil =>
      cases h with
      | item hbefore hitem =>
          rw [appendAt, List.append_assoc]
          exact .item hbefore hitem
      | again hbefore hitem hagain =>
          rw [appendAt, List.append_assoc]
          exact .again hbefore hitem hagain
  | cons j path ih =>
      rw [List.cons_append] at h ⊢
      generalize hplace : path ++ i :: place = inwards at h
      cases h with
      | item hbefore hitem =>
          rw [appendAt, modify_at]
          refine .item hbefore ?_
          -- The place is further inwards, so the fault is not the descriptor's own.
          cases hitem with
          | inner hhead hlist hitems =>
              subst hplace
              refine .inner hhead.changed ?_ (ih hitems)
              rw [member?_changed, hlist]
              rfl
          | notAnObject | head | forbidden | missing => simp at hplace
      | again hbefore hitem hagain => simp at hplace

end Behind

end Field

namespace TableSchema

open WarehouseLoader.Field (DescribesAll RefusedIn appendAt)

/-- A description is the list of descriptors or an object that has it. -/
inductive Lists : Json → List Json → Prop
  | bare {items} : Lists (.array items) items
  | wrapped {members items} (h : member? members "fields" = some (.array items)) :
      Lists (.object members) items

inductive Shapeless : Json → LoadError → Prop
  | other {v} (harray : ∀ items, v ≠ .array items)
      (hobject : ∀ members, v ≠ .object members) :
      Shapeless v notADescription
  | absent {members} (h : member? members "fields" = none) :
      Shapeless (.object members) notADescription
  | notAList {members value} (h : member? members "fields" = some value)
      (hother : ∀ items, value ≠ .array items) :
      Shapeless (.object members) (.schema "'fields' must be an array")

variable {v : Json} {items : List Json} {e : LoadError}

theorem ofJson_of_lists (h : Lists v items) :
    ofJson v = (Field.ofDescriptors none 0 [] items).map mk := by
  cases h with
  | bare => rw [ofJson]
  | wrapped h => rw [ofJson, h]

theorem ofJson_of_shapeless (h : Shapeless v e) : ofJson v = .error e := by
  cases h with
  | other harray hobject =>
      rw [ofJson.eq_def]
      split
      · next items => exact absurd rfl (harray items)
      · next members => exact absurd rfl (hobject members)
      · rfl
  | absent h => rw [ofJson, h]
  | notAList h hother =>
      rw [ofJson, h]
      split
      · next items heq => exact absurd (Option.some.inj heq) (hother items)
      · rfl
      · next heq => cases heq

theorem lists_or_shapeless (v : Json) : (∃ items, Lists v items) ∨ ∃ e, Shapeless v e := by
  cases v with
  | array items => exact .inl ⟨items, .bare⟩
  | object members =>
      cases hmember : member? members "fields" with
      | none => exact .inr ⟨_, .absent hmember⟩
      | some value =>
          by_cases hlist : ∃ items, value = .array items
          · obtain ⟨items, rfl⟩ := hlist
            exact .inl ⟨items, .wrapped hmember⟩
          · exact .inr ⟨_, .notAList hmember fun items h => hlist ⟨items, h⟩⟩
  | null | bool | number | text => exact .inr ⟨_, .other nofun nofun⟩

theorem ofJson_eq_ok_iff {s : TableSchema} :
    ofJson v = .ok s ↔ ∃ items, Lists v items ∧ DescribesAll items s.fields := by
  constructor
  · intro h
    rcases lists_or_shapeless v with ⟨items, hlists⟩ | ⟨e, hshape⟩
    · rw [ofJson_of_lists hlists, map_eq_ok_iff] at h
      obtain ⟨fields, hfields, rfl⟩ := h
      exact ⟨items, hlists, ((Field.ofDescriptors_eq_ok_iff _ _ _ _ _).mp hfields).1⟩
    · rw [ofJson_of_shapeless hshape] at h
      cases h
  · rintro ⟨items, hlists, hitems⟩
    rw [ofJson_of_lists hlists, map_eq_ok_iff]
    exact ⟨s.fields, (Field.ofDescriptors_eq_ok_iff _ _ _ _ _).mpr ⟨hitems, by simp⟩, rfl⟩

theorem ofJson_eq_error_iff :
    ofJson v = .error e ↔
      Shapeless v e ∨ ∃ items place, Lists v items ∧ RefusedIn none items place e := by
  constructor
  · intro h
    rcases lists_or_shapeless v with ⟨items, hlists⟩ | ⟨e', hshape⟩
    · rw [ofJson_of_lists hlists, map_eq_error_iff, Field.ofDescriptors_eq_error_iff] at h
      obtain ⟨place, hplace⟩ := h
      exact .inr ⟨items, place, hlists, hplace⟩
    · rw [ofJson_of_shapeless hshape] at h
      cases h
      exact .inl hshape
  · rintro (hshape | ⟨items, place, hlists, hplace⟩)
    · exact ofJson_of_shapeless hshape
    · rw [ofJson_of_lists hlists, map_eq_error_iff]
      exact Field.ofDescriptors_of_refusedIn hplace

/-- The walk accepts what the grammar describes and nothing else, refuses all
else for its first fault, and does not look behind that. -/
theorem ofJson_grammar (v : Json) :
    (∀ s, ofJson v = .ok s ↔ ∃ items, Lists v items ∧ DescribesAll items s.fields) ∧
    (∀ e, ofJson v = .error e ↔
      Shapeless v e ∨ ∃ items place, Lists v items ∧ RefusedIn none items place e) ∧
    ∀ items place e, Lists v items → RefusedIn none items place e →
      ofJson v = .error e ∧ ∀ path i inwards, place = path ++ i :: inwards → ∀ more v',
        Lists v' (appendAt more path items) → ofJson v' = .error e := by
  refine ⟨fun s => ofJson_eq_ok_iff, fun e => ofJson_eq_error_iff, ?_⟩
  intro items place e hlists hplace
  refine ⟨ofJson_eq_error_iff.mpr (.inr ⟨items, place, hlists, hplace⟩), ?_⟩
  rintro path i inwards rfl more v' hlists'
  exact ofJson_eq_error_iff.mpr (.inr ⟨_, _, hlists', Field.refusedIn_appendAt path hplace⟩)

def column (name type : String) : Json :=
  .object [("mode", .text "NULLABLE"), ("name", .text name), ("type", .text type)]

/-- A record whose second column has a type that is none. -/
def faultyRecord (more : List Json) : Json :=
  .object [("fields", .array ([column "at" "DATE", column "on" "DAY"] ++ more)),
    ("mode", .text "REPEATED"), ("name", .text "r"), ("type", .text "RECORD")]

theorem headed_column (name type : String) (t : FieldType) (hname : name ≠ "")
    (htype : (type, t) ∈ Field.typeTags) :
    Field.Headed [("mode", .text "NULLABLE"), ("name", .text name), ("type", .text type)]
      name t .nullable :=
  ⟨⟨rfl, hname⟩, ⟨type, rfl, htype⟩, "NULLABLE", rfl, by decide⟩

theorem refusedIn_faultyRecord :
    RefusedIn none [faultyRecord []] [0, 1] (.unknownType "r.on" "DAY") := by
  have hat : Field.Describes (column "at" "DATE") (.mk "at" .timestamp .nullable none) :=
    .scalar (headed_column _ _ _ (by decide) (by decide)) (by decide) rfl
  have hday : ∀ type, ("DAY", type) ∉ Field.typeTags := fun type => by cases type <;> decide
  have hon : Field.Refused (some "r") 1 (column "on" "DAY") []
      (.unknownType "r.on" "DAY") :=
    .head (@Field.HeadRefused.unknownType (some "r") _ _ "on" "DAY"
      ⟨rfl, by decide⟩ rfl hday)
  have hcolumns : RefusedIn (some "r") [column "at" "DATE", column "on" "DAY"] [1]
      (.unknownType "r.on" "DAY") :=
    @RefusedIn.item (some "r") [_] _ _ [] _ _ (.cons hat .nil nofun) hon
  have hhead : ∀ columns, Field.Headed [("fields", columns), ("mode", .text "REPEATED"),
      ("name", .text "r"), ("type", .text "RECORD")] "r" .record .repeated := fun columns =>
    ⟨⟨rfl, by decide⟩, ⟨"RECORD", rfl, by decide⟩, "REPEATED", rfl, by decide⟩
  exact @RefusedIn.item none [] [] _ [] _ _ .nil (.inner (hhead _) rfl hcolumns)

theorem ofJson_grammar_of_faulty :
    ofJson (.array [column "at" "DATE"]) = .ok ⟨[.mk "at" .timestamp .nullable none]⟩ ∧
    ofJson (.array [faultyRecord []]) = .error (.unknownType "r.on" "DAY") ∧
    ofJson (.array [faultyRecord [.null]]) = .error (.unknownType "r.on" "DAY") ∧
    ofJson (.object [("fields", .array [faultyRecord [], .null])]) =
      .error (.unknownType "r.on" "DAY") := by
  refine ⟨?_, ?_, ?_, ?_⟩
  · refine ((ofJson_grammar _).1 _).mpr
      ⟨_, .bare, .cons (.scalar ?_ (by decide) rfl) .nil nofun⟩
    exact headed_column _ _ _ (by decide) (by decide)
  · exact ((ofJson_grammar _).2.2 _ _ _ .bare refusedIn_faultyRecord).1
  · exact ((ofJson_grammar _).2.2 _ _ _ .bare refusedIn_faultyRecord).2 [0]
      1 [] rfl [.null] _
      .bare
  · exact ((ofJson_grammar _).2.2 _ _ _ .bare refusedIn_faultyRecord).2 []
      0 [1] rfl [.null] _
      (.wrapped rfl)

end TableSchema

end WarehouseLoader
