import Mathlib.Data.List.Induction
import WarehouseLoader.Proofs.Schema.Refusal

/-!
# Where a refusal says the fault is

Most of what is said of a faulty descriptor names it by its dotted path, and
what is said of something that is no descriptor at all names the record around
it. The path grows on the way inwards (`pathThrough`), so at the fault it is the
path of the records that lead there, whatever the number of levels
(`ownFault_of_leads`).

One kind of fault is told without it. A descriptor whose name is missing, empty
or not a text has only its number in its own list to be named by, and the error
is the one that would be given anywhere else, in the outermost list or inside
of other records (`ofDescriptor_of_nameless`). So the path of the records around
it is not told, unless it happens to be a part of those few words.
-/

namespace WarehouseLoader

open Json (member?)

namespace LoadError

/-- The column that an error of a schema has a place of its own for. -/
def field? : LoadError → Option String
  | unknownType field _ | invalidMode field _ => some field
  | _ => none

/-- The text is a part of what is said, or of the column that is given. -/
def Tells (e : LoadError) (text : String) : Prop :=
  text.toList <:+: e.message.toList ∨
    ∃ field, e.field? = some field ∧ text.toList <:+: field.toList

variable {e : LoadError}

theorem infix_behind {text rest : List Char} (before : List Char) (h : text <:+: rest) :
    text <:+: before ++ rest := by
  obtain ⟨s, t, rfl⟩ := h
  exact ⟨before ++ s, t, by simp only [List.append_assoc]⟩

theorem tells_of_schema {text m : String} (h : text.toList <:+: m.toList) :
    (schema m).Tells text := by
  have hmessage : (schema m).message = "Invalid table schema: " ++ m := rfl
  refine Or.inl ?_
  rw [hmessage, String.toList_append]
  exact infix_behind _ h

theorem tells_of_field {text : String} (h : e.field? = some text) : e.Tells text :=
  .inr ⟨text, h, List.infix_rfl⟩

theorem Tells.mono {text part : String} (h : e.Tells text)
    (hpart : part.toList <:+: text.toList) : e.Tells part := by
  rcases h with hmessage | ⟨field, hfield, htext⟩
  · exact .inl (hpart.trans hmessage)
  · exact .inr ⟨field, hfield, hpart.trans htext⟩

end LoadError

namespace Field

open LoadError (infix_behind tells_of_schema tells_of_field)

/-- The place leads through records of these names to the descriptor. -/
inductive Leads : List Json → List Nat → List String → Json → Prop
  | here {items i item} (h : items[i]? = some item) : Leads items [i] [] item
  | inside {items i members name columns place records item}
      (h : items[i]? = some (.object members)) (hname : Named members name)
      (hlist : member? members "fields" = some (.array columns))
      (hinner : Leads columns place records item) :
      Leads items (i :: place) (name :: records) item

def dotted (names : List String) : String := ".".intercalate names

/-- An object that has no name to be called by. -/
def Nameless (item : Json) : Prop :=
  ∃ members, item = .object members ∧ ∀ name, ¬ Named members name

/-- The path of the records is told, and the descriptor's if it has a name. -/
structure TellsPath (records : List String) (item : Json) (e : LoadError) : Prop where
  around : e.Tells (dotted records)
  own : ∀ members name, item = .object members → Named members name →
    e.Tells (dotted (records ++ [name]))

/-- The path of the innermost of the records, each below the one before it. -/
def pathThrough (parent : Option String) (records : List String) : Option String :=
  records.foldl (fun above name => some (path above name)) parent

/-- What is wrong with a descriptor itself, and not with its columns. -/
inductive OwnFault (parent : Option String) (index : Nat) (item : Json) : LoadError → Prop
  | refused {e} (h : Refused parent index item [] e) : OwnFault parent index item e
  | again {field} (h : Describes item field) :
      OwnFault parent index item (duplicate parent field.name)

variable {members : List (String × Json)} {items : List Json} {item : Json}
  {parent : Option String} {index : Nat} {place : List Nat} {records : List String}
  {name : String} {e : LoadError}

/-! ### Dotted paths -/

theorem pathThrough_concat (records : List String) (name : String) :
    pathThrough parent (records ++ [name]) =
      some (path (pathThrough parent records) name) := by
  rw [pathThrough, List.foldl_append]
  rfl

theorem pathThrough_none (records : List String) :
    pathThrough none records = if records = [] then none else some (dotted records) := by
  induction records using List.reverseRecOn with
  | nil => rfl
  | append_singleton records name ih =>
      rw [pathThrough_concat, ih,
        if_neg (List.append_ne_nil_of_right_ne_nil _ (List.cons_ne_nil _ _)), dotted,
        dotted]
      by_cases hrecords : records = []
      · rw [if_pos hrecords, hrecords, List.nil_append, String.intercalate_singleton]
        rfl
      · rw [if_neg hrecords, String.intercalate_append_of_ne_nil hrecords
          (List.cons_ne_nil _ _), String.intercalate_singleton]
        rfl

theorem path_pathThrough (records : List String) (name : String) :
    path (pathThrough none records) name = dotted (records ++ [name]) := by
  have hsnoc := pathThrough_none (records ++ [name])
  rw [pathThrough_concat,
    if_neg (List.append_ne_nil_of_right_ne_nil _ (List.cons_ne_nil _ _))] at hsnoc
  exact Option.some.inj hsnoc

theorem dotted_front (records : List String) (name : String) :
    (dotted records).toList <+: (dotted (records ++ [name])).toList := by
  by_cases hrecords : records = []
  · rw [hrecords]
    exact List.nil_prefix
  · rw [dotted, dotted, String.intercalate_append_of_ne_nil hrecords (List.cons_ne_nil _ _),
      String.toList_append, String.toList_append, List.append_assoc]
    exact List.prefix_append _ _

/-! ### What is told -/

theorem tells_of_textRefused {subject : String}
    (h : TextRefused members name s!"field '{subject}'" e) : e.Tells subject := by
  cases h with
  | missing h =>
      refine tells_of_schema ?_
      simp only [toString, String.toList_append, List.append_assoc]
      exact List.infix_append' _ _ _
  | notText h hother =>
      refine tells_of_schema ?_
      simp only [toString, String.toList_append, List.append_assoc]
      exact infix_behind _ (infix_behind _ (infix_behind _ (List.infix_append' _ _ _)))

/-- A fault in the head of a descriptor is told with the path of the descriptor
if there is a name to make one of. -/
theorem HeadRefused.tells (h : HeadRefused parent index members e) :
    (∀ name, ¬ Named members name) ∨
      ∃ name, Named members name ∧ e.Tells (path parent name) := by
  cases h with
  | name h =>
      refine .inl fun name hname => ?_
      cases h with
      | missing h => cases h.symm.trans hname.text
      | notText h hother =>
          cases h.symm.trans hname.text
          exact hother name rfl
  | unnamed h =>
      refine .inl fun name hname => hname.nonempty ?_
      cases h.symm.trans hname.text
      rfl
  | type hname h => exact .inr ⟨_, hname, tells_of_textRefused h⟩
  | missingMode hname htype h =>
      refine .inr ⟨_, hname, tells_of_schema ?_⟩
      simp only [toString, String.toList_append, List.append_assoc]
      exact List.infix_append' _ _ _
  | unknownType hname | modeNotText hname | unknownMode hname =>
      exact .inr ⟨_, hname, tells_of_field rfl⟩

theorem OwnFault.tells (h : OwnFault parent index item e) :
    Nameless item ∨
      ((∀ members, item ≠ .object members) ∧ ∀ p, parent = some p → e.Tells p) ∨
      ∃ members name, item = .object members ∧ Named members name ∧
        e.Tells (path parent name) := by
  cases h with
  | again h =>
      have htells (name : String) : (duplicate parent name).Tells (path parent name) := by
        refine tells_of_schema ?_
        simp only [toString, String.toList_append, List.append_assoc]
        exact List.infix_append' _ _ _
      cases h with
      | scalar hhead | record hhead => exact .inr (.inr ⟨_, _, rfl, hhead.name, htells _⟩)
  | refused h =>
      cases h with
      | notAnObject h =>
          refine .inr (.inl ⟨h, ?_⟩)
          rintro p rfl
          refine tells_of_schema ?_
          simp only [toString, String.toList_append, List.append_assoc]
          exact infix_behind _ (infix_behind _ (List.infix_append' _ _ _))
      | head h =>
          rcases h.tells with hnameless | ⟨name, hname, htells⟩
          · exact .inl ⟨_, rfl, hnameless⟩
          · exact .inr (.inr ⟨_, name, rfl, hname, htells⟩)
      | forbidden hhead hscalar hmember =>
          refine .inr (.inr ⟨_, _, rfl, hhead.name, tells_of_schema ?_⟩)
          simp only [toString, String.toList_append, List.append_assoc]
          exact List.infix_append' _ _ _
      | missing hhead hempty =>
          refine .inr (.inr ⟨_, _, rfl, hhead.name, tells_of_schema ?_⟩)
          simp only [toString, String.toList_append, List.append_assoc]
          exact List.infix_append' _ _ _
      | inner hhead hlist hitems => cases hitems

/-! ### The way to the fault -/

theorem Leads.ne_nil (h : Leads items place records item) : place ≠ [] := by
  cases h <;> exact List.cons_ne_nil _ _

theorem getElem?_concat_cons {before after : List Json} {first : Json} :
    (before ++ first :: after)[before.length]? = some first := by
  rw [List.getElem?_append_right (Nat.le_refl _), Nat.sub_self]
  rfl

theorem exists_leads (h : RefusedIn parent items place e) :
    ∃ records item, Leads items place records item := by
  induction place generalizing parent items with
  | nil => cases h
  | cons i place ih =>
      cases h with
      | again hbefore hitem hagain => exact ⟨[], _, .here getElem?_concat_cons⟩
      | item hbefore hitem =>
          cases hitem with
          | notAnObject | head | forbidden | missing =>
              exact ⟨[], _, .here getElem?_concat_cons⟩
          | inner hhead hlist hitems =>
              obtain ⟨records, item, hinner⟩ := ih hitems
              exact ⟨_, item, .inside getElem?_concat_cons hhead.name hlist hinner⟩

/-- Whatever the parent, the fault at the end of the way is judged below the
path of the records that the way goes through. -/
theorem ownFault_of_leads (hleads : Leads items place records item)
    (h : RefusedIn parent items place e) :
    ∃ index, place.getLast? = some index ∧
      OwnFault (pathThrough parent records) index item e := by
  induction hleads generalizing parent with
  | here hitem =>
      cases h with
      | item hbefore hrefused =>
          cases getElem?_concat_cons.symm.trans hitem
          exact ⟨_, rfl, .refused hrefused⟩
      | again hbefore hdescribes hagain =>
          cases getElem?_concat_cons.symm.trans hitem
          exact ⟨_, rfl, .again hdescribes⟩
  | inside hitem hname hlist hinner ih =>
      cases h with
      | again => exact absurd rfl hinner.ne_nil
      | item hbefore hrefused =>
          cases getElem?_concat_cons.symm.trans hitem
          cases hrefused with
          | notAnObject | head | forbidden | missing => exact absurd rfl hinner.ne_nil
          | inner hhead hlist' hitems =>
              cases hhead.name.text.symm.trans hname.text
              cases hlist'.symm.trans hlist
              obtain ⟨index, hlast, hown⟩ := ih hitems
              refine ⟨index, ?_, hown⟩
              rw [List.getLast?_cons, hlast]
              rfl

theorem head_of_nameless (h : HeadRefused parent index members e)
    (hnameless : ∀ name, ¬ Named members name) (other : Option String) :
    HeadRefused other index members e := by
  cases h with
  | name h => exact .name h
  | unnamed h => exact .unnamed h
  | type hname | unknownType hname | missingMode hname | modeNotText hname
  | unknownMode hname =>
      exact absurd hname (hnameless _)

theorem ofDescriptor_of_nameless (h : OwnFault parent index item e)
    (hnameless : Nameless item) (other : Option String) :
    ofDescriptor other index item = .error e := by
  obtain ⟨members, rfl, hno⟩ := hnameless
  cases h with
  | again h =>
      cases h with
      | scalar hhead | record hhead => exact absurd hhead.name (hno _)
  | refused h =>
      cases h with
      | notAnObject h => exact absurd rfl (h members)
      | head h =>
          exact ofDescriptor_eq_iff.mpr
            (.badHead (ofMembers_eq_error_iff.mpr (head_of_nameless h hno other)))
      | forbidden hhead | missing hhead => exact absurd hhead.name (hno _)
      | inner hhead hlist hitems => cases hitems

theorem tellsPath_iff (h : OwnFault (pathThrough none records) index item e) :
    TellsPath records item e ↔ ¬ Nameless item ∨ e.Tells (dotted records) := by
  constructor
  · exact fun htells => .inr htells.around
  · intro hor
    rcases h.tells with hnameless | ⟨hother, haround⟩ | ⟨members, name, rfl, hname, htells⟩
    · refine ⟨hor.resolve_left (not_not.mpr hnameless), fun members name hitem hname => ?_⟩
      obtain ⟨members', hitem', hno⟩ := hnameless
      cases hitem.symm.trans hitem'
      exact absurd hname (hno name)
    · refine ⟨?_, fun members name hitem => absurd hitem (hother members)⟩
      rw [pathThrough_none] at haround
      by_cases hrecords : records = []
      · subst hrecords
        exact .inl (List.nil_infix)
      · exact haround _ (if_neg hrecords)
    · rw [path_pathThrough] at htells
      refine ⟨htells.mono (dotted_front records name).isInfix, ?_⟩
      intro members' name' hitem hname'
      cases hitem
      cases hname.text.symm.trans hname'.text
      exact htells

end Field

namespace TableSchema

open WarehouseLoader.Field (Leads Nameless TellsPath RefusedIn dotted ofDescriptor)

/-- The first fault of a description, and the names of the records around it. -/
structure FaultAt (v : Json) (items : List Json) (place : List Nat) (records : List String)
    (item : Json) (e : LoadError) : Prop where
  lists : Lists v items
  refused : RefusedIn none items place e
  leads : Leads items place records item

/-- A fault below records is told with the path of the records and of the
descriptor, unless the descriptor has no name. Then it is told as it would be
anywhere else. -/
theorem refusal_tells_path (v : Json) :
    (∀ e, ofJson v = .error e →
      Shapeless v e ∨ ∃ items place records item, FaultAt v items place records item e) ∧
    ∀ items place records item e, FaultAt v items place records item e →
      ofJson v = .error e ∧
      (TellsPath records item e ↔ ¬ Nameless item ∨ e.Tells (dotted records)) ∧
      (Nameless item → ∃ index, place.getLast? = some index ∧
        ∀ parent, ofDescriptor parent index item = .error e) := by
  constructor
  · intro e h
    refine (ofJson_eq_error_iff.mp h).imp_right ?_
    rintro ⟨items, place, hlists, hrefused⟩
    obtain ⟨records, item, hleads⟩ := Field.exists_leads hrefused
    exact ⟨items, place, records, item, hlists, hrefused, hleads⟩
  · intro items place records item e h
    obtain ⟨index, hlast, hown⟩ := Field.ownFault_of_leads h.leads h.refused
    refine ⟨ofJson_eq_error_iff.mpr (.inr ⟨items, place, h.lists, h.refused⟩),
      Field.tellsPath_iff hown, fun hnameless => ⟨index, hlast, fun parent => ?_⟩⟩
    exact Field.ofDescriptor_of_nameless hown hnameless parent

def recordOf (name : String) (columns : List Json) : Json :=
  .object [("fields", .array columns), ("mode", .text "NULLABLE"), ("name", .text name),
    ("type", .text "RECORD")]

def namelessColumn : Json := .object [("mode", .text "NULLABLE"), ("type", .text "STRING")]

def namelessError : LoadError := .schema "field #0 is missing required 'name'"

theorem nameless_namelessColumn : Nameless namelessColumn :=
  ⟨_, rfl, fun name hname => by cases hname.text⟩

theorem faultAt_nameless :
    FaultAt (.array [recordOf "shipping" [namelessColumn]])
      [recordOf "shipping" [namelessColumn]]
      [0, 0] ["shipping"] namelessColumn namelessError := by
  have hhead : Field.Headed [("fields", .array [namelessColumn]),
      ("mode", .text "NULLABLE"), ("name", .text "shipping"), ("type", .text "RECORD")]
      "shipping" .record .nullable :=
    ⟨⟨rfl, by decide⟩, ⟨"RECORD", rfl, by decide⟩, "NULLABLE", rfl, by decide⟩
  have hcolumn : Field.Refused (some "shipping") 0 namelessColumn [] namelessError :=
    .head (.name (.missing rfl))
  have hcolumns : RefusedIn (some "shipping") [namelessColumn] [0] namelessError :=
    @RefusedIn.item (some "shipping") [] [] _ [] [] _ .nil hcolumn
  exact ⟨.bare, @RefusedIn.item none [] [] _ [] [0] _ .nil (.inner hhead rfl hcolumns),
    .inside rfl hhead.name rfl (.here rfl)⟩

theorem refusal_tells_path_of_nested :
    TellsPath ["r"] (column "on" "DAY") (.unknownType "r.on" "DAY") ∧
    ∀ parent, ofDescriptor parent 0 namelessColumn = .error namelessError := by
  constructor
  · have hfault : FaultAt (.array [faultyRecord []]) [faultyRecord []] [0, 1] ["r"]
        (column "on" "DAY") (.unknownType "r.on" "DAY") :=
      ⟨.bare, refusedIn_faultyRecord, .inside rfl ⟨rfl, by decide⟩ rfl (.here rfl)⟩
    refine ((refusal_tells_path _).2 _ _ _ _ _ hfault).2.1.mpr (.inl ?_)
    rintro ⟨members, hitem, hno⟩
    cases hitem
    exact hno "on" ⟨rfl, by decide⟩
  · obtain ⟨index, hlast, hsame⟩ :=
      ((refusal_tells_path _).2 _ _ _ _ _ faultAt_nameless).2.2 nameless_namelessColumn
    cases hlast
    exact hsame

/-- The record around a column without a name is not in what is said of it. -/
theorem namelessColumn_hides_record :
    ofJson (.array [recordOf "shipping" [namelessColumn]]) = .error namelessError ∧
    FaultAt (.array [recordOf "shipping" [namelessColumn]])
      [recordOf "shipping" [namelessColumn]]
      [0, 0] ["shipping"] namelessColumn namelessError ∧
    ¬ namelessError.Tells "shipping" ∧
      ¬ TellsPath ["shipping"] namelessColumn namelessError := by
  have hhidden : ¬ namelessError.Tells "shipping" := by
    rintro (hmessage | ⟨field, hfield, -⟩)
    · have hmember : 'p' ∈ namelessError.message.toList := hmessage.subset (by simp)
      rw [show namelessError.message =
        "Invalid table schema: field #0 is missing required 'name'" from rfl] at hmember
      simp at hmember
    · cases hfield
  refine ⟨ofJson_eq_error_iff.mpr
    (.inr ⟨_, _, faultAt_nameless.lists, faultAt_nameless.refused⟩), faultAt_nameless,
    hhidden, fun h => hhidden h.around⟩

end TableSchema

end WarehouseLoader
