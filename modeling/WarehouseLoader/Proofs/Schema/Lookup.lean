import Mathlib.Data.List.Basic
import WarehouseLoader.Proofs.Schema.RoundTrip

/-!
# Columns are found by their names

A column is looked up by its exact name and the first of that name is taken,
while a description keeps the names of siblings apart without regard to case.
The second makes the first exact: below one list there is one column of each
name, so "the first" leaves nothing out, and a chain of names leads to one node
of the tree or to none.

A node is known by its place, the numbers of the columns that lead to it
(`NodeAt`); two nodes may look alike. That no two of them have the same chain
of names (`NodeAt.unique`) and that following the chain arrives
(`follow?_eq_some_iff`) both come from what holds at every level of the tree
(`Tidy`). Every level is described by a list of descriptors
(`Level.described`), and that carries it down.
-/

namespace WarehouseLoader

namespace Field

/-- The node is at the place. The names are those on the way, its own last. -/
inductive NodeAt : List Field → List Nat → List String → Field → Prop
  | here {fields i f} (h : fields[i]? = some f) : NodeAt fields [i] [f.name] f
  | inside {fields i r columns place names f} (h : fields[i]? = some r)
      (hcolumns : r.fields = some columns) (hinner : NodeAt columns place names f) :
      NodeAt fields (i :: place) (r.name :: names) f

/-- The lists of siblings in a tree: the outermost and those of all records. -/
inductive Level : List Field → List Field → Prop
  | top {fields} : Level fields fields
  | inside {fields r columns level} (h : r ∈ fields) (hcolumns : r.fields = some columns)
      (hinner : Level columns level) : Level fields level

structure Tidy (level : List Field) : Prop where
  distinct : level.Pairwise fun f g => f.key ≠ g.key
  named : ∀ f ∈ level, f.name ≠ ""
  records : ∀ f ∈ level, f.type = .record →
    ∃ columns, f.fields = some columns ∧ columns ≠ []
  scalars : ∀ f ∈ level, f.type ≠ .record → f.fields = none

variable {items : List Json} {item : Json} {fields level : List Field} {f g : Field}
  {names : List String}

/-! ### What a description keeps -/

theorem Describes.columns (h : Describes item f) {columns : List Field}
    (hcolumns : f.fields = some columns) : ∃ inner, DescribesAll inner columns := by
  cases h with
  | scalar hhead hscalar habsent => cases hcolumns
  | record hhead hlist hsome hitems =>
      cases hcolumns
      exact ⟨_, hitems⟩

theorem DescribesAll.of_mem (h : DescribesAll items fields) (hf : f ∈ fields) :
    ∃ item ∈ items, Describes item f := by
  induction items generalizing fields with
  | nil =>
      cases h
      cases hf
  | cons first rest ih =>
      cases h with
      | cons hfirst hrest hnew =>
          rcases List.mem_cons.mp hf with rfl | hf
          · exact ⟨_, List.mem_cons_self, hfirst⟩
          · obtain ⟨item, hitem, hdescribes⟩ := ih hrest hf
            exact ⟨item, List.mem_cons_of_mem _ hitem, hdescribes⟩

theorem DescribesAll.distinct (h : DescribesAll items fields) :
    fields.Pairwise fun f g => f.key ≠ g.key := by
  induction items generalizing fields with
  | nil =>
      cases h
      exact .nil
  | cons first rest ih =>
      cases h with
      | cons hfirst hrest hnew =>
          exact .cons (fun other hother => Ne.symm (hnew other hother)) (ih hrest)

theorem DescribesAll.tidy (h : DescribesAll items fields) : Tidy fields where
  distinct := h.distinct
  named f hf := by
    obtain ⟨item, -, hitem⟩ := h.of_mem hf
    cases hitem with
    | scalar hhead | record hhead => exact hhead.name.nonempty
  records f hf hrecord := by
    obtain ⟨item, -, hitem⟩ := h.of_mem hf
    cases hitem with
    | scalar hhead hscalar habsent => exact absurd hrecord hscalar
    | record hhead hlist hsome hitems => exact ⟨_, rfl, hitems.ne_nil_iff.mp hsome⟩
  scalars f hf hscalar := by
    obtain ⟨item, -, hitem⟩ := h.of_mem hf
    cases hitem with
    | scalar => rfl
    | record => exact absurd rfl hscalar

theorem Level.described (hlevel : Level fields level) (h : DescribesAll items fields) :
    ∃ inner, DescribesAll inner level := by
  induction hlevel generalizing items with
  | top => exact ⟨items, h⟩
  | inside hmem hcolumns hinner ih =>
      obtain ⟨item, -, hitem⟩ := h.of_mem hmem
      obtain ⟨inner, hdescribed⟩ := hitem.columns hcolumns
      exact ih hdescribed

/-! ### Following names -/

theorem find?_name (h : fields.Pairwise fun f g => f.key ≠ g.key) (hf : f ∈ fields) :
    fields.find? (·.name == f.name) = some f := by
  induction fields with
  | nil => cases hf
  | cons first rest ih =>
      obtain ⟨hfirst, hrest⟩ := List.pairwise_cons.mp h
      rcases List.mem_cons.mp hf with rfl | hf
      · exact List.find?_cons_of_pos (beq_self_eq_true _)
      · -- Equal names would be equal in lower case.
        have hother : first.name ≠ f.name := fun hname =>
          hfirst f hf (congrArg Text.lowercase hname)
        rw [List.find?_cons_of_neg (by simpa using hother)]
        exact ih hrest hf

theorem getElem?_of_find? {name : String} (h : fields.find? (·.name == name) = some f) :
    f.name = name ∧ ∃ i : Nat, fields[i]? = some f := by
  have hname := List.find?_some h
  exact ⟨eq_of_beq hname, List.mem_iff_getElem?.mp (List.mem_of_find?_eq_some h)⟩

theorem index_unique (h : fields.Pairwise fun f g => f.key ≠ g.key) {i j : Nat}
    (hi : fields[i]? = some f) (hj : fields[j]? = some g) (hname : f.name = g.name) :
    i = j := by
  obtain ⟨hilt, rfl⟩ := List.getElem?_eq_some_iff.mp hi
  obtain ⟨hjlt, rfl⟩ := List.getElem?_eq_some_iff.mp hj
  have hkey := congrArg Text.lowercase hname
  rw [List.pairwise_iff_getElem] at h
  rcases Nat.lt_trichotomy i j with hlt | heq | hgt
  · exact absurd hkey (h i j hilt hjlt hlt)
  · exact heq
  · exact absurd hkey.symm (h j i hjlt hilt hgt)

theorem follow?_cons (name : String) (names : List String) :
    f.follow? (name :: names) =
      f.fields.bind fun columns => (TableSchema.mk columns).follow? (name :: names) := by
  rw [follow?, subField?]
  cases f.fields <;> rfl

/-- Two nodes do not have the same chain of names. -/
theorem NodeAt.unique {place place' : List Nat} (h : NodeAt fields place names f)
    (h' : NodeAt fields place' names g) (htidy : ∀ level, Level fields level → Tidy level) :
    place = place' ∧ f = g := by
  induction h generalizing place' with
  | here hf =>
      generalize hnames : [Field.name _] = names at h'
      cases h' with
      | here hg =>
          cases index_unique (htidy _ .top).distinct hf hg (List.head_eq_of_cons_eq hnames)
          exact ⟨rfl, Option.some.inj (hf.symm.trans hg)⟩
      | inside hr hcolumns hinner =>
          cases List.tail_eq_of_cons_eq hnames
          cases hinner
  | inside hr hcolumns hinner ih =>
      generalize hnames : Field.name _ :: _ = names at h'
      cases h' with
      | here hg =>
          cases List.tail_eq_of_cons_eq hnames
          cases hinner
      | inside hr' hcolumns' hinner' =>
          cases index_unique (htidy _ .top).distinct hr hr' (List.head_eq_of_cons_eq hnames)
          cases Option.some.inj (hr.symm.trans hr')
          cases Option.some.inj (hcolumns.symm.trans hcolumns')
          cases List.tail_eq_of_cons_eq hnames
          obtain ⟨rfl, hsame⟩ := ih hinner' fun level hlevel =>
            htidy level (.inside (List.mem_of_getElem? hr) hcolumns hlevel)
          exact ⟨rfl, hsame⟩

/-- Names lead to a node exactly if they are its chain of names. -/
theorem follow?_eq_some_iff (htidy : ∀ level, Level fields level → Tidy level) :
    (TableSchema.mk fields).follow? names = some f ↔
      ∃ place, NodeAt fields place names f := by
  constructor
  · intro h
    induction names generalizing fields with
    | nil => cases h
    | cons name rest ih =>
        rw [TableSchema.follow?, TableSchema.field?, Option.bind_eq_some_iff] at h
        obtain ⟨r, hfind, hfollow⟩ := h
        obtain ⟨rfl, i, hi⟩ := getElem?_of_find? hfind
        cases rest with
        | nil =>
            cases hfollow
            exact ⟨[i], .here hi⟩
        | cons next rest =>
            rw [follow?_cons, Option.bind_eq_some_iff] at hfollow
            obtain ⟨columns, hcolumns, hfollow⟩ := hfollow
            obtain ⟨place, hplace⟩ := ih (fun level hlevel =>
              htidy level (.inside (List.mem_of_getElem? hi) hcolumns hlevel)) hfollow
            exact ⟨i :: place, .inside hi hcolumns hplace⟩
  · rintro ⟨place, h⟩
    induction h with
    | here hf =>
        have hfind := find?_name (htidy _ .top).distinct (List.mem_of_getElem? hf)
        rw [TableSchema.follow?, TableSchema.field?, hfind]
        rfl
    | @inside fields i r columns place names f hr hcolumns hinner ih =>
        have hfind := find?_name (htidy _ .top).distinct (List.mem_of_getElem? hr)
        have hbelow := ih fun level hlevel =>
          htidy level (.inside (List.mem_of_getElem? hr) hcolumns hlevel)
        rw [TableSchema.follow?, TableSchema.field?, hfind, Option.bind_some]
        cases names with
        | nil => cases hinner
        | cons next rest => rw [follow?_cons, hcolumns, Option.bind_some, hbelow]

end Field

namespace TableSchema

open WarehouseLoader.Field (NodeAt Level Tidy DescribesAll)

theorem exists_describesAll_of_configured {text : Option String} {s : TableSchema}
    (h : configured text = .ok (some s)) : ∃ items, DescribesAll items s.fields := by
  cases text with
  | none => cases h
  | some t =>
      rw [configured, map_eq_ok_iff] at h
      obtain ⟨s', hs', heq⟩ := h
      cases heq
      obtain ⟨v, -, hv⟩ := ofText_eq_ok_iff.mp hs'
      obtain ⟨items, -, hitems⟩ := ofJson_eq_ok_iff.mp hv
      exact ⟨items, hitems⟩

/-- In a schema that came from a description, following names gives the node
that has them as its chain of names, and nothing if there is none; no two nodes
have the same chain. At every level the names are there and differ in more than
case, and the records are the columns that have columns. -/
theorem lookup_exact {text : Option String} {s : TableSchema}
    (h : configured text = .ok (some s)) :
    (∀ names f, s.follow? names = some f ↔ ∃ place, NodeAt s.fields place names f) ∧
    (∀ place place' names f f', NodeAt s.fields place names f →
      NodeAt s.fields place' names f' → place = place' ∧ f = f') ∧
    ∀ level, Level s.fields level → Tidy level := by
  obtain ⟨items, hitems⟩ := exists_describesAll_of_configured h
  have htidy : ∀ level, Level s.fields level → Tidy level := fun level hlevel =>
    (hlevel.described hitems).elim fun _ hdescribed => hdescribed.tidy
  exact ⟨fun names f => Field.follow?_eq_some_iff htidy,
    fun _ _ _ _ _ hnode hnode' => hnode.unique hnode' htidy, htidy⟩

/-- A schema from its own text, with a name that stands at two levels. -/
theorem lookup_exact_of_nested :
    let inner : Field := .mk "at" .timestamp .nullable none
    let s : TableSchema :=
      ⟨[.mk "at" .string .required none, .mk "r" .record .repeated (some [inner])]⟩
    configured (some s.text) = .ok (some s) ∧ NodeAt s.fields [1, 0] ["r", "at"] inner ∧
      s.follow? ["r", "at"] = some inner ∧ Tidy [inner] := by
  intro inner s
  have hlayered : ∀ f ∈ s.fields, Field.Layered 62 f :=
    List.forall_mem_cons.mpr ⟨.scalar, List.forall_mem_singleton.mpr
      (.record (List.forall_mem_singleton.mpr .scalar))⟩
  have hjson : ofJson s.toJson.sorted = .ok s := by rfl
  have htext : ofText s.text = .ok s := ofText_eq_ok_iff.mpr
    ⟨s.toJson.sorted, Json.ofText?_render (textual_toJson hlayered)
      (within_toJson hlayered), hjson⟩
  have h : configured (some s.text) = .ok (some s) := by rw [configured, htext, Except.map]
  have hnode : NodeAt s.fields [1, 0] ["r", "at"] inner :=
    @NodeAt.inside s.fields 1 (.mk "r" .record .repeated (some [inner]))
      [inner] [0] _ _ rfl rfl
      (@NodeAt.here [inner] 0 inner rfl)
  obtain ⟨hfollow, -, htidy⟩ := lookup_exact h
  exact ⟨h, hnode, (hfollow _ _).mpr ⟨_, hnode⟩,
    htidy _ (.inside (List.mem_cons_of_mem _ List.mem_cons_self) rfl .top)⟩

end TableSchema

end WarehouseLoader
