/-!
# Maps from names

Attributes, properties and the members of a read JSON object are finite maps
from names. The entries are kept in ascending order of the names and each name
has one, so the map is determined by what it gives for each name: two maps that
agree everywhere are equal (`ext_get?`). That is also the order in which maps
are shown.
-/

namespace WarehouseLoader

/-- Ascending names, which also says that each occurs once. -/
def Ascending {α : Type} (entries : List (String × α)) : Prop :=
  entries.Pairwise fun a b => a.1 < b.1

/-- Puts an entry at its place. A name that is there already gets the new
value. -/
def insertEntry {α : Type} (name : String) (value : α) :
    List (String × α) → List (String × α)
  | [] => [(name, value)]
  | (other, v) :: rest =>
    if name < other then (name, value) :: (other, v) :: rest
    else if name = other then (name, value) :: rest
    else (other, v) :: insertEntry name value rest

theorem mem_insertEntry {α : Type} {name : String} {value : α}
    {entries : List (String × α)} {e : String × α}
    (h : e ∈ insertEntry name value entries) : e = (name, value) ∨ e ∈ entries := by
  induction entries with
  | nil => simpa [insertEntry] using h
  | cons head rest ih =>
    obtain ⟨other, v⟩ := head
    rw [insertEntry] at h
    split at h
    · simpa using h
    · split at h
      · rcases List.mem_cons.1 h with h | h
        · exact .inl h
        · exact .inr (List.mem_cons_of_mem _ h)
      · rcases List.mem_cons.1 h with h | h
        · exact .inr (h ▸ List.mem_cons_self)
        · rcases ih h with h | h
          · exact .inl h
          · exact .inr (List.mem_cons_of_mem _ h)

theorem Ascending.insertEntry {α : Type} {name : String} {value : α}
    {entries : List (String × α)} (h : Ascending entries) :
    Ascending (insertEntry name value entries) := by
  induction entries with
  | nil => simp [WarehouseLoader.insertEntry, Ascending]
  | cons head rest ih =>
    obtain ⟨other, v⟩ := head
    obtain ⟨first, later⟩ := List.pairwise_cons.1 h
    rw [WarehouseLoader.insertEntry]
    split
    · next lt =>
      refine List.pairwise_cons.2 ⟨fun e he => ?_, h⟩
      rcases List.mem_cons.1 he with rfl | he
      · exact lt
      · exact String.lt_trans lt (first e he)
    · next notLt =>
      split
      · next eq => exact List.pairwise_cons.2 ⟨fun e he => eq ▸ first e he, later⟩
      · next ne =>
        refine List.pairwise_cons.2 ⟨fun e he => ?_, ih later⟩
        rcases mem_insertEntry he with rfl | he
        · exact Std.lt_of_le_of_ne (String.not_lt.1 notLt) (Ne.symm ne)
        · exact first e he

theorem lookup_entry {α : Type} (name other : String) (value : α)
    (rest : List (String × α)) :
    ((name, value) :: rest).lookup other =
      if other = name then some value else rest.lookup other := by
  by_cases h : other = name
  · subst h; simp
  · rw [List.lookup_cons, if_neg h]
    split
    · next eq => exact absurd (eq_of_beq eq) h
    · rfl

theorem lookup_eq_none_of_lt {α : Type} {name : String} {entries : List (String × α)}
    (h : ∀ e ∈ entries, name < e.1) : entries.lookup name = none := by
  rw [List.lookup_eq_none_iff]
  intro e he
  have lt := h e he
  rw [bne_iff_ne]
  rintro rfl
  exact String.lt_irrefl _ lt

theorem lookup_insertEntry {α : Type} {name : String} {value : α}
    {entries : List (String × α)} (other : String) :
    (insertEntry name value entries).lookup other =
      if other = name then some value else entries.lookup other := by
  induction entries with
  | nil => simp only [insertEntry, lookup_entry]
  | cons head rest ih =>
    obtain ⟨first, v⟩ := head
    rw [insertEntry]
    split
    · rw [lookup_entry]
    · split
      · next eq =>
        subst eq
        rw [lookup_entry, lookup_entry]
        split <;> rfl
      · next ne =>
        rw [lookup_entry, lookup_entry, ih]
        by_cases h : other = first
        · subst h; rw [if_pos rfl, if_neg (Ne.symm ne), if_pos rfl]
        · rw [if_neg h, if_neg h]

structure NameMap (α : Type) where
  entries : List (String × α)
  ascending : Ascending entries

namespace NameMap

variable {α : Type}

def empty : NameMap α := ⟨[], List.Pairwise.nil⟩

instance : Inhabited (NameMap α) := ⟨empty⟩

instance [Repr α] : Repr (NameMap α) := ⟨fun m n => reprPrec m.entries n⟩

instance [DecidableEq α] : DecidableEq (NameMap α) := fun a b =>
  if h : a.entries = b.entries then
    isTrue (by obtain ⟨xs, _⟩ := a; obtain ⟨ys, _⟩ := b; subst h; rfl)
  else
    isFalse fun eq => h (eq ▸ rfl)

def get? (m : NameMap α) (name : String) : Option α := m.entries.lookup name

def insert (m : NameMap α) (name : String) (value : α) : NameMap α :=
  ⟨insertEntry name value m.entries, m.ascending.insertEntry⟩

def erase (m : NameMap α) (name : String) : NameMap α :=
  ⟨m.entries.filter (·.1 != name), m.ascending.filter _⟩

/-- Sets the value of a name, or takes the name away. -/
def set (m : NameMap α) (name : String) : Option α → NameMap α
  | some value => m.insert name value
  | none => m.erase name

/-- Adds entries one after the other, so the last of one name stays. -/
def insertAll (m : NameMap α) (entries : List (String × α)) : NameMap α :=
  entries.foldl (fun m e => m.insert e.1 e.2) m

def ofList (entries : List (String × α)) : NameMap α := empty.insertAll entries

def toList (m : NameMap α) : List (String × α) := m.entries

@[simp]
theorem get?_empty (name : String) : (empty : NameMap α).get? name = none := rfl

@[simp]
theorem get?_insert (m : NameMap α) (name : String) (value : α) (other : String) :
    (m.insert name value).get? other =
      if other = name then some value else m.get? other :=
  lookup_insertEntry other

theorem lookup_filter_ne (entries : List (String × α)) (name other : String) :
    (entries.filter (·.1 != name)).lookup other =
      if other = name then none else entries.lookup other := by
  induction entries with
  | nil => simp
  | cons head rest ih =>
    obtain ⟨first, v⟩ := head
    rw [List.filter_cons, lookup_entry]
    by_cases hf : first = name
    · subst hf
      rw [if_neg (by simp), ih]
      by_cases ho : other = first
      · rw [if_pos ho, if_pos ho]
      · rw [if_neg ho, if_neg ho, if_neg ho]
    · rw [if_pos (by simpa using hf), lookup_entry, ih]
      by_cases ho : other = first
      · subst ho; rw [if_pos rfl, if_neg hf, if_pos rfl]
      · rw [if_neg ho, if_neg ho]

@[simp]
theorem get?_erase (m : NameMap α) (name other : String) :
    (m.erase name).get? other = if other = name then none else m.get? other :=
  lookup_filter_ne m.entries name other

@[simp]
theorem get?_set (m : NameMap α) (name : String) (value : Option α) (other : String) :
    (m.set name value).get? other = if other = name then value else m.get? other := by
  cases value <;> simp [set]

theorem not_lt_of_lookup {x y : String × α} {xs ys : List (String × α)}
    (hy : Ascending (y :: ys))
    (h : ∀ name, (x :: xs).lookup name = (y :: ys).lookup name) : ¬x.1 < y.1 := by
  intro lt
  have eq := h x.1
  rw [lookup_entry, if_pos rfl, lookup_eq_none_of_lt] at eq
  · cases eq
  · intro e he
    rcases List.mem_cons.1 he with rfl | he
    · exact lt
    · exact String.lt_trans lt ((List.pairwise_cons.1 hy).1 e he)

theorem entries_eq_of_lookup {xs ys : List (String × α)} (hx : Ascending xs)
    (hy : Ascending ys) (h : ∀ name, xs.lookup name = ys.lookup name) : xs = ys := by
  induction xs generalizing ys with
  | nil =>
    cases ys with
    | nil => rfl
    | cons e rest =>
      have eq := h e.1
      rw [lookup_entry, if_pos rfl] at eq
      cases eq
  | cons x xs ih =>
    cases ys with
    | nil =>
      have eq := h x.1
      rw [lookup_entry, if_pos rfl] at eq
      cases eq
    | cons y ys =>
      have hn : x.1 = y.1 :=
        String.le_antisymm (String.not_lt.1
          (not_lt_of_lookup hx fun name => (h name).symm))
          (String.not_lt.1 (not_lt_of_lookup hy h))
      obtain ⟨nx, vx⟩ := x
      obtain ⟨ny, vy⟩ := y
      obtain rfl : nx = ny := hn
      have hv : vx = vy := by simpa using h nx
      subst hv
      obtain ⟨firstX, laterX⟩ := List.pairwise_cons.1 hx
      obtain ⟨firstY, laterY⟩ := List.pairwise_cons.1 hy
      congr 1
      refine ih laterX laterY fun name => ?_
      by_cases hname : name = nx
      · subst hname
        rw [lookup_eq_none_of_lt firstX, lookup_eq_none_of_lt firstY]
      · simpa only [lookup_entry, if_neg hname] using h name

/-- A map is what it gives. -/
theorem ext_get? {m n : NameMap α} (h : ∀ name, m.get? name = n.get? name) : m = n := by
  obtain ⟨xs, hx⟩ := m
  obtain ⟨ys, hy⟩ := n
  have := entries_eq_of_lookup hx hy h
  subst this
  rfl

end NameMap

/-- What the pipeline knows about a unit: texts by name. -/
abbrev Attributes := NameMap String

end WarehouseLoader
