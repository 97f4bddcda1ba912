import WarehouseLoader.LoadJob.Options
import WarehouseLoader.Property.Context
import WarehouseLoader.Proofs.Template.Rendering

/-!
# What an accepted value is good for

Validation and evaluation look at the same text by different code. Validation
goes by the mark of a template, by the list of allowable values and by the
validator; evaluation renders, looks a name up or reads a number. Here is, for
each check of the validator, what a text that passed it can be read as. Where
templates are not supported there is one thing more to it: a text that passed
is no template, so the list and the validator did see it.

A property that supports templates is accepted by its form alone, and can still
come to nothing when a unit is there. `Unresolved` says in which ways.
-/

namespace WarehouseLoader

theorem ensureValid_eq_ok_iff {results : List ValidationResult} :
    ensureValid results = .ok () ↔ ∀ r ∈ results, r.explanation = none := by
  have hproblems : (results.filterMap fun r => r.explanation.map fun e =>
      s!"{r.subject}: {e}") = [] ↔
        ∀ r ∈ results, r.explanation = none := by
    simp only [List.filterMap_eq_nil_iff, Option.map_eq_none_iff]
  rw [← hproblems, ensureValid]
  split
  · next hnone => exact ⟨fun _ => hnone, fun _ => rfl⟩
  · next hsome => exact ⟨fun h => (by cases h), fun h => absurd h hsome⟩

theorem complaint?_of_ensureValid {c : ProcessContext}
    {descriptors : List PropertyDescriptor} {d : PropertyDescriptor}
    (h : ensureValid (c.validate descriptors) = .ok ()) (hd : d ∈ descriptors) :
    d.complaint? (c.property d).raw = none := by
  have hmem : ⟨d.name, d.complaint? (c.property d).raw⟩ ∈ c.validate descriptors :=
    List.mem_append_left _ (List.mem_map.mpr ⟨d, hd, rfl⟩)
  exact ensureValid_eq_ok_iff.mp h _ hmem

namespace PropertyDescriptor

variable {d : PropertyDescriptor} {raw : String}

theorem exists_of_accepted {value : Option String} (h : d.complaint? value = none)
    (hrequired : d.required = true) : ∃ raw, value = some raw := by
  cases value with
  | some raw => exact ⟨raw, rfl⟩
  | none =>
      rw [complaint?, if_pos hrequired] at h
      cases h

theorem listed_iff :
    ¬ (d.allowable ≠ [] ∧ raw ∉ d.allowable) ↔ d.allowable = [] ∨ raw ∈ d.allowable := by
  rw [Classical.not_and_iff_not_or_not, Classical.not_not, Classical.not_not]

theorem checked_of_accepted (h : d.complaint? (some raw) = none)
    (hstatic : d.templates = false) :
    (d.allowable = [] ∨ raw ∈ d.allowable) ∧ d.validator.complaint? raw = none := by
  rw [complaint?] at h
  simp only [hstatic, Bool.false_eq_true, if_false] at h
  split at h
  · cases h
  · split at h
    · cases h
    · next hlisted => exact ⟨listed_iff.mp hlisted, h⟩

end PropertyDescriptor

/-! ### Reading what was accepted -/

theorem exists_bool?_of_accepted {raw : String}
    (h : Validator.boolean.complaint? raw = none) : ∃ b, bool? raw = some b := by
  rw [Validator.complaint?] at h
  split at h
  · next hread => exact Option.isSome_iff_exists.mp hread
  · cases h

theorem exists_nat32?_of_accepted {raw : String}
    (h : Validator.nonNegativeInteger.complaint? raw = none) :
    ∃ n, nat32? raw = some n := by
  rw [Validator.complaint?] at h
  split at h
  · next hread => exact Option.isSome_iff_exists.mp hread
  · cases h

theorem exists_nat64?_of_accepted {raw : String}
    (h : Validator.positiveInteger.complaint? raw = none) :
    ∃ n, nat64? raw = some n ∧ 0 < n := by
  rw [Validator.complaint?] at h
  split at h
  · next hread =>
      obtain ⟨n, hn, hpositive⟩ := (Option.any_eq_true _ _).mp hread
      exact ⟨n, hn, of_decide_eq_true hpositive⟩
  · cases h

theorem exists_parseOption_of_mem {α : Type} {option : String} {all : List α}
    {name : α → String} {raw : String} (h : raw ∈ all.map name) :
    ∃ a, parseOption option all name raw = .ok a := by
  obtain ⟨a, ha, rfl⟩ := List.mem_map.mp h
  have hfound : (all.find? (name · == name a)).isSome = true :=
    List.find?_isSome.mpr ⟨a, ha, beq_self_eq_true (name a)⟩
  obtain ⟨b, hb⟩ := Option.isSome_iff_exists.mp hfound
  exact ⟨b, by rw [parseOption, hb]⟩

namespace PropertyValue

variable {v : PropertyValue} {raw : String}

theorem parse_of_raw {α : Type} {read : String → Except LoadError α}
    (h : v.raw = some raw) : v.parse read = read raw := by
  rw [parse, requiredRaw, h]
  rfl

theorem convert_of_read {α : Type} {read : String → Option α} {complaint : String → String}
    {a : α} (h : v.raw = some raw) (hread : read raw = some a) :
    v.convert read complaint = .ok a := by
  rw [convert, parse_of_raw h, hread]

/-! ### Templates -/

/-- Why a value that is there comes to nothing for a unit. -/
inductive Unresolved (v : PropertyValue) (attributes : Option Attributes) :
    LoadError → Prop where
  | undefined {raw : String} :
      v.raw = some raw → Template.undefinedNames raw ⟨attributes, v.vars⟩ ≠ [] →
      Unresolved v attributes (.undefinedVariable
        (", ".intercalate (Template.undefinedNames raw ⟨attributes, v.vars⟩)))
  | blank {text : String} :
      v.evaluate attributes = .ok (some text) → Text.isBlankText text = true →
      Unresolved v attributes (.invalidValue v.descriptor.name emptyValue)

theorem evaluate_error {attributes : Option Attributes} {e : LoadError}
    (h : v.evaluate attributes = .error e) : Unresolved v attributes e := by
  rw [evaluate] at h
  split at h
  · cases h
  · next raw hraw =>
      split at h
      · cases hrender : Template.render raw ⟨attributes, v.vars⟩ with
        | ok text =>
            rw [hrender] at h
            cases h
        | error e' =>
            rw [hrender] at h
            cases h
            obtain ⟨hundefined, rfl⟩ := Template.render_eq_error_iff.mp hrender
            exact .undefined hraw hundefined
      · cases h

theorem evaluate_ne_none {attributes : Option Attributes} (hraw : v.raw = some raw) :
    v.evaluate attributes ≠ .ok none := by
  rw [evaluate, hraw]
  simp only []
  split
  · cases Template.render raw ⟨attributes, v.vars⟩ with
    | error e => exact fun h => (by cases h)
    | ok text => exact fun h => (by cases h)
  · exact fun h => (by cases h)

theorem evaluateRequired_error {attributes : Option Attributes} {e : LoadError}
    (hraw : v.raw = some raw) (h : v.evaluateRequired attributes = .error e) :
    Unresolved v attributes e := by
  rw [evaluateRequired] at h
  split at h
  · next hevaluate =>
      cases h
      exact evaluate_error hevaluate
  · next hevaluate => exact absurd hevaluate (evaluate_ne_none hraw)
  · next hevaluate =>
      split at h
      · next hblank =>
          cases h
          exact .blank hevaluate hblank
      · cases h

end PropertyValue

end WarehouseLoader
