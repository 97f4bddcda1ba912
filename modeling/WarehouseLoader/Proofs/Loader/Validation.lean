import WarehouseLoader.Command.Run
import WarehouseLoader.Proofs.Loader.Calls
import WarehouseLoader.Proofs.Loader.Retry
import WarehouseLoader.Proofs.Property.Accepted

/-!
# Validation is sound for running

A configuration is judged before the first unit is there, by the command that
validates and by the processor when it is scheduled. They look at the same two
things in different orders, and accept the same configurations.

What an accepted configuration is worth shows when units come. The seven
properties without templates were judged by their values, and every one of them
reads as what it stands for, whatever the unit is (`Converts`). The three with
templates were judged by their form; they are there, and only what a unit lacks
can keep them from being resolved (`PropertyValue.Unresolved`). The schema was
read once and so can be read again, which leaves a trigger no reason to fail.
-/

namespace WarehouseLoader.Loader

open Config Command

variable {σ ω : Type} {c : ProcessContext}

/-- Every property that does not look at the unit reads as what it stands
for. -/
structure Converts (c : ProcessContext) : Prop where
  format : ∃ format, (c.property sourceType).parse SourceFormat.parse = .ok format
  create :
    ∃ create, (c.property createDisposition).parse CreateDisposition.parse = .ok create
  write : ∃ write, (c.property writeDisposition).parse WriteDisposition.parse = .ok write
  badRecords : ∃ n, (c.property maxBadRecords).asNat32 = .ok n
  ignore : ∃ b, (c.property ignoreUnknown).asBool = .ok b
  timeout : ∃ n, (c.property jobTimeout).asNat64 = .ok n ∧ 0 < n

/-! ### Accepted properties -/

section Accepted

variable {d : PropertyDescriptor}

theorem exists_raw (hvalid : ensureValid (c.validate properties) = .ok ())
    (hd : d ∈ properties) (hrequired : d.required = true) :
    ∃ raw, (c.property d).raw = some raw :=
  PropertyDescriptor.exists_of_accepted (complaint?_of_ensureValid hvalid hd) hrequired

theorem exists_checked (hvalid : ensureValid (c.validate properties) = .ok ())
    (hd : d ∈ properties) (hrequired : d.required = true) (hstatic : d.templates = false) :
    ∃ raw, (c.property d).raw = some raw ∧ (d.allowable = [] ∨ raw ∈ d.allowable) ∧
      d.validator.complaint? raw = none := by
  obtain ⟨raw, hraw⟩ := exists_raw hvalid hd hrequired
  have haccepted := complaint?_of_ensureValid hvalid hd
  rw [hraw] at haccepted
  exact ⟨raw, hraw, PropertyDescriptor.checked_of_accepted haccepted hstatic⟩

/-- A property with a list of allowable values reads as one of the options that
the list was made of. -/
theorem exists_option (hvalid : ensureValid (c.validate properties) = .ok ())
    (hd : d ∈ properties) (hrequired : d.required = true) (hstatic : d.templates = false)
    {α : Type} {option : String} {all : List α} {name : α → String}
    (hlisted : d.allowable = all.map name) (hany : all ≠ []) :
    ∃ a, (c.property d).parse (parseOption option all name) = .ok a := by
  obtain ⟨raw, hraw, hallowed, -⟩ := exists_checked hvalid hd hrequired hstatic
  rw [hlisted] at hallowed
  have hmem : raw ∈ all.map name :=
    hallowed.resolve_left fun h => hany (List.map_eq_nil_iff.mp h)
  rw [PropertyValue.parse_of_raw hraw]
  exact exists_parseOption_of_mem hmem

theorem converts_of_valid (hvalid : ensureValid (c.validate properties) = .ok ()) :
    Converts c where
  format := exists_option hvalid (by simp [properties]) rfl rfl rfl (by decide)
  create := exists_option hvalid (by simp [properties]) rfl rfl rfl (by decide)
  write := exists_option hvalid (by simp [properties]) rfl rfl rfl (by decide)
  badRecords := by
    obtain ⟨raw, hraw, -, hchecked⟩ :=
      exists_checked (d := maxBadRecords) hvalid (by simp [properties]) rfl rfl
    obtain ⟨n, hn⟩ := exists_nat32?_of_accepted hchecked
    exact ⟨n, PropertyValue.convert_of_read hraw hn⟩
  ignore := by
    obtain ⟨raw, hraw, -, hchecked⟩ :=
      exists_checked (d := ignoreUnknown) hvalid (by simp [properties]) rfl rfl
    obtain ⟨b, hb⟩ := exists_bool?_of_accepted hchecked
    exact ⟨b, PropertyValue.convert_of_read hraw hb⟩
  timeout := by
    obtain ⟨raw, hraw, -, hchecked⟩ :=
      exists_checked (d := jobTimeout) hvalid (by simp [properties]) rfl rfl
    obtain ⟨n, hn, hpositive⟩ := exists_nat64?_of_accepted hchecked
    exact ⟨n, PropertyValue.convert_of_read hraw hn, hpositive⟩

end Accepted

/-- Where the rest reads well, the error of a resolution is the error of one of
the three properties that are worked out for the unit. -/
theorem exists_target_of_resolve {attributes : Attributes} {e : LoadError}
    (hconverts : Converts c) (h : LoadSettings.resolve c attributes = .error e) :
    ∃ d ∈ targets, (c.property d).evaluateRequired (some attributes) = .error e := by
  obtain ⟨_, hformat⟩ := hconverts.format
  obtain ⟨_, hcreate⟩ := hconverts.create
  obtain ⟨_, hwrite⟩ := hconverts.write
  obtain ⟨_, hbad⟩ := hconverts.badRecords
  obtain ⟨_, hignore⟩ := hconverts.ignore
  obtain ⟨_, htimeout, -⟩ := hconverts.timeout
  have hschema : (c.property tableSchema).evaluate (some attributes) =
      .ok (c.property tableSchema).raw := evaluate_of_static rfl _
  rw [LoadSettings.resolve, hschema, hformat, hcreate, hwrite, hbad, hignore, htimeout] at h
  cases hproject : (c.property projectId).evaluateRequired (some attributes) with
  | error e' =>
      rw [hproject] at h
      cases h
      exact ⟨projectId, by simp [targets], hproject⟩
  | ok project =>
      cases hdata : (c.property dataset).evaluateRequired (some attributes) with
      | error e' =>
          rw [hproject, hdata] at h
          cases h
          exact ⟨dataset, by simp [targets], hdata⟩
      | ok data =>
          cases htable : (c.property tableName).evaluateRequired (some attributes) with
          | error e' =>
              rw [hproject, hdata, htable] at h
              cases h
              exact ⟨tableName, by simp [targets], htable⟩
          | ok table =>
              rw [hproject, hdata, htable] at h
              cases h

namespace Processor

/-! ### Accepting -/

theorem scheduled_new_iff : (new.onScheduled c).1 = .ok () ↔
    ensureValid (c.validate properties) = .ok () ∧
      ∃ schema, TableSchema.configured (schemaText c) = .ok schema := by
  rw [onScheduled, readSchema, new]
  simp only []
  cases TableSchema.configured (schemaText c) with
  | error e =>
      refine ⟨fun h => (by cases h), ?_⟩
      rintro ⟨-, schema, h⟩
      cases h
  | ok schema => exact ⟨fun h => ⟨h, schema, rfl⟩, fun h => h.1⟩

theorem schemaVerdict_iff : (∃ messages, schemaVerdict c = .ok messages) ↔
    ensureValid (c.validate properties) = .ok () ∧
      ∃ schema, TableSchema.configured (schemaText c) = .ok schema := by
  simp only [schemaVerdict, bind_eq_ok_iff]
  constructor
  · rintro ⟨messages, ⟨⟩, hvalid, schema, hschema, -⟩
    exact ⟨hvalid, schema, hschema⟩
  · rintro ⟨hvalid, schema, hschema⟩
    exact ⟨_, (), hvalid, schema, hschema, rfl⟩

theorem runValidate_iff {m : Machine} {config : String}
    (h : (LoaderConfig.ofFile m config).bind LoaderConfig.context = .ok c) :
    (runValidate m config).outcome = .ok () ↔
      ∃ messages, schemaVerdict c = .ok messages := by
  rw [runValidate, h]
  simp only [Report.after]
  cases schemaVerdict c with
  | error e =>
      refine ⟨fun h => (by cases h), ?_⟩
      rintro ⟨messages, h⟩
      cases h
  | ok messages => exact ⟨fun _ => ⟨messages, rfl⟩, fun _ => rfl⟩

/-! ### Triggers -/

theorem exists_readSchema {schema : Option TableSchema} (p : Processor)
    (h : TableSchema.configured (schemaText c) = .ok schema) :
    ∃ schema' p', p.readSchema c = (.ok schema', p') := by
  rw [readSchema]
  cases p.schema with
  | some kept => exact ⟨kept, p, rfl⟩
  | none =>
      rw [h]
      exact ⟨schema, _, rfl⟩

theorem exists_onTrigger {schema : Option TableSchema} (W : WarehouseOps σ ω) (s : State σ)
    (h : TableSchema.configured (schemaText c) = .ok schema) :
    ∃ o, (onTrigger W c s).1 = .ok o := by
  cases hqueue : s.session.queue with
  | nil => exact ⟨.idle, by rw [onTrigger_of_nil hqueue]⟩
  | cons u rest =>
      obtain ⟨schema', p', hread⟩ := exists_readSchema s.processor h
      exact ⟨_, by rw [onTrigger_of_read hqueue hread]⟩

/-- A fresh processor is scheduled exactly with the configurations that the
validating command accepts. With such a configuration nothing that is required
is missing and nothing reads wrong; a unit can only fail to be resolved for its
project, its dataset or its table, by a name without a value or by a value with
nothing to see; and no trigger fails, whatever the processor has been through
since. -/
theorem validation_sound (c : ProcessContext) :
    let scheduled := (new.onScheduled c).1
    (scheduled = .ok () ↔ ensureValid (c.validate properties) = .ok () ∧
      ∃ schema, TableSchema.configured (schemaText c) = .ok schema) ∧
    (∀ m config, (LoaderConfig.ofFile m config).bind LoaderConfig.context = .ok c →
      ((runValidate m config).outcome = .ok () ↔ scheduled = .ok ())) ∧
    (scheduled = .ok () →
      (∀ d ∈ properties, d.required = true → ∃ raw, (c.property d).raw = some raw) ∧
      Converts c ∧
      (∀ attributes e, LoadSettings.resolve c attributes = .error e →
        ∃ d ∈ targets, (c.property d).evaluateRequired (some attributes) = .error e ∧
          (c.property d).Unresolved (some attributes) e) ∧
      ∀ {σ ω : Type} (W : WarehouseOps σ ω) (s : State σ),
        ∃ o, (onTrigger W c s).1 = .ok o) := by
  intro scheduled
  have hscheduled : scheduled = .ok () ↔ ensureValid (c.validate properties) = .ok () ∧
      ∃ schema, TableSchema.configured (schemaText c) = .ok schema := scheduled_new_iff
  refine ⟨hscheduled, fun m config hconfig => ?_, fun hok => ?_⟩
  · rw [runValidate_iff hconfig, schemaVerdict_iff, hscheduled]
  · obtain ⟨hvalid, schema, hschema⟩ := hscheduled.mp hok
    have hconverts := converts_of_valid hvalid
    refine ⟨fun d hd hrequired => exists_raw hvalid hd hrequired, hconverts,
      fun attributes e herror => ?_, fun W s => exists_onTrigger W s hschema⟩
    obtain ⟨d, hd, hfailed⟩ := exists_target_of_resolve hconverts herror
    have hrequired : d ∈ properties ∧ d.required = true := by
      simp only [targets, List.mem_cons, List.not_mem_nil, or_false] at hd
      rcases hd with rfl | rfl | rfl <;> exact ⟨by simp [properties], rfl⟩
    obtain ⟨raw, hraw⟩ := exists_raw hvalid hrequired.1 hrequired.2
    exact ⟨d, hd, hfailed, PropertyValue.evaluateRequired_error hraw hfailed⟩

end Processor

end WarehouseLoader.Loader
