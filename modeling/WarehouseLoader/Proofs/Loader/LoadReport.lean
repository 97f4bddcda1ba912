import WarehouseLoader.Proofs.Loader.SchemaReport
import WarehouseLoader.Proofs.Number.Numeral

/-!
# A unit tells how it was loaded

The settings of a load are used twice. They make the configuration that the
channel is opened for, and they are written on the unit as texts. The texts
read back as the configuration (`TellsLoad`), by the same readings that the
properties go through, so a unit that comes back can be loaded in the same way
from what it tells. Of the error it tells what the job has (`TellsError`), and
nothing of an error that it came with. All this is so whether the job went well
or not, and whatever the unit said under these names before.
-/

namespace WarehouseLoader

theorem parseOption_name {α : Type} {option : String} {all : List α} {name : α → String}
    {a : α} (hmem : a ∈ all) (hnames : ∀ b ∈ all, name b = name a → b = a) :
    parseOption option all name (name a) = .ok a := by
  obtain ⟨b, hb⟩ : ∃ b, all.find? (name · == name a) = some b :=
    Option.isSome_iff_exists.mp (List.find?_isSome.mpr ⟨a, hmem, beq_self_eq_true _⟩)
  have hname := List.find?_some hb
  rw [parseOption, hb, hnames b (List.mem_of_find?_eq_some hb) (eq_of_beq hname)]

theorem SourceFormat.parse_name (f : SourceFormat) : SourceFormat.parse f.name = .ok f :=
  parseOption_name (by cases f <;> decide) (by cases f <;> decide)

theorem CreateDisposition.parse_name (d : CreateDisposition) :
    CreateDisposition.parse d.name = .ok d :=
  parseOption_name (by cases d <;> decide) (by cases d <;> decide)

theorem WriteDisposition.parse_name (d : WriteDisposition) :
    WriteDisposition.parse d.name = .ok d :=
  parseOption_name (by cases d <;> decide) (by cases d <;> decide)

theorem nat32?_printed {n : Nat} (h : n < UInt32.size) : nat32? (toString n) = some n := by
  rw [nat32?, show (toString n).toList = Nat.toDigits 10 n from Nat.toList_repr,
    Numeral.readBelow_printed, Numeral.bound32, if_pos h]

theorem lt_of_nat32? {text : String} {n : Nat} (h : nat32? text = some n) :
    n < UInt32.size := by
  obtain ⟨-, hbelow⟩ := Option.filter_eq_some_iff.mp h
  exact of_decide_eq_true hbelow

namespace PropertyValue

theorem convert_eq_ok_iff {α : Type} {v : PropertyValue} {read : String → Option α}
    {complaint : String → String} {a : α} :
    v.convert read complaint = .ok a ↔ ∃ raw, v.raw = some raw ∧ read raw = some a := by
  rw [convert, parse, requiredRaw]
  cases v.raw with
  | none => simp [Except.bind]
  | some raw => cases hread : read raw <;> simp [Except.bind, hread]

end PropertyValue

namespace Loader

variable {c : ProcessContext} {s : LoadSettings} {job : Job} {u : FlowUnit}

theorem bool?_boolText (b : Bool) : bool? (LoadSettings.boolText b) = some b := by
  cases b <;> decide

/-- The unit says something under the name that reads as the value. -/
def Says {α : Type} (u : FlowUnit) (name : String) (read : String → Option α) (value : α) :
    Prop :=
  ∃ text, u.attribute? name = some text ∧ read text = some value

/-- What the unit tells of its load is the configuration. -/
structure TellsLoad (u : FlowUnit) (config : LoadConfiguration) : Prop where
  dataset : u.attribute? Attribute.dataset = some config.table.dataset
  tableName : u.attribute? Attribute.tableName = some config.table.table
  format : Says u Attribute.sourceType (Except.toOption ∘ SourceFormat.parse) config.format
  ignoreUnknown : Says u Attribute.ignoreUnknown bool? config.ignoreUnknownValues
  createDisposition : Says u Attribute.createDisposition
    (Except.toOption ∘ CreateDisposition.parse) config.createDisposition
  writeDisposition : Says u Attribute.writeDisposition
    (Except.toOption ∘ WriteDisposition.parse) config.writeDisposition
  maxBadRecords : Says u Attribute.maxBadRecords nat32? config.maxBadRecords

/-- What the unit tells of an error is the error, if there is one. -/
structure TellsError (u : FlowUnit) (error? : Option JobError) : Prop where
  message : u.attribute? Attribute.errorMessage = error?.map (·.message)
  reason : u.attribute? Attribute.errorReason = error?.map (·.reason)
  location : u.attribute? Attribute.errorLocation = error?.bind (·.location)

/-! ### The settings -/

theorem attribute?_report_settings {name text : String} (h : (name, text) ∈ s.attributes) :
    (report s job u).2.attribute? name = some text :=
  attribute?_report_of_mem (List.mem_append_left _ h)

theorem says_report {α : Type} {name : String} (text : String) {read : String → Option α}
    {value : α} (h : (name, text) ∈ s.attributes) (hread : read text = some value) :
    Says (report s job u).2 name read value :=
  ⟨text, attribute?_report_settings h, hread⟩

/-- A unit tells of its load what its settings are, if it can tell how many bad
records it may have. -/
theorem tellsLoad_report (hbad : s.maxBadRecords < UInt32.size) (job : Job) (u : FlowUnit)
    (schema : Option TableSchema) :
    TellsLoad (report s job u).2 (s.configuration schema) where
  dataset := attribute?_report_settings
    (by simp [LoadSettings.attributes, LoadSettings.configuration])
  tableName := attribute?_report_settings
    (by simp [LoadSettings.attributes, LoadSettings.configuration])
  format := says_report s.format.name (by simp [LoadSettings.attributes])
    (congrArg Except.toOption (SourceFormat.parse_name _))
  ignoreUnknown := says_report (LoadSettings.boolText s.ignoreUnknownValues)
    (by simp [LoadSettings.attributes]) (bool?_boolText _)
  createDisposition :=
    says_report s.createDisposition.name (by simp [LoadSettings.attributes])
    (congrArg Except.toOption (CreateDisposition.parse_name _))
  writeDisposition :=
    says_report s.writeDisposition.name (by simp [LoadSettings.attributes])
    (congrArg Except.toOption (WriteDisposition.parse_name _))
  maxBadRecords :=
    says_report (toString s.maxBadRecords) (by simp [LoadSettings.attributes])
    (nat32?_printed hbad)

/-- The number of bad records was read from a text, so it can be told. -/
theorem maxBadRecords_lt_of_resolve {attributes : Attributes}
    (h : LoadSettings.resolve c attributes = .ok s) : s.maxBadRecords < UInt32.size := by
  obtain ⟨-, -, -, -, -, hbad, -, -⟩ := resolve_eq_ok_iff.mp h
  obtain ⟨raw, -, hread⟩ := PropertyValue.convert_eq_ok_iff.mp hbad
  exact lt_of_nat32? hread

/-! ### The error -/

theorem notMem_settings_of_ofErrors {name : String} (h : name ∈ Attribute.ofErrors) :
    name ∉ s.attributes.map (·.1) := by
  have hdisjoint : ∀ name ∈ Attribute.ofErrors, name ∉
      [Attribute.dataset, Attribute.tableName] ++ [Attribute.tableSchema] ++
        [Attribute.sourceType, Attribute.ignoreUnknown, Attribute.createDisposition,
          Attribute.writeDisposition, Attribute.maxBadRecords] := by decide
  exact fun hmem => hdisjoint name h ((names_settings_sublist s).subset hmem)

/-- Of errors a unit tells what its own job has to tell and nothing else. -/
theorem attribute?_report_of_ofErrors {name : String} (h : name ∈ Attribute.ofErrors) :
    (report s job u).2.attribute? name =
      job.error?.bind fun e => (errorAttributes e).lookup name := by
  rw [attribute?_report_of_notMem_settings (notMem_settings_of_ofErrors h),
    if_pos h, Option.or_none, jobAttributes]
  cases job.error? with
  | some e => rfl
  | none =>
      rw [Option.bind_none, lookup_eq_none_iff_notMem]
      intro hmem
      exact absurd h (notMem_ofErrors_of_jobNames ((names_success_sublist job).subset hmem))

theorem tellsError_report (s : LoadSettings) (job : Job) (u : FlowUnit) :
    TellsError (report s job u).2 job.error? where
  message := by
    rw [attribute?_report_of_ofErrors (by decide)]
    cases job.error? <;> rfl
  reason := by
    rw [attribute?_report_of_ofErrors (by decide)]
    cases job.error? <;> rfl
  location := by
    rw [attribute?_report_of_ofErrors (by decide)]
    cases job.error? with
    | none => rfl
    | some e =>
        have hother : (errorAttributes e).lookup Attribute.errorLocation =
            (optional Attribute.errorLocation e.location).lookup
              Attribute.errorLocation := rfl
        rw [Option.bind_some, hother, lookup_optional, if_pos rfl, Option.bind_some]

/-! ### The unit after its load -/

/-- What a unit tells after its load, whatever it came with and whatever became of
the job: how it was loaded, in words that read back as the configuration, the
schema as it is configured or as the unit came with it, and the error of the job.
All else is as it was. -/
theorem report_tells {attributes : Attributes}
    (h : LoadSettings.resolve c attributes = .ok s) (u : FlowUnit) (job : Job)
    (schema : Option TableSchema) :
    let told := (report s job u).2
    told.id = u.id ∧ told.content = u.content ∧
      (∀ name, name ∉ Attribute.written → told.attribute? name = u.attribute? name) ∧
      TellsLoad told (s.configuration schema) ∧
      told.attribute? Attribute.tableSchema =
        (Processor.schemaText c).or (u.attribute? Attribute.tableSchema) ∧
      TellsError told job.error? ∧
      ∀ (σ ω : Type) (W : WarehouseOps σ ω) (start : Processor.State σ),
        Processor.Reports W c start u s schema job →
        let r := Processor.onTrigger W.recorded c
          ⟨start.processor, start.session, (start.world, [])⟩
        r.2.session.transferred = start.session.transferred ++ [report s job u] ∧
          ∃ submitted, r.2.world.2 = [.opened (s.configuration schema), .written u.content,
            .closed, .awaited submitted s.timeout] := by
  intro told
  have htext : Processor.schemaText c = s.schemaText := (resolve_eq_ok_iff.mp h).2.1
  refine ⟨id_report s job u, content_report s job u,
    fun name => attribute?_report_of_notMem,
    tellsLoad_report (maxBadRecords_lt_of_resolve h) job u schema, ?_,
    tellsError_report s job u,
    fun σ ω W start hreports => Processor.calls_of_reports hreports⟩
  rw [htext]
  exact attribute?_report_schema s job u

/-- A unit that comes with a word under every name that a load may write, and a
job that failed somewhere. -/
theorem report_tells_of_marked :
    let c : ProcessContext := ⟨.ofList [("gcp.project.id", "acme"), ("bq.dataset", "sales"),
      ("bq.table.name", "orders"), ("bq.load.max_badrecords", "+7")], .null⟩
    let u := FlowUnit.new 1 [120]
      (.ofList (("owner", "ops") :: Attribute.written.map (·, "earlier")))
    let job : Job :=
      { Job.empty with status := ⟨"DONE",
        some ⟨"no such field", "invalid", some "line 3"⟩⟩ }
    ∃ s, LoadSettings.resolve c u.attributes = .ok s ∧
      let told := (report s job u).2
      told.attribute? "owner" = some "ops" ∧
      TellsLoad told (s.configuration none) ∧ s.maxBadRecords = 7 ∧
      told.attribute? Attribute.tableSchema = some "earlier" ∧
      TellsError told (some ⟨"no such field", "invalid", some "line 3"⟩) := by
  intro c u job
  have hresolve : LoadSettings.resolve c u.attributes =
    .ok ⟨⟨"acme", "sales", "orders"⟩, none,
      .avro, .ifNeeded, .empty, 7, true, 300⟩ := by decide +kernel
  obtain ⟨-, -, hother, hload, hschema, herror, -⟩ := report_tells hresolve u job none
  refine ⟨_, hresolve, ?_, hload, rfl, ?_, herror⟩
  · rw [hother "owner" (by decide)]
    decide +kernel
  · rw [hschema]
    decide +kernel

end Loader

end WarehouseLoader
