import WarehouseLoader.Proofs.Loader.Reporting
import WarehouseLoader.Proofs.Template.Rendering

/-!
# Resolving a reported unit again

A unit that was reported on carries the resolved dataset and table under the
names from which the templates of these properties read by default. So a unit
that comes back is resolved against what its own load wrote, and whether it
goes to the same table is a question about the three properties that have
templates: project, dataset and table. Everything else in the settings is the
configured text and does not look at the unit (`resolve_eq_ok_iff`).

Rendering reads a unit through the names in the templates alone. A name the
report does not write says what it said. The dataset's own attribute says the
resolved dataset, which is what it said before if the template is that name and
nothing else, and the same goes for the table. A template that puts something
around such a name, or reads another name that is written, reads back something
else than it read.
-/

namespace WarehouseLoader.Loader

/-- The properties of a load that are worked out for each unit. -/
def targets : List PropertyDescriptor := [projectId, dataset, tableName]

/-- The names that the value of a property asks for. -/
def mentions (c : ProcessContext) (d : PropertyDescriptor) : List String :=
  match (c.property d).raw with
  | some raw => Template.names raw
  | none => []

/-- What a name stands for in the templates of a unit. -/
def meaning (c : ProcessContext) (attributes : Attributes) (name : String) :
    Option String :=
  Template.Context.get? ⟨some attributes, c.vars⟩ name

/-- The value of the property is the attribute of its own name, and nothing
else. -/
def ReadsItself (c : ProcessContext) (d : PropertyDescriptor) : Prop :=
  ∃ raw e, (c.property d).raw = some raw ∧ Template.scan raw = [.expression e] ∧
    String.ofList e.name = d.name

/-- The templates read nothing that a report writes, but for a dataset that is
worth its own attribute, and a table that is. -/
def ReadsBack (c : ProcessContext) : Prop :=
  ∀ d ∈ targets, ∀ name ∈ mentions c d, name ∉ Attribute.written ∨
    (name = dataset.name ∧ ReadsItself c dataset) ∨
    (name = tableName.name ∧ ReadsItself c tableName)

variable {c : ProcessContext} {u : FlowUnit} {s : LoadSettings}

/-! ### Evaluation -/

theorem evaluate_of_static {v : PropertyValue} (h : v.descriptor.templates = false)
    (attributes : Option Attributes) : v.evaluate attributes = .ok v.raw := by
  rw [PropertyValue.evaluate]
  cases v.raw with
  | none => rfl
  | some raw => simp only [h, Bool.false_eq_true, if_false]

theorem evaluateRequired_congr {d : PropertyDescriptor}
    {attributes attributes' : Attributes}
    (h : ∀ name ∈ mentions c d, meaning c attributes name = meaning c attributes' name) :
    (c.property d).evaluateRequired (some attributes) =
      (c.property d).evaluateRequired (some attributes') := by
  have hevaluate : (c.property d).evaluate (some attributes) =
      (c.property d).evaluate (some attributes') := by
    rw [PropertyValue.evaluate, PropertyValue.evaluate]
    rw [mentions] at h
    cases hraw : (c.property d).raw with
    | none => rfl
    | some raw =>
        rw [hraw] at h
        have hrender : Template.render raw ⟨some attributes, c.vars⟩ =
            Template.render raw ⟨some attributes', c.vars⟩ := Template.render_congr h
        simp only [show (c.property d).vars = c.vars from rfl, hrender]
  rw [PropertyValue.evaluateRequired, PropertyValue.evaluateRequired, hevaluate]

theorem meaning_of_readsItself {d : PropertyDescriptor} {attributes : Attributes}
    {value : String} (htemplates : d.templates = true) (hself : ReadsItself c d)
    (h : (c.property d).evaluateRequired (some attributes) = .ok value) :
    meaning c attributes d.name = some value := by
  obtain ⟨raw, e, hraw, hscan, hname⟩ := hself
  rw [PropertyValue.evaluateRequired, PropertyValue.evaluate, hraw] at h
  simp only [] at h
  rw [if_pos (show (c.property d).descriptor.templates = true from htemplates)] at h
  cases hrender : Template.render raw ⟨some attributes, c.vars⟩ with
  | error e => rw [show (c.property d).vars = c.vars from rfl, hrender] at h; cases h
  | ok text =>
      rw [show (c.property d).vars = c.vars from rfl, hrender] at h
      simp only [Except.map] at h
      split at h
      · cases h
      · injection h with h
        subst h
        rw [meaning, ← hname]
        exact (Template.render_eq_ok_iff_of_scan hscan).mp hrender

/-! ### The settings -/

theorem resolve_eq_ok_iff {attributes : Attributes} :
    LoadSettings.resolve c attributes = .ok s ↔
      ((c.property projectId).evaluateRequired (some attributes) = .ok s.table.project ∧
        (c.property dataset).evaluateRequired (some attributes) = .ok s.table.dataset ∧
        (c.property tableName).evaluateRequired (some attributes) = .ok s.table.table) ∧
      (c.property tableSchema).raw = s.schemaText ∧
      (c.property sourceType).parse SourceFormat.parse = .ok s.format ∧
      (c.property createDisposition).parse CreateDisposition.parse =
        .ok s.createDisposition ∧
      (c.property writeDisposition).parse WriteDisposition.parse = .ok s.writeDisposition ∧
      (c.property maxBadRecords).asNat32 = .ok s.maxBadRecords ∧
      (c.property ignoreUnknown).asBool = .ok s.ignoreUnknownValues ∧
      (c.property jobTimeout).asNat64 = .ok s.timeout := by
  have hschema : (c.property tableSchema).evaluate (some attributes) =
      .ok (c.property tableSchema).raw := evaluate_of_static rfl _
  rw [LoadSettings.resolve, hschema]
  simp only [bind_eq_ok_iff, Except.ok.injEq, exists_eq_left']
  constructor
  · rintro ⟨project, hproject, data, hdata, table, htable, format, hformat, create, hcreate,
      write, hwrite, bad, hbad, ignore, hignore, timeout, htimeout, hs⟩
    cases hs
    exact ⟨⟨hproject, hdata, htable⟩, rfl, hformat, hcreate, hwrite, hbad,
      hignore, htimeout⟩
  · rintro ⟨⟨hproject, hdata, htable⟩, hschema, hformat, hcreate, hwrite, hbad,
      hignore, htimeout⟩
    refine ⟨_, hproject, _, hdata, _, htable, _, hformat, _, hcreate, _, hwrite, _, hbad, _,
      hignore, _, htimeout, ?_⟩
    rw [hschema]
    rfl

theorem eq_of_resolve {attributes attributes' : Attributes} {s' : LoadSettings}
    (h : LoadSettings.resolve c attributes = .ok s)
    (h' : LoadSettings.resolve c attributes' = .ok s') :
    s' = { s with table := s'.table } := by
  obtain ⟨-, hschema, hformat, hcreate, hwrite, hbad, hignore, htimeout⟩ :=
    resolve_eq_ok_iff.mp h
  obtain ⟨-, hschema', hformat', hcreate', hwrite', hbad', hignore', htimeout'⟩ :=
    resolve_eq_ok_iff.mp h'
  rw [hschema] at hschema'
  rw [hformat, Except.ok.injEq] at hformat'
  rw [hcreate, Except.ok.injEq] at hcreate'
  rw [hwrite, Except.ok.injEq] at hwrite'
  rw [hbad, Except.ok.injEq] at hbad'
  rw [hignore, Except.ok.injEq] at hignore'
  rw [htimeout, Except.ok.injEq] at htimeout'
  rw [hschema', hformat', hcreate', hwrite', hbad', hignore', htimeout']

theorem resolve_again_iff {attributes attributes' : Attributes}
    (h : LoadSettings.resolve c attributes = .ok s) :
    LoadSettings.resolve c attributes' = .ok s ↔
      ∀ d ∈ targets, (c.property d).evaluateRequired (some attributes') =
        (c.property d).evaluateRequired (some attributes) := by
  obtain ⟨⟨hproject, hdata, htable⟩, hrest⟩ := resolve_eq_ok_iff.mp h
  simp only [targets, List.forall_mem_cons, List.not_mem_nil, false_implies, implies_true,
    and_true]
  rw [resolve_eq_ok_iff, hproject, hdata, htable]
  exact ⟨fun h' => h'.1, fun h' => ⟨h', hrest⟩⟩

/-! ### After a report -/

theorem meaning_of_attribute {attributes : Attributes} {name value : String}
    (h : attributes.get? name = some value) : meaning c attributes name = some value := by
  rw [meaning, Template.Context.get?, Option.bind_some, h]

theorem meaning_report_of_notMem {job : Job} {name : String}
    (h : name ∉ Attribute.written) :
    meaning c (report s job u).2.attributes name = meaning c u.attributes name := by
  have hsame : (report s job u).2.attributes.get? name = u.attributes.get? name :=
    attribute?_report_of_notMem h
  rw [meaning, meaning, Template.Context.get?, Template.Context.get?, Option.bind_some,
    Option.bind_some, hsame]
  rfl

theorem meaning_report_of_mem {job : Job} {name value : String}
    (h : (name, value) ∈ reported s job) :
    meaning c (report s job u).2.attributes name = some value :=
  meaning_of_attribute (attribute?_report_of_mem h)

theorem ReadsBack.meaning_report (hback : ReadsBack c)
    (h : LoadSettings.resolve c u.attributes = .ok s) (job : Job) {d : PropertyDescriptor}
    (hd : d ∈ targets) {name : String} (hname : name ∈ mentions c d) :
    meaning c (report s job u).2.attributes name = meaning c u.attributes name := by
  obtain ⟨⟨-, hdata, htable⟩, -⟩ := resolve_eq_ok_iff.mp h
  rcases hback d hd name hname with hfree | ⟨rfl, hself⟩ | ⟨rfl, hself⟩
  · exact meaning_report_of_notMem hfree
  · rw [meaning_of_readsItself rfl hself hdata]
    exact meaning_report_of_mem (List.mem_append_left _
      (by simp [LoadSettings.attributes, dataset]))
  · rw [meaning_of_readsItself rfl hself htable]
    exact meaning_report_of_mem
      (List.mem_append_left _ (by simp [LoadSettings.attributes, tableName]))

theorem raw_of_default {d : PropertyDescriptor} (h : c.properties.get? d.name = none) :
    (c.property d).raw = d.fallback := by
  rw [ProcessContext.property, h, Option.none_or]

/-- The default templates read back no more than that. -/
theorem readsBack_of_defaults (hdata : c.properties.get? dataset.name = none)
    (htable : c.properties.get? tableName.name = none)
    (hproject : ∀ name ∈ mentions c projectId, name ∉ Attribute.written) : ReadsBack c := by
  have hscan : Template.scan "\x7b\x7b bq.dataset \x7d\x7d" =
      [.expression ⟨"\x7b\x7b bq.dataset \x7d\x7d".toList, "bq.dataset".toList⟩] :=
        by decide
  have hscan' : Template.scan "\x7b\x7b bq.table.name \x7d\x7d" =
      [.expression ⟨"\x7b\x7b bq.table.name \x7d\x7d".toList, "bq.table.name".toList⟩] := by
    decide
  intro d hd name hname
  simp only [targets, List.mem_cons, List.not_mem_nil, or_false] at hd
  rcases hd with rfl | rfl | rfl
  · exact .inl (hproject name hname)
  · refine .inr (.inl ⟨?_, _, _, raw_of_default hdata, hscan, rfl⟩)
    rw [mentions, raw_of_default hdata] at hname
    exact List.mem_singleton.mp hname
  · refine .inr (.inr ⟨?_, _, _, raw_of_default htable, hscan', rfl⟩)
    rw [mentions, raw_of_default htable] at hname
    exact List.mem_singleton.mp hname

/-- Resolving a reported unit again. The settings can differ in the table
alone; they are the same exactly if project, dataset and table are worth the
same to the reported unit. That is so if the report leaves what the templates
of the three read as it was, and it always is if these read back no more than
their own attributes. -/
theorem resolve_reported (h : LoadSettings.resolve c u.attributes = .ok s) (job : Job) :
    let told := (report s job u).2.attributes
    (∀ s', LoadSettings.resolve c told = .ok s' → s' = { s with table := s'.table }) ∧
    (LoadSettings.resolve c told = .ok s ↔
      ∀ d ∈ targets, (c.property d).evaluateRequired (some told) =
        (c.property d).evaluateRequired (some u.attributes)) ∧
    ((∀ d ∈ targets, ∀ name ∈ mentions c d,
        meaning c told name = meaning c u.attributes name) →
      LoadSettings.resolve c told = .ok s) ∧
    (ReadsBack c → LoadSettings.resolve c told = .ok s) := by
  intro told
  have hkept : (∀ d ∈ targets, ∀ name ∈ mentions c d,
      meaning c told name = meaning c u.attributes name) →
      LoadSettings.resolve c told = .ok s := fun hread =>
    (resolve_again_iff h).mpr fun d hd => evaluateRequired_congr (hread d hd)
  exact ⟨fun s' h' => eq_of_resolve h h', resolve_again_iff h, hkept,
    fun hback => hkept fun d hd name hname => hback.meaning_report h job hd hname⟩

/-- The default templates, and a job that failed. -/
theorem resolve_reported_by_default :
    let c : ProcessContext := ⟨.ofList [("gcp.project.id", "acme")], .null⟩
    let u :=
      FlowUnit.new 1 [] (.ofList [("bq.dataset", "sales"), ("bq.table.name", "orders")])
    let job : Job :=
      { Job.empty with status := ⟨"DONE", some ⟨"no such field", "invalid", none⟩⟩ }
    ∃ s, LoadSettings.resolve c u.attributes = .ok s ∧ ReadsBack c ∧
      s.table = ⟨"acme", "sales", "orders"⟩ ∧
      LoadSettings.resolve c (report s job u).2.attributes = .ok s := by
  intro c u job
  have hresolve : LoadSettings.resolve c u.attributes =
    .ok ⟨⟨"acme", "sales", "orders"⟩, none,
      .avro, .ifNeeded, .empty, 0, true, 300⟩ := by decide +kernel
  have hback : ReadsBack c := readsBack_of_defaults (by decide) (by decide) (by decide)
  exact ⟨_, hresolve, hback, rfl, (resolve_reported hresolve job).2.2.2 hback⟩

/-- A template that adds to its own attribute adds to it again: the unit that
comes back is loaded into another dataset. -/
theorem resolve_reported_moves_dataset :
    let c : ProcessContext := ⟨.ofList [("gcp.project.id", "acme"),
      ("bq.dataset", "\x7b\x7b bq.dataset \x7d\x7d_raw"),
      ("bq.table.name", "orders")], .null⟩
    let u := FlowUnit.new 1 [] (.ofList [("bq.dataset", "sales")])
    let job : Job :=
      { Job.empty with status := ⟨"DONE", some ⟨"no such field", "invalid", none⟩⟩ }
    ∃ s s', LoadSettings.resolve c u.attributes = .ok s ∧
      LoadSettings.resolve c (report s job u).2.attributes = .ok s' ∧
      s.table.dataset = "sales_raw" ∧ s'.table.dataset = "sales_raw_raw" := by
  intro c u job
  refine ⟨⟨⟨"acme", "sales_raw", "orders"⟩, none, .avro, .ifNeeded, .empty, 0, true, 300⟩,
    ⟨⟨"acme", "sales_raw_raw", "orders"⟩, none, .avro, .ifNeeded, .empty, 0, true, 300⟩,
    ?_, ?_, rfl, rfl⟩
  · decide +kernel
  · decide +kernel

end WarehouseLoader.Loader
