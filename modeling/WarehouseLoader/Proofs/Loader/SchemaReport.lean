import WarehouseLoader.Proofs.Loader.Retry
import WarehouseLoader.Proofs.Loader.SchemaCache

/-!
# The schema a unit tells and the schema it was loaded with

A load is made with the schema that the processor keeps, and that was settled by
the first text that parses of all that were shown since the last stop
(`schema_lifecycle`). What the unit tells afterwards is the text of the
configuration at hand, or what it came with if that configures none
(`attribute?_report_schema`). The two are worked out apart, so they can differ
in two ways: the kept schema is that of another text, or the unit still tells
about another load.

`report_schema` says exactly when they agree. Under configurations that do not
change their schema, and with units that do not come with one of their own,
they always do.
-/

namespace WarehouseLoader.Loader

variable {settings : LoadSettings} {job : Job} {u : FlowUnit}

theorem attribute?_report_schema (settings : LoadSettings) (job : Job) (u : FlowUnit) :
    (report settings job u).2.attribute? Attribute.tableSchema =
      settings.schemaText.or (u.attribute? Attribute.tableSchema) := by
  cases htext : settings.schemaText with
  | some text =>
      have hmem : (Attribute.tableSchema, text) ∈ reported settings job := by
        rw [reported, LoadSettings.attributes, htext]
        exact List.mem_append_left _ (List.mem_append_left _
          (List.mem_append_right _ List.mem_cons_self))
      rw [attribute?_report_of_mem hmem, Option.some_or]
  | none =>
      have hsettings : Attribute.tableSchema ∉ settings.attributes.map (·.1) := by
        have hnames : settings.attributes.map (·.1) =
            [Attribute.dataset, Attribute.tableName, Attribute.sourceType,
              Attribute.ignoreUnknown, Attribute.createDisposition,
              Attribute.writeDisposition, Attribute.maxBadRecords] := by
          rw [LoadSettings.attributes, htext]
          rfl
        rw [hnames]
        decide
      have hjob : (jobAttributes job).lookup Attribute.tableSchema = none := by
        rw [lookup_eq_none_iff_notMem, jobAttributes]
        cases job.error? with
        | none =>
            exact fun hmem => absurd ((names_success_sublist job).subset hmem) (by decide)
        | some e =>
            exact fun hmem => absurd ((names_error_sublist e).subset hmem) (by decide)
      rw [attribute?_report_of_notMem_settings hsettings, hjob,
        Option.none_or, Option.none_or, if_neg (by decide)]

namespace Processor

variable {σ ω : Type} {W : WarehouseOps σ ω} {p : Processor} {c : ProcessContext}
  {schema : Option TableSchema}

/-! ### Across stops -/

/-- The configurations shown by a call on top of those before it. Stopping
forgets them. -/
def shownBy (seen : List ProcessContext) : HostCall → List ProcessContext
  | .stop => []
  | .schedule c => seen ++ (shown (.schedule c)).toList
  | .trigger c session => seen ++ (shown (.trigger c session)).toList

/-- The configurations shown since the last stop. -/
def shownSince (calls : List HostCall) : List ProcessContext := calls.foldl shownBy []

theorem schema_respond {seen : List ProcessContext}
    (h : p.schema = seen.findSome? ownSchema) (call : HostCall) (w : σ) :
    (respond W p w call).1.schema = (shownBy seen call).findSome? ownSchema := by
  cases call with
  | stop => rfl
  | schedule c | trigger c session =>
      rw [processor_respond (by simp), schema_readAll, h, shownBy, List.findSome?_append]

theorem schema_lifecycle (calls : List HostCall) (w : σ) :
    (lifecycle W calls .new w).1.schema = (shownSince calls).findSome? ownSchema := by
  suffices hrun : ∀ (p : Processor) (seen : List ProcessContext) (w : σ),
      p.schema = seen.findSome? ownSchema →
      (lifecycle W calls p w).1.schema = (calls.foldl shownBy seen).findSome? ownSchema from
    hrun .new [] w rfl
  induction calls with
  | nil => exact fun p seen w h => h
  | cons call rest ih => exact fun p seen w h => ih _ _ _ (schema_respond h call w)

theorem ownSchema_eq_some :
    ownSchema c = some schema ↔ TableSchema.configured (schemaText c) = .ok schema := by
  rw [ownSchema]
  cases TableSchema.configured (schemaText c) <;> simp [Except.toOption]

theorem ownSchema_of_none (h : schemaText c = none) : ownSchema c = some none := by
  rw [ownSchema_eq_some, h]
  rfl

theorem ok_readSchema_iff :
    (p.readSchema c).1 = .ok schema ↔ p.schema.or (ownSchema c) = some schema := by
  rw [readSchema]
  cases p.schema with
  | some kept => simp
  | none =>
      rw [Option.none_or, ownSchema_eq_some]
      cases TableSchema.configured (schemaText c) <;> simp

/-! ### A trigger that reports -/

/-- A trigger that comes as far as to report a job on the front unit. -/
structure Reports (W : WarehouseOps σ ω) (c : ProcessContext) (s : State σ) (u : FlowUnit)
    (settings : LoadSettings) (schema : Option TableSchema) (job : Job) : Prop where
  front : s.session.queue.head? = some u
  read : (s.processor.readSchema c).1 = .ok schema
  resolved : LoadSettings.resolve c u.attributes = .ok settings
  loaded : ∃ made w', LoadRun W (settings.configuration schema) u.content
    settings.timeout s.world made (.ok job) w'

/-- The schemas that the channels were opened for. -/
def sentSchemas (calls : List Call) : List (Option TableSchema) :=
  calls.filterMap fun
    | .opened config => some config.schema
    | _ => none

/-- The unit is loaded as the settings say, and transferred as it is reported. -/
theorem calls_of_reports {s : State σ} (h : Reports W c s u settings schema job) :
    let r := onTrigger W.recorded c ⟨s.processor, s.session, (s.world, [])⟩
    r.2.session.transferred = s.session.transferred ++ [report settings job u] ∧
      ∃ submitted, r.2.world.2 =
        [.opened (settings.configuration schema), .written u.content, .closed,
          .awaited submitted settings.timeout] := by
  obtain ⟨rest, hqueue⟩ := List.head?_eq_some_iff.mp h.front
  obtain ⟨made, w', hload⟩ := h.loaded
  have hmade : ∃ submitted, made =
      [.opened (settings.configuration schema), .written u.content,
        .closed, .awaited submitted settings.timeout] := by
    cases hload
    exact ⟨_, rfl⟩
  have hread : s.processor.readSchema c = (.ok schema, (s.processor.readSchema c).2) :=
    Prod.ext h.read rfl
  have htrigger := onTrigger_of_read (W := W.recorded)
    (s := ⟨s.processor, s.session, (s.world, [])⟩) hqueue hread
  simp only [process, h.resolved, load_of_loadRun hload, routeReported, List.nil_append]
    at htrigger
  simp only [htrigger]
  refine ⟨rfl, ?_⟩
  cases job.error? <;> exact hmade

theorem onTrigger_of_reports {s : State σ} (h : Reports W c s u settings schema job) :
    let r := onTrigger W.recorded c ⟨s.processor, s.session, (s.world, [])⟩
    r.2.session.transferred = s.session.transferred ++ [report settings job u] ∧
      sentSchemas r.2.world.2 = [schema] := by
  intro r
  obtain ⟨htransferred, submitted, hcalls⟩ := calls_of_reports h
  refine ⟨htransferred, ?_⟩
  rw [show r.2.world.2 = _ from hcalls]
  rfl

/-- What a unit tells about its schema, and what it was loaded with, after any
calls of a host. With a text configured the two agree exactly if no other was
kept, and without one exactly if the unit came with a text for what was kept.
If all the configurations since the last stop have one text, and the unit does
not come with one where none is configured, they agree. -/
theorem report_schema (W : WarehouseOps σ ω) (before : List HostCall) (w : σ)
    (c : ProcessContext) (session : Session)
    (h : Reports W c ⟨(lifecycle W before .new w).1, session,
      (lifecycle W before .new w).2⟩ u
      settings schema job) :
    let start := lifecycle W before .new w
    let r := onTrigger W.recorded c ⟨start.1, session, (start.2, [])⟩
    let kept := (shownSince before).findSome? ownSchema
    let told := (report settings job u).2.attribute? Attribute.tableSchema
    r.2.session.transferred = session.transferred ++ [report settings job u] ∧
      sentSchemas r.2.world.2 = [schema] ∧
      kept.or (ownSchema c) = some schema ∧
      told = (schemaText c).or (u.attribute? Attribute.tableSchema) ∧
      (schemaText c ≠ none → (TableSchema.configured told = .ok schema ↔
        ∀ other, kept = some other → ownSchema c = some other)) ∧
      (schemaText c = none → (TableSchema.configured told = .ok schema ↔
        TableSchema.configured (u.attribute? Attribute.tableSchema) =
          .ok (kept.getD none))) ∧
      ((∀ c' ∈ shownSince before, schemaText c' = schemaText c) →
        (schemaText c = none → u.attribute? Attribute.tableSchema = none) →
        TableSchema.configured told = .ok schema) := by
  intro start r kept told
  obtain ⟨htransferred, hsent⟩ := onTrigger_of_reports h
  have hschema : kept.or (ownSchema c) = some schema := by
    have hread := ok_readSchema_iff.mp h.read
    rwa [schema_lifecycle] at hread
  have htold : told = (schemaText c).or (u.attribute? Attribute.tableSchema) := by
    have htext : schemaText c = settings.schemaText := (resolve_eq_ok_iff.mp h.resolved).2.1
    rw [htext]
    exact attribute?_report_schema settings job u
  have hown : schemaText c ≠ none → (TableSchema.configured told = .ok schema ↔
      ∀ other, kept = some other → ownSchema c = some other) := by
    intro htext
    obtain ⟨text, htext⟩ := Option.ne_none_iff_exists'.mp htext
    rw [htold, htext, Option.some_or, ← htext, ← ownSchema_eq_some]
    cases hkept : kept with
    | none =>
        rw [hkept, Option.none_or] at hschema
        exact ⟨fun _ other hother => (by cases hother), fun _ => hschema⟩
    | some other =>
        rw [hkept, Option.some_or] at hschema
        rw [← hschema]
        exact ⟨fun hown _ hother => hown.trans hother, fun hall => hall other rfl⟩
  have hleft : schemaText c = none → (TableSchema.configured told = .ok schema ↔
      TableSchema.configured (u.attribute? Attribute.tableSchema) =
        .ok (kept.getD none)) := by
    intro htext
    have hnone := ownSchema_of_none htext
    have hgetD : kept.getD none = schema := by
      rw [hnone] at hschema
      cases hkept : kept with
      | none =>
          rw [hkept] at hschema
          exact Option.some.inj hschema
      | some other =>
          rw [hkept] at hschema
          exact Option.some.inj hschema
    rw [htold, htext, Option.none_or, hgetD]
  refine ⟨htransferred, hsent, hschema, htold, hown, hleft, fun hsame hbare => ?_⟩
  have hagree : ∀ other, kept = some other → ownSchema c = some other := by
    intro other hother
    obtain ⟨c', hc', hfirst⟩ := List.exists_of_findSome?_eq_some hother
    rwa [ownSchema, hsame c' hc'] at hfirst
  cases htext : schemaText c with
  | some text => exact (hown (by rw [htext]; exact Option.some_ne_none text)).mpr hagree
  | none =>
      refine (hleft htext).mpr ?_
      rw [hbare htext]
      cases hkept : kept with
      | none => rfl
      | some other =>
          have hnone := (ownSchema_of_none htext).symm.trans (hagree other hkept)
          exact congrArg Except.ok (Option.some.inj hnone)

/-! ### Agreement and difference -/

/-- A warehouse where every load goes well. -/
def finishingWarehouse : WarehouseOps Unit Unit where
  openChannel _ w := (.ok (), w)
  write _ content w := (.ok content.length, (), w)
  close _ w := (.ok .empty, w)
  wait job _ w := (some (.ok job), w)
  log _ _ w := w

/-- The table of orders, with or without a schema. -/
def ordersContext (schema : List (String × String)) : ProcessContext :=
  contextOf ([("gcp.project.id", "acme"), ("bq.dataset", "sales"),
    ("bq.table.name", "orders")] ++
    schema)

theorem loaded_finishing (config : LoadConfiguration) (content : Bytes) (seconds : Nat) :
    ∃ made w', LoadRun finishingWarehouse config content seconds () made (.ok .empty) w' :=
  ⟨_, _, .finished (rfl : finishingWarehouse.openChannel config () =
    (.ok (), ())) rfl rfl rfl⟩

theorem exists_reports {s : State Unit} (hfront : s.session.queue.head? = some u)
    (hread : (s.processor.readSchema c).1.isOk = true)
    (hresolve : (LoadSettings.resolve c u.attributes).isOk = true) :
    ∃ settings schema, Reports finishingWarehouse c s u settings schema .empty := by
  cases hs : (s.processor.readSchema c).1 with
  | error e => rw [hs] at hread; cases hread
  | ok schema =>
      cases hr : LoadSettings.resolve c u.attributes with
      | error e => rw [hr] at hresolve; cases hresolve
      | ok settings => exact ⟨settings, schema, hfront, hs, hr, loaded_finishing _ _ _⟩

/-- After a stop the schema of an earlier configuration is forgotten, and the
unit tells what it was loaded with. -/
theorem report_schema_after_stop :
    let before :=
      [HostCall.schedule (ordersContext [("bq.table.schema", oneString)]), .stop]
    let c := ordersContext [("bq.table.schema", oneInteger)]
    let u := FlowUnit.new 1 [120] .empty
    let start := lifecycle finishingWarehouse before .new ()
    ∃ settings schema,
      Reports finishingWarehouse c ⟨start.1, ⟨[u], [], 1⟩, start.2⟩ u
        settings schema .empty ∧
      TableSchema.configured
        ((report settings .empty u).2.attribute? Attribute.tableSchema) = .ok schema := by
  intro before c u start
  obtain ⟨settings, schema, hreports⟩ := exists_reports (c := c) (u := u)
    (s := ⟨start.1, ⟨[u], [], 1⟩, start.2⟩) rfl (by decide +kernel) (by decide +kernel)
  obtain ⟨-, -, -, -, -, -, hsame⟩ :=
    report_schema finishingWarehouse before () c _ hreports
  refine ⟨settings, schema, hreports, hsame (fun c' hc' => (by cases hc')) fun hnone => ?_⟩
  rfl

/-- The texts of schemas that the routed units tell. -/
def toldSchemas (session : Session) : List (Option String) :=
  session.transferred.map (·.2.attribute? Attribute.tableSchema)

/-- A text that is new since scheduling is told but not loaded with, and a text
that a unit came with is told though no schema was sent. -/
theorem report_tells_other_schema :
    let first := ordersContext [("bq.table.schema", oneString)]
    let second := ordersContext [("bq.table.schema", oneInteger)]
    let bare := ordersContext []
    let u := FlowUnit.new 1 [120] .empty
    let marked := u.putAttribute "bq.table.schema" oneString
    let trigger (before : List HostCall) (c : ProcessContext) (u : FlowUnit) :=
      (onTrigger finishingWarehouse.recorded c
        ⟨(lifecycle finishingWarehouse before .new ()).1, ⟨[u], [], 1⟩, ((), [])⟩).2
    let changed := trigger [.schedule first] second u
    let brought := trigger [.schedule bare] bare marked
    (sentSchemas changed.world.2).map (columns ∘ some) = [some (some ["a"])] ∧
      toldSchemas changed.session = [some oneInteger] ∧
      columns (TableSchema.configured (some oneInteger)).toOption = some (some ["b"]) ∧
      (sentSchemas brought.world.2).map (columns ∘ some) = [some none] ∧
      toldSchemas brought.session = [some oneString] ∧
      columns (TableSchema.configured (some oneString)).toOption = some (some ["a"]) := by
  decide +kernel

end Processor

end WarehouseLoader.Loader
