import WarehouseLoader.Proofs.Loader.Calls

/-!
# The schema over the calls of a host

A host schedules a processor, triggers it as often as it likes and stops it,
each time with whatever configuration it has then. Of all that the kept schema
sees little: it is the first of the texts shown to the processor that parses,
and it stays until the processor is stopped (`lifecycle_kept`). Scheduling
shows its text whether or not the rest of the configuration is in order, for
the text is read before the properties are judged. So a scheduling that is
refused for its properties leaves its schema behind, and the one that is
refused for its schema does not (`schema_onScheduled`).
-/

namespace WarehouseLoader.Loader.Processor

variable {σ ω : Type} {W : WarehouseOps σ ω} {p : Processor} {c : ProcessContext}

/-- What the configured text of a schema stands for, if it parses. -/
def ownSchema (c : ProcessContext) : Option (Option TableSchema) :=
  (TableSchema.configured (schemaText c)).toOption

theorem ownSchema_eq_none : ownSchema c = none ↔
    ∃ e, TableSchema.configured (schemaText c) = .error e := by
  rw [ownSchema]
  cases TableSchema.configured (schemaText c) with
  | error e => exact ⟨fun _ => ⟨e, rfl⟩, fun _ => rfl⟩
  | ok schema =>
      refine ⟨fun h => (by cases h), ?_⟩
      rintro ⟨e, h⟩
      cases h

theorem schema_readSchema (p : Processor) (c : ProcessContext) :
    (p.readSchema c).2.schema = p.schema.or (ownSchema c) := by
  rw [readSchema, ownSchema]
  cases hkept : p.schema with
  | some schema => exact hkept
  | none =>
      cases TableSchema.configured (schemaText c) with
      | error e => rfl
      | ok schema => rfl

/-- The processor after reading one configuration after the other. -/
def readAll (p : Processor) (contexts : List ProcessContext) : Processor :=
  contexts.foldl (fun p c => (p.readSchema c).2) p

theorem schema_readAll (p : Processor) (contexts : List ProcessContext) :
    (p.readAll contexts).schema = p.schema.or (contexts.findSome? ownSchema) := by
  induction contexts generalizing p with
  | nil => exact (Option.or_none).symm
  | cons c rest ih =>
      rw [readAll, List.foldl_cons, ← readAll, ih, schema_readSchema, Option.or_assoc,
        List.findSome?_cons]
      cases ownSchema c with
      | none => rw [Option.none_or]
      | some schema => rw [Option.some_or]

theorem processor_onScheduled (p : Processor) (c : ProcessContext) :
    (p.onScheduled c).2 = (p.readSchema c).2 := by
  rw [onScheduled]
  cases p.readSchema c with
  | mk outcome p' => cases outcome <;> rfl

theorem processor_onTrigger (s : State σ) :
    (onTrigger W c s).2.processor =
      if s.session.queue = [] then s.processor else (s.processor.readSchema c).2 := by
  rw [onTrigger, Session.take?]
  cases s.session.queue with
  | nil => rfl
  | cons u rest =>
      simp only [reduceCtorEq, if_false]
      cases s.processor.readSchema c with
      | mk outcome p' => cases outcome <;> rfl

theorem schema_onScheduled (p : Processor) (c : ProcessContext) :
    (p.onScheduled c).2.schema = p.schema.or (ownSchema c) := by
  rw [processor_onScheduled, schema_readSchema]

theorem schema_onTrigger (s : State σ) :
    (onTrigger W c s).2.processor.schema =
      if s.session.queue = [] then s.processor.schema
      else s.processor.schema.or (ownSchema c) := by
  rw [processor_onTrigger, ← schema_readSchema]
  split <;> rfl

/-! ### The calls of a host -/

/-- What a host does with a processor. -/
inductive HostCall where
  | schedule (c : ProcessContext)
  | trigger (c : ProcessContext) (session : Session)
  | stop

def respond (W : WarehouseOps σ ω) (p : Processor) (w : σ) : HostCall → Processor × σ
  | .schedule c => ((p.onScheduled c).2, w)
  | .trigger c session =>
    let s := (onTrigger W c ⟨p, session, w⟩).2
    (s.processor, s.world)
  | .stop => (p.onStopped, w)

def lifecycle (W : WarehouseOps σ ω) : List HostCall → Processor → σ → Processor × σ
  | [], p, w => (p, w)
  | call :: rest, p, w => lifecycle W rest (respond W p w call).1 (respond W p w call).2

theorem respond_recorded (call : HostCall) (w : σ × List Call) :
    respond W p w.1 call =
      ((respond W.recorded p w call).1, (respond W.recorded p w call).2.1) := by
  cases call with
  | schedule c | stop => rfl
  | trigger c session =>
      have hsame := onTrigger_recorded (W := W) (c := c) ⟨p, session, w⟩
      simp only [respond, hsame]

theorem lifecycle_recorded (calls : List HostCall) (p : Processor) (w : σ × List Call) :
    lifecycle W calls p w.1 =
      ((lifecycle W.recorded calls p w).1, (lifecycle W.recorded calls p w).2.1) := by
  induction calls generalizing p w with
  | nil => rfl
  | cons call rest ih =>
      rw [lifecycle, lifecycle, respond_recorded call w]
      exact ih _ _

/-- Every channel was opened for the schema. -/
def OpenedFor (schema : Option TableSchema) (calls : List Call) : Prop :=
  ∀ config, .opened config ∈ calls → config.schema = schema

theorem openedFor_of_prefix {schema : Option TableSchema} {settings : LoadSettings}
    {u : FlowUnit} {job : Job} {made : List Call}
    (h : made <+: loadCalls settings schema u job) : OpenedFor schema made := by
  intro config hmem
  have hcall := h.subset hmem
  simp only [loadCalls, List.mem_cons, Call.opened.injEq, reduceCtorEq, List.not_mem_nil,
    or_false] at hcall
  rw [hcall]
  rfl

/-- A call other than stopping keeps the schema that is kept, and loads with
it. -/
theorem respond_kept {schema : Option TableSchema} {call : HostCall} {w : σ × List Call}
    (hkept : p.schema = some schema) (hstop : call ≠ .stop)
    (hopened : OpenedFor schema w.2) :
    (respond W.recorded p w call).1.schema = some schema ∧
      OpenedFor schema (respond W.recorded p w call).2.2 := by
  cases call with
  | stop => exact absurd rfl hstop
  | schedule c =>
      refine ⟨?_, hopened⟩
      show (p.onScheduled c).2.schema = _
      rw [schema_onScheduled, hkept, Option.some_or]
  | trigger c session =>
      have hafter : (onTrigger W.recorded c ⟨p, session, w⟩).2.processor.schema =
          some schema := by
        rw [schema_onTrigger, hkept, Option.some_or, ite_self]
      refine ⟨hafter, ?_⟩
      obtain ⟨made, hcalls, hmade⟩ := calls_onTrigger (W := W) (c := c) ⟨p, session, w⟩
      show OpenedFor schema (onTrigger W.recorded c ⟨p, session, w⟩).2.world.2
      rw [hcalls]
      intro config hmem
      rcases List.mem_append.mp hmem with hold | hnew
      · exact hopened config hold
      · rcases hmade with rfl | ⟨u, schema', settings, job, hschema, -, -, hprefix⟩
        · cases hnew
        · rw [hafter, Option.some.injEq] at hschema
          rw [hschema]
          exact openedFor_of_prefix hprefix config hnew

theorem lifecycle_kept {schema : Option TableSchema} (calls : List HostCall)
    {w : σ × List Call} (hkept : p.schema = some schema) (hstop : .stop ∉ calls)
    (hopened : OpenedFor schema w.2) :
    (lifecycle W.recorded calls p w).1.schema = some schema ∧
      OpenedFor schema (lifecycle W.recorded calls p w).2.2 := by
  induction calls generalizing p w with
  | nil => exact ⟨hkept, hopened⟩
  | cons call rest ih =>
      have hfirst : call ≠ .stop := fun h => hstop (h ▸ List.mem_cons_self)
      obtain ⟨hkept', hopened'⟩ := respond_kept (W := W) hkept hfirst hopened
      exact ih hkept' (fun h => hstop (List.mem_cons_of_mem _ h)) hopened'

/-! ### Schedulings that were refused -/

/-- The processor after one scheduling after the other. -/
def scheduleAll (p : Processor) (contexts : List ProcessContext) : Processor :=
  contexts.foldl (fun p c => (p.onScheduled c).2) p

theorem scheduleAll_eq_readAll (p : Processor) (contexts : List ProcessContext) :
    scheduleAll p contexts = p.readAll contexts := by
  simp only [scheduleAll, readAll, processor_onScheduled]

theorem schema_scheduleAll (p : Processor) (contexts : List ProcessContext) :
    (scheduleAll p contexts).schema = p.schema.or (contexts.findSome? ownSchema) := by
  rw [scheduleAll_eq_readAll, schema_readAll]

theorem schema_of_scheduled (h : (p.onScheduled c).1 = .ok ()) :
    ∃ schema, (p.onScheduled c).2.schema = some schema := by
  rw [onScheduled] at h ⊢
  cases hread : p.readSchema c with
  | mk outcome p' =>
      rw [hread] at h
      cases outcome with
      | error e => cases h
      | ok schema => exact ⟨schema, schema_of_readSchema hread⟩

/-- A scheduling leaves the schema as it was if one is kept already, or if its
own does not parse; then that is why it is refused. -/
theorem schema_onScheduled_eq_iff (p : Processor) (c : ProcessContext) :
    (p.onScheduled c).2.schema = p.schema ↔ p.schema ≠ none ∨ ownSchema c = none := by
  rw [schema_onScheduled]
  cases p.schema with
  | some schema => simp
  | none => simp

/-- What a refused scheduling leaves behind. A single one leaves no trace
exactly if a schema was kept already or its own text is what is wrong with it.
After any number of them, and one that is accepted, the schema that is kept,
and that every load gets until the processor is stopped, is the first that was
shown and parses; it is that of the accepted configuration exactly if no
earlier one parses to another. -/
theorem refused_scheduling (W : WarehouseOps σ ω) :
    (∀ (p : Processor) (c : ProcessContext) (e : LoadError),
      (p.onScheduled c).1 = .error e →
      ((p.onScheduled c).2.schema = p.schema ↔
        p.schema ≠ none ∨ ∃ e', TableSchema.configured (schemaText c) = .error e')) ∧
    ∀ (refused : List ProcessContext) (c : ProcessContext) (calls : List HostCall) (w : σ),
      ((scheduleAll .new refused).onScheduled c).1 = .ok () → .stop ∉ calls →
      let p := ((scheduleAll .new refused).onScheduled c).2
      let r := lifecycle W.recorded calls p (w, [])
      ∃ schema, p.schema = some schema ∧
        lifecycle W calls p w = (r.1, r.2.1) ∧
        r.1.schema = some schema ∧ OpenedFor schema r.2.2 ∧
        (ownSchema c = some schema ↔
          ∀ other, refused.findSome? ownSchema = some other →
            ownSchema c = some other) := by
  constructor
  · intro p c e _
    rw [schema_onScheduled_eq_iff, ownSchema_eq_none]
  · intro refused c calls w hok hstop p r
    obtain ⟨schema, hschema⟩ := schema_of_scheduled hok
    obtain ⟨hkept, hopened⟩ := lifecycle_kept (W := W) calls (w := (w, [])) hschema hstop
      (fun config hmem => by cases hmem)
    refine ⟨schema, hschema, lifecycle_recorded calls p (w, []), hkept, hopened, ?_⟩
    rw [schema_onScheduled, schema_scheduleAll] at hschema
    have hnew : Processor.new.schema = none := rfl
    rw [hnew, Option.none_or] at hschema
    cases hfirst : refused.findSome? ownSchema with
    | none =>
        rw [hfirst, Option.none_or] at hschema
        exact ⟨fun _ other hother => (by cases hother), fun _ => hschema⟩
    | some other =>
        rw [hfirst, Option.some_or, Option.some.injEq] at hschema
        subst hschema
        exact ⟨fun hown _ hother => by rw [hown]; exact hother, fun hall => hall other rfl⟩

/-- A configuration with the given properties and no variables. -/
def contextOf (properties : List (String × String)) : ProcessContext :=
  ⟨.ofList properties, .null⟩

def oneString : String :=
  "[\x7b\"name\":\"a\",\"type\":\"STRING\",\"mode\":\"NULLABLE\"\x7d]"

def oneInteger : String :=
  "[\x7b\"name\":\"b\",\"type\":\"INTEGER\",\"mode\":\"NULLABLE\"\x7d]"

/-- A warehouse that opens no channel. -/
def closedWarehouse : WarehouseOps Unit Unit where
  openChannel _ w := (.error .io, w)
  write _ _ w := (.error .io, (), w)
  close _ w := (.error .io, w)
  wait _ _ w := (none, w)
  log _ _ w := w

/-- A scheduling that is refused for the text of its schema leaves no trace, and
the schema that is kept then is that of the scheduling that is accepted. -/
theorem refused_scheduling_for_text :
    let refused := contextOf [("gcp.project.id", "acme"), ("bq.table.schema", "a STRING")]
    let c := contextOf [("gcp.project.id", "acme"), ("bq.table.schema", oneInteger)]
    (Processor.new.onScheduled refused).1 = .error (.schema "not valid JSON") ∧
      (Processor.new.onScheduled refused).2.schema = Processor.new.schema ∧
      ((scheduleAll .new [refused]).onScheduled c).1 = .ok () ∧
      ((scheduleAll .new [refused]).onScheduled c).2.schema = ownSchema c := by
  intro refused c
  have hrefused : (Processor.new.onScheduled refused).1 =
      .error (.schema "not valid JSON") := by
    decide +kernel
  have hbad : ∃ e, TableSchema.configured (schemaText refused) = .error e :=
    ownSchema_eq_none.mp (Option.isNone_iff_eq_none.mp (by decide +kernel))
  have hok : ((scheduleAll .new [refused]).onScheduled c).1 = .ok () := by decide +kernel
  obtain ⟨hone, hall⟩ := refused_scheduling closedWarehouse
  have hstop : HostCall.stop ∉ [.trigger c ⟨[.new 1 [120] .empty], [], 1⟩] := by simp
  obtain ⟨schema, hschema, -, -, -, hown⟩ := hall [refused] c _ () hok hstop
  refine ⟨hrefused, (hone _ _ _ hrefused).mpr (.inr hbad), hok, ?_⟩
  rw [hschema, hown.mpr]
  intro other hother
  rw [List.findSome?_cons, ownSchema_eq_none.mpr hbad] at hother
  cases hother

def columns (kept : Option (Option TableSchema)) : Option (Option (List String)) :=
  kept.map (·.map (·.fields.map Field.name))

/-- A scheduling without a project is refused and leaves its schema behind. The
next is accepted and has another schema, but loads with the one of the
configuration that was refused. -/
theorem refused_scheduling_leaves_schema :
    let refused := contextOf [("bq.table.schema", oneString)]
    let c := contextOf [("gcp.project.id", "acme"), ("bq.table.schema", oneInteger)]
    let p := (Processor.new.onScheduled refused).2
    (Processor.new.onScheduled refused).1 =
        .error (.config "gcp.project.id: is required") ∧
      Processor.new.schema = none ∧ columns p.schema = some (some ["a"]) ∧
      (p.onScheduled c).1 = .ok () ∧
        columns (p.onScheduled c).2.schema = some (some ["a"]) ∧
      columns (ownSchema c) = some (some ["b"]) := by
  intro refused c p
  refine ⟨?_, rfl, ?_, ?_, ?_, ?_⟩ <;> decide +kernel

end WarehouseLoader.Loader.Processor
