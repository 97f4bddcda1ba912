import WarehouseLoader.Proofs.Loader.Lifecycle

/-!
# The schema between two stops

Of the calls of a host, those that show the processor a configuration are the
schedulings and the triggers that find a unit (`shown`). A call other than
stopping reads the schema of what it shows and does nothing else to the
processor (`processor_respond`), so between two stops the processor is what
reading one shown configuration after the other makes of it
(`processor_lifecycle`). What that is has a closed form: the first text that
parses is kept, and no text behind it is looked at (`schema_readAll`,
`parses_readAll`).
-/

namespace WarehouseLoader.Loader.Processor

variable {σ ω : Type} {W : WarehouseOps σ ω} {p : Processor} {c : ProcessContext}

/-- The configuration that a call shows. A trigger shows none if it finds no
unit. -/
def shown : HostCall → Option ProcessContext
  | .schedule c => some c
  | .trigger c session => if session.queue = [] then none else some c
  | .stop => none

/-- Those of the configurations whose text is looked at when no schema is kept:
all up to the first that parses. -/
def attempts : List ProcessContext → List ProcessContext
  | [] => []
  | c :: rest => c :: (if (ownSchema c).isSome then [] else attempts rest)

/-! ### Reading -/

theorem readSchema_of_kept (hkept : p.schema ≠ none) : (p.readSchema c).2 = p := by
  rw [readSchema]
  cases hschema : p.schema with
  | none => exact absurd hschema hkept
  | some schema => rfl

theorem parses_readSchema (hunset : p.schema = none) (c : ProcessContext) :
    (p.readSchema c).2.schemaParses = p.schemaParses + 1 := by
  rw [readSchema, hunset]
  cases TableSchema.configured (schemaText c) <;> rfl

theorem readAll_of_kept (hkept : p.schema ≠ none) (contexts : List ProcessContext) :
    p.readAll contexts = p := by
  induction contexts with
  | nil => rfl
  | cons c rest ih => rw [readAll, List.foldl_cons, readSchema_of_kept hkept, ← readAll, ih]

theorem parses_readAll (hunset : p.schema = none) (contexts : List ProcessContext) :
    (p.readAll contexts).schemaParses = p.schemaParses + (attempts contexts).length := by
  induction contexts generalizing p with
  | nil => rfl
  | cons c rest ih =>
      have hparses := parses_readSchema hunset c
      have hschema := schema_readSchema p c
      rw [hunset, Option.none_or] at hschema
      rw [readAll, List.foldl_cons, ← readAll, attempts, List.length_cons]
      cases hown : ownSchema c with
      | none =>
          rw [ih (hschema.trans hown), hparses, if_neg (by simp)]
          omega
      | some schema =>
          have hkept : (p.readSchema c).2.schema ≠ none := by simp [hschema, hown]
          rw [readAll_of_kept hkept, hparses, if_pos (by simp), List.length_nil]

/-! ### The calls of a host -/

theorem processor_respond {call : HostCall} (hstop : call ≠ .stop) (w : σ) :
    (respond W p w call).1 = p.readAll (shown call).toList := by
  cases call with
  | stop => exact absurd rfl hstop
  | schedule c => exact processor_onScheduled p c
  | trigger c session =>
      rw [respond, processor_onTrigger, shown]
      split <;> rfl

theorem processor_lifecycle {calls : List HostCall} (hstop : .stop ∉ calls) (w : σ) :
    (lifecycle W calls p w).1 = p.readAll (calls.filterMap shown) := by
  induction calls generalizing p w with
  | nil => rfl
  | cons call rest ih =>
      have hfirst : call ≠ .stop := fun h => hstop (h ▸ List.mem_cons_self)
      have hrest : .stop ∉ rest := fun h => hstop (List.mem_cons_of_mem _ h)
      rw [lifecycle, ih hrest, processor_respond hfirst, List.filterMap_cons]
      cases shown call <;> rfl

theorem lifecycle_append (first second : List HostCall) (p : Processor) (w : σ) :
    lifecycle W (first ++ second) p w =
      lifecycle W second (lifecycle W first p w).1 (lifecycle W first p w).2 := by
  induction first generalizing p w with
  | nil => rfl
  | cons call rest ih => exact ih _ _

/-! ### What is loaded with -/

/-- Every channel was opened for the schema that is kept. -/
def OpenedAsKept (p : Processor) (calls : List Call) : Prop :=
  ∀ config, .opened config ∈ calls → p.schema = some config.schema

theorem respond_openedAsKept {call : HostCall} {w : σ × List Call} (hstop : call ≠ .stop)
    (hopened : OpenedAsKept p w.2) :
    OpenedAsKept (respond W.recorded p w call).1 (respond W.recorded p w call).2.2 := by
  have hstays : ∀ schema, p.schema = some schema →
      (respond W.recorded p w call).1.schema = some schema := by
    intro schema hkept
    rw [processor_respond hstop, readAll_of_kept (by simp [hkept]), hkept]
  cases call with
  | stop => exact absurd rfl hstop
  | schedule c => exact fun config hmem => hstays _ (hopened config hmem)
  | trigger c session =>
      obtain ⟨made, hcalls, hmade⟩ := calls_onTrigger (W := W) (c := c) ⟨p, session, w⟩
      intro config hmem
      have hsplit : Call.opened config ∈ w.2 ++ made := hcalls ▸ hmem
      rcases List.mem_append.mp hsplit with hold | hnew
      · exact hstays _ (hopened config hold)
      · rcases hmade with rfl | ⟨u, schema, settings, job, hschema, -, -, hprefix⟩
        · cases hnew
        · have hloaded : config.schema = schema := openedFor_of_prefix hprefix config hnew
          rw [hloaded]
          exact hschema

theorem lifecycle_openedAsKept {calls : List HostCall} {w : σ × List Call}
    (hstop : .stop ∉ calls) (hopened : OpenedAsKept p w.2) :
    OpenedAsKept (lifecycle W.recorded calls p w).1
      (lifecycle W.recorded calls p w).2.2 := by
  induction calls generalizing p w with
  | nil => exact hopened
  | cons call rest ih =>
      have hfirst : call ≠ .stop := fun h => hstop (h ▸ List.mem_cons_self)
      exact ih (fun h => hstop (List.mem_cons_of_mem _ h))
        (respond_openedAsKept hfirst hopened)

/-- The kept schema after any calls of a host, and any further ones up to the
next stop. What is kept already stays, and nothing is parsed any more. If
nothing is kept, the texts of what is shown are parsed up to the first that can
be, and that is kept. Every channel is opened for what is kept. A trigger that
finds no unit does nothing, and stopping leaves nothing kept. -/
theorem lifecycle_schema (W : WarehouseOps σ ω) (before : List HostCall) (w : σ) :
    let start := lifecycle W before .new w
    (∀ after, .stop ∉ after →
      let r := lifecycle W.recorded after start.1 (start.2, [])
      lifecycle W (before ++ after) .new w = (r.1, r.2.1) ∧
      (start.1.schema ≠ none → r.1 = start.1) ∧
      (start.1.schema = none →
        r.1.schema = (after.filterMap shown).findSome? ownSchema ∧
        r.1.schemaParses =
          start.1.schemaParses + (attempts (after.filterMap shown)).length) ∧
      OpenedAsKept r.1 r.2.2) ∧
    (∀ c session, session.queue = [] →
      lifecycle W (before ++ [.trigger c session]) .new w = start) ∧
    (lifecycle W (before ++ [.stop]) .new w).1 = ⟨none, start.1.schemaParses⟩ := by
  intro start
  refine ⟨?_, ?_, ?_⟩
  · intro after hstop r
    have hread : r.1 = start.1.readAll (after.filterMap shown) :=
      processor_lifecycle hstop _
    refine ⟨?_, ?_, ?_, lifecycle_openedAsKept hstop fun config hmem => (by cases hmem)⟩
    · rw [lifecycle_append]
      exact lifecycle_recorded after start.1 (start.2, [])
    · intro hkept
      rw [hread, readAll_of_kept hkept]
    · intro hunset
      rw [hread, schema_readAll, parses_readAll hunset, hunset, Option.none_or]
      exact ⟨rfl, rfl⟩
  · intro c session hempty
    rw [lifecycle_append, lifecycle, lifecycle, respond, onTrigger_of_nil hempty]
  · rw [lifecycle_append]
    rfl

/-- One text that does not parse, one that is shown to no unit, the first that
parses, and one that comes too late. -/
theorem lifecycle_schema_of_second :
    let before := [HostCall.schedule (contextOf [("bq.table.schema", "a STRING")])]
    let late := contextOf [("gcp.project.id", "acme"), ("bq.table.schema", oneString)]
    let after := [HostCall.trigger late .empty,
      .trigger (contextOf [("bq.table.schema", oneInteger)]) ⟨[.new 1 [120] .empty], [], 1⟩,
      .schedule late]
    let p := (lifecycle closedWarehouse (before ++ after) .new ()).1
    columns p.schema = some (some ["b"]) ∧ p.schemaParses = 2 := by
  intro before late after p
  have hstop : HostCall.stop ∉ after := by simp [after]
  obtain ⟨hrun, -, hunset, -⟩ := (lifecycle_schema closedWarehouse before ()).1 after hstop
  have hbefore : (lifecycle closedWarehouse before .new ()).1.schema = none :=
    Option.isNone_iff_eq_none.mp (by decide +kernel)
  obtain ⟨hschema, hparses⟩ := hunset hbefore
  simp only [p, hrun, hschema, hparses]
  constructor <;> decide +kernel

end WarehouseLoader.Loader.Processor
