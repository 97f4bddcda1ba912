import WarehouseLoader.Proofs.Loader.Calls
import WarehouseLoader.Proofs.Loader.Reporting

/-!
# One trigger, one unit, one route

A trigger ends in one of three ways, and its result says in which. It is idle,
and then nothing at all has changed; it fails, because the schema cannot be
read, and then the unit it took is back where it was and the warehouse was not
called; or it routes a unit, and then that is the front unit of the queue, with
its id and its content, and it is the only one that moved.

What decides the route is what the warehouse answered, as `LoadRun` tells it:
the unit goes to success if its properties could be resolved, each of the four
calls went well, and the job at the end of them has no error.
-/

namespace WarehouseLoader.Loader.Processor

variable {σ ω : Type} {W : WarehouseOps σ ω} {c : ProcessContext}
  {schema : Option TableSchema}
  {u : FlowUnit}

/-- The front unit of the queue was routed, once, and nothing else moved. -/
structure Passed (before after : Session) (u : FlowUnit) (route : Relationship)
    (routed : FlowUnit) : Prop where
  taken : before.queue = u :: after.queue
  appended : after.transferred = before.transferred ++ [(route, routed)]
  counted : after.lastId = before.lastId
  sameId : routed.id = u.id
  sameContent : routed.content = u.content

/-- The calls of a load decide what comes of it. -/
theorem LoadRun.unique {settings : LoadSettings} {w w₁ w₂ : σ} {made : List Call}
    {result₁ result₂ : Except (Stage × LoadError) Job}
    (h₁ : LoadRun W (settings.configuration schema) u.content settings.timeout
      w made result₁ w₁)
    (h₂ : LoadRun W (settings.configuration schema) u.content settings.timeout w
      made result₂ w₂) :
    result₁ = result₂ := by
  have heq := (load_of_loadRun h₁ []).symm.trans (load_of_loadRun h₂ [])
  exact congrArg Prod.fst heq

theorem Processed.keeps {w : σ} {made : List Call} {route : Relationship}
    {routed : FlowUnit} (h : Processed W c schema u w made route routed) :
    routed.id = u.id ∧ routed.content = u.content := by
  cases h with
  | unresolved hresolve | failed hresolve hload => exact ⟨rfl, rfl⟩
  | reported hresolve hload => exact ⟨id_report _ _ u, content_report _ _ u⟩

end WarehouseLoader.Loader.Processor
