import WarehouseLoader.Loader.Processor
import WarehouseLoader.Proofs.Loader.Reporting

/-!
# The calls that a load makes

A load is known to the warehouse by the calls that reach it. `recorded` is the
warehouse that writes them down and otherwise answers as it would, and a
trigger over it is the trigger over the warehouse itself
(`onTrigger_recorded`): nothing that runs sees the record. That is so of any
warehouse that lies over another by a view of its state (`Over`), and is shown
once for all of them.

A load opens a channel for its settings, writes the whole content, closes, and
waits for the job, in this order, and the first of these that fails is the
last that is made. `LoadRun` says so by what the warehouse answers: it has one
rule for each way a load can end, one of them always applies
(`exists_loadRun`), and the load is what it says (`load_of_loadRun`). A trigger
makes these calls for the schema that the processor keeps after it, or none
(`calls_onTrigger`).
-/

namespace WarehouseLoader.Loader

inductive Call where
  | opened (config : LoadConfiguration)
  | written (content : Bytes)
  | closed
  | awaited (job : Job) (seconds : Nat)

variable {σ τ ω : Type}

/-- The warehouse that also writes down each call. -/
def WarehouseOps.recorded (W : WarehouseOps σ ω) : WarehouseOps (σ × List Call) ω where
  openChannel config w :=
    let (outcome, after) := W.openChannel config w.1
    (outcome, (after, w.2 ++ [.opened config]))
  write channel content w :=
    let (outcome, channel, after) := W.write channel content w.1
    (outcome, channel, (after, w.2 ++ [.written content]))
  close channel w :=
    let (outcome, after) := W.close channel w.1
    (outcome, (after, w.2 ++ [.closed]))
  wait job seconds w :=
    let (outcome, after) := W.wait job seconds w.1
    (outcome, (after, w.2 ++ [.awaited job seconds]))
  log level text w := (W.log level text w.1, w.2)

namespace WarehouseOps

/-- Seen through `view`, every operation of `V` is the one of `W`. -/
structure Over (V : WarehouseOps τ ω) (W : WarehouseOps σ ω) (view : τ → σ) : Prop where
  openChannel : ∀ config w, W.openChannel config (view w) =
    ((V.openChannel config w).1, view (V.openChannel config w).2)
  write : ∀ channel content w, W.write channel content (view w) =
    ((V.write channel content w).1, (V.write channel content w).2.1,
      view (V.write channel content w).2.2)
  close : ∀ channel w, W.close channel (view w) =
    ((V.close channel w).1, view (V.close channel w).2)
  wait : ∀ job seconds w, W.wait job seconds (view w) =
    ((V.wait job seconds w).1, view (V.wait job seconds w).2)
  log : ∀ level text w, W.log level text (view w) = view (V.log level text w)

theorem recorded_over (W : WarehouseOps σ ω) : W.recorded.Over W Prod.fst where
  openChannel _ _ := rfl
  write _ _ _ := rfl
  close _ _ := rfl
  wait _ _ _ := rfl
  log _ _ _ := rfl

end WarehouseOps

/-- The calls of a load, if none of them fails. -/
def loadCalls (settings : LoadSettings) (schema : Option TableSchema) (u : FlowUnit)
    (job : Job) : List Call :=
  [.opened (settings.configuration schema), .written u.content, .closed,
    .awaited job settings.timeout]

namespace Processor

section Over

variable {V : WarehouseOps τ ω} {W : WarehouseOps σ ω} {view : τ → σ}

theorem submit_over (h : V.Over W view) (config : LoadConfiguration) (content : Bytes)
    (w : τ) :
    submit W config content (view w) =
      ((submit V config content w).1, view (submit V config content w).2) := by
  simp only [submit, h.openChannel]
  cases V.openChannel config w with
  | mk outcome w₁ =>
      cases outcome with
      | error e => rfl
      | ok channel =>
          simp only [h.write]
          cases V.write channel content w₁ with
          | mk outcome rest =>
              cases outcome with
              | error e => rfl
              | ok n => exact h.close _ _

theorem awaitJob_over (h : V.Over W view) (job : Job) (seconds : Nat) (w : τ) :
    awaitJob W job seconds (view w) =
      ((awaitJob V job seconds w).1, view (awaitJob V job seconds w).2) := by
  simp only [awaitJob, h.wait]
  cases V.wait job seconds w with
  | mk outcome w₁ => cases outcome <;> rfl

theorem load_over (h : V.Over W view) (settings : LoadSettings)
    (schema : Option TableSchema) (u : FlowUnit) (w : τ) :
    load W settings schema u (view w) =
      ((load V settings schema u w).1, view (load V settings schema u w).2) := by
  simp only [load, submit_over h]
  cases submit V (settings.configuration schema) u.content w with
  | mk outcome w₁ =>
      cases outcome with
      | error e => rfl
      | ok job =>
          simp only [awaitJob_over h]
          cases awaitJob V job settings.timeout w₁ with
          | mk outcome w₂ => cases outcome <;> rfl

theorem routeReported_over (h : V.Over W view) (settings : LoadSettings) (job : Job)
    (u : FlowUnit) (session : Session) (w : τ) :
    routeReported W settings job u session (view w) =
      ((routeReported V settings job u session w).1,
        (routeReported V settings job u session w).2.1,
        view (routeReported V settings job u session w).2.2) := by
  simp only [routeReported]
  cases job.error? with
  | none => rfl
  | some e => simp only [h.log]

theorem process_over (h : V.Over W view) (c : ProcessContext) (schema : Option TableSchema)
    (u : FlowUnit) (session : Session) (w : τ) :
    process W c schema u session (view w) =
      ((process V c schema u session w).1, (process V c schema u session w).2.1,
        view (process V c schema u session w).2.2) := by
  rw [process, process]
  cases LoadSettings.resolve c u.attributes with
  | error e => simp only [routeFailure, h.log]
  | ok settings =>
      simp only [load_over h]
      cases load V settings schema u w with
      | mk outcome w₁ =>
          cases outcome with
          | error e => simp only [routeFailure, h.log]
          | ok job => exact routeReported_over h settings job u session w₁

theorem onTrigger_over (h : V.Over W view) (c : ProcessContext) (s : State τ) :
    onTrigger W c ⟨s.processor, s.session, view s.world⟩ =
      ((onTrigger V c s).1, ⟨(onTrigger V c s).2.processor, (onTrigger V c s).2.session,
        view (onTrigger V c s).2.world⟩) := by
  rw [onTrigger, onTrigger]
  simp only []
  cases s.session.take? with
  | none => rfl
  | some taken =>
      obtain ⟨u, session⟩ := taken
      simp only []
      cases s.processor.readSchema c with
      | mk outcome p =>
          cases outcome with
          | error e => rfl
          | ok schema => simp only [process_over h]

end Over

variable {W : WarehouseOps σ ω} {settings : LoadSettings} {schema : Option TableSchema}
  {u : FlowUnit} {c : ProcessContext} {session : Session}

theorem onTrigger_recorded (s : State (σ × List Call)) :
    onTrigger W c ⟨s.processor, s.session, s.world.1⟩ =
      ((onTrigger W.recorded c s).1, ⟨(onTrigger W.recorded c s).2.processor,
        (onTrigger W.recorded c s).2.session, (onTrigger W.recorded c s).2.world.1⟩) :=
  onTrigger_over W.recorded_over c s

/-! ### What is called -/

/-- The ways a load can end: the calls it makes of a warehouse in state `w`,
what comes of it, and the state after it. -/
inductive LoadRun (W : WarehouseOps σ ω) (config : LoadConfiguration) (content : Bytes)
    (seconds : Nat) (w : σ) : List Call → Except (Stage × LoadError) Job → σ → Prop
  | notOpened {e w₁} (hopen : W.openChannel config w = (.error e, w₁)) :
      LoadRun W config content seconds w [.opened config] (.error (.upload, e)) w₁
  | notWritten {channel channel' e w₁ w₂}
      (hopen : W.openChannel config w = (.ok channel, w₁))
      (hwrite : W.write channel content w₁ = (.error e, channel', w₂)) :
      LoadRun W config content seconds w [.opened config, .written content]
        (.error (.upload, e)) w₂
  | notClosed {channel channel' n e w₁ w₂ w₃}
      (hopen : W.openChannel config w = (.ok channel, w₁))
      (hwrite : W.write channel content w₁ = (.ok n, channel', w₂))
      (hclose : W.close channel' w₂ = (.error e, w₃)) :
      LoadRun W config content seconds w [.opened config, .written content, .closed]
        (.error (.upload, e)) w₃
  | waitFailed {channel channel' n job e w₁ w₂ w₃ w₄}
      (hopen : W.openChannel config w = (.ok channel, w₁))
      (hwrite : W.write channel content w₁ = (.ok n, channel', w₂))
      (hclose : W.close channel' w₂ = (.ok job, w₃))
      (hwait : W.wait job seconds w₃ = (some (.error e), w₄)) :
      LoadRun W config content seconds w
        [.opened config, .written content, .closed, .awaited job seconds]
        (.error (.await, e)) w₄
  | outlasted {channel channel' n job w₁ w₂ w₃ w₄}
      (hopen : W.openChannel config w = (.ok channel, w₁))
      (hwrite : W.write channel content w₁ = (.ok n, channel', w₂))
      (hclose : W.close channel' w₂ = (.ok job, w₃))
      (hwait : W.wait job seconds w₃ = (none, w₄)) :
      LoadRun W config content seconds w
        [.opened config, .written content, .closed, .awaited job seconds]
        (.error (.await, .jobTimeout job.id seconds)) w₄
  | finished {channel channel' n job final w₁ w₂ w₃ w₄}
      (hopen : W.openChannel config w = (.ok channel, w₁))
      (hwrite : W.write channel content w₁ = (.ok n, channel', w₂))
      (hclose : W.close channel' w₂ = (.ok job, w₃))
      (hwait : W.wait job seconds w₃ = (some (.ok final), w₄)) :
      LoadRun W config content seconds w
        [.opened config, .written content, .closed, .awaited job seconds] (.ok final) w₄

theorem exists_loadRun (W : WarehouseOps σ ω) (config : LoadConfiguration) (content : Bytes)
    (seconds : Nat) (w : σ) :
    ∃ made result w', LoadRun W config content seconds w made result w' := by
  cases hopen : W.openChannel config w with
  | mk outcome w₁ =>
      cases outcome with
      | error e => exact ⟨_, _, _, .notOpened hopen⟩
      | ok channel =>
          cases hwrite : W.write channel content w₁ with
          | mk outcome rest =>
              obtain ⟨channel', w₂⟩ := rest
              cases outcome with
              | error e => exact ⟨_, _, _, .notWritten hopen hwrite⟩
              | ok n =>
                  cases hclose : W.close channel' w₂ with
                  | mk outcome w₃ =>
                      cases outcome with
                      | error e => exact ⟨_, _, _, .notClosed hopen hwrite hclose⟩
                      | ok job =>
                          cases hwait : W.wait job seconds w₃ with
                          | mk outcome w₄ =>
                              match outcome with
                              | none =>
                                  exact ⟨_, _, _, .outlasted hopen hwrite hclose hwait⟩
                              | some (.error e) =>
                                  exact ⟨_, _, _, .waitFailed hopen hwrite hclose hwait⟩
                              | some (.ok final) =>
                                  exact ⟨_, _, _, .finished hopen hwrite hclose hwait⟩

theorem load_of_loadRun {w w' : σ} {made : List Call}
    {result : Except (Stage × LoadError) Job}
    (h : LoadRun W (settings.configuration schema) u.content
      settings.timeout w made result w')
    (past : List Call) :
    load W.recorded settings schema u (w, past) = (result, (w', past ++ made)) := by
  cases h with
  | notOpened hopen => simp [load, submit, WarehouseOps.recorded, hopen]
  | notWritten hopen hwrite => simp [load, submit, WarehouseOps.recorded, hopen, hwrite]
  | notClosed hopen hwrite hclose =>
      simp [load, submit, WarehouseOps.recorded, hopen, hwrite, hclose]
  | waitFailed hopen hwrite hclose hwait | outlasted hopen hwrite hclose hwait
  | finished hopen hwrite hclose hwait =>
      simp [load, submit, awaitJob, WarehouseOps.recorded, hopen, hwrite, hclose, hwait]

/-- The warehouse that writes nothing down answers the same. -/
theorem load_eq_of_loadRun {w w' : σ} {made : List Call}
    {result : Except (Stage × LoadError) Job}
    (h : LoadRun W (settings.configuration schema) u.content settings.timeout
      w made result w') :
    load W settings schema u w = (result, w') := by
  have hsame := load_over W.recorded_over settings schema u (w, [])
  rw [load_of_loadRun h []] at hsame
  exact hsame

theorem LoadRun.calls_prefix {w w' : σ} {made : List Call}
    {result : Except (Stage × LoadError) Job}
    (h : LoadRun W (settings.configuration schema) u.content settings.timeout
      w made result w') :
    ∃ job, made <+: loadCalls settings schema u job := by
  cases h with
  | notOpened hopen =>
      exact ⟨Job.empty, [.written u.content, .closed,
        .awaited Job.empty settings.timeout], rfl⟩
  | notWritten hopen hwrite =>
      exact ⟨Job.empty, [.closed, .awaited Job.empty settings.timeout], rfl⟩
  | notClosed hopen hwrite hclose =>
      exact ⟨Job.empty, [.awaited Job.empty settings.timeout], rfl⟩
  | waitFailed hopen hwrite hclose hwait | outlasted hopen hwrite hclose hwait
  | finished hopen hwrite hclose hwait => exact ⟨_, List.prefix_refl _⟩

/-! ### What becomes of a unit -/

/-- The ways a unit that was taken can end: the calls made for it, where it
goes, and as what. -/
inductive Processed (W : WarehouseOps σ ω) (c : ProcessContext)
    (schema : Option TableSchema) (u : FlowUnit) (w : σ) :
    List Call → Relationship → FlowUnit → Prop
  | unresolved {e} (hresolve : LoadSettings.resolve c u.attributes = .error e) :
      Processed W c schema u w [] .failure u.penalize
  | failed {settings made e w'}
      (hresolve : LoadSettings.resolve c u.attributes = .ok settings)
      (hload : LoadRun W (settings.configuration schema) u.content settings.timeout w made
        (.error e) w') :
      Processed W c schema u w made .failure u.penalize
  | reported {settings made job w'}
      (hresolve : LoadSettings.resolve c u.attributes = .ok settings)
      (hload : LoadRun W (settings.configuration schema) u.content settings.timeout w made
        (.ok job) w') :
      Processed W c schema u w made (report settings job u).1 (report settings job u).2

theorem process_processed (c : ProcessContext) (schema : Option TableSchema) (u : FlowUnit)
    (session : Session) (w : σ × List Call) :
    ∃ made route routed w', Processed W c schema u w.1 made route routed ∧
      process W.recorded c schema u session w =
        (outcomeOf route, session.transfer routed route, (w', w.2 ++ made)) := by
  rw [process]
  cases hresolve : LoadSettings.resolve c u.attributes with
  | error e =>
      refine ⟨[], .failure, u.penalize, W.log .error (stageNotice .resolve u e) w.1,
        .unresolved hresolve, ?_⟩
      rw [List.append_nil]
      rfl
  | ok settings =>
      obtain ⟨made, result, w', hload⟩ := exists_loadRun W (settings.configuration schema)
        u.content settings.timeout w.1
      simp only [load_of_loadRun hload w.2]
      cases result with
      | error e => exact ⟨made, .failure, u.penalize, _, .failed hresolve hload, rfl⟩
      | ok job =>
          simp only [routeReported]
          cases job.error? <;> exact ⟨made, _, _, _, .reported hresolve hload, rfl⟩

theorem Processed.calls {w : σ} {made : List Call} {route : Relationship}
    {routed : FlowUnit} (h : Processed W c schema u w made route routed) :
    made = [] ∨ ∃ settings job, LoadSettings.resolve c u.attributes = .ok settings ∧
      made <+: loadCalls settings schema u job := by
  cases h with
  | unresolved hresolve => exact .inl rfl
  | failed hresolve hload | reported hresolve hload =>
      obtain ⟨job, hprefix⟩ := hload.calls_prefix
      exact .inr ⟨_, job, hresolve, hprefix⟩

theorem schema_of_readSchema {p p' : Processor} (h : p.readSchema c = (.ok schema, p')) :
    p'.schema = some schema := by
  rw [readSchema] at h
  split at h
  · next hkept =>
      cases h
      exact hkept
  · split at h
    · cases h
      rfl
    · cases h

/-! ### One trigger -/

theorem onTrigger_of_nil {s : State σ} (h : s.session.queue = []) :
    onTrigger W c s = (.ok .idle, s) := by
  rw [onTrigger, Session.take?, h]

/-- A unit that was taken in vain is the front unit again. -/
theorem onTrigger_of_unread {s : State σ} {rest : List FlowUnit} {e : LoadError}
    {p : Processor} (h : s.session.queue = u :: rest)
    (hread : s.processor.readSchema c = (.error e, p)) :
    onTrigger W c s = (.error e, ⟨p, s.session, s.world⟩) := by
  rw [onTrigger, Session.take?, h]
  simp only [hread, Session.rollback]
  rw [← h]

theorem onTrigger_of_read {s : State σ} {rest : List FlowUnit} {p : Processor}
    (h : s.session.queue = u :: rest) (hread : s.processor.readSchema c = (.ok schema, p)) :
    let r := process W c schema u { s.session with queue := rest } s.world
    onTrigger W c s = (.ok r.1, ⟨p, r.2.1, r.2.2⟩) := by
  rw [onTrigger, Session.take?, h]
  simp only [hread]

/-- A unit only goes to success on a job without an error, and nothing else is
done for it then. -/
theorem process_success {session' : Session} {w w' : σ}
    (h : process W c schema u session w = (.success, session', w')) :
    ∃ settings made job, LoadSettings.resolve c u.attributes = .ok settings ∧
      LoadRun W (settings.configuration schema) u.content settings.timeout w
        made (.ok job) w' ∧
      job.error? = none ∧
        session' = session.transfer (report settings job u).2 .success := by
  rw [process] at h
  cases hresolve : LoadSettings.resolve c u.attributes with
  | error e =>
      rw [hresolve] at h
      cases h
  | ok settings =>
      obtain ⟨made, result, w₁, hload⟩ := exists_loadRun W (settings.configuration schema)
        u.content settings.timeout w
      rw [hresolve] at h
      simp only [load_eq_of_loadRun hload] at h
      cases result with
      | error e => cases h
      | ok job =>
          simp only [routeReported] at h
          cases hfine : job.error? with
          | some e =>
              have hroute : (report settings job u).1 = .failure := by rw [report, hfine]
              rw [hroute] at h
              cases h
          | none =>
              rw [hfine, (route_report settings job u).mpr hfine] at h
              cases h
              exact ⟨settings, made, job, rfl, hload, hfine, rfl⟩

theorem onTrigger_of_loadRun {s : State σ} {rest : List FlowUnit} {p : Processor}
    {made : List Call} {job : Job} {w' : σ} (hqueue : s.session.queue = u :: rest)
    (hread : s.processor.readSchema c = (.ok schema, p))
    (hresolve : LoadSettings.resolve c u.attributes = .ok settings)
    (hload : LoadRun W (settings.configuration schema) u.content
      settings.timeout s.world made
      (.ok job) w') (hfine : job.error? = none) :
    onTrigger W c s =
      (.ok .success, ⟨p, ({ s.session with queue := rest } : Session).transfer
      (report settings job u).2 .success, w'⟩) := by
  rw [onTrigger_of_read hqueue hread, process, hresolve]
  simp only [load_eq_of_loadRun hload, routeReported, hfine,
    (route_report settings job u).mpr hfine, outcomeOf]

theorem onTrigger_success {s s' : State σ} (h : onTrigger W c s = (.ok .success, s')) :
    ∃ u schema settings made job, s.session.queue = u :: s'.session.queue ∧
      s'.processor.schema = some schema ∧
        LoadSettings.resolve c u.attributes = .ok settings ∧
      LoadRun W (settings.configuration schema) u.content settings.timeout
        s.world made (.ok job)
        s'.world ∧
      job.error? = none ∧
      s'.session.transferred =
        s.session.transferred ++ [(.success, (report settings job u).2)] := by
  cases hqueue : s.session.queue with
  | nil =>
      rw [onTrigger_of_nil hqueue] at h
      cases h
  | cons u rest =>
      cases hread : s.processor.readSchema c with
      | mk outcome p =>
          cases outcome with
          | error e =>
              rw [onTrigger_of_unread hqueue hread] at h
              cases h
          | ok schema =>
              rw [onTrigger_of_read hqueue hread] at h
              cases hprocess : process W c schema u
                { s.session with queue := rest } s.world with
              | mk o after =>
                  rw [hprocess] at h
                  cases h
                  obtain ⟨settings, made, job, hresolve, hload, hfine, hsession⟩ :=
                    process_success hprocess
                  rw [hsession]
                  exact ⟨u, schema, settings, made, job, rfl,
                    schema_of_readSchema hread, hresolve, hload, hfine, rfl⟩

theorem calls_onTrigger (s : State (σ × List Call)) :
    ∃ made, (onTrigger W.recorded c s).2.world.2 = s.world.2 ++ made ∧
      (made = [] ∨ ∃ u schema settings job,
        (onTrigger W.recorded c s).2.processor.schema = some schema ∧
        s.session.queue.head? = some u ∧
          LoadSettings.resolve c u.attributes = .ok settings ∧
        made <+: loadCalls settings schema u job) := by
  cases hqueue : s.session.queue with
  | nil =>
      rw [onTrigger_of_nil hqueue]
      exact ⟨[], (List.append_nil _).symm, .inl rfl⟩
  | cons u rest =>
      cases hread : s.processor.readSchema c with
      | mk outcome p =>
          cases outcome with
          | error e =>
              rw [onTrigger_of_unread hqueue hread]
              exact ⟨[], (List.append_nil _).symm, .inl rfl⟩
          | ok schema =>
              obtain ⟨made, route, routed, w', hprocessed, hprocess⟩ :=
                process_processed (W := W)
                c schema u { s.session with queue := rest } s.world
              rw [onTrigger_of_read hqueue hread, hprocess]
              refine ⟨made, rfl, ?_⟩
              rcases hprocessed.calls with hnone | ⟨settings, job, hresolve, hprefix⟩
              · exact .inl hnone
              · exact .inr ⟨u, schema, settings, job,
                  schema_of_readSchema hread, rfl, hresolve, hprefix⟩

end Processor

end WarehouseLoader.Loader
