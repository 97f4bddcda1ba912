import WarehouseLoader.Proofs.Loader.Calls
import WarehouseLoader.Proofs.Upload.Overclaim
import WarehouseLoader.Proofs.Warehouse.Client

/-!
# No success without the warehouse's word

Over the network a unit goes to success on the word of the warehouse alone, and
the word is on the record. The exchanges of such a trigger come in four parts,
and each part ends on the answer that let the load go on: where the session is,
after the request that starts the load; that a part is held, after each flush;
the job, after the last request of the upload; and that the job is done, after
the polls, if it was not done before (`Confirmed`). Whatever else was answered
on the way, and how often something was tried, is in front of these answers and
does not count.

Reporting a job does not ask whether it is done. That it is comes from waiting,
which gives no job that is not.
-/

namespace WarehouseLoader.Loader

open Auth Http Upload Warehouse

variable {σ τ : Type} {client : Client} {T : Transport σ}

theorem WarehouseOps.ofClient_over {U : Transport τ} {view : τ → σ} (h : U.Over T view)
    (client : Client) :
    (ofClient client U).Over (ofClient client T) fun s => s.through view where
  openChannel config s := Client.openChannel_over h client config s
  write channel content s := Channel.write_over h channel content s
  close channel s := Channel.close_over h channel s
  wait job seconds s := Client.waitWithin_over h client job seconds s
  log level text s := (Connection.through_mapWorld (h.log level text) s).symm

/-- The exchanges of a load that went well, from a connection whose record is
empty, and the job that came of it. -/
inductive Confirmed (client : Client) (T : Transport σ) (config : LoadConfiguration)
    (content : Bytes) (s : Connection (Recorded σ)) : List (Entry σ) → Job → Prop
  | intro {jobId url : String} {started closed : Response} {submitted job : Job}
      {starting closing polling : List (Entry σ)} {flushes : List (List (Entry σ))}
      {rest : Channel} {s₁ s₂ : Connection (Recorded σ)}
      (hopen : client.openChannel T.recorded config s =
        (.ok (.new url client.config.chunkSize), s₁))
      (hstarted : client.http.Answered (Client.startRequest config jobId) starting started)
      (hlocation : started.header? "location" = some url)
      (hflushes : Channel.Drained client.http T.recorded Prod.snd
        { Channel.new url client.config.chunkSize with buffer := content }
          s₁ flushes rest s₂)
      (hheld : ∀ made ∈ flushes, Channel.EndsAcknowledged client.http url made)
      (hclosed : client.http.Answered rest.finalRequest closing closed)
      (hcomplete : closed.status ≠ incomplete)
      (hsubmitted : closed.read Job.read = .ok submitted)
      (hfinal : (polling = [] ∧ job = submitted ∧ submitted.isDone = true) ∨
        (submitted.isDone = false ∧ client.PolledTo submitted.reference polling job)) :
      Confirmed client T config content s
        (starting ++ flushes.flatten ++ closing ++ polling) job

theorem Confirmed.isDone {config : LoadConfiguration} {content : Bytes}
    {s : Connection (Recorded σ)} {made : List (Entry σ)} {job : Job}
    (h : Confirmed client T config content s made job) : job.isDone = true := by
  cases h with
  | intro hopen hstarted hlocation hflushes hheld hclosed hcomplete hsubmitted hfinal =>
      rcases hfinal with ⟨-, rfl, hdone⟩ | ⟨-, hdone, -⟩
      · exact hdone
      · exact hdone

/-- A load over the network that goes well is confirmed by what it put on the
record. -/
theorem confirmed_of_loadRun {config : LoadConfiguration} {content : Bytes} {seconds : Nat}
    {s s' : Connection (Recorded σ)} {made : List Call} {job : Job}
    (hempty : s.world.2 = [])
    (h : Processor.LoadRun (.ofClient client T.recorded) config content
      seconds s made (.ok job)
      s') : Confirmed client T config content s s'.world.2 job := by
  have hlogs : Logs T.recorded Prod.snd := recorded_logs T
  cases h with
  | finished hopen hwrite hclose hwait =>
      rename_i channel rest n submitted s₁ s₂ s₃
      obtain ⟨jobId, starting, started, hstarting, hstarted, url, hlocation, hnew⟩ :=
        Client.openChannel_logged hlogs hopen
      cases hnew
      obtain ⟨flushes, hdrained⟩ := Channel.drained_of_write hlogs hwrite
      obtain ⟨hurl, hheld⟩ := hdrained.acknowledged hlogs
      obtain ⟨closing, hclosing, -, hanswered⟩ :=
        Channel.close_logged hlogs client.http rest s₂
      rw [show rest.close client.http T.recorded s₂ = _ from hclose] at hclosing hanswered
      obtain ⟨closed, hclosed, hcomplete, hsubmitted⟩ := hanswered submitted rfl
      obtain ⟨polling, hpolling, hfinal⟩ := Client.waitWithin_logged hlogs hwait
      have hrecord : s'.world.2 = starting ++ flushes.flatten ++ closing ++ polling := by
        rw [hpolling, hclosing, hdrained.logged, hstarting, hempty, List.nil_append]
      rw [hrecord]
      exact .intro hopen hstarted hlocation hdrained hheld hclosed
        hcomplete hsubmitted hfinal

/-- For every client, every server and every unit: a trigger that ends in
success was confirmed. The last job that the warehouse told of, in the answer
to the last request of the upload or in the answer to the last poll, is done
and has no error, and what the routed unit tells of a job it tells of that
one. -/
theorem success_confirmed {c : ProcessContext} {p : Processor} {session : Session}
    {s : Connection σ} {after : Processor.State (Connection σ)}
    (h : Processor.onTrigger (.ofClient client T) c ⟨p, session, s⟩ =
      (.ok .success, after)) :
    ∃ (s' : Connection (Recorded σ)) (u : FlowUnit) (schema : Option TableSchema)
      (settings : LoadSettings) (job : Job),
      Processor.onTrigger (.ofClient client T.recorded) c ⟨p, session, s.recording⟩ =
        (.ok .success, ⟨after.processor, after.session, s'⟩) ∧
      after.world = s'.through Prod.fst ∧
      session.queue = u :: after.session.queue ∧
      after.session.transferred =
        session.transferred ++ [(.success, (report settings job u).2)] ∧
      after.processor.schema = some schema ∧
      LoadSettings.resolve c u.attributes = .ok settings ∧
      Confirmed client T (settings.configuration schema) u.content
        s.recording s'.world.2 job ∧
      job.status.state = "DONE" ∧ job.status.errorResult = none ∧
      ∀ name ∈ jobNames, (report settings job u).2.attribute? name =
        ((successAttributes job).lookup name).or (u.attribute? name) := by
  have hsame := Processor.onTrigger_over
    (WarehouseOps.ofClient_over T.recorded_over client) c ⟨p, session, s.recording⟩
  rw [show (s.recording.through Prod.fst : Connection σ) = s from rfl, h] at hsame
  cases hrun : Processor.onTrigger (.ofClient client T.recorded) c
      ⟨p, session, s.recording⟩ with
  | mk outcome r =>
      rw [hrun] at hsame
      cases hsame
      obtain ⟨u, schema, settings, made, job, hqueue, hschema, hresolve, hload,
        hfine, hrouted⟩ :=
        Processor.onTrigger_success hrun
      have hconfirmed := confirmed_of_loadRun rfl hload
      exact ⟨r.world, u, schema, settings, job, rfl, rfl, hqueue, hrouted,
        hschema, hresolve, hconfirmed, eq_of_beq hconfirmed.isDone, hfine,
        fun name hname => attribute?_report_of_jobNames hfine hname⟩

/-! ### A load that polls once -/

/-- The server that answers each exchange as the script says for its number. -/
def scripted (script : Nat → Exchange) : Transport Nat where
  exchange _ _ n := (script n, n + 1)
  pause _ n := n
  now _ := 0
  log _ _ n := n
  newJobId n := ("", n)
  sign _ _ := []
  halt n := n
  isOver _ := false

/-- A session is opened, a byte is held, the upload is complete with a job that
has a name, and the job is done. -/
def loading : Nat → Exchange
  | 0 => .answered ⟨200, [("location", session)], some []⟩
  | 1 => .answered (acknowledging 1)
  | 2 =>
    .answered ⟨200, [], some (Text.utf8 "\x7b\"jobReference\":\x7b\"jobId\":\"j\"\x7d\x7d")⟩
  | 3 =>
    .answered ⟨200, [], some (Text.utf8 "\x7b\"status\":\x7b\"state\":\"DONE\"\x7d\x7d")⟩
  | _ => .refused

/-- Two bytes in chunks of one. -/
theorem success_confirmed_by_poll :
    let client : Client :=
      ⟨⟨{ HttpConfig.standard with baseUrl := some "http://localhost" }, none⟩, ⟨1, 0, 0⟩⟩
    let c : ProcessContext := ⟨.ofList [("gcp.project.id", "acme")], .null⟩
    let u :=
      FlowUnit.new 1 [1, 2] (.ofList [("bq.dataset", "sales"), ("bq.table.name", "orders")])
    ∃ after, Processor.onTrigger (.ofClient client (scripted loading)) c
        ⟨.new, ⟨[u], [], 1⟩, ⟨0, none⟩⟩ = (.ok .success, after) ∧
      ∃ (config : LoadConfiguration) (s' : Connection (Recorded Nat)) (job : Job),
        Confirmed client (scripted loading) config u.content
          ⟨(0, []), none⟩ s'.world.2 job ∧
        after.world = s'.through Prod.fst ∧ job.status.state = "DONE" := by
  intro client c u
  let settings : LoadSettings :=
    ⟨⟨"acme", "sales", "orders"⟩, none, .avro, .ifNeeded, .empty, 0, true, 300⟩
  let submitted : Job := { Job.empty with reference := ⟨"", "j", none⟩ }
  let final : Job := { Job.empty with status := ⟨"DONE", none⟩ }
  let W : WarehouseOps (Connection Nat) Channel := .ofClient client (scripted loading)
  have hresolve : LoadSettings.resolve c u.attributes = .ok settings := by decide +kernel
  have hopen : W.openChannel (settings.configuration none) ⟨0, none⟩ =
      (.ok (.new session 1), ⟨1, none⟩) := by decide +kernel
  have hflush : Channel.flush ⟨session, 1, [1, 2], 0⟩ client.http
    (scripted loading) ⟨1, none⟩ =
      (.ok (), ⟨session, 1, [2], 1⟩, ⟨2, none⟩) := by decide +kernel
  have hwrite : W.write (.new session 1) u.content ⟨1, none⟩ =
      (.ok 2, ⟨session, 1, [2], 1⟩, ⟨2, none⟩) := by
    have hdrain : Channel.drain client.http (scripted loading)
        ⟨session, 1, [1, 2], 0⟩ ⟨1, none⟩ =
          (.ok (), ⟨session, 1, [2], 1⟩, ⟨2, none⟩) :=
      (Channel.drain_of_flush (by decide) hflush).trans (Channel.drain_of_le (by decide))
    show Channel.write (.new session 1) client.http (scripted loading) [1, 2] ⟨1, none⟩ = _
    rw [Channel.write]
    simp only [Channel.new, List.nil_append, hdrain]
    rfl
  have hclose : W.close ⟨session, 1, [2], 1⟩ ⟨2, none⟩ = (.ok submitted, ⟨3, none⟩) := by
    decide +kernel
  have hwait : W.wait submitted settings.timeout ⟨3, none⟩ =
      (some (.ok final), ⟨4, none⟩) := by
    decide +kernel
  have hread : Processor.new.readSchema c = (.ok none, ⟨some none, 1⟩) := by
    have hraw : Processor.schemaText c = none := by decide +kernel
    rw [Processor.readSchema, hraw]
    rfl
  obtain ⟨after, hrun⟩ : ∃ after, Processor.onTrigger W c ⟨.new, ⟨[u], [], 1⟩, ⟨0, none⟩⟩ =
      (.ok .success, after) :=
    ⟨_, Processor.onTrigger_of_loadRun rfl hread hresolve
      (.finished hopen hwrite hclose hwait) rfl⟩
  refine ⟨after, hrun, ?_⟩
  obtain ⟨s', u', schema, settings', job, -, hworld, hqueue, -, -, -,
    hconfirmed, hdone, -⟩ :=
    success_confirmed hrun
  obtain ⟨rfl, -⟩ := List.cons.inj hqueue
  exact ⟨_, s', job, hconfirmed, hworld, hdone⟩

end WarehouseLoader.Loader
