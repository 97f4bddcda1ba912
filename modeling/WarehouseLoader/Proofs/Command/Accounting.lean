import WarehouseLoader.Proofs.Command.Preparation
import WarehouseLoader.Proofs.Loader.Routing
import WarehouseLoader.Proofs.Loader.Validation

/-!
# Every file is accounted for

A load command triggers until no unit waits. `Emptied` is such a run: one
trigger for each unit, in the order of the queue, that takes it and routes it,
and an idle one at the end. Once a processor was scheduled there always is one
(`exists_emptied`), for no trigger fails any more, and it is what the command
does (`drain_of_emptied`). The counts and the list of routed units that the
command ends with are read off that run.

What is printed about a unit goes under the name that is kept for its id, and
the id is all that ties a routed unit to its file: attributes may say anything,
and two files may have one name.
-/

namespace WarehouseLoader.Command

open Auth Config Http Loader

variable {σ ω : Type} {W : WarehouseOps σ ω} {c : ProcessContext}

/-! ### A run of triggers -/

/-- Triggers that each take the front unit and route it, up to one that is
idle, and the units as they were routed. -/
inductive Emptied (W : WarehouseOps σ ω) (c : ProcessContext) :
    Processor.State σ → List (Relationship × FlowUnit) → Processor.State σ → Prop
  | idle {s} (hidle : Processor.onTrigger W c s = (.ok .idle, s)) : Emptied W c s [] s
  | routed {s s₁ s' u route unit rest}
      (htrigger : Processor.onTrigger W c s = (.ok (Processor.outcomeOf route), s₁))
      (hpassed : Processor.Passed s.session s₁.session u route unit)
      (hrest : Emptied W c s₁ rest s') : Emptied W c s ((route, unit) :: rest) s'

theorem exists_passed {s : Processor.State σ} {schema : Option TableSchema} {u : FlowUnit}
    {rest : List FlowUnit} {p : Processor} (hqueue : s.session.queue = u :: rest)
    (hread : s.processor.readSchema c = (.ok schema, p)) :
    ∃ route unit s₁, Processor.onTrigger W c s = (.ok (Processor.outcomeOf route), s₁) ∧
      Processor.Passed s.session s₁.session u route unit ∧ s₁.session.queue = rest := by
  obtain ⟨made, route, unit, w', hprocessed, hprocess⟩ :=
    Processor.process_processed (W := W)
    c schema u { s.session with queue := rest } (s.world, [])
  have hrecorded := Processor.onTrigger_of_read (W := W.recorded)
    (s := ⟨s.processor, s.session, (s.world, [])⟩) hqueue hread
  have hsame := Processor.onTrigger_recorded (W := W) (c := c)
    ⟨s.processor, s.session, (s.world, [])⟩
  simp only [hprocess] at hrecorded
  rw [hrecorded] at hsame
  obtain ⟨hid, hcontent⟩ := hprocessed.keeps
  exact ⟨route, unit, _, hsame, ⟨hqueue, rfl, rfl, hid, hcontent⟩, rfl⟩

theorem exists_emptied {schema : Option TableSchema}
    (hschema : TableSchema.configured (Processor.schemaText c) = .ok schema)
    (s : Processor.State σ) : ∃ routed s', Emptied W c s routed s' := by
  generalize hqueue : s.session.queue = queue
  induction queue generalizing s with
  | nil => exact ⟨[], s, .idle (Processor.onTrigger_of_nil hqueue)⟩
  | cons u rest ih =>
      obtain ⟨schema', p, hread⟩ := Processor.exists_readSchema s.processor hschema
      obtain ⟨route, unit, s₁, htrigger, hpassed, hleft⟩ :=
        exists_passed (W := W) hqueue hread
      obtain ⟨routed, s', hrest⟩ := ih s₁ hleft
      exact ⟨(route, unit) :: routed, s', .routed htrigger hpassed hrest⟩

theorem queue_of_idle {s s' : Processor.State σ}
    (h : Processor.onTrigger W c s = (.ok .idle, s')) : s.session.queue = [] := by
  cases hqueue : s.session.queue with
  | nil => rfl
  | cons u rest =>
      cases hread : s.processor.readSchema c with
      | mk outcome p =>
          cases outcome with
          | error e =>
              rw [Processor.onTrigger_of_unread hqueue hread] at h
              cases h
          | ok schema =>
              obtain ⟨route, unit, s₁, htrigger, -⟩ := exists_passed (W := W) hqueue hread
              rw [htrigger] at h
              cases route <;> cases h

/-- Each unit of the queue was routed, in order, with its id and its content. -/
theorem Emptied.routes {s s' : Processor.State σ} {routed : List (Relationship × FlowUnit)}
    (h : Emptied W c s routed s') :
    routed.map (·.2.id) = s.session.queue.map (·.id) ∧
      routed.map (·.2.content) = s.session.queue.map (·.content) ∧
      s'.session.transferred = s.session.transferred ++ routed := by
  induction h with
  | idle hidle =>
      rw [queue_of_idle hidle, List.append_nil]
      exact ⟨rfl, rfl, rfl⟩
  | routed htrigger hpassed hrest ih =>
      obtain ⟨hids, hcontents, htransferred⟩ := ih
      rw [hpassed.taken, List.map_cons, List.map_cons, List.map_cons, List.map_cons, hids,
        hcontents, hpassed.sameId, hpassed.sameContent, htransferred, hpassed.appended,
        List.append_assoc]
      exact ⟨rfl, rfl, rfl⟩

/-! ### Draining -/

/-- The counts with those of some units added. -/
def Tally.adding (t : Tally) (routed : List (Relationship × FlowUnit)) : Tally where
  loaded := t.loaded + routed.countP (·.1 == .success)
  failed := t.failed + routed.countP (·.1 == .failure)

theorem drain_of_idle {s s' : Processor.State σ} (t : Tally)
    (h : Processor.onTrigger W c s = (.ok .idle, s')) : drain W c t s = (.ok t, s') := by
  rw [drain]
  split <;> simp_all

theorem drain_of_routed {s s₁ : Processor.State σ} {route : Relationship} (t : Tally)
    (unit : FlowUnit)
    (h : Processor.onTrigger W c s = (.ok (Processor.outcomeOf route), s₁)) :
    drain W c t s = drain W c (t.adding [(route, unit)]) s₁ := by
  rw [drain]
  cases route <;> split <;> simp_all [Processor.outcomeOf, Tally.adding]

theorem adding_cons (t : Tally) (r : Relationship × FlowUnit)
    (routed : List (Relationship × FlowUnit)) :
    (t.adding [r]).adding routed = t.adding (r :: routed) := by
  simp only [Tally.adding, List.countP_cons, List.countP_nil, Nat.zero_add, Nat.add_assoc,
    Nat.add_comm (List.countP _ routed)]

theorem drain_of_emptied {s s' : Processor.State σ}
    {routed : List (Relationship × FlowUnit)} (h : Emptied W c s routed s') (t : Tally) :
    drain W c t s = (.ok (t.adding routed), s') := by
  induction h generalizing t with
  | idle hidle => exact drain_of_idle t hidle
  | routed htrigger hpassed hrest ih => rw [drain_of_routed t _ htrigger, ih, adding_cons]

/-! ### What is said of the units -/

/-- All that is said of a unit. -/
theorem unitMessage_eq (name : String) (x : Relationship × FlowUnit) :
    unitMessage (some name) x = .object
      [("attributes", .object (x.2.attributes.toList.map fun a => (a.1, .text a.2))),
        ("filename", .text name), ("penalized", .bool x.2.penalized),
        ("relationship", .text (if x.1 = .success then "success" else "failure"))] := by
  obtain ⟨route, unit⟩ := x
  cases route <;> rfl

theorem map_unitMessage {ids : List Nat} {files : List String}
    {routed : List (Relationship × FlowUnit)} (hids : routed.map (·.2.id) = ids)
    (hnodup : ids.Nodup) (hlength : ids.length = files.length) :
    (routed.map fun r => unitMessage ((ids.zip (files.map baseName)).lookup r.2.id) r) =
      List.zipWith (fun path r => unitMessage (some (baseName path)) r) files routed := by
  have hnames : (routed.map fun r => (ids.zip (files.map baseName)).lookup r.2.id) =
      files.map fun path => some (baseName path) := by
    have hlookup :=
      map_lookup_zip (files.map baseName) hnodup (by rw [hlength, List.length_map])
    rw [← hids, List.map_map, List.map_map] at hlookup
    rw [← hids]
    exact hlookup
  calc (routed.map fun r => unitMessage ((ids.zip (files.map baseName)).lookup r.2.id) r)
      = List.zipWith unitMessage
          (routed.map fun r => (ids.zip (files.map baseName)).lookup r.2.id) routed := by
        rw [List.zipWith_map_left, List.zipWith_self]
    _ = List.zipWith (fun path r => unitMessage (some (baseName path)) r) files routed := by
        rw [hnames, List.zipWith_map_left]

theorem countP_failure_eq_zero_iff {routed : List (Relationship × FlowUnit)} :
    routed.countP (·.1 == .failure) = 0 ↔ ∀ r ∈ routed, r.1 = .success := by
  rw [List.countP_eq_zero]
  refine forall₂_congr fun r _ => ?_
  cases r.1 <;> simp

/-! ### The command -/

variable {m : Machine} {config : String} {given : List (String × String)}
  {files : List String}
  {client : Warehouse.Client} {contents : List Bytes}

theorem runLoad_of_ready (T : Transport σ) (given : List (String × String)) (w : σ)
    (h : Ready m config files c client contents) :
    ∃ lastId routed s',
      Emptied (WarehouseOps.ofClient client T) c ⟨(Processor.new.onScheduled c).2,
        ⟨unitsOf given 0 (files.zip contents), [], lastId⟩, ⟨w, none⟩⟩ routed s' ∧
      runLoad m T config given files w = (loadReport
        (((unitsOf given 0 (files.zip contents)).map (·.id)).zip (files.map baseName))
        files.length (T.now s'.world.world - T.now w).toNat
        ⟨routed.countP (·.1 == .success), routed.countP (·.1 == .failure)⟩ routed,
        s'.world.world) := by
  obtain ⟨lastId, hprepare⟩ := prepare_of_ready given h
  obtain ⟨-, schema, hschema⟩ := Processor.scheduled_new_iff.mp h.scheduled
  obtain ⟨routed, s', hemptied⟩ :=
    exists_emptied (W := WarehouseOps.ofClient client T) hschema
    ⟨(Processor.new.onScheduled c).2,
      ⟨unitsOf given 0 (files.zip contents), [], lastId⟩, ⟨w, none⟩⟩
  obtain ⟨-, -, htransferred⟩ := hemptied.routes
  rw [List.nil_append] at htransferred
  refine ⟨lastId, routed, s', hemptied, ?_⟩
  simp only [runLoad, hprepare, drain_of_emptied hemptied, htransferred, Tally.adding,
    Nat.zero_add]

/-- A load command either ends before the first trigger with the first error
there is, and then it prints nothing and the world is as it was; or it takes and
routes a unit for each file, in their order, and nothing else. Then it says of
each unit, under the name of its own file, where it went, whether it is
penalized, and all of its attributes; and it fails exactly if one went to
failure, with the number of those that did. -/
theorem runLoad_accounts (m : Machine) (T : Transport σ) (config : String)
    (given : List (String × String)) (files : List String) (w : σ) :
    let r := runLoad m T config given files w
    ((∃ c client contents, Ready m config files c client contents) ∨
      ∃ e, Unready m config files e) ∧
    (∀ e, Unready m config files e → r = (⟨.error e, []⟩, w)) ∧
    ∀ c client contents, Ready m config files c client contents →
      ∃ (lastId : Nat) (routed : List (Relationship × FlowUnit))
        (s' : Processor.State (Connection σ)),
        let failures := routed.countP (·.1 == .failure)
        Emptied (WarehouseOps.ofClient client T) c
          ⟨(Processor.new.onScheduled c).2,
            ⟨unitsOf given 0 (files.zip contents), [], lastId⟩, ⟨w, none⟩⟩ routed s' ∧
        List.Forall₂ (fun path x => readFile m path = .ok x.2.content) files routed ∧
        r.2 = s'.world.world ∧
        (r.1.outcome = .ok () ↔ ∀ x ∈ routed, x.1 = .success) ∧
        (r.1.outcome ≠ .ok () → r.1.outcome =
          .error (.warehouse s!"{failures} of {files.length} units routed to failure")) ∧
        r.1.messages =
          List.zipWith (fun path x => .object
            [("attributes", .object (x.2.attributes.toList.map fun a => (a.1, .text a.2))),
              ("filename", .text (baseName path)), ("penalized", .bool x.2.penalized),
              ("relationship", .text (if x.1 = .success then "success" else "failure"))])
            files routed ++
            [logMessage (if failures = 0 then "INFO" else "ERROR")
              (loadedText (routed.countP (·.1 == .success)) files.length
                (T.now s'.world.world - T.now w).toNat)] := by
  intro r
  refine ⟨ready_or_unready m config files, fun e h => ?_, fun c client contents h => ?_⟩
  · simp only [r, runLoad, prepare_eq_error_iff.mpr h]
  · obtain ⟨lastId, routed, s', hemptied, hr⟩ := runLoad_of_ready T given w h
    obtain ⟨hids, hcontents, -⟩ := hemptied.routes
    have hlength : (files.zip contents).length = files.length := by
      rw [List.length_zip, h.reads.length_eq, Nat.min_self]
    have hreads := h.reads
    rw [contents_unitsOf, List.map_snd_zip
      (Nat.le_of_eq h.reads.length_eq.symm)] at hcontents
    rw [← hcontents, List.forall₂_map_right_iff] at hreads
    refine ⟨lastId, routed, s', hemptied, hreads, by simp only [r, hr], ?_, ?_, ?_⟩
    · simp only [r, hr, ← countP_failure_eq_zero_iff, loadReport]
      by_cases hnone : routed.countP (·.1 == .failure) = 0 <;> simp [hnone]
    · simp only [r, hr, loadReport]
      intro hfailed
      by_cases hnone : routed.countP (·.1 == .failure) = 0
      · exact absurd (if_pos hnone) hfailed
      · exact if_neg hnone
    · have hnodup : ((unitsOf given 0 (files.zip contents)).map (·.id)).Nodup := by
        rw [ids_unitsOf]
        exact List.nodup_range'
      have hcount : ((unitsOf given 0 (files.zip contents)).map (·.id)).length =
          files.length := by
        rw [ids_unitsOf, List.length_range', hlength]
      simp only [r, hr, loadReport, map_unitMessage hids hnodup hcount, unitMessage_eq]

/-- A network where nobody answers. -/
def silentTransport : Transport Unit where
  exchange _ _ w := (.refused, w)
  pause _ w := w
  now _ := 0
  log _ _ w := w
  newJobId w := ("", w)
  sign _ _ := []
  halt w := w
  isOver _ := false

/-- A configuration and two files of one name. -/
def twoFiles : Machine where
  file path :=
    if path = "loader.yaml" then
      .content (Text.utf8 ("credentials:\n  type: none\n" ++
        "properties:\n  gcp.project.id: acme\n"))
    else if path = "a/orders" ∨ path = "b/orders" then .content [120]
    else .missing
  credentialsPath := none

theorem prepared_twoFiles :
    (prepare twoFiles "loader.yaml" [] ["a/orders", "b/orders"]).isOk = true := by
  decide +kernel

theorem ready_twoFiles : ∃ c client contents,
    Ready twoFiles "loader.yaml" ["a/orders", "b/orders"] c client contents := by
  rcases ready_or_unready twoFiles "loader.yaml" ["a/orders", "b/orders"] with
    hready | ⟨e, hunready⟩
  · exact hready
  · have hprepared := prepared_twoFiles
    rw [prepare_eq_error_iff.mpr hunready] at hprepared
    cases hprepared

/-- Both units are told of under the name that their files have, whatever name
was given as an attribute. -/
theorem runLoad_accounts_of_two_files :
    ∃ (first second : Relationship × FlowUnit) (last : Json),
      (runLoad twoFiles silentTransport "loader.yaml" [("filename", "given")]
        ["a/orders", "b/orders"] ()).1.messages = [first, second].map (fun x => .object
          [("attributes", .object (x.2.attributes.toList.map fun a => (a.1, .text a.2))),
            ("filename", .text "orders"), ("penalized", .bool x.2.penalized),
            ("relationship", .text (if x.1 = .success then "success" else "failure"))]) ++
          [last] := by
  obtain ⟨c, client, contents, hready⟩ := ready_twoFiles
  obtain ⟨-, -, haccounts⟩ := runLoad_accounts twoFiles silentTransport "loader.yaml"
    [("filename", "given")] ["a/orders", "b/orders"] ()
  obtain ⟨-, routed, s', -, hreads, -, -, -, hmessages⟩ :=
    haccounts c client contents hready
  have hnames : baseName "a/orders" = "orders" ∧ baseName "b/orders" = "orders" := by
    decide +kernel
  cases hreads with
  | cons _ hreads =>
      cases hreads with
      | cons _ hreads =>
          cases hreads
          simp only [List.zipWith_cons_cons, List.zipWith_nil_left, hnames] at hmessages
          exact ⟨_, _, _, hmessages⟩

end WarehouseLoader.Command
