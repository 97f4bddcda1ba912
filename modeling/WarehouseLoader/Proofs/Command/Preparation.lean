import Mathlib.Data.List.Forall2
import WarehouseLoader.Command.Run

/-!
# Getting a load command ready

Before the first unit is triggered a load command reads its configuration,
makes a client, schedules the processor and reads all of its files. Each of
these can end it (`Unready`), the first that does decides the error
(`prepare_eq_error_iff`), and none of them is given the network.

If all go well (`Ready`), there is one unit for each file, in the order of the
files (`prepare_of_ready`). The ids of the units are counted up from one, so they
differ, and under its id each unit finds the name of its own file
(`map_lookup_zip`). Nothing in that looks at the attributes that were given. A
file too many for the ids is a fault like one that cannot be read.
-/

namespace WarehouseLoader.Command

open Config Loader

variable {m : Machine} {config : String} {given : List (String × String)}
  {files : List String}

/-- The name of the file at the end of a path, if there is one. -/
def baseName (path : String) : String := (Path.fileName? path).getD ""

/-! ### What can go wrong -/

structure Configured (m : Machine) (config : String) (loader : LoaderConfig)
    (c : ProcessContext) (client : Warehouse.Client) : Prop where
  read : LoaderConfig.ofFile m config = .ok loader
  context : loader.context = .ok c
  client : loader.client m = .ok client

/-- What is wrong with a file when this many ids are in use. -/
inductive FileFault (m : Machine) (path : String) (used : Nat) : LoadError → Prop
  | unreadable {e} (hpath : readFile m path = .error e) : FileFault m path used e
  | uncounted {content} (hpath : readFile m path = .ok content)
      (hused : UInt64.size ≤ used + 1) : FileFault m path used .overflow

/-- The ways a load command can end before the first trigger. Each comes after
those above it went well. -/
inductive Unready (m : Machine) (config : String) (files : List String) : LoadError → Prop
  | unread {e} (hread : LoaderConfig.ofFile m config = .error e) : Unready m config files e
  | misconfigured {loader e} (hread : LoaderConfig.ofFile m config = .ok loader)
      (hcontext : loader.context = .error e) : Unready m config files e
  | unauthorized {loader c e} (hread : LoaderConfig.ofFile m config = .ok loader)
      (hcontext : loader.context = .ok c) (hclient : loader.client m = .error e) :
      Unready m config files e
  | unscheduled {loader c client e} (hconfigured : Configured m config loader c client)
      (hscheduled : (Processor.new.onScheduled c).1 = .error e) : Unready m config files e
  | unqueued {loader c client before path after e}
      (hconfigured : Configured m config loader c client)
      (hscheduled : (Processor.new.onScheduled c).1 = .ok ())
      (hfiles : files = before ++ path :: after)
      (hcount : before.length < UInt64.size)
      (hbefore : ∀ path' ∈ before, ∃ content, readFile m path' = .ok content)
      (hfault : FileFault m path before.length e) : Unready m config files e

/-- Nothing goes wrong before the first trigger, and these are the contents of
the files. -/
structure Ready (m : Machine) (config : String) (files : List String) (c : ProcessContext)
    (client : Warehouse.Client) (contents : List Bytes) : Prop where
  configured : ∃ loader, Configured m config loader c client
  scheduled : (Processor.new.onScheduled c).1 = .ok ()
  reads : List.Forall₂ (fun path content => readFile m path = .ok content) files contents
  count : files.length < UInt64.size

/-! ### The units of the files -/

/-- A unit for each file, with ids behind one that is taken. -/
def unitsOf (given : List (String × String)) : Nat → List (String × Bytes) → List FlowUnit
  | _, [] => []
  | lastId, (path, content) :: rest =>
    .new (lastId + 1) content (fileAttributes path content given) ::
      unitsOf given (lastId + 1) rest

theorem ids_unitsOf (lastId : Nat) (pairs : List (String × Bytes)) :
    (unitsOf given lastId pairs).map (·.id) = List.range' (lastId + 1) pairs.length := by
  induction pairs generalizing lastId with
  | nil => rfl
  | cons pair rest ih => exact congrArg ((lastId + 1) :: ·) (ih _)

theorem contents_unitsOf (lastId : Nat) (pairs : List (String × Bytes)) :
    (unitsOf given lastId pairs).map (·.content) = pairs.map (·.2) := by
  induction pairs generalizing lastId with
  | nil => rfl
  | cons pair rest ih => exact congrArg (pair.2 :: ·) (ih _)

theorem map_lookup_zip {ids : List Nat} (names : List String) (hnodup : ids.Nodup)
    (hlength : ids.length = names.length) :
    ids.map (fun id => (ids.zip names).lookup id) = names.map some := by
  induction ids generalizing names with
  | nil =>
      rw [List.length_eq_zero_iff.mp hlength.symm]
      rfl
  | cons id rest ih =>
      cases names with
      | nil => cases hlength
      | cons name others =>
          obtain ⟨hnew, hrest⟩ := List.nodup_cons.mp hnodup
          have hothers : rest.map (fun id' =>
              ((id :: rest).zip (name :: others)).lookup id') =
                rest.map fun id' => (rest.zip others).lookup id' := by
            refine List.map_congr_left fun id' hid' => ?_
            have hne : (id' == id) = false := by
              rw [beq_eq_false_iff_ne]
              rintro rfl
              exact hnew hid'
            rw [List.zip_cons_cons, List.lookup_cons, hne]
          rw [List.map_cons, hothers, ih others hrest (Nat.succ.inj hlength),
            List.zip_cons_cons, List.lookup_cons_self, List.map_cons]

/-! ### Reading the files -/

/-- A session with a unit more, which comes from a file. -/
def queued (given : List (String × String)) (session : Session) (path : String)
    (content : Bytes) : Session where
  queue := session.queue ++
    [.new (session.lastId + 1) content (fileAttributes path content given)]
  transferred := session.transferred
  lastId := session.lastId + 1

theorem lastId_queued_add (given : List (String × String)) (session : Session)
    (path : String) (content : Bytes) (rest : List String) :
    (queued given session path content).lastId + rest.length =
      session.lastId + (path :: rest).length :=
  Nat.succ_add_eq_add_succ _ _

theorem enqueueFiles_cons_of_read (given : List (String × String)) {path : String}
    {content : Bytes} {session : Session} (hpath : readFile m path = .ok content)
    (hfits : session.lastId + 1 < UInt64.size) (sources : List (Nat × String))
    (rest : List String) :
    enqueueFiles m given session sources (path :: rest) =
      enqueueFiles m given (queued given session path content)
        (sources ++ [(session.lastId + 1, baseName path)]) rest := by
  have henqueue : session.enqueue content (fileAttributes path content given) =
      .ok (session.lastId + 1, queued given session path content) :=
    Session.enqueue_eq_ok_iff.mpr ⟨hfits, rfl, rfl⟩
  rw [enqueueFiles, hpath]
  simp only [henqueue, bind, Except.bind, baseName]

theorem enqueueFiles_of_reads (given : List (String × String)) {contents : List Bytes}
    (h : List.Forall₂ (fun path content => readFile m path = .ok content) files contents)
    (session : Session) (sources : List (Nat × String))
    (hcount : session.lastId + files.length < UInt64.size) :
    ∃ lastId, enqueueFiles m given session sources files =
      .ok (⟨session.queue ++ unitsOf given session.lastId (files.zip contents),
          session.transferred, lastId⟩,
        sources ++ ((unitsOf given session.lastId (files.zip contents)).map (·.id)).zip
          (files.map baseName)) := by
  induction h generalizing session sources with
  | nil =>
      refine ⟨session.lastId, ?_⟩
      simp only [enqueueFiles, List.zip_nil_left, unitsOf, List.map_nil, List.append_nil]
  | @cons path content rest contents hpath hrest ih =>
      rw [← lastId_queued_add given session path content] at hcount
      have hfits := Nat.lt_of_le_of_lt (Nat.le_add_right _ _) hcount
      obtain ⟨lastId, ih⟩ := ih (queued given session path content)
        (sources ++ [(session.lastId + 1, baseName path)]) hcount
      refine ⟨lastId, ?_⟩
      rw [enqueueFiles_cons_of_read given hpath hfits, ih]
      simp only [queued, List.zip_cons_cons, unitsOf, List.map_cons, FlowUnit.new,
        List.append_assoc, List.singleton_append]

theorem enqueueFiles_cons_eq_error_iff {e : LoadError} {session : Session}
    {sources : List (Nat × String)} {path : String} {rest : List String} :
    enqueueFiles m given session sources (path :: rest) = .error e ↔
      FileFault m path session.lastId e ∨
        ∃ content, readFile m path = .ok content ∧ session.lastId + 1 < UInt64.size ∧
          enqueueFiles m given (queued given session path content)
            (sources ++ [(session.lastId + 1, baseName path)]) rest = .error e := by
  rw [enqueueFiles, bind_eq_error_iff]
  constructor
  · rintro (hpath | ⟨content, hpath, hrest⟩)
    · exact .inl (.unreadable hpath)
    · obtain hfull | ⟨⟨id, session'⟩, hqueued, hrest⟩ := bind_eq_error_iff.mp hrest
      · obtain ⟨hused, rfl⟩ := Session.enqueue_eq_error_iff.mp hfull
        exact .inl (.uncounted hpath hused)
      · obtain ⟨hfits, rfl, rfl⟩ := Session.enqueue_eq_ok_iff.mp hqueued
        exact .inr ⟨content, hpath, hfits, hrest⟩
  · rintro (hfault | ⟨content, hpath, hfits, hrest⟩)
    · cases hfault with
      | unreadable hpath => exact .inl hpath
      | uncounted hpath hused =>
          refine .inr ⟨_, hpath, bind_eq_error_iff.mpr (.inl ?_)⟩
          exact Session.enqueue_eq_error_iff.mpr ⟨hused, rfl⟩
    · rw [← enqueueFiles_cons_of_read given hpath hfits, enqueueFiles] at hrest
      exact bind_eq_error_iff.mp hrest

theorem enqueueFiles_eq_error_iff {e : LoadError} (session : Session)
    (sources : List (Nat × String)) (hlast : session.lastId < UInt64.size) :
    enqueueFiles m given session sources files = .error e ↔ ∃ before path after,
      files = before ++ path :: after ∧
        session.lastId + before.length < UInt64.size ∧
        (∀ path' ∈ before, ∃ content, readFile m path' = .ok content) ∧
        FileFault m path (session.lastId + before.length) e := by
  induction files generalizing session sources with
  | nil =>
      refine ⟨fun h => (by cases h), ?_⟩
      rintro ⟨before, path, after, hfiles, -⟩
      cases before <;> cases hfiles
  | cons first rest ih =>
      rw [enqueueFiles_cons_eq_error_iff]
      constructor
      · rintro (hfault | ⟨content, hread, hfits, hrest⟩)
        · exact ⟨[], first, rest, rfl, hlast, fun _ hmem => absurd hmem List.not_mem_nil,
            hfault⟩
        · obtain ⟨before, path, after, rfl, hcount, hbefore, hfault⟩ :=
            (ih (queued given session first content) _ hfits).mp hrest
          rw [lastId_queued_add] at hcount hfault
          refine ⟨first :: before, path, after, rfl, hcount, fun path' hmem => ?_, hfault⟩
          rcases List.mem_cons.mp hmem with rfl | hmem
          · exact ⟨content, hread⟩
          · exact hbefore path' hmem
      · rintro ⟨before, path, after, hfiles, hcount, hbefore, hfault⟩
        cases before with
        | nil =>
            cases hfiles
            exact .inl hfault
        | cons path' before =>
            cases hfiles
            obtain ⟨content, hread⟩ := hbefore first List.mem_cons_self
            rw [← lastId_queued_add given session first content] at hcount hfault
            have hfits := Nat.lt_of_le_of_lt (Nat.le_add_right _ _) hcount
            refine .inr ⟨content, hread, hfits, (ih _ _ hfits).mpr ?_⟩
            exact ⟨before, path, after, rfl, hcount,
              fun path' hmem => hbefore path' (List.mem_cons_of_mem _ hmem), hfault⟩

theorem enqueueFiles_empty_eq_error_iff {e : LoadError} {sources : List (Nat × String)} :
    enqueueFiles m given .empty sources files = .error e ↔ ∃ before path after,
      files = before ++ path :: after ∧ before.length < UInt64.size ∧
        (∀ path' ∈ before, ∃ content, readFile m path' = .ok content) ∧
        FileFault m path before.length e := by
  rw [enqueueFiles_eq_error_iff .empty sources (by decide)]
  simp only [Session.empty, Nat.zero_add]

theorem reads_of_enqueueFiles {session session' : Session}
    {sources sources' : List (Nat × String)} (hlast : session.lastId < UInt64.size)
    (h : enqueueFiles m given session sources files = .ok (session', sources')) :
    (∃ contents, List.Forall₂ (fun path content => readFile m path = .ok content) files
      contents) ∧ session.lastId + files.length < UInt64.size := by
  induction files generalizing session sources with
  | nil => exact ⟨⟨[], .nil⟩, hlast⟩
  | cons path rest ih =>
      rw [enqueueFiles] at h
      obtain ⟨content, hpath, h⟩ := bind_eq_ok_iff.mp h
      obtain ⟨⟨id, session'⟩, hqueued, h⟩ := bind_eq_ok_iff.mp h
      obtain ⟨hfits, rfl, rfl⟩ := Session.enqueue_eq_ok_iff.mp hqueued
      obtain ⟨⟨contents, hreads⟩, hcount⟩ := ih hfits h
      refine ⟨⟨content :: contents, .cons hpath hreads⟩, ?_⟩
      rwa [← lastId_queued_add given session path content]

/-! ### All of it -/

theorem prepare_of_configured {loader : LoaderConfig} {c : ProcessContext}
    {client : Warehouse.Client} (h : Configured m config loader c client) :
    prepare m config given files = (Processor.new.onScheduled c).1.bind fun _ =>
      (enqueueFiles m given .empty [] files).map fun queued =>
        ⟨c, client, (Processor.new.onScheduled c).2, queued.1, queued.2⟩ := by
  simp only [prepare, h.read, h.context, h.client, bind, Except.bind]
  cases (Processor.new.onScheduled c).1 with
  | error e => rfl
  | ok scheduled => cases enqueueFiles m given .empty [] files <;> rfl

theorem prepare_eq_error_iff {e : LoadError} :
    prepare m config given files = .error e ↔ Unready m config files e := by
  constructor
  · intro h
    cases hread : LoaderConfig.ofFile m config with
    | error e' =>
        simp only [prepare, hread, bind, Except.bind, Except.error.injEq] at h
        exact h ▸ .unread hread
    | ok loader =>
        cases hcontext : loader.context with
        | error e' =>
            simp only [prepare, hread, hcontext, bind, Except.bind, Except.error.injEq] at h
            exact h ▸ .misconfigured hread hcontext
        | ok c =>
            cases hclient : loader.client m with
            | error e' =>
                simp only [prepare, hread, hcontext, hclient, bind, Except.bind,
                  Except.error.injEq] at h
                exact h ▸ .unauthorized hread hcontext hclient
            | ok client =>
                have hconfigured : Configured m config loader c client :=
                  ⟨hread, hcontext, hclient⟩
                rw [prepare_of_configured hconfigured] at h
                cases hscheduled : (Processor.new.onScheduled c).1 with
                | error e' =>
                    rw [hscheduled] at h
                    cases h
                    exact .unscheduled hconfigured hscheduled
                | ok scheduled =>
                    rw [hscheduled] at h
                    obtain ⟨before, path, after, hfiles, hcount, hbefore, hfault⟩ :=
                      enqueueFiles_empty_eq_error_iff.mp (map_eq_error_iff.mp h)
                    exact .unqueued hconfigured hscheduled hfiles hcount hbefore hfault
  · intro h
    cases h with
    | unread hread => simp only [prepare, hread, bind, Except.bind]
    | misconfigured hread hcontext =>
        simp only [prepare, hread, hcontext, bind, Except.bind]
    | unauthorized hread hcontext hclient =>
        simp only [prepare, hread, hcontext, hclient, bind, Except.bind]
    | unscheduled hconfigured hscheduled =>
        rw [prepare_of_configured hconfigured, hscheduled]
        rfl
    | unqueued hconfigured hscheduled hfiles hcount hbefore hfault =>
        rw [prepare_of_configured hconfigured, hscheduled]
        exact map_eq_error_iff.mpr (enqueueFiles_empty_eq_error_iff.mpr
          ⟨_, _, _, hfiles, hcount, hbefore, hfault⟩)

theorem prepare_of_ready (given : List (String × String)) {c : ProcessContext}
    {client : Warehouse.Client} {contents : List Bytes}
    (h : Ready m config files c client contents) :
    ∃ lastId, prepare m config given files =
      .ok ⟨c, client, (Processor.new.onScheduled c).2,
        ⟨unitsOf given 0 (files.zip contents), [], lastId⟩,
      ((unitsOf given 0 (files.zip contents)).map (·.id)).zip (files.map baseName)⟩ := by
  obtain ⟨loader, hconfigured⟩ := h.configured
  obtain ⟨lastId, hqueued⟩ := enqueueFiles_of_reads given h.reads .empty []
    ((Nat.zero_add _).symm ▸ h.count)
  refine ⟨lastId, ?_⟩
  rw [prepare_of_configured hconfigured, h.scheduled]
  exact map_eq_ok_iff.mpr ⟨_, hqueued, rfl⟩

theorem ready_of_prepare {p : Prepared} (h : prepare m config given files = .ok p) :
    ∃ contents, Ready m config files p.context p.client contents := by
  rw [prepare] at h
  obtain ⟨loader, hread, h⟩ := bind_eq_ok_iff.mp h
  obtain ⟨c, hcontext, h⟩ := bind_eq_ok_iff.mp h
  obtain ⟨client, hclient, h⟩ := bind_eq_ok_iff.mp h
  obtain ⟨_, hscheduled, h⟩ := bind_eq_ok_iff.mp h
  obtain ⟨⟨session, sources⟩, hqueued, h⟩ := bind_eq_ok_iff.mp h
  obtain ⟨⟨contents, hreads⟩, hcount⟩ := reads_of_enqueueFiles (by decide) hqueued
  cases h
  exact ⟨contents, ⟨loader, hread, hcontext, hclient⟩, hscheduled, hreads,
    Nat.zero_add files.length ▸ hcount⟩

/-- One or the other, so nothing else can go wrong. -/
theorem ready_or_unready (m : Machine) (config : String) (files : List String) :
    (∃ c client contents, Ready m config files c client contents) ∨
      ∃ e, Unready m config files e := by
  cases hprepare : prepare m config [] files with
  | error e => exact .inr ⟨e, prepare_eq_error_iff.mp hprepare⟩
  | ok p =>
      obtain ⟨contents, hready⟩ := ready_of_prepare hprepare
      exact .inl ⟨p.context, p.client, contents, hready⟩

end WarehouseLoader.Command
