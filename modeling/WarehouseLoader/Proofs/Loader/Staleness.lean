import WarehouseLoader.Proofs.Loader.Reporting

/-!
# What a report leaves of earlier ones

A unit may come back after a report and then carries what that one wrote. The
next report takes the three error attributes away, whatever its job. It does not
take away the times and the address of an earlier job: it overwrites those that
its own job has, if that went well, and leaves the others
(`attribute?_report_of_job`). Nor does it take back that the unit is to wait
(`penalized_report`).

So two units that differ in these marks only are made equal by a report exactly
if it overwrites each mark in which they differ (`report_marks`).
-/

namespace WarehouseLoader.Loader

variable {settings : LoadSettings} {job : Job} {u u' : FlowUnit} {name : String}

/-- What a job that went well may have to tell, and under which names. -/
def jobValues (job : Job) : List (String × Option String) :=
  [(Attribute.jobCreationTime, job.statistics.creationTime.map toString),
    (Attribute.jobStartTime, job.statistics.startTime.map toString),
    (Attribute.jobEndTime, job.statistics.endTime.map toString),
    (Attribute.jobLink, job.selfLink)]

/-- The units differ at most in the named attributes and in whether they are to
wait. -/
structure AgreeBut (names : List String) (u u' : FlowUnit) : Prop where
  id : u.id = u'.id
  content : u.content = u'.content
  attributes : ∀ name, name ∉ names → u.attribute? name = u'.attribute? name

theorem lookup_successAttributes {entry : String × Option String}
    (h : entry ∈ jobValues job) : (successAttributes job).lookup entry.1 = entry.2 := by
  simp only [successAttributes, List.lookup_append, lookup_optional]
  simp only [jobValues, List.mem_cons, List.not_mem_nil, or_false] at h
  rcases h with rfl | rfl | rfl | rfl <;>
    simp [Attribute.jobCreationTime, Attribute.jobStartTime, Attribute.jobEndTime,
      Attribute.jobLink]

theorem mem_jobNames {entry : String × Option String} (h : entry ∈ jobValues job) :
    entry.1 ∈ jobNames := List.mem_map_of_mem h

/-- A job that did not go well is told under other names. -/
theorem attribute?_report_of_failed {e : JobError} (hfailed : job.error? = some e)
    (hname : name ∈ jobNames) :
    (report settings job u).2.attribute? name = u.attribute? name := by
  have herrors := notMem_ofErrors_of_jobNames hname
  have hjob : (jobAttributes job).lookup name = none := by
    rw [lookup_eq_none_iff_notMem, jobAttributes, hfailed]
    exact fun herror => herrors ((names_error_sublist e).subset herror)
  rw [attribute?_report_of_notMem_settings (notMem_settings_of_jobNames hname), hjob,
    Option.none_or, if_neg herrors]

theorem attribute?_report_of_job {entry : String × Option String}
    (h : entry ∈ jobValues job) :
    (report settings job u).2.attribute? entry.1 =
      (if job.error? = none then entry.2 else none).or (u.attribute? entry.1) := by
  cases herror : job.error? with
  | none =>
      rw [if_pos rfl, attribute?_report_of_jobNames herror (mem_jobNames h),
        lookup_successAttributes h]
  | some e =>
      rw [if_neg nofun, Option.none_or, attribute?_report_of_failed herror (mem_jobNames h)]

theorem penalized_report :
    (report settings job u).2.penalized = (job.error?.isSome || u.penalized) := by
  rw [report]
  cases job.error? <;> rfl

theorem route_of_job :
    (report settings job u).1 = if job.error? = none then .success else .failure := by
  rw [report]
  cases job.error? <;> rfl

theorem or_left_cancel_iff {α : Type} {a b c : Option α} :
    a.or b = a.or c ↔ a.isSome ∨ b = c := by
  cases a <;> simp

theorem isSome_reported_iff (settings : LoadSettings) (u : FlowUnit)
    {value : Option String} :
    (if job.error? = none then value else none).isSome ↔
      (report settings job u).1 = .success ∧ value.isSome := by
  rw [route_report]
  split
  · next hfine => simp [hfine]
  · next hfailed => simp [hfailed]

theorem failed_report : (report settings job u).1 = .failure ↔ job.error?.isSome := by
  rw [report]
  cases job.error? <;> simp

theorem eq_of_attributes (hid : u.id = u'.id) (hcontent : u.content = u'.content)
    (hattributes : ∀ name, u.attribute? name = u'.attribute? name)
    (hpenalized : u.penalized = u'.penalized) : u = u' := by
  obtain ⟨id, content, attributes, penalized⟩ := u
  obtain ⟨id', content', attributes', penalized'⟩ := u'
  have hsame : attributes = attributes' := NameMap.ext_get? hattributes
  simp only at hid hcontent hpenalized
  rw [hid, hcontent, hsame, hpenalized]

/-- Two units that differ in marks only are told apart by a report exactly if
it leaves one of the marks. -/
theorem report_eq_iff (hagree : AgreeBut (jobNames ++ Attribute.ofErrors) u u') :
    report settings job u = report settings job u' ↔
      (∀ entry ∈ jobValues job, ((report settings job u).1 = .success ∧ entry.2.isSome) ∨
        u.attribute? entry.1 = u'.attribute? entry.1) ∧
      ((report settings job u).1 = .failure ∨ u.penalized = u'.penalized) := by
  constructor
  · intro heq
    constructor
    · intro entry hentry
      have hsame : (report settings job u).2.attribute? entry.1 =
          (report settings job u').2.attribute? entry.1 := by rw [heq]
      rw [attribute?_report_of_job hentry, attribute?_report_of_job hentry,
        or_left_cancel_iff, isSome_reported_iff settings u] at hsame
      exact hsame
    · have hsame : (report settings job u).2.penalized =
          (report settings job u').2.penalized := by
        rw [heq]
      rw [penalized_report, penalized_report] at hsame
      rw [failed_report]
      cases hfailed : job.error?.isSome with
      | true => exact .inl rfl
      | false =>
          rw [hfailed, Bool.false_or, Bool.false_or] at hsame
          exact .inr hsame
  · rintro ⟨hvalues, hwaiting⟩
    refine Prod.ext (route_of_job.trans route_of_job.symm) (eq_of_attributes ?_ ?_ ?_ ?_)
    · rw [id_report, id_report, hagree.id]
    · rw [content_report, content_report, hagree.content]
    · intro name
      by_cases hjob : name ∈ jobNames
      · obtain ⟨entry, hentry, rfl⟩ : ∃ entry ∈ jobValues job, entry.1 = name :=
          List.mem_map.mp hjob
        rw [attribute?_report_of_job hentry, attribute?_report_of_job hentry,
          or_left_cancel_iff, isSome_reported_iff settings u]
        exact hvalues entry hentry
      · rw [attribute?_report, attribute?_report]
        by_cases herror : name ∈ Attribute.ofErrors
        · rw [if_pos herror, if_pos herror]
        · have hneither : name ∉ jobNames ++ Attribute.ofErrors := fun hmem =>
            (List.mem_append.mp hmem).elim hjob herror
          rw [if_neg herror, if_neg herror, hagree.attributes name hneither]
    · rw [penalized_report, penalized_report]
      rcases hwaiting with hfailed | hsame
      · rw [failed_report.mp hfailed, Bool.true_or, Bool.true_or]
      · rw [hsame]

/-- What a report leaves of the four marks of a job and of the waiting, and
when it makes units the same that differ in nothing but such marks. The route is
the job's alone. On a unit that came without any mark, so is what it says, and
whether it is to wait. -/
theorem report_marks (settings : LoadSettings) (job : Job) :
    (∀ u, (report settings job u).1 = if job.error? = none then .success else .failure) ∧
    (∀ u, ∀ entry ∈ jobValues job, (report settings job u).2.attribute? entry.1 =
      (if (report settings job u).1 = .success then entry.2 else none).or
        (u.attribute? entry.1)) ∧
    (∀ u, (report settings job u).2.penalized ↔
      (report settings job u).1 = .failure ∨ u.penalized) ∧
    (∀ u, (∀ name ∈ jobNames, u.attribute? name = none) → u.penalized = false →
      (∀ entry ∈ jobValues job, ∀ value,
        (report settings job u).2.attribute? entry.1 = some value ↔
          (report settings job u).1 = .success ∧ entry.2 = some value) ∧
      ((report settings job u).2.penalized ↔ (report settings job u).1 = .failure)) ∧
    ∀ u u', AgreeBut (jobNames ++ Attribute.ofErrors) u u' →
      (report settings job u = report settings job u' ↔
        (∀ entry ∈ jobValues job,
          ((report settings job u).1 = .success ∧ entry.2.isSome) ∨
            u.attribute? entry.1 = u'.attribute? entry.1) ∧
        ((report settings job u).1 = .failure ∨ u.penalized = u'.penalized)) := by
  have hvalue : ∀ u, ∀ entry ∈ jobValues job, (report settings job u).2.attribute? entry.1 =
      (if (report settings job u).1 = .success then entry.2 else none).or
        (u.attribute? entry.1) := by
    intro u entry hentry
    rw [attribute?_report_of_job hentry]
    simp only [route_report]
  have hwaiting : ∀ u, (report settings job u).2.penalized ↔
      (report settings job u).1 = .failure ∨ u.penalized := by
    intro u
    rw [penalized_report, failed_report, Bool.or_eq_true]
  refine ⟨fun u => route_of_job, hvalue, hwaiting, ?_, fun u u' => report_eq_iff⟩
  intro u hnone hfresh
  constructor
  · intro entry hentry value
    rw [hvalue u entry hentry, hnone _ (mem_jobNames hentry), Option.or_none]
    by_cases hroute : (report settings job u).1 = .success
    · simp [hroute]
    · simp [hroute]
  · rw [hwaiting, hfresh]
    simp

def ordersSettings : LoadSettings :=
  ⟨⟨"acme", "sales", "orders"⟩, none, .avro, .ifNeeded, .empty, 0, true, 300⟩

def linkedJob : Job :=
  { Job.empty with selfLink := some "/jobs/2", status := ⟨"DONE", none⟩ }

def failedJob : Job :=
  { linkedJob with status := ⟨"DONE", some ⟨"no such field", "invalid", none⟩⟩ }

/-- Units that tell of an earlier job, and one of them of its address too. -/
def startedBefore : FlowUnit := .new 1 [] (.ofList [(Attribute.jobStartTime, "5")])

def loadedBefore : FlowUnit := startedBefore.putAttribute Attribute.jobLink "/jobs/1"

/-- A job with an address of its own makes the two the same, and one that failed
keeps them apart. -/
theorem report_marks_of_links :
    report ordersSettings linkedJob loadedBefore =
      report ordersSettings linkedJob startedBefore ∧
      report ordersSettings failedJob loadedBefore ≠
        report ordersSettings failedJob startedBefore := by
  have hagree : AgreeBut (jobNames ++ Attribute.ofErrors) loadedBefore startedBefore := by
    refine ⟨rfl, rfl, fun name hname => ?_⟩
    have hlink : name ≠ Attribute.jobLink := by
      rintro rfl
      exact hname (by decide)
    exact (NameMap.get?_insert _ _ _ _).trans (if_neg hlink)
  constructor
  · refine ((report_marks ordersSettings linkedJob).2.2.2.2 _ _ hagree).mpr ⟨?_, .inr rfl⟩
    decide
  · intro heq
    have hvalues := (((report_marks ordersSettings failedJob).2.2.2.2 _ _ hagree).mp heq).1
    revert hvalues
    decide

/-- What was written of an earlier job stays on a unit whose job fails, and a
unit that was to wait is to wait still when it was loaded. -/
theorem report_keeps_marks :
    (report ordersSettings failedJob loadedBefore).1 = .failure ∧
    (report ordersSettings failedJob loadedBefore).2.attribute? Attribute.jobLink =
      some "/jobs/1" ∧
    (report ordersSettings linkedJob loadedBefore).1 = .success ∧
    linkedJob.statistics.startTime = none ∧
    (report ordersSettings linkedJob loadedBefore).2.attribute? Attribute.jobStartTime =
      some "5" ∧
    (report ordersSettings linkedJob loadedBefore.penalize).1 = .success ∧
    (report ordersSettings linkedJob loadedBefore.penalize).2.penalized = true ∧
    report ordersSettings linkedJob loadedBefore.penalize ≠
      report ordersSettings linkedJob loadedBefore := by
  refine ⟨?_, ?_, ?_, ?_, ?_, ?_, ?_, ?_⟩ <;> decide

end WarehouseLoader.Loader
