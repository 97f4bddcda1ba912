import WarehouseLoader.Loader.Report

/-!
# What a reported unit says

A report takes the three error attributes away and then writes a list of
entries over what is left. The names of that list stand in the order in which
the attributes of a load are listed, and each at most once
(`names_sublist_written`), whatever the settings and the job are. So every
entry is what the unit says under its name (`attribute?_report_of_mem`), no
entry hides another, and a name that is not on the list of attributes a load
may write says what it said before (`attribute?_report_of_notMem`).
-/

namespace WarehouseLoader

namespace NameMap

variable {α : Type}

/-- The last entry of a name counts. -/
theorem get?_insertAll (m : NameMap α) (entries : List (String × α)) (name : String) :
    (m.insertAll entries).get? name = (entries.reverse.lookup name).or (m.get? name) := by
  induction entries generalizing m with
  | nil => rfl
  | cons e rest ih =>
      have hstep : m.insertAll (e :: rest) = (m.insert e.1 e.2).insertAll rest := rfl
      rw [hstep, ih, List.reverse_cons, List.lookup_append, Option.or_assoc, get?_insert]
      congr 1
      rw [lookup_entry, List.lookup_nil]
      split
      · rw [Option.some_or]
      · rw [Option.none_or]

end NameMap

theorem lookup_eq_none_iff_notMem {α : Type} {entries : List (String × α)} {name : String} :
    entries.lookup name = none ↔ name ∉ entries.map (·.1) := by
  rw [List.lookup_eq_none_iff]
  constructor
  · intro h hmem
    obtain ⟨e, he, rfl⟩ := List.mem_map.mp hmem
    have hne := h e he
    simp at hne
  · intro h e he
    rw [bne_iff_ne]
    rintro rfl
    exact h (List.mem_map_of_mem he)

theorem lookup_reverse_of_notMem {α : Type} {entries : List (String × α)} {name : String}
    (h : name ∉ entries.map (·.1)) : entries.reverse.lookup name = none := by
  rw [lookup_eq_none_iff_notMem, List.map_reverse, List.mem_reverse]
  exact h

theorem lookup_reverse_of_mem {α : Type} {entries : List (String × α)} {name : String}
    {value : α} (hnodup : (entries.map (·.1)).Nodup) (h : (name, value) ∈ entries) :
    entries.reverse.lookup name = some value := by
  induction entries with
  | nil => cases h
  | cons e rest ih =>
      obtain ⟨hnew, hrest⟩ := List.nodup_cons.mp hnodup
      rw [List.reverse_cons, List.lookup_append]
      rcases List.mem_cons.mp h with rfl | h
      · rw [lookup_reverse_of_notMem hnew, Option.none_or]
        exact List.lookup_cons_self
      · rw [ih hrest h, Option.some_or]

namespace Loader

variable {settings : LoadSettings} {job : Job} {u : FlowUnit} {name value : String}

/-- What a job adds to the settings it was made with. -/
def jobAttributes (job : Job) : List (String × String) :=
  match job.error? with
  | some e => errorAttributes e
  | none => successAttributes job

def reported (settings : LoadSettings) (job : Job) : List (String × String) :=
  settings.attributes ++ jobAttributes job

theorem attributes_report (settings : LoadSettings) (job : Job) (u : FlowUnit) :
    (report settings job u).2.attributes =
      (withoutErrors u).attributes.insertAll (reported settings job) := by
  rw [report, reported, jobAttributes]
  cases job.error? <;> rfl

theorem id_report (settings : LoadSettings) (job : Job) (u : FlowUnit) :
    (report settings job u).2.id = u.id := by
  rw [report]
  cases job.error? <;> rfl

theorem content_report (settings : LoadSettings) (job : Job) (u : FlowUnit) :
    (report settings job u).2.content = u.content := by
  rw [report]
  cases job.error? <;> rfl

theorem route_report (settings : LoadSettings) (job : Job) (u : FlowUnit) :
    (report settings job u).1 = .success ↔ job.error? = none := by
  rw [report]
  cases job.error? with
  | none => exact ⟨fun _ => rfl, fun _ => rfl⟩
  | some e => exact ⟨fun h => (by cases h), fun h => (by cases h)⟩

theorem attribute?_withoutErrors (u : FlowUnit) (name : String) :
    (withoutErrors u).attribute? name =
      if name ∈ Attribute.ofErrors then none else u.attribute? name := by
  simp only [withoutErrors, Attribute.ofErrors, List.foldl_cons, List.foldl_nil,
    FlowUnit.removeAttribute, FlowUnit.attribute?, NameMap.get?_erase, List.mem_cons,
    List.not_mem_nil, or_false]
  by_cases hlocation : name = Attribute.errorLocation
  · simp [hlocation]
  · by_cases hreason : name = Attribute.errorReason
    · simp [hreason]
    · simp [hlocation, hreason]

theorem attribute?_report (settings : LoadSettings) (job : Job) (u : FlowUnit)
    (name : String) :
    (report settings job u).2.attribute? name =
      ((reported settings job).reverse.lookup name).or
        (if name ∈ Attribute.ofErrors then none else u.attribute? name) := by
  rw [FlowUnit.attribute?, attributes_report, NameMap.get?_insertAll,
    ← FlowUnit.attribute?, attribute?_withoutErrors]

theorem lookup_optional (name other : String) (value : Option String) :
    (optional name value).lookup other = if other = name then value else none := by
  cases value with
  | none => exact (ite_self _).symm
  | some v => rw [optional, lookup_entry, List.lookup_nil]

/-! ### The names that are written -/

theorem names_optional_sublist (name : String) (value : Option String) :
    ((optional name value).map (·.1)).Sublist [name] := by
  cases value with
  | none => exact List.nil_sublist _
  | some v => exact List.Sublist.refl _

theorem names_settings_sublist (settings : LoadSettings) :
    (settings.attributes.map (·.1)).Sublist
      ([Attribute.dataset, Attribute.tableName] ++ [Attribute.tableSchema] ++
        [Attribute.sourceType, Attribute.ignoreUnknown, Attribute.createDisposition,
          Attribute.writeDisposition, Attribute.maxBadRecords]) := by
  rw [LoadSettings.attributes, List.map_append, List.map_append]
  refine ((List.Sublist.refl _).append ?_).append (List.Sublist.refl _)
  cases settings.schemaText with
  | none => exact List.nil_sublist _
  | some text => exact List.Sublist.refl _

theorem names_success_sublist (job : Job) :
    ((successAttributes job).map (·.1)).Sublist
      ([Attribute.jobCreationTime] ++ [Attribute.jobStartTime] ++ [Attribute.jobEndTime] ++
        [Attribute.jobLink]) := by
  rw [successAttributes, List.map_append, List.map_append, List.map_append]
  exact (((names_optional_sublist _ _).append (names_optional_sublist _ _)).append
    (names_optional_sublist _ _)).append (names_optional_sublist _ _)

theorem names_error_sublist (e : JobError) :
    ((errorAttributes e).map (·.1)).Sublist
      ([Attribute.errorMessage, Attribute.errorReason] ++ [Attribute.errorLocation]) := by
  rw [errorAttributes, List.map_append]
  exact (List.Sublist.refl _).append (names_optional_sublist _ _)

theorem names_sublist_written (settings : LoadSettings) (job : Job) :
    ((reported settings job).map (·.1)).Sublist Attribute.written := by
  rw [reported, List.map_append, jobAttributes]
  cases job.error? with
  | none =>
      have hall :=
        ((names_settings_sublist settings).append (names_success_sublist job)).append
        (List.nil_sublist Attribute.ofErrors)
      rw [List.append_nil] at hall
      exact hall
  | some e =>
      have hall := (names_settings_sublist settings).append
        ((List.nil_sublist [Attribute.jobCreationTime, Attribute.jobStartTime,
          Attribute.jobEndTime, Attribute.jobLink]).append (names_error_sublist e))
      rw [List.nil_append] at hall
      exact hall

theorem nodup_written : Attribute.written.Nodup := by decide

theorem attribute?_report_of_mem (h : (name, value) ∈ reported settings job) :
    (report settings job u).2.attribute? name = some value := by
  have hnodup := (names_sublist_written settings job).nodup nodup_written
  rw [attribute?_report, lookup_reverse_of_mem hnodup h, Option.some_or]

theorem attribute?_report_of_notMem (h : name ∉ Attribute.written) :
    (report settings job u).2.attribute? name = u.attribute? name := by
  have hreported : name ∉ (reported settings job).map (·.1) := fun hmem =>
    h ((names_sublist_written settings job).subset hmem)
  have herrors : name ∉ Attribute.ofErrors := fun hmem => by
    have hsubset : Attribute.ofErrors ⊆ Attribute.written := by decide
    exact h (hsubset hmem)
  rw [attribute?_report, lookup_reverse_of_notMem hreported, Option.none_or, if_neg herrors]

/-- The names under which a unit tells of a job that went well. -/
def jobNames : List String :=
  [Attribute.jobCreationTime, Attribute.jobStartTime, Attribute.jobEndTime,
    Attribute.jobLink]

theorem notMem_settings_of_jobNames (hname : name ∈ jobNames) :
    name ∉ settings.attributes.map (·.1) := by
  have hdisjoint : ∀ name ∈ jobNames, name ∉
      [Attribute.dataset, Attribute.tableName] ++ [Attribute.tableSchema] ++
        [Attribute.sourceType, Attribute.ignoreUnknown, Attribute.createDisposition,
          Attribute.writeDisposition, Attribute.maxBadRecords] := by decide
  exact fun hmem => hdisjoint name hname ((names_settings_sublist settings).subset hmem)

theorem notMem_ofErrors_of_jobNames (hname : name ∈ jobNames) :
    name ∉ Attribute.ofErrors := by
  have hdisjoint : ∀ name ∈ jobNames, name ∉ Attribute.ofErrors := by decide
  exact hdisjoint name hname

/-- Under a name that the settings do not write a unit tells of the job, and where
the job has nothing to tell, what it told before unless that was of an error. -/
theorem attribute?_report_of_notMem_settings
    (hname : name ∉ settings.attributes.map (·.1)) :
    (report settings job u).2.attribute? name =
      ((jobAttributes job).lookup name).or
        (if name ∈ Attribute.ofErrors then none else u.attribute? name) := by
  cases hlookup : (jobAttributes job).lookup name with
  | some value =>
      have hmem : (name, value) ∈ reported settings job := by
        obtain ⟨before, after, hsplit, -⟩ := List.lookup_eq_some_iff.mp hlookup
        rw [reported, hsplit]
        exact List.mem_append_right _ (List.mem_append_right _ List.mem_cons_self)
      rw [attribute?_report_of_mem hmem, Option.some_or]
  | none =>
      have hreported : name ∉ (reported settings job).map (·.1) := by
        rw [reported, List.map_append, List.mem_append, not_or]
        exact ⟨hname, lookup_eq_none_iff_notMem.mp hlookup⟩
      rw [attribute?_report, lookup_reverse_of_notMem hreported]

/-- After a job that went well a unit tells of that job, and where the job has
nothing to tell, what it told before. -/
theorem attribute?_report_of_jobNames (hfine : job.error? = none)
    (hname : name ∈ jobNames) :
    (report settings job u).2.attribute? name =
      ((successAttributes job).lookup name).or (u.attribute? name) := by
  rw [attribute?_report_of_notMem_settings (notMem_settings_of_jobNames
    hname), jobAttributes, hfine, if_neg (notMem_ofErrors_of_jobNames hname)]

end Loader

end WarehouseLoader
