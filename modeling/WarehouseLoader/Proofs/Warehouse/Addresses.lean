import WarehouseLoader.Proofs.Http.Whole
import WarehouseLoader.Proofs.Upload.Acknowledgement
import WarehouseLoader.Proofs.Warehouse.Client

/-!
# What a request is about

The identifiers of a project and of a job are put into the path of a request as
they are, and the path is read as a URL only then. So a request is about the
project and the job it was made for exactly if each identifier is whole in the
path and there is a base for the path to stand behind (`addresses_iff`).

The path of a job has two identifiers in it, and the segment for the one could
come from the other. But no piece of the path is longer than the longer of the
two, so the longer one is whole. Being whole, it is a single piece, and if the
segment for the shorter one came from there, the two would be the same text
(`project_whole_of_route`).
-/

namespace WarehouseLoader.Warehouse

open Auth Http Url

/-- What the client puts on the wire for one of its requests. -/
def Client.Sends (c : Client) (r : Request) (wire : WireRequest) : Prop :=
  c.http.SendsTo r (joinUrl c.http.config.baseUrl r.url) wire

/-- The URL is the one under which a load into the project is started. -/
def StartsIn (base project : String) (u : Url) : Prop :=
  ∃ segment, Decodes segment project ∧
    Behind base ["upload", "bigquery", "v2", "projects", segment, "jobs"]
      (some "uploadType=resumable") u

/-- The URL is the one of the job. -/
def AsksFor (base project jobId : String) (location : Option String) (u : Url) : Prop :=
  ∃ segment jobSegment, Decodes segment project ∧ Decodes jobSegment jobId ∧
    Behind base ["bigquery", "v2", "projects", segment, "jobs", jobSegment]
      (location.map ("location=" ++ formEncode ·)) u

variable {s front back : List Char} {text base project jobId : String}

/-! ### The names in the paths -/

theorem fixed_upload : ∀ name ∈ ["upload", "bigquery", "v2", "projects"], Fixed name := by
  intro name hname
  simp only [List.mem_cons, List.not_mem_nil, or_false] at hname
  rcases hname with rfl | rfl | rfl | rfl
  all_goals exact ⟨proper_of_all (by decide) (by decide), by decide, by decide⟩

theorem fixed_job : ∀ name ∈ ["bigquery", "v2", "projects"], Fixed name :=
  fun name hname => fixed_upload name (List.mem_cons_of_mem _ hname)

theorem fixed_jobs : ∀ name ∈ ["jobs"], Fixed name := by
  intro name hname
  rw [List.mem_singleton.mp hname]
  exact ⟨proper_of_all (by decide) (by decide), by decide, by decide⟩

/-- What the paths have besides the identifiers decodes to itself. -/
theorem le_of_fixed (h : Source s text) (hs : s = [] ∨ s = "jobs".toList) :
    byteLength s ≤ byteLength text.toList := by
  rw [byteLength_toList, ← h.decodes]
  rcases hs with rfl | rfl <;> decide

theorem piece_jobs (h : s ∈ piecesOf (tidied "jobs".toList)) : s = "jobs".toList := by
  have hjobs : piecesOf (tidied "jobs".toList) = ["jobs".toList] := by decide
  rw [hjobs] at h
  exact List.mem_singleton.mp h

theorem whole_of_route {own : List String} {segment : String}
    (hdecodes : Decodes segment project)
    (h : route own (tidied (project.toList ++ '/' :: "jobs".toList)) = own ++
      [segment, "jobs"]) :
    Whole project := by
  obtain ⟨s, hs, hsource⟩ := exists_source (by rw [h, List.drop_left]; simp) hdecodes
  refine (hsource.whole ?_).2
  rcases hs with rfl | hs
  · exact le_of_fixed hsource (.inl rfl)
  · rcases piece_cases hs with hle | hjobs
    · exact hle
    · exact le_of_fixed hsource (.inr (piece_jobs hjobs))

theorem route_jobs (own : List String) (back : List Char) :
    route own (tidied ("jobs".toList ++ '/' :: back)) =
      route (own ++ ["jobs"]) (tidied back) := by
  exact (congrArg (route own) (tidied_pathOf fixed_jobs back)).trans
    (route_pathOf fixed_jobs own _)

section Job

variable {own : List String} {segment jobSegment : String}

theorem job_piece_cases
    (h : s = [] ∨ s ∈ piecesOf (tidied (front ++ '/' :: ("jobs".toList ++ '/' :: back)))) :
    byteLength s ≤ byteLength front ∨ (s = [] ∨ s = "jobs".toList) ∨
      s ∈ piecesOf (tidied back) := by
  rcases h with rfl | h
  · exact .inr (.inl (.inl rfl))
  · rcases piece_cases h with hfront | hbehind
    · exact .inl hfront
    · rw [tidied_cons] at hbehind
      rcases mem_piecesOf_append hbehind with hjobs | hback
      · exact .inr (.inl (.inr (piece_jobs hjobs)))
      · exact .inr (.inr hback)

theorem project_whole_of_route (hproject : Decodes segment project)
    (hjob : Decodes jobSegment jobId)
    (h : route own (tidied (project.toList ++
      '/' :: ("jobs".toList ++ '/' :: jobId.toList))) =
      own ++ [segment, "jobs", jobSegment]) : Whole project := by
  obtain ⟨s, hs, hsource⟩ := exists_source (by rw [h, List.drop_left]; simp) hproject
  obtain ⟨t, ht, htarget⟩ := exists_source (by rw [h, List.drop_left]; simp) hjob
  refine (hsource.whole ?_).2
  rcases job_piece_cases hs with hle | hfixed | hs
  · exact hle
  · exact le_of_fixed hsource hfixed
  · have hpiece := byteLength_le_of_piece hs
    by_cases hlong : byteLength jobId.toList ≤ byteLength project.toList
    · omega
    · -- The job is the longer text here, so it is whole, and the piece is all of it.
      have hshort : byteLength t ≤ byteLength jobId.toList := by
        rcases job_piece_cases ht with hle | hfixed | ht
        · omega
        · exact le_of_fixed htarget hfixed
        · exact byteLength_le_of_piece ht
      have hwhole := (htarget.whole hshort).2
      obtain ⟨rfl, hform⟩ := piece_of_whole hwhole hs
      have hbytes := (percentDecode_of_noForm hform).symm.trans hsource.decodes
      rw [byteLength_toList, ← hbytes]
      exact Nat.le_refl _

theorem job_whole_of_route (hproject : Whole project) (hjob : Decodes jobSegment jobId)
    (h : route own (tidied (project.toList ++
      '/' :: ("jobs".toList ++ '/' :: jobId.toList))) =
      own ++ [segment, "jobs", jobSegment]) :
    Whole jobId ∧ ∀ c ∈ jobId.toList.getLast?, isEdge c = false := by
  rw [route_of_whole hproject, route_jobs] at h
  have hlast : jobSegment ∈ (route (own ++ [Url.segment project.toList] ++ ["jobs"])
      (tidied jobId.toList)).drop (own ++ [Url.segment project.toList] ++
        ["jobs"]).length := by
    rw [h]
    simp [List.drop_append]
  obtain ⟨t, ht, htarget⟩ := exists_source hlast hjob
  have hshort : byteLength t ≤ byteLength (tidied jobId.toList) := by
    rcases ht with rfl | ht
    · exact byteLength_le (List.nil_sublist _)
    · exact byteLength_le (mem_piecesOf ht).2.2
  have hall := byteLength_le (tidied_sublist jobId.toList)
  obtain ⟨rfl, hwhole⟩ := htarget.whole (hshort.trans hall)
  exact ⟨hwhole, last_of_le hshort⟩

theorem start_route_of_whole (h : Whole project) (own : List String) :
    route own (tidied (project.toList ++ '/' :: "jobs".toList)) =
      own ++ [Url.segment project.toList, "jobs"] := by
  have hjobs := fixed_jobs "jobs" List.mem_cons_self
  have hkept : tidied "jobs".toList = "jobs".toList := by decide
  rw [route_of_whole h, hkept, route_of_proper hjobs.proper, hjobs.kept, List.append_assoc]
  rfl

theorem job_route_of_whole (hproject : Whole project) (hjob : Whole jobId)
    (hlast : ∀ c ∈ jobId.toList.getLast?, isEdge c = false) (own : List String) :
    route own (tidied (project.toList ++ '/' :: ("jobs".toList ++ '/' :: jobId.toList))) =
      own ++ [Url.segment project.toList, "jobs", Url.segment jobId.toList] := by
  rw [route_of_whole hproject, route_jobs, tidied_of_last hjob hlast,
    route_of_proper (whole_iff.mp hjob).1, List.append_assoc, List.append_assoc]
  rfl

end Job

/-! ### What is sent -/

theorem toList_uploadPath (project : String) : (Client.uploadPath project).toList =
    '/' :: pathOf ["upload", "bigquery", "v2", "projects"]
      (project.toList ++ '/' :: "jobs".toList) := by
  have hpath : Client.uploadPath project =
      "/upload/bigquery/v2/projects/" ++ project ++ "/jobs" :=
    rfl
  rw [hpath, String.toList_append, String.toList_append]
  simp [pathOf]

theorem toList_jobPath (project jobId : String) : (Client.jobPath project jobId).toList =
    '/' :: pathOf ["bigquery", "v2", "projects"]
      (project.toList ++ '/' :: ("jobs".toList ++ '/' :: jobId.toList)) := by
  have hpath : Client.jobPath project jobId =
      "/bigquery/v2/projects/" ++ project ++ "/jobs/" ++ jobId := rfl
  rw [hpath, String.toList_append, String.toList_append, String.toList_append]
  simp [pathOf]

theorem url_of_sends {c : Client} {r : Request} {rest : List Char} {wire : WireRequest}
    (hbase : c.http.config.baseUrl = some base) (hpath : r.url.toList = '/' :: rest)
    (hrest : ∀ c ∈ rest.head?, isSlashChar c = false) (h : c.Sends r wire) :
    ∃ u, parse (String.ofList (leftOf base ++ '/' :: rest)) = .ok u ∧ u.isWeb = true ∧
      wire.url = u.withQuery r.query := by
  obtain ⟨authorization, hwire⟩ := h
  obtain ⟨u, given, own, sent, ⟨hparse, hweb⟩, -, -, -, rfl⟩ := Request.parts_of_wire? hwire
  rw [hbase, joinUrl_path hpath hrest] at hparse
  exact ⟨u, hparse, hweb, rfl⟩

theorem startsIn_iff {c : Client} {config : LoadConfiguration} {id : String}
    {wire : WireRequest} (hbase : c.http.config.baseUrl = some base)
    (h : c.Sends (Client.startRequest config id) wire) :
    StartsIn base config.table.project wire.url ↔
      Rooted base ∧ Whole config.table.project := by
  have hpath : (Client.startRequest config id).url.toList = _ :=
    toList_uploadPath config.table.project
  obtain ⟨u, hu, hweb, hurl⟩ := url_of_sends hbase hpath (by simp [pathOf]; decide) h
  rw [hurl]
  constructor
  · rintro ⟨segment, hdecodes, hbehind⟩
    obtain ⟨hrooted, own, hroute⟩ := hbehind.rooted hu hweb (by simp)
    rw [tidied_pathOf fixed_upload, route_pathOf fixed_upload] at hroute
    exact ⟨hrooted, whole_of_route hdecodes (hroute.trans (by simp))⟩
  · rintro ⟨hrooted, hwhole⟩
    refine ⟨segment config.table.project.toList, decodes_of_whole hwhole, ?_⟩
    refine hrooted.behind hu hweb (fun own => ?_) (noEnd_tidied fixed_upload ?_)
    · rw [tidied_pathOf fixed_upload, route_pathOf fixed_upload,
        start_route_of_whole hwhole]
      simp
    · exact noEnd_cons (noEnd_of_whole hwhole)
        (fixed_jobs "jobs" List.mem_cons_self).proper.noEnd

theorem asksFor_iff {c : Client} {location : Option String} {wire : WireRequest}
    (hbase : c.http.config.baseUrl = some base)
    (h : c.Sends (Client.jobRequest project jobId location) wire) :
    AsksFor base project jobId location wire.url ↔
      Rooted base ∧ Whole project ∧ Whole jobId ∧
        ∀ c ∈ jobId.toList.getLast?, isEdge c = false := by
  have hpath : (Client.jobRequest project jobId location).url =
      Client.jobPath project jobId := by
    cases location <;> rfl
  have hquery : queried (Client.jobRequest project jobId location).query =
      location.map ("location=" ++ formEncode ·) := by
    cases location with
    | none => rfl
    | some l =>
        have hname : formEncode "location" ++ "=" = "location=" := by decide
        show some ("&".intercalate [formEncode "location" ++ "=" ++ formEncode l]) = _
        rw [String.intercalate_singleton, hname]
        rfl
  obtain ⟨u, hu, hweb, hurl⟩ := url_of_sends hbase
    ((congrArg String.toList hpath).trans (toList_jobPath project jobId))
    (by simp [pathOf]; decide) h
  rw [hurl]
  constructor
  · rintro ⟨segment, jobSegment, hproject, hjob, hbehind⟩
    obtain ⟨hrooted, own, hroute⟩ := hbehind.rooted hu hweb (by simp)
    rw [tidied_pathOf fixed_job, route_pathOf fixed_job] at hroute
    have hroute := hroute.trans (show _ = (own ++ ["bigquery", "v2", "projects"]) ++
      [segment, "jobs", jobSegment] by simp)
    have hwhole := project_whole_of_route hproject hjob hroute
    exact ⟨hrooted, hwhole, job_whole_of_route hwhole hjob hroute⟩
  · rintro ⟨hrooted, hproject, hjob, hlast⟩
    refine ⟨segment project.toList, segment jobId.toList, decodes_of_whole hproject,
      decodes_of_whole hjob, ?_⟩
    rw [← hquery]
    refine hrooted.behind hu hweb (fun own => ?_) (noEnd_tidied fixed_job ?_)
    · rw [tidied_pathOf fixed_job, route_pathOf fixed_job,
        job_route_of_whole hproject hjob hlast]
      simp
    · exact noEnd_cons (noEnd_of_whole hproject)
        (noEnd_pathOf fixed_jobs (noEnd_of_whole hjob))

/-- Two URLs that are those of jobs are alike in the path only if the jobs are. -/
theorem AsksFor.unique {project' jobId' : String} {location location' : Option String}
    {u u' : Url} (h : AsksFor base project jobId location u)
    (h' : AsksFor base project' jobId' location' u')
    (hsegments : u.segments = u'.segments) : project = project' ∧ jobId = jobId' := by
  obtain ⟨segment, jobSegment, hproject, hjob, root, hroot, rfl⟩ := h
  obtain ⟨segment', jobSegment', hproject', hjob', root', hroot', rfl⟩ := h'
  cases hroot.symm.trans hroot'
  have hnames := List.append_cancel_left hsegments
  simp only [List.cons.injEq, and_true, true_and] at hnames
  obtain ⟨rfl, rfl⟩ := hnames
  exact ⟨utf8_injective (hproject.symm.trans hproject'),
    utf8_injective (hjob.symm.trans hjob')⟩

/-! ### Whole runs -/

theorem startUpload_logged {σ τ : Type} {U : Transport τ} {record : τ → List (Entry σ)}
    (h : Logs U record) (c : Client) (config : LoadConfiguration) (s : Connection τ) :
    ∃ id made, record (c.startUpload U config s).2.world = record s.world ++ made ∧
      ∀ e ∈ made, c.http.Attempts (Client.startRequest config id) e := by
  obtain ⟨made, hmade, hattempts, -⟩ := c.http.request_logged h
    (Client.startRequest config (U.newJobId s.world).1)
      { s with world := (U.newJobId s.world).2 }
  rw [h.newJobId] at hmade
  refine ⟨(U.newJobId s.world).1, made, ?_, hattempts⟩
  rw [Client.startUpload]
  simp only []
  cases hr : c.http.request U (Client.startRequest config (U.newJobId s.world).1)
      { s with world := (U.newJobId s.world).2 } with
  | mk outcome s₁ =>
      rw [hr] at hmade
      cases outcome with
      | error e => exact hmade
      | ok a =>
          simp only []
          cases a.header? "location" <;> exact hmade

/-- Each request for a load or a job is about that load or that job, exactly if
the identifiers are whole and there is a base. Then no two jobs share a
resource. -/
theorem addresses_iff (c : Client) {base : String}
    (hbase : c.http.config.baseUrl = some base) :
    (∀ {σ : Type} (T : Transport σ) (config : LoadConfiguration) (s : Connection σ),
      ∃ id, ∀ e ∈ (c.startUpload T.recorded config s.recording).2.world.2,
        c.http.Attempts (Client.startRequest config id) e) ∧
    (∀ {σ : Type} (T : Transport σ) (project jobId : String) (location : Option String)
      (s : Connection σ),
      ∀ e ∈ (c.getJob T.recorded project jobId location s.recording).2.world.2,
        c.http.Attempts (Client.jobRequest project jobId location) e) ∧
    (∀ (config : LoadConfiguration) (id : String) (wire : WireRequest),
      c.Sends (Client.startRequest config id) wire →
        (StartsIn base config.table.project wire.url ↔
          Rooted base ∧ Whole config.table.project)) ∧
    (∀ (project jobId : String) (location : Option String) (wire : WireRequest),
      c.Sends (Client.jobRequest project jobId location) wire →
        (AsksFor base project jobId location wire.url ↔
          Rooted base ∧ Whole project ∧ Whole jobId ∧
            ∀ c ∈ jobId.toList.getLast?, isEdge c = false)) ∧
    ∀ (project jobId project' jobId' : String)
      (location location' : Option String)
      (u u' : Url), AsksFor base project jobId location u →
        AsksFor base project' jobId' location' u' →
        u.segments = u'.segments → project = project' ∧ jobId = jobId' := by
  refine ⟨fun T config s => ?_, fun T project jobId location s => ?_,
    fun config id wire h => startsIn_iff hbase h,
    fun project jobId location wire h => asksFor_iff hbase h,
    fun _ _ _ _ _ _ _ _ h h' hsegments => h.unique h' hsegments⟩
  · obtain ⟨id, made, hmade, hattempts⟩ :=
      startUpload_logged (recorded_logs T) c config s.recording
    refine ⟨id, fun e he => hattempts e ?_⟩
    rwa [hmade] at he
  · obtain ⟨made, hmade, hattempts, -⟩ :=
      Client.getJob_logged (recorded_logs T) c project jobId location s.recording
    intro e he
    rw [hmade] at he
    exact hattempts e he

/-! ### A client of a server nearby -/

/-- A client that authorizes nothing. -/
def localClient : Client :=
  ⟨⟨{ HttpConfig.standard with baseUrl := some "http://localhost" }, none⟩, .standard⟩

theorem rooted_localhost : Rooted "http://localhost" := ⟨⟨_, rfl⟩, by simp⟩

theorem addresses_iff_of_localhost : ∃ wire,
    localClient.Sends (Client.jobRequest "acme" "j 1" none) wire ∧
      AsksFor "http://localhost" "acme" "j 1" none wire.url := by
  have hsends : ∃ wire, localClient.Sends (Client.jobRequest "acme" "j 1" none) wire :=
    ⟨_, none, rfl⟩
  obtain ⟨wire, hsends⟩ := hsends
  refine ⟨wire, hsends, ((addresses_iff localClient rfl).2.2.2.1 _ _ _ _ hsends).mpr
    ⟨rooted_localhost, ?_, ?_, by simp [isEdge]⟩⟩
  · exact whole_of_all (by decide) (by decide) (by decide)
  · exact whole_of_all (by decide) (by decide) (by decide)

/-- The server's answer to whatever it is sent. -/
def opened : Response := ⟨200, [("location", Upload.session)], some []⟩

/-- A network without exchanges so far. -/
def fresh : Connection (Recorded Unit) := ⟨((), []), none⟩

theorem exists_exchange {r : Request} {u : Url} (hheaders : r.headers = [])
    (hbody : r.body = none ∨ ∃ v, r.body = some (.json v))
    (hparse : parse (joinUrl localClient.http.config.baseUrl r.url) = .ok u)
    (hweb : u.isWeb = true) :
    ∃ e : Entry Unit,
      localClient.http.request (Upload.saying opened).recorded r fresh =
        (.ok opened, ⟨((), [e]), none⟩) ∧
      localClient.Sends r e.request ∧ e.request.url = u.withQuery r.query := by
  obtain ⟨wire, hwire, hurl⟩ : ∃ wire,
      r.wire? (joinUrl localClient.http.config.baseUrl r.url)
        (some localClient.http.config.userAgent)
          localClient.http.config.defaultHeaders none =
          some wire ∧ wire.url = u.withQuery r.query := by
    rw [Request.wire?, hparse, hheaders]
    rcases hbody with hbody | ⟨v, hbody⟩ <;>
      exact ⟨_, by simp [hweb, hbody, Request.carried?, Except.toOption, localClient,
        HttpConfig.standard, withAuthorization?]; rfl, rfl⟩
  exact ⟨⟨wire, .answered opened, (), ()⟩, HttpClient.request_of_accepted rfl hwire rfl rfl,
    ⟨none, hwire⟩, hurl⟩

def slashed : LoadConfiguration := .ofTable ⟨"a/b", "sales", "orders"⟩

/-- The number sign and what follows it are not part of the address. -/
theorem exists_getJob_exchange {jobId : String}
    (hparse : parse (joinUrl localClient.http.config.baseUrl
        (Client.jobPath "acme" jobId)) =
      .ok ⟨"http", some "localhost", none,
        ["bigquery", "v2", "projects", "acme", "jobs", "j"], none⟩) :
    ∃ e : Entry Unit,
      (localClient.getJob (Upload.saying opened).recorded "acme" jobId none
        fresh).2.world.2 = [e] ∧
      e.request.url = ⟨"http", some "localhost", none,
        ["bigquery", "v2", "projects", "acme", "jobs", "j"], none⟩ := by
  obtain ⟨e, hrequest, -, hurl⟩ :=
    @exists_exchange (Client.jobRequest "acme" jobId none) _ rfl (.inl rfl) hparse rfl
  refine ⟨e, ?_, hurl.trans rfl⟩
  rw [Client.getJob, HttpClient.requestRead, hrequest]

/-- A slash in the name of a project makes two segments of it, and two jobs that
differ behind a number sign only are asked for at one URL. -/
theorem project_with_slash_splits :
    (∃ e : Entry Unit,
      (localClient.startUpload (Upload.saying opened).recorded slashed
        fresh).2.world.2 = [e] ∧
        e.request.url.segments =
          ["upload", "bigquery", "v2", "projects", "a", "b", "jobs"] ∧
        ¬StartsIn "http://localhost" "a/b" e.request.url) ∧
    ∃ e e' : Entry Unit,
      (localClient.getJob (Upload.saying opened).recorded "acme" "j#1" none
        fresh).2.world.2 = [e] ∧
      (localClient.getJob (Upload.saying opened).recorded "acme" "j#2" none
        fresh).2.world.2 = [e'] ∧
      e.request.url = e'.request.url := by
  constructor
  · obtain ⟨e, hrequest, hsends, hurl⟩ :=
      @exists_exchange (Client.startRequest slashed "") ⟨"http", some "localhost", none,
        ["upload", "bigquery", "v2", "projects", "a", "b", "jobs"], none⟩
        rfl (.inr ⟨_, rfl⟩) rfl rfl
    refine ⟨e, ?_, by rw [hurl, segments_withQuery], fun hstarts => ?_⟩
    · have hnew :
          (Upload.saying opened).recorded.newJobId fresh.world = ("", fresh.world) := rfl
      rw [Client.startUpload, hnew]
      simp only []
      rw [hrequest]
      rfl
    · exact ((startsIn_iff rfl hsends).mp hstarts).2.noBreak '/' (by decide) (by decide)
  · obtain ⟨e, he, hfirst⟩ := @exists_getJob_exchange "j#1" rfl
    obtain ⟨e', he', hsecond⟩ := @exists_getJob_exchange "j#2" rfl
    exact ⟨e, e', he, he', hfirst.trans hsecond.symm⟩

end WarehouseLoader.Warehouse
