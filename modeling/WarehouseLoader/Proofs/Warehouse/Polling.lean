import WarehouseLoader.Proofs.Http.Backoff
import WarehouseLoader.Proofs.Http.Retries
import WarehouseLoader.Proofs.Warehouse.Client

/-!
# The polls of a job

A wait for a job is read here off its polls. They are numbered from zero, and
`Client.poll` says what each of them is if none before it ends the wait: the
backoff is waited, the job is asked for by its own names, and of trouble that
may pass a line is left in the log. No answer is looked at for that, so the
polls are there for every server before anything is said about the wait.

The wait then adds nothing but the point where it stops. It stops at the first
poll that decides, that is one that finds the job done or fails for good, and
its result is that poll's (`Client.waitFor_polls`). The induction is on the
polls that decided nothing (`Client.pollFrom_of_passed`); a deadline may cut the
wait short in front of that point, and then there is no result at all.
-/

namespace WarehouseLoader

/-- The trouble may pass by itself. -/
inductive LoadError.Transient : LoadError → Prop
  | transport {fault : TransportFault} : Transient (.transport fault)
  | rateLimited {seconds : Nat} : Transient (.rateLimited seconds)
  | timeout {milliseconds : Nat} : Transient (.timeout milliseconds)
  | httpStatus {status : Nat} {body : String} (h : status ∈ [429, 500, 502, 503, 504]) :
      Transient (.httpStatus status body)

theorem LoadError.transient_iff {e : LoadError} : e.Transient ↔ e.isRetryable = true := by
  constructor
  · rintro (_ | _ | _ | hstatus)
    · rfl
    · rfl
    · rfl
    · exact Http.HttpClient.isTransientStatus_iff.mpr hstatus
  · intro hretry
    cases e with
    | transport fault => exact .transport
    | rateLimited seconds => exact .rateLimited
    | timeout milliseconds => exact .timeout
    | httpStatus status body =>
        exact .httpStatus (Http.HttpClient.isTransientStatus_iff.mp hretry)
    | _ => cases hretry

theorem Job.isDone_iff {job : Job} : job.isDone = true ↔ job.status.state = "DONE" :=
  beq_iff_eq

end WarehouseLoader

namespace WarehouseLoader.Warehouse

open Auth Http

variable {σ τ : Type}

/-- What ends the wait. A job that is done does, however it ended. -/
inductive Decides : Except LoadError Job → Prop
  | done {job : Job} (h : job.status.state = "DONE") : Decides (.ok job)
  | failed {e : LoadError} (h : ¬ e.Transient) : Decides (.error e)

theorem decides_ok_iff {job : Job} : Decides (.ok job) ↔ job.isDone = true := by
  rw [Job.isDone_iff]
  exact ⟨fun | .done h => h, .done⟩

theorem decides_error_iff {e : LoadError} : Decides (.error e) ↔ e.isRetryable = false := by
  rw [← Bool.not_eq_true, ← LoadError.transient_iff]
  exact ⟨fun | .failed h => h, .failed⟩

/-- One poll of a job. -/
structure Poll (σ : Type) where
  /-- The connection behind the wait, when the job is asked for. -/
  asking : Connection σ
  outcome : Except LoadError Job
  after : Connection σ

namespace Poll

/-- Somebody waits for the job when it is asked for, and when the answer is
there. -/
def Awaited (T : Transport σ) (p : Poll σ) : Prop :=
  T.isOver p.asking.world = false ∧ T.isOver p.after.world = false

/-- What is left of a poll that decides nothing. -/
def passed (T : Transport σ) (r : JobReference) (p : Poll σ) : Connection σ :=
  match p.outcome with
  | .ok _ => p.after
  | .error e =>
    p.after.mapWorld (T.log .warn s!"Polling job {r.jobId} failed, will retry: {e.message}")

end Poll

namespace Client

variable {c : Client} {T : Transport σ} {r : JobReference} {s s' : Connection σ} {k : Nat}

/-- The wait in front of poll `k`, in milliseconds: the first one is doubled for
each poll behind it, as far as 32 bits count, and none is longer than the
longest. -/
def pollWait (c : Client) (k : Nat) : Nat :=
  min (c.config.pollInitial * min (Nat.pow 2 k) (UInt32.size - 1)) c.config.pollMax

/-- Poll `k` from a connection in front of it. -/
def pollAt (c : Client) (T : Transport σ) (r : JobReference) (k : Nat) (s : Connection σ) :
    Poll σ :=
  let asking := s.mapWorld (T.pause (c.pollWait k))
  let answer := c.getJob T r.project r.jobId r.location asking
  ⟨asking, answer.1, answer.2⟩

/-- The connection in front of poll `k`, if no poll before it ends the wait. -/
def pollFront (c : Client) (T : Transport σ) (r : JobReference) (s : Connection σ) :
    Nat → Connection σ
  | 0 => s
  | k + 1 => (c.pollAt T r k (pollFront c T r s k)).passed T r

/-- Poll `k` of a wait that begins at `s`, if no poll before it ends the wait. -/
def poll (c : Client) (T : Transport σ) (r : JobReference) (s : Connection σ) (k : Nat) :
    Poll σ :=
  c.pollAt T r k (c.pollFront T r s k)

/-- The first `k` polls decided nothing, and somebody waits behind them. -/
def Passed (c : Client) (T : Transport σ) (r : JobReference) (s : Connection σ) (k : Nat) :
    Prop :=
  ∀ i < k, (c.poll T r s i).Awaited T ∧ ¬ Decides (c.poll T r s i).outcome

/-- Poll `k` is the first that decides, and somebody waits for it. -/
structure FirstToDecide (c : Client) (T : Transport σ) (r : JobReference) (s : Connection σ)
    (k : Nat) : Prop where
  passed : c.Passed T r s k
  awaited : (c.poll T r s k).Awaited T
  decides : Decides (c.poll T r s k).outcome

/-! ### One step of the wait -/

theorem pollDelay_eq (c : Client) (k : Nat) : c.pollDelay k = c.pollWait k := by
  rw [pollDelay, backoffDelay, BackoffType.factor_exponential]
  rfl

theorem pollFrom_of_decides (left : Nat) (hawaited : (c.pollAt T r k s).Awaited T)
    (hdecides : Decides (c.pollAt T r k s).outcome) :
    c.pollFrom T r k (left + 1) s =
      (some (c.pollAt T r k s).outcome, (c.pollAt T r k s).after) := by
  obtain ⟨hasking, hafter⟩ := hawaited
  simp only [pollFrom, pollDelay_eq]
  simp only [pollAt] at hasking hafter hdecides ⊢
  rw [if_neg (Bool.eq_false_iff.mp hasking)]
  cases hget : c.getJob T r.project r.jobId r.location
    (s.mapWorld (T.pause (c.pollWait k))) with
  | mk outcome s₁ =>
      rw [hget] at hafter hdecides
      cases outcome with
      | ok job =>
          have hdone : job.isDone = true := decides_ok_iff.mp hdecides
          simp only [hafter, hdone, Bool.false_eq_true, if_false, if_true]
      | error e =>
          have hlasting : e.isRetryable = false := decides_error_iff.mp hdecides
          simp only [hafter, hlasting, Bool.false_eq_true, if_false]

theorem pollFrom_of_undecided (left : Nat) (hawaited : (c.pollAt T r k s).Awaited T)
    (hundecided : ¬ Decides (c.pollAt T r k s).outcome) :
    c.pollFrom T r k (left + 1) s =
      c.pollFrom T r (k + 1) left ((c.pollAt T r k s).passed T r) := by
  obtain ⟨hasking, hafter⟩ := hawaited
  rw [pollFrom, pollDelay_eq]
  simp only [pollAt] at hasking hafter hundecided ⊢
  rw [if_neg (Bool.eq_false_iff.mp hasking)]
  cases hget : c.getJob T r.project r.jobId r.location
    (s.mapWorld (T.pause (c.pollWait k))) with
  | mk outcome s₁ =>
      rw [hget] at hafter hundecided
      cases outcome with
      | ok job =>
          have hrunning : job.isDone = false :=
            Bool.eq_false_iff.mpr (mt decides_ok_iff.mpr hundecided)
          simp only [hafter, hrunning, Bool.false_eq_true, if_false, Poll.passed]
      | error e =>
          have hretry : e.isRetryable = true :=
            Bool.of_not_eq_false (mt decides_error_iff.mpr hundecided)
          simp only [hafter, hretry, Bool.false_eq_true, if_false, if_true, Poll.passed]

theorem pollFrom_of_abandoned (left : Nat) (habandoned : ¬ (c.pollAt T r k s).Awaited T) :
    (c.pollFrom T r k (left + 1) s).1 = none := by
  rw [pollFrom, pollDelay_eq]
  simp only [Poll.Awaited, pollAt] at habandoned
  cases hasking : T.isOver (s.mapWorld (T.pause (c.pollWait k))).world with
  | true => simp only [if_true]
  | false =>
      simp only [Bool.false_eq_true, if_false]
      cases hget :
          c.getJob T r.project r.jobId r.location (s.mapWorld (T.pause (c.pollWait k))) with
      | mk outcome s₁ =>
          rw [hget, hasking] at habandoned
          have hafter : T.isOver s₁.world = true :=
            Bool.of_not_eq_false fun hawaited => habandoned ⟨rfl, hawaited⟩
          cases outcome <;> simp only [hafter, if_true]

/-! ### The whole wait -/

/-- Polls that decide nothing are behind the wait, whatever is still to come. -/
theorem pollFrom_of_passed (left : Nat) (h : c.Passed T r s k) :
    c.pollFrom T r 0 (k + left) s = c.pollFrom T r k left (c.pollFront T r s k) := by
  induction k generalizing left with
  | zero => rw [Nat.zero_add, pollFront]
  | succ k ih =>
      obtain ⟨hawaited, hundecided⟩ := h k (Nat.lt_succ_self k)
      have hrun := ih (left + 1) fun i hi => h i (Nat.lt_succ_of_lt hi)
      rw [show k + 1 + left = k + (left + 1) by omega, hrun,
        pollFrom_of_undecided left hawaited hundecided]
      rfl

/-- Among the first `n` polls there is one that ends the wait, or all of them
have passed. -/
theorem passed_or_exists_end (c : Client) (T : Transport σ) (r : JobReference)
    (s : Connection σ) (n : Nat) : c.Passed T r s n ∨ ∃ k < n, c.Passed T r s k ∧
      (¬ (c.poll T r s k).Awaited T ∨ c.FirstToDecide T r s k) := by
  induction n with
  | zero => exact .inl fun i hi => absurd hi (Nat.not_lt_zero i)
  | succ n ih =>
      rcases ih with hpassed | ⟨k, hk, hend⟩
      · by_cases hawaited : (c.poll T r s n).Awaited T
        · by_cases hdecides : Decides (c.poll T r s n).outcome
          · exact .inr ⟨n, Nat.lt_succ_self n, hpassed, .inr ⟨hpassed, hawaited, hdecides⟩⟩
          · refine .inl fun i hi => ?_
            rcases Nat.lt_succ_iff_lt_or_eq.mp hi with hlt | rfl
            · exact hpassed i hlt
            · exact ⟨hawaited, hdecides⟩
        · exact .inr ⟨n, Nat.lt_succ_self n, hpassed, .inl hawaited⟩
      · exact .inr ⟨k, Nat.lt_succ_of_lt hk, hend⟩

theorem pollFrom_of_first {n : Nat} (hk : k < n) (h : c.FirstToDecide T r s k) :
    c.pollFrom T r 0 n s = (some (c.poll T r s k).outcome, (c.poll T r s k).after) := by
  obtain ⟨left, rfl⟩ : ∃ left, n = k + (left + 1) := ⟨n - k - 1, by omega⟩
  rw [pollFrom_of_passed _ h.passed]
  exact pollFrom_of_decides left h.awaited h.decides

theorem exists_first_of_pollFrom {n : Nat} {outcome : Except LoadError Job}
    (h : c.pollFrom T r 0 n s = (some outcome, s')) : ∃ k < n, c.FirstToDecide T r s k := by
  rcases c.passed_or_exists_end T r s n with hpassed | ⟨k, hk, hpassed, habandoned | hfirst⟩
  · have hrun := pollFrom_of_passed 0 hpassed
    rw [Nat.add_zero, h] at hrun
    cases hrun
  · obtain ⟨left, rfl⟩ : ∃ left, n = k + (left + 1) := ⟨n - k - 1, by omega⟩
    have hnone := pollFrom_of_abandoned left habandoned
    rw [← pollFrom_of_passed _ hpassed, h] at hnone
    cases hnone
  · exact ⟨k, hk, hfirst⟩

theorem pollFrom_eq_some_iff {n : Nat} {outcome : Except LoadError Job} :
    c.pollFrom T r 0 n s = (some outcome, s') ↔
      ∃ k < n, c.FirstToDecide T r s k ∧ (c.poll T r s k).outcome = outcome ∧
        (c.poll T r s k).after = s' := by
  constructor
  · intro h
    obtain ⟨k, hk, hfirst⟩ := exists_first_of_pollFrom h
    rw [pollFrom_of_first hk hfirst] at h
    injection h with houtcome hafter
    exact ⟨k, hk, hfirst, Option.some.inj houtcome, hafter⟩
  · rintro ⟨k, hk, hfirst, rfl, rfl⟩
    exact pollFrom_of_first hk hfirst

/-! ### What the polls put on the record -/

section Recorded

variable {U : Transport τ} {view : τ → σ}

theorem pollAt_over (h : U.Over T view) (c : Client) (r : JobReference) (k : Nat)
    (s : Connection τ) :
    (c.pollAt T r k (s.through view)).outcome = (c.pollAt U r k s).outcome ∧
      (c.pollAt T r k (s.through view)).after = (c.pollAt U r k s).after.through view := by
  simp only [pollAt]
  rw [← Connection.through_mapWorld (h.pause (c.pollWait k)), getJob_over h]
  exact ⟨rfl, rfl⟩

theorem pollFront_over (h : U.Over T view) (c : Client) (r : JobReference)
    (s : Connection τ) (k : Nat) :
    c.pollFront T r (s.through view) k = (c.pollFront U r s k).through view := by
  induction k with
  | zero => rfl
  | succ k ih =>
      obtain ⟨houtcome, hafter⟩ := pollAt_over h c r k (c.pollFront U r s k)
      rw [pollFront, pollFront, ih, Poll.passed, Poll.passed, houtcome, hafter]
      cases (c.pollAt U r k (c.pollFront U r s k)).outcome with
      | ok job => rfl
      | error e => exact (Connection.through_mapWorld (h.log _ _) _).symm

theorem poll_recorded (c : Client) (T : Transport σ) (r : JobReference) (s : Connection σ)
    (k : Nat) :
    (c.poll T.recorded r s.recording k).outcome = (c.poll T r s k).outcome ∧
      (c.poll T.recorded r s.recording k).after.through Prod.fst =
      (c.poll T r s k).after := by
  have hfront := pollFront_over T.recorded_over c r s.recording k
  obtain ⟨houtcome, hafter⟩ :=
    pollAt_over T.recorded_over c r k (c.pollFront T.recorded r s.recording k)
  rw [← hfront] at houtcome hafter
  exact ⟨houtcome.symm, hafter.symm⟩

variable {record : τ → List (Entry σ)} {s : Connection τ}

/-- A poll asks for the job and for nothing else. -/
theorem poll_logged (h : Logs U record) (c : Client) (r : JobReference) (s : Connection τ)
    (k : Nat) :
    ∃ made, record (c.poll U r s k).after.world =
      record (c.pollFront U r s k).world ++ made ∧
      ∀ e ∈ made, c.http.Attempts (jobRequest r.project r.jobId r.location) e := by
  obtain ⟨made, hmade, hattempts, -⟩ := getJob_logged h c r.project r.jobId r.location
    ((c.pollFront U r s k).mapWorld (U.pause (c.pollWait k)))
  have hpaused : record ((c.pollFront U r s k).mapWorld (U.pause (c.pollWait k))).world =
      record (c.pollFront U r s k).world := h.pause _ _
  rw [hpaused] at hmade
  exact ⟨made, hmade, hattempts⟩

theorem record_passed (h : Logs U record) (r : JobReference) (p : Poll τ) :
    record (p.passed U r).world = record p.after.world := by
  rw [Poll.passed]
  cases p.outcome with
  | ok job => rfl
  | error e => exact h.log _ _ _

theorem polls_logged (h : Logs U record) (c : Client) (r : JobReference)
    (s : Connection τ) :
    ∃ made : Nat → List (Entry σ),
      (∀ k, ∀ e ∈ made k, c.http.Attempts (jobRequest r.project r.jobId r.location) e) ∧
      ∀ k, record (c.poll U r s k).after.world =
        record s.world ++ (List.range (k + 1)).flatMap made := by
  choose made hmade hattempts using poll_logged h c r s
  have hfront (k : Nat) : record (c.pollFront U r s k).world =
      record s.world ++ (List.range k).flatMap made := by
    induction k with
    | zero => exact (List.append_nil _).symm
    | succ k ih =>
        have hstep : record (c.pollFront U r s (k + 1)).world =
            record (c.poll U r s k).after.world := record_passed h r _
        rw [hstep, hmade, ih, List.range_succ, List.flatMap_append, List.flatMap_singleton,
          List.append_assoc]
  refine ⟨made, hattempts, fun k => ?_⟩
  rw [hmade, hfront, List.range_succ, List.flatMap_append, List.flatMap_singleton,
    List.append_assoc]

end Recorded

/-! ### Waiting for a job -/

theorem waitFor_of_done {job : Job} (h : job.status.state = "DONE") :
    c.waitFor T job s = (some (.ok job), s) := by
  rw [waitFor, if_pos (Job.isDone_iff.mpr h)]

theorem waitFor_of_nameless {job : Job} (h : job.status.state ≠ "DONE")
    (hid : job.reference.jobId = "") :
    c.waitFor T job s = (some (.error (.warehouse "job has no id to poll")), s) := by
  have hempty : job.id.isEmpty = true := String.isEmpty_iff.mpr hid
  rw [waitFor, if_neg (mt Job.isDone_iff.mp h), if_pos hempty]

theorem waitFor_of_named {job : Job} {outcome : Except LoadError Job}
    (h : job.status.state ≠ "DONE") (hid : job.reference.jobId ≠ "") :
    c.waitFor T job s = (some outcome, s') ↔
      ∃ k < UInt32.size, c.FirstToDecide T job.reference s k ∧
        (c.poll T job.reference s k).outcome = outcome ∧
        (c.poll T job.reference s k).after = s' := by
  have hnamed : ¬ job.id.isEmpty = true := fun hempty => hid (String.isEmpty_iff.mp hempty)
  rw [waitFor, if_neg (mt Job.isDone_iff.mp h), if_neg hnamed]
  exact pollFrom_eq_some_iff

theorem isDone_of_waitFor {job final : Job}
    (h : c.waitFor T job s = (some (.ok final), s')) : final.status.state = "DONE" := by
  by_cases hdone : job.status.state = "DONE"
  · rw [waitFor_of_done hdone] at h
    cases h
    exact hdone
  · by_cases hid : job.reference.jobId = ""
    · rw [waitFor_of_nameless hdone hid] at h
      cases h
    · obtain ⟨k, -, hfirst, houtcome, -⟩ := (waitFor_of_named hdone hid).mp h
      have hdecides := hfirst.decides
      rw [houtcome] at hdecides
      exact Job.isDone_iff.mp (decides_ok_iff.mp hdecides)

/-- The question for a job as it is on the wire: the path has the job's own
project and id in it, the query its location if it has one, and there is no
body. -/
structure AsksForJob (c : Client) (r : JobReference) (wire : WireRequest) : Prop where
  method : wire.method = "GET"
  url : ∃ u, Url.parse (joinUrl c.http.config.baseUrl
        s!"/bigquery/v2/projects/{r.project}/jobs/{r.jobId}") = .ok u ∧
      wire.url = u.withQuery (r.location.toList.map ("location", ·))
  body : wire.body = []

theorem jobRequest_eq (project jobId : String) (location : Option String) :
    jobRequest project jobId location =
      { Request.new "GET" (jobPath project jobId) with
        query := location.toList.map ("location", ·) } := by
  cases location <;> rfl

theorem asksForJob_of_carries {wire : WireRequest}
    (h : c.http.Carries (jobRequest r.project r.jobId r.location) wire) :
    c.AsksForJob r wire := by
  rw [jobRequest_eq] at h
  exact ⟨h.method, h.url, h.body⟩

/-- What was exchanged for a request is a request for a token or carries the
request. -/
theorem carries_of_attempts {request : Request} {e : Entry σ}
    (h : c.http.Attempts request e) :
    TokenRequest e.request ∨ c.http.Carries request e.request := by
  rcases h with htoken | ⟨authorization, hwire⟩
  · exact .inl htoken
  · exact .inr (HttpClient.carries_of_wireOf? hwire)

/-- What waiting for a job does, whatever the server does. A job that is done is
given back, and one that has no name is refused, and neither takes a request.
For any other the wait has a result exactly if one of the first 2 ^ 32 polls
decides while somebody waits; the first such poll is the last one, and the
result is what it brought. So a job that comes of it is done. The exchanges of
poll `k` are `made k`: each asks for the submitted job by its own names, or for
a token, and the record holds those of the polls up to the deciding one and no
other. What asks for the job is a GET of its project and id at its location. -/
theorem waitFor_polls (c : Client) (T : Transport σ) (job : Job) (s : Connection σ) :
    (job.status.state = "DONE" → c.waitFor T job s = (some (.ok job), s)) ∧
    (job.status.state ≠ "DONE" → job.reference.jobId = "" →
      c.waitFor T job s = (some (.error (.warehouse "job has no id to poll")), s)) ∧
    (job.status.state ≠ "DONE" → job.reference.jobId ≠ "" → ∀ outcome s',
      c.waitFor T job s = (some outcome, s') ↔
        ∃ k < UInt32.size, c.FirstToDecide T job.reference s k ∧
          (c.poll T job.reference s k).outcome = outcome ∧
          (c.poll T job.reference s k).after = s') ∧
    (∀ final s', c.waitFor T job s = (some (.ok final), s') → final.status.state = "DONE") ∧
    ∃ made : Nat → List (Entry σ), ∀ k,
      (c.poll T.recorded job.reference s.recording k).outcome =
        (c.poll T job.reference s k).outcome ∧
      (c.poll T.recorded job.reference s.recording k).after.through Prod.fst =
        (c.poll T job.reference s k).after ∧
      (c.poll T.recorded job.reference s.recording k).after.world.2 =
        (List.range (k + 1)).flatMap made ∧
      ∀ e ∈ made k, TokenRequest e.request ∨
        c.http.Carries (jobRequest job.reference.project job.reference.jobId
          job.reference.location) e.request ∧
        c.AsksForJob job.reference e.request := by
  refine ⟨waitFor_of_done, waitFor_of_nameless, fun h hid _ _ => waitFor_of_named h hid,
    fun final s' hwait => isDone_of_waitFor hwait, ?_⟩
  obtain ⟨made, hattempts, hrecord⟩ :=
    polls_logged (recorded_logs T) c job.reference s.recording
  refine ⟨made, fun k => ?_⟩
  obtain ⟨houtcome, hafter⟩ := c.poll_recorded T job.reference s k
  refine ⟨houtcome, hafter, hrecord k, fun e he => ?_⟩
  rcases carries_of_attempts (hattempts k e he) with htoken | hcarries
  · exact .inl htoken
  · exact .inr ⟨hcarries, asksForJob_of_carries hcarries⟩

/-! ### A wait of three polls -/

/-- The server that answers as the script says for the number of the exchange, in
a world that keeps the waits. -/
def pausing (script : Nat → Exchange) : Transport (Nat × List Nat) where
  exchange _ _ w := (script w.1, (w.1 + 1, w.2))
  pause milliseconds w := (w.1, w.2 ++ [milliseconds])
  now _ := 0
  log _ _ w := w
  newJobId w := ("", w)
  sign _ _ := []
  halt w := w
  isOver _ := false

theorem awaited_pausing (script : Nat → Exchange) (p : Poll (Nat × List Nat)) :
    p.Awaited (pausing script) := ⟨rfl, rfl⟩

/-- The job is running, the server is not there, the job is done. -/
def finishing : Nat → Exchange
  | 0 =>
    .answered ⟨200, [], some (Text.utf8 "\x7b\"status\":\x7b\"state\":\"RUNNING\"\x7d\x7d")⟩
  | 1 => .answered ⟨503, [], some []⟩
  | 2 =>
    .answered ⟨200, [], some (Text.utf8 "\x7b\"status\":\x7b\"state\":\"DONE\"\x7d\x7d")⟩
  | _ => .refused

/-- No retries of a request; the first wait takes 5 ms and none more than 12. -/
def patient : Client :=
  ⟨⟨{ HttpConfig.standard with baseUrl := some "http://localhost", maxRetries := 0 }, none⟩,
    ⟨1, 5, 12⟩⟩

def submitted : Job := { Job.empty with reference := ⟨"acme", "j", some "EU"⟩ }

/-- The second wait is twice the first, and the third is the longest there is. -/
theorem waitFor_polls_thrice :
    submitted.status.state ≠ "DONE" ∧ submitted.reference.jobId ≠ "" ∧
      patient.waitFor (pausing finishing) submitted ⟨(0, []), none⟩ =
        (some (.ok { Job.empty with status := ⟨"DONE", none⟩ }),
          ⟨(3, [5, 10, 12]), none⟩) := by
  have hfirst : (patient.poll (pausing finishing) submitted.reference
    ⟨(0, []), none⟩ 0).outcome =
      .ok { Job.empty with status := ⟨"RUNNING", none⟩ } := by decide +kernel
  have hsecond : (patient.poll (pausing finishing) submitted.reference
    ⟨(0, []), none⟩ 1).outcome =
      .error (.httpStatus 503 "") := by decide +kernel
  have hthird : (patient.poll (pausing finishing) submitted.reference
    ⟨(0, []), none⟩ 2).outcome =
        .ok { Job.empty with status := ⟨"DONE", none⟩ } ∧
      (patient.poll (pausing finishing) submitted.reference ⟨(0, []), none⟩ 2).after =
        ⟨(3, [5, 10, 12]), none⟩ := by decide +kernel
  have hpassed : patient.Passed (pausing finishing) submitted.reference
      ⟨(0, []), none⟩ 2 := by
    intro i hi
    refine ⟨awaited_pausing _ _, ?_⟩
    obtain rfl | rfl : i = 0 ∨ i = 1 := by omega
    · rw [hfirst, decides_ok_iff]
      decide
    · rw [hsecond, decides_error_iff]
      decide
  have hdecides :
      Decides (patient.poll (pausing finishing) submitted.reference
        ⟨(0, []), none⟩ 2).outcome := by
    rw [hthird.1]
    exact .done rfl
  obtain ⟨-, -, hpolled, -⟩ :=
    waitFor_polls patient (pausing finishing) submitted ⟨(0, []), none⟩
  have hnamed : submitted.status.state ≠ "DONE" ∧ submitted.reference.jobId ≠ "" := by
    decide
  refine ⟨hnamed.1, hnamed.2, (hpolled hnamed.1 hnamed.2 _ _).mpr ?_⟩
  exact ⟨2, by decide, ⟨hpassed, awaited_pausing _ _, hdecides⟩, hthird⟩

end Client

end WarehouseLoader.Warehouse
