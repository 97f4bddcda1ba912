import WarehouseLoader.Proofs.Http.Deadline
import WarehouseLoader.Proofs.Upload.Answers
import WarehouseLoader.Warehouse.Client

/-!
# What the client has to hear

Opening a channel goes well on an answer that says where the session is, and
waiting for a job goes well on an answer that says the job is done, unless it
was done from the start. In between a poll may fail, or tell of a job that is
not done, and is made again; all of the polls are the same request, so
the exchanges of the whole wait are those of one request that was answered at
last (`pollFrom_logged`). The time that is waited is bounded by a deadline over
the transport, and the deadline changes nothing about that.

The first half says once more that a recorded run is the run.
-/

namespace WarehouseLoader.Warehouse.Client

open Auth Http Upload

variable {σ τ : Type} {U : Transport τ} {c : Client}

section Over

variable {T : Transport σ} {view : τ → σ}

theorem openChannel_over (h : U.Over T view) (c : Client) (config : LoadConfiguration)
    (s : Connection τ) :
    c.openChannel T config (s.through view) =
      ((c.openChannel U config s).1, (c.openChannel U config s).2.through view) := by
  have hnew : T.newJobId (s.through view).world =
      ((U.newJobId s.world).1, view (U.newJobId s.world).2) := h.newJobId s.world
  have hrequest := HttpClient.request_over h c.http
    (startRequest config (U.newJobId s.world).1) { s with world := (U.newJobId s.world).2 }
  rw [openChannel, openChannel, startUpload, startUpload, hnew]
  simp only []
  rw [show ({ s.through view with world := view (U.newJobId s.world).2 } : Connection σ) =
    Connection.through { s with world := (U.newJobId s.world).2 } view from rfl, hrequest]
  cases c.http.request U (startRequest config (U.newJobId s.world).1)
      { s with world := (U.newJobId s.world).2 } with
  | mk outcome s₁ =>
      cases outcome with
      | error e => rfl
      | ok a =>
          simp only []
          cases a.header? "location" <;> rfl

theorem getJob_over (h : U.Over T view) (c : Client) (project jobId : String)
    (location : Option String) (s : Connection τ) :
    c.getJob T project jobId location (s.through view) =
      ((c.getJob U project jobId location s).1,
        (c.getJob U project jobId location s).2.through view) := by
  rw [getJob, getJob, HttpClient.requestRead, HttpClient.requestRead,
    HttpClient.request_over h]
  cases c.http.request U (jobRequest project jobId location) s with
  | mk outcome s₁ => cases outcome <;> rfl

theorem pollFrom_over (h : U.Over T view) (c : Client) (r : JobReference) (done left : Nat)
    (s : Connection τ) :
    c.pollFrom T r done left (s.through view) =
      ((c.pollFrom U r done left s).1, (c.pollFrom U r done left s).2.through view) := by
  induction left generalizing done s with
  | zero => rfl
  | succ left ih =>
      have hover : ∀ s : Connection τ, T.isOver (s.through view).world = U.isOver s.world :=
        fun s => h.isOver s.world
      rw [pollFrom, pollFrom]
      simp only [← Connection.through_mapWorld (h.pause (c.pollDelay done)), hover]
      split
      · rfl
      · rw [getJob_over h]
        cases c.getJob U r.project r.jobId r.location
          (s.mapWorld (U.pause (c.pollDelay done))) with
        | mk outcome s₁ =>
            cases outcome with
            | ok job =>
                simp only [hover]
                split
                · rfl
                · split
                  · rfl
                  · exact ih _ _
            | error e =>
                simp only [hover]
                split
                · rfl
                · split
                  · rw [← Connection.through_mapWorld (h.log _ _)]
                    exact ih _ _
                  · rfl

theorem waitFor_over (h : U.Over T view) (c : Client) (job : Job) (s : Connection τ) :
    c.waitFor T job (s.through view) =
      ((c.waitFor U job s).1, (c.waitFor U job s).2.through view) := by
  rw [waitFor, waitFor]
  split
  · rfl
  · split
    · rfl
    · exact pollFrom_over h c _ _ _ s

theorem waitWithin_over (h : U.Over T view) (c : Client) (job : Job) (seconds : Nat)
    (s : Connection τ) :
    c.waitWithin T job seconds (s.through view) =
      ((c.waitWithin U job seconds s).1,
        (c.waitWithin U job seconds s).2.through view) := by
  have hnow : T.now (s.through view).world = U.now s.world := h.now s.world
  have hwait :=
    waitFor_over (Transport.before_over h (U.now s.world + seconds * 1000)) c job
    ⟨(s.world, false), s.token⟩
  rw [waitWithin, waitWithin, hnow]
  simp only []
  rw [show (⟨((s.through view).world, false), (s.through view).token⟩ :
    Connection (Transport.Limited σ)) = Connection.through ⟨(s.world, false), s.token⟩
      (fun w => (view w.1, w.2)) from rfl, hwait]
  rfl

end Over

section Logged

variable {record : τ → List (Entry σ)} {s s' : Connection τ}

/-- A channel is opened on the answer to a request that says where the session
is. -/
theorem openChannel_logged (h : Logs U record) {config : LoadConfiguration} {ch : Channel}
    (hopen : c.openChannel U config s = (.ok ch, s')) :
    ∃ jobId made a, record s'.world = record s.world ++ made ∧
      c.http.Answered (startRequest config jobId) made a ∧
      ∃ url, a.header? "location" = some url ∧ ch = .new url c.config.chunkSize := by
  rw [openChannel, startUpload] at hopen
  simp only [] at hopen
  obtain ⟨made, hmade, -, hanswered⟩ := c.http.request_logged h
    (startRequest config (U.newJobId s.world).1) { s with world := (U.newJobId s.world).2 }
  rw [h.newJobId] at hmade
  cases hr : c.http.request U (startRequest config (U.newJobId s.world).1)
      { s with world := (U.newJobId s.world).2 } with
  | mk outcome s₁ =>
      rw [hr] at hmade hanswered hopen
      cases outcome with
      | error e => cases hopen
      | ok a =>
          simp only [] at hopen
          cases hlocation : a.header? "location" with
          | none =>
              rw [hlocation] at hopen
              cases hopen
          | some url =>
              rw [hlocation] at hopen
              cases hopen
              exact ⟨_, made, a, hmade, hanswered a rfl, url, hlocation, rfl⟩

theorem getJob_logged (h : Logs U record) (c : Client) (project jobId : String)
    (location : Option String) (s : Connection τ) :
    ∃ made, record (c.getJob U project jobId location s).2.world = record s.world ++ made ∧
      (∀ e ∈ made, c.http.Attempts (jobRequest project jobId location) e) ∧
      ∀ job, (c.getJob U project jobId location s).1 = .ok job →
        ∃ a, c.http.Answered (jobRequest project jobId location) made a ∧
          a.read Job.read = .ok job := by
  obtain ⟨made, hmade, hattempts, hanswered⟩ :=
    c.http.request_logged h (jobRequest project jobId location) s
  rw [getJob, HttpClient.requestRead]
  cases hr : c.http.request U (jobRequest project jobId location) s with
  | mk outcome s₁ =>
      rw [hr] at hmade hanswered
      cases outcome with
      | error e => exact ⟨made, hmade, hattempts, fun job hok => by cases hok⟩
      | ok a => exact ⟨made, hmade, hattempts, fun job hok => ⟨a, hanswered a rfl, hok⟩⟩

/-- The exchanges are polls of a job, and the last of them brought an answer
that says the job is done. -/
def PolledTo (c : Client) (r : JobReference) (made : List (Entry σ)) (job : Job) : Prop :=
  job.isDone = true ∧ ∃ a, a.read Job.read = .ok job ∧
    c.http.Answered (jobRequest r.project r.jobId r.location) made a

theorem pollFrom_logged (h : Logs U record) {r : JobReference} {done left : Nat} {job : Job}
    (hpoll : c.pollFrom U r done left s = (some (.ok job), s')) :
    ∃ made, record s'.world = record s.world ++ made ∧ c.PolledTo r made job := by
  induction left generalizing done s with
  | zero => cases hpoll
  | succ left ih =>
      rw [pollFrom] at hpoll
      have hpaused : record (s.mapWorld (U.pause (c.pollDelay done))).world =
          record s.world :=
        h.pause _ _
      obtain ⟨made, hmade, hattempts, hanswered⟩ :=
        getJob_logged h c r.project r.jobId r.location
        (s.mapWorld (U.pause (c.pollDelay done)))
      rw [hpaused] at hmade
      -- A poll that decides nothing goes in front of those that follow.
      have hlater : ∀ {s₁ : Connection τ} {made' : List (Entry σ)},
          record s₁.world = record s.world ++ made →
          record s'.world = record s₁.world ++ made' → c.PolledTo r made' job →
          ∃ made, record s'.world = record s.world ++ made ∧ c.PolledTo r made job := by
        intro s₁ made' hbefore hafter hpolled
        obtain ⟨hdone, a, hread, hanswer⟩ := hpolled
        refine ⟨made ++ made', ?_, hdone, a, hread, hanswer.prepend hattempts⟩
        rw [hafter, hbefore, List.append_assoc]
      split at hpoll
      · cases hpoll
      · split at hpoll
        · next job' s₁ hget =>
            rw [hget] at hmade hanswered
            split at hpoll
            · cases hpoll
            · split at hpoll
              · next hdone =>
                  cases hpoll
                  obtain ⟨a, hanswer, hread⟩ := hanswered job rfl
                  exact ⟨made, hmade, hdone, a, hread, hanswer⟩
              · obtain ⟨made', hafter, hpolled⟩ := ih hpoll
                exact hlater hmade hafter hpolled
        · next e s₁ hget =>
            rw [hget] at hmade
            split at hpoll
            · cases hpoll
            · split at hpoll
              · obtain ⟨made', hafter, hpolled⟩ := ih hpoll
                exact hlater ((h.log _ _ _).trans hmade) hafter hpolled
              · cases hpoll

/-- Waiting gives a job that was done from the start, without a word, or one
that an answer says is done. -/
theorem waitFor_logged (h : Logs U record) {job final : Job}
    (hwait : c.waitFor U job s = (some (.ok final), s')) :
    ∃ made, record s'.world = record s.world ++ made ∧
      ((made = [] ∧ final = job ∧ job.isDone = true) ∨
        (job.isDone = false ∧ c.PolledTo job.reference made final)) := by
  rw [waitFor] at hwait
  split at hwait
  · next hdone =>
      cases hwait
      exact ⟨[], (List.append_nil _).symm, .inl ⟨rfl, rfl, hdone⟩⟩
  · next hdone =>
      split at hwait
      · cases hwait
      · obtain ⟨made, hmade, hpolled⟩ := pollFrom_logged h hwait
        exact ⟨made, hmade, .inr ⟨eq_false_of_ne_true hdone, hpolled⟩⟩

theorem waitWithin_logged (h : Logs U record) {job final : Job} {seconds : Nat}
    (hwait : c.waitWithin U job seconds s = (some (.ok final), s')) :
    ∃ made, record s'.world = record s.world ++ made ∧
      ((made = [] ∧ final = job ∧ job.isDone = true) ∨
        (job.isDone = false ∧ c.PolledTo job.reference made final)) := by
  rw [waitWithin] at hwait
  simp only [] at hwait
  cases hw : c.waitFor (U.before (U.now s.world + seconds * 1000)) job
      ⟨(s.world, false), s.token⟩ with
  | mk outcome s₁ =>
      rw [hw] at hwait
      cases hwait
      exact waitFor_logged (Transport.before_logs h _) hw

end Logged

end WarehouseLoader.Warehouse.Client
