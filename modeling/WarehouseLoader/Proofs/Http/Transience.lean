import WarehouseLoader.Proofs.Auth.TokenCache
import WarehouseLoader.Proofs.Http.Retries
import WarehouseLoader.Warehouse.Client

/-!
# Which failures may pass

Two places say that a failure may pass by itself. A request makes another trial
after some endings (`Ending.Passes`), and an error says of itself whether it is
retryable, which is what the poll of a job and the upload of a chunk ask. The
second covers the first, and more: three kinds of ending are given up at once
although their error counts as passing (`Ending.Forsaken`), namely a request
that cannot be put together, a connection that broke, and a token exchange that
the transport failed. There is no fourth (`isRetryable_iff`).

So a retryable error does not say that the retries are spent. It does in a run
exactly if the last trial was not forsaken before the last retry
(`spendsRetries_iff`), and it does in every run only for a client that has no
retries to spend.
-/

namespace WarehouseLoader.Auth

open Http

variable {σ : Type} {T : Transport σ} {userAgent : Option String} {timeout : Option Nat}

/-- An error that the transport is to blame for, if it is one to try again
after. -/
def BlamesTransport (e : LoadError) : Prop :=
  e.isRetryable = true → ∃ fault, e = .transport fault

theorem blamesTransport_issued {token : String} {seconds : Option Int} {now : Int}
    {e : LoadError} (h : CachedToken.issued token seconds now = .error e) :
    BlamesTransport e := by
  intro hretry
  cases seconds with
  | none => cases h
  | some n =>
      simp only [CachedToken.issued] at h
      split at h
      · cases h
      · cases h
        cases hretry

theorem blamesTransport_tokenOfAnswer {asking : String} {r : Response} {now : Int}
    {e : LoadError} (h : tokenOfAnswer asking r now = .error e) : BlamesTransport e := by
  rw [tokenOfAnswer] at h
  split at h
  · split at h
    · exact blamesTransport_issued h
    · next hread =>
        cases h
        rw [Response.read] at hread
        split at hread <;> cases hread
        exact fun _ => ⟨_, rfl⟩
  · cases h
    intro hretry
    cases hretry

theorem blamesTransport_askForToken {request : Option WireRequest} {asking : String}
    {lost : TransportFault → LoadError} {w w' : σ} {e : LoadError}
    (hlost : ∀ fault, BlamesTransport (lost fault))
    (h : askForToken T request timeout asking lost w = (.error e, w')) :
    BlamesTransport e := by
  cases request with
  | none =>
      cases h
      exact hlost _
  | some wire =>
      simp only [askForToken] at h
      split at h <;> injection h with h
      · exact blamesTransport_tokenOfAnswer h
      all_goals
        cases h
        exact hlost _

theorem blamesTransport_assertion {key : ServiceAccountKey} {scopes : List String}
    {lifetime : Nat} {now : Int} {e : LoadError}
    (h : Assertion.of key scopes lifetime now = .error e) : BlamesTransport e := by
  intro hretry
  rw [Assertion.of] at h
  split at h
  · next hclaims =>
      rw [Claims.of, map_eq_error_iff, expiry] at hclaims
      split at hclaims <;> cases hclaims
      cases h
      cases hretry
  · split at h
    · cases h
      cases hretry
    · split at h <;> cases h
      cases hretry

theorem blamesTransport_fetchToken {credentials : Credentials} {w w' : σ} {e : LoadError}
    (h : fetchToken T credentials userAgent timeout w = (.error e, w')) :
    BlamesTransport e := by
  cases credentials with
  | none | bearer token =>
      cases h
      intro hretry
      cases hretry
  | metadataServer url =>
      rw [fetchToken] at h
      refine blamesTransport_askForToken (fun fault hretry => ?_) h
      cases hretry
  | serviceAccount key scopes lifetime =>
      rw [fetchToken] at h
      split at h
      · next hassertion =>
          cases h
          exact blamesTransport_assertion hassertion
      · exact blamesTransport_askForToken (fun fault _ => ⟨fault, rfl⟩) h

theorem blamesTransport_authorization {credentials : Credentials} {s s' : Connection σ}
    {e : LoadError} (h : authorization T credentials userAgent timeout s = (.error e, s')) :
    BlamesTransport e := by
  cases credentials with
  | none | bearer token => cases h
  | serviceAccount key scopes lifetime | metadataServer url =>
      simp only [authorization, usableToken] at h
      cases hkept : keptToken? T s with
      | some token =>
          rw [hkept] at h
          cases h
      | none =>
          rw [hkept] at h
          simp only [] at h
          split at h
          · cases h
          · next hfetch =>
              split at hfetch
              · cases hfetch
              · next hfailed =>
                  cases hfetch
                  cases h
                  exact blamesTransport_fetchToken hfailed

/-- With a token that does not end, nothing has to be asked for. -/
theorem authorization_of_endless (T : Transport σ) (credentials : Credentials)
    (userAgent : Option String) (timeout : Option Nat) {s : Connection σ} {token : String}
    (h : s.token = some ⟨token, none⟩) :
    ∃ value, authorization T credentials userAgent timeout s = (.ok value, s) := by
  cases credentials with
  | none | bearer token => exact ⟨_, rfl⟩
  | serviceAccount key scopes lifetime | metadataServer url =>
      have hkept : keptToken? T s = some token :=
        keptToken?_eq_some_iff.mpr ⟨_, h, rfl, rfl⟩
      refine ⟨some (bearer token), ?_⟩
      simp only [authorization, usableToken, hkept]

end WarehouseLoader.Auth

namespace WarehouseLoader.Http

open Auth

/-- The error counts as passing, and yet no other trial follows. -/
def Ending.Forsaken : Ending → Prop
  | unauthorized e => ∃ fault, e = .transport fault
  | unbuilt | sent _ .broken => True
  | sent _ (.answered _) | sent _ .timedOut | sent _ .refused => False

theorem Ending.Forsaken.outcome {ending : Ending} (h : ending.Forsaken) (timeout : Nat) :
    ∃ fault, ending.outcome timeout = .error (.transport fault) := by
  cases ending with
  | unbuilt => exact ⟨_, rfl⟩
  | unauthorized e =>
      obtain ⟨fault, rfl⟩ := h
      exact ⟨fault, rfl⟩
  | sent wire x =>
      cases x with
      | answered a | timedOut | refused => exact False.elim h
      | broken => exact ⟨_, rfl⟩

namespace HttpClient

variable {σ : Type} {c : HttpClient} {T : Transport σ} {r : Request} {s s' : Connection σ}

theorem blamesTransport_authorize {e : LoadError} (h : c.authorize T s = (.error e, s')) :
    BlamesTransport e := by
  rw [authorize] at h
  split at h
  · cases h
  · split at h
    · cases h
    · next hfailed =>
        cases h
        exact blamesTransport_authorization hfailed

/-- The two places that judge a failure, side by side. -/
theorem isRetryable_iff {ending : Ending} {e : LoadError} (h : c.Ends T r s ending s')
    (hfailed : ending.outcome (c.timeoutOf r) = .error e) :
    e.isRetryable = true ↔ ending.Passes ∨ ending.Forsaken := by
  cases h with
  | unauthorized hauth =>
      cases hfailed
      refine ⟨fun hretry => .inr (blamesTransport_authorize hauth hretry), ?_⟩
      rintro (hpasses | ⟨fault, rfl⟩)
      · exact False.elim hpasses
      · rfl
  | unbuilt hauth hwire =>
      cases hfailed
      exact ⟨fun _ => .inr trivial, fun _ => rfl⟩
  | @sent _ _ wire x w hauth hwire hexchange =>
      cases x with
      | timedOut | refused =>
          cases hfailed
          exact ⟨fun _ => .inl trivial, fun _ => rfl⟩
      | broken =>
          cases hfailed
          exact ⟨fun _ => .inr trivial, fun _ => rfl⟩
      | answered a =>
          have hkind : e.isRetryable = true ↔ a.status ∈ [429, 500, 502, 503, 504] := by
            simp only [Ending.outcome] at hfailed
            split at hfailed
            · next hlimited =>
                cases hfailed
                exact ⟨fun _ => by simp [hlimited], fun _ => rfl⟩
            · split at hfailed <;> cases hfailed
              exact isTransientStatus_iff
          exact hkind.trans ⟨.inl, fun h => h.elim id False.elim⟩

theorem Trials.length_eq {trials : List (Trial σ)} {last : Trial σ}
    (h : c.Trials T r 0 s trials last) : trials.length = last.number + 1 := by
  obtain ⟨past, rfl⟩ := List.getLast?_eq_some_iff.mp h.stops
  have hnumbers := congrArg List.getLast? h.numbers.1
  rw [List.map_append, List.map_singleton, List.getLast?_concat, List.length_append,
    List.length_singleton, List.range_succ, List.getLast?_concat] at hnumbers
  rw [List.length_append, List.length_singleton, Option.some.inj hnumbers]

/-- A request that fails, and says that the failure may pass, has used up its
retries, unless nobody waits for it any more. -/
def SpendsRetries (c : HttpClient) (T : Transport σ) (r : Request) (s : Connection σ) :
    Prop :=
  ∀ trials last e, c.Trials T r 0 s trials last → T.isOver last.after.world = false →
    (c.request T r s).1 = .error e → e.isRetryable = true →
      trials.length = c.retriesOf r + 1

theorem Trials.spends_iff {trials : List (Trial σ)} {last : Trial σ}
    (h : c.Trials T r 0 s trials last) :
    c.SpendsRetries T r s ↔
      (T.isOver last.after.world = false → last.ending.Forsaken →
        last.number = c.retriesOf r) := by
  have hlength := h.length_eq
  constructor
  · intro hspends hawaited hforsaken
    obtain ⟨fault, hfailed⟩ := hforsaken.outcome (c.timeoutOf r)
    have := hspends trials last _ h hawaited (by rw [h.request_eq, hfailed]) rfl
    omega
  · intro hlast trials' last' e h' hawaited hfailed hretry
    obtain rfl := h'.unique h
    obtain rfl : last' = last := Option.some.inj (h'.stops.symm.trans h.stops)
    rw [h.request_eq] at hfailed
    have hspent : last'.number = c.retriesOf r := by
      obtain hpasses | hforsaken := (isRetryable_iff h.last_ends hfailed).mp hretry
      · obtain hsettled | hspent | hover := h.final
        · exact absurd hpasses hsettled
        · exact hspent
        · rw [hawaited] at hover
          cases hover
      · exact hlast hawaited hforsaken
    omega

/-- A world in which every connection breaks. -/
def breaking : Transport Unit where
  exchange _ _ w := (.broken, w)
  pause _ w := w
  now _ := 0
  log _ _ w := w
  newJobId w := ("", w)
  sign _ _ := []
  halt w := w
  isOver _ := false

/-- With a token for good, a request comes to one trial there. -/
theorem trials_breaking (c : HttpClient) (r : Request) :
    ∃ t, c.Trials breaking r 0 ⟨(), some ⟨"", none⟩⟩ [t] t ∧ t.ending.Forsaken ∧
      t.number = 0 := by
  obtain ⟨value, hauth⟩ : ∃ value, c.authorize breaking ⟨(), some ⟨"", none⟩⟩ =
      (.ok value, ⟨(), some ⟨"", none⟩⟩) := by
    rw [authorize]
    cases c.credentials with
    | none => exact ⟨_, rfl⟩
    | some credentials =>
        obtain ⟨value, hvalue⟩ := authorization_of_endless breaking credentials
          (some c.config.userAgent) (some c.config.timeout) (s := ⟨(), some ⟨"", none⟩⟩) rfl
        exact ⟨value, by simp only [hvalue]⟩
  cases hwire : c.wireOf? r value with
  | none => exact ⟨_, trials_of_final (.unbuilt hauth hwire) (.inl id), trivial, rfl⟩
  | some wire => exact ⟨_, trials_of_final (.sent hauth hwire rfl) (.inl id), trivial, rfl⟩

/-- Whether a retryable error says that the retries are spent. For one run: it
does unless the last trial was forsaken with retries left. For a client and a
request, whatever the server does: only if there are no retries. -/
theorem spendsRetries_iff (c : HttpClient) (r : Request) :
    (∀ (σ : Type) (T : Transport σ) (s : Connection σ), ∃ trials last,
      c.Trials T r 0 s trials last ∧
      c.request T r s = (last.ending.outcome (c.timeoutOf r), last.after) ∧
      (∀ e, (c.request T r s).1 = .error e →
        (e.isRetryable = true ↔ last.ending.Passes ∨ last.ending.Forsaken)) ∧
      (c.SpendsRetries T r s ↔
        (T.isOver last.after.world = false → last.ending.Forsaken →
          last.number = c.retriesOf r))) ∧
    ((∀ (σ : Type) (T : Transport σ) (s : Connection σ), c.SpendsRetries T r s) ↔
      c.retriesOf r = 0) := by
  refine ⟨fun σ T s => ?_, fun h => ?_, fun h σ T s trials last e htrials _ _ _ => ?_⟩
  · obtain ⟨trials, last, htrials, hrun⟩ :=
      c.exists_trials T r 0 (c.retriesOf r) s (Nat.zero_add _)
    refine ⟨trials, last, htrials, hrun, fun e hfailed => ?_, htrials.spends_iff⟩
    rw [htrials.request_eq] at hfailed
    exact isRetryable_iff htrials.last_ends hfailed
  · obtain ⟨t, htrials, hforsaken, hnumber⟩ := c.trials_breaking r
    have hspent := htrials.spends_iff.mp (h _ _ _) rfl hforsaken
    omega
  · have hlimit := htrials.numbers.2
    have hlength := htrials.length_eq
    omega

/-- A URL that is none is refused at once, with an error that says to try
again. -/
theorem not_spendsRetries_unbuilt :
    ¬ SpendsRetries ⟨{ HttpConfig.standard with maxRetries := 2 }, none⟩ breaking
      (Request.new "GET" "/x") ⟨(), none⟩ := by
  intro hspends
  have hends : Ends ⟨{ HttpConfig.standard with maxRetries := 2 }, none⟩ breaking
      (Request.new "GET" "/x") ⟨(), none⟩ .unbuilt ⟨(), none⟩ := .unbuilt rfl rfl
  have hlength : 1 = 3 := hspends _ _ _ (trials_of_final hends (.inl id)) rfl rfl rfl
  cases hlength

end HttpClient

end WarehouseLoader.Http

namespace WarehouseLoader.Warehouse.Client

open Auth Http

variable {σ : Type} {c : Client} {T : Transport σ} {job : JobReference} {s : Connection σ}

/-- A poll whose request was forsaken is made again, as long as somebody
waits. -/
theorem pollFrom_of_forsaken {trials : List (Trial σ)} {last : Trial σ} (done left : Nat)
    (htrials : c.http.Trials T (jobRequest job.project job.jobId job.location) 0
      (s.mapWorld (T.pause (c.pollDelay done))) trials last)
    (hforsaken : last.ending.Forsaken) :
    ∃ e, last.ending.outcome
        (c.http.timeoutOf (jobRequest job.project job.jobId job.location)) = .error e ∧
      c.pollFrom T job done (left + 1) s =
        if T.isOver (T.pause (c.pollDelay done) s.world) then
          (none, s.mapWorld (T.pause (c.pollDelay done)))
        else if T.isOver last.after.world then (none, last.after)
        else c.pollFrom T job (done + 1) left (last.after.mapWorld (T.log .warn
          s!"Polling job {job.jobId} failed, will retry: {e.message}")) := by
  obtain ⟨fault, hfailed⟩ := hforsaken.outcome
    (c.http.timeoutOf (jobRequest job.project job.jobId job.location))
  have hrun := htrials.request_eq
  rw [hfailed] at hrun
  refine ⟨.transport fault, hfailed, ?_⟩
  simp only [pollFrom, getJob, HttpClient.requestRead, hrun]
  rfl

/-- If every request for a job is forsaken, no number of polls decides. -/
theorem pollFrom_of_always_forsaken
    (h : ∀ s trials last, c.http.Trials T
      (jobRequest job.project job.jobId job.location) 0 s
      trials last → last.ending.Forsaken) (done left : Nat) (s : Connection σ) :
    (c.pollFrom T job done left s).1 = none := by
  induction left generalizing done s with
  | zero => rfl
  | succ left ih =>
      obtain ⟨trials, last, htrials, -⟩ := c.http.exists_trials T
        (jobRequest job.project job.jobId job.location) 0 _
        (s.mapWorld (T.pause (c.pollDelay done))) (Nat.zero_add _)
      obtain ⟨e, -, hpoll⟩ := pollFrom_of_forsaken done left htrials (h _ _ _ htrials)
      rw [hpoll]
      split
      · rfl
      · split
        · rfl
        · exact ih _ _

end WarehouseLoader.Warehouse.Client
