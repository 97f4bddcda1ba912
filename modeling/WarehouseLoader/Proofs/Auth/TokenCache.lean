import Mathlib.Data.List.Induction
import WarehouseLoader.Proofs.Http.Record

/-!
# The token that is kept

Credentials that are exchanged for tokens are a small machine: a token or none,
and three things that happen to it. A request is authorized, the token is
cleared, and in between the world goes on, its clock with it. `Applied` has one
rule for each way the first can end, and one of them always applies
(`exists_applied`): the kept token is attached if it can still be used, and
otherwise one attempt is made to get a new one, which is kept and attached if
the endpoint gave it, and leaves everything as it was if not.

What is kept can therefore be traced back (`kept_of_afterCalls`): it is the
token that one of the calls received, and nothing was cleared since. No law
here asks anything of the clock. That a token without an end is used until it
is cleared is so however the clock behaves.
-/

namespace WarehouseLoader.Auth

open Http

variable {σ : Type} {T : Transport σ} {credentials : Credentials}
  {userAgent : Option String}
  {timeout : Option Nat}

/-- Whether these are exchanged for tokens. -/
def Credentials.asks : Credentials → Bool
  | .serviceAccount .. | .metadataServer _ => true
  | .none | .bearer _ => false

/-- No token is kept, or it ends within the margin. -/
def Stale (T : Transport σ) (s : Connection σ) : Prop :=
  ∀ t, s.token = some t → ∃ ending, t.expiresAt = some ending ∧
    ending ≤ T.now s.world + expiryMargin

theorem isExpired_iff {t : CachedToken} {now : Int} :
    t.isExpired now = true ↔
      ∃ ending, t.expiresAt = some ending ∧ ending ≤ now + expiryMargin := by
  rw [CachedToken.isExpired]
  cases t.expiresAt <;> simp

theorem keptToken?_eq_none_iff {s : Connection σ} : keptToken? T s = none ↔ Stale T s := by
  rw [keptToken?, Stale]
  cases s.token with
  | none => simp
  | some t =>
      simp only [Option.some.injEq, forall_eq', ← isExpired_iff]
      split <;> simp_all

theorem keptToken?_eq_some_iff {s : Connection σ} {token : String} :
    keptToken? T s = some token ↔
      ∃ t, s.token = some t ∧ t.isExpired (T.now s.world) = false ∧ t.token = token := by
  rw [keptToken?]
  cases s.token with
  | none => simp
  | some t =>
      simp only [Option.some.injEq, exists_eq_left']
      split <;> simp_all

theorem not_stale_iff {s : Connection σ} : ¬ Stale T s ↔
    ∃ t, s.token = some t ∧ keptToken? T s = some t.token := by
  rw [← keptToken?_eq_none_iff]
  constructor
  · intro h
    obtain ⟨token, htoken⟩ := Option.ne_none_iff_exists'.mp h
    obtain ⟨t, hkept, -, rfl⟩ := keptToken?_eq_some_iff.mp htoken
    exact ⟨t, hkept, htoken⟩
  · rintro ⟨t, -, htoken⟩ hnone
    rw [htoken] at hnone
    cases hnone

/-! ### Asking for a token -/

/-- The request for a token, if there is an assertion to send and it can be
sent. -/
def tokenRequest? (T : Transport σ) (userAgent : Option String) (now : Int) :
    Credentials → Option WireRequest
  | .serviceAccount key scopes lifetime =>
    match Assertion.of key scopes lifetime (now / 1000) with
    | .ok assertion =>
      (exchangeRequest key.tokenUri (assertion.text T.sign)).wire?
        key.tokenUri userAgent [] none
    | .error _ => none
  | .metadataServer url => (metadataRequest url).wire? url userAgent [] none
  | .none | .bearer _ => none

/-- The endpoint answered well, with a token whose end is a date. -/
def Received (outcome : Exchange) (now : Int) (t : CachedToken) : Prop :=
  ∃ r answer, outcome = .answered r ∧ r.isSuccess = true ∧
    r.read TokenAnswer.read = .ok answer ∧
    CachedToken.issued answer.accessToken answer.expiresIn now = .ok t

/-- The ways one attempt to get a token can end: what was exchanged for it, what
came of it, and the world after it. -/
inductive Asked (T : Transport σ) (credentials : Credentials) (userAgent : Option String)
    (timeout : Option Nat) (w : σ) :
    List (Entry σ) → Except LoadError CachedToken → σ → Prop
  | unsent {e} (hrequest : tokenRequest? T userAgent (T.now w) credentials = none) :
      Asked T credentials userAgent timeout w [] (.error e) w
  | received {wire outcome w' t}
      (hrequest : tokenRequest? T userAgent (T.now w) credentials = some wire)
      (hexchange : T.exchange wire timeout w = (outcome, w'))
      (hreceived : Received outcome (T.now w') t) :
      Asked T credentials userAgent timeout w [⟨wire, outcome, w, w'⟩] (.ok t) w'
  | refused {wire outcome w' e}
      (hrequest : tokenRequest? T userAgent (T.now w) credentials = some wire)
      (hexchange : T.exchange wire timeout w = (outcome, w'))
      (hreceived : ∀ t, ¬ Received outcome (T.now w') t) :
      Asked T credentials userAgent timeout w [⟨wire, outcome, w, w'⟩] (.error e) w'

theorem Asked.length_le {w w' : σ} {made : List (Entry σ)}
    {answer : Except LoadError CachedToken}
    (h : Asked T credentials userAgent timeout w made answer w') : made.length ≤ 1 := by
  cases h with
  | unsent hrequest => exact Nat.zero_le 1
  | received hrequest hexchange hreceived | refused hrequest hexchange hreceived =>
      exact Nat.le_refl 1

theorem Asked.asks {w w' : σ} {made : List (Entry σ)} {t : CachedToken}
    (h : Asked T credentials userAgent timeout w made (.ok t) w') :
    credentials.asks = true := by
  cases h with
  | received hrequest hexchange hreceived =>
      cases credentials with
      | none | bearer token => cases hrequest
      | serviceAccount key scopes lifetime | metadataServer url => rfl

theorem tokenOfAnswer_eq_ok_iff {asking : String} {r : Response} {now : Int}
    {t : CachedToken} :
    tokenOfAnswer asking r now = .ok t ↔ Received (.answered r) now t := by
  rw [tokenOfAnswer]
  constructor
  · intro h
    split at h
    · next hsuccess =>
        split at h
        · next answer hread => exact ⟨r, answer, rfl, hsuccess, hread, h⟩
        · cases h
    · cases h
  · rintro ⟨r', answer, hr, hsuccess, hread, hissued⟩
    cases hr
    rw [if_pos hsuccess, hread]
    exact hissued

theorem exists_asked_of_request {request : Option WireRequest} {w : σ}
    (hrequest : tokenRequest? T userAgent (T.now w) credentials = request) (asking : String)
    (lost : TransportFault → LoadError) (past : List (Entry σ)) :
    ∃ made answer w', Asked T credentials userAgent timeout w made answer w' ∧
      askForToken T.recorded request timeout asking lost (w, past) =
        (answer, (w', past ++ made)) := by
  cases request with
  | none =>
      refine ⟨[], .error (lost .builder), w, .unsent hrequest, ?_⟩
      rw [List.append_nil]
      rfl
  | some wire =>
      obtain ⟨outcome, w', hexchange⟩ :
          ∃ outcome w', T.exchange wire timeout w = (outcome, w') := ⟨_, _, rfl⟩
      simp only [askForToken, Transport.recorded, hexchange]
      cases outcome with
      | answered r =>
          cases hanswer : tokenOfAnswer asking r (T.now w') with
          | ok t =>
              have hreceived := tokenOfAnswer_eq_ok_iff.mp hanswer
              refine ⟨_, .ok t, _, .received hrequest hexchange hreceived, ?_⟩
              simp only [hanswer]
          | error e =>
              refine ⟨_, .error e, _, .refused hrequest hexchange fun t ht => ?_, by
                simp only [hanswer]⟩
              rw [tokenOfAnswer_eq_ok_iff.mpr ht] at hanswer
              cases hanswer
      | refused | timedOut | broken =>
          refine ⟨_, _, _, .refused hrequest hexchange ?_, rfl⟩
          rintro t ⟨r, answer, hr, -⟩
          cases hr

theorem exists_asked (T : Transport σ) (credentials : Credentials)
    (userAgent : Option String) (timeout : Option Nat) (w : σ) (past : List (Entry σ)) :
    ∃ made answer w', Asked T credentials userAgent timeout w made answer w' ∧
      fetchToken T.recorded credentials userAgent timeout (w, past) =
        (answer, (w', past ++ made)) := by
  cases credentials with
  | none | bearer token =>
      refine ⟨[], .error (.auth "Token refresh not supported for this auth type"), w,
        .unsent rfl, ?_⟩
      rw [List.append_nil]
      rfl
  | metadataServer url =>
      rw [fetchToken]
      exact exists_asked_of_request rfl _ _ past
  | serviceAccount key scopes lifetime =>
      have hnow : T.recorded.now (w, past) = T.now w := rfl
      rw [fetchToken, hnow]
      cases hassertion : Assertion.of key scopes lifetime (T.now w / 1000) with
      | error e =>
          refine ⟨[], .error e, w, .unsent ?_, ?_⟩
          · rw [tokenRequest?, hassertion]
          · rw [List.append_nil]
      | ok assertion =>
          refine exists_asked_of_request ?_ _ _ past
          rw [tokenRequest?, hassertion]
          rfl

/-! ### Authorizing a request -/

/-- The ways a request can be authorized or not: what was exchanged for it, the
header, and the connection after it. -/
inductive Applied (T : Transport σ) (credentials : Credentials) (userAgent : Option String)
    (timeout : Option Nat) (s : Connection σ) :
    List (Entry σ) → Except LoadError (Option String) → Connection σ → Prop
  | unneeded (hnone : credentials = .none) :
      Applied T credentials userAgent timeout s [] (.ok none) s
  | fixed {token} (hbearer : credentials = .bearer token) :
      Applied T credentials userAgent timeout s [] (.ok (some (bearer token))) s
  | reused {t} (hasks : credentials.asks = true) (hkept : s.token = some t)
      (hlive : ¬ Stale T s) :
      Applied T credentials userAgent timeout s [] (.ok (some (bearer t.token))) s
  | renewed {made t w'} (hasks : credentials.asks = true) (hstale : Stale T s)
      (hasked : Asked T credentials userAgent timeout s.world made (.ok t) w') :
      Applied T credentials userAgent timeout s made
        (.ok (some (bearer t.token))) ⟨w', some t⟩
  | failed {made e w'} (hasks : credentials.asks = true) (hstale : Stale T s)
      (hasked : Asked T credentials userAgent timeout s.world made (.error e) w') :
      Applied T credentials userAgent timeout s made (.error e) ⟨w', s.token⟩

theorem authorization_of_asks {s s' : Connection σ} {outcome : Except LoadError String}
    (hasks : credentials.asks = true)
    (h : usableToken T credentials userAgent timeout s = (outcome, s')) :
    authorization T credentials userAgent timeout s =
      (outcome.map fun token => some (bearer token), s') := by
  cases credentials with
  | none | bearer token => cases hasks
  | serviceAccount key scopes lifetime | metadataServer url =>
      rw [authorization, h]
      cases outcome <;> rfl

theorem exists_applied_of_asks (hasks : credentials.asks = true) (s : Connection σ) :
    ∃ made result s', Applied T credentials userAgent timeout s made result s' ∧
      authorization T.recorded credentials userAgent timeout s.recording =
        (result, ⟨(s'.world, made), s'.token⟩) := by
  have hsame : keptToken? T.recorded s.recording = keptToken? T s := rfl
  by_cases hstale : Stale T s
  · obtain ⟨made, answer, w', hasked, hfetch⟩ :=
      exists_asked T credentials userAgent timeout s.world []
    have husable : usableToken T.recorded credentials userAgent timeout s.recording =
        (answer.map (·.token), ⟨(w', made), (answer.toOption).or s.token⟩) := by
      rw [usableToken, hsame, keptToken?_eq_none_iff.mpr hstale]
      simp only [Connection.recording, hfetch, List.nil_append]
      cases answer <;> rfl
    cases answer with
    | ok t =>
        exact ⟨made, _, ⟨w', some t⟩, .renewed hasks hstale hasked,
          authorization_of_asks hasks husable⟩
    | error e =>
        exact ⟨made, _, ⟨w', s.token⟩, .failed hasks hstale hasked,
          authorization_of_asks hasks husable⟩
  · obtain ⟨t, htoken, hkept⟩ := not_stale_iff.mp hstale
    have husable : usableToken T.recorded credentials userAgent timeout s.recording =
        (.ok t.token, s.recording) := by
      rw [usableToken, hsame, hkept]
    exact ⟨[], _, s, .reused hasks htoken hstale, authorization_of_asks hasks husable⟩

theorem exists_applied (T : Transport σ) (credentials : Credentials)
    (userAgent : Option String) (timeout : Option Nat) (s : Connection σ) :
    ∃ made result s', Applied T credentials userAgent timeout s made result s' ∧
      authorization T.recorded credentials userAgent timeout s.recording =
        (result, ⟨(s'.world, made), s'.token⟩) ∧
      authorization T credentials userAgent timeout s = (result, s') := by
  obtain ⟨made, result, s', happlied, hrecorded⟩ : ∃ made result s',
      Applied T credentials userAgent timeout s made result s' ∧
        authorization T.recorded credentials userAgent timeout s.recording =
          (result, ⟨(s'.world, made), s'.token⟩) := by
    cases hasks : credentials.asks with
    | true => exact exists_applied_of_asks hasks s
    | false =>
        cases credentials with
        | none => exact ⟨[], .ok none, s, .unneeded rfl, rfl⟩
        | bearer token => exact ⟨[], .ok (some (bearer token)), s, .fixed rfl, rfl⟩
        | serviceAccount key scopes lifetime | metadataServer url => cases hasks
  have hsame := authorization_over T.recorded_over credentials userAgent timeout s.recording
  rw [hrecorded] at hsame
  exact ⟨made, result, s', happlied, hrecorded, hsame⟩

/-! ### Over the calls of a host -/

/-- What happens to a token that is kept: a request is authorized, the token is
cleared, or something else goes on in the world. -/
inductive AuthCall (σ : Type) where
  | apply
  | clear
  | meanwhile (f : σ → σ)

def afterCall (T : Transport σ) (credentials : Credentials) (userAgent : Option String)
    (timeout : Option Nat) (s : Connection σ) : AuthCall σ → Connection σ
  | .apply => (authorization T credentials userAgent timeout s).2
  | .clear => clearToken s
  | .meanwhile f => s.mapWorld f

def afterCalls (T : Transport σ) (credentials : Credentials) (userAgent : Option String)
    (timeout : Option Nat) (calls : List (AuthCall σ)) (s : Connection σ) : Connection σ :=
  calls.foldl (afterCall T credentials userAgent timeout) s

theorem Applied.token {s s' : Connection σ} {made : List (Entry σ)}
    {result : Except LoadError (Option String)}
    (h : Applied T credentials userAgent timeout s made result s') :
    s'.token = s.token ∨ Stale T s ∧ ∃ t, s'.token = some t ∧
      Asked T credentials userAgent timeout s.world made (.ok t) s'.world := by
  cases h with
  | unneeded hnone | fixed hbearer | reused hasks hkept hlive
  | failed hasks hstale hasked =>
      exact .inl rfl
  | renewed hasks hstale hasked => exact .inr ⟨hstale, _, rfl, hasked⟩

theorem afterCalls_append (first second : List (AuthCall σ)) (s : Connection σ) :
    afterCalls T credentials userAgent timeout (first ++ second) s =
      afterCalls T credentials userAgent timeout second
        (afterCalls T credentials userAgent timeout first s) :=
  List.foldl_append

/-- The token that is kept was received in one of the calls, at a time when
none could be used, and was not cleared since. -/
theorem kept_of_afterCalls {past : List (AuthCall σ)} {w : σ} {t : CachedToken}
    (h : (afterCalls T credentials userAgent timeout past ⟨w, none⟩).token = some t) :
    ∃ before since made w', past = before ++ .apply :: since ∧ .clear ∉ since ∧
      Stale T (afterCalls T credentials userAgent timeout before ⟨w, none⟩) ∧
      Asked T credentials userAgent timeout
        (afterCalls T credentials userAgent timeout before ⟨w, none⟩).world made
        (.ok t) w' := by
  induction past using List.reverseRecOn with
  | nil => cases h
  | append_singleton past call ih =>
      rw [afterCalls_append] at h
      have hearlier
          (hkept : (afterCalls T credentials userAgent timeout past ⟨w, none⟩).token =
            some t) (hclear : call ≠ .clear) :
          ∃ before since made w', past ++ [call] = before ++ .apply :: since ∧
            .clear ∉ since ∧
            Stale T (afterCalls T credentials userAgent timeout before ⟨w, none⟩) ∧
            Asked T credentials userAgent timeout
              (afterCalls T credentials userAgent timeout before ⟨w, none⟩).world made
              (.ok t) w' := by
        obtain ⟨before, since, made, w', rfl, hsince, hstale, hasked⟩ := ih hkept
        refine ⟨before, since ++ [call], made, w', by simp, ?_, hstale, hasked⟩
        rw [List.mem_append, List.mem_singleton, not_or]
        exact ⟨hsince, fun heq => hclear heq.symm⟩
      cases call with
      | clear => cases h
      | meanwhile f => exact hearlier h (by simp)
      | apply =>
          obtain ⟨made, result, s', happlied, -, hrun⟩ :=
            exists_applied T credentials userAgent timeout
              (afterCalls T credentials userAgent timeout past ⟨w, none⟩)
          have hafter : s'.token = some t := by
            rw [← h]
            show _ = (authorization T credentials userAgent timeout _).2.token
            rw [hrun]
          rcases happlied.token with hsame | ⟨hstale, t', hnew, hasked⟩
          · exact hearlier (hsame.symm.trans hafter) (by simp)
          · obtain rfl : t' = t := Option.some.inj (hnew.symm.trans hafter)
            exact ⟨past, [], made, s'.world, rfl, List.not_mem_nil, hstale, hasked⟩

theorem not_stale_of_endless {s : Connection σ} {t : CachedToken} (hkept : s.token = some t)
    (hendless : t.expiresAt = none) : ¬ Stale T s := by
  intro hstale
  obtain ⟨ending, hending, -⟩ := hstale t hkept
  rw [hendless] at hending
  cases hending

theorem endless_afterCalls {s : Connection σ} {t : CachedToken} {later : List (AuthCall σ)}
    (hkept : s.token = some t) (hendless : t.expiresAt = none) (hclear : .clear ∉ later) :
    (afterCalls T credentials userAgent timeout later s).token = some t := by
  induction later generalizing s with
  | nil => exact hkept
  | cons call rest ih =>
      refine ih (s := afterCall T credentials userAgent timeout s call) ?_
        fun hmem => hclear (List.mem_cons_of_mem _ hmem)
      cases call with
      | clear => exact absurd List.mem_cons_self hclear
      | meanwhile f => exact hkept
      | apply =>
          obtain ⟨made, result, s', happlied, -, hrun⟩ :=
            exists_applied T credentials userAgent timeout s
          rw [afterCall, hrun]
          rcases happlied.token with hsame | ⟨hstale, -⟩
          · exact hsame.trans hkept
          · exact absurd hstale (not_stale_of_endless hkept hendless)

theorem Applied.of_fixed {s s' : Connection σ} {made : List (Entry σ)}
    {result : Except LoadError (Option String)}
    (h : Applied T credentials userAgent timeout s made result s')
    (hasks : credentials.asks = false) :
    made = [] ∧ s' = s ∧ ∃ header, result = .ok header := by
  cases h with
  | unneeded hnone | fixed hbearer => exact ⟨rfl, rfl, _, rfl⟩
  | reused hasks' | renewed hasks' | failed hasks' =>
      rw [hasks] at hasks'
      cases hasks'

theorem Applied.of_live {s s' : Connection σ} {made : List (Entry σ)}
    {result : Except LoadError (Option String)}
    (h : Applied T credentials userAgent timeout s made result s')
    (hasks : credentials.asks = true) (hlive : ¬ Stale T s) :
    made = [] ∧ s' = s ∧ ∃ t, s.token = some t ∧ result = .ok (some (bearer t.token)) := by
  cases h with
  | unneeded hfixed | fixed hfixed =>
      rw [hfixed] at hasks
      cases hasks
  | reused hasks' hkept hlive' => exact ⟨rfl, rfl, _, hkept, rfl⟩
  | renewed hasks' hstale | failed hasks' hstale => exact absurd hstale hlive

theorem Applied.of_stale {s s' : Connection σ} {made : List (Entry σ)}
    {result : Except LoadError (Option String)}
    (h : Applied T credentials userAgent timeout s made result s')
    (hasks : credentials.asks = true) (hstale : Stale T s) :
    ∃ answer, Asked T credentials userAgent timeout s.world made answer s'.world ∧
      (∀ t, answer = .ok t → result = .ok (some (bearer t.token)) ∧ s'.token = some t) ∧
      ∀ e, answer = .error e → result = .error e ∧ s'.token = s.token := by
  cases h with
  | unneeded hfixed | fixed hfixed =>
      rw [hfixed] at hasks
      cases hasks
  | reused hasks' hkept hlive => exact absurd hstale hlive
  | renewed hasks' hstale' hasked =>
      refine ⟨_, hasked, fun t ht => ?_, fun e he => (by cases he)⟩
      cases ht
      exact ⟨rfl, rfl⟩
  | failed hasks' hstale' hasked =>
      refine ⟨_, hasked, fun t ht => (by cases ht), fun e he => ?_⟩
      cases he
      exact ⟨rfl, rfl⟩

theorem Applied.length_le {s s' : Connection σ} {made : List (Entry σ)}
    {result : Except LoadError (Option String)}
    (h : Applied T credentials userAgent timeout s made result s') : made.length ≤ 1 := by
  cases h with
  | unneeded hfixed | fixed hfixed | reused hasks hkept hlive => exact Nat.zero_le 1
  | renewed hasks hstale hasked | failed hasks hstale hasked => exact hasked.length_le

/-- What one more request does after any calls, from an empty cache on. The
recorded run is the run. Fixed credentials never ask. A token that can still be
used is attached and nothing is exchanged. Otherwise there is one attempt, of
at most one exchange: what it receives is attached and kept, and if it receives
nothing the request fails and what was kept stays. What is kept was received by
an earlier request and not cleared since, and without an end it is attached,
with nothing exchanged, until it is cleared. -/
theorem token_cache (T : Transport σ) (credentials : Credentials)
    (userAgent : Option String) (timeout : Option Nat) (past : List (AuthCall σ)) (w : σ) :
    let after := afterCalls T credentials userAgent timeout
    let apply := authorization T credentials userAgent timeout
    let s := after past ⟨w, none⟩
    (∃ made result s',
      authorization T.recorded credentials userAgent timeout s.recording =
          (result, ⟨(s'.world, made), s'.token⟩) ∧
        apply s = (result, s') ∧ made.length ≤ 1 ∧
        (credentials.asks = false → made = [] ∧ s' = s ∧ ∃ header, result = .ok header) ∧
        (credentials.asks = true → ¬ Stale T s → made = [] ∧ s' = s ∧
          ∃ t, s.token = some t ∧ result = .ok (some (bearer t.token))) ∧
        (credentials.asks = true → Stale T s → ∃ answer,
          Asked T credentials userAgent timeout s.world made answer s'.world ∧
          (∀ t, answer = .ok t → result = .ok (some (bearer t.token)) ∧ s'.token = some t) ∧
          ∀ e, answer = .error e → result = .error e ∧ s'.token = s.token)) ∧
    ∀ t, s.token = some t →
      (∃ before since made w', past = before ++ .apply :: since ∧ .clear ∉ since ∧
        Stale T (after before ⟨w, none⟩) ∧
        Asked T credentials userAgent timeout (after before ⟨w, none⟩).world
          made (.ok t) w') ∧
      (t.expiresAt = none → ∀ later, .clear ∉ later →
        (after later s).token = some t ∧
          apply (after later s) = (.ok (some (bearer t.token)), after later s)) := by
  intro after apply s
  refine ⟨?_, fun t hkept => ?_⟩
  · obtain ⟨made, result, s', happlied, hrecorded, hrun⟩ :=
      exists_applied T credentials userAgent timeout s
    exact ⟨made, result, s', hrecorded, hrun, happlied.length_le, happlied.of_fixed,
      happlied.of_live, happlied.of_stale⟩
  · have horigin := kept_of_afterCalls hkept
    refine ⟨horigin, fun hendless later hclear => ?_⟩
    obtain ⟨_, _, _, _, _, _, _, hasked⟩ := horigin
    have hstill : (after later s).token = some t := endless_afterCalls hkept hendless hclear
    obtain ⟨made, result, s', happlied, -, hrun⟩ :=
      exists_applied T credentials userAgent timeout (after later s)
    obtain ⟨-, rfl, t', ht', rfl⟩ :=
      happlied.of_live hasked.asks (not_stale_of_endless hstill hendless)
    obtain rfl : t' = t := Option.some.inj (ht'.symm.trans hstill)
    exact ⟨hstill, hrun⟩

/-- An endpoint that counts its answers, each with a token without an end. -/
def countingEndpoint : Transport Nat where
  exchange _ _ n :=
    (.answered ⟨200, [], some (Text.utf8 "\x7b\"access_token\":\"t\"\x7d")⟩, n + 1)
  pause _ n := n
  now n := n
  log _ _ n := n
  newJobId n := ("", n)
  sign _ _ := []
  halt n := n
  isOver _ := false

/-- The first request gets a token, and the ones behind it use that. -/
theorem token_cache_of_endless :
    let after :=
      afterCalls countingEndpoint (.metadataServer "http://metadata/token") none none
    let s := after [.apply] ⟨0, none⟩
    s = ⟨1, some ⟨"t", none⟩⟩ ∧
      (authorization countingEndpoint (.metadataServer "http://metadata/token") none none
        (after [.apply, .meanwhile (· + 60000)] s)).1 = .ok (some (bearer "t")) := by
  intro after s
  have hfirst : s = ⟨1, some ⟨"t", none⟩⟩ := by decide +kernel
  obtain ⟨-, hkept⟩ :=
    token_cache countingEndpoint (.metadataServer "http://metadata/token") none
    none [.apply] 0
  obtain ⟨-, hreused⟩ := hkept ⟨"t", none⟩ (congrArg Connection.token hfirst)
  obtain ⟨-, happly⟩ := hreused rfl [.apply, .meanwhile (· + 60000)] (by simp)
  exact ⟨hfirst, congrArg Prod.fst happly⟩

end WarehouseLoader.Auth
