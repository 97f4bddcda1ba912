import WarehouseLoader.Http.Client
import WarehouseLoader.Proofs.Http.Wire

/-!
# What a request keeps, whatever it takes

A request is a loop of attempts, and an attempt may first have to fetch a token.
Between two exchanges of the request itself the world is therefore changed by
pauses, by log lines and by token requests, in an order that depends on clocks
and answers. None of it matters to a property that those three kinds of change
keep: such a property holds after the request if the request's own exchanges
keep it. The exchange that settles the request well is the last, nothing happens
after it, so it need not keep the property: what it does establish for its
answer is what a request that succeeds leaves behind.

That is `request_rule`. It is the only place where the attempts are counted;
everything above it argues about one exchange.
-/

namespace WarehouseLoader.Auth

open Http

/-- A request for a token, as it is sent: the exchange of an assertion or the
question to the metadata server, with no header of the requests it is for. -/
def TokenRequest (wire : WireRequest) : Prop :=
  ∃ (r : Request) (url : String) (userAgent : Option String),
    r.wire? url userAgent [] none = some wire ∧
      ((∃ uri assertion, r = exchangeRequest uri assertion) ∨
        ∃ address, r = metadataRequest address)

end WarehouseLoader.Auth

namespace WarehouseLoader.Http

open Auth

theorem method_ne_put_of_tokenRequest {wire : WireRequest}
    (h : TokenRequest wire) : wire.method ≠ "PUT" := by
  obtain ⟨r, url, userAgent, hwire, ⟨uri, assertion, rfl⟩ | ⟨address, rfl⟩⟩ := h
  · rw [(Request.of_wire? hwire).1]
    show "POST" ≠ "PUT"
    decide
  · rw [(Request.of_wire? hwire).1]
    show "GET" ≠ "PUT"
    decide

namespace Exchange

/-- The answer of an exchange, if it does not say that the request failed. -/
def accepted? : Exchange → Option Response
  | answered a => if a.isFailure then none else some a
  | timedOut | refused | broken => none

theorem accepted?_eq_some {x : Exchange} {a : Response} :
    x.accepted? = some a ↔ x = .answered a ∧ a.isFailure = false := by
  cases x with
  | timedOut | refused | broken => simp [accepted?]
  | answered b =>
      simp only [accepted?, answered.injEq]
      split
      · next hfailure =>
          refine ⟨fun h => (by cases h), ?_⟩
          rintro ⟨rfl, hfine⟩
          rw [hfailure] at hfine
          cases hfine
      · next hfine =>
          refine ⟨fun h => ?_, fun h => by rw [h.1]⟩
          injection h with h
          exact ⟨h, by simpa [h] using hfine⟩

end Exchange

variable {σ : Type} {T : Transport σ} {P : σ → Prop}

/-! ### Asking for a token -/

section Asking

variable (hasking : ∀ {wire w} timeout, TokenRequest wire → P w →
  P (T.exchange wire timeout w).2)

include hasking

theorem askForToken_rule {request : Option WireRequest} {timeout : Option Nat}
    {asking : String} {lost : TransportFault → LoadError} {w : σ}
    (htoken : ∀ wire, request = some wire → TokenRequest wire) (h : P w) :
    P (askForToken T request timeout asking lost w).2 := by
  cases hr : request with
  | none => exact h
  | some wire =>
      have hkept := hasking timeout (htoken wire hr) h
      rw [askForToken]
      cases hx : T.exchange wire timeout w with
      | mk outcome w' =>
          rw [hx] at hkept
          cases outcome <;> exact hkept

theorem fetchToken_rule (credentials : Credentials) (userAgent : Option String)
    (timeout : Option Nat) {w : σ} (h : P w) :
    P (fetchToken T credentials userAgent timeout w).2 := by
  cases credentials with
  | serviceAccount key scopes lifetime =>
      rw [fetchToken]
      cases Assertion.of key scopes lifetime (T.now w / 1000) with
      | error e => exact h
      | ok assertion =>
          exact askForToken_rule hasking
            (fun wire hwire => ⟨_, _, _, hwire, .inl ⟨_, _, rfl⟩⟩) h
  | metadataServer url =>
      rw [fetchToken]
      exact askForToken_rule hasking (fun wire hwire => ⟨_, _, _, hwire, .inr ⟨_, rfl⟩⟩) h
  | none => exact h
  | bearer token => exact h

theorem usableToken_rule (credentials : Credentials) (userAgent : Option String)
    (timeout : Option Nat) {s : Connection σ} (h : P s.world) :
    P (usableToken T credentials userAgent timeout s).2.world := by
  rw [usableToken]
  cases keptToken? T s with
  | some token => exact h
  | none =>
      have hkept := fetchToken_rule hasking credentials userAgent timeout h
      cases hf : fetchToken T credentials userAgent timeout s.world with
      | mk outcome w =>
          rw [hf] at hkept
          cases outcome <;> exact hkept

theorem authorization_rule (credentials : Credentials) (userAgent : Option String)
    (timeout : Option Nat) {s : Connection σ} (h : P s.world) :
    P (authorization T credentials userAgent timeout s).2.world := by
  have hkept := usableToken_rule hasking credentials userAgent timeout h
  cases credentials with
  | none | bearer token => exact h
  | serviceAccount key scopes lifetime | metadataServer url =>
      simp only [authorization]
      split
      · next hu => rw [hu] at hkept; exact hkept
      · next hu => rw [hu] at hkept; exact hkept

end Asking

/-- The property survives everything a request does besides its own
exchange. -/
structure Keeps (T : Transport σ) (P : σ → Prop) : Prop where
  pause : ∀ {n w}, P w → P (T.pause n w)
  log : ∀ {level text w}, P w → P (T.log level text w)
  halt : ∀ {w}, P w → P (T.halt w)
  token : ∀ {wire w} timeout, TokenRequest wire → P w → P (T.exchange wire timeout w).2

namespace Keeps

theorem warn (k : Keeps T P) {notice : Except LoadError String} {w : σ} (h : P w) :
    P (T.warn notice w) := by
  cases notice with
  | ok text => exact k.log h
  | error e => exact k.halt h

theorem settle (k : Keeps T P) (e : LoadError) {w : σ} (h : P w) : P (T.settle e w) := by
  rw [Transport.settle]
  split
  · exact k.halt h
  · exact h

theorem authorize (k : Keeps T P) (c : HttpClient) {s : Connection σ}
    (h : P s.world) : P (c.authorize T s).2.world := by
  rw [HttpClient.authorize]
  cases c.credentials with
  | none => exact h
  | some credentials =>
      have hkept := authorization_rule k.token credentials (some c.config.userAgent)
        (some c.config.timeout) h
      simp only []
      split
      · next ha => rw [ha] at hkept; exact hkept
      · next ha => rw [ha] at hkept; exact k.settle _ hkept

end Keeps

namespace HttpClient

variable {c : HttpClient} {r : Request} {s : Connection σ}

/-- What the client may put on the wire for a request at a URL: the same at every
attempt, but for the authorization. -/
def SendsTo (c : HttpClient) (r : Request) (url : String) (wire : WireRequest) : Prop :=
  ∃ authorization : Option String,
    r.wire? url (some c.config.userAgent) c.config.defaultHeaders authorization = some wire

/-- Every exchange of the request keeps `P`, but for the one whose answer is
accepted, which establishes `Q` for that answer. -/
def Establishes (c : HttpClient) (T : Transport σ) (r : Request) (url : String)
    (P : σ → Prop) (Q : Response → σ → Prop) : Prop :=
  ∀ wire w timeout, c.SendsTo r url wire → P w →
    match (T.exchange wire timeout w).1.accepted? with
    | some a => Q a (T.exchange wire timeout w).2
    | none => P (T.exchange wire timeout w).2

theorem establishes_of_kept {Q : Response → σ → Prop} {url : String}
    (h : ∀ wire w timeout, c.SendsTo r url wire → P w →
      P (T.exchange wire timeout w).2 ∧
        ∀ a, (T.exchange wire timeout w).1 = .answered a → a.isFailure = false →
          Q a (T.exchange wire timeout w).2) :
    c.Establishes T r url P Q := by
  intro wire w timeout hsends hw
  obtain ⟨hkept, hgood⟩ := h wire w timeout hsends hw
  split
  · next a haccepted =>
      obtain ⟨hanswer, hfine⟩ := Exchange.accepted?_eq_some.mp haccepted
      exact hgood a hanswer hfine
  · exact hkept

theorem settled_ok_iff {timeout : Nat} {outcome : Exchange} {a : Response} :
    classifyExchange timeout outcome = .settled (.ok a) ↔ outcome.accepted? = some a := by
  rw [Exchange.accepted?_eq_some]
  cases outcome with
  | timedOut | refused | broken => simp [classifyExchange]
  | answered b =>
      simp only [classifyExchange, classify]
      split
      · next hlimited =>
          simp only [Exchange.answered.injEq, reduceCtorEq, false_iff]
          rintro ⟨rfl, hfine⟩
          simp [Response.isFailure, hlimited] at hfine
      · split
        · next hfailure =>
            refine ⟨fun hsettled => ?_, ?_⟩
            · split at hsettled <;> cases hsettled
            · rintro ⟨hanswer, hfine⟩
              injection hanswer with hanswer
              rw [← hanswer, hfailure] at hfine
              cases hfine
        · next hfine =>
            simp only [Attempt.settled.injEq, Except.ok.injEq, Exchange.answered.injEq]
            exact ⟨fun heq => ⟨heq, by simpa [heq] using hfine⟩, fun heq => heq.1⟩

theorem attempt_rule {Q : Response → σ → Prop} {url : String} (k : Keeps T P)
    (hsent : c.Establishes T r url P Q) (timeout : Nat) (h : P s.world) :
    match (c.attempt T r url timeout s).1 with
    | .settled (.ok a) => Q a (c.attempt T r url timeout s).2.world
    | _ => P (c.attempt T r url timeout s).2.world := by
  have hauth := k.authorize c h
  rw [attempt]
  cases ha : c.authorize T s with
  | mk outcome s₁ =>
      rw [ha] at hauth
      cases outcome with
      | error e => exact hauth
      | ok authorization =>
          simp only []
          cases hw : r.wire? url (some c.config.userAgent) c.config.defaultHeaders
              authorization with
          | none => exact hauth
          | some wire =>
              have hexchanged := hsent wire _ (some timeout) ⟨authorization, hw⟩ hauth
              simp only []
              split
              · next a hsettled =>
                  rw [settled_ok_iff.mp hsettled] at hexchanged
                  exact hexchanged
              · next hnot =>
                  split at hexchanged
                  · next a haccepted => exact absurd (settled_ok_iff.mpr haccepted) (hnot a)
                  · exact hexchanged

theorem requestFrom_rule {Q : Response → σ → Prop} {url : String} (k : Keeps T P)
    (hsent : c.Establishes T r url P Q) {timeout maxRetries done left : Nat}
    (h : P s.world) :
    match (c.requestFrom T r url timeout maxRetries done left s).1 with
    | .ok a => Q a (c.requestFrom T r url timeout maxRetries done left s).2.world
    | .error _ => P (c.requestFrom T r url timeout maxRetries done left s).2.world := by
  induction left generalizing done s with
  | zero =>
      have hattempt := attempt_rule k hsent timeout h
      rw [requestFrom]
      cases ha : c.attempt T r url timeout s with
      | mk outcome s₁ =>
          rw [ha] at hattempt
          cases outcome with
          | settled result => cases result <;> exact hattempt
          | passing e wait => exact hattempt
  | succ left ih =>
      have hattempt := attempt_rule k hsent timeout h
      rw [requestFrom]
      cases ha : c.attempt T r url timeout s with
      | mk outcome s₁ =>
          rw [ha] at hattempt
          cases outcome with
          | settled result => cases result <;> exact hattempt
          | passing e wait =>
              simp only []
              by_cases hover : T.isOver s₁.world
              · rw [if_pos hover]
                exact hattempt
              · rw [if_neg hover]
                exact ih (k.pause (k.warn hattempt))

/-- A property that waiting, logging and token requests keep, and that every
exchange keeps which is not accepted, holds after a request that fails; and a
request that succeeds leaves what its accepted exchange established. -/
theorem request_rule {Q : Response → σ → Prop} (k : Keeps T P)
    (hsent : c.Establishes T r (joinUrl c.config.baseUrl r.url) P Q) (h : P s.world) :
    match (c.request T r s).1 with
    | .ok a => Q a (c.request T r s).2.world
    | .error _ => P (c.request T r s).2.world :=
  requestFrom_rule k hsent h

theorem request_of_accepted {s₁ : Connection σ} {authorization : Option String}
    {wire : WireRequest} {x : Exchange} {a : Response} {w : σ}
    (hauth : c.authorize T s = (.ok authorization, s₁))
    (hwire : r.wire? (joinUrl c.config.baseUrl r.url) (some c.config.userAgent)
      c.config.defaultHeaders authorization = some wire)
    (hexchange : T.exchange wire (some (r.timeout.getD c.config.timeout)) s₁.world = (x, w))
    (haccepted : x.accepted? = some a) :
    c.request T r s = (.ok a, { s₁ with world := w }) := by
  have hattempt : c.attempt T r (joinUrl c.config.baseUrl r.url)
      (r.timeout.getD c.config.timeout) s = (.settled (.ok a), { s₁ with world := w }) := by
    rw [attempt, hauth]
    simp only [hwire, hexchange, settled_ok_iff.mpr haccepted]
  rw [request]
  cases r.retries.getD c.config.maxRetries <;> rw [requestFrom, hattempt]

end HttpClient

end WarehouseLoader.Http
