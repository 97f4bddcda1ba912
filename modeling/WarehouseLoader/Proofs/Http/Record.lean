import WarehouseLoader.Http.Client

/-!
# Runs that keep a record

What a run sends, and what it hears, is said of a transport that writes every
exchange down while it does what it always does: the request, the outcome,
and the world on both sides. The record is only looked at by statements;
nothing that runs can see it.

That is what `Over` and the lemmas under it establish. A transport lies over
another if some view of its world makes each of its operations the other's;
then every run over the one, seen through the view, is the run over the other,
answer for answer. A recorded run is thereby the run itself.
-/

namespace WarehouseLoader.Http

open Auth

variable {σ τ : Type}

/-- One exchange of a run, with the world before it and after it. -/
structure Entry (σ : Type) where
  request : WireRequest
  outcome : Exchange
  before : σ
  after : σ

/-- The world together with the exchanges that led to it, the last at the end. -/
abbrev Recorded (σ : Type) := σ × List (Entry σ)

namespace Transport

/-- The transport that also writes down each exchange. -/
def recorded (T : Transport σ) : Transport (Recorded σ) where
  exchange wire timeout w :=
    let (outcome, after) := T.exchange wire timeout w.1
    (outcome, (after, w.2 ++ [⟨wire, outcome, w.1, after⟩]))
  pause milliseconds w := (T.pause milliseconds w.1, w.2)
  now w := T.now w.1
  log level text w := (T.log level text w.1, w.2)
  newJobId w := ((T.newJobId w.1).1, ((T.newJobId w.1).2, w.2))
  sign := T.sign
  halt w := (T.halt w.1, w.2)
  isOver w := T.isOver w.1

/-- Seen through `view`, every operation of `U` is the one of `T`. -/
structure Over (U : Transport τ) (T : Transport σ) (view : τ → σ) : Prop where
  exchange : ∀ wire timeout w,
    T.exchange wire timeout (view w) =
      ((U.exchange wire timeout w).1, view (U.exchange wire timeout w).2)
  pause : ∀ milliseconds w, T.pause milliseconds (view w) = view (U.pause milliseconds w)
  now : ∀ w, T.now (view w) = U.now w
  log : ∀ level text w, T.log level text (view w) = view (U.log level text w)
  newJobId : ∀ w, T.newJobId (view w) = ((U.newJobId w).1, view (U.newJobId w).2)
  sign : T.sign = U.sign
  halt : ∀ w, T.halt (view w) = view (U.halt w)
  isOver : ∀ w, T.isOver (view w) = U.isOver w

theorem recorded_over (T : Transport σ) : T.recorded.Over T Prod.fst where
  exchange _ _ _ := rfl
  pause _ _ := rfl
  now _ := rfl
  log _ _ _ := rfl
  newJobId _ := rfl
  sign := rfl
  halt _ := rfl
  isOver _ := rfl

section Over

variable {U : Transport τ} {T : Transport σ} {view : τ → σ}

theorem Over.warn (h : U.Over T view) (notice : Except LoadError String) (w : τ) :
    T.warn notice (view w) = view (U.warn notice w) := by
  cases notice with
  | ok text => exact h.log .warn text w
  | error e => exact h.halt w

theorem Over.settle (h : U.Over T view) (e : LoadError) (w : τ) :
    T.settle e (view w) = view (U.settle e w) := by
  rw [Transport.settle, Transport.settle]
  split
  · exact h.halt w
  · rfl

end Over

end Transport

end WarehouseLoader.Http

namespace WarehouseLoader.Auth

open Http

variable {σ τ : Type} {U : Transport τ} {T : Transport σ} {view : τ → σ}

namespace Connection

def through (s : Connection τ) (view : τ → σ) : Connection σ := ⟨view s.world, s.token⟩

def recording (s : Connection σ) : Connection (Recorded σ) := ⟨(s.world, []), s.token⟩

theorem through_mapWorld {f : τ → τ} {g : σ → σ} (h : ∀ w, g (view w) = view (f w))
    (s : Connection τ) : (s.mapWorld f).through view = (s.through view).mapWorld g := by
  simp only [through, mapWorld, h]

end Connection

theorem askForToken_over (h : U.Over T view) (request : Option WireRequest)
    (timeout : Option Nat) (asking : String) (lost : TransportFault → LoadError) (w : τ) :
    askForToken T request timeout asking lost (view w) =
      ((askForToken U request timeout asking lost w).1,
        view (askForToken U request timeout asking lost w).2) := by
  cases request with
  | none => rfl
  | some wire =>
      simp only [askForToken, h.exchange]
      cases hx : U.exchange wire timeout w with
      | mk outcome w' => cases outcome <;> simp only [h.now]

theorem fetchToken_over (h : U.Over T view) (credentials : Credentials)
    (userAgent : Option String) (timeout : Option Nat) (w : τ) :
    fetchToken T credentials userAgent timeout (view w) =
      ((fetchToken U credentials userAgent timeout w).1,
        view (fetchToken U credentials userAgent timeout w).2) := by
  cases credentials with
  | none | bearer => rfl
  | metadataServer url =>
      simp only [fetchToken]
      exact askForToken_over h _ _ _ _ _
  | serviceAccount key scopes lifetime =>
      simp only [fetchToken, h.now, h.sign]
      cases Assertion.of key scopes lifetime (U.now w / 1000) with
      | error e => rfl
      | ok assertion => exact askForToken_over h _ _ _ _ _

theorem usableToken_over (h : U.Over T view) (credentials : Credentials)
    (userAgent : Option String) (timeout : Option Nat) (s : Connection τ) :
    usableToken T credentials userAgent timeout (s.through view) =
      ((usableToken U credentials userAgent timeout s).1,
        (usableToken U credentials userAgent timeout s).2.through view) := by
  have hkept : keptToken? T (s.through view) = keptToken? U s := by
    simp only [keptToken?, Connection.through, h.now]
  simp only [usableToken, hkept]
  cases keptToken? U s with
  | some token => rfl
  | none =>
      simp only [Connection.through, fetchToken_over h]
      cases hf : fetchToken U credentials userAgent timeout s.world with
      | mk outcome w => cases outcome <;> rfl

theorem authorization_over (h : U.Over T view) (credentials : Credentials)
    (userAgent : Option String) (timeout : Option Nat) (s : Connection τ) :
    authorization T credentials userAgent timeout (s.through view) =
      ((authorization U credentials userAgent timeout s).1,
        (authorization U credentials userAgent timeout s).2.through view) := by
  cases credentials with
  | none | bearer => rfl
  | serviceAccount | metadataServer =>
      simp only [authorization, usableToken_over h]
      cases usableToken U _ userAgent timeout s with
      | mk outcome s₁ => cases outcome <;> rfl

end WarehouseLoader.Auth

namespace WarehouseLoader.Http.HttpClient

open Auth

variable {σ τ : Type} {U : Transport τ} {T : Transport σ} {view : τ → σ}

theorem authorize_over (h : U.Over T view) (c : HttpClient) (s : Connection τ) :
    c.authorize T (s.through view) =
      ((c.authorize U s).1, (c.authorize U s).2.through view) := by
  simp only [authorize]
  cases c.credentials with
  | none => rfl
  | some credentials =>
      simp only [authorization_over h]
      cases authorization U credentials (some c.config.userAgent)
        (some c.config.timeout) s with
      | mk outcome s₁ =>
          cases outcome with
          | ok header => rfl
          | error e => exact congrArg _ (Connection.through_mapWorld (h.settle e) s₁).symm

theorem attempt_over (h : U.Over T view) (c : HttpClient) (r : Request) (url : String)
    (timeout : Nat) (s : Connection τ) :
    c.attempt T r url timeout (s.through view) =
      ((c.attempt U r url timeout s).1, (c.attempt U r url timeout s).2.through view) := by
  simp only [attempt, authorize_over h]
  cases c.authorize U s with
  | mk outcome s₁ =>
      cases outcome with
      | error e => rfl
      | ok authorization =>
          simp only []
          split
          · rfl
          · simp only [Connection.through, h.exchange]

theorem requestFrom_over (h : U.Over T view) (c : HttpClient) (r : Request) (url : String)
    (timeout maxRetries done left : Nat) (s : Connection τ) :
    c.requestFrom T r url timeout maxRetries done left (s.through view) =
      ((c.requestFrom U r url timeout maxRetries done left s).1,
        (c.requestFrom U r url timeout maxRetries done left s).2.through view) := by
  induction left generalizing done s with
  | zero =>
      unfold requestFrom
      simp only [attempt_over h]
      cases c.attempt U r url timeout s with
      | mk outcome s₁ => cases outcome <;> rfl
  | succ left ih =>
      unfold requestFrom
      simp only [attempt_over h]
      cases c.attempt U r url timeout s with
      | mk outcome s₁ =>
          cases outcome with
          | settled result => rfl
          | passing e wait =>
              have hover : T.isOver (s₁.through view).world = U.isOver s₁.world :=
                h.isOver s₁.world
              simp only [hover]
              split
              · rfl
              · rw [← ih, Connection.through_mapWorld]
                intro w
                rw [h.warn, h.pause]

theorem request_over (h : U.Over T view) (c : HttpClient) (r : Request) (s : Connection τ) :
    c.request T r (s.through view) =
      ((c.request U r s).1, (c.request U r s).2.through view) :=
  requestFrom_over h c r _ _ _ _ _ s

end WarehouseLoader.Http.HttpClient
