import Mathlib.Data.List.Chain
import WarehouseLoader.Proofs.Http.Attempts
import WarehouseLoader.Proofs.Number.Numeral

/-!
# The trials of a request

A request is known by its trials, which are the attempts that were made at it.
Each of them ends in one of a few ways (`Ending`): it has no authorization, it
cannot be put together, or it is sent and the exchange ends. The ending alone
says whether the trouble may pass, what the request comes to if no other trial
follows, and how long to wait before the next.

`Trials` is the law of the whole sequence, and it says nothing about how the
client keeps count: the trials are numbered from zero, one follows another
exactly if the trouble of the other may pass and a retry is left, and between
the two lie one line in the log and one wait. What a trial puts on the wire is
the request, and two of them differ in their authorization at most.
-/

namespace WarehouseLoader.Http

open Auth

variable {σ : Type}

/-- How a trial ended. -/
inductive Ending where
  /-- There was no authorization for it. -/
  | unauthorized (e : LoadError)
  /-- It could not be put together. -/
  | unbuilt
  | sent (wire : WireRequest) (x : Exchange)

namespace Ending

/-- The trouble is of a kind that may pass by itself. -/
def Passes : Ending → Prop
  | sent _ (.answered a) => a.status ∈ [429, 500, 502, 503, 504]
  | sent _ .timedOut | sent _ .refused => True
  | sent _ .broken | unbuilt | unauthorized _ => False

/-- What a request comes to whose last trial ended so. A redirection is an
answer like others. -/
def outcome (timeout : Nat) : Ending → Except LoadError Response
  | unauthorized e => .error e
  | unbuilt => .error (.transport .builder)
  | sent _ .timedOut => .error (.timeout timeout)
  | sent _ .refused => .error (.transport .connect)
  | sent _ .broken => .error (.transport .exchange)
  | sent _ (.answered a) =>
    if a.status = 429 then .error (.rateLimited a.retryAfter)
    else if 400 ≤ a.status ∧ a.status < 600 then .error (.httpStatus a.status a.text)
    else .ok a

/-- How long to wait after trial `number`, in milliseconds. -/
def delay (config : HttpConfig) (number : Nat) : Ending → Nat
  | sent _ (.answered a) =>
    if a.status = 429 then a.retryAfter * 1000 else config.backoff number
  | sent _ .timedOut | sent _ .refused | sent _ .broken | unbuilt | unauthorized _ =>
    config.backoff number

/-- Whether it breaks the program off. -/
def breaksOff : Ending → Bool
  | unauthorized e => e.breaksOff
  | unbuilt | sent _ _ => false

/-- What was put on the wire. -/
def wire? : Ending → Option WireRequest
  | sent wire _ => some wire
  | unbuilt | unauthorized _ => none

end Ending

/-- One trial of a request, with the connection before it and after it. -/
@[ext]
structure Trial (σ : Type) where
  /-- Counted from zero. -/
  number : Nat
  before : Connection σ
  ending : Ending
  after : Connection σ

namespace HttpClient

def urlOf (c : HttpClient) (r : Request) : String := joinUrl c.config.baseUrl r.url

def timeoutOf (c : HttpClient) (r : Request) : Nat := r.timeout.getD c.config.timeout

def retriesOf (c : HttpClient) (r : Request) : Nat := r.retries.getD c.config.maxRetries

/-- The request as the client sends it. -/
def wireOf? (c : HttpClient) (r : Request) (authorization : Option String) :
    Option WireRequest :=
  r.wire? (c.urlOf r) (some c.config.userAgent) c.config.defaultHeaders authorization

/-- The ways a trial can end. -/
inductive Ends (c : HttpClient) (T : Transport σ) (r : Request) (s : Connection σ) :
    Ending → Connection σ → Prop
  | unauthorized {e s'} (hauth : c.authorize T s = (.error e, s')) :
      Ends c T r s (.unauthorized e) s'
  | unbuilt {authorization s'} (hauth : c.authorize T s = (.ok authorization, s'))
      (hwire : c.wireOf? r authorization = none) : Ends c T r s .unbuilt s'
  | sent {authorization s' wire x w} (hauth : c.authorize T s = (.ok authorization, s'))
      (hwire : c.wireOf? r authorization = some wire)
      (hexchange : T.exchange wire (some (c.timeoutOf r)) s'.world = (x, w)) :
      Ends c T r s (.sent wire x) { s' with world := w }

/-- What the client does before it tries again: it logs the trouble, or breaks
off over the number of attempts that it would have to tell, and waits. -/
def pauseAfter (c : HttpClient) (T : Transport σ) (r : Request) (t : Trial σ)
    (e : LoadError) : Connection σ :=
  let wait := t.ending.delay c.config t.number
  t.after.mapWorld fun w =>
    T.pause wait
      (T.warn (retryNotice r (c.urlOf r) e (t.number + 1) (c.retriesOf r) wait) w)

/-- One trial after another. -/
structure Again (c : HttpClient) (T : Transport σ) (r : Request) (t t' : Trial σ) :
    Prop where
  passes : t.ending.Passes
  left : t.number < c.retriesOf r
  awaited : T.isOver t.after.world = false
  number : t'.number = t.number + 1
  before : ∃ e, t.ending.outcome (c.timeoutOf r) = .error e ∧
    t'.before = c.pauseAfter T r t e

/-- No trial follows: this one settled the request, or the retries are spent, or
nobody waits for the request any more. -/
def Final (c : HttpClient) (T : Transport σ) (r : Request) (t : Trial σ) : Prop :=
  ¬ t.ending.Passes ∨ t.number = c.retriesOf r ∨ T.isOver t.after.world = true

/-- The trials of a request from a connection on, beginning with number
`first`. -/
structure Trials (c : HttpClient) (T : Transport σ) (r : Request) (first : Nat)
    (s : Connection σ) (trials : List (Trial σ)) (last : Trial σ) : Prop where
  starts : ∃ t, trials.head? = some t ∧ t.number = first ∧ t.before = s
  ends : ∀ t ∈ trials, c.Ends T r t.before t.ending t.after
  again : trials.IsChain (c.Again T r)
  stops : trials.getLast? = some last
  final : c.Final T r last

/-! ### One trial -/

variable {c : HttpClient} {T : Transport σ} {r : Request} {s : Connection σ}

theorem isTransientStatus_iff {status : Nat} :
    isTransientStatus status = true ↔ status ∈ [429, 500, 502, 503, 504] := by
  simp [isTransientStatus, or_assoc]

/-- An attempt that may be made again. -/
theorem classifyExchange_of_passes {wire : WireRequest} {x : Exchange} (config : HttpConfig)
    (timeout number : Nat) (h : (Ending.sent wire x).Passes) :
    ∃ e wait, classifyExchange timeout x = .passing e wait ∧
      (Ending.sent wire x).outcome timeout = .error e ∧
      wait.getD (config.backoff number) = (Ending.sent wire x).delay config number := by
  cases x with
  | timedOut | refused => exact ⟨_, _, rfl, rfl, rfl⟩
  | broken => exact False.elim h
  | answered a =>
      have hstatus : a.status ∈ [429, 500, 502, 503, 504] := h
      simp only [classifyExchange, classify, Ending.outcome, Ending.delay]
      by_cases hlimited : a.status = 429
      · rw [if_pos hlimited, if_pos hlimited, if_pos hlimited]
        exact ⟨_, _, rfl, rfl, rfl⟩
      · have hrange : 400 ≤ a.status ∧ a.status < 600 := by
          simp only [List.mem_cons, List.not_mem_nil, or_false] at hstatus
          omega
        have hfailure : a.isFailure = true := by
          simp only [Response.isFailure, Bool.and_eq_true, decide_eq_true_eq]
          exact hrange
        have hretry : (LoadError.httpStatus a.status a.text).isRetryable = true :=
          isTransientStatus_iff.mpr hstatus
        rw [if_neg hlimited, if_neg hlimited, if_neg hlimited,
          if_pos hfailure, if_pos hretry, if_pos hrange]
        exact ⟨_, _, rfl, rfl, rfl⟩

theorem classifyExchange_of_not_passes {wire : WireRequest} {x : Exchange} (timeout : Nat)
    (h : ¬ (Ending.sent wire x).Passes) :
    classifyExchange timeout x = .settled ((Ending.sent wire x).outcome timeout) := by
  cases x with
  | timedOut | refused => exact absurd trivial h
  | broken => rfl
  | answered a =>
      have hstatus : a.status ∉ [429, 500, 502, 503, 504] := h
      have hlimited : a.status ≠ 429 := fun heq => hstatus (by simp [heq])
      have hlasting : ¬ (LoadError.httpStatus a.status a.text).isRetryable = true :=
        fun hretry => hstatus (isTransientStatus_iff.mp hretry)
      simp only [classifyExchange, classify, Ending.outcome, Response.isFailure,
        Bool.and_eq_true, decide_eq_true_eq]
      rw [if_neg hlimited, if_neg hlimited, if_neg hlasting]
      split <;> rfl

theorem exists_ends (c : HttpClient) (T : Transport σ) (r : Request) (s : Connection σ) :
    ∃ ending s', c.Ends T r s ending s' := by
  cases hauth : c.authorize T s with
  | mk answer s' =>
      cases answer with
      | error e => exact ⟨_, _, .unauthorized hauth⟩
      | ok authorization =>
          cases hwire : c.wireOf? r authorization with
          | none => exact ⟨_, _, .unbuilt hauth hwire⟩
          | some wire => exact ⟨_, _, .sent hauth hwire rfl⟩

theorem attempt_of_passes {ending : Ending} {s' : Connection σ} (h : c.Ends T r s ending s')
    (hpasses : ending.Passes) (number : Nat) :
    ∃ e wait, c.attempt T r (c.urlOf r) (c.timeoutOf r) s = (.passing e wait, s') ∧
      ending.outcome (c.timeoutOf r) = .error e ∧
      wait.getD (c.config.backoff number) = ending.delay c.config number := by
  cases h with
  | unauthorized hauth | unbuilt hauth hwire => exact False.elim hpasses
  | sent hauth hwire hexchange =>
      obtain ⟨e, wait, hclass, houtcome, hdelay⟩ :=
        classifyExchange_of_passes c.config (c.timeoutOf r) number hpasses
      refine ⟨e, wait, ?_, houtcome, hdelay⟩
      rw [wireOf?] at hwire
      simp only [attempt, hauth, hwire, hexchange, hclass]

theorem attempt_of_not_passes {ending : Ending} {s' : Connection σ}
    (h : c.Ends T r s ending s') (hsettled : ¬ ending.Passes) :
    c.attempt T r (c.urlOf r) (c.timeoutOf r) s =
      (.settled (ending.outcome (c.timeoutOf r)), s') := by
  cases h with
  | unauthorized hauth =>
      rw [attempt, hauth]
      rfl
  | unbuilt hauth hwire =>
      rw [wireOf?] at hwire
      simp only [attempt, hauth, hwire, Ending.outcome]
  | sent hauth hwire hexchange =>
      rw [wireOf?] at hwire
      simp only [attempt, hauth, hwire, hexchange,
        classifyExchange_of_not_passes _ hsettled]

/-! ### All trials -/

/-- Several trials, from one that may be followed. -/
theorem Trials.cons {t t' last : Trial σ} {trials : List (Trial σ)}
    (h : c.Trials T r t'.number t'.before (t' :: trials) last)
    (hends : c.Ends T r t.before t.ending t.after) (hagain : c.Again T r t t') :
    c.Trials T r t.number t.before (t :: t' :: trials) last where
  starts := ⟨t, rfl, rfl, rfl⟩
  ends := List.forall_mem_cons.mpr ⟨hends, h.ends⟩
  again := List.isChain_cons_cons.mpr ⟨hagain, h.again⟩
  stops := by rw [List.getLast?_cons_cons, h.stops]
  final := h.final

theorem trials_of_final {number : Nat} {ending : Ending} {s' : Connection σ}
    (hends : c.Ends T r s ending s') (hfinal : c.Final T r ⟨number, s, ending, s'⟩) :
    c.Trials T r number s [⟨number, s, ending, s'⟩] ⟨number, s, ending, s'⟩ where
  starts := ⟨_, rfl, rfl, rfl⟩
  ends := List.forall_mem_singleton.mpr hends
  again := .singleton _
  stops := rfl
  final := hfinal

/-- There are such trials, and the request comes to what the last of them comes
to. The induction is on the retries that are left. -/
theorem exists_trials (c : HttpClient) (T : Transport σ) (r : Request) (done left : Nat)
    (s : Connection σ) (hcount : done + left = c.retriesOf r) :
    ∃ trials last, c.Trials T r done s trials last ∧
      c.requestFrom T r (c.urlOf r) (c.timeoutOf r) (c.retriesOf r) done left s =
        (last.ending.outcome (c.timeoutOf r), last.after) := by
  induction left generalizing done s with
  | zero =>
      obtain ⟨ending, s', hends⟩ := c.exists_ends T r s
      refine ⟨[⟨done, s, ending, s'⟩], _, trials_of_final hends (.inr (.inl hcount)), ?_⟩
      rw [requestFrom]
      by_cases hpasses : ending.Passes
      · obtain ⟨e, wait, hattempt, houtcome, -⟩ := attempt_of_passes hends hpasses done
        simp only [hattempt, houtcome]
      · simp only [attempt_of_not_passes hends hpasses]
  | succ left ih =>
      obtain ⟨ending, s', hends⟩ := c.exists_ends T r s
      let t : Trial σ := ⟨done, s, ending, s'⟩
      rw [requestFrom]
      by_cases hpasses : ending.Passes
      · obtain ⟨e, wait, hattempt, houtcome, hdelay⟩ := attempt_of_passes hends hpasses done
        simp only [hattempt]
        by_cases hover : T.isOver s'.world = true
        · refine ⟨[t], t, trials_of_final hends (.inr (.inr hover)), ?_⟩
          rw [if_pos hover]
          exact Prod.ext houtcome.symm rfl
        · obtain ⟨trials, last, htrials, hrun⟩ :=
            ih (done + 1) (c.pauseAfter T r t e) (by omega)
          obtain ⟨t', hhead, hnumber, hbefore⟩ := htrials.starts
          obtain ⟨rest, rfl⟩ := List.head?_eq_some_iff.mp hhead
          rw [← hnumber, ← hbefore] at htrials
          have hagain : c.Again T r t t' :=
            ⟨hpasses, show done < c.retriesOf r by omega,
              Bool.eq_false_iff.mpr hover, hnumber, e, houtcome, hbefore⟩
          refine ⟨t :: t' :: rest, last, htrials.cons hends hagain, ?_⟩
          rw [if_neg hover, hdelay]
          exact hrun
      · refine ⟨[t], t, trials_of_final hends (.inl hpasses), ?_⟩
        simp only [attempt_of_not_passes hends hpasses]
        rfl

theorem Ends.unique {ending ending' : Ending} {s₁ s₁' : Connection σ}
    (h : c.Ends T r s ending s₁) (h' : c.Ends T r s ending' s₁') :
    ending = ending' ∧ s₁ = s₁' := by
  cases h with
  | unauthorized hauth =>
      cases h' with
      | unauthorized hauth' => cases hauth.symm.trans hauth'; exact ⟨rfl, rfl⟩
      | unbuilt hauth' _ | sent hauth' _ _ => cases hauth.symm.trans hauth'
  | unbuilt hauth hwire =>
      cases h' with
      | unauthorized hauth' => cases hauth.symm.trans hauth'
      | unbuilt hauth' _ => cases hauth.symm.trans hauth'; exact ⟨rfl, rfl⟩
      | sent hauth' hwire' _ =>
          cases hauth.symm.trans hauth'
          cases hwire.symm.trans hwire'
  | sent hauth hwire hexchange =>
      cases h' with
      | unauthorized hauth' => cases hauth.symm.trans hauth'
      | unbuilt hauth' hwire' =>
          cases hauth.symm.trans hauth'
          cases hwire.symm.trans hwire'
      | sent hauth' hwire' hexchange' =>
          cases hauth.symm.trans hauth'
          cases hwire.symm.trans hwire'
          cases hexchange.symm.trans hexchange'
          exact ⟨rfl, rfl⟩

theorem Final.not_again {t t' : Trial σ} (h : c.Final T r t) : ¬ c.Again T r t t' := by
  intro hagain
  obtain hsettled | hspent | hover := h
  · exact hsettled hagain.passes
  · exact absurd hspent (Nat.ne_of_lt hagain.left)
  · exact absurd hover (Bool.eq_false_iff.mp hagain.awaited)

theorem Again.unique {t u u' : Trial σ} (h : c.Again T r t u) (h' : c.Again T r t u') :
    u.number = u'.number ∧ u.before = u'.before := by
  obtain ⟨e, houtcome, hbefore⟩ := h.before
  obtain ⟨e', houtcome', hbefore'⟩ := h'.before
  cases houtcome.symm.trans houtcome'
  exact ⟨h.number.trans h'.number.symm, hbefore.trans hbefore'.symm⟩

/-- Several trials but for the first. -/
theorem Trials.tail {first : Nat} {t t' last : Trial σ} {rest : List (Trial σ)}
    (h : c.Trials T r first s (t :: t' :: rest) last) :
    c.Again T r t t' ∧ c.Trials T r t'.number t'.before (t' :: rest) last where
  left := (List.isChain_cons_cons.mp h.again).1
  right :=
    { starts := ⟨t', rfl, rfl, rfl⟩
      ends := (List.forall_mem_cons.mp h.ends).2
      again := (List.isChain_cons_cons.mp h.again).2
      stops := by rw [← h.stops, List.getLast?_cons_cons]
      final := h.final }

theorem Trials.final_of_singleton {first : Nat} {t last : Trial σ}
    (h : c.Trials T r first s [t] last) : c.Final T r t := by
  have hlast : t = last := Option.some.inj h.stops
  exact hlast ▸ h.final

/-- The law leaves nothing open: a connection and a number to begin with have
one sequence of trials. -/
theorem Trials.unique {first : Nat} {trials trials' : List (Trial σ)} {last last' : Trial σ}
    (h : c.Trials T r first s trials last) (h' : c.Trials T r first s trials' last') :
    trials = trials' := by
  induction trials generalizing first s trials' with
  | nil =>
      obtain ⟨t, hhead, -⟩ := h.starts
      cases hhead
  | cons t rest ih =>
      obtain ⟨_, hhead, hnumber, hbefore⟩ := h.starts
      cases hhead
      obtain ⟨t', hhead', hnumber', hbefore'⟩ := h'.starts
      obtain ⟨rest', rfl⟩ := List.head?_eq_some_iff.mp hhead'
      have hends := h.ends t List.mem_cons_self
      have hends' := h'.ends t' List.mem_cons_self
      rw [hbefore] at hends
      rw [hbefore'] at hends'
      obtain ⟨hending, hafter⟩ := hends.unique hends'
      have heq : t = t' :=
        Trial.ext (hnumber.trans hnumber'.symm) (hbefore.trans hbefore'.symm) hending hafter
      subst heq
      cases rest with
      | nil =>
          cases rest' with
          | nil => rfl
          | cons u' later' => exact absurd h'.tail.1 h.final_of_singleton.not_again
      | cons u later =>
          cases rest' with
          | nil => exact absurd h.tail.1 h'.final_of_singleton.not_again
          | cons u' later' =>
              obtain ⟨hagain, htail⟩ := h.tail
              obtain ⟨hagain', htail'⟩ := h'.tail
              obtain ⟨hnext, hstart⟩ := hagain.unique hagain'
              rw [hnext, hstart] at htail
              rw [ih htail htail']

theorem Trials.last_ends {first : Nat} {trials : List (Trial σ)} {last : Trial σ}
    (h : c.Trials T r first s trials last) :
    c.Ends T r last.before last.ending last.after :=
  h.ends last (List.mem_of_getLast? h.stops)

/-- What the law says a request comes to is what it comes to. -/
theorem Trials.request_eq {trials : List (Trial σ)} {last : Trial σ}
    (h : c.Trials T r 0 s trials last) :
    c.request T r s = (last.ending.outcome (c.timeoutOf r), last.after) := by
  obtain ⟨made, final, hmade, hrun⟩ :=
    c.exists_trials T r 0 (c.retriesOf r) s (Nat.zero_add _)
  obtain rfl := hmade.unique h
  obtain rfl : final = last := Option.some.inj (hmade.stops.symm.trans h.stops)
  exact hrun

/-- The trials are numbered one after the other, and none has a number beyond
the retries. -/
theorem numbers_of_again {t : Trial σ} {rest : List (Trial σ)}
    (h : (t :: rest).IsChain (c.Again T r)) (hle : t.number ≤ c.retriesOf r) :
    (t :: rest).map (·.number) = List.range' t.number (rest.length + 1) ∧
      t.number + rest.length ≤ c.retriesOf r := by
  induction rest generalizing t with
  | nil => exact ⟨rfl, hle⟩
  | cons t' rest ih =>
      obtain ⟨hagain, hrest⟩ := List.isChain_cons_cons.mp h
      have hnumber := hagain.number
      have hleft := hagain.left
      obtain ⟨hnumbers, hlimit⟩ := ih hrest (by omega)
      rw [List.map_cons, hnumbers, hnumber, List.length_cons, List.range'_succ]
      exact ⟨rfl, by omega⟩

theorem Trials.numbers {trials : List (Trial σ)} {last : Trial σ}
    (h : c.Trials T r 0 s trials last) :
    trials.map (·.number) = List.range trials.length ∧
      trials.length ≤ c.retriesOf r + 1 := by
  obtain ⟨t, hhead, hnumber, -⟩ := h.starts
  obtain ⟨rest, rfl⟩ := List.head?_eq_some_iff.mp hhead
  obtain ⟨hnumbers, hlimit⟩ := numbers_of_again h.again (by omega)
  rw [hnumbers, hnumber, List.length_cons, List.range_eq_range']
  exact ⟨rfl, by omega⟩

/-! ### What the trials send -/

/-- The request as it was meant: its method, its URL with its query, and its
body. The headers of all requests and its own stand in front. -/
structure Carries (c : HttpClient) (r : Request) (wire : WireRequest) : Prop where
  method : wire.method = r.method
  url : ∃ parsed, Url.parse (c.urlOf r) = .ok parsed ∧ wire.url = parsed.withQuery r.query
  headers : ∃ given, (c.config.defaultHeaders ++ r.headers).mapM wireHeader? = some given ∧
    given <+: wire.headers
  body : wire.body = r.content

theorem carries_of_wireOf? {authorization : Option String} {wire : WireRequest}
    (h : c.wireOf? r authorization = some wire) : c.Carries r wire := by
  obtain ⟨parsed, given, own, sent, ⟨hparsed, -⟩, -, -, -, hwire⟩ :=
    Request.parts_of_wire? h
  obtain ⟨hmethod, hbody, given, tail, hgiven, hheaders, -⟩ := Request.of_wire? h
  exact ⟨hmethod, ⟨parsed, hparsed, by rw [hwire]⟩,
    ⟨given, hgiven, tail, hheaders.symm⟩, hbody⟩

theorem Trials.sent {first : Nat} {trials : List (Trial σ)} {last t : Trial σ}
    {wire : WireRequest} (h : c.Trials T r first s trials last) (ht : t ∈ trials)
    (hwire : t.ending.wire? = some wire) :
    ∃ authorization, c.wireOf? r authorization = some wire := by
  cases t with
  | mk number before ending after =>
      have hends : c.Ends T r before ending after := h.ends _ ht
      cases hends with
      | unauthorized hauth | unbuilt hauth hnone => cases hwire
      | sent hauth hsent hexchange =>
          cases hwire
          exact ⟨_, hsent⟩

end HttpClient

/-! ### How long a server asks to be left alone -/

namespace Response

end Response

namespace HttpClient

end HttpClient

end WarehouseLoader.Http
