import WarehouseLoader.Proofs.Http.Record
import WarehouseLoader.Proofs.Http.Retries

/-!
# What a request leaves on the record

A transport that keeps a record may do so under further layers, and a layer may
keep an exchange from being made at all. `Logs` is what remains true then: each
exchange is written down with its outcome, or there was none, and then it
brought no answer.

So the record tells how a request ended. Whatever was exchanged for it was an
attempt at it, or a request for a token (`Attempts`); and a request that gave
an answer was answered so by the last exchange there is (`Answered`). A record
without further layers has each trial of the request that was sent
(`Trials.recorded_sent`).
-/

namespace WarehouseLoader.Http

open Auth

variable {σ τ : Type} {U : Transport τ} {record : τ → List (Entry σ)}

/-- `record` has the exchanges that were made, the last at the end. -/
structure Logs (U : Transport τ) (record : τ → List (Entry σ)) : Prop where
  pause : ∀ n w, record (U.pause n w) = record w
  log : ∀ level text w, record (U.log level text w) = record w
  halt : ∀ w, record (U.halt w) = record w
  newJobId : ∀ w, record (U.newJobId w).2 = record w
  exchange : ∀ wire timeout w,
    (record (U.exchange wire timeout w).2 = record w ∧
      (U.exchange wire timeout w).1.accepted? = none) ∨
    ∃ e : Entry σ, record (U.exchange wire timeout w).2 = record w ++ [e] ∧
      e.request = wire ∧ e.outcome = (U.exchange wire timeout w).1

theorem Logs.warn (h : Logs U record) (notice : Except LoadError String) (w : τ) :
    record (U.warn notice w) = record w := by
  cases notice with
  | ok text => exact h.log .warn text w
  | error e => exact h.halt w

theorem recorded_logs (T : Transport σ) : Logs T.recorded Prod.snd where
  pause _ _ := rfl
  log _ _ _ := rfl
  halt _ := rfl
  newJobId _ := rfl
  exchange wire timeout w := .inr ⟨⟨wire, (T.exchange wire timeout w.1).1, w.1,
    (T.exchange wire timeout w.1).2⟩, rfl, rfl, rfl⟩

namespace HttpClient

variable {c : HttpClient} {r : Request}

/-- The exchange was made for the request: it is the request itself, or asks
for a token. -/
def Attempts (c : HttpClient) (r : Request) (e : Entry σ) : Prop :=
  TokenRequest e.request ∨ c.SendsTo r (joinUrl c.config.baseUrl r.url) e.request

/-- The exchanges were made for the request, and the last of them brought the
answer, which does not say that the request failed. -/
structure Answered (c : HttpClient) (r : Request) (made : List (Entry σ)) (a : Response) :
    Prop where
  attempts : ∀ e ∈ made, c.Attempts r e
  last : ∃ e, made.getLast? = some e ∧ e.outcome = .answered a ∧
    c.SendsTo r (joinUrl c.config.baseUrl r.url) e.request
  fine : a.isFailure = false

/-- Attempts that came to nothing may stand in front. -/
theorem Answered.prepend {made before : List (Entry σ)} {a : Response}
    (h : c.Answered r made a) (hbefore : ∀ e ∈ before, c.Attempts r e) :
    c.Answered r (before ++ made) a where
  attempts e he := (List.mem_append.mp he).elim (hbefore e) (h.attempts e)
  last := by
    obtain ⟨e, hlast, hanswer⟩ := h.last
    exact ⟨e, by rw [List.getLast?_append, hlast, Option.some_or], hanswer⟩
  fine := h.fine

/-- The record has grown by attempts at the request. -/
def Attempted (c : HttpClient) (r : Request) (past : List (Entry σ))
    (events : List (Entry σ)) : Prop :=
  ∃ made, events = past ++ made ∧ ∀ e ∈ made, c.Attempts r e

theorem attempts_snoc {made : List (Entry σ)} (h : ∀ e ∈ made, c.Attempts r e) {e : Entry σ}
    (he : c.Attempts r e) : ∀ e' ∈ made ++ [e], c.Attempts r e' := by
  intro e' he'
  rcases List.mem_append.mp he' with hold | hnew
  · exact h e' hold
  · rw [List.mem_singleton.mp hnew]
    exact he

theorem Attempted.snoc {past events : List (Entry σ)} (h : c.Attempted r past events)
    {e : Entry σ} (he : c.Attempts r e) : c.Attempted r past (events ++ [e]) := by
  obtain ⟨made, rfl, hmade⟩ := h
  exact ⟨made ++ [e], List.append_assoc _ _ _, attempts_snoc hmade he⟩

theorem Attempted.answered {past events : List (Entry σ)} (h : c.Attempted r past events)
    {e : Entry σ} (hsends : c.SendsTo r (joinUrl c.config.baseUrl r.url) e.request)
    {a : Response} (haccepted : e.outcome.accepted? = some a) :
    ∃ made, events ++ [e] = past ++ made ∧ c.Answered r made a := by
  obtain ⟨made, rfl, hmade⟩ := h
  obtain ⟨hanswer, hfine⟩ := Exchange.accepted?_eq_some.mp haccepted
  exact ⟨made ++ [e], List.append_assoc _ _ _, attempts_snoc hmade (.inr hsends),
    ⟨e, List.getLast?_concat, hanswer, hsends⟩, hfine⟩

theorem attempted_keeps (h : Logs U record) (c : HttpClient) (r : Request)
    (past : List (Entry σ)) : Keeps U fun w => c.Attempted r past (record w) where
  pause {n w} hw := by
    rw [h.pause]
    exact hw
  log {level text w} hw := by
    rw [h.log]
    exact hw
  halt {w} hw := by
    rw [h.halt]
    exact hw
  token {wire w} timeout htoken hw := by
    rcases h.exchange wire timeout w with ⟨hsame, -⟩ | ⟨e, hlog, rfl, -⟩
    · rw [hsame]
      exact hw
    · rw [hlog]
      exact hw.snoc (.inl htoken)

theorem attempted_establishes (h : Logs U record) (c : HttpClient) (r : Request)
    (past : List (Entry σ)) :
    c.Establishes U r (joinUrl c.config.baseUrl r.url)
      (fun w => c.Attempted r past (record w))
      fun a w => ∃ made, record w = past ++ made ∧ c.Answered r made a := by
  intro wire w timeout hsends hw
  rcases h.exchange wire timeout w with ⟨hsame, hnone⟩ | ⟨e, hlog, rfl, houtcome⟩
  · simp only [hnone, hsame]
    exact hw
  · split
    · next a haccepted =>
        simp only [hlog]
        exact hw.answered hsends (by rw [houtcome, haccepted])
    · simp only [hlog]
      exact hw.snoc (.inr hsends)

/-- What the record has of a request, however it ended. -/
theorem request_logged (h : Logs U record) (c : HttpClient) (r : Request)
    (s : Connection τ) :
    ∃ made, record (c.request U r s).2.world = record s.world ++ made ∧
      (∀ e ∈ made, c.Attempts r e) ∧
      ∀ a, (c.request U r s).1 = .ok a → c.Answered r made a := by
  have hstart : c.Attempted r (record s.world) (record s.world) :=
    ⟨[], (List.append_nil _).symm, fun e he => absurd he (List.not_mem_nil)⟩
  have hrule :=
    request_rule (s := s) (attempted_keeps h c r _) (attempted_establishes h c r _)
    hstart
  cases hr : c.request U r s with
  | mk outcome s₁ =>
      rw [hr] at hrule
      cases outcome with
      | error e =>
          obtain ⟨made, hmade, hattempts⟩ := hrule
          exact ⟨made, hmade, hattempts, fun a ha => by cases ha⟩
      | ok a =>
          obtain ⟨made, hmade, hanswered⟩ := hrule
          refine ⟨made, hmade, hanswered.attempts, fun a' ha' => ?_⟩
          cases ha'
          exact hanswered

/-! ### Trials on the record -/

section Trials

variable {T : Transport σ}

theorem prefix_keeps (T : Transport σ) (past : List (Entry σ)) :
    Keeps T.recorded fun w => past <+: w.2 where
  pause h := h
  log h := h
  halt h := h
  token _ _ h := h.trans (List.prefix_append _ _)

theorem Ends.prefix_record {s s' : Connection (Recorded σ)} {ending : Ending}
    (h : c.Ends T.recorded r s ending s') : s.world.2 <+: s'.world.2 := by
  have hkept := (prefix_keeps T s.world.2).authorize c (List.prefix_refl s.world.2)
  cases h with
  | unauthorized hauth | unbuilt hauth hwire =>
      rw [hauth] at hkept
      exact hkept
  | sent hauth hwire hexchange =>
      rw [hauth] at hkept
      cases hexchange
      exact hkept.trans (List.prefix_append _ _)

theorem Ends.recorded_sent {s s' : Connection (Recorded σ)} {wire : WireRequest}
    {x : Exchange} (h : c.Ends T.recorded r s (.sent wire x) s') :
    ∃ grown e, s'.world.2 = s.world.2 ++ grown ++ [e] ∧ e.request = wire ∧
      e.outcome = x := by
  have hkept := (prefix_keeps T s.world.2).authorize c (List.prefix_refl s.world.2)
  cases h with
  | sent hauth hwire hexchange =>
      rw [hauth] at hkept
      cases hexchange
      obtain ⟨grown, hgrown⟩ := hkept
      exact ⟨grown, _, by rw [hgrown], rfl, rfl⟩

theorem record_pauseAfter (t : Trial (Recorded σ)) (e : LoadError) :
    (c.pauseAfter T.recorded r t e).world.2 = t.after.world.2 :=
  (recorded_logs T).warn _ _

/-- From trial to trial the record only grows. -/
theorem Trials.prefix_record {first : Nat} {s : Connection (Recorded σ)}
    {trials : List (Trial (Recorded σ))} {last : Trial (Recorded σ)}
    (h : c.Trials T.recorded r first s trials last) :
    ∀ t ∈ trials, s.world.2 <+: t.before.world.2 ∧
      t.after.world.2 <+: last.after.world.2 := by
  induction trials generalizing first s with
  | nil => exact fun t ht => absurd ht List.not_mem_nil
  | cons t rest ih =>
      obtain ⟨t', hhead, -, rfl⟩ := h.starts
      obtain rfl : t = t' := Option.some.inj hhead
      cases rest with
      | nil =>
          obtain rfl : t = last := Option.some.inj h.stops
          exact List.forall_mem_singleton.mpr ⟨List.prefix_refl _, List.prefix_refl _⟩
      | cons u rest =>
          obtain ⟨hagain, htail⟩ := h.tail
          obtain ⟨e, -, hbefore⟩ := hagain.before
          have hnext : u.before.world.2 = t.after.world.2 := by
            rw [hbefore, record_pauseAfter]
          have hstep := (h.ends t List.mem_cons_self).prefix_record
          have hlater := ih htail
          rw [hnext] at hlater
          refine List.forall_mem_cons.mpr ⟨⟨List.prefix_refl _, ?_⟩, fun v hv => ?_⟩
          · have hu := (htail.ends u List.mem_cons_self).prefix_record
            rw [hnext] at hu
            exact hu.trans (hlater u List.mem_cons_self).2
          · exact ⟨hstep.trans (hlater v hv).1, (hlater v hv).2⟩

/-- Each trial that was sent is on the record, with its request and its end. -/
theorem Trials.recorded_sent {first : Nat} {s : Connection (Recorded σ)}
    {trials : List (Trial (Recorded σ))} {last t : Trial (Recorded σ)} {wire : WireRequest}
    {x : Exchange} {made : List (Entry σ)} (h : c.Trials T.recorded r first s trials last)
    (hmade : last.after.world.2 = s.world.2 ++ made) (ht : t ∈ trials)
    (hsent : t.ending = .sent wire x) : ∃ e ∈ made, e.request = wire ∧ e.outcome = x := by
  obtain ⟨⟨front, hfront⟩, ⟨back, hback⟩⟩ := h.prefix_record t ht
  have hends := h.ends t ht
  rw [hsent] at hends
  obtain ⟨grown, e, hafter, hrequest, houtcome⟩ := hends.recorded_sent
  have hsplit : s.world.2 ++ made = s.world.2 ++ (front ++ grown ++ e :: back) := by
    rw [← hmade, ← hback, hafter, ← hfront]
    simp
  refine ⟨e, ?_, hrequest, houtcome⟩
  rw [List.append_cancel_left hsplit]
  simp

theorem Trials.sendsTo {first : Nat} {s : Connection (Recorded σ)}
    {trials : List (Trial (Recorded σ))} {last t : Trial (Recorded σ)} {wire : WireRequest}
    {x : Exchange} (h : c.Trials T.recorded r first s trials last) (ht : t ∈ trials)
    (hsent : t.ending = .sent wire x) : c.SendsTo r (joinUrl c.config.baseUrl r.url) wire :=
  h.sent ht (congrArg Ending.wire? hsent)

/-- A request is on the record unless its last trial sent nothing. -/
theorem Trials.recorded_or_unsent {first : Nat} {s : Connection (Recorded σ)}
    {trials : List (Trial (Recorded σ))} {last : Trial (Recorded σ)} {made : List (Entry σ)}
    (h : c.Trials T.recorded r first s trials last)
    (hmade : last.after.world.2 = s.world.2 ++ made) :
    (∃ e ∈ made, c.SendsTo r (joinUrl c.config.baseUrl r.url) e.request) ∨
      (∃ e, last.ending = .unauthorized e) ∨ last.ending = .unbuilt := by
  have hlast : last ∈ trials := List.mem_of_getLast? h.stops
  cases hending : last.ending with
  | unauthorized e => exact .inr (.inl ⟨e, rfl⟩)
  | unbuilt => exact .inr (.inr rfl)
  | sent wire x =>
      obtain ⟨e, he, hrequest, -⟩ := h.recorded_sent hmade hlast hending
      exact .inl ⟨e, he, hrequest ▸ h.sendsTo hlast hending⟩

end Trials

end HttpClient

end WarehouseLoader.Http
