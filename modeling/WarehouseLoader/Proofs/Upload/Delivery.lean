import WarehouseLoader.Proofs.Upload.Flush

/-!
# Delivery to an honest server

A resumable server holds a part of the payload and lets itself be sent more of
it. It may keep as much or as little of a body as it likes, answer or fail
when it likes, and lose its answers; it is honest if what it keeps it puts in
its place, if what it acknowledges is what it holds, and if it takes the
payload for complete only at its full length.

Client and server stay in step (`InStep`): the channel's buffer is the payload
from the offset on, the server holds a prefix of the payload, and the offset
is not past that prefix. The middle part is what makes a resend harmless,
since bytes that overlap are the same bytes; the last is what makes every
request one that the server can place. A partial commit, a lost answer and a
status query all move the offset at most up to what is held, so no choice of
the server leaves the relation. When a close succeeds the lengths agree, and a
prefix of full length is the whole (`upload_delivers`).

Nothing is asked of the chunk size, of the number of retries or of the result
of each write: a caller who goes on after a failed write is in step as well.
-/

namespace WarehouseLoader.Upload

open Auth Http

variable {σ : Type}

/-- A server whose session holds `store`, and which is honest about it.
Requests that are no part of the upload leave the session alone. -/
structure Honest (T : Transport σ) (store : σ → Bytes) : Prop where
  pause : ∀ milliseconds w, store (T.pause milliseconds w) = store w
  log : ∀ level text w, store (T.log level text w) = store w
  halt : ∀ w, store (T.halt w) = store w
  elsewhere : ∀ {wire} timeout w, ContentRange.ofWire? wire = none →
    store (T.exchange wire timeout w).2 = store w
  /-- Of a body that begins within what is held, some bytes past that are
  kept, each at its place. -/
  stores : ∀ {wire range first} timeout w, ContentRange.ofWire? wire = some range →
    range.first = some first → first ≤ (store w).length →
      ∃ n, store (T.exchange wire timeout w).2 =
        store w ++ (wire.body.drop ((store w).length - first)).take n
  /-- Nothing is kept of a request that announces no body. -/
  asked : ∀ {wire range} timeout w, ContentRange.ofWire? wire = some range →
    range.first = none → store (T.exchange wire timeout w).2 = store w
  acknowledges : ∀ {wire range a} timeout w, ContentRange.ofWire? wire = some range →
    (T.exchange wire timeout w).1 = .answered a → a.status = incomplete →
      a.header? "range" = acknowledgement (store (T.exchange wire timeout w).2).length
  /-- A request that tells the total is accepted only if all of it is held. -/
  completes : ∀ {wire range total a} timeout w, ContentRange.ofWire? wire = some range →
    range.total = some total → (T.exchange wire timeout w).1 = .answered a →
      a.status ≠ incomplete → a.isFailure = false →
        (store (T.exchange wire timeout w).2).length = total

/-! ### Being in step -/

/-- How a channel and a server's session stand to the payload so far. -/
structure InStep (payload stored : Bytes) (ch : Channel) : Prop where
  buffered : Buffered payload ch
  behind : ch.offset ≤ stored.length
  held : stored <+: payload

namespace InStep

variable {payload stored : Bytes} {ch : Channel}

theorem fresh (url : String) (chunkSize : Nat) : InStep [] [] (.new url chunkSize) where
  buffered := Buffered.fresh url chunkSize
  behind := Nat.le_refl 0
  held := List.prefix_refl []

theorem more (h : InStep payload stored ch) (data : Bytes) :
    InStep (payload ++ data) stored { ch with buffer := ch.buffer ++ data } where
  buffered := h.buffered.more data
  behind := h.behind
  held := h.held.trans (List.prefix_append payload data)

/-- What the server keeps of bytes out of the buffer continues what it has. -/
theorem extended (h : InStep payload stored ch) {body : Bytes} {m n : Nat}
    (hbody : body = ch.buffer.take m) :
    InStep payload (stored ++ (body.drop (stored.length - ch.offset)).take n) ch where
  buffered := h.buffered
  behind := by
    rw [List.length_append]
    exact Nat.le_trans h.behind (Nat.le_add_right _ _)
  held := by
    have hbehind := h.behind
    have hkept : body.drop (stored.length - ch.offset) =
        (payload.drop stored.length).take (m - (stored.length - ch.offset)) := by
      rw [hbody, h.buffered.buffer, List.drop_take, List.drop_drop,
        show ch.offset + (stored.length - ch.offset) = stored.length by omega]
    rw [hkept, List.take_take]
    obtain ⟨rest, rfl⟩ := h.held
    rw [List.drop_left]
    exact (List.prefix_append_right_inj stored).mpr (List.take_prefix _ _)

/-- An honest acknowledgement, however it is read, claims no more than is
held. -/
theorem told (h : InStep payload stored ch) {a : Response}
    (hsaid : a.status = incomplete → a.header? "range" = acknowledgement stored.length) :
    InStep payload stored (ch.told a) where
  buffered := h.buffered.told a
  behind := by
    rw [Channel.told]
    split
    · next hstatus =>
        refine Channel.offset_credit_le h.behind ?_
        rw [heldBy_of_acknowledged (hsaid hstatus)]
        split
        · exact Nat.le_refl _
        · exact Nat.zero_le _
    · exact h.behind
  held := h.held

end InStep

/-! ### Exchanges of a recorded run -/

/-- The session held a prefix of the payload before and after the exchange,
and the body, if there was one, began within what was held. -/
structure Placed (store : σ → Bytes) (payload : Bytes) (e : Entry σ) : Prop where
  before : store e.before <+: payload
  after : store e.after <+: payload
  placed : ∀ {range first}, ContentRange.ofWire? e.request = some range →
    range.first = some first → first ≤ (store e.before).length

/-- Channel and session are in step, and so they were at every exchange. -/
structure Delivering (store : σ → Bytes) (payload : Bytes) (ch : Channel)
    (w : Recorded σ) : Prop where
  inStep : InStep payload (store w.1) ch
  record : ∀ e ∈ w.2, Placed store payload e

namespace Delivering

variable {T : Transport σ} {store : σ → Bytes} {payload : Bytes} {ch : Channel}
  {w : Recorded σ} {c : HttpClient}

theorem more (h : Delivering store payload ch w) (data : Bytes) :
    Delivering store (payload ++ data) { ch with buffer := ch.buffer ++ data } w where
  inStep := h.inStep.more data
  record e he :=
    have hpre := List.prefix_append payload data
    { before := (h.record e he).before.trans hpre
      after := (h.record e he).after.trans hpre
      placed := (h.record e he).placed }

/-- An exchange that leaves channel and session in step goes on the record as
one that did. -/
theorem exchanged (h : Delivering store payload ch w) {wire : WireRequest}
    {timeout : Option Nat}
    (hafter : InStep payload (store (T.exchange wire timeout w.1).2) ch)
    (hplaced : ∀ range first, ContentRange.ofWire? wire = some range →
      range.first = some first → first ≤ (store w.1).length) :
    Delivering store payload ch (T.recorded.exchange wire timeout w).2 where
  inStep := hafter
  record e he := by
    rcases List.mem_append.mp he with he | he
    · exact h.record e he
    · rw [List.mem_singleton.mp he]
      exact ⟨h.inStep.held, hafter.held, fun hr hf => hplaced _ _ hr hf⟩

theorem keeps (honest : Honest T store) (payload : Bytes) (ch : Channel) :
    Http.Keeps T.recorded (Delivering store payload ch) where
  pause {milliseconds w} h :=
    { inStep := by
        show InStep payload (store (T.pause milliseconds w.1)) ch
        rw [honest.pause]
        exact h.inStep
      record := h.record }
  log {level text w} h :=
    { inStep := by
        show InStep payload (store (T.log level text w.1)) ch
        rw [honest.log]
        exact h.inStep
      record := h.record }
  halt {w} h :=
    { inStep := by
        show InStep payload (store (T.halt w.1)) ch
        rw [honest.halt]
        exact h.inStep
      record := h.record }
  token timeout htoken h := by
    have hnone := ofWire?_of_tokenRequest htoken
    refine h.exchanged ?_ (fun range first hr => ?_)
    · rw [honest.elsewhere timeout _ hnone]
      exact h.inStep
    · rw [hnone] at hr
      cases hr

theorem sent (honest : Honest T store) {wire : WireRequest} {range : ContentRange} {m : Nat}
    (hrange : ContentRange.ofWire? wire = some range)
    (hfirst : range.first = some ch.offset ∨ range.first = none)
    (hbody : wire.body = ch.buffer.take m) (timeout : Option Nat)
    (h : Delivering store payload ch w) :
    Delivering store payload ch (T.recorded.exchange wire timeout w).2 := by
  refine h.exchanged ?_ (fun range' first hr hf => ?_)
  · rcases hfirst with hfirst | hfirst
    · obtain ⟨n, hstored⟩ := honest.stores timeout w.1 hrange hfirst h.inStep.behind
      rw [hstored]
      exact h.inStep.extended hbody
    · rw [honest.asked timeout w.1 hrange hfirst]
      exact h.inStep
  · rw [hrange] at hr
    cases hr
    rcases hfirst with hfirst | hfirst
    · rw [hfirst] at hf
      cases hf
      exact h.inStep.behind
    · rw [hfirst] at hf
      cases hf

theorem told (honest : Honest T store) {wire : WireRequest} {range : ContentRange}
    {timeout : Option Nat} {a : Response} (hrange : ContentRange.ofWire? wire = some range)
    (hanswer : (T.recorded.exchange wire timeout w).1 = .answered a)
    (h : Delivering store payload ch (T.recorded.exchange wire timeout w).2) :
    Delivering store payload (ch.told a) (T.recorded.exchange wire timeout w).2 where
  inStep := h.inStep.told (honest.acknowledges timeout w.1 hrange hanswer)
  record := h.record

theorem carries (honest : Honest T store) (payload : Bytes) :
    Channel.Carries c T.recorded (Delivering store payload) where
  keeps := keeps honest payload
  chunk {_} _ := HttpClient.establishes_of_kept fun wire w timeout hsends h => by
    obtain ⟨hrange, hbody⟩ := Channel.sends_chunk hsends
    have hsent := sent honest hrange (.inl rfl) hbody timeout h
    exact ⟨hsent, fun a hanswer _ => told honest hrange hanswer hsent⟩
  query {_} _ := HttpClient.establishes_of_kept fun wire w timeout hsends h => by
    obtain ⟨hrange, hbody⟩ := Channel.sends_query hsends
    have hsent := sent (m := 0) honest hrange (.inr rfl) hbody timeout h
    exact ⟨hsent, fun a hanswer _ => told honest hrange hanswer hsent⟩

/-- The last request leaves both in step too, and an answer that accepts it
means that the session holds as much as there is. -/
theorem closes (honest : Honest T store) (payload : Bytes) (ch : Channel) (url : String) :
    c.Establishes T.recorded ch.finalRequest url (Delivering store payload ch) fun a w =>
      Delivering store payload ch w ∧ (a.status ≠ incomplete → store w.1 = payload) := by
  refine HttpClient.establishes_of_kept fun wire w timeout hsends h => ?_
  obtain ⟨hrange, hbody⟩ := Channel.sends_final hsends
  have hfirst : (if ch.buffer = [] then none else some ch.offset) = some ch.offset ∨
      (if ch.buffer = [] then none else some ch.offset) = (none : Option Nat) := by
    split
    · exact .inr rfl
    · exact .inl rfl
  have hsent := sent honest hrange hfirst (hbody.trans (List.take_length).symm) timeout h
  refine ⟨hsent, fun a hanswer hfine => ⟨hsent, fun hstatus => ?_⟩⟩
  have hlength := honest.completes timeout w.1 hrange rfl hanswer hstatus hfine
  rw [h.inStep.buffered.bufferedEnd] at hlength
  exact hsent.inStep.held.eq_of_length hlength

theorem close (honest : Honest T store) {s : Connection (Recorded σ)}
    (h : Delivering store payload ch s.world) :
    Delivering store payload ch (ch.close c T.recorded s).2.world ∧
      ∀ job, (ch.close c T.recorded s).1 = .ok job →
        store (ch.close c T.recorded s).2.world.1 = payload := by
  have hclosed :=
    HttpClient.request_rule (keeps honest payload ch)
      (closes (c := c) honest payload ch _) h
  rw [Channel.close]
  cases hr : c.request T.recorded ch.finalRequest s with
  | mk outcome s₁ =>
      rw [hr] at hclosed
      cases outcome with
      | error e => exact ⟨hclosed, fun job hjob => by cases hjob⟩
      | ok a =>
          obtain ⟨hkept, hcomplete⟩ := hclosed
          simp only []
          split
          · exact ⟨hkept, fun job hjob => by cases hjob⟩
          · next hstatus => exact ⟨hkept, fun job _ => hcomplete hstatus⟩

end Delivering

/-- Every upload to an honest server whose session is empty. The record of the
run shows a prefix of the payload on both sides of every exchange and no body
that begins beyond it, and an upload whose close succeeds has brought exactly
the payload. The recorded run is the one without the record. -/
theorem upload_delivers {T : Transport σ} {store : σ → Bytes} (honest : Honest T store)
    (c : HttpClient) (url : String) (chunkSize : Nat) (parts : List Bytes)
    {s : Connection σ} (fresh : store s.world = [])
    {outcome : Except LoadError Job} {s' : Connection (Recorded σ)}
    (run : (Channel.new url chunkSize).upload c T.recorded parts s.recording =
      (outcome, s')) :
    (Channel.new url chunkSize).upload c T parts s = (outcome, s'.through Prod.fst) ∧
      (∀ e ∈ s'.world.2, Placed store parts.flatten e) ∧
      store s'.world.1 <+: parts.flatten ∧
      ∀ job, outcome = .ok job → store s'.world.1 = parts.flatten := by
  have hstart : Delivering store [] (.new url chunkSize) s.recording.world :=
    { inStep := by
        rw [show store s.recording.world.1 = [] from fresh]
        exact InStep.fresh _ _
      record := fun e he => by cases he }
  have hwritten := Channel.carries_writeAll (c := c) (Delivering.carries honest)
    (fun data h => h.more data) parts hstart
  rw [List.nil_append] at hwritten
  obtain ⟨hkept, hdone⟩ := Delivering.close (c := c) honest hwritten
  have hplain := Channel.upload_recorded c T parts (.new url chunkSize) s
  rw [run] at hplain
  rw [Channel.upload] at run
  rw [run] at hkept hdone
  exact ⟨hplain, hkept.record, hkept.inStep.held, hdone⟩

/-! ### A server with choices -/

inductive Failure where
  | status (code : Nat)
  | noAnswer
  | noConnection
  | dropped
  deriving DecidableEq, Repr

/-- What a server does with one request of the upload: how many of the new
bytes it keeps, and how it fails, if it does. -/
structure Choice where
  keeps : Nat
  failure : Option Failure
  deriving DecidableEq, Repr

/-- A session together with the choices still to be made for it. -/
structure Session where
  stored : Bytes
  choices : List Choice
  deriving DecidableEq, Repr

/-- The failures that may pass, as an exchange ends in them. -/
def Failure.passing? : Failure → Option Exchange
  | status code =>
    if isTransientStatus code then some (.answered ⟨code, [], some []⟩) else none
  | noAnswer => some .timedOut
  | noConnection => some .refused
  | dropped => some .broken

namespace Session

/-- The choice for the next request; a session left without any keeps
everything and answers. -/
def choice (s : Session) (wire : WireRequest) : Choice :=
  s.choices.headD ⟨wire.body.length, none⟩

def storing (s : Session) (wire : WireRequest) (range : ContentRange) : Bytes :=
  match range.first with
  | none => s.stored
  | some first =>
    if first ≤ s.stored.length then
      s.stored ++ (wire.body.drop (s.stored.length - first)).take (s.choice wire).keeps
    else
      s.stored

/-- The answer of a session that holds `n` bytes: a job for a payload that is
complete, an acknowledgement for any other. -/
def answer (range : ContentRange) (n : Nat) : Response :=
  if range.total = some n then ⟨200, [], some (Text.utf8 "\x7b\x7d")⟩
  else acknowledging n

def outcome (s : Session) (wire : WireRequest) (range : ContentRange) : Exchange :=
  ((s.choice wire).failure.bind Failure.passing?).getD
    (.answered (answer range (s.storing wire range).length))

end Session

/-- The server that does as the choices of its session say. -/
def resumable : Transport Session where
  exchange wire _ s :=
    match ContentRange.ofWire? wire with
    | none => (.refused, s)
    | some range => (s.outcome wire range, ⟨s.storing wire range, s.choices.tail⟩)
  pause _ s := s
  now _ := 0
  log _ _ s := s
  newJobId s := ("", s)
  sign _ _ := []
  halt s := s
  isOver _ := false

namespace Session

theorem header?_answer {range : ContentRange} {n : Nat} (h : range.total ≠ some n) :
    (answer range n).header? "range" = acknowledgement n := by
  rw [answer, if_neg h]
  exact header?_acknowledging n

/-- A session answers properly or fails in passing; nothing else is a choice. -/
theorem outcome_cases (s : Session) (wire : WireRequest) (range : ContentRange) :
    s.outcome wire range = .answered (answer range (s.storing wire range).length) ∨
      ∀ a, s.outcome wire range = .answered a → isTransientStatus a.status = true := by
  rw [outcome]
  cases hf : (s.choice wire).failure.bind Failure.passing? with
  | none => exact .inl rfl
  | some failing =>
      refine .inr fun a ha => ?_
      rw [Option.getD_some] at ha
      obtain ⟨failure, -, hpassing⟩ := Option.bind_eq_some_iff.mp hf
      cases failure with
      | status code =>
          rw [Failure.passing?] at hpassing
          split at hpassing
          · next htransient =>
              cases hpassing
              cases ha
              exact htransient
          · cases hpassing
      | noAnswer | noConnection | dropped =>
          cases hpassing
          cases ha

theorem isFailure_of_transient {a : Response} (h : isTransientStatus a.status = true) :
    a.isFailure = true ∧ a.status ≠ incomplete := by
  simp only [isTransientStatus, Bool.or_eq_true, beq_iff_eq] at h
  simp only [Response.isFailure, incomplete, Bool.and_eq_true, decide_eq_true_eq]
  omega

end Session

theorem exchange_resumable {wire : WireRequest} {range : ContentRange}
    (h : ContentRange.ofWire? wire = some range) (timeout : Option Nat) (s : Session) :
    resumable.exchange wire timeout s =
      (s.outcome wire range, ⟨s.storing wire range, s.choices.tail⟩) := by
  simp only [resumable, h]

theorem resumable_honest : Honest resumable Session.stored where
  pause _ _ := rfl
  log _ _ _ := rfl
  halt _ := rfl
  elsewhere timeout s hnone := by simp only [resumable, hnone]
  stores {wire _ _} timeout s hrange hfirst hbehind := by
    rw [exchange_resumable hrange]
    refine ⟨(s.choice wire).keeps, ?_⟩
    simp only [Session.storing, hfirst, if_pos hbehind]
  asked timeout s hrange hfirst := by
    rw [exchange_resumable hrange]
    simp only [Session.storing, hfirst]
  acknowledges {wire range a} timeout s hrange hanswer hstatus := by
    rw [exchange_resumable hrange] at hanswer ⊢
    rcases s.outcome_cases wire range with hproper | hfailing
    · rw [hproper] at hanswer
      injection hanswer with hanswer
      subst hanswer
      refine Session.header?_answer fun htotal => ?_
      rw [Session.answer, if_pos htotal] at hstatus
      exact absurd hstatus (by decide)
    · exact absurd hstatus (Session.isFailure_of_transient (hfailing a hanswer)).2
  completes {wire range total a} timeout s hrange htotal hanswer hstatus hfine := by
    rw [exchange_resumable hrange] at hanswer ⊢
    rcases s.outcome_cases wire range with hproper | hfailing
    · rw [hproper] at hanswer
      injection hanswer with hanswer
      subst hanswer
      by_cases hall : range.total = some (s.storing wire range).length
      · rw [htotal] at hall
        injection hall with hall
        exact hall.symm
      · rw [Session.answer, if_neg hall] at hstatus
        exact absurd rfl hstatus
    · rw [(Session.isFailure_of_transient (hfailing a hanswer)).1] at hfine
      cases hfine

/-- One write of two bytes in chunks of one. The answer to the first chunk is
lost, the server has the byte all the same, and the last request is refused
once before it is taken. -/
theorem upload_delivers_after_losses :
    let c : HttpClient := ⟨HttpConfig.standard, none⟩
    let s : Connection Session :=
      ⟨⟨[], [⟨1, some .dropped⟩, ⟨0, none⟩, ⟨0, some (.status 503)⟩]⟩, none⟩
    let ch := Channel.new "http://localhost/s" 1
    Honest resumable Session.stored ∧ s.world.stored = [] ∧
      (ch.upload c resumable [[1, 2]] s).1 = .ok .empty ∧
      (ch.upload c resumable [[1, 2]] s).2.world.stored = [1, 2] := by
  intro c s ch
  refine ⟨resumable_honest, rfl, ?_⟩
  let full : Channel := ⟨"http://localhost/s", 1, [1, 2], 0⟩
  let rest : Channel := ⟨"http://localhost/s", 1, [2], 1⟩
  -- The flush recovers by asking: one byte is held, so only the other is left.
  have hflush : full.flush c resumable s =
      (.ok (), rest, ⟨⟨[1], [⟨0, some (.status 503)⟩]⟩, none⟩) := by decide +kernel
  have hwrite : ch.writeAll c resumable [[1, 2]] s =
      (rest, ⟨⟨[1], [⟨0, some (.status 503)⟩]⟩, none⟩) := by
    have hdrain : Channel.drain c resumable full s = _ :=
      (Channel.drain_of_flush (by decide) hflush).trans (Channel.drain_of_le (by decide))
    simp only [Channel.writeAll, Channel.write]
    rw [show Channel.drain c resumable { ch with buffer := ch.buffer ++ [1, 2] } s = _
      from hdrain]
  have hok : (ch.upload c resumable [[1, 2]] s).1 = .ok .empty := by
    have hjob : (rest.close c resumable ⟨⟨[1], [⟨0, some (.status 503)⟩]⟩, none⟩).1 =
        .ok .empty := by decide +kernel
    rw [Channel.upload, hwrite, hjob]
  obtain ⟨outcome, s', hrun⟩ :
      ∃ outcome s', ch.upload c resumable.recorded [[1, 2]] s.recording = (outcome, s') :=
    ⟨_, _, (Prod.eta _).symm⟩
  obtain ⟨hplain, -, -, hdone⟩ := upload_delivers resumable_honest c "http://localhost/s" 1
    [[1, 2]] rfl hrun
  rw [hplain] at hok ⊢
  exact ⟨hok, hdone _ hok⟩

end WarehouseLoader.Upload
