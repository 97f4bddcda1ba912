import WarehouseLoader.Proofs.Http.Retries
import WarehouseLoader.Proofs.Upload.Flush

/-!
# The requests of a write

A write makes requests of two kinds: it sends a chunk, or it asks how much the
server holds. Each comes to one of three things (`Verdict`). The server holds a
part and is believed, a chunk failed in a way that may pass, or there is no
hope, and then the write ends with the error that says why.

`Flushes` has one rule for each way in which a flush can go, and `Writes` lists
the flushes of a write. One of the rules always applies (`exists_flushes`), so
what is said of all writes is said of the rules: how often a flush asks and
sends, that a flush that goes well leaves less to send, and which request may
follow which (`Onward`). No chunk follows a failed one but by way of an answered
question.
-/

namespace WarehouseLoader.Upload

open Auth Http

variable {σ : Type}

inductive Purpose where
  | chunk
  | question
  deriving DecidableEq

namespace Purpose

def request (ch : Channel) : Purpose → Request
  | chunk => ch.chunkRequest
  | question => ch.queryRequest

def name : Purpose → String
  | chunk => "intermediate chunk"
  | question => "upload status"

/-- The connection on which the request is made: the range of a chunk is worked
out before. -/
def poised (T : Transport σ) (ch : Channel) (s : Connection σ) : Purpose → Connection σ
  | chunk => ch.poised T s
  | question => s

/-- How often the request is made again. -/
def retries (c : HttpClient) : Purpose → Nat
  | chunk => 0
  | question => c.config.maxRetries

end Purpose

/-- One request of a write and what it came to. -/
structure Ask (σ : Type) where
  purpose : Purpose
  /-- The channel that makes the request. -/
  channel : Channel
  before : Connection σ
  result : Except LoadError Response
  after : Connection σ

/-- The connection once the result of a request was read. -/
def heeded (T : Transport σ) (result : Except LoadError Response) (s : Connection σ) :
    Connection σ :=
  match result with
  | .ok r => if r.status = incomplete then Channel.heed T r s else s
  | .error _ => s

def ask (c : HttpClient) (T : Transport σ) (purpose : Purpose) (ch : Channel)
    (s : Connection σ) : Ask σ :=
  let before := purpose.poised T ch s
  let run := c.request T (purpose.request ch) before
  ⟨purpose, ch, before, run.1, heeded T run.1 run.2⟩

/-- What a request of a write comes to. -/
inductive Verdict where
  /-- The server holds a part, and this is the channel that believes it. -/
  | heard (ch : Channel)
  /-- A chunk failed in a way that may pass. -/
  | failed (e : LoadError)
  /-- No request follows. -/
  | hopeless (e : LoadError)

/-- How a write ends whose last request came to this. -/
def Verdict.outcome : Verdict → Except LoadError Unit
  | heard _ => .ok ()
  | failed e | hopeless e => .error e

namespace Ask

/-- How many bytes the server says that it holds. -/
def held (a : Ask σ) : Except LoadError Nat :=
  match a.result with
  | .error e => .error e
  | .ok r =>
    if r.status = incomplete then .ok (Channel.heldBy r)
    else .error (.upload s!"expected 308 for {a.purpose.name}, got {r.status}")

def verdict (a : Ask σ) : Verdict :=
  match a.held with
  | .error e => if a.purpose = .chunk ∧ e.isRetryable = true then .failed e else .hopeless e
  | .ok held =>
    if a.purpose = .chunk ∧ held ≤ a.channel.offset then
      .hopeless (.upload s!"server made no progress past byte {a.channel.offset}")
    else
      match a.channel.commit held with
      | .ok ch => .heard ch
      | .error e => .hopeless e

/-- A failure that does not pass, a question that is not answered, an answer
that does not speak of a part, or a chunk of which the server says nothing
new. -/
def Hopeless (a : Ask σ) : Prop :=
  match a.result with
  | .error e => e.isRetryable = false ∨ a.purpose = .question
  | .ok r =>
    r.status ≠ incomplete ∨ a.purpose = .chunk ∧ Channel.heldBy r ≤ a.channel.offset

theorem held_eq_ok_iff {a : Ask σ} {n : Nat} :
    a.held = .ok n ↔
      ∃ r, a.result = .ok r ∧ r.status = incomplete ∧ Channel.heldBy r = n := by
  rw [held]
  cases a.result with
  | error e => simp
  | ok r => by_cases hstatus : r.status = incomplete <;> simp [hstatus]

theorem verdict_of_error {a : Ask σ} {e : LoadError} (h : a.held = .error e)
    (hlasting : e.isRetryable = false ∨ a.purpose = .question) :
    a.verdict = .hopeless e := by
  rw [verdict, h]
  refine if_neg ?_
  rintro ⟨hchunk, hretry⟩
  rcases hlasting with hlasting | hquestion
  · rw [hretry] at hlasting
    cases hlasting
  · rw [hchunk] at hquestion
    cases hquestion

theorem Hopeless.verdict {a : Ask σ} (h : a.Hopeless) : ∃ e, a.verdict = .hopeless e := by
  rw [Hopeless] at h
  cases hresult : a.result with
  | error e =>
      rw [hresult] at h
      exact ⟨e, verdict_of_error (by rw [held, hresult]) h⟩
  | ok r =>
      rw [hresult] at h
      by_cases hstatus : r.status = incomplete
      · have hheld : a.held = .ok (Channel.heldBy r) :=
          held_eq_ok_iff.mpr ⟨r, hresult, hstatus, rfl⟩
        obtain hother | hidle := h
        · exact absurd hstatus hother
        · rw [Ask.verdict, hheld]
          exact ⟨_, if_pos hidle⟩
      · exact ⟨_, verdict_of_error (by rw [held, hresult]; exact if_neg hstatus) (.inl rfl)⟩

theorem of_failed {a : Ask σ} {e : LoadError} (h : a.verdict = .failed e) :
    a.purpose = .chunk ∧ a.held = .error e ∧ e.isRetryable = true := by
  rw [verdict] at h
  split at h
  · next hheld =>
      split at h <;> cases h
      next hfailed => exact ⟨hfailed.1, hheld, hfailed.2⟩
  · split at h
    · cases h
    · split at h <;> cases h

theorem of_heard {a : Ask σ} {ch : Channel} (h : a.verdict = .heard ch) :
    ∃ n, a.held = .ok n ∧ ¬ (a.purpose = .chunk ∧ n ≤ a.channel.offset) ∧
      a.channel.commit n = .ok ch := by
  rw [verdict] at h
  split at h
  · split at h <;> cases h
  · next n hheld =>
      split at h
      · cases h
      · next hnews =>
          split at h <;> cases h
          next hcommit => exact ⟨n, hheld, hnews, hcommit⟩

theorem chunkSize_of_heard {a : Ask σ} {ch : Channel} (h : a.verdict = .heard ch) :
    ch.chunkSize = a.channel.chunkSize := by
  obtain ⟨n, -, -, hcommit⟩ := of_heard h
  exact (Channel.length_le_of_commit hcommit).2

end Ask

/-! ### The rules -/

section Rules

variable (c : HttpClient) (T : Transport σ)

/-- The ways a flush can go after so many failures: its requests, how it ends,
and the channel and the connection that it leaves. -/
inductive Flushes : Nat → Channel → Connection σ → List (Ask σ) → Except LoadError Unit →
    Channel → Connection σ → Prop
  | held {done ch s a ch'} (ha : a = ask c T .chunk ch s)
      (hchunk : a.verdict = .heard ch') :
      Flushes done ch s [a] (.ok ()) ch' a.after
  | hopeless {done ch s a e} (ha : a = ask c T .chunk ch s)
      (hchunk : a.verdict = .hopeless e) :
      Flushes done ch s [a] (.error e) ch a.after
  | spent {done ch s a e} (ha : a = ask c T .chunk ch s) (hchunk : a.verdict = .failed e)
      (hdone : done = c.config.maxRetries) : Flushes done ch s [a] (.error e) ch a.after
  | unanswered {done ch s a e q e'} (ha : a = ask c T .chunk ch s)
      (hchunk : a.verdict = .failed e) (hdone : done < c.config.maxRetries)
      (hq : q = ask c T .question ch (ch.pauseForRecovery c T e done a.after))
      (hquestion : q.verdict = .hopeless e') :
      Flushes done ch s [a, q] (.error e') ch q.after
  | caughtUp {done ch s a e q ch'} (ha : a = ask c T .chunk ch s)
      (hchunk : a.verdict = .failed e) (hdone : done < c.config.maxRetries)
      (hq : q = ask c T .question ch (ch.pauseForRecovery c T e done a.after))
      (hquestion : q.verdict = .heard ch') (hsmall : ch'.buffer.length ≤ ch'.chunkSize) :
      Flushes done ch s [a, q] (.ok ()) ch' q.after
  | resumed {done ch s a e q ch' asks outcome ch'' s''} (ha : a = ask c T .chunk ch s)
      (hchunk : a.verdict = .failed e) (hdone : done < c.config.maxRetries)
      (hq : q = ask c T .question ch (ch.pauseForRecovery c T e done a.after))
      (hquestion : q.verdict = .heard ch') (full : ch'.chunkSize < ch'.buffer.length)
      (hrest : Flushes (done + 1) ch' q.after asks outcome ch'' s'') :
      Flushes done ch s (a :: q :: asks) outcome ch'' s''

/-- The flushes of a write, each with its requests, how the write ends, and what
it leaves. -/
inductive Writes : Channel → Connection σ → List (List (Ask σ)) → Except LoadError Unit →
    Channel → Connection σ → Prop
  | done {ch s} (hle : ch.buffer.length ≤ ch.chunkSize) : Writes ch s [] (.ok ()) ch s
  | failed {ch s asks e ch' s'} (full : ch.chunkSize < ch.buffer.length)
      (hflush : Flushes c T 0 ch s asks (.error e) ch' s') :
      Writes ch s [asks] (.error e) ch' s'
  | flushed {ch s asks ch₁ s₁ flushes outcome ch' s'}
      (full : ch.chunkSize < ch.buffer.length)
      (hflush : Flushes c T 0 ch s asks (.ok ()) ch₁ s₁)
      (less : ch₁.buffer.length < ch.buffer.length)
      (hrest : Writes ch₁ s₁ flushes outcome ch' s') :
      Writes ch s (asks :: flushes) outcome ch' s'

end Rules

variable {c : HttpClient} {T : Transport σ} {ch : Channel} {s : Connection σ}

/-! ### Every flush goes by the rules -/

namespace Channel

theorem askHeld_eq (c : HttpClient) (T : Transport σ) (purpose : Purpose) (ch : Channel)
    (s : Connection σ) :
    askHeld c T (purpose.request ch) purpose.name (purpose.poised T ch s) =
      ((ask c T purpose ch s).held, (ask c T purpose ch s).after) := by
  rw [askHeld, Ask.held, ask]
  cases c.request T (purpose.request ch) (purpose.poised T ch s) with
  | mk result s' =>
      cases result with
      | error e => rfl
      | ok r =>
          simp only [heeded]
          split <;> rfl

theorem putChunk_eq (c : HttpClient) (T : Transport σ) (ch : Channel) (s : Connection σ) :
    ch.putChunk c T s = ((ask c T .chunk ch s).held, (ask c T .chunk ch s).after) :=
  askHeld_eq c T .chunk ch s

theorem queryHeld_eq (c : HttpClient) (T : Transport σ) (ch : Channel) (s : Connection σ) :
    ch.queryHeld c T s = ((ask c T .question ch s).held, (ask c T .question ch s).after) :=
  askHeld_eq c T .question ch s

theorem flushFrom_of_heard (done left : Nat) {ch' : Channel}
    (h : (ask c T .chunk ch s).verdict = .heard ch') :
    flushFrom c T done left ch s = (.ok (), ch', (ask c T .chunk ch s).after) := by
  obtain ⟨n, hheld, hnews, hcommit⟩ := Ask.of_heard h
  have hmore : ¬ n ≤ ch.offset := fun hle => hnews ⟨rfl, hle⟩
  have hchannel : ch.commit n = .ok ch' := hcommit
  cases left <;>
  · rw [flushFrom, putChunk_eq, hheld]
    simp only [if_neg hmore, hchannel]

theorem flushFrom_of_hopeless (done left : Nat) {e : LoadError}
    (h : (ask c T .chunk ch s).verdict = .hopeless e) :
    flushFrom c T done left ch s = (.error e, ch, (ask c T .chunk ch s).after) := by
  rw [Ask.verdict] at h
  split at h
  · next e' hheld =>
      split at h <;> cases h
      next hlasting =>
        have hretry : (!e.isRetryable) = true := by simpa [ask] using hlasting
        cases left <;>
        · rw [flushFrom, putChunk_eq, hheld]
          simp only [hretry, if_true]
  · next n hheld =>
      split at h
      · next hidle =>
          cases h
          have hle : n ≤ ch.offset := hidle.2
          cases left <;>
          · rw [flushFrom, putChunk_eq, hheld]
            simp only [if_pos hle]
            rfl
      · next hnews =>
          have hmore : ¬ n ≤ ch.offset := fun hle => hnews ⟨rfl, hle⟩
          split at h <;> cases h
          next hcommit =>
            have hchannel : ch.commit n = .error e := hcommit
            cases left <;>
            · rw [flushFrom, putChunk_eq, hheld]
              simp only [if_neg hmore, hchannel]

theorem flushFrom_zero_of_failed (done : Nat) {e : LoadError}
    (h : (ask c T .chunk ch s).verdict = .failed e) :
    flushFrom c T done 0 ch s = (.error e, ch, (ask c T .chunk ch s).after) := by
  obtain ⟨-, hheld, hretry⟩ := Ask.of_failed h
  rw [flushFrom, putChunk_eq, hheld]
  simp only [hretry]
  rfl

/-- After a chunk that failed the question decides. -/
theorem flushFrom_succ_of_failed (done left : Nat) {e : LoadError} {q : Ask σ}
    (h : (ask c T .chunk ch s).verdict = .failed e)
    (hq : q = ask c T .question ch
      (ch.pauseForRecovery c T e done (ask c T .chunk ch s).after)) :
    flushFrom c T done (left + 1) ch s =
      match q.verdict with
      | .heard ch' =>
        if ch'.buffer.length ≤ ch'.chunkSize then (.ok (), ch', q.after)
        else flushFrom c T (done + 1) left ch' q.after
      | .hopeless e' | .failed e' => (.error e', ch, q.after) := by
  obtain ⟨-, hheld, hretry⟩ := Ask.of_failed h
  rw [flushFrom, putChunk_eq, hheld]
  simp only [hretry, queryHeld_eq, ← hq]
  cases hverdict : q.verdict with
  | heard ch' =>
      obtain ⟨n, hknown, -, hcommit⟩ := Ask.of_heard hverdict
      have hchannel : ch.commit n = .ok ch' := by rw [← hcommit, hq]; rfl
      simp only [hknown, hchannel]
      rfl
  | failed e' =>
      have hpurpose := (Ask.of_failed hverdict).1
      rw [hq] at hpurpose
      cases hpurpose
  | hopeless e' =>
      have hquestion : ¬ q.purpose = .chunk := by rw [hq]; simp [ask]
      have hchannel : q.channel = ch := by rw [hq]; rfl
      rw [Ask.verdict] at hverdict
      cases hknown : q.held with
      | error e₁ =>
          rw [hknown] at hverdict
          simp only [hquestion, false_and, if_false] at hverdict
          cases hverdict
          rfl
      | ok n =>
          rw [hknown] at hverdict
          simp only [hquestion, false_and, if_false, hchannel] at hverdict
          cases hcommit : ch.commit n with
          | ok ch' =>
              rw [hcommit] at hverdict
              cases hverdict
          | error e₁ =>
              rw [hcommit] at hverdict
              cases hverdict
              simp only [hcommit]
              rfl

end Channel

/-- One of the rules applies to every flush. The induction is on the failures
that are left. -/
theorem exists_flushes (c : HttpClient) (T : Transport σ) (done left : Nat) (ch : Channel)
    (s : Connection σ) (hcount : done + left = c.config.maxRetries) :
    ∃ asks, Flushes c T done ch s asks (Channel.flushFrom c T done left ch s).1
      (Channel.flushFrom c T done left ch s).2.1
      (Channel.flushFrom c T done left ch s).2.2 := by
  induction left generalizing done ch s with
  | zero =>
      cases hchunk : (ask c T .chunk ch s).verdict with
      | heard ch' =>
          rw [Channel.flushFrom_of_heard _ _ hchunk]
          exact ⟨_, .held rfl hchunk⟩
      | hopeless e =>
          rw [Channel.flushFrom_of_hopeless _ _ hchunk]
          exact ⟨_, .hopeless rfl hchunk⟩
      | failed e =>
          rw [Channel.flushFrom_zero_of_failed _ hchunk]
          exact ⟨_, .spent rfl hchunk hcount⟩
  | succ left ih =>
      cases hchunk : (ask c T .chunk ch s).verdict with
      | heard ch' =>
          rw [Channel.flushFrom_of_heard _ _ hchunk]
          exact ⟨_, .held rfl hchunk⟩
      | hopeless e =>
          rw [Channel.flushFrom_of_hopeless _ _ hchunk]
          exact ⟨_, .hopeless rfl hchunk⟩
      | failed e =>
          have hdone : done < c.config.maxRetries := by omega
          rw [Channel.flushFrom_succ_of_failed _ _ hchunk rfl]
          generalize hq : ask c T .question ch _ = q
          cases hquestion : q.verdict with
          | hopeless e' => exact ⟨_, .unanswered rfl hchunk hdone hq.symm hquestion⟩
          | failed e' =>
              subst hq
              cases (Ask.of_failed hquestion).1
          | heard ch' =>
              by_cases hsmall : ch'.buffer.length ≤ ch'.chunkSize
              · simp only [if_pos hsmall]
                exact ⟨_, .caughtUp rfl hchunk hdone hq.symm hquestion hsmall⟩
              · simp only [if_neg hsmall]
                obtain ⟨asks, hrest⟩ := ih (done + 1) ch' q.after (by omega)
                exact ⟨_, .resumed rfl hchunk hdone hq.symm hquestion
                  (Nat.lt_of_not_le hsmall)
                  hrest⟩

/-! ### What the rules say of a flush -/

/-- The ways in which one request of a write follows another: a question after a
chunk that failed, after the wait, and a chunk after an answer that was
believed. -/
inductive Onward (c : HttpClient) (T : Transport σ) : Ask σ → Ask σ → Prop
  | asks {a e} (hfailed : a.verdict = .failed e) (done : Nat)
      (hdone : done < c.config.maxRetries) :
      Onward c T a (ask c T .question a.channel
        (a.channel.pauseForRecovery c T e done a.after))
  | sends {a ch} (hheard : a.verdict = .heard ch) (full : ch.chunkSize < ch.buffer.length) :
      Onward c T a (ask c T .chunk ch a.after)

/-- The last of the requests, and what it came to. -/
def EndsWith (asks : List (Ask σ)) (outcome : Except LoadError Unit) (ch : Channel)
    (s : Connection σ) : Prop :=
  ∃ past a, asks = past ++ [a] ∧ outcome = a.verdict.outcome ∧ s = a.after ∧
    ∀ ch', a.verdict = .heard ch' → ch' = ch

theorem endsWith_of_heard {a : Ask σ} (past : List (Ask σ)) (h : a.verdict = .heard ch) :
    EndsWith (past ++ [a]) (.ok ()) ch a.after := by
  refine ⟨past, a, rfl, by rw [h]; rfl, rfl, fun ch' hheard => ?_⟩
  rw [h] at hheard
  cases hheard
  rfl

theorem endsWith_of_error {a : Ask σ} {e : LoadError} (past : List (Ask σ)) (ch : Channel)
    (h : a.verdict = .hopeless e ∨ a.verdict = .failed e) :
    EndsWith (past ++ [a]) (.error e) ch a.after := by
  refine ⟨past, a, rfl, ?_, rfl, fun ch' hheard => ?_⟩
  · obtain h | h := h <;> rw [h] <;> rfl
  · obtain h | h := h <;> rw [h] at hheard <;> cases hheard

namespace Flushes

variable {done : Nat} {ch' : Channel} {s' : Connection σ} {asks : List (Ask σ)}
  {outcome : Except LoadError Unit}

theorem made (h : Flushes c T done ch s asks outcome ch' s') :
    ∀ a ∈ asks, ∃ purpose ch₁ s₁, a = ask c T purpose ch₁ s₁ := by
  induction h with
  | held ha | hopeless ha | spent ha => exact List.forall_mem_singleton.mpr ⟨_, _, _, ha⟩
  | unanswered ha _ _ hq | caughtUp ha _ _ hq =>
      exact List.forall_mem_cons.mpr ⟨⟨_, _, _, ha⟩,
        List.forall_mem_singleton.mpr ⟨_, _, _, hq⟩⟩
  | resumed ha _ _ hq _ _ _ ih =>
      exact List.forall_mem_cons.mpr ⟨⟨_, _, _, ha⟩,
        List.forall_mem_cons.mpr ⟨⟨_, _, _, hq⟩, ih⟩⟩

theorem countP_ask_cons (kind purpose : Purpose) (ch : Channel) (s : Connection σ)
    (asks : List (Ask σ)) :
    (ask c T purpose ch s :: asks).countP (·.purpose = kind) =
      asks.countP (·.purpose = kind) + if purpose = kind then 1 else 0 := by
  simp [List.countP_cons, ask]

/-- Every failed chunk is followed by one question, and a flush begins with a
chunk. -/
theorem counts (h : Flushes c T done ch s asks outcome ch' s')
    (hdone : done ≤ c.config.maxRetries) :
    asks.countP (·.purpose = .chunk) + done ≤ c.config.maxRetries + 1 ∧
      asks.countP (·.purpose = .question) + done ≤ c.config.maxRetries ∧
      asks.length + 2 * done ≤ 2 * c.config.maxRetries + 1 := by
  induction h with
  | held ha | hopeless ha | spent ha =>
      subst ha
      simp only [countP_ask_cons, List.countP_nil, List.length_cons,
        List.length_nil, if_true, reduceCtorEq, if_false]
      omega
  | unanswered ha _ hless hq | caughtUp ha _ hless hq =>
      subst ha hq
      simp only [countP_ask_cons, List.countP_nil, List.length_cons,
        List.length_nil, if_true, reduceCtorEq, if_false]
      omega
  | resumed ha _ hless hq _ _ _ ih =>
      subst ha hq
      have hrest := ih hless
      simp only [countP_ask_cons, List.length_cons, if_true, reduceCtorEq, if_false]
      omega

theorem head (h : Flushes c T done ch s asks outcome ch' s') :
    asks.head? = some (ask c T .chunk ch s) := by
  cases h with
  | held ha | hopeless ha | spent ha | unanswered ha | caughtUp ha | resumed ha =>
      exact congrArg some ha

theorem endsWith (h : Flushes c T done ch s asks outcome ch' s') :
    EndsWith asks outcome ch' s' := by
  induction h with
  | held ha hchunk => exact endsWith_of_heard [] hchunk
  | hopeless ha hchunk => exact endsWith_of_error [] _ (.inl hchunk)
  | spent ha hchunk hdone => exact endsWith_of_error [] _ (.inr hchunk)
  | unanswered ha hchunk hdone hq hquestion =>
      exact endsWith_of_error [_] _ (.inl hquestion)
  | caughtUp ha hchunk hdone hq hquestion hsmall => exact endsWith_of_heard [_] hquestion
  | resumed ha hchunk hdone hq hquestion full hrest ih =>
      obtain ⟨past, a, rfl, hends⟩ := ih
      exact ⟨_ :: _ :: past, a, rfl, hends⟩

theorem onward (h : Flushes c T done ch s asks outcome ch' s') :
    asks.IsChain (Onward c T) := by
  induction h with
  | held | hopeless | spent => exact .singleton _
  | unanswered ha hchunk hdone hq | caughtUp ha hchunk hdone hq =>
      subst ha hq
      exact List.isChain_pair.mpr (.asks hchunk _ hdone)
  | resumed ha hchunk hdone hq hquestion full hrest ih =>
      subst ha hq
      obtain ⟨rest, rfl⟩ := List.head?_eq_some_iff.mp hrest.head
      exact List.isChain_cons_cons.mpr ⟨.asks hchunk _ hdone,
        List.isChain_cons_cons.mpr ⟨.sends hquestion full, ih⟩⟩

theorem chunkSize_eq (h : Flushes c T done ch s asks outcome ch' s') :
    ch'.chunkSize = ch.chunkSize := by
  induction h with
  | hopeless | spent | unanswered => rfl
  | held ha hheard | caughtUp _ _ _ ha hheard =>
      subst ha
      exact Ask.chunkSize_of_heard hheard
  | resumed _ _ _ hq hheard _ _ ih =>
      subst hq
      exact ih.trans (Ask.chunkSize_of_heard hheard)

end Flushes

/-! ### The flushes of a write -/

theorem exists_writes (c : HttpClient) (T : Transport σ) (ch : Channel) (s : Connection σ) :
    ∃ flushes, Writes c T ch s flushes (Channel.drain c T ch s).1
      (Channel.drain c T ch s).2.1
      (Channel.drain c T ch s).2.2 := by
  fun_induction Channel.drain c T ch s with
  | case1 ch s full ch₁ s₁ hstep ih =>
      obtain ⟨asks, hflush⟩ :=
        exists_flushes c T 0 c.config.maxRetries ch s (Nat.zero_add _)
      obtain ⟨flushes, hrest⟩ := ih
      rw [show Channel.flushFrom c T 0 c.config.maxRetries ch s = _ from hstep] at hflush
      exact ⟨asks :: flushes,
        .flushed full hflush (Channel.length_lt_of_flush hstep full) hrest⟩
  | case2 ch s full e ch₁ s₁ hstep =>
      obtain ⟨asks, hflush⟩ :=
        exists_flushes c T 0 c.config.maxRetries ch s (Nat.zero_add _)
      rw [show Channel.flushFrom c T 0 c.config.maxRetries ch s = _ from hstep] at hflush
      exact ⟨[asks], .failed full hflush⟩
  | case3 ch s full => exact ⟨[], .done (Nat.le_of_not_lt full)⟩

namespace Writes

variable {ch' : Channel} {s' : Connection σ} {flushes : List (List (Ask σ))}
  {outcome : Except LoadError Unit}

/-- A flush that goes well leaves less to send, and none is begun with nothing to
send. -/
theorem asks_le (h : Writes c T ch s flushes outcome ch' s') :
    flushes.flatten.length ≤
      (ch.buffer.length - ch.chunkSize) * (2 * c.config.maxRetries + 1) := by
  induction h with
  | done hle => exact Nat.zero_le _
  | @failed ch s asks e ch' s' full hflush =>
      obtain ⟨-, -, hasks⟩ := hflush.counts (Nat.zero_le _)
      rw [List.flatten_singleton]
      calc asks.length
          ≤ 1 * (2 * c.config.maxRetries + 1) := by omega
        _ ≤ (ch.buffer.length - ch.chunkSize) * (2 * c.config.maxRetries + 1) :=
            Nat.mul_le_mul_right _ (by omega)
  | @flushed ch s asks ch₁ s₁ flushes outcome ch' s' full hflush less hrest ih =>
      obtain ⟨-, -, hasks⟩ := hflush.counts (Nat.zero_le _)
      rw [hflush.chunkSize_eq] at ih
      rw [List.flatten_cons, List.length_append]
      calc asks.length + flushes.flatten.length
          ≤ (1 + (ch₁.buffer.length - ch.chunkSize)) * (2 * c.config.maxRetries + 1) := by
            rw [Nat.add_mul]
            omega
        _ ≤ (ch.buffer.length - ch.chunkSize) * (2 * c.config.maxRetries + 1) :=
            Nat.mul_le_mul_right _ (by omega)

theorem flush (h : Writes c T ch s flushes outcome ch' s') :
    ∀ asks ∈ flushes, ∃ ch₁ s₁ outcome₁ ch₂ s₂, Flushes c T 0 ch₁ s₁ asks
      outcome₁ ch₂ s₂ := by
  induction h with
  | done hle => intro asks hmem; cases hmem
  | failed full hflush => exact List.forall_mem_singleton.mpr ⟨_, _, _, _, _, hflush⟩
  | flushed full hflush less hrest ih =>
      exact List.forall_mem_cons.mpr ⟨⟨_, _, _, _, _, hflush⟩, ih⟩

theorem made (h : Writes c T ch s flushes outcome ch' s') :
    ∀ a ∈ flushes.flatten, ∃ purpose ch₁ s₁, a = ask c T purpose ch₁ s₁ := by
  intro a ha
  obtain ⟨asks, hasks, hmem⟩ := List.mem_flatten.mp ha
  obtain ⟨_, _, _, _, _, hflush⟩ := h.flush asks hasks
  exact hflush.made a hmem

theorem head (h : Writes c T ch s flushes outcome ch' s') :
    ∀ a, flushes.flatten.head? = some a →
      ch.chunkSize < ch.buffer.length ∧ a = ask c T .chunk ch s := by
  intro a ha
  cases h with
  | done hle => cases ha
  | failed full hflush | flushed full hflush less hrest =>
      rw [List.flatten_cons, List.head?_append, hflush.head] at ha
      cases ha
      exact ⟨full, rfl⟩

theorem onward (h : Writes c T ch s flushes outcome ch' s') :
    flushes.flatten.IsChain (Onward c T) := by
  induction h with
  | done hle => exact .nil
  | failed full hflush =>
      rw [List.flatten_singleton]
      exact hflush.onward
  | flushed full hflush less hrest ih =>
      rw [List.flatten_cons]
      refine List.isChain_append.mpr ⟨hflush.onward, ih, fun a ha b hb => ?_⟩
      obtain ⟨past, a', rfl, houtcome, rfl, hchannel⟩ := hflush.endsWith
      obtain rfl : a = a' := by simpa using ha.symm
      obtain ⟨hfull, rfl⟩ := hrest.head b hb
      cases hverdict : a.verdict with
      | heard ch₁ =>
          obtain rfl := hchannel ch₁ hverdict
          exact .sends hverdict hfull
      | failed e | hopeless e =>
          rw [hverdict] at houtcome
          cases houtcome

/-- A write that makes requests ends as the last of them says. -/
theorem endsWith (h : Writes c T ch s flushes outcome ch' s') :
    (flushes.flatten = [] ∧ outcome = .ok () ∧ ch' = ch ∧ s' = s) ∨
      EndsWith flushes.flatten outcome ch' s' := by
  induction h with
  | done hle => exact .inl ⟨rfl, rfl, rfl, rfl⟩
  | failed full hflush =>
      rw [List.flatten_singleton]
      exact .inr hflush.endsWith
  | @flushed _ _ asks _ _ _ _ _ _ full hflush less hrest ih =>
      rw [List.flatten_cons]
      obtain ⟨hnone, rfl, rfl, rfl⟩ | ⟨past, a, hpast, hends⟩ := ih
      · rw [hnone, List.append_nil]
        exact .inr hflush.endsWith
      · exact .inr ⟨asks ++ past, a, by rw [hpast, List.append_assoc], hends⟩

/-- A request without hope is the last, and the write ends with its error. -/
theorem of_hopeless (h : Writes c T ch s flushes outcome ch' s') {past later : List (Ask σ)}
    {a : Ask σ} {e : LoadError} (hasks : flushes.flatten = past ++ a :: later)
    (hverdict : a.verdict = .hopeless e) : later = [] ∧ outcome = .error e := by
  have hchain := h.onward
  rw [hasks] at hchain
  cases later with
  | cons b later =>
      have hnext := (List.isChain_append.mp hchain).2.1
      cases (List.isChain_cons_cons.mp hnext).1 with
      | asks hfailed => cases hverdict.symm.trans hfailed
      | sends hheard => cases hverdict.symm.trans hheard
  | nil =>
      obtain ⟨hnone, -⟩ | ⟨before, last, hlast, houtcome, -⟩ := h.endsWith
      · rw [hasks] at hnone
        simp at hnone
      · obtain ⟨-, heq⟩ := List.append_inj' (hasks.symm.trans hlast) rfl
        cases heq
        rw [houtcome, hverdict]
        exact ⟨rfl, rfl⟩

end Writes

/-- Between a chunk that failed and the next chunk lies one question, and its
answer says where the next chunk begins. -/
theorem recovered_of_isChain {past between later : List (Ask σ)} {a b : Ask σ}
    {e : LoadError} (hchain : (past ++ a :: (between ++ b :: later)).IsChain (Onward c T))
    (hfailed : a.result = .error e) (hchunk : b.purpose = .chunk)
    (hbetween : ∀ q ∈ between, q.purpose ≠ .chunk) :
    ∃ q r, between = [q] ∧ q.purpose = .question ∧ q.channel = a.channel ∧
      q.result = .ok r ∧
      r.status = incomplete ∧ b.channel.offset = Channel.heldBy r := by
  have hunheard {ch : Channel} : a.verdict ≠ .heard ch := by
    intro hheard
    obtain ⟨n, hheld, -⟩ := Ask.of_heard hheard
    obtain ⟨r, hok, -⟩ := Ask.held_eq_ok_iff.mp hheld
    rw [hfailed] at hok
    cases hok
  have hnext := (List.isChain_append.mp hchain).2.1
  cases between with
  | nil =>
      cases (List.isChain_cons_cons.mp hnext).1 with
      | asks => cases hchunk
      | sends hheard => exact absurd hheard hunheard
  | cons q between =>
      obtain ⟨hfirst, hrest⟩ := List.isChain_cons_cons.mp hnext
      cases hfirst with
      | sends hheard => exact absurd hheard hunheard
      | asks _ done hdone =>
          cases between with
          | nil =>
              cases (List.isChain_cons_cons.mp hrest).1 with
              | asks hagain => cases (Ask.of_failed hagain).1
              | sends hheard full =>
                  obtain ⟨n, hheld, -, hcommit⟩ := Ask.of_heard hheard
                  obtain ⟨r, hanswer, hstatus, rfl⟩ := Ask.held_eq_ok_iff.mp hheld
                  obtain ⟨-, -, rfl⟩ := Channel.of_commit hcommit
                  exact ⟨_, r, rfl, rfl, rfl, hanswer, hstatus, rfl⟩
          | cons x between =>
              cases (List.isChain_cons_cons.mp hrest).1 with
              | asks hagain => cases (Ask.of_failed hagain).1
              | sends =>
                  exact absurd rfl (hbetween _ (List.mem_cons_of_mem _ List.mem_cons_self))

/-! ### What a write puts on the wire -/

namespace Ask

/-- What the request is on the wire: a chunk says where it begins, and a question
carries nothing. -/
def Sends (a : Ask σ) (wire : WireRequest) : Prop :=
  match a.purpose with
  | .chunk =>
    ContentRange.ofWire? wire = some ⟨some a.channel.offset, none⟩ ∧
      wire.body = a.channel.buffer.take a.channel.chunkSize
  | .question => ContentRange.ofWire? wire = some ⟨none, none⟩ ∧ wire.body = []

/-- The trials of a request of a write: what it came to is what they came to, a
chunk has one, and a question has as many retries as the client. -/
structure Tried (c : HttpClient) (T : Transport σ) (a : Ask σ) (trials : List (Trial σ))
    (last : Trial σ) : Prop where
  tried : c.Trials T (a.purpose.request a.channel) 0 a.before trials last
  result : a.result =
    last.ending.outcome (c.timeoutOf (a.purpose.request a.channel))
  after : a.after = heeded T a.result last.after
  few : trials.length ≤ a.purpose.retries c + 1
  sends : ∀ t ∈ trials, ∀ wire, t.ending.wire? = some wire → a.Sends wire

end Ask

theorem exists_tried (c : HttpClient) (T : Transport σ) (purpose : Purpose) (ch : Channel)
    (s : Connection σ) : ∃ trials last, (ask c T purpose ch s).Tried c T trials last := by
  obtain ⟨trials, last, htrials, hrun⟩ :=
    c.exists_trials T (purpose.request ch) 0 _ (purpose.poised T ch s) (Nat.zero_add _)
  have hresult : c.request T (purpose.request ch) (purpose.poised T ch s) = _ := hrun
  refine ⟨trials, last, htrials, by rw [ask, hresult], by rw [ask, hresult], ?_, ?_⟩
  · cases purpose <;> exact htrials.numbers.2
  · intro t ht wire hwire
    obtain ⟨authorization, hsent⟩ := htrials.sent ht hwire
    cases purpose with
    | chunk => exact Channel.sends_chunk ⟨authorization, hsent⟩
    | question => exact Channel.sends_query ⟨authorization, hsent⟩

theorem Channel.heldBy_of_absent {r : Response} (h : r.header? "range" = none) :
    heldBy r = 0 := by
  rw [heldBy, h]
  rfl

/-- The requests of a write, whatever the server does. There are finitely many,
since a flush that goes well leaves less in the buffer, and a flush makes no more
of either kind than the retries allow. One without hope is the last, and the
write fails with it. A chunk that failed is followed by a question, and the next
chunk begins at the byte that the answer says, or at the first if it does not
say. -/
theorem write_recovers (c : HttpClient) (T : Transport σ) (ch : Channel) (data : Bytes)
    (s : Connection σ) :
    ∃ (flushes : List (List (Ask σ))) (outcome : Except LoadError Unit) (ch' : Channel)
      (s' : Connection σ),
      Writes c T { ch with buffer := ch.buffer ++ data } s flushes outcome ch' s' ∧
      ch.write c T data s = (outcome.map fun _ => data.length, ch', s') ∧
      flushes.flatten.length ≤
        ((ch.buffer ++ data).length - ch.chunkSize) * (2 * c.config.maxRetries + 1) ∧
      (∀ asks ∈ flushes, asks.countP (·.purpose = .chunk) ≤ c.config.maxRetries + 1 ∧
        asks.countP (·.purpose = .question) ≤ c.config.maxRetries) ∧
      (∀ (ch₁ ch₂ : Channel) (s₁ s₂ : Connection σ), ch₁.chunkSize < ch₁.buffer.length →
        ch₁.flush c T s₁ = (.ok (), ch₂, s₂) → ch₂.buffer.length < ch₁.buffer.length) ∧
      (∀ a ∈ flushes.flatten, ∃ trials last, a.Tried c T trials last) ∧
      (∀ (past later : List (Ask σ)) (a : Ask σ), flushes.flatten = past ++ a :: later →
        a.Hopeless → later = [] ∧ ∃ e, outcome = .error e) ∧
      (∀ (past between later : List (Ask σ)) (a b : Ask σ) (e : LoadError),
        flushes.flatten = past ++ a :: (between ++ b :: later) →
        a.purpose = .chunk → a.result = .error e → b.purpose = .chunk →
        (∀ q ∈ between, q.purpose ≠ .chunk) →
        ∃ q r, between = [q] ∧ q.purpose = .question ∧ q.channel = a.channel ∧
          q.result = .ok r ∧ r.status = incomplete ∧ b.channel.offset = Channel.heldBy r) ∧
      ∀ r : Response, (r.header? "range" = none → Channel.heldBy r = 0) ∧
        ∀ n < UInt64.size, r.header? "range" = acknowledgement n →
          Channel.heldBy r = n := by
  obtain ⟨flushes, hwrites⟩ := exists_writes c T { ch with buffer := ch.buffer ++ data } s
  refine ⟨flushes, _, _, _, hwrites, ?_, hwrites.asks_le, ?_, ?_, ?_, ?_, ?_, ?_⟩
  · rw [Channel.write]
    split
    · next hdrain => rw [hdrain]; rfl
    · next hdrain => rw [hdrain]; rfl
  · intro asks hasks
    obtain ⟨_, _, _, _, _, hflush⟩ := hwrites.flush asks hasks
    obtain ⟨hchunks, hquestions, -⟩ := hflush.counts (Nat.zero_le _)
    exact ⟨hchunks, hquestions⟩
  · intro ch₁ ch₂ s₁ s₂ full hflush
    exact Channel.length_lt_of_flush hflush full
  · intro a ha
    obtain ⟨purpose, ch₁, s₁, rfl⟩ := hwrites.made a ha
    exact exists_tried c T purpose ch₁ s₁
  · intro past later a hasks hopeless
    obtain ⟨e, hverdict⟩ := hopeless.verdict
    obtain ⟨hlast, houtcome⟩ := hwrites.of_hopeless hasks hverdict
    exact ⟨hlast, e, houtcome⟩
  · intro past between later a b e hasks _ hfailed hchunk hbetween
    have hchain := hwrites.onward
    rw [hasks] at hchain
    exact recovered_of_isChain hchain hfailed hchunk hbetween
  · intro r
    refine ⟨Channel.heldBy_of_absent, fun n hn hrange => ?_⟩
    rw [heldBy_of_acknowledged hrange, if_pos hn]

end WarehouseLoader.Upload
