import WarehouseLoader.Http.Client
import WarehouseLoader.LoadJob.Job
import WarehouseLoader.Upload.Range

/-!
# Resumable upload

A channel carries a payload to an upload session in chunks. It holds the bytes
that the server has not said it holds, and the position in the payload at which
they begin. A full chunk goes out as soon as more data follows it; what remains
at the end goes out together with the total length, so that the server knows the
payload is complete.

A chunk is never sent again blindly. When sending one fails in a passing way the
session is asked how far it got, the bytes up to there are dropped, and only
what is left goes out. A server that says it holds less than it said before, or
more than there is, is not believed.

Writing ends because each flush that succeeds leaves less in the buffer
(`Channel.length_lt_of_flush`).
-/

namespace WarehouseLoader.Upload

open Auth Http

/-- The status by which a server says that it stored a part and waits for
more. -/
def incomplete : Nat := 308

def octetStream : String := "application/octet-stream"

structure Channel where
  sessionUrl : String
  chunkSize : Nat
  buffer : Bytes
  /-- How many bytes of the payload the server holds. -/
  offset : Nat
  deriving DecidableEq

namespace Channel

variable {σ : Type}

def new (sessionUrl : String) (chunkSize : Nat) : Channel :=
  ⟨sessionUrl, chunkSize, [], 0⟩

/-- The position after the last byte in the buffer. -/
def bufferedEnd (ch : Channel) : Nat := ch.offset + ch.buffer.length

/-- Drops the bytes that the server holds. -/
def commit (ch : Channel) (held : Nat) : Except LoadError Channel :=
  if held < ch.offset ∨ ch.bufferedEnd < held then
    .error (.upload
      s!"server reports {held} bytes committed, expected {ch.offset}..={ch.bufferedEnd}")
  else
    .ok { ch with buffer := ch.buffer.drop (held - ch.offset), offset := held }

def chunkRequest (ch : Channel) : Request :=
  let chunk := ch.buffer.take ch.chunkSize
  (((Request.new "PUT" ch.sessionUrl).withHeader "Content-Range"
    (chunkRange ch.offset chunk.length)).withBytes chunk octetStream).withRetries 0

def queryRequest (ch : Channel) : Request :=
  ((Request.new "PUT" ch.sessionUrl).withHeader "Content-Range" queryRange).withBytes []
    octetStream

def finalRequest (ch : Channel) : Request :=
  ((Request.new "PUT" ch.sessionUrl).withHeader "Content-Range"
    (finalRange ch.offset ch.buffer.length)).withBytes ch.buffer octetStream

/-- How many bytes an answer says the server holds; none if it does not say. -/
def heldBy (r : Response) : Nat := ((r.header? "range").bind heldBytes?).getD 0

/-- The answer names the last position there is, and no number counts the bytes
up to it. -/
def NamesLast (r : Response) : Prop :=
  (r.header? "range").bind lastByte? = some (UInt64.size - 1)

instance (r : Response) : Decidable (NamesLast r) := inferInstanceAs (Decidable (_ = _))

/-- The connection once an answer was read for the number of bytes held. -/
def heed (T : Transport σ) (r : Response) (s : Connection σ) : Connection σ :=
  if NamesLast r then s.mapWorld T.halt else s

/-- Sends a request that has to be answered by "incomplete", and gives the
number of bytes held. -/
def askHeld (c : HttpClient) (T : Transport σ) (r : Request) (purpose : String)
    (s : Connection σ) : Except LoadError Nat × Connection σ :=
  match c.request T r s with
  | (.error e, s) => (.error e, s)
  | (.ok response, s) =>
    if response.status = incomplete then (.ok (heldBy response), heed T response s)
    else (.error (.upload s!"expected 308 for {purpose}, got {response.status}"), s)

/-- The connection once the range of the next chunk was worked out, which breaks
off over a chunk of nothing at the start. -/
def poised (ch : Channel) (T : Transport σ) (s : Connection σ) : Connection σ :=
  if ch.offset + (ch.buffer.take ch.chunkSize).length = 0 then s.mapWorld T.halt else s

/-- Sends the next chunk once. -/
def putChunk (ch : Channel) (c : HttpClient) (T : Transport σ) (s : Connection σ) :
    Except LoadError Nat × Connection σ :=
  askHeld c T ch.chunkRequest "intermediate chunk" (ch.poised T s)

/-- Asks how many bytes the session holds. -/
def queryHeld (ch : Channel) (c : HttpClient) (T : Transport σ) (s : Connection σ) :
    Except LoadError Nat × Connection σ :=
  askHeld c T ch.queryRequest "upload status" s

def recoveryNotice (ch : Channel) (e : LoadError) (attempt maxRetries delay : Nat) :
    Except LoadError String :=
  (HttpClient.attemptLimit maxRetries).map fun limit =>
    let shown := Text.duration delay
    let trouble :=
      s!"Chunk at byte {ch.offset} failed ({e.message}), attempt {attempt}/{limit}"
    trouble ++ ", recovering in " ++ shown

/-- Waits before asking the session how far it got. -/
def pauseForRecovery (ch : Channel) (c : HttpClient) (T : Transport σ) (e : LoadError)
    (done : Nat) (s : Connection σ) : Connection σ :=
  let delay := c.config.backoff done
  s.mapWorld fun w =>
    T.pause delay (T.warn (ch.recoveryNotice e (done + 1) c.config.maxRetries delay) w)

/-- Sends the next chunk until the server holds more than before or there is no
hope. `done` attempts have failed and `left` may still fail. -/
def flushFrom (c : HttpClient) (T : Transport σ) (done left : Nat) (ch : Channel)
    (s : Connection σ) : Except LoadError Unit × Channel × Connection σ :=
  match ch.putChunk c T s with
  | (.ok held, s) =>
    if held ≤ ch.offset then
      (.error (.upload s!"server made no progress past byte {ch.offset}"), ch, s)
    else
      match ch.commit held with
      | .ok ch => (.ok (), ch, s)
      | .error e => (.error e, ch, s)
  | (.error e, s) =>
    if !e.isRetryable then (.error e, ch, s) else
    match left with
    | 0 => (.error e, ch, s)
    | left + 1 =>
      match ch.queryHeld c T (ch.pauseForRecovery c T e done s) with
      | (.error e, s) => (.error e, ch, s)
      | (.ok held, s) =>
        match ch.commit held with
        | .error e => (.error e, ch, s)
        | .ok ch =>
          if ch.buffer.length ≤ ch.chunkSize then (.ok (), ch, s)
          else flushFrom c T (done + 1) left ch s

def flush (ch : Channel) (c : HttpClient) (T : Transport σ) (s : Connection σ) :
    Except LoadError Unit × Channel × Connection σ :=
  flushFrom c T 0 c.config.maxRetries ch s

theorem length_le_of_commit {ch ch' : Channel} {held : Nat}
    (h : ch.commit held = .ok ch') :
    ch'.buffer.length = ch.buffer.length - (held - ch.offset) ∧
      ch'.chunkSize = ch.chunkSize := by
  rw [commit] at h
  split at h
  · cases h
  · cases h
    simp

theorem length_lt_of_commit {ch ch' : Channel} {held : Nat}
    (h : ch.commit held = .ok ch') (more : ch.offset < held) :
    ch'.buffer.length < ch.buffer.length := by
  rw [commit] at h
  split at h
  · cases h
  · next bounds =>
    cases h
    simp only [bufferedEnd, List.length_drop] at bounds ⊢
    omega

theorem length_lt_of_flushFrom {c : HttpClient} {T : Transport σ} {done left : Nat}
    {ch ch' : Channel} {s s' : Connection σ}
    (h : flushFrom c T done left ch s = (.ok (), ch', s'))
    (full : ch.chunkSize < ch.buffer.length) : ch'.buffer.length < ch.buffer.length := by
  induction left generalizing done ch s with
  | zero =>
    rw [flushFrom] at h
    split at h
    · split at h
      · cases h
      · split at h
        · next more _ _ eq =>
          cases h
          exact length_lt_of_commit eq (by omega)
        · cases h
    · split at h <;> cases h
  | succ left ih =>
    rw [flushFrom] at h
    split at h
    · split at h
      · cases h
      · split at h
        · next more _ _ eq =>
          cases h
          exact length_lt_of_commit eq (by omega)
        · cases h
    · split at h
      · cases h
      · simp only at h
        split at h
        · cases h
        · split at h
          · cases h
          · next ch₁ eq =>
            obtain ⟨len, size⟩ := length_le_of_commit eq
            split at h
            · next small =>
              cases h
              omega
            · next large =>
              have := ih h (by omega)
              omega

theorem length_lt_of_flush {c : HttpClient} {T : Transport σ} {ch ch' : Channel}
    {s s' : Connection σ} (h : ch.flush c T s = (.ok (), ch', s'))
    (full : ch.chunkSize < ch.buffer.length) : ch'.buffer.length < ch.buffer.length :=
  length_lt_of_flushFrom h full

set_option linter.unusedVariables false in
/-- Sends chunks as long as more than one chunk is held back. -/
def drain (c : HttpClient) (T : Transport σ) (ch : Channel) (s : Connection σ) :
    Except LoadError Unit × Channel × Connection σ :=
  if full : ch.chunkSize < ch.buffer.length then
    match step : ch.flush c T s with
    | (.ok (), ch', s') => drain c T ch' s'
    | (.error e, ch', s') => (.error e, ch', s')
  else
    (.ok (), ch, s)
termination_by ch.buffer.length
decreasing_by exact length_lt_of_flush step full

/-- Takes more of the payload and gives its length. What is taken stays in the
channel even if sending it fails. -/
def write (ch : Channel) (c : HttpClient) (T : Transport σ) (data : Bytes)
    (s : Connection σ) : Except LoadError Nat × Channel × Connection σ :=
  match drain c T { ch with buffer := ch.buffer ++ data } s with
  | (.ok (), ch, s) => (.ok data.length, ch, s)
  | (.error e, ch, s) => (.error e, ch, s)

/-- Sends what remains, with the total, and gives the job that the server made
of the payload. -/
def close (ch : Channel) (c : HttpClient) (T : Transport σ) (s : Connection σ) :
    Except LoadError Job × Connection σ :=
  match c.request T ch.finalRequest s with
  | (.error e, s) => (.error e, s)
  | (.ok response, s) =>
    if response.status = incomplete then
      (.error (.upload s!"upload incomplete after {ch.bufferedEnd} bytes"), s)
    else
      (response.read Job.read, s)

end Channel

end WarehouseLoader.Upload
