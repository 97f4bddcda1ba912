import Mathlib.Algebra.Group.Nat.Defs
import WarehouseLoader.Proofs.Http.Checked
import WarehouseLoader.Proofs.Upload.Flush

/-!
# Positions that have to fit

An upload does its sums with positions in the payload, and it is written down
here once more with all of them checked. Not one sum of its own goes wrong if it
sends chunks of something. That the offset and the buffer together are the
payload so far (`Fits`) keeps the end of a chunk, the end of the buffer and the
total in 64 bits, and a number to be dropped is only worked out after it was
compared with what there is.

What is left are the places where the numbers come from outside (`Stops`): the
retries, which the settings give, the last byte that a server names, and the
time of a token. An upload breaks the program off at these places, and nowhere
else.
-/

namespace WarehouseLoader.Upload

open Auth Http

variable {σ : Type}

/-- The server names the last position there is, after which none can be
counted. -/
def TellsLast (T : Transport σ) : Prop :=
  ∃ wire timeout w r, (T.exchange wire timeout w).1 = .answered r ∧ Channel.NamesLast r

namespace Channel

variable {c : HttpClient} {T : Transport σ} {halted : σ → Prop} {ch ch' : Channel}
  {s : Connection σ} {stops : Place → Prop} {before : Prop} {payload : Bytes}
  {chunkSize held : Nat}

/-! ### The upload with its numbers checked -/

def checkedHeldBy (r : Response) : Except Place Nat :=
  match (r.header? "range").bind lastByte? with
  | none => .ok 0
  | some last => fit .heldCount (last + 1 : Nat)

def checkedCommit (ch : Channel) (held : Nat) :
    Except Place (Except LoadError Channel) := do
  let stop ← fit .bufferedEnd (ch.offset + ch.buffer.length : Nat)
  if held < ch.offset ∨ stop < held then
    return .error (.upload
      s!"server reports {held} bytes committed, expected {ch.offset}..={stop}")
  else
    let accepted ← fit .accepted ((held : Int) - ch.offset)
    return .ok { ch with buffer := ch.buffer.drop accepted, offset := held }

def checkedChunkRequest (ch : Channel) : Except Place Request := do
  let chunk := ch.buffer.take ch.chunkSize
  let stop ← fit .chunkEnd (ch.offset + chunk.length : Nat)
  let last ← fit .chunkLast ((stop : Int) - (1 : Nat))
  return (((Request.new "PUT" ch.sessionUrl).withHeader "Content-Range"
    s!"bytes {ch.offset}-{last}/*").withBytes chunk octetStream).withRetries 0

def checkedFinalRequest (ch : Channel) (total : Nat) : Except Place Request := do
  let range ←
    if ch.buffer.length = 0 then
      pure s!"bytes */{total}"
    else do
      let last ← fit .totalLast ((total : Int) - (1 : Nat))
      pure s!"bytes {ch.offset}-{last}/{total}"
  return ((Request.new "PUT" ch.sessionUrl).withHeader "Content-Range" range).withBytes
    ch.buffer octetStream

def checkedAskHeld (c : HttpClient) (T : Transport σ) (r : Request) (purpose : String)
    (s : Connection σ) : Except Place (Except LoadError Nat × Connection σ) := do
  match ← c.checkedRequest T r s with
  | (.error e, s) => return (.error e, s)
  | (.ok response, s) =>
    if response.status = incomplete then
      return (.ok (← checkedHeldBy response), s)
    else
      return (.error (.upload s!"expected 308 for {purpose}, got {response.status}"), s)

def checkedPutChunk (ch : Channel) (c : HttpClient) (T : Transport σ) (s : Connection σ) :
    Except Place (Except LoadError Nat × Connection σ) := do
  let chunk ← ch.checkedChunkRequest
  checkedAskHeld c T chunk "intermediate chunk" s

def checkedQueryHeld (ch : Channel) (c : HttpClient) (T : Transport σ) (s : Connection σ) :
    Except Place (Except LoadError Nat × Connection σ) :=
  checkedAskHeld c T ch.queryRequest "upload status" s

def checkedPauseForRecovery (ch : Channel) (c : HttpClient) (T : Transport σ)
    (e : LoadError)
    (done : Nat) (s : Connection σ) : Except Place (Nat × Connection σ) := do
  let delay := c.config.backoff done
  let attempt ← fit .attempt (done + 1 : Nat)
  let notice limit :=
    let shown := Text.duration delay
    let trouble :=
      s!"Chunk at byte {ch.offset} failed ({e.message}), attempt {attempt}/{limit}"
    trouble ++ ", recovering in " ++ shown
  return (attempt, ← HttpClient.checkedWarn T notice c.config.maxRetries delay s)

def checkedFlushFrom (c : HttpClient) (T : Transport σ) (done left : Nat) (ch : Channel)
    (s : Connection σ) : Except Place (Except LoadError Unit × Channel × Connection σ) := do
  match ← ch.checkedPutChunk c T s with
  | (.ok held, s) =>
    if held ≤ ch.offset then
      return (.error (.upload s!"server made no progress past byte {ch.offset}"), ch, s)
    else
      match ← ch.checkedCommit held with
      | .ok ch => return (.ok (), ch, s)
      | .error e => return (.error e, ch, s)
  | (.error e, s) =>
    if !e.isRetryable then return (.error e, ch, s) else
    match left with
    | 0 => return (.error e, ch, s)
    | left + 1 =>
      let (attempt, s) ← ch.checkedPauseForRecovery c T e done s
      match ← ch.checkedQueryHeld c T s with
      | (.error e, s) => return (.error e, ch, s)
      | (.ok held, s) =>
        match ← ch.checkedCommit held with
        | .error e => return (.error e, ch, s)
        | .ok ch =>
          if ch.buffer.length ≤ ch.chunkSize then return (.ok (), ch, s)
          else checkedFlushFrom c T attempt left ch s

/-- As many flushes as there are bytes in the buffer are enough, since each that
succeeds leaves less of them (`agrees_drain`). -/
def checkedDrain (c : HttpClient) (T : Transport σ) :
    Nat → Channel → Connection σ →
      Except Place (Except LoadError Unit × Channel × Connection σ)
  | 0, ch, s => return (.ok (), ch, s)
  | flushes + 1, ch, s =>
    if ch.chunkSize < ch.buffer.length then do
      match ← checkedFlushFrom c T 0 c.config.maxRetries ch s with
      | (.ok (), ch, s) => checkedDrain c T flushes ch s
      | (.error e, ch, s) => return (.error e, ch, s)
    else
      return (.ok (), ch, s)

def checkedWrite (ch : Channel) (c : HttpClient) (T : Transport σ) (data : Bytes)
    (s : Connection σ) : Except Place (Except LoadError Nat × Channel × Connection σ) := do
  let ch := { ch with buffer := ch.buffer ++ data }
  match ← checkedDrain c T ch.buffer.length ch s with
  | (.ok (), ch, s) => return (.ok data.length, ch, s)
  | (.error e, ch, s) => return (.error e, ch, s)

def checkedWriteAll (c : HttpClient) (T : Transport σ) :
    List Bytes → Channel → Connection σ → Except Place (Channel × Connection σ)
  | [], ch, s => return (ch, s)
  | data :: rest, ch, s => do
    let (_, ch, s) ← ch.checkedWrite c T data s
    checkedWriteAll c T rest ch s

def checkedClose (ch : Channel) (c : HttpClient) (T : Transport σ) (s : Connection σ) :
    Except Place (Except LoadError Job × Connection σ) := do
  let total ← fit .total (ch.offset + ch.buffer.length : Nat)
  let final ← ch.checkedFinalRequest total
  match ← c.checkedRequest T final s with
  | (.error e, s) => return (.error e, s)
  | (.ok response, s) =>
    if response.status = incomplete then
      return (.error (.upload s!"upload incomplete after {total} bytes"), s)
    else
      return (response.read Job.read, s)

def checkedUpload (c : HttpClient) (T : Transport σ) (parts : List Bytes) (ch : Channel)
    (s : Connection σ) : Except Place (Except LoadError Job × Connection σ) := do
  let (ch, s) ← checkedWriteAll c T parts ch s
  ch.checkedClose c T s

/-! ### Sums that fit -/

/-- A channel whose sums fit: 64 bits reach to the end of the payload so far. -/
structure Fits (chunkSize : Nat) (payload : Bytes) (ch : Channel) : Prop where
  buffered : Buffered payload ch
  chunks : ch.chunkSize = chunkSize
  bounded : payload.length < UInt64.size

theorem Fits.bufferedEnd_lt (h : Fits chunkSize payload ch) :
    ch.bufferedEnd < UInt64.size := by
  rw [h.buffered.bufferedEnd]
  exact h.bounded

theorem Fits.credit (h : Fits chunkSize payload ch) (held : Nat) :
    Fits chunkSize payload (ch.credit held) where
  buffered := h.buffered.credit held
  chunks := (fixed_credit ch held).1.trans h.chunks
  bounded := h.bounded

theorem Fits.commit (h : Fits chunkSize payload ch) (hcommit : ch.commit held = .ok ch') :
    Fits chunkSize payload ch' := by
  rw [← credit_of_commit hcommit]
  exact h.credit held

theorem Fits.told (h : Fits chunkSize payload ch) (a : Response) :
    Fits chunkSize payload (ch.told a) := by
  rw [Channel.told]
  split
  · exact h.credit _
  · exact h

theorem Fits.more (h : Fits chunkSize payload ch) {data : Bytes}
    (hbounded : (payload ++ data).length < UInt64.size) :
    Fits chunkSize (payload ++ data) { ch with buffer := ch.buffer ++ data } :=
  ⟨h.buffered.more data, h.chunks, hbounded⟩

theorem fits_carries (c : HttpClient) (T : Transport σ) (chunkSize : Nat)
    (payload : Bytes) :
    Carries c T fun ch _ => Fits chunkSize payload ch where
  keeps _ := ⟨id, id, id, fun _ _ => id⟩
  chunk _ := HttpClient.establishes_of_kept fun _ _ _ _ h => ⟨h, fun a _ _ => h.told a⟩
  query _ := HttpClient.establishes_of_kept fun _ _ _ _ h => ⟨h, fun a _ _ => h.told a⟩

theorem lastPosition_eq {start length : Nat} (hnonempty : 0 < start + length)
    (hbound : start + length < UInt64.size) :
    lastPosition start length = start + length - 1 := by
  rw [lastPosition, wrap64,
    show start + length + (UInt64.size - 1) = start + length - 1 + UInt64.size by omega,
    Nat.add_mod_right, Nat.mod_eq_of_lt (by omega)]

theorem agrees_commit (h : Fits chunkSize payload ch) :
    Agrees stops before (ch.checkedCommit held) (ch.commit held) before := by
  have hend : ch.bufferedEnd < Place.bufferedEnd.size := h.bufferedEnd_lt
  refine (agrees_fit hend).bind ?_
  rw [commit]
  split
  · exact .ok _ _ _
  · have hheld : held < Place.accepted.size := by
      simp only [Place.size] at hend ⊢
      omega
    exact (agrees_fit_sub (by omega) hheld).bind (.ok _ _ _)

theorem chunkEnd_lt (h : Fits chunkSize payload ch) :
    ch.offset + (ch.buffer.take ch.chunkSize).length < UInt64.size := by
  have hbounded := h.bufferedEnd_lt
  rw [bufferedEnd] at hbounded
  rw [List.length_take]
  omega

theorem checkedChunkRequest_of_nonempty (h : Fits chunkSize payload ch)
    (hnonempty : 0 < ch.offset + (ch.buffer.take ch.chunkSize).length) :
    ch.checkedChunkRequest = .ok ch.chunkRequest := by
  have hend := chunkEnd_lt h
  have hplace : ch.offset + (ch.buffer.take ch.chunkSize).length < Place.chunkEnd.size :=
    hend
  have hlast : ch.offset + (ch.buffer.take ch.chunkSize).length - 1 <
      Place.chunkLast.size :=
    Nat.lt_of_le_of_lt (Nat.sub_le _ _) hend
  rw [checkedChunkRequest, fit_of_lt hplace, ok_bind, ← Int.ofNat_sub hnonempty,
    fit_of_lt hlast, chunkRequest, chunkRange, lastPosition_eq hnonempty hend]
  rfl

theorem checkedChunkRequest_of_empty
    (hempty : ch.offset + (ch.buffer.take ch.chunkSize).length = 0) :
    ch.checkedChunkRequest = .error .chunkLast := by
  have hplace : 0 < Place.chunkEnd.size := by decide
  rw [checkedChunkRequest, hempty, fit_of_lt hplace, ok_bind, fit_of_neg (by decide)]
  rfl

theorem agrees_finalRequest (h : Fits chunkSize payload ch) :
    Agrees stops before (ch.checkedFinalRequest ch.bufferedEnd) ch.finalRequest before := by
  have hbounded : ch.offset + ch.buffer.length < UInt64.size := h.bufferedEnd_lt
  rw [checkedFinalRequest, finalRequest, finalRange]
  by_cases hempty : ch.buffer.length = 0
  · rw [if_pos hempty, if_pos hempty]
    exact .ok _ _ _
  · rw [if_neg hempty, if_neg hempty, lastPosition_eq (by omega) hbounded]
    have hlast : 1 ≤ ch.offset + ch.buffer.length := by omega
    have htotal : ch.offset + ch.buffer.length < Place.totalLast.size := hbounded
    refine (agrees_fit_sub hlast htotal).bind ?_
    exact .ok _ _ _

/-! ### Requests and their answers -/

theorem lt_of_lastByte? {range : String} {last : Nat} (h : lastByte? range = some last) :
    last < UInt64.size := by
  rw [lastByte?] at h
  split at h
  · obtain ⟨part, -, hread⟩ := Option.bind_eq_some_iff.mp h
    exact (Numeral.readBelow_eq_some_iff.mp hread).1
  · cases h

/-- An answer stops the run exactly if it names the last position there is. -/
theorem checkedHeldBy_eq (r : Response) :
    checkedHeldBy r = if NamesLast r then .error .heldCount else .ok (heldBy r) := by
  by_cases hfull : NamesLast r
  · have hlast : (r.header? "range").bind lastByte? = some (UInt64.size - 1) := hfull
    have hplace : Place.heldCount.size ≤ UInt64.size - 1 + 1 := Nat.le_refl _
    rw [if_pos hfull, checkedHeldBy, hlast]
    exact fit_of_le hplace
  · have hheld : heldBy r = (((r.header? "range").bind lastByte?).bind fun last =>
        (fitting UInt64.size (last + 1)).toOption).getD 0 := by
      rw [heldBy, Option.bind_assoc]
      rfl
    rw [if_neg hfull, checkedHeldBy, hheld]
    cases hlast : (r.header? "range").bind lastByte? with
    | none => rfl
    | some last =>
        obtain ⟨range, -, hread⟩ := Option.bind_eq_some_iff.mp hlast
        have hbound := lt_of_lastByte? hread
        have hless : last ≠ UInt64.size - 1 :=
          fun heq => hfull (hlast.trans (congrArg some heq))
        have hcount : last + 1 < UInt64.size := by omega
        have hplace : last + 1 < Place.heldCount.size := hcount
        rw [Option.bind_some, fitting_eq_ok_iff.mpr ⟨hcount, rfl⟩]
        exact fit_of_lt hplace

/-- The places where an upload may stop. -/
inductive Stops (c : HttpClient) (T : Transport σ) (chunkSize : Nat) : Place → Prop
  | attemptLimit (hfull : c.config.maxRetries + 1 = UInt32.size) :
      Stops c T chunkSize .attemptLimit
  | tokenTime (hbreaks : c.TokenBreaks T) : Stops c T chunkSize .tokenTime
  | heldCount (hlast : TellsLast T) : Stops c T chunkSize .heldCount
  | chunkLast (hempty : chunkSize = 0) : Stops c T chunkSize .chunkLast

theorem exists_answered {r : Request} {a : Response} {s' : Connection σ}
    (h : c.request T r s = (.ok a, s')) :
    ∃ wire timeout w, (T.exchange wire timeout w).1 = .answered a := by
  have hkeeps : Keeps T fun _ => True :=
    ⟨fun _ => trivial, fun _ => trivial, fun _ => trivial, fun _ _ _ => trivial⟩
  have hanswered := HttpClient.request_rule (c := c) (r := r) (s := s) hkeeps
    (Q := fun a _ => ∃ wire timeout w, (T.exchange wire timeout w).1 = .answered a)
    (HttpClient.establishes_of_kept fun wire w timeout _ _ =>
      ⟨trivial, fun a hanswer _ => ⟨wire, timeout, w, hanswer⟩⟩) trivial
  rw [h] at hanswered
  exact hanswered

theorem agrees_request {r : Request} (htells : T.Tells halted)
    (hsize : c.retriesOf r < UInt32.size)
    (hle : c.retriesOf r + 1 = UInt32.size → c.config.maxRetries + 1 = UInt32.size) :
    Agrees (Stops c T chunkSize) (halted s.world) (c.checkedRequest T r s) (c.request T r s)
      (halted (c.request T r s).2.world) := by
  refine (HttpClient.agrees_request htells hsize).mono fun place hstops => ?_
  cases hstops with
  | attemptLimit hfull => exact .attemptLimit (hle hfull)
  | tokenTime hbreaks => exact .tokenTime hbreaks

theorem agrees_askHeld {r : Request} {purpose : String} (htells : T.Tells halted)
    (hsize : c.retriesOf r < UInt32.size)
    (hle : c.retriesOf r + 1 = UInt32.size → c.config.maxRetries + 1 = UInt32.size) :
    Agrees (Stops c T chunkSize) (halted s.world) (checkedAskHeld c T r purpose s)
      (askHeld c T r purpose s) (halted (askHeld c T r purpose s).2.world) := by
  refine (agrees_request htells hsize hle).bind ?_
  rw [askHeld]
  cases hasked : c.request T r s with
  | mk outcome s₁ =>
      cases outcome with
      | error e => exact .ok _ _ _
      | ok a =>
          simp only []
          split
          · by_cases hlast : NamesLast a
            · obtain ⟨wire, timeout, w, hanswer⟩ := exists_answered hasked
              refine .stopped (.heldCount ⟨wire, timeout, w, a, hanswer, hlast⟩) ?_ ?_
              · rw [checkedHeldBy_eq, if_pos hlast]
                rfl
              · simp only [heed, if_pos hlast]
                exact htells.halt _
            · rw [checkedHeldBy_eq, if_neg hlast, heed, if_neg hlast]
              exact .ok _ _ _
          · exact .ok _ _ _

theorem agrees_putChunk (htells : T.Tells halted) (h : Fits chunkSize payload ch)
    (full : ch.chunkSize < ch.buffer.length) :
    Agrees (Stops c T chunkSize) (halted s.world) (ch.checkedPutChunk c T s)
      (ch.putChunk c T s)
      (halted (ch.putChunk c T s).2.world) := by
  have hasked {s : Connection σ} :
      Agrees (Stops c T chunkSize) (halted s.world)
        (checkedAskHeld c T ch.chunkRequest "intermediate chunk" s)
        (askHeld c T ch.chunkRequest "intermediate chunk" s)
        (halted (askHeld c T ch.chunkRequest "intermediate chunk" s).2.world) :=
    agrees_askHeld htells (show 0 < UInt32.size by decide)
      fun hfull : 0 + 1 = UInt32.size => absurd hfull (by decide)
  rw [checkedPutChunk, putChunk]
  by_cases hempty : ch.offset + (ch.buffer.take ch.chunkSize).length = 0
  · have hsize : chunkSize = 0 := by
      rw [List.length_take, h.chunks] at hempty
      rw [h.chunks] at full
      omega
    rw [checkedChunkRequest_of_empty hempty, poised, if_pos hempty]
    exact .stopped (.chunkLast hsize) rfl (hasked.after_of_before (htells.halt _))
  · rw [checkedChunkRequest_of_nonempty h (Nat.pos_of_ne_zero hempty), ok_bind, poised,
      if_neg hempty]
    exact hasked

theorem agrees_queryHeld (htells : T.Tells halted)
    (hsize : c.config.maxRetries < UInt32.size) :
    Agrees (Stops c T chunkSize) (halted s.world) (ch.checkedQueryHeld c T s)
      (ch.queryHeld c T s) (halted (ch.queryHeld c T s).2.world) :=
  agrees_askHeld htells hsize id

theorem agrees_pauseForRecovery {e : LoadError} {done : Nat} (htells : T.Tells halted)
    (hdone : done < c.config.maxRetries) (hsize : c.config.maxRetries < UInt32.size) :
    Agrees (Stops c T chunkSize) (halted s.world) (ch.checkedPauseForRecovery c T e done s)
      (done + 1, ch.pauseForRecovery c T e done s)
      (halted (ch.pauseForRecovery c T e done s).world) := by
  have hattempt : done + 1 < Place.attempt.size := by
    simp only [Place.size]
    omega
  have hwarned : halted (ch.pauseForRecovery c T e done s).world ↔
      halted s.world ∨ c.config.maxRetries + 1 = UInt32.size :=
    HttpClient.warned_halts_iff htells hsize
  rw [checkedPauseForRecovery, fit_of_lt hattempt, ok_bind]
  by_cases hfull : c.config.maxRetries + 1 = UInt32.size
  · simp only [HttpClient.checkedWarn_of_eq hfull]
    exact .stopped (.attemptLimit hfull) rfl (hwarned.mpr (.inr hfull))
  · simp only [HttpClient.checkedWarn_of_lt (Nat.lt_of_le_of_ne hsize hfull)]
    exact .fits rfl (by rw [hwarned, or_iff_left hfull])

/-- A chunk that was answered ends the flush. -/
theorem agrees_flushed (h : Fits chunkSize payload ch) (refusal : LoadError) :
    Agrees stops before
      (if held ≤ ch.offset then .ok (.error refusal, ch, s)
      else do
        match ← ch.checkedCommit held with
        | .ok ch => return (.ok (), ch, s)
        | .error e => return (.error e, ch, s))
      (if held ≤ ch.offset then (.error refusal, ch, s)
      else
        match ch.commit held with
        | .ok ch => ((.ok () : Except LoadError Unit), ch, s)
        | .error e => (.error e, ch, s))
      before := by
  split
  · exact .ok _ _ _
  · refine (agrees_commit h).bind ?_
    cases ch.commit held <;> exact .ok _ _ _

theorem agrees_flushFrom {done left : Nat} (htells : T.Tells halted)
    (h : Fits chunkSize payload ch) (full : ch.chunkSize < ch.buffer.length)
    (hsize : c.config.maxRetries < UInt32.size)
    (hcount : done + left = c.config.maxRetries) :
    Agrees (Stops c T chunkSize) (halted s.world) (checkedFlushFrom c T done left ch s)
      (flushFrom c T done left ch s) (halted (flushFrom c T done left ch s).2.2.world) := by
  induction left generalizing done ch s with
  | zero =>
      rw [checkedFlushFrom]
      refine (agrees_putChunk htells h full).bind ?_
      cases hput : ch.putChunk c T s with
      | mk outcome s₁ =>
          cases outcome with
          | ok held =>
              rw [flushFrom_of_held _ _ hput, flushFrom, hput]
              exact agrees_flushed h _
          | error e =>
              rw [flushFrom, hput]
              simp only []
              split <;> exact .ok _ _ _
  | succ left ih =>
      rw [checkedFlushFrom]
      refine (agrees_putChunk htells h full).bind ?_
      cases hput : ch.putChunk c T s with
      | mk outcome s₁ =>
          cases outcome with
          | ok held =>
              rw [flushFrom_of_held _ _ hput, flushFrom, hput]
              exact agrees_flushed h _
          | error e =>
              rw [flushFrom, hput]
              simp only []
              split
              · exact .ok _ _ _
              · -- The chunk failed in a passing way: pause, ask, drop, and go on.
                refine (agrees_pauseForRecovery htells (by omega) hsize).bind ?_
                refine (agrees_queryHeld htells hsize).bind ?_
                cases ch.queryHeld c T (ch.pauseForRecovery c T e done s₁) with
                | mk outcome s₂ =>
                    cases outcome with
                    | error e => exact .ok _ _ _
                    | ok held =>
                        refine (agrees_commit h).bind ?_
                        simp only []
                        cases hcommit : ch.commit held with
                        | error e => exact .ok _ _ _
                        | ok ch' =>
                            simp only []
                            split
                            · exact .ok _ _ _
                            · exact ih (h.commit hcommit) (by omega) (by omega)

/-! ### Writing and closing -/

theorem agrees_drain {flushes : Nat} (htells : T.Tells halted)
    (h : Fits chunkSize payload ch) (hsize : c.config.maxRetries < UInt32.size)
    (henough : ch.buffer.length ≤ flushes) :
    Agrees (Stops c T chunkSize) (halted s.world) (checkedDrain c T flushes ch s)
      (drain c T ch s) (halted (drain c T ch s).2.2.world) := by
  induction flushes generalizing ch s with
  | zero =>
      rw [drain_of_le (by omega)]
      exact .ok _ _ _
  | succ flushes ih =>
      rw [checkedDrain]
      by_cases full : ch.chunkSize < ch.buffer.length
      · have hflushed : Agrees (Stops c T chunkSize) (halted s.world)
            (checkedFlushFrom c T 0 c.config.maxRetries ch s) (ch.flush c T s)
            (halted (ch.flush c T s).2.2.world) :=
          agrees_flushFrom htells h full hsize (Nat.zero_add _)
        have hfits : Fits chunkSize payload (ch.flush c T s).2.1 :=
          (fits_carries c T chunkSize payload).flushFrom 0 c.config.maxRetries full h
        rw [if_pos full]
        refine hflushed.bind ?_
        cases hflush : ch.flush c T s with
        | mk outcome rest =>
            rw [hflush] at hfits
            cases outcome with
            | error e =>
                rw [drain_of_flush_error full hflush]
                exact .ok _ _ _
            | ok u =>
                have hless := length_lt_of_flush hflush full
                rw [drain_of_flush full hflush]
                exact ih hfits (by omega)
      · rw [if_neg full, drain_of_le (by omega)]
        exact .ok _ _ _

theorem agrees_write {data : Bytes} (htells : T.Tells halted)
    (h : Fits chunkSize payload { ch with buffer := ch.buffer ++ data })
    (hsize : c.config.maxRetries < UInt32.size) :
    Agrees (Stops c T chunkSize) (halted s.world) (ch.checkedWrite c T data s)
      (ch.write c T data s) (halted (ch.write c T data s).2.2.world) := by
  refine (agrees_drain htells h hsize (Nat.le_refl _)).bind ?_
  rw [write]
  cases drain c T { ch with buffer := ch.buffer ++ data } s with
  | mk outcome rest => cases outcome <;> exact .ok _ _ _

theorem agrees_writeAll {parts : List Bytes} (htells : T.Tells halted)
    (h : Fits chunkSize payload ch)
    (hlength : (payload ++ parts.flatten).length < UInt64.size)
    (hsize : c.config.maxRetries < UInt32.size) :
    Agrees (Stops c T chunkSize) (halted s.world) (checkedWriteAll c T parts ch s)
        (writeAll c T parts ch s) (halted (writeAll c T parts ch s).2.world) ∧
      Fits chunkSize (payload ++ parts.flatten) (writeAll c T parts ch s).1 := by
  induction parts generalizing payload ch s with
  | nil => exact ⟨.ok _ _ _, by rwa [List.flatten_nil, List.append_nil]⟩
  | cons data rest ih =>
      rw [List.flatten_cons, ← List.append_assoc] at hlength ⊢
      have hmore : Fits chunkSize (payload ++ data)
          { ch with buffer := ch.buffer ++ data } :=
        h.more (by rw [List.length_append] at hlength; omega)
      have hwritten := (fits_carries c T chunkSize (payload ++ data)).write (s := s) hmore
      obtain ⟨hrest, hfits⟩ := ih hwritten hlength
      exact ⟨(agrees_write htells hmore hsize).bind hrest, hfits⟩

theorem agrees_close (htells : T.Tells halted) (h : Fits chunkSize payload ch)
    (hsize : c.config.maxRetries < UInt32.size) :
    Agrees (Stops c T chunkSize) (halted s.world) (ch.checkedClose c T s) (ch.close c T s)
      (halted (ch.close c T s).2.world) := by
  have htotal : ch.bufferedEnd < Place.total.size := h.bufferedEnd_lt
  refine (agrees_fit htotal).bind ((agrees_finalRequest h).bind ?_)
  have hrequest : Agrees (Stops c T chunkSize) (halted s.world)
      (c.checkedRequest T ch.finalRequest s) (c.request T ch.finalRequest s)
      (halted (c.request T ch.finalRequest s).2.world) :=
    agrees_request (r := ch.finalRequest) htells hsize id
  refine hrequest.bind ?_
  rw [close]
  cases c.request T ch.finalRequest s with
  | mk outcome s₁ =>
      cases outcome with
      | error e => exact .ok _ _ _
      | ok response =>
          simp only []
          split <;> exact .ok _ _ _

/-- A checked upload is the upload, or the upload breaks the program off. -/
theorem agrees_upload {url : String} {parts : List Bytes} (htells : T.Tells halted)
    (hlength : parts.flatten.length < UInt64.size)
    (hsize : c.config.maxRetries < UInt32.size) :
    Agrees (Stops c T chunkSize) (halted s.world)
      (checkedUpload c T parts (.new url chunkSize) s)
      (upload c T parts (.new url chunkSize) s)
      (halted (upload c T parts (.new url chunkSize) s).2.world) := by
  have hstart : Fits chunkSize [] (.new url chunkSize) :=
    ⟨.fresh url chunkSize, rfl, by decide⟩
  obtain ⟨hwritten, hfits⟩ := agrees_writeAll (s := s) htells hstart hlength hsize
  exact hwritten.bind (agrees_close htells hfits hsize)

end Channel

/-! ### What the settings may say -/

/-- All of the upload's own numbers are exact: it comes to what it comes to, or
breaks off over the time of a token, which is none of them. -/
def Exact (c : HttpClient) (T : Transport σ) (url : String) (chunkSize : Nat)
    (parts : List Bytes) (s : Connection σ) : Prop :=
  let run := Channel.checkedUpload c T parts (.new url chunkSize) s
  run = .ok (Channel.upload c T parts (.new url chunkSize) s) ∨ run = .error .tokenTime

theorem checkedUpload_cases {c : HttpClient} (T : Transport σ) (url : String)
    (chunkSize : Nat) {parts : List Bytes} (s : Connection σ)
    (hlength : parts.flatten.length < UInt64.size)
    (hsize : c.config.maxRetries < UInt32.size) :
    let run := Channel.checkedUpload c T parts (.new url chunkSize) s
    run = .ok (Channel.upload c T parts (.new url chunkSize) s) ∨
      ∃ place, Channel.Stops c T chunkSize place ∧ run = .error place := by
  intro run
  have hagrees : Agrees (Channel.Stops c T chunkSize) True run
      (Channel.upload c T parts (.new url chunkSize) s) True :=
    Channel.agrees_upload T.tells_always hlength hsize
  cases hagrees with
  | fits hvalue hsame => exact .inl hvalue
  | stopped hstops hplace hafter => exact .inr ⟨_, hstops, hplace⟩

theorem exact_of_lt {c : HttpClient} {T : Transport σ} {url : String} {chunkSize : Nat}
    {parts : List Bytes} {s : Connection σ} (hpositive : 0 < chunkSize)
    (hlength : parts.flatten.length < UInt64.size) (hlast : ¬ TellsLast T)
    (hlimit : c.config.maxRetries + 1 < UInt32.size) : Exact c T url chunkSize parts s := by
  obtain hvalue | ⟨place, hstops, hplace⟩ :=
    checkedUpload_cases T url chunkSize s hlength (Nat.lt_of_succ_lt hlimit)
  · exact .inl hvalue
  · cases hstops with
    | attemptLimit hfull => exact absurd hfull (Nat.ne_of_lt hlimit)
    | tokenTime hbreaks => exact .inr hplace
    | heldCount htold => exact absurd htold hlast
    | chunkLast hempty => exact absurd hempty (Nat.ne_of_gt hpositive)

/-- A client that tries again as often as 32 bits can say. -/
def persistent : HttpClient :=
  ⟨{ HttpConfig.standard with maxRetries := UInt32.size - 1 }, none⟩

/-- A world that refuses every connection and keeps the log. -/
def refusing : Transport (List String) where
  exchange _ _ lines := (.refused, lines)
  pause _ lines := lines
  now _ := 0
  log _ text lines := lines ++ [text]
  newJobId lines := ("", lines)
  sign _ _ := []
  halt lines := lines
  isOver _ := false

theorem not_tellsLast_refusing : ¬ TellsLast refusing := by
  rintro ⟨wire, timeout, w, r, hanswer, -⟩
  cases hanswer

def eightBytes : Bytes := [97, 98, 99, 100, 101, 102, 103, 104]

/-- A session without an address: no request to it can be put together. -/
def nowhere : Channel := .new "/session/abc" 4

theorem stops_persistent :
    Channel.checkedUpload persistent refusing [eightBytes] nowhere ⟨[], none⟩ =
      .error .attemptLimit :=
  stop?_eq_some.mp (by decide +kernel)

/-- Numbers stay in their type, or break the program off. A request breaks off
if it has all the retries that 32 bits can count and comes to a second trial,
for the number of attempts in the warning between; and else only if its last
trial does, for the time of a token. An answer breaks off exactly if it names
the last position there is. An upload breaks off for one of these reasons, or
because its chunks are of nothing, or not at all; and the program goes on
exactly where all numbers are exact. So no upload to a server that does not name
the last position goes wrong, exactly if the retries are not the most there can
be. -/
theorem numbers_fit_iff {maxRetries : Nat} (hsize : maxRetries < UInt32.size) :
    (∀ {σ : Type} (c : HttpClient) (T : Transport σ) (r : Request) (s : Connection σ)
      (trials : List (Trial σ)) (last : Trial σ),
      c.retriesOf r = maxRetries → c.Trials T r 0 s trials last →
      c.checkedRequest T r s =
        if maxRetries + 1 = UInt32.size ∧ 1 < trials.length then .error .attemptLimit
        else if last.ending.breaksOff then .error .tokenTime
        else .ok (c.request T r s)) ∧
    (∀ r : Response,
      Channel.checkedHeldBy r =
        if Channel.NamesLast r then .error .heldCount else .ok (Channel.heldBy r)) ∧
    (∀ {σ : Type} (c : HttpClient) (T : Transport σ) (url : String) (chunkSize : Nat)
      (parts : List Bytes) (s : Connection σ),
      c.config.maxRetries = maxRetries → parts.flatten.length < 2 ^ 63 →
      let run := Channel.checkedUpload c T parts (.new url chunkSize) s
      run = .ok (Channel.upload c T parts (.new url chunkSize) s) ∨
        ∃ place, Channel.Stops c T chunkSize place ∧ run = .error place) ∧
    (∀ {σ : Type} (c : HttpClient) (T : Transport σ) (s : Connection (σ × Bool)),
      s.world.2 = false →
      (∀ r, c.retriesOf r = maxRetries →
        ((c.request T.haltable r s).2.world.2 = true ↔
          ∃ place, c.checkedRequest T.haltable r s = .error place)) ∧
      ∀ (url : String) (chunkSize : Nat) (parts : List Bytes),
        c.config.maxRetries = maxRetries → parts.flatten.length < 2 ^ 63 →
        ((Channel.upload c T.haltable parts (.new url chunkSize) s).2.world.2 = true ↔
          ∃ place, Channel.checkedUpload c T.haltable parts (.new url chunkSize) s =
            .error place)) ∧
    ((∀ {σ : Type} (c : HttpClient) (T : Transport σ) (url : String) (chunkSize : Nat)
      (parts : List Bytes) (s : Connection σ),
      c.config.maxRetries = maxRetries → 0 < chunkSize → parts.flatten.length < 2 ^ 63 →
      ¬ TellsLast T → Exact c T url chunkSize parts s) ↔ maxRetries + 1 < UInt32.size) := by
  have hbits : 2 ^ 63 < UInt64.size := by decide
  refine ⟨?_, Channel.checkedHeldBy_eq, ?_, fun {σ} c T s hgoing => ⟨?_, ?_⟩,
    fun hall => ?_, ?_⟩
  · rintro σ c T r s trials last rfl htrials
    exact htrials.checkedRequest_eq hsize
  · rintro σ c T url chunkSize parts s rfl hlength
    exact checkedUpload_cases T url chunkSize s (hlength.trans hbits) hsize
  · rintro r rfl
    exact (HttpClient.agrees_request T.haltable_tells hsize).halts_iff (by simp [hgoing])
  · rintro url chunkSize parts rfl hlength
    exact (Channel.agrees_upload T.haltable_tells (hlength.trans hbits) hsize).halts_iff
      (by simp [hgoing])
  · refine Nat.lt_of_le_of_ne hsize fun hfull => ?_
    have hretries : persistent.config.maxRetries = maxRetries := by
      show UInt32.size - 1 = maxRetries
      omega
    have hexact := hall persistent refusing "/session/abc" 4 [eightBytes] ⟨[], none⟩
      hretries (by decide) (by decide) not_tellsLast_refusing
    obtain hvalue | hplace := hexact
    · cases stops_persistent.symm.trans hvalue
    · cases stops_persistent.symm.trans hplace
  · rintro hlimit σ c T url chunkSize parts s rfl hpositive hlength hlast
    exact exact_of_lt hpositive (hlength.trans hbits) hlast hlimit

theorem numbers_fit_of_six_retries :
    let c : HttpClient := ⟨HttpConfig.standard, none⟩
    6 < UInt32.size ∧
      Channel.checkedUpload c refusing [eightBytes] nowhere ⟨[], none⟩ =
        .ok (Channel.upload c refusing [eightBytes] nowhere ⟨[], none⟩) := by
  intro c
  have hsize : 6 < UInt32.size := by decide
  refine ⟨hsize, ?_⟩
  obtain hvalue | ⟨place, hstops, -⟩ :=
    (numbers_fit_iff hsize).2.2.1 c refusing "/session/abc" 4 [eightBytes] ⟨[], none⟩
      rfl (by decide)
  · exact hvalue
  · cases hstops with
    | attemptLimit hfull => exact absurd hfull (by decide)
    | heldCount hlast => exact absurd hlast not_tellsLast_refusing
    | chunkLast hempty => cases hempty
    | tokenTime hbreaks =>
        obtain ⟨s, e, hauth, -⟩ := hbreaks
        cases hauth

/-- Two chunks of four bytes, and the most retries there are. The first chunk
cannot be put together, which counts as trouble that may pass, and the program
breaks off over the warning before it is written. -/
theorem limit_of_most_retries_halts :
    persistent.config.maxRetries < UInt32.size ∧ ¬ TellsLast refusing ∧
    Channel.checkedUpload persistent refusing [eightBytes] nowhere ⟨[], none⟩ =
      .error .attemptLimit ∧
    (Channel.upload persistent refusing.haltable [eightBytes] nowhere
      ⟨([], false), none⟩).2.world.2 = true := by
  have hstops : Channel.checkedUpload persistent refusing.haltable [eightBytes] nowhere
      ⟨([], false), none⟩ = .error .attemptLimit := stop?_eq_some.mp (by decide +kernel)
  have hretries : persistent.config.maxRetries < UInt32.size := by decide
  have hlength : [eightBytes].flatten.length < UInt64.size := by decide
  refine ⟨hretries, not_tellsLast_refusing, stops_persistent, ?_⟩
  exact ((Channel.agrees_upload refusing.haltable_tells hlength hretries).halts_iff
    Bool.false_ne_true).mpr ⟨_, hstops⟩

end WarehouseLoader.Upload
