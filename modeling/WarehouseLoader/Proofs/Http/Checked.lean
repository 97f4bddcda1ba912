import WarehouseLoader.Proofs.Http.Halting
import WarehouseLoader.Proofs.Http.Retries

/-!
# Numbers that have to fit

Attempts are counted in 32 bits and bytes in 64. To say that the numbers of a
run fit, the loops are written down once more with every sum and difference done
by `fit`. It takes the exact number, and stops the run where that does not fit.
The loops themselves have such a check at two places only, where they break the
program off.

A checked run comes to what the run comes to, which then has not broken off, or
it stops at one of some places, and then the run has (`Agrees`). For a request
there are two such places. One is the number of attempts that a warning gives,
and it takes all the retries of 32 bits and a second attempt to get there; the
other is the time of a token (`Trials.checkedRequest_eq`).
-/

namespace WarehouseLoader.Http

open Auth

/-- Where a request or an upload works out a number. -/
inductive Place where
  | attempt
  /-- How many attempts there may be. -/
  | attemptLimit
  /-- When a token or an assertion ends. -/
  | tokenTime
  | chunkEnd
  | chunkLast
  | bufferedEnd
  /-- How many bytes are dropped from the buffer. -/
  | accepted
  | total
  | totalLast
  /-- How many bytes are held, after the number of the last. -/
  | heldCount
  deriving DecidableEq

/-- How many numbers there are at a place. -/
def Place.size : Place → Nat
  | attempt | attemptLimit => UInt32.size
  | tokenTime | chunkEnd | chunkLast | bufferedEnd | accepted | total |
    totalLast | heldCount =>
    UInt64.size

-- Irreducible, or the equations of a loop that checks would compare with all of
-- 64 bits.
/-- The exact number, if it fits at its place. -/
@[irreducible] def fit (place : Place) (exact : Int) : Except Place Nat :=
  if 0 ≤ exact ∧ exact < place.size then .ok exact.toNat else .error place

/-- An outcome, unless the program breaks off over a time in it. -/
def fitTime {α : Type} : Except LoadError α → Except Place (Except LoadError α)
  | .ok a => .ok (.ok a)
  | .error e => if e.breaksOff then .error .tokenTime else .ok (.error e)

/-- Where a run stopped. -/
def stop? {α : Type} : Except Place α → Option Place
  | .ok _ => none
  | .error place => some place

theorem stop?_eq_some {α : Type} {x : Except Place α} {place : Place} :
    stop? x = some place ↔ x = .error place := by
  cases x <;> simp [stop?]

/-- The value is there and nothing broke off, or the run was stopped at a place
where it may be and the program broke off. `before` and `after` are whether it
had. -/
inductive Agrees {α : Type} (stops : Place → Prop) (before : Prop) (x : Except Place α)
    (a : α) (after : Prop) : Prop
  | fits (hvalue : x = .ok a) (hsame : after ↔ before)
  | stopped {place : Place} (hstops : stops place) (hplace : x = .error place)
      (hafter : after)

namespace Agrees

variable {α β : Type} {stops : Place → Prop} {before between after : Prop}
  {x : Except Place α}
  {a : α}

theorem ok (stops : Place → Prop) (before : Prop) (a : α) :
    Agrees stops before (.ok a) a before := .fits rfl Iff.rfl

/-- What broke off stays so. -/
theorem after_of_before (h : Agrees stops before x a after) (hbefore : before) : after := by
  cases h with
  | fits hvalue hsame => exact hsame.mpr hbefore
  | stopped hstops hplace hafter => exact hafter

theorem bind {f : α → Except Place β} {b : β} (hx : Agrees stops before x a between)
    (hf : Agrees stops between (f a) b after) : Agrees stops before (x >>= f) b after := by
  cases hx with
  | stopped hstops hplace hbetween =>
      exact .stopped hstops (by rw [hplace]; rfl) (hf.after_of_before hbetween)
  | fits hvalue hsame =>
      cases hf with
      | stopped hstops hplace hafter =>
          exact .stopped hstops (by rw [hvalue]; exact hplace) hafter
      | fits hvalue' hsame' =>
          exact .fits (by rw [hvalue]; exact hvalue') (hsame'.trans hsame)

theorem mono {stops' : Place → Prop} (h : Agrees stops before x a after)
    (hle : ∀ place, stops place → stops' place) : Agrees stops' before x a after := by
  cases h with
  | fits hvalue hsame => exact .fits hvalue hsame
  | stopped hstops hplace hafter => exact .stopped (hle _ hstops) hplace hafter

/-- The program breaks off exactly if the checked run is stopped. -/
theorem halts_iff (h : Agrees stops before x a after) (hbefore : ¬ before) :
    after ↔ ∃ place, x = .error place := by
  cases h with
  | stopped hstops hplace hafter => exact iff_of_true hafter ⟨_, hplace⟩
  | fits hvalue hsame =>
      refine iff_of_false (fun hafter => hbefore (hsame.mp hafter)) ?_
      rintro ⟨place, hplace⟩
      cases hvalue.symm.trans hplace

end Agrees

-- A rewrite, since unfolding the bind of a checked sum makes the kernel compute
-- the sum.
theorem ok_bind {α β : Type} (a : α) (f : α → Except Place β) : Except.ok a >>= f = f a :=
  rfl

variable {stops : Place → Prop} {before : Prop} {place : Place} {n m : Nat}

theorem fit_of_lt (h : n < place.size) : fit place n = .ok n := by
  rw [fit, if_pos ⟨Int.natCast_nonneg n, Int.ofNat_lt.mpr h⟩, Int.toNat_natCast]

theorem fit_of_le (h : place.size ≤ n) : fit place n = .error place := by
  rw [fit, if_neg (by omega)]

theorem fit_of_neg {exact : Int} (h : exact < 0) : fit place exact = .error place := by
  rw [fit, if_neg (by omega)]

theorem agrees_fit (h : n < place.size) : Agrees stops before (fit place n) n before :=
  .fits (fit_of_lt h) Iff.rfl

theorem agrees_fit_sub (hle : m ≤ n) (h : n < place.size) :
    Agrees stops before (fit place ((n : Int) - m)) (n - m) before := by
  rw [← Int.ofNat_sub hle]
  exact agrees_fit (Nat.lt_of_le_of_lt (Nat.sub_le n m) h)

namespace HttpClient

variable {σ : Type} {c : HttpClient} {T : Transport σ} {r : Request} {s : Connection σ}
  {halted : σ → Prop}

theorem fitTime_of_not_breaksOff {α : Type} {outcome : Except LoadError α}
    (h : ¬ BreaksOff outcome) : fitTime outcome = .ok outcome := by
  cases outcome with
  | ok a => rfl
  | error e => exact if_neg fun hbreaks => h ⟨e, rfl, hbreaks⟩

theorem fitTime_of_breaksOff {α : Type} {outcome : Except LoadError α}
    (h : BreaksOff outcome) : fitTime outcome = .error .tokenTime := by
  obtain ⟨e, rfl, hbreaks⟩ := h
  exact if_pos hbreaks

/-- Writes a warning that tells how many attempts there may be, and waits. -/
def checkedWarn (T : Transport σ) (text : Nat → String) (maxRetries delay : Nat)
    (s : Connection σ) : Except Place (Connection σ) := do
  let limit ← fit .attemptLimit (maxRetries + 1 : Nat)
  return s.mapWorld fun w => T.pause delay (T.log .warn (text limit) w)

/-- A request with its numbers checked. -/
def checkedRequestFrom (c : HttpClient) (T : Transport σ) (r : Request) (url : String)
    (timeout maxRetries done left : Nat) (s : Connection σ) :
    Except Place (Except LoadError Response × Connection σ) :=
  match c.attempt T r url timeout s with
  | (.settled outcome, s) => (fitTime outcome).map (·, s)
  | (.passing e wait, s) =>
    match left with
    | 0 => .ok (.error e, s)
    | left + 1 =>
      if T.isOver s.world then
        .ok (.error e, s)
      else do
        let delay := wait.getD (c.config.backoff done)
        let attempt ← fit .attempt (done + 1 : Nat)
        let notice limit :=
          let shown := Text.duration delay
          let trouble :=
            s!"{r.method} {url} failed ({e.message}), attempt {attempt}/{limit}"
          trouble ++ ", retrying in " ++ shown
        let s ← checkedWarn T notice maxRetries delay s
        checkedRequestFrom c T r url timeout maxRetries attempt left s

def checkedRequest (c : HttpClient) (T : Transport σ) (r : Request) (s : Connection σ) :
    Except Place (Except LoadError Response × Connection σ) :=
  checkedRequestFrom c T r (c.urlOf r) (c.timeoutOf r) (c.retriesOf r) 0 (c.retriesOf r) s

/-! ### The warning -/

section Warning

variable {text : Nat → String} {maxRetries delay : Nat}

/-- Where the number of attempts fits, the checked warning is the warning. -/
theorem checkedWarn_of_lt (h : maxRetries + 1 < UInt32.size) :
    checkedWarn T text maxRetries delay s =
      .ok (s.mapWorld fun w => T.pause delay
        (T.warn ((attemptLimit maxRetries).map text) w)) := by
  have hlimit : attemptLimit maxRetries = .ok (maxRetries + 1) :=
    fitting_eq_ok_iff.mpr ⟨h, rfl⟩
  have hplace : maxRetries + 1 < Place.attemptLimit.size := h
  rw [checkedWarn, fit_of_lt hplace, hlimit]
  rfl

theorem checkedWarn_of_eq (h : maxRetries + 1 = UInt32.size) :
    checkedWarn T text maxRetries delay s = .error .attemptLimit := by
  have hplace : Place.attemptLimit.size ≤ maxRetries + 1 := h.ge
  rw [checkedWarn, fit_of_le hplace]
  rfl

/-- The warning breaks the program off exactly if the number of attempts does
not fit. -/
theorem warned_halts_iff (htells : T.Tells halted) (hsize : maxRetries < UInt32.size) :
    halted (s.mapWorld fun w => T.pause delay
        (T.warn ((attemptLimit maxRetries).map text) w)).world ↔
      halted s.world ∨ maxRetries + 1 = UInt32.size := by
  refine (htells.pause _ _).trans ?_
  by_cases hfull : maxRetries + 1 = UInt32.size
  · have hlimit : attemptLimit maxRetries = .error .overflow :=
      fitting_eq_error_iff.mpr ⟨hfull.ge, rfl⟩
    rw [hlimit]
    exact iff_of_true (htells.halt _) (.inr hfull)
  · have hlimit : attemptLimit maxRetries = .ok (maxRetries + 1) :=
      fitting_eq_ok_iff.mpr ⟨Nat.lt_of_le_of_ne hsize hfull, rfl⟩
    rw [hlimit, or_iff_left hfull]
    exact htells.log _ _ _

end Warning

/-! ### The loop -/

/-- How a checked request goes: it stops at the number of attempts, where the
request breaks the program off, or it comes to what the request comes to, and
then only the outcome breaks the program off. -/
inductive Checks (halted : σ → Prop) (maxRetries : Nat) (before : Prop)
    (checked : Except Place (Except LoadError Response × Connection σ))
    (run : Except LoadError Response × Connection σ) : Prop
  | limit (hfull : maxRetries + 1 = UInt32.size) (hplace : checked = .error .attemptLimit)
      (hafter : halted run.2.world)
  | outcome (hvalue : checked = (fitTime run.1).map (·, run.2))
      (hafter : halted run.2.world ↔ before ∨ BreaksOff run.1)

theorem checks_of_passing {e : LoadError} {maxRetries : Nat} {before : Prop}
    (hpasses : ¬ BreaksOff (.error e : Except LoadError Response))
    (hsame : halted s.world ↔ before ∨ BreaksOff (.error e : Except LoadError Response)) :
    Checks halted maxRetries before (.ok (.error e, s)) (.error e, s) :=
  .outcome (by rw [fitTime_of_not_breaksOff hpasses]; rfl) hsame

/-- A warning, and what comes behind it. -/
theorem Checks.warned (htells : T.Tells halted) {text : Nat → String}
    {maxRetries delay : Nat} (hsize : maxRetries < UInt32.size)
    {f : Connection σ → Except Place (Except LoadError Response × Connection σ)}
    {run : Except LoadError Response × Connection σ}
    (hrest :
      let s' :=
        s.mapWorld fun w => T.pause delay (T.warn ((attemptLimit maxRetries).map text) w)
      Checks halted maxRetries (halted s'.world) (f s') run) :
    Checks halted maxRetries (halted s.world)
      (checkedWarn T text maxRetries delay s >>= f) run := by
  have hwarned := @warned_halts_iff _ T s halted text maxRetries delay htells hsize
  by_cases hfull : maxRetries + 1 = UInt32.size
  · have hbroke := hwarned.mpr (.inr hfull)
    rw [checkedWarn_of_eq hfull]
    cases hrest with
    | limit _ hplace hafter => exact .limit hfull rfl hafter
    | outcome hvalue hafter => exact .limit hfull rfl (hafter.mpr (.inl hbroke))
  · rw [checkedWarn_of_lt (Nat.lt_of_le_of_ne hsize hfull)]
    rw [or_iff_left hfull] at hwarned
    cases hrest with
    | limit hfull' _ _ => exact absurd hfull' hfull
    | outcome hvalue hafter => exact .outcome hvalue (by rw [hafter, hwarned])

/-- The induction is on the retries that are left. -/
theorem checks_requestFrom (htells : T.Tells halted) {url : String}
    {timeout maxRetries done left : Nat} (hsize : maxRetries < UInt32.size)
    (hcount : done + left = maxRetries) :
    Checks halted maxRetries (halted s.world)
      (c.checkedRequestFrom T r url timeout maxRetries done left s)
      (c.requestFrom T r url timeout maxRetries done left s) := by
  induction left generalizing done s with
  | zero =>
      have hattempt := attempt_halts_iff htells c r url timeout s
      rw [checkedRequestFrom, requestFrom]
      cases ha : c.attempt T r url timeout s with
      | mk outcome s₁ =>
          rw [ha] at hattempt
          cases outcome with
          | settled result => exact .outcome rfl hattempt
          | passing e wait => exact checks_of_passing (not_breaksOff_of_passing ha) hattempt
  | succ left ih =>
      have hattempt := attempt_halts_iff htells c r url timeout s
      rw [checkedRequestFrom, requestFrom]
      cases ha : c.attempt T r url timeout s with
      | mk outcome s₁ =>
          rw [ha] at hattempt
          cases outcome with
          | settled result => exact .outcome rfl hattempt
          | passing e wait =>
              have hpasses := not_breaksOff_of_passing ha
              simp only [Attempt.outcome, or_iff_left hpasses] at hattempt ⊢
              by_cases hover : T.isOver s₁.world = true
              · rw [if_pos hover, if_pos hover]
                exact checks_of_passing hpasses (by rw [or_iff_left hpasses, hattempt])
              · have hplace : done + 1 < Place.attempt.size := by
                  simp only [Place.size]
                  omega
                rw [if_neg hover, if_neg hover, fit_of_lt hplace, ok_bind]
                rw [← hattempt]
                exact Checks.warned htells hsize (ih (by omega))

theorem checks_request (htells : T.Tells halted) (hsize : c.retriesOf r < UInt32.size) :
    Checks halted (c.retriesOf r) (halted s.world) (c.checkedRequest T r s)
      (c.request T r s) :=
  checks_requestFrom htells hsize (Nat.zero_add _)

/-- The places where a request may stop. -/
inductive Stops (c : HttpClient) (T : Transport σ) (maxRetries : Nat) : Place → Prop
  | attemptLimit (hfull : maxRetries + 1 = UInt32.size) : Stops c T maxRetries .attemptLimit
  | tokenTime (hbreaks : TokenBreaks c T) : Stops c T maxRetries .tokenTime

theorem breaksOff_outcome_iff (ending : Ending) (timeout : Nat) :
    BreaksOff (ending.outcome timeout) ↔ ending.breaksOff = true := by
  cases ending with
  | unauthorized e => exact breaksOff_error_iff
  | unbuilt => exact breaksOff_error_iff
  | sent wire x =>
      refine iff_of_false ?_ (Bool.eq_false_iff.mp rfl)
      rintro ⟨e, houtcome, hbreaks⟩
      cases x with
      | timedOut | refused | broken =>
          cases houtcome
          cases hbreaks
      | answered a =>
          simp only [Ending.outcome] at houtcome
          split at houtcome
          · cases houtcome
            cases hbreaks
          · split at houtcome <;> cases houtcome
            cases hbreaks

theorem tokenBreaks_of_request (h : BreaksOff (c.request T r s).1) : TokenBreaks c T := by
  obtain ⟨trials, last, htrials, -⟩ :=
    c.exists_trials T r 0 (c.retriesOf r) s (Nat.zero_add _)
  rw [htrials.request_eq, breaksOff_outcome_iff] at h
  cases hending : last.ending with
  | unbuilt | sent => rw [hending] at h; cases h
  | unauthorized e =>
      have hends := htrials.last_ends
      rw [hending] at h hends
      cases hends with
      | unauthorized hauth => exact ⟨last.before, e, by rw [hauth], h⟩

theorem agrees_request (htells : T.Tells halted) (hsize : c.retriesOf r < UInt32.size) :
    Agrees (Stops c T (c.retriesOf r)) (halted s.world)
      (c.checkedRequest T r s) (c.request T r s)
      (halted (c.request T r s).2.world) := by
  cases checks_request (s := s) htells hsize with
  | limit hfull hplace hafter => exact .stopped (.attemptLimit hfull) hplace hafter
  | outcome hvalue hafter =>
      by_cases hbreaks : BreaksOff (c.request T r s).1
      · rw [fitTime_of_breaksOff hbreaks] at hvalue
        exact .stopped (.tokenTime (tokenBreaks_of_request hbreaks)) hvalue
          (hafter.mpr (.inr hbreaks))
      · rw [fitTime_of_not_breaksOff hbreaks] at hvalue
        exact .fits hvalue (by rw [hafter, or_iff_left hbreaks])

/-! ### By its trials -/

theorem checkedRequest_of_again {t t' : Trial σ} (hends : c.Ends T r s t.ending t.after)
    (hagain : c.Again T r t t') (hfull : c.retriesOf r + 1 = UInt32.size) :
    c.checkedRequest T r s = .error .attemptLimit := by
  obtain ⟨left, hleft⟩ : ∃ left, c.retriesOf r = left + 1 :=
    Nat.exists_eq_add_one.mpr (Nat.zero_lt_of_lt hagain.left)
  obtain ⟨e, wait, hattempt, -⟩ := attempt_of_passes hends hagain.passes 0
  have hfirst : (0 + 1 : Nat) < Place.attempt.size := by decide
  rw [checkedRequest, hleft, checkedRequestFrom, hattempt]
  simp only []
  rw [if_neg (Bool.eq_false_iff.mp hagain.awaited), fit_of_lt hfirst, ok_bind, ← hleft]
  rw [checkedWarn_of_eq hfull]
  rfl

/-- A request that makes one trial stops only over the time of a token. -/
theorem checkedRequest_of_final {t : Trial σ} (hends : c.Ends T r s t.ending t.after)
    (hfinal : c.Final T r t) (hfirst : t.number = 0) :
    c.checkedRequest T r s =
      (fitTime (t.ending.outcome (c.timeoutOf r))).map (·, t.after) := by
  rw [checkedRequest]
  by_cases hpasses : t.ending.Passes
  · obtain ⟨e, wait, hattempt, houtcome, -⟩ := attempt_of_passes hends hpasses 0
    rw [houtcome, fitTime_of_not_breaksOff (not_breaksOff_of_passing hattempt)]
    obtain hsettled | hspent | hover := hfinal
    · exact absurd hpasses hsettled
    · rw [← hspent, hfirst, checkedRequestFrom, hattempt]
      rfl
    · cases hleft : c.retriesOf r with
      | zero =>
          rw [checkedRequestFrom, hattempt]
          rfl
      | succ left =>
          rw [checkedRequestFrom, hattempt]
          exact if_pos hover
  · have hattempt := attempt_of_not_passes hends hpasses
    cases hleft : c.retriesOf r <;> rw [checkedRequestFrom, hattempt]

theorem map_fitTime_outcome {ending : Ending} {timeout : Nat} {s' : Connection σ} :
    (fitTime (ending.outcome timeout)).map (·, s') =
      if ending.breaksOff then .error .tokenTime else .ok (ending.outcome timeout, s') := by
  split
  · next hbreaks => rw [fitTime_of_breaksOff ((breaksOff_outcome_iff _ _).mpr hbreaks)]; rfl
  · next hgoes =>
      rw [fitTime_of_not_breaksOff fun h => hgoes ((breaksOff_outcome_iff _ _).mp h)]
      rfl

/-- A request stops for the number of attempts that its warning gives, and only
if there is such a warning: a second trial. Otherwise it stops only over the
time of a token, at its last trial. -/
theorem Trials.checkedRequest_eq {trials : List (Trial σ)} {last : Trial σ}
    (h : c.Trials T r 0 s trials last) (hsize : c.retriesOf r < UInt32.size) :
    c.checkedRequest T r s =
      if c.retriesOf r + 1 = UInt32.size ∧ 1 < trials.length then .error .attemptLimit
      else if last.ending.breaksOff then .error .tokenTime
      else .ok (c.request T r s) := by
  rw [h.request_eq, ← map_fitTime_outcome]
  obtain ⟨t, hhead, hfirst, rfl⟩ := h.starts
  obtain ⟨rest, rfl⟩ := List.head?_eq_some_iff.mp hhead
  have hends := h.ends t List.mem_cons_self
  cases rest with
  | nil =>
      obtain rfl : t = last := Option.some.inj h.stops
      rw [if_neg fun hlimit => absurd hlimit.2 (Nat.lt_irrefl 1),
        checkedRequest_of_final hends h.final hfirst]
  | cons t' later =>
      have hmore : 1 < (t :: t' :: later).length := Nat.succ_lt_succ (Nat.zero_lt_succ _)
      by_cases hfull : c.retriesOf r + 1 = UInt32.size
      · rw [if_pos ⟨hfull, hmore⟩, checkedRequest_of_again hends h.tail.1 hfull]
      · rw [if_neg fun hlimit => hfull hlimit.1]
        cases checks_request (s := t.before) T.tells_always hsize with
        | limit hfull' _ _ => exact absurd hfull' hfull
        | outcome hvalue _ => rw [hvalue, h.request_eq]

end HttpClient

end WarehouseLoader.Http
