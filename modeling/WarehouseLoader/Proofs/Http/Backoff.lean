import Mathlib.Algebra.Group.Nat.Defs
import Mathlib.Order.MinMax
import WarehouseLoader.Http.Backoff

/-!
# How long a delay gets

A delay is a product under a cap, and a machine cannot hold every product. It
stops in three places: the next count and the power of two have 32 bits, and the
seconds of a duration have 64. `Duration.backoff` is the delay with all of them.
A product that stops at the longest duration is not below any cap, so this one
never shows, and `backoffDelay` does without it (`toNanoseconds_backoff`).

The other two show late. A count is exact but for the very last, a power up to
the thirty-first; and where the product with the last factor of 32 bits has come
to the cap, no larger factor makes a difference (`backoffDelay_laws`).
-/

namespace WarehouseLoader

/-! ### Factors -/

namespace BackoffType

theorem factor_exponential (attempt : Nat) :
    exponential.factor attempt = min (2 ^ attempt) maxCount := by
  show min (2 ^ min attempt 32) maxCount = _
  by_cases hattempt : attempt ≤ 32
  · rw [Nat.min_eq_left hattempt]
  · have hlarge : maxCount ≤ 2 ^ attempt :=
      Nat.le_trans (by decide) (Nat.pow_le_pow_right Nat.two_pos
        (Nat.le_of_not_le hattempt))
    rw [Nat.min_eq_right (Nat.le_of_not_le hattempt), Nat.min_eq_right hlarge]
    decide

theorem factor_mono (type : BackoffType) {attempt later : Nat} (h : attempt ≤ later) :
    type.factor attempt ≤ type.factor later := by
  cases type with
  | constant => exact Nat.le_refl 1
  | linear => exact min_le_min (Nat.succ_le_succ h) (Nat.le_refl maxCount)
  | exponential =>
      rw [factor_exponential, factor_exponential]
      exact min_le_min (Nat.pow_le_pow_right Nat.two_pos h) (Nat.le_refl maxCount)

end BackoffType

/-! ### Counts and durations of a machine -/

/-- The number, or the largest of 32 bits if it has more. -/
def saturate (n : Nat) : UInt32 := .ofNat (min n BackoffType.maxCount)

theorem toNat_saturate (n : Nat) : (saturate n).toNat = min n BackoffType.maxCount := by
  refine UInt32.toNat_ofNat_of_lt' (Nat.lt_of_le_of_lt (Nat.min_le_right _ _) ?_)
  decide

/-- A length of time as a machine keeps it: whole seconds, and the nanoseconds of
the one that has begun. -/
structure Duration where
  seconds : UInt64
  nanoseconds : Nat
  nanoseconds_lt : nanoseconds < 1000000000

namespace Duration

def toNanoseconds (d : Duration) : Nat := d.seconds.toNat * 1000000000 + d.nanoseconds

def ofMilliseconds (milliseconds : UInt64) : Duration where
  seconds := milliseconds / 1000
  nanoseconds := milliseconds.toNat % 1000 * 1000000
  nanoseconds_lt := by omega

/-- The longest there is. -/
def longest : Duration := ⟨.ofNat (UInt64.size - 1), 999999999, by decide⟩

/-- The product, or the longest duration if the seconds of the product have more
than 64 bits. -/
def saturatingMul (d : Duration) (n : UInt32) : Duration :=
  let nanoseconds := d.nanoseconds * n.toNat
  let seconds := d.seconds.toNat * n.toNat + nanoseconds / 1000000000
  if seconds < UInt64.size then
    ⟨.ofNat seconds, nanoseconds % 1000000000, Nat.mod_lt _ (by decide)⟩
  else longest

/-- The first of two durations unless the second is shorter. -/
def shorter (d e : Duration) : Duration :=
  if e.seconds < d.seconds ∨ e.seconds = d.seconds ∧ e.nanoseconds < d.nanoseconds then e
  else d

/-- The delay as a machine works it out. -/
def backoff (type : BackoffType) (attempt : UInt32) (initial cap : Duration) : Duration :=
  let delay :=
    match type with
    | .constant => initial
    | .linear => initial.saturatingMul (saturate (attempt.toNat + 1))
    | .exponential => initial.saturatingMul (saturate (2 ^ attempt.toNat))
  delay.shorter cap

theorem toNanoseconds_ofMilliseconds (milliseconds : UInt64) :
    (ofMilliseconds milliseconds).toNanoseconds = milliseconds.toNat * 1000000 := by
  have hseconds : (milliseconds / 1000).toNat = milliseconds.toNat / 1000 := by
    rw [UInt64.toNat_div]
    rfl
  simp only [toNanoseconds, ofMilliseconds, hseconds]
  omega

theorem toNanoseconds_le_longest (d : Duration) :
    d.toNanoseconds ≤ longest.toNanoseconds := by
  have hseconds := d.seconds.toNat_lt
  have hnanoseconds := d.nanoseconds_lt
  have hlongest : longest.toNanoseconds = 2 ^ 64 * 1000000000 - 1 := by decide
  simp only [toNanoseconds] at hlongest ⊢
  omega

theorem toNanoseconds_saturatingMul (d : Duration) (n : UInt32) :
    (d.saturatingMul n).toNanoseconds =
      min (d.toNanoseconds * n.toNat) longest.toNanoseconds := by
  have hlongest : longest.toNanoseconds = UInt64.size * 1000000000 - 1 := by decide
  have hproduct : d.toNanoseconds * n.toNat =
      d.seconds.toNat * n.toNat * 1000000000 + d.nanoseconds * n.toNat := by
    rw [toNanoseconds, Nat.add_mul, Nat.mul_right_comm]
  rw [hlongest, hproduct, saturatingMul]
  split
  · next hfits =>
      simp only [toNanoseconds, UInt64.toNat_ofNat_of_lt' hfits]
      omega
  · next hlarge =>
      rw [hlongest]
      omega

theorem toNanoseconds_shorter (d e : Duration) :
    (d.shorter e).toNanoseconds = min d.toNanoseconds e.toNanoseconds := by
  have hd := d.nanoseconds_lt
  have he := e.nanoseconds_lt
  simp only [shorter, UInt64.lt_iff_toNat_lt, ← UInt64.toNat_inj]
  split
  · next hshorter =>
      simp only [toNanoseconds]
      omega
  · next hlonger =>
      simp only [toNanoseconds]
      omega

/-- Under a cap it does not show that a product stopped at the longest. -/
theorem toNanoseconds_shorter_saturatingMul (d cap : Duration) (n : UInt32) :
    ((d.saturatingMul n).shorter cap).toNanoseconds =
      min (d.toNanoseconds * n.toNat) cap.toNanoseconds := by
  rw [toNanoseconds_shorter, toNanoseconds_saturatingMul, min_assoc,
    min_eq_right cap.toNanoseconds_le_longest]

end Duration

/-! ### The delay -/

variable {attempt initial cap : Nat}

theorem Duration.toNanoseconds_backoff (type : BackoffType) (attempt : UInt32)
    (initial cap : Duration) :
    (backoff type attempt initial cap).toNanoseconds =
      backoffDelay type attempt.toNat initial.toNanoseconds cap.toNanoseconds := by
  rw [backoffDelay]
  cases type with
  | constant =>
      rw [backoff, toNanoseconds_shorter]
      show _ = min (initial.toNanoseconds * 1) _
      rw [Nat.mul_one]
  | linear =>
      rw [backoff, toNanoseconds_shorter_saturatingMul, toNat_saturate]
      rfl
  | exponential =>
      rw [backoff, toNanoseconds_shorter_saturatingMul, toNat_saturate,
        BackoffType.factor_exponential]

/-- The delay does not depend on the unit of time. -/
theorem backoffDelay_mul (type : BackoffType) (attempt initial cap unit : Nat) :
    backoffDelay type attempt (initial * unit) (cap * unit) =
      backoffDelay type attempt initial cap * unit := by
  rw [backoffDelay, backoffDelay, Nat.mul_right_comm, Nat.mul_min_mul_right]

theorem backoffDelay_le (type : BackoffType) (attempt initial cap : Nat) :
    backoffDelay type attempt initial cap ≤ cap :=
  Nat.min_le_right _ _

theorem backoffDelay_mono (type : BackoffType) {later longer higher : Nat}
    (hlater : attempt ≤ later) (hlonger : initial ≤ longer) (hhigher : cap ≤ higher) :
    backoffDelay type attempt initial cap ≤ backoffDelay type later longer higher :=
  min_le_min (Nat.mul_le_mul hlonger (type.factor_mono hlater)) hhigher

/-- The last factor does not show if the cap is not beyond the product with it. -/
theorem min_mul_min_of_le {factor last : Nat} (h : factor ≤ last ∨ cap ≤ initial * last) :
    min (initial * min factor last) cap = min cap (initial * factor) := by
  obtain hfactor | hcap := h
  · rw [min_eq_left hfactor, min_comm]
  · rw [← Nat.mul_min_mul_left, min_assoc, min_eq_right hcap, min_comm]

/-- A delay is never longer than its cap, and it does not get shorter for a later
attempt, a longer first delay or a higher cap. It is the exact product under the
cap as long as the factor has 32 bits, and for every attempt if the cap is not
beyond the product with the last factor. A machine that stops wherever a number
does not fit comes to the same, for all durations and so for all milliseconds of
64 bits. -/
theorem backoffDelay_laws (type : BackoffType) (attempt : UInt32) (initial cap : Nat) :
    let delay := backoffDelay type attempt.toNat initial cap
    delay ≤ cap ∧
    (∀ (later : UInt32) (longer higher : Nat), attempt ≤ later → initial ≤ longer →
      cap ≤ higher → delay ≤ backoffDelay type later.toNat longer higher) ∧
    (type = .constant → delay = min cap initial) ∧
    (type = .linear → attempt.toNat < 2 ^ 32 - 1 ∨ cap ≤ initial * (2 ^ 32 - 1) →
      delay = min cap (initial * (attempt.toNat + 1))) ∧
    (type = .exponential → attempt.toNat ≤ 31 ∨ cap ≤ initial * (2 ^ 32 - 1) →
      delay = min cap (initial * 2 ^ attempt.toNat)) ∧
    (∀ first limit : Duration, first.toNanoseconds = initial → limit.toNanoseconds = cap →
      (Duration.backoff type attempt first limit).toNanoseconds = delay) ∧
    ∀ first limit : UInt64, first.toNat = initial → limit.toNat = cap →
      (Duration.backoff type attempt (.ofMilliseconds first)
        (.ofMilliseconds limit)).toNanoseconds = delay * 1000000 := by
  intro delay
  refine ⟨backoffDelay_le type _ _ _, ?_, ?_, ?_, ?_, ?_, ?_⟩
  · intro later longer higher hlater hlonger hhigher
    exact backoffDelay_mono type (UInt32.le_iff_toNat_le.mp hlater) hlonger hhigher
  · intro htype
    subst htype
    show min (initial * 1) cap = _
    rw [Nat.mul_one, min_comm]
  · intro htype hexact
    subst htype
    exact min_mul_min_of_le hexact
  · intro htype hexact
    subst htype
    have hfactor : 2 ^ attempt.toNat ≤ BackoffType.maxCount ∨
        cap ≤ initial * BackoffType.maxCount := by
      refine hexact.imp_left fun hattempt => ?_
      exact Nat.le_trans (Nat.pow_le_pow_right Nat.two_pos hattempt) (by decide)
    show min (initial * BackoffType.exponential.factor attempt.toNat) cap = _
    rw [BackoffType.factor_exponential]
    exact min_mul_min_of_le hfactor
  · intro first limit hfirst hlimit
    rw [Duration.toNanoseconds_backoff, hfirst, hlimit]
  · intro first limit hfirst hlimit
    subst hfirst hlimit
    rw [Duration.toNanoseconds_backoff, Duration.toNanoseconds_ofMilliseconds,
      Duration.toNanoseconds_ofMilliseconds, backoffDelay_mul]

/-- The thirty-second power does not fit, and a cap beyond it shows that. -/
example : backoffDelay .exponential 32 1 (2 ^ 33) = 2 ^ 32 - 1 := by decide

end WarehouseLoader
