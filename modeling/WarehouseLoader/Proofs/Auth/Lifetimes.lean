import Mathlib.Algebra.Group.Int.Defs
import Mathlib.Algebra.Group.Nat.Defs
import WarehouseLoader.Proofs.Auth.TokenCache

/-!
# How long assertions and tokens last

Two lengths of time come from outside: the lifetime that a configuration wants
for assertions, and the number of seconds for which an endpoint says that its
token is good. Each is added to the clock, and each sum has its own limits. A
lifetime from the upper half of its type is read as a negative number, so that the
assertion has ended before it was issued; a sum with one from the lower half that
is beyond the last second of 64 bits breaks off. A token ends at a date, and a sum
that no date can have ends the exchange.

Within the limits both last exactly as long as they were said to, and a token is
used up to half a minute before its end. `lifetimes_iff` says that the limits
are the whole of it.
-/

namespace WarehouseLoader.Auth

/-- A time in milliseconds that a date can have. -/
def IsInstant (time : Int) : Prop := minInstant ≤ time ∧ time ≤ maxInstant

instance (time : Int) : Decidable (IsInstant time) := inferInstanceAs (Decidable (_ ∧ _))

variable {key : ServiceAccountKey} {scopes : List String} {lifetime : Nat}
  {now seconds : Int}
  {token : String}

/-! ### Assertions -/

theorem wrap64_eq_self_iff {n : Int} : wrap64 n = n ↔ -2 ^ 63 ≤ n ∧ n < 2 ^ 63 := by
  simp only [wrap64, Int.bmod, UInt64.size]
  omega

theorem wrap64_of_small (h : lifetime < 2 ^ 63) : wrap64 lifetime = lifetime := by
  simp only [wrap64, Int.bmod, UInt64.size]
  omega

/-- A lifetime from the upper half comes out one round lower. -/
theorem wrap64_of_large (h : 2 ^ 63 ≤ lifetime) (hlifetime : lifetime < UInt64.size) :
    wrap64 lifetime = lifetime - 2 ^ 64 := by
  simp only [UInt64.size] at hlifetime
  simp only [wrap64, Int.bmod, UInt64.size]
  omega

theorem expiry_eq_ok_iff {ending : Int} :
    expiry lifetime now = .ok ending ↔
      now + wrap64 lifetime = ending ∧ -2 ^ 63 ≤ ending ∧ ending < 2 ^ 63 := by
  rw [← wrap64_eq_self_iff, expiry]
  split
  · next hfits =>
      rw [Except.ok.injEq]
      refine ⟨fun h => ⟨h, h ▸ hfits⟩, fun h => h.1⟩
  · next hlarge =>
      refine ⟨fun h => (by cases h), ?_⟩
      rintro ⟨rfl, hfits⟩
      exact absurd hfits hlarge

/-- A lifetime from the lower half is too long for a late clock, and one from
the upper half for a clock before its zero. -/
theorem expiry_eq_error_iff (hlow : -2 ^ 62 ≤ now) (hhigh : now < 2 ^ 62)
    (hlifetime : lifetime < UInt64.size) :
    expiry lifetime now = .error .overflow ↔
      (lifetime < 2 ^ 63 ↔ (2 : Int) ^ 63 ≤ now + lifetime) := by
  have hends : expiry lifetime now = .error .overflow ↔
      ¬ (-2 ^ 63 ≤ now + wrap64 lifetime ∧ now + wrap64 lifetime < 2 ^ 63) := by
    rw [← wrap64_eq_self_iff, expiry]
    split <;> simp [*]
  rw [hends]
  by_cases h : lifetime < 2 ^ 63
  · rw [wrap64_of_small h]
    omega
  · rw [wrap64_of_large (by omega) hlifetime]
    simp only [UInt64.size] at hlifetime
    omega

theorem claims_eq_ok_iff {claims : Claims} :
    Claims.of key scopes lifetime now = .ok claims ↔
      ∃ ending, expiry lifetime now = .ok ending ∧
        ⟨key.clientEmail, " ".intercalate scopes, key.tokenUri, now, ending⟩ = claims :=
  map_eq_ok_iff

/-- Where there are claims, the key alone decides whether there is an assertion,
and it has no part in the times that are claimed. -/
theorem assertion_cases (key : ServiceAccountKey) :
    (∃ signingKey, ∀ {scopes lifetime now claims},
      Claims.of key scopes lifetime now = .ok claims →
      Assertion.of key scopes lifetime now = .ok ⟨key.privateKeyId, claims, signingKey⟩) ∨
    ∃ message, ∀ {scopes lifetime now claims},
      Claims.of key scopes lifetime now = .ok claims →
      Assertion.of key scopes lifetime now = .error (.assertion message) := by
  cases hkey : SigningKey.ofText? key.privateKey with
  | none => exact .inr ⟨_, fun h => by rw [Assertion.of, h, hkey]⟩
  | some signingKey =>
      cases hflaw : signingKey.flaw? with
      | some flaw =>
          exact .inr ⟨_, fun h => by simp only [Assertion.of, h, hkey, hflaw]; rfl⟩
      | none =>
          exact .inl ⟨signingKey, fun h => by simp only [Assertion.of, h, hkey, hflaw]⟩

theorem assertion_eq_overflow_iff :
    Assertion.of key scopes lifetime now = .error .overflow ↔
      expiry lifetime now = .error .overflow := by
  cases hclaims : Claims.of key scopes lifetime now with
  | error e =>
      rw [Assertion.of, hclaims]
      rw [Claims.of, map_eq_error_iff] at hclaims
      simp only [hclaims, Except.error.injEq]
  | ok claims =>
      obtain ⟨ending, hending, -⟩ := claims_eq_ok_iff.mp hclaims
      rw [hending]
      obtain ⟨signingKey, hmade⟩ | ⟨message, hfailed⟩ := assertion_cases key
      · rw [hmade hclaims]
        simp
      · rw [hfailed hclaims]
        simp

theorem lifetime_claimed_iff (hlow : -2 ^ 62 ≤ now) (hlifetime : lifetime < UInt64.size) :
    (∃ claims, Claims.of key scopes lifetime now = .ok claims ∧
      claims.expiresAt - claims.issuedAt = lifetime) ↔
      lifetime < 2 ^ 63 ∧ now + lifetime < 2 ^ 63 := by
  constructor
  · rintro ⟨claims, hclaims, hlasts⟩
    obtain ⟨ending, hending, rfl⟩ := claims_eq_ok_iff.mp hclaims
    obtain ⟨rfl, -, hhigh⟩ := expiry_eq_ok_iff.mp hending
    simp only [] at hlasts
    by_cases h : lifetime < 2 ^ 63
    · rw [wrap64_of_small h] at hhigh
      exact ⟨h, hhigh⟩
    · rw [wrap64_of_large (by omega) hlifetime] at hlasts
      omega
  · rintro ⟨h, hends⟩
    have hending : expiry lifetime now = .ok (now + lifetime) :=
      expiry_eq_ok_iff.mpr ⟨by rw [wrap64_of_small h], by omega, hends⟩
    refine ⟨_, claims_eq_ok_iff.mpr ⟨_, hending, rfl⟩, ?_⟩
    simp only []
    omega

theorem ended_of_large {claims : Claims} (hlifetime : lifetime < UInt64.size)
    (hclaims : Claims.of key scopes lifetime now = .ok claims)
    (h : 2 ^ 63 ≤ now + lifetime) : claims.expiresAt < claims.issuedAt := by
  obtain ⟨ending, hending, rfl⟩ := claims_eq_ok_iff.mp hclaims
  obtain ⟨rfl, -, hhigh⟩ := expiry_eq_ok_iff.mp hending
  show now + wrap64 lifetime < now
  by_cases hhalf : lifetime < 2 ^ 63
  · rw [wrap64_of_small hhalf] at hhigh
    omega
  · rw [wrap64_of_large (by omega) hlifetime]
    simp only [UInt64.size] at hlifetime
    omega

/-- The clock of a date is far from the limits of 64 bits. -/
theorem second_of_instant (h : IsInstant now) :
    -2 ^ 62 ≤ now / 1000 ∧ now / 1000 < 2 ^ 62 := by
  simp only [IsInstant, minInstant, maxInstant] at h
  omega

/-! ### Tokens -/

/-- Of the two limits only the date counts: from a date to a date there are
fewer seconds than a span of time can have. -/
theorem issued_eq (hnow : IsInstant now) :
    CachedToken.issued token (some seconds) now =
      if IsInstant (now + seconds * 1000) then .ok ⟨token, some (now + seconds * 1000)⟩
      else .error .dateRange := by
  simp only [CachedToken.issued]
  refine if_congr ⟨fun h => h.2, fun h => ⟨?_, h⟩⟩ rfl rfl
  simp only [IsInstant, minInstant, maxInstant] at hnow h
  simp only [maxSpanSeconds]
  omega

theorem issued_eq_error_iff (hnow : IsInstant now) :
    CachedToken.issued token (some seconds) now = .error .dateRange ↔
      ¬ IsInstant (now + seconds * 1000) := by
  rw [issued_eq hnow]
  split <;> simp_all

theorem issued_eq_ok_iff (hnow : IsInstant now) {t : CachedToken} :
    CachedToken.issued token (some seconds) now = .ok t ↔
      IsInstant (now + seconds * 1000) ∧ t = ⟨token, some (now + seconds * 1000)⟩ := by
  rw [issued_eq hnow]
  split <;> simp_all [eq_comm]

/-- On a date there are claims that last exactly the lifetime if it is read as
it is and their end is a second of 64 bits; all others have ended before they
began, or break off. Where there are claims the key alone decides whether an
assertion is made. A token is kept exactly if its end is a date, and is then
used up exactly if that end is within half a minute. -/
theorem lifetimes_iff (hnow : IsInstant now) :
    (∀ key : ServiceAccountKey,
      (∀ (scopes : List String) (lifetime : Nat), lifetime < UInt64.size →
        ((∃ claims, Claims.of key scopes lifetime (now / 1000) = .ok claims ∧
            claims.expiresAt - claims.issuedAt = lifetime) ↔
          lifetime < 2 ^ 63 ∧ now / 1000 + lifetime < 2 ^ 63) ∧
        (∀ claims, Claims.of key scopes lifetime (now / 1000) = .ok claims →
          2 ^ 63 ≤ now / 1000 + lifetime → claims.expiresAt < claims.issuedAt) ∧
        (Assertion.of key scopes lifetime (now / 1000) = .error .overflow ↔
          (lifetime < 2 ^ 63 ↔ (2 : Int) ^ 63 ≤ now / 1000 + lifetime))) ∧
      ((∃ signingKey, ∀ {scopes lifetime now claims},
          Claims.of key scopes lifetime now = .ok claims →
          Assertion.of key scopes lifetime now =
            .ok ⟨key.privateKeyId, claims, signingKey⟩) ∨
        ∃ message, ∀ {scopes lifetime now claims},
          Claims.of key scopes lifetime now = .ok claims →
          Assertion.of key scopes lifetime now = .error (.assertion message))) ∧
    ∀ (token : String) (seconds : Int),
      ((∃ t, CachedToken.issued token (some seconds) now = .ok t) ↔
        IsInstant (now + seconds * 1000)) ∧
      (CachedToken.issued token (some seconds) now = .error .dateRange ↔
        ¬ IsInstant (now + seconds * 1000)) ∧
      ∀ t clock, CachedToken.issued token (some seconds) now = .ok t →
        t.token = token ∧
          (t.isExpired clock = true ↔ now + seconds * 1000 ≤ clock + 30 * 1000) := by
  obtain ⟨hlow, hhigh⟩ := second_of_instant hnow
  refine ⟨fun key => ⟨fun scopes lifetime hlifetime => ⟨lifetime_claimed_iff hlow hlifetime,
      fun claims => ended_of_large hlifetime, ?_⟩, assertion_cases key⟩,
    fun token seconds => ⟨?_, issued_eq_error_iff hnow, fun t clock hissued => ?_⟩⟩
  · rw [assertion_eq_overflow_iff]
    exact expiry_eq_error_iff hlow hhigh hlifetime
  · simp only [issued_eq_ok_iff hnow, exists_and_left, exists_eq, and_true]
  · obtain ⟨-, rfl⟩ := (issued_eq_ok_iff hnow).mp hissued
    exact ⟨rfl, by simp [isExpired_iff, expiryMargin]⟩

theorem lifetimes_iff_of_hour :
    IsInstant 0 ∧ 3600 < UInt64.size ∧
    (∀ key scopes, ∃ claims, Claims.of key scopes 3600 0 = .ok claims ∧
      claims.expiresAt - claims.issuedAt = 3600) ∧
    ∃ t, CachedToken.issued "token" (some 3600) 0 = .ok t ∧ t.isExpired 3570000 = true ∧
      t.isExpired 3569999 = false := by
  have hnow : IsInstant 0 := by decide
  obtain ⟨hassertion, htoken⟩ := lifetimes_iff hnow
  obtain ⟨t, hissued⟩ := (htoken "token" 3600).1.mpr (by decide)
  have hexpired (clock : Int) := ((htoken "token" 3600).2.2 t clock hissued).2
  refine ⟨hnow, by decide, fun key scopes => ?_, t, hissued,
    (hexpired _).mpr (by decide), ?_⟩
  · exact ((hassertion key).1 scopes 3600 (by decide)).1.mpr (by decide)
  · exact Bool.eq_false_iff.mpr fun h => absurd ((hexpired _).mp h) (by decide)

/-- The longest lifetime that a configuration can want gives an assertion that
ended a second before it was issued, and the longest time for which a token can
be good gives no token. -/
theorem longest_lifetimes_fail :
    (∀ (key : ServiceAccountKey) (signingKey : SigningKey),
      SigningKey.ofText? key.privateKey = some signingKey → signingKey.flaw? = none →
      ∃ a, Assertion.of key [] (UInt64.size - 1) 0 = .ok a ∧
        a.claims.expiresAt - a.claims.issuedAt = -1) ∧
    CachedToken.issued "token" (some (2 ^ 63 - 1)) 0 = .error .dateRange := by
  refine ⟨fun key signingKey hkey hflaw => ?_, by decide⟩
  have hending : expiry (UInt64.size - 1) 0 = .ok (-1) := by decide
  let claims : Claims := ⟨key.clientEmail, " ".intercalate [], key.tokenUri, 0, -1⟩
  have hclaims : Claims.of key [] (UInt64.size - 1) 0 = .ok claims :=
    claims_eq_ok_iff.mpr ⟨-1, hending, rfl⟩
  refine ⟨⟨key.privateKeyId, claims, signingKey⟩, ?_, rfl⟩
  simp only [Assertion.of, hclaims, hkey, hflaw]

end WarehouseLoader.Auth
