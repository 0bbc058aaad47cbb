import Mathlib.Data.UInt
import Mathlib.Tactic.Linarith
import Wftpd.Library.Runs

/-! The token bucket that paces transfers.

Times are nanoseconds of the monotonic clock. Arithmetic is that of a release
build: unsigned, 64 or 128 bits wide, wrapping where the code does not saturate.
-/

set_option autoImplicit false

namespace Wftpd.Common
open Wftpd.Library

def u64Max : Nat := 2 ^ 64 - 1

def nanosPerSecond : Nat := 1000000000

structure SpeedLimiter where
  lastCheck : Nat
  tokens : Nat
  maxBytesPerSecond : Nat
  deriving DecidableEq, Repr

namespace SpeedLimiter

def new (now : Nat) (maxKbps : UInt64) : SpeedLimiter :=
  ⟨now, 0, maxKbps.toNat * 1024 % 2 ^ 64⟩

def setLimit (limiter : SpeedLimiter) (maxKbps : UInt64) : SpeedLimiter :=
  { limiter with maxBytesPerSecond := maxKbps.toNat * 1024 % 2 ^ 64 }

def getLimit (limiter : SpeedLimiter) : Nat := limiter.maxBytesPerSecond / 1024

/-- Tokens in the bucket once the time since the last check is credited. -/
def available (limiter : SpeedLimiter) (now : Nat) : Nat :=
  let replenished := min ((now - limiter.lastCheck) * limiter.maxBytesPerSecond % 2 ^ 128 / nanosPerSecond) u64Max
  min (limiter.tokens + replenished) u64Max

/-- The nanoseconds asked of `sleep`, zero when the bucket covers the request. -/
def sleepNanos (limiter : SpeedLimiter) (now bytes : Nat) : Nat :=
  if limiter.available now < bytes then
    min ((bytes - limiter.available now) * nanosPerSecond / limiter.maxBytesPerSecond) u64Max
  else 0

/-- `SpeedLimiter::throttle` called at `now`: the bucket it leaves and how long
it sleeps. The check instant is the one before the sleep. -/
def throttle (limiter : SpeedLimiter) (now bytes : Nat) : SpeedLimiter × Nat :=
  if limiter.maxBytesPerSecond = 0 ∨ bytes = 0 then (limiter, 0)
  else
    ({ limiter with lastCheck := now, tokens := limiter.available now - bytes }, limiter.sleepNanos now bytes)

def shortfall (limiter : SpeedLimiter) (now bytes : Nat) : Nat :=
  if limiter.maxBytesPerSecond = 0 then 0 else bytes - limiter.available now

@[simp] theorem throttle_rate (limiter : SpeedLimiter) (now bytes : Nat) :
    (limiter.throttle now bytes).1.maxBytesPerSecond = limiter.maxBytesPerSecond := by
  unfold throttle
  split <;> rfl

theorem available_le (limiter : SpeedLimiter) (now : Nat) :
    limiter.available now * nanosPerSecond ≤
      limiter.tokens * nanosPerSecond + (now - limiter.lastCheck) * limiter.maxBytesPerSecond := by
  let credit := (now - limiter.lastCheck) * limiter.maxBytesPerSecond
  have wrapped : credit % 2 ^ 128 / nanosPerSecond * nanosPerSecond ≤ credit :=
    (Nat.div_mul_le_self _ _).trans (Nat.mod_le _ _)
  have bounded : limiter.available now ≤ limiter.tokens + credit % 2 ^ 128 / nanosPerSecond :=
    (Nat.min_le_left _ _).trans (Nat.add_le_add_left (Nat.min_le_left _ _) _)
  calc limiter.available now * nanosPerSecond
      ≤ (limiter.tokens + credit % 2 ^ 128 / nanosPerSecond) * nanosPerSecond := Nat.mul_le_mul_right _ bounded
    _ ≤ limiter.tokens * nanosPerSecond + credit := by rw [Nat.add_mul]; exact Nat.add_le_add_left wrapped _

theorem throttle_spec {limiter : SpeedLimiter} (limited : limiter.maxBytesPerSecond ≠ 0) (now bytes : Nat) :
    bytes = 0 ∧ (limiter.throttle now bytes).1 = limiter ∨
    (limiter.throttle now bytes).1.lastCheck = now ∧
      (limiter.throttle now bytes).1.tokens + bytes = limiter.available now + limiter.shortfall now bytes := by
  by_cases idle : bytes = 0
  · exact .inl ⟨idle, by simp [throttle, idle]⟩
  · right
    simp only [throttle, limited, idle, or_self, if_false, shortfall]
    exact ⟨trivial, by omega⟩

section Limit

/-- The limiter paces at this limit, or at the highest rate there is. -/
structure Converts (limiter : SpeedLimiter) (maxKbps : UInt64) : Prop where
  rate : limiter.maxBytesPerSecond = min (maxKbps.toNat * 1024) u64Max
  limited : limiter.maxBytesPerSecond ≠ 0
  getLimit : limiter.getLimit = min maxKbps.toNat (u64Max / 1024)

/-- A wrapped product is no multiple that was clamped, since 2 ^ 64 - 1 is odd. -/
theorem converts_iff {limiter : SpeedLimiter} {maxKbps : UInt64} (positive : 0 < maxKbps)
    (wraps : limiter.maxBytesPerSecond = maxKbps.toNat * 1024 % 2 ^ 64) :
    limiter.Converts maxKbps ↔ maxKbps.toNat * 1024 < 2 ^ 64 := by
  have nonzero : 0 < maxKbps.toNat := positive
  constructor
  · intro converts
    have rate := converts.rate
    rw [wraps, u64Max] at rate
    omega
  · intro fits
    have rate : limiter.maxBytesPerSecond = maxKbps.toNat * 1024 := by
      rw [wraps, Nat.mod_eq_of_lt fits]
    refine ⟨?_, ?_, ?_⟩
    · rw [rate, u64Max]
      omega
    · rw [rate]
      omega
    · rw [SpeedLimiter.getLimit, rate, u64Max]
      omega

/-- A new limiter and one that is set to a limit pace at it exactly when its bytes can be counted. -/
theorem limit_converts_iff {maxKbps : UInt64} (positive : 0 < maxKbps) (now : Nat) (limiter : SpeedLimiter) :
    (new now maxKbps).Converts maxKbps ∧ (limiter.setLimit maxKbps).Converts maxKbps ↔
      maxKbps.toNat * 1024 < 2 ^ 64 := by
  rw [converts_iff positive rfl, converts_iff positive rfl, and_self]

theorem limit_converts_iff_highest : (new 0 (2 ^ 54 - 1)).Converts (2 ^ 54 - 1) ∧
    ((new 0 1).setLimit (2 ^ 54 - 1)).Converts (2 ^ 54 - 1) :=
  (limit_converts_iff (by decide) 0 (new 0 1)).mpr (by decide)

theorem limit_wraps : ¬ ∀ (maxKbps : UInt64), 0 < maxKbps → ∀ (now : Nat) (limiter : SpeedLimiter),
    (new now maxKbps).Converts maxKbps ∧ (limiter.setLimit maxKbps).Converts maxKbps := by
  intro law
  exact (law (2 ^ 54) (by decide) 0 (new 0 1)).1.limited (by decide)

end Limit

end SpeedLimiter

/-- One call: what it asks for, when it reads the clock and when it returns. -/
structure ThrottleCall where
  bytes : UInt64
  start : Nat
  finish : Nat
  deriving DecidableEq, Repr

/-- A limiter in use. `sent`, `largest` and `waited` record the requests so far:
their sum, their maximum, and the bytes calls found missing. -/
structure Transfer where
  limiter : SpeedLimiter
  clock : Nat
  sent : Nat
  largest : Nat
  waited : Nat
  deriving DecidableEq, Repr

namespace Transfer

def begin (now : Nat) (maxKbps : UInt64) : Transfer := ⟨.new now maxKbps, now, 0, 0, 0⟩

/-- A call is possible when time does not go back and its sleep is not cut short. -/
def step (transfer : Transfer) (call : ThrottleCall) : Option Transfer :=
  let (limiter, nanos) := transfer.limiter.throttle call.start call.bytes.toNat
  if transfer.clock ≤ call.start ∧ call.start + nanos ≤ call.finish then
    some {
      limiter := limiter
      clock := call.finish
      sent := transfer.sent + call.bytes.toNat
      largest := max transfer.largest call.bytes.toNat
      waited := transfer.waited + transfer.limiter.shortfall call.start call.bytes.toNat }
  else none

/-- The bandwidth bound, in units of a byte-nanosecond per second. -/
def WithinRate (rate since : Nat) (transfer : Transfer) : Prop :=
  transfer.sent * nanosPerSecond ≤ rate * (transfer.clock - since) + transfer.largest * nanosPerSecond

/-- With this call, the bytes that calls had to wait for stay within the largest
request. Past that, time slept through has been credited once more. -/
def ShortfallCovered (transfer : Transfer) (call : ThrottleCall) : Prop :=
  transfer.waited + transfer.limiter.shortfall call.start call.bytes.toNat ≤
    max transfer.largest call.bytes.toNat

instance (transfer : Transfer) (call : ThrottleCall) : Decidable (transfer.ShortfallCovered call) := by
  unfold ShortfallCovered; infer_instance

instance (rate since : Nat) (transfer : Transfer) : Decidable (transfer.WithinRate rate since) := by
  unfold WithinRate; infer_instance

theorem step_cases {transfer next : Transfer} {call : ThrottleCall} (taken : transfer.step call = some next) :
    transfer.clock ≤ call.start ∧ call.start ≤ call.finish ∧
      next = {
        limiter := (transfer.limiter.throttle call.start call.bytes.toNat).1
        clock := call.finish
        sent := transfer.sent + call.bytes.toNat
        largest := max transfer.largest call.bytes.toNat
        waited := transfer.waited + transfer.limiter.shortfall call.start call.bytes.toNat } := by
  simp only [step] at taken
  split at taken
  · next timely => exact ⟨timely.1, by omega, (Option.some.inj taken).symm⟩
  · cases taken

/-- Everything sent and everything still in the bucket has been paid for by time
up to the last check, except what calls had to wait for. -/
structure Paid (rate since : Nat) (transfer : Transfer) : Prop where
  limited : transfer.limiter.maxBytesPerSecond = rate
  started : since ≤ transfer.limiter.lastCheck
  checked : transfer.limiter.lastCheck ≤ transfer.clock
  balance : (transfer.sent + transfer.limiter.tokens) * nanosPerSecond ≤
    rate * (transfer.limiter.lastCheck - since) + transfer.waited * nanosPerSecond

theorem Paid.step {rate since : Nat} (limited : rate ≠ 0) {transfer next : Transfer} {call : ThrottleCall}
    (paid : Paid rate since transfer) (taken : transfer.step call = some next) : Paid rate since next := by
  obtain ⟨forward, finished, rfl⟩ := step_cases taken
  have checked := paid.checked
  have started := paid.started
  have balance := paid.balance
  have credit := transfer.limiter.available_le call.start
  rw [paid.limited] at credit
  have hasRate : transfer.limiter.maxBytesPerSecond ≠ 0 := by
    rw [paid.limited]
    exact limited
  rcases SpeedLimiter.throttle_spec hasRate call.start call.bytes.toNat with
    ⟨idle, same⟩ | ⟨checkedAt, tokens⟩
  -- no time has been credited: what goes out was in the bucket or is waited for
  · refine ⟨by simp [paid.limited], by simpa [same] using started, by simp only [same]; omega, ?_⟩
    simp only [same]
    rw [idle, Nat.add_zero, Nat.add_mul transfer.waited]
    omega
  -- the time up to the call has been credited, at the rate, and the rest is waited for
  · refine ⟨by simp [paid.limited], by simp only [checkedAt]; omega, by simp only [checkedAt]; omega, ?_⟩
    have elapsed : rate * (transfer.limiter.lastCheck - since) +
        (call.start - transfer.limiter.lastCheck) * rate = rate * (call.start - since) := by
      rw [Nat.mul_comm _ rate, ← Nat.mul_add]
      congr 1
      omega
    have exchange : (transfer.sent + call.bytes.toNat +
          (transfer.limiter.throttle call.start call.bytes.toNat).1.tokens) * nanosPerSecond =
        transfer.sent * nanosPerSecond + transfer.limiter.available call.start * nanosPerSecond +
          transfer.limiter.shortfall call.start call.bytes.toNat * nanosPerSecond := by
      rw [← Nat.add_mul, ← Nat.add_mul]
      congr 1
      omega
    simp only [checkedAt]
    rw [exchange, Nat.add_mul transfer.waited]
    rw [Nat.add_mul] at balance
    omega

theorem Paid.withinRate {rate since : Nat} {transfer : Transfer} (paid : Paid rate since transfer)
    (covered : transfer.waited ≤ transfer.largest) : transfer.WithinRate rate since := by
  have balance := paid.balance
  have time : rate * (transfer.limiter.lastCheck - since) ≤ rate * (transfer.clock - since) :=
    Nat.mul_le_mul_left _ (Nat.sub_le_sub_right paid.checked _)
  have waits := Nat.mul_le_mul_right nanosPerSecond covered
  unfold WithinRate
  rw [Nat.add_mul] at balance
  omega

theorem begin_paid {maxKbps : UInt64} (now : Nat) (fits : 1024 * maxKbps.toNat < 2 ^ 64) :
    Paid (1024 * maxKbps.toNat) now (begin now maxKbps) := by
  refine ⟨?_, le_refl now, le_refl now, by simp [begin, SpeedLimiter.new]⟩
  simp only [begin, SpeedLimiter.new, Nat.mul_comm _ 1024]
  exact Nat.mod_eq_of_lt fits

/-- Along every sequence of calls whose shortfalls stay covered, the bytes sent
by each return are bounded by the rate and one largest request. -/
theorem exec_withinRate (maxKbps : UInt64) (since : Nat) (positive : 1 ≤ maxKbps.toNat)
    (fits : 1024 * maxKbps.toNat < 2 ^ 64) (calls : List ThrottleCall) (final : Transfer)
    (covered : Guarded step ShortfallCovered (begin since maxKbps) calls)
    (reached : exec step (begin since maxKbps) calls = some final) :
    final.WithinRate (1024 * maxKbps.toNat) since := by
  let paidUp (transfer : Transfer) :=
    Paid (1024 * maxKbps.toNat) since transfer ∧ transfer.waited ≤ transfer.largest
  have initial : paidUp (begin since maxKbps) := ⟨begin_paid since fits, le_refl 0⟩
  have keeps : ∀ transfer call next, paidUp transfer → ShortfallCovered transfer call →
      transfer.step call = some next → paidUp next := by
    intro transfer call next paid covers taken
    refine ⟨paid.1.step (by omega) taken, ?_⟩
    obtain ⟨-, -, rfl⟩ := step_cases taken
    exact covers
  have kept : paidUp final := exec_invariant keeps initial covered reached
  exact kept.1.withinRate kept.2

theorem exec_withinRate_two_calls :
    (⟨⟨1000000000, 0, 1024⟩, 1000000000, 2048, 1024, 1024⟩ : Transfer).WithinRate (1024 * 1) 0 :=
  exec_withinRate 1 0 (by decide) (by decide) [⟨1024, 0, 1000000000⟩, ⟨1024, 1000000000, 1000000000⟩] _
    (by refine ⟨by decide, fun next taken => ?_⟩
        cases taken
        exact ⟨by decide, fun _ _ => trivial⟩)
    (by decide)

/-- Four requests of a kilobyte leave in two seconds at one kilobyte a second:
every second one is paid for by the sleep of the one before it. -/
theorem rate_exceeded : ¬ ∀ (maxKbps : UInt64) (since : Nat), 1 ≤ maxKbps.toNat → 1024 * maxKbps.toNat < 2 ^ 64 →
    ∀ (calls : List ThrottleCall) (final : Transfer), exec step (begin since maxKbps) calls = some final →
      final.WithinRate (1024 * maxKbps.toNat) since := by
  intro bounded
  have reached := bounded 1 0 (by decide) (by decide)
    [⟨1024, 0, 1000000000⟩, ⟨1024, 1000000000, 1000000000⟩,
      ⟨1024, 1000000000, 2000000000⟩, ⟨1024, 2000000000, 2000000000⟩]
    ⟨⟨2000000000, 0, 1024⟩, 2000000000, 4096, 1024, 2048⟩ (by decide)
  exact absurd reached (by decide)

end Transfer

end Wftpd.Common
