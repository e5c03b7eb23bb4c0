/-!
# BearerAuth — clock

Token lifetimes and the freshness of published keys are measured in whole seconds of Unix time,
held in a 64-bit word. Arithmetic towards the future stops at the last representable second and
differences towards the past stop at zero, so no deadline ever wraps around. Only the hand of a
clock that is moved by its owner (`UnixTime.advance`) wraps.

## Main definitions

* `UnixTime`               — seconds since the start of 1970.
* `UnixTime.secondsSince`  — elapsed seconds, zero when the other instant lies ahead.
* `UnixTime.after`         — the instant so many seconds later, stopping at the last one.
* `UnixTime.ofSystemTime`  — the whole seconds of an instant; instants before 1970 are its start.
-/

namespace BearerAuth

/-- An instant, in seconds since 1970-01-01 at midnight UTC. -/
structure UnixTime where
  seconds : UInt64
deriving DecidableEq, Inhabited

namespace UnixTime

/-- The last instant that can be represented. -/
def last : UnixTime := ⟨18446744073709551615⟩

/-- The instant with this number of seconds, or the last one if the number is too large. -/
def ofNat (n : Nat) : UnixTime := ⟨UInt64.ofNat (min n (UInt64.size - 1))⟩

/-- Seconds elapsed from `earlier` until `t`, zero if `earlier` lies in the future. -/
def secondsSince (t earlier : UnixTime) : UInt64 :=
  if earlier.seconds ≤ t.seconds then t.seconds - earlier.seconds else 0

/-- The instant `n` seconds after `t`; additions that would pass the last instant stop there. -/
def after (t : UnixTime) (n : UInt64) : UnixTime := ofNat (t.seconds.toNat + n.toNat)

/-- Moves the hand of a clock by `n` seconds. The hand turns over after the last instant. -/
def advance (t : UnixTime) (n : UInt64) : UnixTime := ⟨t.seconds + n⟩

/-- The whole seconds of an instant that lies `seconds` (and a fraction) after the start of 1970.
Instants before it (`before`) count as the start itself. -/
def ofSystemTime (before : Bool) (seconds : UInt64) : UnixTime :=
  if before then ⟨0⟩ else ⟨seconds⟩

instance : Ord UnixTime := ⟨fun a b => compare a.seconds b.seconds⟩

instance : ToString UnixTime := ⟨fun t => toString t.seconds.toNat⟩

/-! ## Arithmetic read in the natural numbers -/

theorem toNat_ofNat (n : Nat) : (ofNat n).seconds.toNat = min n (UInt64.size - 1) := by
  simp only [ofNat, UInt64.toNat_ofNat', UInt64.size]
  omega

/-- The number of a later instant is the sum, or the last value if the sum is too large. -/
theorem toNat_after (t : UnixTime) (n : UInt64) :
    (t.after n).seconds.toNat = min (t.seconds.toNat + n.toNat) (UInt64.size - 1) :=
  toNat_ofNat _

/-- Elapsed seconds are the difference of natural numbers, which is zero for an instant that lies
ahead. -/
theorem toNat_secondsSince (t earlier : UnixTime) :
    (t.secondsSince earlier).toNat = t.seconds.toNat - earlier.seconds.toNat := by
  unfold secondsSince
  split
  · next h => rw [UInt64.toNat_sub_of_le _ _ h]
  · next h =>
    rw [UInt64.le_iff_toNat_le] at h
    simp only [UInt64.toNat_zero]
    omega

end UnixTime
end BearerAuth
