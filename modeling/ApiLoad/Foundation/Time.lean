import Mathlib.Algebra.Order.Group.Int

/-!
# Time

Instants and durations of Go. An instant is in nanoseconds since the zero time, so that `0` is the
zero time itself; a duration has 64 bits, and the difference of two instants saturates.
-/
namespace ApiLoad.Foundation

/-- `time.Duration`, in nanoseconds. -/
abbrev Duration := Int64

abbrev Time := Int

namespace Time

def isZero (t : Time) : Bool := t = 0

def add (t : Time) (d : Duration) : Time := t + d.toInt

def addSeconds (t : Time) (seconds : Int) : Time := t + seconds * 1000000000

def sub (t u : Time) : Duration :=
  Int64.ofInt (max Int64.minValue.toInt (min Int64.maxValue.toInt (t - u)))

theorem sub_le_zero (t u : Time) : sub t u ≤ 0 ↔ t ≤ u := by
  have difference : t - u ≤ 0 ↔ t ≤ u := ⟨Int.le_of_sub_nonpos, Int.sub_nonpos_of_le⟩
  rw [sub, Int64.le_iff_toInt_le, Int64.toInt_ofInt_of_le]
  all_goals simp [Int64.toInt_maxValue, difference]

/-- The Unix epoch, in seconds since the zero time. -/
def unixEpoch : Int := 62135596800

def unix (seconds : Int) : Time := (unixEpoch + seconds) * 1000000000

def ofUnixMilli (milliseconds : Int) : Time := unixEpoch * 1000000000 + milliseconds * 1000000

def unixMilli (t : Time) : Int := (t - unix 0) / 1000000

theorem unixMilli_le {t u : Time} (h : t ≤ u) : t.unixMilli ≤ u.unixMilli :=
  Int.ediv_le_ediv (by decide) (Int.sub_le_sub_right h _)

end Time

end ApiLoad.Foundation
