/-!
# The clock

Times and durations are whole milliseconds.  A pause ends at an instant, and
what waits for it is woken there; however long it was meant to be, it lasts no
longer than thirty years.
-/

namespace WriteLatch

/-- Times and durations are in milliseconds. -/
abbrev Millis : Type :=
  Nat

namespace Clock

/-- Thirty years of 365 days. -/
def longestPause : Millis :=
  30 * 365 * 24 * 60 * 60 * 1000

/-- When a pause that begins now is over. -/
def pauseEnd (now duration : Millis) : Millis :=
  now + min duration longestPause

theorem le_pauseEnd (now duration : Millis) : now <= pauseEnd now duration :=
  Nat.le_add_right _ _

theorem pauseEnd_le_iff (now duration : Millis) : pauseEnd now duration <= now ↔ duration = 0 := by
  constructor
  · intro hle
    have hnone : min duration longestPause = 0 :=
      Nat.eq_zero_of_not_pos fun hpos =>
        Nat.not_le_of_lt (Nat.lt_add_of_pos_right hpos) hle
    rcases Nat.le_total duration longestPause with hshort | hlong
    · rwa [Nat.min_eq_left hshort] at hnone
    · rw [Nat.min_eq_right hlong] at hnone
      exact absurd hnone (by decide)
  · rintro rfl
    rw [pauseEnd, Nat.zero_min]
    exact Nat.le_refl now

end Clock
end WriteLatch
