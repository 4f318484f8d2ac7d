import PostfixSheet.Calendar

/-!
Moments of time as journals give them: the day and the time of day in the calendar of the world,
down to the millionth of a second.
-/

namespace PostfixSheet

/-- A moment by the millionths of a second since the start of the year 1970. -/
structure Moment where
  micros : Nat
deriving DecidableEq, Repr

namespace Moment

def text (moment : Moment) : Text :=
  let seconds := moment.micros / 1000000
  (Day.ofCount (Day.countAt1970 + seconds / 86400)).text ++ ['T']
    ++ Text.digits 2 (seconds / 3600 % 24) ++ [':'] ++ Text.digits 2 (seconds / 60 % 60) ++ [':']
    ++ Text.digits 2 (seconds % 60) ++ ['.'] ++ Text.digits 6 (moment.micros % 1000000) ++ ['Z']

end Moment
end PostfixSheet
