/-!
# Dates and times

A moment is a date, a time of day, or both; a date with a time may say how far it is ahead of
universal time.
-/

set_option autoImplicit false

namespace Atoll

/-- A calendar day. -/
structure Day where
  year : Nat
  month : Nat
  day : Nat
  deriving DecidableEq, Repr, Inhabited

/-- A time of day, to the microsecond. -/
structure Clock where
  hour : Nat
  minute : Nat
  second : Nat
  microsecond : Nat
  deriving DecidableEq, Repr, Inhabited

/-- A date, a time of day, or both with an optional distance from universal time in minutes. -/
inductive Moment where
  | date (day : Day)
  | time (clock : Clock)
  | dateTime (day : Day) (clock : Clock) (offset : Option Int)
  deriving DecidableEq, Repr, Inhabited

namespace Moment

/-- The word for the kind of a moment. -/
def kind : Moment → String
  | .date _ => "date"
  | .time _ => "time"
  | .dateTime _ _ _ => "datetime"

/-- The parts of a day, as they stand in a literal. -/
def dayParts (d : Day) : List String :=
  [toString d.year, toString d.month, toString d.day]

/-- The parts of a time of day: seconds and microseconds only where they are not zero. -/
def clockParts (c : Clock) : List String :=
  let seconds := if c.second != 0 || c.microsecond != 0 then [toString c.second] else []
  let fraction := if c.microsecond != 0 then [toString c.microsecond] else []
  [toString c.hour, toString c.minute] ++ seconds ++ fraction

/-- A distance from universal time.  Days are counted down so that the seconds are not negative. -/
def offsetText (minutes : Int) : String :=
  if minutes == 0 then "tzinfo=datetime.timezone.utc"
  else
    let day := minutes.fdiv 1440
    let seconds := (minutes - day * 1440) * 60
    let parts := (if day == 0 then [] else ["days=" ++ toString day])
      ++ (if seconds == 0 then [] else ["seconds=" ++ toString seconds])
    "tzinfo=datetime.timezone(datetime.timedelta(" ++ ", ".intercalate parts ++ "))"

/-- A moment as it stands in a message. -/
def literal : Moment → String
  | .date d => "datetime.date(" ++ ", ".intercalate (dayParts d) ++ ")"
  | .time c => "datetime.time(" ++ ", ".intercalate (clockParts c) ++ ")"
  | .dateTime d c offset =>
    let zone := (offset.map offsetText).toList
    "datetime.datetime(" ++ ", ".intercalate (dayParts d ++ clockParts c ++ zone) ++ ")"

end Moment

end Atoll
