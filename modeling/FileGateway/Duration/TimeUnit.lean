/-!
# Units of time

The units in which a duration is written, with the names each goes by. Months and years have a fixed
mean length: a year has 365.25 days, and a month 30.44 days.
-/

namespace FileGateway

/-- A unit of time. -/
inductive TimeUnit where
  | nanosecond
  | microsecond
  | millisecond
  | second
  | minute
  | hour
  | day
  | week
  | month
  | year
deriving DecidableEq, Repr

/-- How many of a base quantity a unit stands for: whole seconds, or nanoseconds. -/
structure TimeScale where
  factor : Nat
  inSeconds : Bool

namespace TimeUnit

/-- All units, the shortest first. -/
def all : List TimeUnit :=
  [nanosecond, microsecond, millisecond, second, minute, hour, day, week, month, year]

/-- The names of a unit. Upper and lower case are told apart. -/
def names : TimeUnit → List String
  | nanosecond => ["nanos", "nsec", "ns"]
  | microsecond => ["usec", "us", "µs"]
  | millisecond => ["millis", "msec", "ms"]
  | second => ["seconds", "second", "secs", "sec", "s"]
  | minute => ["minutes", "minute", "min", "mins", "m"]
  | hour => ["hours", "hour", "hr", "hrs", "h"]
  | day => ["days", "day", "d"]
  | week => ["weeks", "week", "wk", "wks", "w"]
  | month => ["months", "month", "M"]
  | year => ["years", "year", "yr", "yrs", "y"]

/-- The unit of a given name. -/
def ofName? (name : String) : Option TimeUnit :=
  all.find? fun u => u.names.contains name

/-- What one unit is worth: the short units count nanoseconds, the long ones seconds. -/
def scale : TimeUnit → TimeScale
  | nanosecond => ⟨1, false⟩
  | microsecond => ⟨1000, false⟩
  | millisecond => ⟨1000000, false⟩
  | second => ⟨1, true⟩
  | minute => ⟨60, true⟩
  | hour => ⟨3600, true⟩
  | day => ⟨86400, true⟩
  | week => ⟨604800, true⟩
  | month => ⟨2630016, true⟩
  | year => ⟨31557600, true⟩

/-- What a fraction of a unit is counted in. Fractions of a second and of a minute come down to
nanoseconds, those of longer units to whole seconds only, and a nanosecond has no fractions. -/
def fractionScale : TimeUnit → Option TimeScale
  | nanosecond => none
  | second => some ⟨1000000000, false⟩
  | minute => some ⟨60000000000, false⟩
  | unit => some unit.scale

end TimeUnit

end FileGateway
