/-!
# Machine words

How many values the words have in which counters, sizes and lengths of time are kept. The numbers
are written out, so that they are the same number wherever they are read.
-/

namespace FileGateway

/-- The number of values of 32 bits. -/
abbrev word32 : Nat := 4294967296

/-- The number of values of 64 bits. -/
abbrev word64 : Nat := 18446744073709551616

end FileGateway
