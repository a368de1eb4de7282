/-
Words: how many values numbers of 32 and 64 bits have. Powers are written out, so that every reader of these modules
means the same numbers by them.
-/

namespace TestTrail.Word

/-- the number of values of 32 bits -/
def limit32 : Nat := 4294967296

/-- the number of values of 63 bits, one more than the greatest signed number of 64 bits -/
def limit63 : Nat := 9223372036854775808

/-- the number of values of 64 bits -/
def limit64 : Nat := 18446744073709551616

end TestTrail.Word
