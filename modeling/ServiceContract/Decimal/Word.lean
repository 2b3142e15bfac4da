/-!
# Machine words

The whole numbers that fit words of a given number of bits, with a sign or without one.
-/

namespace ServiceContract.Word

/-- One more than the largest number of 31 bits. -/
def half32 : Nat := 0x80000000

/-- One more than the largest number of 63 bits. -/
def half64 : Nat := 0x8000000000000000

/-- One more than the largest number of 64 bits. -/
def size64 : Nat := 0x10000000000000000

/-- One more than the largest number of 127 bits. -/
def half128 : Nat := 0x80000000000000000000000000000000

/-- One more than the largest number of 128 bits. -/
def size128 : Nat := 0x100000000000000000000000000000000

/-- Whether a number fits 64 bits with a sign. -/
def isSigned64 (n : Int) : Bool := -half64 ≤ n && n < half64

/-- Whether a number fits 64 bits without a sign. -/
def isUnsigned64 (n : Int) : Bool := 0 ≤ n && n < size64

/-- Whether a number fits 64 bits with or without a sign. -/
def is64 (n : Int) : Bool := -half64 ≤ n && n < size64

end ServiceContract.Word
