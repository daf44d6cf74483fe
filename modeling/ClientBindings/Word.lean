/-! Integers that fit machine words. -/
namespace ClientBindings.Word

/-- How many values that many bits tell apart. -/
def count (bits : Nat) : Nat := Nat.pow 2 bits

/-- Whether an integer fits an unsigned word of that many bits. -/
def fitsUnsigned (bits : Nat) (n : Int) : Bool := decide (0 ≤ n) && decide (n < count bits)

/-- Whether an integer fits a signed word of one bit more than that many. -/
def fitsSigned (bits : Nat) (n : Int) : Bool :=
  decide (-(count bits : Int) ≤ n) && decide (n < count bits)

end ClientBindings.Word
