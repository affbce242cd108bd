/-
# Words

The integers that fit into a number of bits.
-/

namespace HarnessSynthesis.Word

/-- The greatest unsigned word of a number of bits. -/
def greatest (bits : Nat) : Nat := Nat.pow 2 bits - 1

/-- The least signed word of a number of bits. -/
def leastSigned (bits : Nat) : Int := -Nat.pow 2 (bits - 1)

/-- The greatest signed word of a number of bits. -/
def greatestSigned (bits : Nat) : Int := Nat.pow 2 (bits - 1) - 1

/-- Whether an integer is a signed word of a number of bits. -/
def fitsSigned (bits : Nat) (i : Int) : Bool :=
  leastSigned bits ≤ i && i ≤ greatestSigned bits

end HarnessSynthesis.Word
