/-!
# Repeated operations

An element combined with itself many times, in as many steps as the count has bits. With
multiplication this is a power, with the addition of points a multiple.
-/

namespace Rim.Crypto

variable {α : Type}

/-- The element `a` combined with itself `n` times. -/
def power (op : α → α → α) (one a : α) (n : Nat) : α :=
  if n = 0 then one
  else
    let rest := power op one (op a a) (n / 2)
    if n % 2 = 1 then op a rest else rest
termination_by n
decreasing_by omega

end Rim.Crypto
