/-!
# Powers of two and ten

Input:
* an exponent.

Results:
* `twoTo n` and `tenTo n` are the powers, the first with its equations in the exponent.
-/

namespace Provision
namespace Number

def twoTo (n : Nat) : Nat := Nat.pow 2 n

def tenTo (n : Nat) : Nat := Nat.pow 10 n

@[simp] theorem twoTo_zero :
    twoTo 0 = 1 := rfl

theorem twoTo_succ
    (n : Nat) :
    twoTo (n + 1) = twoTo n * 2 := rfl

theorem twoTo_pos
    (n : Nat) :
    0 < twoTo n :=
  Nat.pow_pos (by omega)

end Number
end Provision
