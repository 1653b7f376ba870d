/-!
# Sets of code points by their turning points

A set of code points is given by the increasing list of the code points at which
membership changes, starting outside the set.
-/

namespace ScalarScript
namespace Text

/-- Membership in the set whose turning points are listed. -/
def inside (turns : List Nat) (code : Nat) : Bool :=
  turns.foldl (fun within turn => if turn ≤ code then !within else within) false

/-- Nothing lies in the set without turning points. -/
@[simp] theorem inside_nil (code : Nat) : inside [] code = false := rfl

end Text
end ScalarScript
