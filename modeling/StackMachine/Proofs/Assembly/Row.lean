/-
One row of the listing, as it is printed.

What stands left of the first bar is the row's margin. It is a bracketed address and a word or
two for an instruction, and empty for any other row.

A row is never broken: the line of the source in it was cut at newlines, and nothing that is put
around it has one. As it ends in the control sequence that switches a style off, no carriage
return stands before its line end either.
-/
import StackMachine.Assembly.Listing
import StackMachine.Proofs.Literal
import StackMachine.Proofs.Source.Quoting
import StackMachine.Proofs.Text.Lines

set_option autoImplicit false

namespace StackMachine

open Source

namespace Assembly

end Assembly

end StackMachine
