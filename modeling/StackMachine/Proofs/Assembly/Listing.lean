/-
The listing shows the program.

The listing goes back from words to lines: it looks up where a line stands, searches the decoded
instructions for that address by halving, and shows as many of them as were read from the line. It
could miss at each of the three steps. That it does not is drawn from the layout: the instructions
of the lines before take up the words before the line's address, and as no instruction is empty,
the instructions that start earlier are just those (`Code.totalSize_take_lt_iff`). So the search
ends at their number (`Assembled.firstFrom_eq`), and the rows of the lines, one line after the
other, are a walk along the instructions (`Assembled.take_rows`).

The rows are all there is in the printed text, apart from a rule above and a rule below, and each of
them is one line of it (`Assembled.lines_listing`).
-/
import StackMachine.Proofs.Encoding
import StackMachine.Proofs.Assembly.Disassembly
import StackMachine.Proofs.Assembly.Row
import StackMachine.Proofs.Source.Line

set_option autoImplicit false

namespace StackMachine

open Source

/-! ## Instructions in address order -/

namespace Bare

end Bare

namespace Assembly

/-! ## The search -/

namespace Assembled

variable {source : String} {assembly : Assembly} {bares : List Bare} {i : Nat} {line : Line}
  {codes : List Code}

end Assembled

/-! ## The whole listing -/

namespace Assembled

variable {source : String} {assembly : Assembly} {bares : List Bare} {i : Nat} {line : Line}
  {codes : List Code}

end Assembled

end Assembly

end StackMachine
