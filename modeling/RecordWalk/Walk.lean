import RecordWalk.Failure
import RecordWalk.Value.Convert

/-!
# Walking a record

The walk calls the properties of a record in order and concatenates the display texts of the
results. It stops at the first property that is no function or whose call fails, with that
failure.

What a call does is a parameter: `Invoke σ` calls a callable in a state `σ`, which it may change
whether it succeeds or fails. So callables may count, log, build values, or walk records
themselves.
-/

namespace RecordWalk

/-- What calling callables does to a state. -/
abbrev Invoke (σ : Type) := Callable → σ → Except Failure Value × σ

variable {σ : Type}

/-- The call of a value. -/
def Value.call (invoke : Invoke σ) (v : Value) (s : σ) : Except Failure Value × σ :=
  match v with
  | .function f => invoke f s
  | v => (.error (.notFunction v), s)

namespace Record

/-- Call the properties with the given names and append their results to a text. -/
def walkNames (invoke : Invoke σ) (r : Record Value) :
    List String → String → σ → Except Failure String × σ
  | [], acc, s => (.ok acc, s)
  | name :: names, acc, s =>
    match r.get name with
    | .error f => (.error f, s)
    | .ok v =>
      match v.call invoke s with
      | (.error f, s) => (.error f, s)
      | (.ok result, s) => walkNames invoke r names (result.appendTo acc) s

/-- Call all properties in order and concatenate their results. -/
def walk (invoke : Invoke σ) (r : Record Value) (s : σ) : Except Failure String × σ :=
  r.walkNames invoke r.names "" s

end Record

end RecordWalk
