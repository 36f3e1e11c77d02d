import RecordWalk.Double.Text
import RecordWalk.Text.Quoted
import RecordWalk.Value.Basic

/-!
# Debug text of values

The debug text names the kind of a value and shows its content, records to any depth. It is
written in front of what follows it, so that a deep record takes no longer than its text is long.
-/

namespace RecordWalk.Value

mutual

/-- The debug text in front of a list of characters. -/
def debugOnto : Value → List Char → List Char
  | undefined, rest => "Undefined".toList ++ rest
  | null, rest => "Null".toList ++ rest
  | bool true, rest => "true".toList ++ rest
  | bool false, rest => "false".toList ++ rest
  | number x, rest => "Number(".toList ++ (x.debug.toList ++ ')' :: rest)
  | text s, rest => "String(".toList ++ (quoteChars s.toList ++ ')' :: rest)
  | record ⟨_, entries⟩, rest =>
    "Object([size = ".toList ++ (Nat.toDigits 10 entries.length ++
      (", items = \x7b".toList ++ debugEntriesOnto entries ("\x7d])".toList ++ rest)))
  | function f, rest => "Lambda(".toList ++ ((f.name.getD "<anonymous>").toList ++ ')' :: rest)

/-- The entries of a record in front of a list of characters, with a comma and a blank between
them. -/
def debugEntriesOnto : List (String × Value) → List Char → List Char
  | [], rest => rest
  | [(name, v)], rest => quoteChars name.toList ++ ':' :: ' ' :: debugOnto v rest
  | (name, v) :: entries, rest =>
    quoteChars name.toList ++
      ':' :: ' ' :: debugOnto v (',' :: ' ' :: debugEntriesOnto entries rest)

end

/-- The debug text. -/
def debug (v : Value) : String := String.ofList (v.debugOnto [])

end RecordWalk.Value
