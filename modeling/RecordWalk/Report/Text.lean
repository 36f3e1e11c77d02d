import RecordWalk.Report.Basic

/-!
# The text of a report

One line for each result, with its outcome in a column of 16 characters, a line after it for a
discrepancy, and a summary line at the end.
-/

namespace RecordWalk

/-- The width of the first column. -/
def outcomeWidth : Nat := 16

/-- A text with blanks in front, up to a width. -/
def alignRight (width : Nat) (s : String) : String :=
  String.ofList (List.replicate (width - s.length) ' ') ++ s

/-- A text with blanks behind, up to a width. -/
def alignLeft (width : Nat) (s : String) : String :=
  s ++ String.ofList (List.replicate (width - s.length) ' ')

/-- Lines as one text, each ended by a line feed. -/
def unlines (lines : List String) : String :=
  String.ofList (lines.flatMap fun line => line.toList ++ ['\n'])

@[simp] theorem unlines_nil : unlines [] = "" := rfl

@[simp] theorem toList_unlines_cons (line : String) (lines : List String) :
    (unlines (line :: lines)).toList = line.toList ++ '\n' :: (unlines lines).toList := by
  simp [unlines]

namespace FixtureResult

/-- The name, and the diagnostic in parentheses. -/
def title (r : FixtureResult) : String :=
  match r.diagnostic? with
  | some d => r.name ++ "  (" ++ d ++ ")"
  | none => r.name

/-- The lines of a result. -/
def lines (r : FixtureResult) : List String :=
  (alignRight outcomeWidth r.outcome.display ++ "  " ++ r.title) ::
    match r.discrepancy? with
    | some reason => [alignRight outcomeWidth "" ++ "  known discrepancy: " ++ reason]
    | none => []

end FixtureResult

namespace Report

/-- The counts of all outcomes. -/
def summary (r : Report) : String :=
  Nat.repr (r.count .passed) ++ " passed, " ++
  Nat.repr (r.count .failed) ++ " failed, " ++
  Nat.repr (r.count .expectedFailure) ++ " expected failure(s), " ++
  Nat.repr (r.count .unexpectedPass) ++ " unexpected pass(es)"

/-- All lines of a report. -/
def lines (r : Report) : List String := r.results.flatMap FixtureResult.lines ++ [r.summary]

/-- The text of a report. -/
def text (r : Report) : String := unlines r.lines

end Report

end RecordWalk
