import RecordWalk.Proofs.Text.Quoted
import RecordWalk.Report.Text

/-!
# The text of a report loses no verdict

The text of a report shows of each result its outcome, its title and its discrepancy, if there is
one. Names and diagnostics may imitate anything in the text. What they cannot do is to fill the
first column: it has 16 characters in every line of a result, and it is blank in the line of a
discrepancy and in no line of a result. So the lines tell which results have a discrepancy, and the
verdicts are read off from the top.

The summary is made by counting, and the success of a report by a pass over its results. Both look
at the outcomes alone, and each outcome is counted under one heading.

**Theorem (`text_verdicts`).** Reports with the same text have the same verdicts, and the last line
tells whether the report is a success.
-/

namespace RecordWalk

/-! ## Lines -/

/-- The pieces of a text between its line feeds. -/
def splitLines (s : String) : List String := (s.toList.splitOn '\n').map String.ofList

theorem splitLines_unlines {lines : List String} (h : ∀ line ∈ lines, '\n' ∉ line.toList) :
    splitLines (unlines lines) = lines ++ [""] := by
  unfold splitLines
  induction lines with
  | nil => rfl
  | cons line lines ih =>
    have htail := ih fun l hl => h l (.tail line hl)
    rw [toList_unlines_cons, List.splitOn_append_cons_self,
      List.splitOn_eq_singleton (h line List.mem_cons_self), List.singleton_append, List.map_cons,
      htail, String.ofList_toList, List.cons_append]

/-! ## Verdicts -/

/-- What the text of a report shows of a result. -/
structure Verdict where
  outcome : Outcome
  title : String
  discrepancy? : Option String
deriving DecidableEq

/-- The title is the name, with the diagnostic in parentheses after two blanks. -/
def FixtureResult.toVerdict (r : FixtureResult) : Verdict where
  outcome := r.outcome
  title := r.name ++ r.diagnostic?.elim "" fun d => "  (" ++ d ++ ")"
  discrepancy? := r.discrepancy?

theorem FixtureResult.title_eq (r : FixtureResult) : r.title = r.toVerdict.title := by
  unfold title toVerdict
  cases r.diagnostic? with
  | none => exact String.append_empty.symm
  | some d => simp only [Option.elim_some, String.append_assoc]

/-- The first column of the line of a result. -/
def Outcome.column : Outcome → String
  | passed => "          passed"
  | failed => "          FAILED"
  | expectedFailure => "expected failure"
  | unexpectedPass => " UNEXPECTED PASS"

/-- The first column of the line of a discrepancy. -/
def blankColumn : String := "                "

def resultLine (o : Outcome) (title : String) : String := o.column ++ "  " ++ title

def discrepancyLine (reason : String) : String := blankColumn ++ "  known discrepancy: " ++ reason

/-- The line of a result, and after it the one of its discrepancy. -/
def Verdict.lines (v : Verdict) : List String :=
  resultLine v.outcome v.title :: (v.discrepancy?.map discrepancyLine).toList

theorem FixtureResult.lines_eq (r : FixtureResult) : r.lines = r.toVerdict.lines := by
  have hcolumn : alignRight outcomeWidth r.outcome.display = r.outcome.column := by
    cases r.outcome <;> rfl
  have hblank : alignRight outcomeWidth "" = blankColumn := rfl
  unfold lines
  rw [hcolumn, hblank, r.title_eq]
  show _ = resultLine r.outcome r.toVerdict.title :: (r.discrepancy?.map discrepancyLine).toList
  cases r.discrepancy? <;> rfl

theorem Outcome.length_column (o : Outcome) : o.column.toList.length = 16 := by cases o <;> rfl

theorem Outcome.column_injective : Function.Injective column := by
  intro o p h
  cases o <;> cases p <;> first | rfl | exact absurd h (by decide)

theorem Outcome.column_ne_blank (o : Outcome) : o.column ≠ blankColumn := by cases o <;> decide

theorem toList_resultLine (o : Outcome) (title : String) :
    (resultLine o title).toList = o.column.toList ++ ("  ".toList ++ title.toList) := by
  show (o.column ++ "  " ++ title).toList = _
  rw [String.toList_append, String.toList_append, List.append_assoc]

theorem toList_discrepancyLine (reason : String) :
    (discrepancyLine reason).toList =
      blankColumn.toList ++ ("  known discrepancy: ".toList ++ reason.toList) := by
  show (blankColumn ++ "  known discrepancy: " ++ reason).toList = _
  rw [String.toList_append, String.toList_append, List.append_assoc]

theorem resultLine_inj {o p : Outcome} {t u : String} (h : resultLine o t = resultLine p u) :
    o = p ∧ t = u := by
  have hchars := congrArg String.toList h
  rw [toList_resultLine, toList_resultLine] at hchars
  obtain ⟨hcolumn, htitle⟩ := List.append_inj hchars (o.length_column.trans p.length_column.symm)
  exact ⟨Outcome.column_injective (String.toList_inj.1 hcolumn),
    String.toList_inj.1 (List.append_cancel_left htitle)⟩

theorem discrepancyLine_inj {a b : String} (h : discrepancyLine a = discrepancyLine b) : a = b := by
  have hchars := congrArg String.toList h
  rw [toList_discrepancyLine, toList_discrepancyLine] at hchars
  exact String.toList_inj.1 (List.append_cancel_left (List.append_cancel_left hchars))

/-- The first column is blank in the line of a discrepancy only. -/
theorem resultLine_ne_discrepancyLine (o : Outcome) (title reason : String) :
    resultLine o title ≠ discrepancyLine reason := by
  intro h
  have hchars := congrArg String.toList h
  rw [toList_resultLine, toList_discrepancyLine] at hchars
  obtain ⟨hcolumn, -⟩ := List.append_inj hchars o.length_column
  exact o.column_ne_blank (String.toList_inj.1 hcolumn)

/-- The lines of verdicts, with one more line after them, do not begin with a discrepancy. -/
theorem discrepancyLine_cons_ne {reason : String} {rest : List String} (hrest : rest ≠ [])
    (ws : List Verdict) (last : String) :
    discrepancyLine reason :: rest ≠ ws.flatMap Verdict.lines ++ [last] := by
  intro h
  cases ws with
  | nil => exact hrest (List.cons.inj h).2
  | cons w ws =>
    exact resultLine_ne_discrepancyLine w.outcome w.title reason (List.cons.inj h).1.symm

/-- **Verdicts are read off their lines**, whatever the last line is. -/
theorem verdicts_eq_of_lines_eq {vs ws : List Verdict} {last last' : String}
    (h : vs.flatMap Verdict.lines ++ [last] = ws.flatMap Verdict.lines ++ [last']) : vs = ws := by
  induction vs generalizing ws with
  | nil =>
    cases ws with
    | nil => rfl
    | cons w ws => simpa [Verdict.lines] using congrArg List.length h
  | cons v vs ih =>
    cases ws with
    | nil => simpa [Verdict.lines] using congrArg List.length h
    | cons w ws =>
      obtain ⟨o, title, reason?⟩ := v
      obtain ⟨o', title', reason'?⟩ := w
      obtain ⟨hline, htail⟩ := List.cons.inj h
      obtain ⟨rfl, rfl⟩ := resultLine_inj hline
      cases reason? with
      | none =>
        cases reason'? with
        | none => rw [ih htail]
        | some b => exact absurd htail.symm (discrepancyLine_cons_ne (by simp) vs last)
      | some a =>
        cases reason'? with
        | none => exact absurd htail (discrepancyLine_cons_ne (by simp) ws last')
        | some b =>
          obtain ⟨hreason, hrest⟩ := List.cons.inj htail
          obtain rfl := discrepancyLine_inj hreason
          rw [ih hrest]

/-! ## The summary -/

/-- The last line of a report. -/
def summaryLine (passed failed expected unexpected : Nat) : String :=
  Nat.repr passed ++ " passed, " ++
  Nat.repr failed ++ " failed, " ++
  Nat.repr expected ++ " expected failure(s), " ++
  Nat.repr unexpected ++ " unexpected pass(es)"

theorem toList_summaryLine (p f e u : Nat) :
    (summaryLine p f e u).toList =
      Nat.toDigits 10 p ++ ' ' :: ("passed, ".toList ++
      (Nat.toDigits 10 f ++ ' ' :: ("failed, ".toList ++
      (Nat.toDigits 10 e ++ ' ' :: ("expected failure(s), ".toList ++
      (Nat.toDigits 10 u ++ ' ' :: "unexpected pass(es)".toList)))))) := by
  show (Nat.repr p ++ " passed, " ++ Nat.repr f ++ " failed, " ++
    Nat.repr e ++ " expected failure(s), " ++ Nat.repr u ++ " unexpected pass(es)").toList = _
  simp only [String.toList_append, List.append_assoc, Nat.repr_eq_ofList_toDigits,
    String.toList_ofList]
  rfl

/-- A numeral ends at the blank after it. -/
theorem eq_of_toDigits_blank {m n : Nat} {r s : List Char}
    (h : Nat.toDigits 10 m ++ ' ' :: r = Nat.toDigits 10 n ++ ' ' :: s) : m = n ∧ r = s := by
  obtain ⟨hdigits, hrest⟩ := append_mark_inj (notMem_toDigits rfl) (notMem_toDigits rfl) h
  exact ⟨toDigits_injective (by decide) (by decide) hdigits, hrest⟩

/-- The summary shows its four numbers. -/
theorem summaryLine_inj {p f e u p' f' e' u' : Nat}
    (h : summaryLine p f e u = summaryLine p' f' e' u') : p = p' ∧ f = f' ∧ e = e' ∧ u = u' := by
  have hchars := congrArg String.toList h
  rw [toList_summaryLine, toList_summaryLine] at hchars
  obtain ⟨hpassed, hchars⟩ := eq_of_toDigits_blank hchars
  obtain ⟨hfailed, hchars⟩ := eq_of_toDigits_blank (List.append_cancel_left hchars)
  obtain ⟨hexpected, hchars⟩ := eq_of_toDigits_blank (List.append_cancel_left hchars)
  obtain ⟨hunexpected, -⟩ := eq_of_toDigits_blank (List.append_cancel_left hchars)
  exact ⟨hpassed, hfailed, hexpected, hunexpected⟩

theorem newline_notMem_summaryLine (p f e u : Nat) : '\n' ∉ (summaryLine p f e u).toList := by
  have hdigits (n : Nat) : '\n' ∉ Nat.toDigits 10 n := notMem_toDigits rfl
  rw [toList_summaryLine]
  simp [hdigits]

namespace Report

theorem count_eq (r : Report) (o : Outcome) :
    r.count o = (r.results.map FixtureResult.outcome).count o := by
  rw [count, List.count, List.countP_map]
  rfl

theorem summary_eq (r : Report) :
    r.summary = summaryLine (r.count .passed) (r.count .failed) (r.count .expectedFailure)
      (r.count .unexpectedPass) := rfl

/-- Each result is counted once. -/
theorem count_add (r : Report) :
    r.count .passed + r.count .failed + r.count .expectedFailure + r.count .unexpectedPass =
      r.results.length := by
  obtain ⟨results, strict⟩ := r
  unfold count
  dsimp only
  induction results with
  | nil => rfl
  | cons result results ih =>
    simp only [List.countP_cons, List.length_cons]
    cases result.outcome <;> simp <;> omega

theorem count_eq_zero_iff (r : Report) (o : Outcome) :
    r.count o = 0 ↔ ∀ result ∈ r.results, result.outcome ≠ o := by
  simp [count, List.countP_eq_zero]

/-- A report is a success if nothing is counted that speaks against it. -/
theorem isSuccess_iff_count (r : Report) :
    r.isSuccess = true ↔ r.count .failed = 0 ∧ r.count .unexpectedPass = 0 ∧
      (r.strict = true → r.count .expectedFailure = 0) := by
  simp only [count_eq_zero_iff, isSuccess, List.all_eq_true]
  constructor
  · intro h
    refine ⟨fun result hr ho => ?_, fun result hr ho => ?_, fun hs result hr ho => ?_⟩
    · simpa [ho] using h result hr
    · simpa [ho] using h result hr
    · simpa [ho, hs] using h result hr
  · rintro ⟨hfailed, hunexpected, hexpected⟩ result hr
    cases ho : result.outcome with
    | passed => rfl
    | failed => exact absurd ho (hfailed result hr)
    | unexpectedPass => exact absurd ho (hunexpected result hr)
    | expectedFailure =>
      cases hs : r.strict with
      | false => rfl
      | true => exact absurd ho (hexpected hs result hr)

end Report

/-! ## The whole text -/

namespace FixtureResult

/-- No part of a result breaks its line. -/
def IsOneLine (r : FixtureResult) : Prop :=
  '\n' ∉ r.name.toList ∧ (∀ d ∈ r.diagnostic?, '\n' ∉ d.toList) ∧
    ∀ reason ∈ r.discrepancy?, '\n' ∉ reason.toList

theorem IsOneLine.newline_notMem_title {r : FixtureResult} (h : r.IsOneLine) :
    '\n' ∉ r.toVerdict.title.toList := by
  obtain ⟨hname, hdiagnostic, -⟩ := h
  unfold toVerdict
  cases hd : r.diagnostic? with
  | none => simpa using hname
  | some d =>
    have hnot := hdiagnostic d hd
    simp [hname, hnot]

theorem IsOneLine.newline_notMem_lines {r : FixtureResult} (h : r.IsOneLine) :
    ∀ line ∈ r.toVerdict.lines, '\n' ∉ line.toList := by
  have hcolumn : '\n' ∉ r.outcome.column.toList := by cases r.outcome <;> decide
  intro line hline
  rcases List.mem_cons.1 hline with rfl | hline
  · rw [toList_resultLine]
    have hfirst : '\n' ∉ r.toVerdict.outcome.column.toList := hcolumn
    simp [hfirst, h.newline_notMem_title]
  · obtain ⟨reason, hreason, rfl⟩ : ∃ reason, r.discrepancy? = some reason ∧
        discrepancyLine reason = line := by simpa [toVerdict] using hline
    have hnot := h.2.2 reason hreason
    have hblank : '\n' ∉ blankColumn.toList := by decide
    rw [toList_discrepancyLine]
    simp [hblank, hnot]

end FixtureResult

namespace Report

theorem lines_eq (r : Report) :
    r.lines = (r.results.map FixtureResult.toVerdict).flatMap Verdict.lines ++ [r.summary] := by
  have hlines : FixtureResult.lines = fun result => result.toVerdict.lines :=
    funext FixtureResult.lines_eq
  rw [lines, List.flatMap_map, hlines]

theorem splitLines_text {r : Report} (h : ∀ result ∈ r.results, result.IsOneLine) :
    splitLines r.text =
      (r.results.map FixtureResult.toVerdict).flatMap Verdict.lines ++ [r.summary, ""] := by
  rw [text, splitLines_unlines, lines_eq, List.append_assoc, List.singleton_append]
  rw [lines_eq]
  intro line hline
  rcases List.mem_append.1 hline with hline | hline
  · obtain ⟨v, hv, hline⟩ := List.mem_flatMap.1 hline
    obtain ⟨result, hresult, rfl⟩ := List.mem_map.1 hv
    exact (h result hresult).newline_notMem_lines line hline
  · rw [List.mem_singleton.1 hline, summary_eq]
    exact newline_notMem_summaryLine _ _ _ _

/-- The text shows nothing but the verdicts: the counts are those of their outcomes. -/
theorem text_eq_of_verdicts_eq {r r' : Report}
    (h : r.results.map FixtureResult.toVerdict = r'.results.map FixtureResult.toVerdict) :
    r.text = r'.text := by
  have hcount (o : Outcome) : r.count o = r'.count o := by
    have hmap := congrArg (List.countP fun v => v.outcome == o) h
    rw [List.countP_map, List.countP_map] at hmap
    exact hmap
  rw [text, text, lines_eq, lines_eq, h, summary_eq, summary_eq]
  simp only [hcount]

/-- **The text of a report loses no verdict.** Let no name, diagnostic or discrepancy break its
line.

* The text has one line for each result, one after it for each discrepancy, and at the end the
  summary with the number of results that ended in each way.
* Two such reports have the same text exactly if they have the same verdicts in the same order:
  outcomes, names with their diagnostics, and discrepancies.
* The four numbers that the summary shows add up to the number of results. Strict or not, the report
  is a success exactly if the summary shows no failures, no unexpected passes and, if it is strict,
  no expected failures. -/
theorem text_verdicts (r : Report) (hr : ∀ result ∈ r.results, result.IsOneLine) :
    let ended : Outcome → Nat := (r.results.map FixtureResult.outcome).count
    splitLines r.text = (r.results.map FixtureResult.toVerdict).flatMap Verdict.lines ++
      [summaryLine (ended .passed) (ended .failed) (ended .expectedFailure)
        (ended .unexpectedPass), ""] ∧
    (∀ r' : Report, (∀ result ∈ r'.results, result.IsOneLine) → (r.text = r'.text ↔
      r.results.map FixtureResult.toVerdict = r'.results.map FixtureResult.toVerdict)) ∧
    ∀ p f e u, (splitLines r.text).dropLast.getLast? = some (summaryLine p f e u) →
      p + f + e + u = r.results.length ∧
      ∀ strict, (Report.mk r.results strict).isSuccess = true ↔
        f = 0 ∧ u = 0 ∧ (strict = true → e = 0) := by
  intro ended
  have hlines := splitLines_text hr
  refine ⟨?_, fun r' hr' => ⟨fun htext => ?_, text_eq_of_verdicts_eq⟩, fun p f e u hlast => ?_⟩
  · rw [hlines, summary_eq]
    simp only [count_eq, ended]
  · rw [htext, splitLines_text hr'] at hlines
    have hsame := congrArg List.dropLast hlines
    rw [List.dropLast_append_cons, List.dropLast_append_cons] at hsame
    exact (verdicts_eq_of_lines_eq hsame).symm
  · have hsummary : r.summary = summaryLine p f e u := by
      rw [hlines] at hlast
      simpa using hlast
    obtain ⟨rfl, rfl, rfl, rfl⟩ := summaryLine_inj hsummary
    exact ⟨r.count_add, fun strict => isSuccess_iff_count ⟨r.results, strict⟩⟩

/-- A name that looks like one with a diagnostic, and a name that looks like a discrepancy. -/
theorem text_verdicts_imitation :
    let discrepant : FixtureResult :=
      ⟨"                  known discrepancy: c", .expectedFailure, 2, some "d", some "e"⟩
    let r : Report := ⟨[⟨"a  (b)", .passed, 1, none, none⟩, discrepant], false⟩
    let r' : Report := ⟨[⟨"a", .passed, 0, some "b", none⟩, discrepant], true⟩
    (∀ result ∈ r.results, result.IsOneLine) ∧ (∀ result ∈ r'.results, result.IsOneLine) ∧
      r.text = r'.text ∧
      r.results.map FixtureResult.toVerdict = r'.results.map FixtureResult.toVerdict ∧
      r.isSuccess = true := by
  intro discrepant r r'
  have hr : ∀ result ∈ r.results, result.IsOneLine := by
    simp [r, discrepant, FixtureResult.IsOneLine]
  have hr' : ∀ result ∈ r'.results, result.IsOneLine := by
    simp [r', discrepant, FixtureResult.IsOneLine]
  obtain ⟨hlines, hsame, hsummary⟩ := text_verdicts r hr
  have hverdicts : r.results.map FixtureResult.toVerdict =
      r'.results.map FixtureResult.toVerdict := by decide
  have hlast : (splitLines r.text).dropLast.getLast? = some (summaryLine 1 0 1 0) := by
    rw [hlines, List.dropLast_append_cons, List.getLast?_append]
    rfl
  refine ⟨hr, hr', (hsame r' hr').2 hverdicts, hverdicts, ?_⟩
  exact ((hsummary 1 0 1 0 hlast).2 false).2 ⟨rfl, rfl, nofun⟩

end Report

end RecordWalk
