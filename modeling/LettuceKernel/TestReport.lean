import LettuceKernel.Console
import Mathlib.Data.List.Nodup
import Mathlib.Data.List.Infix
import Mathlib.Data.List.TakeWhile
/-!
# The test report, and the script that judges it

| here | there |
| --- | --- |
| `parseTestNumber`    | `parse_test_number` (main.c:115) |
| `logPass`, `logFail` | `log_pass` (:131), `log_fail` (:147) |
| `finalSummary`       | the end of `lettuce_arm64_main` (:1153-1169) |
| `Capture.readLog`    | scripts/capture-arm64-cross-host.sh:114, :136-180 |
| `Capture.accepts`    | its validation (:230-260) |

Behind every readable result the kernel prints a record `TEST,<number>,PASS`, with the number it parses out of the test's own
name, and at the end a marker that depends on its two counters. The script drops carriage returns, splits the log into lines and
these at commas. Text is ASCII.
-/

namespace Lettuce

abbrev Text := List (BitVec 8)

def ascii (text : String) : Text := text.toList.map fun character => BitVec.ofNat 8 character.toNat

/-- `lettuce_arch_console_print_dec`, whose buffer is never overrun. -/
def decimal (value : BitVec 64) : Text := (consolePrintDec value).getD []

/-- `while (test_name[idx] >= '0' && test_name[idx] <= '9')`. -/
def parseDigits : Text → BitVec 64 → BitVec 64
  | [], num => num
  | character :: rest, num =>
    if 48 ≤ character ∧ character ≤ 57 then parseDigits rest (num * 10 + (character.setWidth 64 - 48)) else num

def parseTestNumber (testName : Text) : BitVec 64 :=
  if testName.take 5 = ascii "Test " then parseDigits (testName.drop 5) 0 else 0

/-- `g_tests_passed`, `g_tests_failed` and the console. -/
structure TestLog where
  passed : BitVec 32
  failed : BitVec 32
  console : Text

def verdict (pass : Bool) : Text := ascii (if pass then "PASS" else "FAIL")

/-- The two lines of a result. -/
def resultText (pass : Bool) (testName : Text) : Text :=
  consolePuts (ascii "[" ++ verdict pass ++ ascii "] ") ++ consolePuts testName ++ consolePuts [10] ++
    if parseTestNumber testName > 0 then
      consolePuts (ascii "TEST,") ++ decimal (parseTestNumber testName) ++ consolePuts (ascii "," ++ verdict pass ++ [10])
    else []

def logPass (l : TestLog) (testName : Text) : TestLog :=
  { l with passed := l.passed + 1, console := l.console ++ resultText true testName }

def logFail (l : TestLog) (testName : Text) : TestLog :=
  { l with failed := l.failed + 1, console := l.console ++ resultText false testName }

def ruleText : Text := ascii "============================================================"
def allPassedText : Text := ascii "All 25 ARM64 Execution/Runtime Foundation Tests Passed!"
def passText : Text := ascii "EXECUTION RUNTIME FOUNDATION PASS"
def failText : Text := ascii "ARM64_EXECUTION_RUNTIME_FOUNDATION_FAIL"

def finalSummary (l : TestLog) : Text :=
  consolePuts ([10] ++ ruleText ++ [10]) ++
    (if l.passed = 25 ∧ l.failed = 0 then consolePuts (allPassedText ++ [10]) ++ consolePuts (passText ++ [10])
    else
      consolePuts (ascii "ARM64 Execution/Runtime Foundation Tests Failed" ++ [10]) ++ consolePuts (failText ++ [10]) ++
        consolePuts (ascii "Passed: ") ++ decimal (l.passed.setWidth 64) ++ consolePuts (ascii " / 25, Failed: ") ++
        decimal (l.failed.setWidth 64) ++ consolePuts (ascii " / 25" ++ [10])) ++
    consolePuts (ruleText ++ [10])

/-- A result, or another line, which the kernel prints or a process writes. -/
inductive ReportEvent where
  | result (pass : Bool) (testName : Text)
  | line (written : Bool) (text : Text)

/-- `console_write_op` (fd.c:43) puts no carriage return before the line feed. -/
def lineText (written : Bool) (text : Text) : Text := if written then text ++ [10] else consolePuts (text ++ [10])

def reportStep (l : TestLog) : ReportEvent → TestLog
  | .result pass testName => if pass then logPass l testName else logFail l testName
  | .line written text => { l with console := l.console ++ lineText written text }

/-- The kernel's output after these events and the summary. -/
def testRun (es : List ReportEvent) : Text :=
  let l := es.foldl reportStep ⟨0, 0, []⟩
  l.console ++ finalSummary l

/-! ## The script -/

namespace Capture

/-- The white space that `str.strip` takes off a line of ASCII. -/
def isSpace (character : BitVec 8) : Bool := decide (character ∈ ([9, 10, 11, 12, 13, 28, 29, 30, 31, 32] : List (BitVec 8)))

def strip (line : Text) : Text := ((line.dropWhile isSpace).reverse.dropWhile isSpace).reverse

structure Record where
  tests : List (Text × Text)
  benchmarks : List (List Text)
  hasPassMarker : Bool
  hasAllMarker : Bool
  hasFailMarker : Bool
deriving DecidableEq

def contains (line marker : Text) : Bool := decide (marker <:+: line)

def mark (r : Record) (line : Text) : Record :=
  { r with
    hasPassMarker := r.hasPassMarker || contains line passText
    hasAllMarker := r.hasAllMarker || contains line allPassedText
    hasFailMarker := r.hasFailMarker || contains line failText }

def readLine (r : Record) (rawLine : Text) : Record :=
  let line := strip rawLine
  let r := mark r line
  let parts := line.splitOn 44
  if ascii "TEST," <+: line then
    if parts.length ≥ 3 then { r with tests := r.tests ++ [(strip (parts.getD 1 []), strip (parts.getD 2 []))] } else r
  else if ascii "BENCH," <+: line then
    if parts.length ≥ 8 then { r with benchmarks := r.benchmarks ++ [((parts.drop 1).take 7).map strip] } else r
  else r

def readFrom (r : Record) (log : Text) : Record := ((log.filter (· ≠ 13)).splitOn 10).foldl readLine r

def readLog (log : Text) : Record := readFrom ⟨[], [], false, false, false⟩ log

/-- `actual_test_dict[tid]`: a later record replaces an earlier one. -/
def actualResult (tests : List (Text × Text)) (tid : Text) : Option Text := (tests.reverse.find? (·.1 = tid)).map Prod.snd

/-- `str(i)` for `i` in `range(1, 26)`. -/
def expectedIds : List Text := (List.range' 1 25).map fun i => ascii (toString i)

def accepts (r : Record) : Bool :=
  decide (r.tests.map Prod.fst).Nodup && (expectedIds.all fun tid => decide (tid ∈ r.tests.map Prod.fst)) &&
    (r.tests.all fun test => decide (actualResult r.tests test.1 = some (ascii "PASS"))) && decide (r.tests.length = 25) &&
    r.hasPassMarker && r.hasAllMarker && !r.hasFailMarker

end Capture

/-- A line of ASCII that is no test record and contains no marker. -/
structure HarmlessLine (line : Text) : Prop where
  sevenBit : ∀ character ∈ line, character < 128
  plain : ∀ character ∈ line, character ≠ 0 ∧ character ≠ 10 ∧ character ≠ 13
  unmarked : ∀ marker ∈ [passText, allPassedText, failText], ¬ marker <:+: line
  noRecord : ¬ ascii "TEST," <+: Capture.strip line

def ReportEvent.Harmless : ReportEvent → Prop
  | .result pass testName => HarmlessLine (ascii "[" ++ verdict pass ++ ascii "] " ++ testName)
  | .line _ text => HarmlessLine text

instance (line : Text) : Decidable (HarmlessLine line) :=
  decidable_of_iff
    ((∀ character ∈ line, character < 128) ∧ (∀ character ∈ line, character ≠ 0 ∧ character ≠ 10 ∧ character ≠ 13) ∧
      (∀ marker ∈ [passText, allPassedText, failText], ¬ marker <:+: line) ∧ ¬ ascii "TEST," <+: Capture.strip line)
    ⟨fun h => ⟨h.1, h.2.1, h.2.2.1, h.2.2.2⟩, fun h => ⟨h.sevenBit, h.plain, h.unmarked, h.noRecord⟩⟩

instance : (e : ReportEvent) → Decidable e.Harmless
  | .result pass testName => inferInstanceAs (Decidable (HarmlessLine (ascii "[" ++ verdict pass ++ ascii "] " ++ testName)))
  | .line _ text => inferInstanceAs (Decidable (HarmlessLine text))

def ReportEvent.testNumber : ReportEvent → Option Nat
  | .result _ testName => some (parseTestNumber testName).toNat
  | .line _ _ => none

def ReportEvent.failed : ReportEvent → Bool
  | .result pass _ => !pass
  | .line _ _ => false

/-! ## Numerals and lines -/

theorem decimal_spec (value : BitVec 64) :
    readDec (decimal value) = value.toNat ∧ ∀ d ∈ decimal value, 48 ≤ d.toNat ∧ d.toNat < 58 := by
  obtain ⟨text, htext, hread, -, -, hdigits, -⟩ := consolePrintDec_spec value
  rw [decimal, htext]
  exact ⟨hread, hdigits⟩

theorem decimal_inj {value value' : BitVec 64} (h : decimal value = decimal value') : value = value' := by
  apply BitVec.eq_of_toNat_eq
  rw [← (decimal_spec value).1, h, (decimal_spec value').1]

/-- No byte outside the digits is in a numeral. -/
theorem not_mem_decimal {character : BitVec 8} (h : character.toNat < 48 ∨ 58 ≤ character.toNat) (value : BitVec 64) :
    character ∉ decimal value := by
  intro hmem
  have hdigit := (decimal_spec value).2 character hmem
  omega

theorem takeWhile_of_plain {line : Text} (h : ∀ character ∈ line, character ≠ 0) : line.takeWhile (· ≠ 0) = line := by
  rw [List.takeWhile_eq_self_iff]
  intro character hmem
  exact decide_eq_true (h character hmem)

/-- A text without NUL and line feed goes out as it is. -/
theorem consolePuts_plain {line : Text} (h : ∀ character ∈ line, character ≠ 0 ∧ character ≠ 10) : consolePuts line = line := by
  rw [consolePuts, takeWhile_of_plain fun character hmem => (h character hmem).1]
  induction line with
  | nil => rfl
  | cons character line ih =>
    have hfirst := (h character (List.mem_cons_self ..)).2
    rw [List.flatMap_cons, if_neg hfirst, ih fun c hc => h c (List.mem_cons_of_mem _ hc)]
    rfl

/-- A line goes out with its line feed behind a carriage return. -/
theorem consolePuts_line {line : Text} (h : ∀ character ∈ line, character ≠ 0 ∧ character ≠ 10) :
    consolePuts (line ++ [10]) = line ++ [13, 10] := by
  have hall : ∀ character ∈ line ++ [10], character ≠ 0 := by
    intro character hmem
    rcases List.mem_append.1 hmem with hmem | hmem
    · exact (h character hmem).1
    · rw [List.mem_singleton.1 hmem]
      decide
  have hline := consolePuts_plain h
  rw [consolePuts, takeWhile_of_plain fun character hmem => (h character hmem).1] at hline
  rw [consolePuts, takeWhile_of_plain hall, List.flatMap_append, hline]
  rfl

namespace Capture

variable {r : Record} {line rest : Text}

/-- The script sees the line without its end. -/
theorem readFrom_writtenLine (r : Record) (h : ∀ character ∈ line, character ≠ 10 ∧ character ≠ 13) (rest : Text) :
    readFrom r (line ++ [10] ++ rest) = readFrom (readLine r line) rest := by
  have hfilter : line.filter (· ≠ 13) = line := List.filter_eq_self.2 fun c hc => decide_eq_true (h c hc).2
  have hkeep : (line ++ [10] ++ rest).filter (· ≠ 13) = line ++ 10 :: rest.filter (· ≠ 13) := by
    rw [List.filter_append, List.filter_append, hfilter, List.append_assoc]
    rfl
  rw [readFrom, hkeep, List.splitOn_append_cons_self_of_not_mem fun hmem => (h 10 hmem).1 rfl, List.foldl_cons, readFrom]

theorem readFrom_line (r : Record) (h : ∀ character ∈ line, character ≠ 10 ∧ character ≠ 13) (rest : Text) :
    readFrom r (line ++ [13, 10] ++ rest) = readFrom (readLine r line) rest := by
  have hreturn : (line ++ [13, 10] ++ rest).filter (· ≠ 13) = (line ++ [10] ++ rest).filter (· ≠ 13) := by
    simp only [List.filter_append]
    rfl
  rw [← readFrom_writtenLine r h, readFrom, hreturn, readFrom]

theorem strip_sublist (line : Text) : strip line <:+: line := by
  have hfront : line.dropWhile isSpace <:+ line := List.dropWhile_suffix _
  have hback : strip line <+: line.dropWhile isSpace := by
    rw [strip, ← List.reverse_suffix, List.reverse_reverse]
    exact List.dropWhile_suffix _
  exact hback.isInfix.trans hfront.isInfix

/-- A text that begins and ends with something else than space. -/
theorem strip_of_ends {first last : BitVec 8} (hfirst : line.head? = some first) (hlast : line.getLast? = some last)
    (hspace : isSpace first = false ∧ isSpace last = false) : strip line = line := by
  have hfront : line.dropWhile isSpace = line := by
    cases line with
    | nil => rfl
    | cons c line =>
      cases hfirst
      rw [List.dropWhile_cons_of_neg (by rw [hspace.1]; exact Bool.false_ne_true)]
  have hback : line.reverse.dropWhile isSpace = line.reverse := by
    rw [List.getLast?_eq_head?_reverse] at hlast
    generalize line.reverse = backwards at hlast
    cases backwards with
    | nil => rfl
    | cons c backwards =>
      cases hlast
      rw [List.dropWhile_cons_of_neg (by rw [hspace.2]; exact Bool.false_ne_true)]
  rw [strip, hfront, hback, List.reverse_reverse]

theorem contains_eq_false {marker : Text} {character : BitVec 8} (hmarker : character ∈ marker) (hline : character ∉ line) :
    contains line marker = false :=
  decide_eq_false fun h => hline (h.subset hmarker)

theorem mark_of_unmarked (h : ∀ marker ∈ [passText, allPassedText, failText], contains line marker = false) : mark r line = r := by
  simp only [mark, h passText (by decide), h allPassedText (by decide), h failText (by decide), Bool.or_false]

/-- Such a line leaves the tests and the markers as they are. -/
theorem readLine_harmless (h : HarmlessLine line) : ∃ benchmarks, readLine r line = { r with benchmarks := benchmarks } := by
  have hmark : mark r (strip line) = r := mark_of_unmarked fun marker hmarker => decide_eq_false fun hsub =>
    h.unmarked marker hmarker (hsub.trans (strip_sublist line))
  rw [readLine, hmark, if_neg h.noRecord]
  split
  · split
    · exact ⟨_, rfl⟩
    · exact ⟨r.benchmarks, rfl⟩
  · exact ⟨r.benchmarks, rfl⟩

/-- A record without its line end. -/
def recordLine (num : BitVec 64) (pass : Bool) : Text := ascii "TEST" ++ 44 :: (decimal num ++ 44 :: verdict pass)

theorem mem_recordLine {character : BitVec 8} {num : BitVec 64} {pass : Bool} (h : character ∈ recordLine num pass) :
    character ∈ ascii "TEST,PASSFAIL" ∨ (48 ≤ character.toNat ∧ character.toNat < 58) := by
  rw [recordLine, List.mem_append, List.mem_cons, List.mem_append, List.mem_cons] at h
  rcases h with h | rfl | h | rfl | h
  · revert character
    decide
  · exact Or.inl (by decide)
  · exact Or.inr ((decimal_spec num).2 character h)
  · exact Or.inl (by decide)
  · left
    cases pass <;> revert character <;> decide

theorem strip_recordLine (num : BitVec 64) (pass : Bool) : strip (recordLine num pass) = recordLine num pass := by
  have hlast : (recordLine num pass).getLast? = (verdict pass).getLast? := by
    rw [recordLine, List.getLast?_append, List.getLast?_cons, List.getLast?_append, List.getLast?_cons]
    cases pass <;> rfl
  cases pass with
  | true => exact strip_of_ends rfl hlast (by decide)
  | false => exact strip_of_ends rfl hlast (by decide)

theorem strip_of_spaceless (h : ∀ character ∈ line, isSpace character = false) : strip line = line := by
  cases line with
  | nil => rfl
  | cons first text =>
    have hlast := List.getLast?_eq_getLast_of_ne_nil (List.cons_ne_nil first text)
    exact strip_of_ends rfl hlast ⟨h first (List.mem_cons_self ..), h _ (List.getLast_mem _)⟩

theorem isSpace_decimal (value : BitVec 64) : ∀ d ∈ decimal value, isSpace d = false := by
  intro d hd
  have hdigit := (decimal_spec value).2 d hd
  refine decide_eq_false fun hmem => ?_
  clear hd
  revert d
  decide

theorem strip_decimal (num : BitVec 64) : strip (decimal num) = decimal num := strip_of_spaceless (isSpace_decimal num)

theorem recordLine_unmarked (num : BitVec 64) (pass : Bool) :
    ∀ marker ∈ [passText, allPassedText, failText], contains (recordLine num pass) marker = false := by
  -- each marker has a letter that no record has
  have hletter : ∀ character : BitVec 8, character = 88 ∨ character = 108 ∨ character = 95 → character ∉ recordLine num pass := by
    intro character hcharacter hmem
    rcases mem_recordLine hmem with h | h
    · rcases hcharacter with rfl | rfl | rfl <;> revert h <;> decide
    · rcases hcharacter with rfl | rfl | rfl <;> revert h <;> decide
  intro marker hmarker
  simp only [List.mem_cons, List.not_mem_nil, or_false] at hmarker
  rcases hmarker with rfl | rfl | rfl
  · exact contains_eq_false (by decide) (hletter 88 (Or.inl rfl))
  · exact contains_eq_false (by decide) (hletter 108 (Or.inr (Or.inl rfl)))
  · exact contains_eq_false (by decide) (hletter 95 (Or.inr (Or.inr rfl)))

/-- A record comes back as its number and its verdict. -/
theorem readLine_record (r : Record) (num : BitVec 64) (pass : Bool) :
    readLine r (recordLine num pass) = { r with tests := r.tests ++ [(decimal num, verdict pass)] } := by
  have hparts : (recordLine num pass).splitOn 44 = [ascii "TEST", decimal num, verdict pass] := by
    have hcomma : (44 : BitVec 8) ∉ decimal num := not_mem_decimal (by decide) num
    have hend : (44 : BitVec 8) ∉ verdict pass := by cases pass <;> decide
    rw [recordLine, List.splitOn_append_cons_self_of_not_mem (by decide), List.splitOn_append_cons_self_of_not_mem hcomma,
      List.splitOn_eq_singleton hend]
  have hrecord : ascii "TEST," <+: recordLine num pass := ⟨decimal num ++ 44 :: verdict pass, rfl⟩
  have hverdict : strip (verdict pass) = verdict pass := by cases pass <;> decide
  rw [readLine, strip_recordLine, mark_of_unmarked (recordLine_unmarked num pass), if_pos hrecord, hparts]
  simp only [List.length_cons, List.length_nil, ge_iff_le, Nat.reduceAdd, Nat.reduceLeDiff, if_true, List.getD_cons_succ,
    List.getD_cons_zero, strip_decimal, hverdict]

end Capture

/-! ## The kernel's output, line by line -/

open Capture

/-- The records an event leaves in the log. -/
def ReportEvent.records : ReportEvent → List (Text × Text)
  | .result pass testName => if parseTestNumber testName > 0 then [(decimal (parseTestNumber testName), verdict pass)] else []
  | .line _ _ => []

/-- What an event prints. -/
def ReportEvent.output : ReportEvent → Text
  | .result pass testName => resultText pass testName
  | .line written text => lineText written text

theorem reportStep_console (l : TestLog) (e : ReportEvent) : (reportStep l e).console = l.console ++ e.output := by
  cases e with
  | result pass testName => cases pass <;> rfl
  | line written text => rfl

theorem reportRun_console (es : List ReportEvent) (l : TestLog) :
    (es.foldl reportStep l).console = l.console ++ es.flatMap ReportEvent.output := by
  induction es generalizing l with
  | nil => exact (List.append_nil _).symm
  | cons e es ih => rw [List.foldl_cons, ih, reportStep_console, List.flatMap_cons, List.append_assoc]

theorem resultText_eq {pass : Bool} {testName : Text} (h : HarmlessLine (ascii "[" ++ verdict pass ++ ascii "] " ++ testName)) :
    resultText pass testName = (ascii "[" ++ verdict pass ++ ascii "] " ++ testName) ++ [13, 10] ++
      if parseTestNumber testName > 0 then recordLine (parseTestNumber testName) pass ++ [13, 10] else [] := by
  have hname : consolePuts testName = testName := consolePuts_plain fun c hc => by
    have hplain := h.plain c (List.mem_append_right _ hc)
    exact ⟨hplain.1, hplain.2.1⟩
  have hfirst : consolePuts (ascii "[" ++ verdict pass ++ ascii "] ") = ascii "[" ++ verdict pass ++ ascii "] " := by
    cases pass <;> decide
  have hcomma : consolePuts (ascii "TEST,") = ascii "TEST" ++ [44] := by decide
  have hend : consolePuts (ascii "," ++ verdict pass ++ [10]) = 44 :: verdict pass ++ [13, 10] := by
    cases pass <;> decide
  have hfeed : consolePuts [10] = [13, 10] := by decide
  rw [resultText, hname, hfirst, hfeed, hcomma, hend, recordLine]
  simp only [List.append_assoc, List.cons_append, List.nil_append]

theorem readFrom_output {e : ReportEvent} (he : e.Harmless) (r : Record) (rest : Text) :
    ∃ benchmarks, readFrom r (e.output ++ rest) = readFrom { r with tests := r.tests ++ e.records, benchmarks := benchmarks } rest := by
  cases e with
  | result pass testName =>
    have hplain : ∀ character ∈ ascii "[" ++ verdict pass ++ ascii "] " ++ testName, character ≠ 10 ∧ character ≠ 13 :=
      fun c hc => (he.plain c hc).2
    obtain ⟨benchmarks, hline⟩ := readLine_harmless (r := r) he
    refine ⟨benchmarks, ?_⟩
    rw [ReportEvent.output, resultText_eq he, ReportEvent.records, List.append_assoc (_ ++ [13, 10]), readFrom_line r hplain, hline]
    split
    · have hrecord : ∀ character ∈ recordLine (parseTestNumber testName) pass, character ≠ 10 ∧ character ≠ 13 := by
        intro c hmem
        have hc := mem_recordLine hmem
        clear hmem
        revert c
        decide
      rw [readFrom_line _ hrecord, readLine_record]
    · rw [List.append_nil]
      rfl
  | line written text =>
    have hplain : ∀ character ∈ text, character ≠ 10 ∧ character ≠ 13 := fun c hc => (he.plain c hc).2
    have hzero : ∀ character ∈ text, character ≠ 0 ∧ character ≠ 10 := fun c hc => ⟨(he.plain c hc).1, (he.plain c hc).2.1⟩
    obtain ⟨benchmarks, hline⟩ := readLine_harmless (r := r) he
    refine ⟨benchmarks, ?_⟩
    rw [ReportEvent.output, lineText, ReportEvent.records, List.append_nil]
    split
    · rw [readFrom_writtenLine r hplain, hline]
    · rw [consolePuts_line hzero, readFrom_line r hplain, hline]

/-- The script finds exactly the records of the events. -/
theorem readFrom_outputs {es : List ReportEvent} (hes : ∀ e ∈ es, e.Harmless) (r : Record) (rest : Text) :
    ∃ benchmarks, readFrom r (es.flatMap ReportEvent.output ++ rest) =
      readFrom { r with tests := r.tests ++ es.flatMap ReportEvent.records, benchmarks := benchmarks } rest := by
  induction es generalizing r with
  | nil => exact ⟨r.benchmarks, by simp only [List.flatMap_nil, List.nil_append, List.append_nil]⟩
  | cons e es ih =>
    obtain ⟨first, hfirst⟩ := readFrom_output (hes e (List.mem_cons_self ..)) r (es.flatMap ReportEvent.output ++ rest)
    obtain ⟨benchmarks, hrest⟩ :=
      ih (fun e' he' => hes e' (List.mem_cons_of_mem _ he')) { r with tests := r.tests ++ e.records, benchmarks := first }
    refine ⟨benchmarks, ?_⟩
    rw [List.flatMap_cons, List.append_assoc, hfirst, hrest, List.flatMap_cons, List.append_assoc]

/-! ## The summary -/

namespace Capture

/-- What two logs give one behind the other. -/
def Record.append (r r' : Record) : Record where
  tests := r.tests ++ r'.tests
  benchmarks := r.benchmarks ++ r'.benchmarks
  hasPassMarker := r.hasPassMarker || r'.hasPassMarker
  hasAllMarker := r.hasAllMarker || r'.hasAllMarker
  hasFailMarker := r.hasFailMarker || r'.hasFailMarker

theorem readLine_append (r r' : Record) (line : Text) : readLine (r.append r') line = r.append (readLine r' line) := by
  simp only [readLine]
  split_ifs <;> simp only [Record.append, mark, List.append_assoc, Bool.or_assoc]

theorem readFrom_append (r r' : Record) (log : Text) : readFrom (r.append r') log = r.append (readFrom r' log) := by
  rw [readFrom, readFrom]
  generalize (log.filter (· ≠ 13)).splitOn 10 = lines
  induction lines generalizing r' with
  | nil => rfl
  | cons line lines ih => rw [List.foldl_cons, readLine_append, ih, List.foldl_cons]

/-- What was read before stays. -/
theorem readFrom_eq (r : Record) (log : Text) : readFrom r log = r.append (readLog log) := by
  rw [readLog, ← readFrom_append]
  simp only [Record.append, List.append_nil, Bool.or_false]

/-- The lines before a line feed are read first. -/
theorem readFrom_feed (r : Record) (front rest : Text) : readFrom r (front ++ 10 :: rest) = readFrom (readFrom r front) rest := by
  rw [readFrom, List.filter_append, List.filter_cons_of_pos (by decide), List.splitOn_append_cons_self, List.foldl_append, readFrom,
    readFrom]

theorem accepts_of_fail {r : Record} (h : r.hasFailMarker = true) : accepts r = false := by
  rw [accepts, h, Bool.not_true, Bool.and_false]

/-- Where all results agree, each number has that result. -/
theorem actualResult_of_all {tests : List (Text × Text)} {tid res : Text} (hall : ∀ test ∈ tests, test.2 = res)
    (htid : tid ∈ tests.map Prod.fst) : actualResult tests tid = some res := by
  obtain ⟨test, htest, rfl⟩ := List.mem_map.1 htid
  obtain ⟨found, hfound⟩ : ∃ found, tests.reverse.find? (·.1 = test.1) = some found := by
    rw [← Option.isSome_iff_exists, List.find?_isSome]
    exact ⟨test, List.mem_reverse.2 htest, decide_eq_true rfl⟩
  have hmem := List.mem_reverse.1 (List.mem_of_find?_eq_some hfound)
  rw [actualResult, hfound, Option.map_some, hall found hmem]

end Capture

theorem finalSummary_pass {l : TestLog} (h : l.passed = 25 ∧ l.failed = 0) : readLog (finalSummary l) = ⟨[], [], true, true, false⟩ := by
  rw [finalSummary, if_pos h]
  decide +kernel

/-- Up to the line with the marker, the summary of a failed run does not depend on the counters. -/
theorem finalSummary_fail {l : TestLog} (h : ¬ (l.passed = 25 ∧ l.failed = 0)) : (readLog (finalSummary l)).hasFailMarker = true := by
  obtain ⟨rest, hrest⟩ : ∃ rest, finalSummary l = (consolePuts ([10] ++ ruleText ++ [10]) ++
      (consolePuts (ascii "ARM64 Execution/Runtime Foundation Tests Failed" ++ [10]) ++ (failText ++ [13]))) ++ 10 :: rest := by
    have hfail : consolePuts (failText ++ [10]) = failText ++ [13] ++ [10] := by decide +kernel
    rw [finalSummary, if_neg h, hfail]
    simp only [List.append_assoc, List.cons_append, List.nil_append]
    exact ⟨_, rfl⟩
  rw [hrest, readLog, readFrom_feed, readFrom_eq, Record.append]
  have hfront : (readFrom ⟨[], [], false, false, false⟩ (consolePuts ([10] ++ ruleText ++ [10]) ++
      (consolePuts (ascii "ARM64 Execution/Runtime Foundation Tests Failed" ++ [10]) ++ (failText ++ [13])))).hasFailMarker = true := by
    decide +kernel
  rw [hfront, Bool.true_or]

/-! ## The verdict -/

section
variable {es : List ReportEvent}

def ReportEvent.passed : ReportEvent → Bool
  | .result pass _ => pass
  | .line _ _ => false

theorem reportRun_counters (es : List ReportEvent) (l : TestLog) :
    (es.foldl reportStep l).passed = l.passed + BitVec.ofNat 32 (es.countP ReportEvent.passed) ∧
      (es.foldl reportStep l).failed = l.failed + BitVec.ofNat 32 (es.countP ReportEvent.failed) := by
  induction es generalizing l with
  | nil => exact ⟨(BitVec.add_zero _).symm, (BitVec.add_zero _).symm⟩
  | cons e es ih =>
    have hnext : ∀ (x : BitVec 32) (n : Nat), x + 1 + BitVec.ofNat 32 n = x + BitVec.ofNat 32 (n + 1) := by
      intro x n
      rw [BitVec.add_assoc, Nat.add_comm, BitVec.ofNat_add]
      rfl
    obtain ⟨hpassed, hfailed⟩ := ih (reportStep l e)
    rw [List.foldl_cons, hpassed, hfailed, List.countP_cons, List.countP_cons]
    cases e with
    | result pass testName =>
      cases pass with
      | true => exact ⟨hnext l.passed _, rfl⟩
      | false => exact ⟨rfl, hnext l.failed _⟩
    | line written text => exact ⟨rfl, rfl⟩

/-- Below 2^32 events the counters tell the exact numbers. -/
theorem counters_iff (hlen : es.length < 2 ^ 32) :
    ((es.foldl reportStep ⟨0, 0, []⟩).passed = 25 ∧ (es.foldl reportStep ⟨0, 0, []⟩).failed = 0) ↔
      es.countP ReportEvent.passed = 25 ∧ es.countP ReportEvent.failed = 0 := by
  have hexact : ∀ n k : Nat, n ≤ es.length → k < 2 ^ 32 → (0#32 + BitVec.ofNat 32 n = BitVec.ofNat 32 k ↔ n = k) := by
    intro n k hn hk
    rw [BitVec.zero_add, ← BitVec.toNat_inj, BitVec.toNat_ofNat, BitVec.toNat_ofNat, Nat.mod_eq_of_lt hk, Nat.mod_eq_of_lt (by omega)]
  obtain ⟨hpassed, hfailed⟩ := reportRun_counters es ⟨0, 0, []⟩
  rw [hpassed, hfailed]
  exact and_congr (hexact _ 25 List.countP_le_length (by decide)) (hexact _ 0 List.countP_le_length (by decide))

theorem testNumbers_result (pass : Bool) (testName : Text) (es : List ReportEvent) :
    (ReportEvent.result pass testName :: es).filterMap ReportEvent.testNumber =
      (parseTestNumber testName).toNat :: es.filterMap ReportEvent.testNumber := rfl

theorem testNumbers_line (written : Bool) (text : Text) (es : List ReportEvent) :
    (ReportEvent.line written text :: es).filterMap ReportEvent.testNumber = es.filterMap ReportEvent.testNumber := rfl

theorem length_testNumbers (es : List ReportEvent) :
    (es.filterMap ReportEvent.testNumber).length = es.countP ReportEvent.passed + es.countP ReportEvent.failed := by
  induction es with
  | nil => rfl
  | cons e es ih =>
    rw [List.countP_cons, List.countP_cons]
    cases e with
    | result pass testName =>
      rw [testNumbers_result, List.length_cons, ih]
      cases pass <;> simp only [ReportEvent.passed, ReportEvent.failed, Bool.not_true, Bool.not_false, if_true, Bool.false_eq_true,
        if_false] <;> omega
    | line written text =>
      rw [testNumbers_line, ih]
      rfl

/-- The record of a result with this number. -/
def passRecord (number : Nat) : Text × Text := (decimal (BitVec.ofNat 64 number), verdict true)

theorem records_of_passed (hpass : ∀ e ∈ es, e.failed = false) (hpos : ∀ n ∈ es.filterMap ReportEvent.testNumber, 0 < n) :
    es.flatMap ReportEvent.records = (es.filterMap ReportEvent.testNumber).map passRecord := by
  induction es with
  | nil => rfl
  | cons e es ih =>
    have hrest := fun e' he' => hpass e' (List.mem_cons_of_mem e he')
    cases e with
    | result pass testName =>
      have hverdict := hpass _ (List.mem_cons_self ..)
      rw [ReportEvent.failed, Bool.not_eq_false'] at hverdict
      rw [testNumbers_result] at hpos ⊢
      have hnumber : parseTestNumber testName > 0 := BitVec.lt_def.2 (hpos _ (List.mem_cons_self ..))
      rw [List.flatMap_cons, ih hrest fun n hn => hpos n (List.mem_cons_of_mem _ hn), ReportEvent.records, if_pos hnumber, List.map_cons,
        passRecord, BitVec.ofNat_toNat, BitVec.setWidth_eq, hverdict]
      rfl
    | line written text =>
      rw [testNumbers_line] at hpos ⊢
      exact ih hrest hpos

/-- A record names the number of a result. -/
theorem testNumber_of_record {n : Nat} (h : (passRecord n).1 ∈ (es.flatMap ReportEvent.records).map Prod.fst) (hn : n < 2 ^ 64) :
    n ∈ es.filterMap ReportEvent.testNumber := by
  obtain ⟨record, hrecord, htid⟩ := List.mem_map.1 h
  obtain ⟨e, he, hmem⟩ := List.mem_flatMap.1 hrecord
  cases e with
  | line written text => exact absurd hmem List.not_mem_nil
  | result pass testName =>
    rw [ReportEvent.records] at hmem
    split at hmem
    · rw [List.mem_singleton.1 hmem] at htid
      have hnumber : parseTestNumber testName = BitVec.ofNat 64 n := decimal_inj htid
      refine List.mem_filterMap.2 ⟨_, he, ?_⟩
      rw [ReportEvent.testNumber, hnumber, BitVec.toNat_ofNat, Nat.mod_eq_of_lt hn]
    · exact absurd hmem List.not_mem_nil

theorem expectedIds_eq : expectedIds = (List.range' 1 25).map fun n => (passRecord n).1 := by decide +kernel

theorem readLog_testRun (hes : ∀ e ∈ es, e.Harmless) : ∃ benchmarks, readLog (testRun es) =
    Record.append ⟨es.flatMap ReportEvent.records, benchmarks, false, false, false⟩
      (readLog (finalSummary (es.foldl reportStep ⟨0, 0, []⟩))) := by
  obtain ⟨benchmarks, hread⟩ := readFrom_outputs hes ⟨[], [], false, false, false⟩ (finalSummary (es.foldl reportStep ⟨0, 0, []⟩))
  refine ⟨benchmarks, ?_⟩
  rw [testRun, reportRun_console, List.nil_append, readLog, hread, readFrom_eq, List.nil_append]

/-- Behind a summary that passes, the script looks at the records only. -/
theorem accepts_pass_iff {tests : List (Text × Text)} {benchmarks : List (List Text)} :
    accepts (Record.append ⟨tests, benchmarks, false, false, false⟩ ⟨[], [], true, true, false⟩) = true ↔
      (tests.map Prod.fst).Nodup ∧ (∀ tid ∈ expectedIds, tid ∈ tests.map Prod.fst) ∧
        (∀ test ∈ tests, actualResult tests test.1 = some (ascii "PASS")) ∧ tests.length = 25 := by
  simp only [accepts, Record.append, List.append_nil, Bool.or_true, Bool.or_false, Bool.not_false, Bool.and_true, Bool.and_eq_true,
    decide_eq_true_eq, List.all_eq_true, and_assoc]

/-- 25 results whose records name every expected number. -/
theorem perm_of_expected (hlength : (es.filterMap ReportEvent.testNumber).length = 25)
    (hids : ∀ tid ∈ expectedIds, tid ∈ (es.flatMap ReportEvent.records).map Prod.fst) :
    (es.filterMap ReportEvent.testNumber).Perm (List.range' 1 25) := by
  have hsub : List.range' 1 25 ⊆ es.filterMap ReportEvent.testNumber := by
    intro n hn
    have hbound : n < 2 ^ 64 := by
      rw [List.mem_range'_1] at hn
      omega
    exact testNumber_of_record (hids _ (expectedIds_eq ▸ List.mem_map_of_mem hn)) hbound
  have hle : (es.filterMap ReportEvent.testNumber).length ≤ (List.range' 1 25).length := by
    rw [List.length_range', hlength]
  exact ((List.subperm_of_subset (List.nodup_range' ..) hsub).perm_of_length_le hle).symm

/-- The records of results that passed, with the numbers 1, ..., 25. -/
theorem records_perm (hpass : ∀ e ∈ es, e.failed = false) (hperm : (es.filterMap ReportEvent.testNumber).Perm (List.range' 1 25)) :
    (es.flatMap ReportEvent.records).Perm ((List.range' 1 25).map passRecord) := by
  have hpos : ∀ n ∈ es.filterMap ReportEvent.testNumber, 0 < n := by
    intro n hn
    rw [hperm.mem_iff, List.mem_range'_1] at hn
    omega
  rw [records_of_passed hpass hpos]
  exact hperm.map passRecord

/-- Such records, in any order, pass every test of the script. -/
theorem expected_of_perm {tests : List (Text × Text)} (hperm : tests.Perm ((List.range' 1 25).map passRecord)) :
    (tests.map Prod.fst).Nodup ∧ (∀ tid ∈ expectedIds, tid ∈ tests.map Prod.fst) ∧
      (∀ test ∈ tests, actualResult tests test.1 = some (ascii "PASS")) ∧ tests.length = 25 := by
  have hids : (tests.map Prod.fst).Perm expectedIds := by
    have hfirst := hperm.map Prod.fst
    rwa [List.map_map] at hfirst
  have hall : ∀ test ∈ tests, test.2 = ascii "PASS" := by
    intro test htest
    obtain ⟨n, -, rfl⟩ := List.mem_map.1 (hperm.mem_iff.1 htest)
    rfl
  refine ⟨hids.nodup_iff.2 (by decide +kernel), fun tid htid => hids.mem_iff.2 htid, fun test htest => ?_, hperm.length_eq⟩
  exact actualResult_of_all hall (List.mem_map_of_mem htest)

/-- The script accepts a run of the kernel exactly when no result failed and the numbers of the results are 1, ..., 25, each
once. -/
theorem capture_accepts_iff (hes : ∀ e ∈ es, e.Harmless) (hlen : es.length < 2 ^ 32) :
    Capture.accepts (Capture.readLog (testRun es)) = true ↔
      (∀ e ∈ es, e.failed = false) ∧ (es.filterMap ReportEvent.testNumber).Perm (List.range' 1 25) := by
  have hlength := length_testNumbers es
  have hnone : es.countP ReportEvent.failed = 0 ↔ ∀ e ∈ es, e.failed = false := by
    rw [List.countP_eq_zero]
    exact forall₂_congr fun e _ => iff_of_eq (Bool.not_eq_true _)
  obtain ⟨benchmarks, hread⟩ := readLog_testRun hes
  rw [hread]
  by_cases hcounters : (es.foldl reportStep ⟨0, 0, []⟩).passed = 25 ∧ (es.foldl reportStep ⟨0, 0, []⟩).failed = 0
  · rw [finalSummary_pass hcounters, accepts_pass_iff]
    obtain ⟨hpassed, hfailed⟩ := (counters_iff hlen).1 hcounters
    have hpass := hnone.1 hfailed
    constructor
    · rintro ⟨-, hids, -, -⟩
      exact ⟨hpass, perm_of_expected (by omega) hids⟩
    · rintro ⟨-, hperm⟩
      exact expected_of_perm (records_perm hpass hperm)
  · -- the summary has the marker of a failure, and the counters rule out 25 results that passed
    have hfail : accepts (Record.append ⟨es.flatMap ReportEvent.records, benchmarks, false, false, false⟩
        (readLog (finalSummary (es.foldl reportStep ⟨0, 0, []⟩)))) = false := by
      apply accepts_of_fail
      rw [Record.append, finalSummary_fail hcounters, Bool.or_true]
    rw [hfail]
    refine iff_of_false Bool.false_ne_true fun h => hcounters ((counters_iff hlen).2 ?_)
    have hfailed := hnone.2 h.1
    have h25 := h.2.length_eq
    rw [List.length_range'] at h25
    exact ⟨by omega, hfailed⟩

/-- The results of 25 tests, in order. -/
def numberedRun : List ReportEvent :=
  (List.range' 1 25).map fun n => .result true (ascii "Test " ++ decimal (BitVec.ofNat 64 n) ++ ascii ": EL0 execution succeeded")

theorem capture_accepts_iff_numbered : Capture.accepts (Capture.readLog (testRun numberedRun)) = true :=
  (capture_accepts_iff (by decide +kernel) (by decide)).2 ⟨by decide +kernel, by decide +kernel⟩

end

end Lettuce
