import RouterCalldata.DecodeError

/-!
# How a run ends

## Main definitions

* `CommandError`: a failure with the cause it is put down to;
* `Outcome`: exit code and what is written to the two streams;
* `Outcome.stderrAfter`: standard error with the line that tells the time;
* `Outcome.ofResult`: the outcome of a command that succeeds or fails;
* `unreadableDocument`: what is shown for a document that does not fit.
-/

namespace RouterCalldata

/-- A failure, and the cause it is put down to. -/
structure CommandError where
  message : String
  cause : Option String
  deriving DecidableEq, Repr

namespace CommandError

/-- A failure that speaks for itself. -/
def plain (message : String) : CommandError := { message, cause := none }

/-- A failure of `what` that is due to `cause`. -/
def dueTo (what cause : String) : CommandError := { message := what, cause := some cause }

/-- Text whose lines are indented under a heading. -/
def indented (s : String) : String :=
  "\n".intercalate ((s.toList.splitOn '\n').map fun line => "    " ++ String.ofList line)

/-- The text shown to the user. -/
def text (e : CommandError) : String :=
  "Error: " ++ e.message ++ "\n" ++
    match e.cause with
    | some cause => "\nCaused by:\n" ++ indented cause ++ "\n"
    | none => ""

end CommandError

/-- What is shown as the cause when a document is not well written or does not
fit; the readers say no more than that. -/
def unreadableDocument : String := "<json>"

/-- What a run of the program leaves behind.  Log lines go to standard error too
and are no part of it. -/
structure Outcome where
  exitCode : Nat
  stdout : String
  /-- Standard error up to the line that tells the time. -/
  stderr : String
  /-- Whether a last line on standard error tells how long the work took. -/
  timed : Bool := false
  deriving DecidableEq, Repr

namespace Outcome

/-- Standard error of a run whose work took `elapsed`, a number of seconds as it
is shown. -/
def stderrAfter (o : Outcome) (elapsed : String) : String :=
  if o.timed then o.stderr ++ s!"  Duration:     {elapsed}s\n" else o.stderr

/-- A run that succeeds and writes to standard output only. -/
def printed (s : String) : Outcome := { exitCode := 0, stdout := s, stderr := "" }

/-- A run that fails, and has written nothing before. -/
def failed (e : CommandError) : Outcome := { exitCode := 1, stdout := "", stderr := e.text }

/-- The outcome of a command. -/
def ofResult : Except CommandError Outcome → Outcome
  | .ok o => o
  | .error e => failed e

end Outcome

/-- Lines with their ends. -/
def unlines (lines : List String) : String :=
  String.join (lines.map (· ++ "\n"))

end RouterCalldata
