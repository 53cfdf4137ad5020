import EquationPractice.Program.Run

/-!
# The program

Reads the command line, the settings file and the typed lines, and prints what the commands report.
A quiz is played round by round, so that every question is shown before its answer is typed.
-/

namespace EquationPractice

open Text

/-- The text of a file, unless it is not there or cannot be read. -/
def readFile? (name : String) : IO (Option String) := do
  try
    return some (← IO.FS.readFile name)
  catch _ =>
    return none

/-- Prints a report and returns the exit code. -/
def printReport (report : Report) : IO UInt32 := do
  IO.print report.output
  match report.ending with
  | .finished => pure ()
  | .failed message => IO.eprintln ("Error: " ++ message)
  | .refused => IO.eprintln ("usage: edu [OPTIONS] <" ++ "|".intercalate commandNames ++ ">")
  return UInt32.ofNat report.ending.exitCode

/-- What is said when a draw used up its attempts. -/
def exhausted : Report := .failed "the random source was exhausted"

/-- Plays a quiz with whoever types the answers. -/
partial def playRounds (quiz : Quiz) (score : Score) (source : ChaCha) : IO UInt32 := do
  if quiz.isOver score then printReport ⟨quiz.closing score, .finished⟩
  else
    match (quiz.next attemptLimit).outcome source with
    | none => printReport exhausted
    | some (.error e, _) => printReport (.failed e.message)
    | some (.ok exercise, rest) =>
        IO.print (exercise.asking quiz.locale)
        (← IO.getStdout).flush
        let line ← (← IO.getStdin).getLine
        if line.isEmpty then
          IO.print "\n"
          printReport ⟨quiz.closing score, .finished⟩
        else
          IO.print (exercise.reply quiz.locale line)
          playRounds quiz (score.add (exercise.isAnsweredBy line)) rest

/-- Carries out a request. -/
def serve (request : Request) (freshSeed : UInt64) : IO UInt32 := do
  let content ← readFile? (request.settingsFile.getD usualSettingsFile)
  match request.context fun _ => content with
  | .error e => printReport (.failed e.message)
  | .ok context =>
      match request.command with
      | .quiz overrides limit =>
          match context.quiz overrides limit with
          | .error e => printReport (.failed e.message)
          | .ok quiz => playRounds quiz .zero (overrides.source freshSeed)
      | command => printReport ((context.carryOut freshSeed [] command).getD exhausted)

end EquationPractice

/-- Runs the program. -/
def main (words : List String) : IO UInt32 := do
  let freshSeed ← IO.rand 0 (UInt64.size - 1)
  match EquationPractice.Request.ofArguments? words with
  | none => EquationPractice.printReport ⟨"", .refused⟩
  | some request => EquationPractice.serve request freshSeed.toUInt64
