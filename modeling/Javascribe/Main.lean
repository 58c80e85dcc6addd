/-
# The command line

Compiles the project in the working directory, shows what was found on
standard error, and fails when there are errors.

Key definitions: `main`.
-/
import Javascribe.Project
import Javascribe.Report

namespace Javascribe
namespace CommandLine

/-- The text of a file, or why it cannot be read. -/
def readFile (path : Path) : IO (Except String String) := do
  try
    match String.fromUTF8? (← IO.FS.readBinFile path.text) with
    | some text => return .ok text
    | none => return .error "stream did not contain valid UTF-8"
  catch error => return .error (toString error)

/-- The files below a directory of the machine. -/
def filesBelow (path : Path) : IO (Option (List Path)) := do
  try
    let found ← ((← IO.currentDir) / path.text).walkDir
    let files ← found.toList.filterM fun file => return !(← file.isDir)
    return some (files.map fun file => ⟨file.toString⟩)
  catch _ => return none

/-- Whether an action succeeds. -/
def succeeds (action : IO Unit) : IO Bool := do
  try
    action
    return true
  catch _ => return false

/-- The machine's own disk. -/
def disk : Disk IO where
  isDirectory path := do ((← IO.currentDir) / path.text).isDir
  filesBelow := filesBelow
  read := readFile
  makeDirectory path := succeeds (IO.FS.createDirAll path.text)
  write path text := succeeds (IO.FS.writeFile path.text text)

/-- Compiles the project in the working directory. -/
def compile (arguments : Arguments) : ExceptT ProjectError IO Compilation := do
  let directory ← liftM IO.currentDir
  let options ← Project.options disk arguments ⟨directory.toString⟩
  Project.compile disk options

/-- Whether reports on standard error are coloured. -/
def usesColor : IO Bool := do
  let isSilent := (← IO.getEnv "NO_COLOR").any (!·.isEmpty)
  return !isSilent && (← (← IO.getStderr).isTty)

/-- Shows the result of a compilation that took a number of milliseconds. -/
def present (compilation : Compilation) (elapsed : Nat) : IO UInt32 := do
  unless compilation.diagnostics.isEmpty do
    let sources := compilation.sources.foldl (fun table (name, text) => table.insert name text)
      Table.empty
    let report : Report := ⟨← usesColor, sources⟩
    IO.eprintln (report.render compilation.diagnostics)
  if compilation.hasErrors then
    IO.eprintln s!"Compilation failed with {compilation.errorCount} error(s)."
    return 1
  IO.println s!"Compiled in {elapsed} ms."
  return 0

/-- Runs with arguments that could be read. -/
def run (arguments : Arguments) : IO UInt32 := do
  let start ← IO.monoMsNow
  match ← (compile arguments).run with
  | .ok compilation => present compilation ((← IO.monoMsNow) - start)
  | .error error =>
    IO.eprintln s!"Error: {error.message}"
    return 1

/-- Shows why arguments do not lead to a compilation. -/
def refuse (error : ArgumentError) : IO UInt32 := do
  match error with
  | .helpWanted | .versionWanted =>
    IO.println error.message
    return 0
  | _ =>
    IO.eprintln s!"error: {error.message}"
    return 2

end CommandLine
end Javascribe

/-- Compiles the project in the working directory. -/
def main (words : List String) : IO UInt32 :=
  match Javascribe.Arguments.parse words with
  | .ok arguments => Javascribe.CommandLine.run arguments
  | .error error => Javascribe.CommandLine.refuse error
