/-
# Criteria.Main -- the program

Reads what the command line names, and shows the response.  All decisions are
`CommandLine.request` and `CommandLine.respond`.
-/
import Criteria.CommandLine.Run

namespace Criteria.Main

set_option autoImplicit false

open CommandLine

def causeOf : IO.Error → FileFault
  | .noFileOrDirectory .. => .missing
  | .inappropriateType _ code _ => if code = 21 then .isDirectory else .notDirectory
  | .invalidArgument .. => .nameTooLong
  | _ => .notText

def readFile (path : String) : IO (Except FileFault String) := do
  try
    return .ok (← IO.FS.readFile path)
  catch e =>
    return .error (causeOf e)

/-- All of a stream, from what has been read of it on. -/
partial def readRest (stream : IO.FS.Stream) (before : String) : IO String := do
  let line ← stream.getLine
  if line.isEmpty then return before else readRest stream (before ++ line)

def readSettings : IO (Option (Except FileFault String)) := do
  match settingsPath (← IO.getEnv "XDG_CONFIG_HOME") (← IO.getEnv "HOME") with
  | none => return none
  | some path =>
      match ← readFile path with
      | .error .missing => return none
      | .error .notDirectory => return none
      | content => return some content

def wantsColor : IO Bool := do
  if (← IO.getEnv "CLICOLOR_FORCE").any (· != "0") then return true
  if (← IO.getEnv "NO_COLOR").isSome then return false
  (← IO.getStdout).isTty

def run (words : List String) : IO UInt32 := do
  let asked := request (← IO.getEnv "SQLI_CONFIG") words
  let contents ← asked.files.mapM fun path => do return (path, ← readFile path)
  let standardInput ←
    if asked.files.contains "-" then readRest (← IO.getStdin) "" else pure ""
  let sources : Sources :=
    { file := fun path => (contents.lookup path).getD (.error .missing)
      settings := ← readSettings
      standardInput
      colored := ← wantsColor }
  let response := respond sources asked
  for line in response.lines do IO.println line
  for message in response.failure do IO.eprintln message
  return .ofNat response.exit

end Criteria.Main

def main (words : List String) : IO UInt32 :=
  Criteria.Main.run words
