import DocTree.Command.Run

/-!
# The program

The outermost layer: it reads the files that a command may need, runs the command on them, and
prints what it comes to.
-/

namespace DocTree

/-- Why an attempt to read a file failed. -/
def ReadFault.ofFailure (failure : IO.Error) : ReadFault :=
  match failure with
  | .noFileOrDirectory .. => .notFound
  | .inappropriateType _ code _ => if code = 20 then .notDirectory else .isDirectory
  | rest => .other (toString rest)

/-- The bytes of a file. -/
def readBytes (path : String) : IO (Except ReadFault ByteArray) := do
  try
    return .ok (← IO.FS.readBinFile path)
  catch failure =>
    return .error (ReadFault.ofFailure failure)

/-- What was read under each of some paths. -/
def readAll (paths : List String) : IO Reading := do
  let results ← paths.mapM fun path => return (path, ← readBytes path)
  return fun path => (results.lookup path).getD (.error .notFound)

/-- Run a command line on the files of the working directory, print, and give the exit code. -/
def runProgram (arguments : List String) : IO UInt32 := do
  let environment ← LogLevel.variableNames.mapM fun name => return (name, ← IO.getEnv name)
  let level := LogLevel.ofEnvironment fun name => (environment.lookup name).join
  let files ← readAll (((Invocation.read arguments).map Invocation.paths).getD [])
  let outcome := runArguments files arguments
  (← IO.getStdout).putStr outcome.output
  (← IO.getStderr).putStr (outcome.report level)
  return outcome.code.toUInt32

end DocTree

/-- The program. -/
def main (arguments : List String) : IO UInt32 :=
  DocTree.runProgram arguments
