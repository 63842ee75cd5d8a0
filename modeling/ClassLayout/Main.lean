import ClassLayout.Command.Run
import ClassLayout.Storage.Path

/-!
# The program

The command line run on the file system. The log goes to the error stream, one event a line.
-/

namespace ClassLayout

/-- The cause of a file error. Its number comes with either sign. -/
def fileError (error : IO.Error) : StorageError :=
  match error with
  | .noFileOrDirectory .. => .notFound
  | .alreadyExists .. => .occupied
  | .inappropriateType _ code _ => if code = 20 ∨ code = -20 then .notDirectory else .isDirectory
  | .invalidArgument _ code _ =>
    if code = 36 ∨ code = -36 then .nameTooLong else .other (toString error)
  | error => .other (toString error)

def createDirectory (path : String) : IO Unit := do
  try IO.FS.createDir path
  catch
    | .alreadyExists .. => IO.FS.createDirAll path
    | error => throw error

/-- The directory at a path whose parts are given last first. Those on the way to it are created
when it cannot be created without them. -/
def createDirectories (start : Start) : List String → IO Unit
  | [] => pure ()
  | part :: rest =>
    if Path.leadsNowhere part then createDirectories start rest
    else do
      let path := Path.toString ⟨start, (part :: rest).reverse⟩
      try createDirectory path
      catch
        | .noFileOrDirectory .. =>
          createDirectories start rest
          createDirectory path
        | error => throw error

def fileStorage : Storage IO where
  read path := do
    try
      match String.fromUTF8? (← IO.FS.readBinFile path) with
      | some text => return .ok text
      | none => return .error .notText
    catch error => return .error (fileError error)
  write path text := do
    try
      match (Path.ofString path).parent? with
      | some parent => createDirectories parent.start parent.parts.reverse
      | none => pure ()
      IO.FS.writeFile path text
      return .ok ()
    catch error => return .error (fileError error)

end ClassLayout

open ClassLayout in
def main (words : List String) : IO UInt32 := do
  let environment : Log.Environment :=
    { format? := ← IO.getEnv "FLATCLASS_LOG_FORMAT"
      level? := ← IO.getEnv "FLATCLASS_LOG_LEVEL"
      filter? := ← IO.getEnv "RUST_LOG" }
  let outcome ← Command.run fileStorage environment words
  let format := Command.logFormat environment words
  for event in outcome.events do
    IO.eprintln (if format = .json then event.toJson.compact else event.line)
  IO.print outcome.output
  IO.eprint outcome.report
  return outcome.exitCode.toUInt32
