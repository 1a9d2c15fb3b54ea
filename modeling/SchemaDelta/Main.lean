import SchemaDelta.CommandLine

/-!
# Comparing from the command line

Exits with 0 if no group has differences, with 1 if some has or the comparison
fails, and with 2 if the arguments are wrong.
-/

namespace SchemaDelta

/-- The number of an error of the system, which may come negated. -/
def errorNumber (code : UInt32) : Nat :=
  min code.toNat (-code).toNat

def FileError.ofSystemError : IO.Error → FileError
  | .noFileOrDirectory .. => .notFound
  | .inappropriateType _ code details =>
      if errorNumber code = 20 then .notDirectory
      else if errorNumber code = 21 then .isDirectory
      else .other details
  | .invalidArgument _ code details =>
      if errorNumber code = 36 then .nameTooLong else .other details
  | error => .other (toString error)

def readText (path : String) : BaseIO (Except FileError String) := do
  if '\x00' ∈ path.toList then
    return .error .nulInPath
  match ← (IO.FS.readBinFile path).toBaseIO with
  | .ok bytes =>
      match String.fromUTF8? bytes with
      | some text => return .ok text
      | none => return .error .notText
  | .error error => return .error (.ofSystemError error)

/-- Reads all dumps ahead of the comparison. -/
def readDumps (paths : List String) : BaseIO (String → Except FileError String) := do
  let texts ← paths.mapM fun path => return (path, ← readText path)
  return fun path => (texts.lookup path).getD (.error .notFound)

def appendText (path text : String) : EIO ComparisonError Unit :=
  (do
    let handle ← IO.FS.Handle.mk path .append
    handle.putStr text).toEIO fun error => .file path (.ofSystemError error)

def run (line : CommandLine) (configPath : String) : EIO ComparisonError UInt32 := do
  let config ← ofExcept (Config.load configPath (← readText configPath))
  let read ← readDumps config.dumpPaths
  let comparisons ← ofExcept (config.compare line.settings read)
  match line.outputFile with
  | some path => appendText path (String.join (comparisons.map Comparison.block))
  | none =>
      (IO.print (line.format.render comparisons)).toEIO fun error =>
        .file "standard output" (.ofSystemError error)
  return if Comparison.countDiffering comparisons = 0 then 0 else 1

end SchemaDelta

open SchemaDelta

def main (arguments : List String) : IO UInt32 := do
  match CommandLine.ofArguments? arguments with
  | some line =>
      match line.config <|> (← IO.getEnv "SCHEMA_DELTA_CONFIG") with
      | some path =>
          match ← (run line path).toBaseIO with
          | .ok code => return code
          | .error error =>
              IO.eprintln ("Error: " ++ error.message)
              return 1
      | none =>
          IO.eprintln CommandLine.usage
          return 2
  | none =>
      IO.eprintln CommandLine.usage
      return 2
