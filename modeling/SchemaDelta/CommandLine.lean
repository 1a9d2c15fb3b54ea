import SchemaDelta.Comparison.Rendering

/-!
# The command line
-/

namespace SchemaDelta

structure CommandLine where
  /-- The path of the configuration, if it is given. -/
  config : Option String := none
  /-- The file that migrations are appended to instead of being printed. -/
  outputFile : Option String := none
  format : OutputFormat := .report
  settings : ComparisonSettings := {}

namespace CommandLine

def usage : String :=
  "usage: [--output-file FILE] [--ignore-table PATTERN] [--format report|sql|json] "
    ++ "[--strict] CONFIG"

def format? (name : String) : Option OutputFormat :=
  match name with
  | "report" => some .report
  | "sql" => some .sql
  | "json" => some .json
  | _ => none

def setOption? (line : CommandLine) (option value : String) : Option CommandLine :=
  match option with
  | "-o" | "--output-file" => some { line with outputFile := some value }
  | "--ignore-table" => some { line with settings.ignore := some value }
  | "-f" | "--format" => (format? value).map fun format => { line with format := format }
  | _ => none

def isOption (argument : String) : Bool :=
  argument.toList.head? = some '-'

def readFrom? (line : CommandLine) : List String → Option CommandLine
  | [] => some line
  | "--strict" :: rest => readFrom? { line with settings.strict := true } rest
  | [path] =>
      if isOption path || line.config.isSome then none else some { line with config := some path }
  | argument :: value :: rest =>
      if isOption argument then
        match line.setOption? argument value with
        | some line => readFrom? line rest
        | none => none
      else if line.config.isSome then
        none
      else
        readFrom? { line with config := some argument } (value :: rest)

def ofArguments? (arguments : List String) : Option CommandLine :=
  readFrom? {} arguments

end CommandLine

end SchemaDelta
