import NullGuard.Cli.Report

/-!
The program: reads a query document, inserts guards into its query and prints the report.
-/

namespace NullGuard.Cli

def usageText : String :=
  "Usage: nullguard [OPTIONS] <INPUT>\n\n" ++
  "Insert guards into a query expression, so that it tolerates null.\n\n" ++
  "  <INPUT>              query document (JSON), or - for standard input\n" ++
  "  --format <FORMAT>    text (default) or json\n" ++
  "  --eval               evaluate the query without and with guards\n" ++
  "  --max-depth <N>      maximum nesting of expressions\n" ++
  "  --stats              report guard and cache counters\n" ++
  "  --empty-collections  yield empty collections instead of null\n" ++
  "  -h, --help           print this text\n" ++
  "  -V, --version        print the version\n"

def Usage.text : Usage → String
  | .missingInput => "error: an input is required\n\n" ++ usageText
  | .unknownArgument => "error: unexpected argument\n\n" ++ usageText
  | .conflict => "error: an option is given more than once\n\n" ++ usageText
  | .invalidValue => "error: a value is missing or not among the choices\n\n" ++ usageText
  | .invalidNumber => "error: not a number of at most 32 bits\n\n" ++ usageText
  | .unexpectedValue => "error: the option takes no value\n\n" ++ usageText
  | .help => usageText
  | .version => "nullguard 0.1.0\n"

/-- The text of the document, if it can be read. -/
def readDocument (args : Args) : IO (Option String) := do
  try
    if args.readsStdin then
      return some (← (← IO.getStdin).readToEnd)
    return some (← IO.FS.readFile args.input)
  catch _ => return none

end NullGuard.Cli

open NullGuard NullGuard.Cli in
/-- Exits with 2 on a refused command line and with 1 on a document that cannot be processed. -/
def main (args : List String) : IO UInt32 := do
  match Args.parse args with
  | .error .help =>
    IO.print (Usage.text .help)
    return 0
  | .error .version =>
    IO.print (Usage.text .version)
    return 0
  | .error usage =>
    IO.eprint (Usage.text usage)
    return 2
  | .ok args =>
    let result := match ← readDocument args with
      | some text => run text args
      | none => DocumentM.fail (.unreadable args.input)
    match result with
    | .ok report =>
      IO.print (report.render args.format)
      return 0
    | .error error =>
      IO.eprintln ("Error: " ++ ": ".intercalate error.chain)
      return 1
