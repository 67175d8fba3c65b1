import Payroll.Program.Arguments
/-!
What the program tells about itself.
-/

namespace Payroll.Program

/-- The lines, each with an end of its own. -/
def lines (ls : List String) : String :=
  String.join (ls.map (· ++ "\n"))

/-- What a command is for. -/
def Command.about : Command → String
  | .serve => "Serve the HTTP API (default)"
  | .migrate => "Apply pending migrations and exit"

/-- The command's name. -/
def Command.name : Command → String
  | .serve => "serve"
  | .migrate => "migrate"

/-- The text of a page. The page of the program shows the variable that names the settings file. -/
def Page.text (vars : Variables) : Page → String
  | .version => lines ["paytrack 0.1.0"]
  | .program => lines
    ["Payment-tracking backend",
     "",
     "Usage: paytrack [OPTIONS] [COMMAND]",
     "",
     "Commands:",
     "  serve    " ++ Command.about .serve,
     "  migrate  " ++ Command.about .migrate,
     "  help     Print this message or the help of the given subcommand(s)",
     "",
     "Options:",
     "      --config <CONFIG>  Settings file (default: `" ++ Settings.defaultPath ++ "`) [env: " ++
       Settings.pathVariable ++ "=" ++ (vars Settings.pathVariable).getD "" ++ "]",
     "  -h, --help             Print help",
     "  -V, --version          Print version"]
  | .command c => lines
    [c.about,
     "",
     "Usage: paytrack " ++ c.name,
     "",
     "Options:",
     "  -h, --help  Print help"]
  | .help => lines
    ["Print this message or the help of the given subcommand(s)",
     "",
     "Usage: paytrack help [COMMAND]...",
     "",
     "Arguments:",
     "  [COMMAND]...  Print help for the subcommand(s)"]

end Payroll.Program
