/-!
# Help texts

What the commands say about themselves.
-/
namespace Rebind.Command

def programName : String := "partser"

def version : String := "0.1.0"

def programUsage : String := "Usage: " ++ programName ++ " [OPTIONS] COMMAND [ARGS]..."

def parseUsage : String := "Usage: " ++ programName ++ " parse [OPTIONS] GRAMMAR [FILE]"

def programHelp : List String :=
  [programUsage,
   "",
   "  Run partser grammars from the command line.",
   "",
   "Options:",
   "  --version      Show the version and exit.",
   "  -v, --verbose  Log what partser is doing to stderr.",
   "  --help         Show this message and exit.",
   "",
   "Commands:",
   "  parse  Parse FILE (default: stdin) with GRAMMAR and print the value as JSON."]

def parseHelp : List String :=
  [parseUsage,
   "",
   "  Parse FILE (default: stdin) with GRAMMAR and print the value as JSON.",
   "",
   "Options:",
   "  --env TEXT     Environment value, as JSON.",
   "  --trace        Print every parser evaluation.",
   "  --config FILE  Path to partser.toml (default: nearest one above the working",
   "                 directory).",
   "  --help         Show this message and exit."]

end Rebind.Command
