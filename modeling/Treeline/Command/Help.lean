namespace Treeline.Command

-- The fixed texts of the command.

def programName : String := "statpy"

def programVersion : String := "0.1.0"

def versionText : String := programName ++ " " ++ programVersion ++ "\n"

def linesText (lines : List String) : String := String.join (lines.map (· ++ "\n"))

def shortHelp : String := linesText
  ["Render a statpy syntax tree as an indented construction trace",
   "",
   "Usage: statpy [OPTIONS] <PATH>",
   "",
   "Arguments:",
   "  <PATH>  ",
   "",
   "Options:",
   "  -o, --output <OUTPUT>  ",
   "  -v, --verbose          ",
   "  -t, --timing           ",
   "  -h, --help             Print help (see more with '--help')",
   "  -V, --version          Print version"]

def longHelp : String := linesText
  ["Render a statpy syntax tree as an indented construction trace.",
   "The tree is read from the JSON document produced by the parser",
   "and printed one line per node.",
   "",
   "Example usage:",
   "statpy tree.json                  # Print trace to stdout",
   "statpy tree.json -o tree.txt      # Write trace to a file",
   "statpy tree.json --verbose        # Report each phase",
   "statpy tree.json --timing         # Show timing and node statistics",
   "",
   "Usage: statpy [OPTIONS] <PATH>",
   "",
   "Arguments:",
   "  <PATH>",
   "          ",
   "",
   "Options:",
   "  -o, --output <OUTPUT>",
   "          ",
   "",
   "  -v, --verbose",
   "          ",
   "",
   "  -t, --timing",
   "          ",
   "",
   "  -h, --help",
   "          Print help (see a summary with '-h')",
   "",
   "  -V, --version",
   "          Print version"]

def helpText (long : Bool) : String := if long then longHelp else shortHelp

end Treeline.Command
