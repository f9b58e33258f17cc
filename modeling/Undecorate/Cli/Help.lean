/-! # Help texts -/

namespace Undecorate.Cli.Help

/-- Lines as a text, each with its end. -/
def text (lines : List String) : String := String.join (lines.map (· ++ "\n"))

/-- Help for the program as a whole. -/
def general : String := text [
  "usage: decolower [-h] [-v] [--debug] [--quiet] [--config CONFIG]",
  "                 \x7bdesugar,units,batch\x7d ...",
  "",
  "decolower command-line interface",
  "",
  "positional arguments:",
  "  \x7bdesugar,units,batch\x7d",
  "    desugar             Lower decorators in a file",
  "    units               Show the decoration units of a file",
  "    batch               Lower every supported file under a directory",
  "",
  "options:",
  "  -h, --help            show this help message and exit",
  "  -v, --verbose         Verbose output",
  "  --debug               Enable debug logging",
  "  --quiet               Reduce logs to errors only",
  "  --config CONFIG       JSON configuration file"]

/-- Help for lowering one file. -/
def desugar : String := text [
  "usage: decolower desugar [-h] [--emit-form \x7bclassBased,constructorFunction\x7d]",
  "                         [--language \x7bjavascript,typescript,tsx\x7d]",
  "                         [--output OUTPUT]",
  "                         file",
  "",
  "positional arguments:",
  "  file                  Source file path",
  "",
  "options:",
  "  -h, --help            show this help message and exit",
  "  --emit-form \x7bclassBased,constructorFunction\x7d",
  "                        Output form",
  "  --language \x7bjavascript,typescript,tsx\x7d",
  "                        Override language detection",
  "  --output OUTPUT       Write the result here instead of stdout"]

/-- Help for listing the decorations of a file. -/
def units : String := text [
  "usage: decolower units [-h] [--language \x7bjavascript,typescript,tsx\x7d]",
  "                       [--raw-json]",
  "                       file",
  "",
  "positional arguments:",
  "  file                  Source file path",
  "",
  "options:",
  "  -h, --help            show this help message and exit",
  "  --language \x7bjavascript,typescript,tsx\x7d",
  "                        Override language detection",
  "  --raw-json            Output raw JSON"]

/-- Help for lowering a folder. -/
def batch : String := text [
  "usage: decolower batch [-h] --out-dir OUT_DIR [--ext EXT]",
  "                       [--emit-form \x7bclassBased,constructorFunction\x7d]",
  "                       directory",
  "",
  "positional arguments:",
  "  directory             Source directory",
  "",
  "options:",
  "  -h, --help            show this help message and exit",
  "  --out-dir OUT_DIR     Directory for the lowered files",
  "  --ext EXT             Limit to files with given extension(s); repeat or use",
  "                        comma-separated (e.g., --ext .js --ext .ts,.tsx)",
  "  --emit-form \x7bclassBased,constructorFunction\x7d",
  "                        Output form"]

/-- The first paragraph of a help text, which says how to call a command. -/
def usageOf (help : String) : String :=
  let rec upToBlank : List Char → List Char
    | '\n' :: '\n' :: _ => ['\n']
    | c :: rest => c :: upToBlank rest
    | [] => []
  String.ofList (upToBlank help.toList)

end Undecorate.Cli.Help
