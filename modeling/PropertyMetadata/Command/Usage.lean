import PropertyMetadata.Command.Grammar

/-! The command line of the program: one command with its arguments, and the help of each. -/

namespace PropertyMetadata.Command

def program : String := "typeref"

/-- The names that properties are decorated with where no others are given. -/
def usualDecorators : List String := ["ApiProperty", "ApiPropertyOptional", "Field"]

/-- The environment variable that bounds the depth where no other bound is given. -/
def depthVariable : String := "TYPEREF_MAX_DEPTH"

def helpSwitch : Switch := ⟨["-h", "--help"], .help, .nothing⟩

/-- Lines of text in one. -/
def block (lines : List String) : String := "\n".intercalate lines

def mainGrammar : Grammar where
  program := program
  switches := [helpSwitch, ⟨["--verbose"], .verbose, .nothing⟩]
  positionals := [.command]
  help := block [
    "usage: typeref [-h] [--verbose] \x7bresolve,normalize,scan\x7d ...",
    "",
    "Type reference resolution tool",
    "",
    "positional arguments:",
    "  \x7bresolve,normalize,scan\x7d",
    "                        Available functions",
    "    resolve             Resolve a type from a type graph to a descriptor",
    "    normalize           Rewrite import() references in a type text",
    "    scan                List decorated class properties in TypeScript sources",
    "",
    "options:",
    "  -h, --help            show this help message and exit",
    "  --verbose             Enable debug logging"]

def resolveGrammar : Grammar where
  program := program ++ " resolve"
  switches := [helpSwitch, ⟨["--file"], .file, .text⟩, ⟨["--max-depth"], .depth, .integer⟩]
  positionals := [.word "graph", .word "type_id"]
  help := block [
    "usage: typeref resolve [-h] [--file FILE] [--max-depth MAX_DEPTH]",
    "                       graph type_id",
    "",
    "positional arguments:",
    "  graph                 Type graph (.json, .graphml or .gpickle)",
    "  type_id               Id of the type node to resolve",
    "",
    "options:",
    "  -h, --help            show this help message and exit",
    "  --file FILE           Emitting file; rewrites import() references relative",
    "                        to it",
    "  --max-depth MAX_DEPTH",
    "                        Recursion guard (default: $TYPEREF_MAX_DEPTH or",
    "                        unbounded)"]

def normalizeGrammar : Grammar where
  program := program ++ " normalize"
  switches := [helpSwitch]
  positionals := [.word "text", .word "file"]
  help := block [
    "usage: typeref normalize [-h] text file",
    "",
    "positional arguments:",
    "  text        Rendered type text",
    "  file        Emitting file path",
    "",
    "options:",
    "  -h, --help  show this help message and exit"]

def scanGrammar : Grammar where
  program := program ++ " scan"
  switches := [helpSwitch, ⟨["--decorators"], .decorators, .text⟩, ⟨["--output"], .output, .text⟩]
  positionals := [.word "root_dir"]
  help := block [
    "usage: typeref scan [-h] [--decorators DECORATORS] [--output OUTPUT] root_dir",
    "",
    "positional arguments:",
    "  root_dir              TypeScript file or directory to scan",
    "",
    "options:",
    "  -h, --help            show this help message and exit",
    "  --decorators DECORATORS",
    "                        Comma separated decorator names (default:",
    "                        ApiProperty,ApiPropertyOptional,Field)",
    "  --output OUTPUT       Write the properties as JSON to this path"]

/-- The usage of a grammar: its help up to the first empty line. -/
def Grammar.usage (g : Grammar) : String :=
  block ((Text.split '\n' g.help).takeWhile fun l => l != "")

inductive Request where
  | help
  | resolve (graph id : String) (file : Option String) (depth : Option Int)
  | normalize (text file : String)
  | scan (root : String) (decorators : List String) (output : Option String)

/-- The names that a list with commas gives: without the blanks around them, and not the empty
ones. -/
def listedNames (s : String) : List String :=
  ((Text.split ',' s).map Text.trim).filter fun n => n != ""

/-- A text unless it is empty. -/
def nonempty? (s : Option String) : Option String := s.filter fun t => t != ""

/-- The commands: the name of each, its grammar, and the request of its reading. -/
def commands : List (String × Grammar × (Reading → Request)) := [
  ("resolve", resolveGrammar, fun r =>
    .resolve (r.words[0]?.getD "") (r.words[1]?.getD "") (r.value? .file)
      ((r.value? .depth).bind Number.integer?)),
  ("normalize", normalizeGrammar, fun r => .normalize (r.words[0]?.getD "") (r.words[1]?.getD "")),
  ("scan", scanGrammar, fun r =>
    .scan (r.words[0]?.getD "")
      (match r.value? .decorators with
        | some s => listedNames s
        | none => usualDecorators)
      (nonempty? (r.value? .output)))]

/-- The request of a command line. Words that nothing admits are refused last. -/
def Request.ofWords (words : List String) : Except Stop Request := do
  let r ← mainGrammar.read words
  let refuse (extras : List String) (request : Request) : Except Stop Request :=
    if extras.isEmpty then .ok request else .error (.misuse mainGrammar (.unrecognized extras))
  match r.command with
  | none | some [] => refuse r.extras .help
  | some (name :: rest) =>
    match commands.find? fun c => c.1 == name with
    | none => .error (.misuse mainGrammar (.unknownCommand name (commands.map (·.1))))
    | some (_, grammar, request) =>
      let s ← grammar.read rest
      refuse (r.extras ++ s.extras) (request s)

end PropertyMetadata.Command
