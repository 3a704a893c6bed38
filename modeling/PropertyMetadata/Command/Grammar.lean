import PropertyMetadata.Number.Reading
import PropertyMetadata.Text.Quoted

/-! Command lines by a grammar. Words that begin with a hyphen are switches, which may be shortened
as long as only one is meant, and may carry their value behind an equality sign; two hyphens alone
end the switches. All other words are positional, and so are negative numbers. -/

namespace PropertyMetadata.Command

open Text

inductive Purpose where
  | help | verbose | file | depth | decorators | output
  deriving DecidableEq, Repr

inductive ValueKind where
  | nothing | text | integer
  deriving DecidableEq, Repr

/-- A switch: how it is spelled, what it is for, and the value that it takes. -/
structure Switch where
  spellings : List String
  purpose : Purpose
  value : ValueKind
  deriving DecidableEq, Repr

def Switch.name (s : Switch) : String := "/".intercalate s.spellings

/-- A positional argument: one word, or a command with all that follows. -/
inductive Positional where
  | word (name : String)
  | command
  deriving DecidableEq, Repr

/-- A grammar of command lines: the program that it is of, what it admits, and its help. -/
structure Grammar where
  program : String
  switches : List Switch
  positionals : List Positional
  help : String

/-- What is wrong with a command line. -/
inductive Misuse where
  | missing (names : List String)
  | noValue (s : Switch)
  | needlessValue (s : Switch) (value : String)
  | badInteger (s : Switch) (value : String)
  | ambiguous (word : String) (spellings : List String)
  | unknownCommand (word : String) (commands : List String)
  | unrecognized (words : List String)

def Misuse.message : Misuse → String
  | missing names => "the following arguments are required: " ++ ", ".intercalate names
  | noValue s => s!"argument {s.name}: expected one argument"
  | needlessValue s v => s!"argument {s.name}: ignored explicit argument {quoted v}"
  | badInteger s v => s!"argument {s.name}: invalid int value: {quoted v}"
  | ambiguous w ss => s!"ambiguous option: {w} could match " ++ ", ".intercalate ss
  | unknownCommand w cs =>
    s!"argument function: invalid choice: {quoted w} (choose from " ++
      ", ".intercalate (cs.map quoted) ++ ")"
  | unrecognized ws => "unrecognized arguments: " ++ " ".intercalate ws

/-- Why the words of a command line are not read to their end: the help is asked for, or they are
wrong. -/
inductive Stop where
  | help (g : Grammar)
  | misuse (g : Grammar) (cause : Misuse)

/-- What a word is. A switch may be none that there is; a value behind an equality sign comes with
it. -/
inductive Mark where
  | plain
  | separator
  | switch (s : Option Switch) (spelling : String) (value : Option String)

abbrev Word := String × Mark

def Word.isSwitch (w : Word) : Bool := match w.2 with | .switch .. => true | _ => false

def Word.isSeparator (w : Word) : Bool := match w.2 with | .separator => true | _ => false

/-! ### What words are -/

namespace Grammar

/-- All spellings, each with its switch. -/
def spelled (g : Grammar) : List (String × Switch) :=
  g.switches.flatMap fun s => s.spellings.map fun n => (n, s)

def switch? (g : Grammar) (spelling : String) : Option Switch :=
  (g.spelled.find? fun p => p.1 == spelling).map (·.2)

end Grammar

/-- A word cut at its first equality sign. -/
def cutAtEquals (word : String) : String × Option String :=
  let cs := word.toList
  match cs.dropWhile (· ≠ '=') with
  | _ :: value => (String.ofList (cs.takeWhile (· ≠ '=')), some (String.ofList value))
  | [] => (word, none)

/-- Whether a word is a negative number; a line feed may end it. -/
def isNegativeNumber (word : String) : Bool :=
  let isDigit (c : Char) := (digitValue? c).isSome
  match word.toList with
  | '-' :: cs =>
    let cs := if cs.getLast? = some '\n' then cs.dropLast else cs
    match cs.dropWhile isDigit with
    | [] => !cs.isEmpty
    | '.' :: fraction => !fraction.isEmpty && fraction.all isDigit
    | _ => false
  | _ => false

/-- The switches that a shortened word may mean, with the values that come with them. -/
def Grammar.meanings (g : Grammar) (word : String) : List (String × Switch × Option String) :=
  match word.toList with
  | '-' :: '-' :: _ =>
    let (start, value) := cutAtEquals word
    g.spelled.filterMap fun (n, s) => if n.startsWith start then some (n, s, value) else none
  | dash :: c :: rest =>
    let short := String.ofList [dash, c]
    g.spelled.filterMap fun (n, s) =>
      if n = short then some (n, s, some (String.ofList rest))
      else if n.startsWith word then some (n, s, none)
      else none
  | _ => []

/-- What a word is, before any separator. -/
def Grammar.mark (g : Grammar) (word : String) : Except Stop Mark :=
  if word.toList.head? ≠ some '-' then .ok .plain
  else
    match g.switch? word with
    | some s => .ok (.switch (some s) word none)
    | none =>
      if word.length = 1 then .ok .plain
      else
        let (start, value) := cutAtEquals word
        match value, g.switch? start with
        | some _, some s => .ok (.switch (some s) start value)
        | _, _ =>
          match g.meanings word with
          | [(n, s, value)] => .ok (.switch (some s) n value)
          | [] =>
            if isNegativeNumber word || word.toList.contains ' ' then .ok .plain
            else .ok (.switch none word none)
          | ms => .error (.misuse g (.ambiguous word (ms.map (·.1))))

/-- The words of a command line with what they are. -/
def Grammar.marked (g : Grammar) : List String → Except Stop (List Word)
  | [] => .ok []
  | "--" :: ws => .ok (("--", .separator) :: ws.map (·, .plain))
  | w :: ws => do
    let m ← g.mark w
    return (w, m) :: (← g.marked ws)

/-! ### Reading -/

/-- What has been read: the values of switches, the words of positional arguments, the words of a
command, those that nothing admits, and the positional arguments still to come. -/
structure Reading where
  values : List (Purpose × Option String) := []
  words : List String := []
  command : Option (List String) := none
  extras : List String := []
  expected : List Positional

/-- The value of an argument from the words that were taken for it, without a separator. -/
def valueOf (taken : List String) : Option String := (taken.erase "--").head?

/-- The words for one positional argument, and those that follow. -/
def Positional.take? (p : Positional) (ws : List Word) : Option (List String × List Word) :=
  let lead := (ws.takeWhile Word.isSeparator).map (·.1)
  match ws.dropWhile Word.isSeparator with
  | [] => none
  | w :: rest =>
    if w.isSwitch then none
    else match p with
      | .word _ =>
        let separators := rest.takeWhile Word.isSeparator
        some (lead ++ w.1 :: separators.map (·.1), rest.dropWhile Word.isSeparator)
      | .command => some (lead ++ w.1 :: rest.map (·.1), [])

/-- A reading after the positional arguments that words begin with, and the words behind them. -/
def Reading.takePositionals (r : Reading) : List Positional → List Word → Reading × List Word
  | [], ws => ({ r with expected := [] }, ws)
  | p :: ps, ws =>
    match p.take? ws with
    | none => ({ r with expected := p :: ps }, ws)
    | some (taken, rest) =>
      let r := match p with
        | .word _ => { r with words := r.words ++ [(valueOf taken).getD ""] }
        | .command => { r with command := some taken }
      r.takePositionals ps rest

/-- A reading after a switch has its value. -/
def Reading.act (g : Grammar) (r : Reading) (s : Switch) (value : Option String) :
    Except Stop Reading :=
  match s.purpose, s.value, value with
  | .help, _, _ => .error (.help g)
  | p, .integer, some v =>
    match Number.integer? v with
    | some _ => .ok { r with values := r.values ++ [(p, some v)] }
    | none => .error (.misuse g (.badInteger s v))
  | p, _, _ => .ok { r with values := r.values ++ [(p, value)] }

/-- The switches that a word stands for, with the value of the last one. A single hyphen may stand
before several switches of one letter. -/
def unfolded (g : Grammar) (s : Switch) (short : Bool) :
    List Char → Except Stop (List Switch × Option String)
  | [] =>
    if s.value = .nothing then .error (.misuse g (.needlessValue s "")) else .ok ([s], some "")
  | c :: cs =>
    if s.value ≠ .nothing then .ok ([s], some (String.ofList (c :: cs)))
    else if short then
      match g.switch? (String.ofList ['-', c]) with
      | some t =>
        if cs.isEmpty then .ok ([s, t], none)
        else do
          let (ts, value) ← unfolded g t true cs
          return (s :: ts, value)
      | none => .error (.misuse g (.needlessValue s (String.ofList (c :: cs))))
    else .error (.misuse g (.needlessValue s (String.ofList (c :: cs))))

/-- The value of the last switch of a word, which may be the next word, and the words behind it. -/
def lastValue (g : Grammar) (s : Switch) (value : Option String) (ws : List Word) :
    Except Stop (Option String × List Word) :=
  match s.value, value, ws with
  | .nothing, _, _ => .ok (none, ws)
  | _, some v, _ => .ok (valueOf [v], ws)
  | _, none, (v, .plain) :: rest => .ok (some v, rest)
  | _, none, _ => .error (.misuse g (.noValue s))

/-- A reading after a switch, and the words behind it. -/
def Reading.takeSwitch (g : Grammar) (r : Reading) (s : Switch) (spelling : String)
    (value : Option String) (ws : List Word) : Except Stop (Reading × List Word) := do
  let short := spelling.toList[1]? != some '-'
  let (switches, value) ← match value with
    | some v => unfolded g s short v.toList
    | none => .ok ([s], none)
  let last := switches.getLast?.getD s
  let (value, ws) ← lastValue g last value ws
  let r ← switches.dropLast.foldlM (fun r t => Reading.act g r t none) r
  return (← r.act g last value, ws)

/-- A reading of words to their end. Positional arguments are taken as soon as they are there; words
before a switch that none takes are not admitted. -/
def readWords (g : Grammar) : Nat → Reading → List Word → Except Stop Reading
  | 0, r, _ => .ok r
  | fuel + 1, r, ws =>
    if ws.any Word.isSwitch then
      match ws with
      | (w, .switch s spelling value) :: rest =>
        match s with
        | none => readWords g fuel { r with extras := r.extras ++ [w] } rest
        | some s => do
          let (r, rest) ← r.takeSwitch g s spelling value rest
          readWords g fuel r rest
      | ws =>
        let (r, rest) := r.takePositionals r.expected ws
        if rest.length < ws.length then readWords g fuel r rest
        else
          let unused := (ws.takeWhile fun w => !w.isSwitch).map (·.1)
          readWords g fuel { r with extras := r.extras ++ unused }
            (ws.dropWhile fun w => !w.isSwitch)
    else
      let (r, rest) := r.takePositionals r.expected ws
      .ok { r with extras := r.extras ++ rest.map (·.1) }

def Reading.missing (r : Reading) : List String :=
  r.expected.filterMap fun
    | .word n => some n
    | .command => none

/-- The reading of a command line, which needs all its words. -/
def Grammar.read (g : Grammar) (words : List String) : Except Stop Reading := do
  let ws ← g.marked words
  let r ← readWords g (2 * ws.length + 1) { expected := g.positionals } ws
  if r.missing.isEmpty then return r else .error (.misuse g (.missing r.missing))

def Reading.value? (r : Reading) (p : Purpose) : Option String :=
  (r.values.reverse.find? fun v => v.1 == p).bind (·.2)

end PropertyMetadata.Command
