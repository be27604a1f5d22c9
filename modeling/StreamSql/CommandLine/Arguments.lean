/-!
# Command line arguments

A command with its files and options. Options may stand before, between and behind the files; what
follows a double dash is no option. Arguments that make no command are refused as a whole.
-/
namespace StreamSql.CommandLine

inductive Command where
  | compile (files : List String)
  | validate (files : List String)
  | execute (file : String) (config server : Option String)
  deriving DecidableEq

/-- What a list of arguments asks for. -/
inductive Invocation where
  | command (command : Command) (verbose : Bool)
  | version
  | help
  deriving DecidableEq

/-- Why reading arguments ends early. -/
inductive Stop where
  | refused
  | version
  | help
  deriving DecidableEq

/-- An argument by its form. -/
inductive Word where
  | long (name : String) (value : Option String)
  | short (letters : List Char)
  | doubleDash
  | plain (text : String)

def Word.ofText (s : String) : Word :=
  match s.toList with
  | ['-', '-'] => .doubleDash
  | '-' :: '-' :: cs =>
    let name := cs.takeWhile (· != '=')
    .long (String.ofList name)
      (if name.length < cs.length then some (String.ofList (cs.drop (name.length + 1))) else none)
  | '-' :: c :: cs => .short (c :: cs)
  | _ => .plain s

/-- The options that take a value. -/
inductive Setting where
  | config | server
  deriving DecidableEq

structure Options where
  verbose : Bool := false
  config : Option String := none
  server : Option String := none
  files : List String := []

/-- What the arguments behind a command may be. -/
structure Grammar where
  settings : Bool
  manyFiles : Bool

namespace Grammar

def ofName? (g : Grammar) : String → Option Setting
  | "config" => if g.settings then some .config else none
  | "server" => if g.settings then some .server else none
  | _ => none

def ofLetter? (g : Grammar) : Char → Option Setting
  | 'c' => g.ofName? "config"
  | 's' => g.ofName? "server"
  | _ => none

end Grammar

namespace Options

/-- No option is given twice. -/
def beVerbose (o : Options) : Except Stop Options :=
  if o.verbose then .error .refused else .ok { o with verbose := true }

/-- The path of a file is not empty. -/
def set (o : Options) : Setting → String → Except Stop Options
  | .config, path =>
    if o.config.isSome || path.isEmpty then .error .refused else .ok { o with config := some path }
  | .server, url => if o.server.isSome then .error .refused else .ok { o with server := some url }

def addFile (g : Grammar) (o : Options) (path : String) : Except Stop Options :=
  if path.isEmpty || (!g.manyFiles && !o.files.isEmpty) then .error .refused
  else .ok { o with files := o.files ++ [path] }

/-- Reads letters behind a dash. A setting takes the letters behind it as its value; where there
are none, its value is still to come. -/
def addLetters (g : Grammar) (o : Options) : List Char → Except Stop (Options × Option Setting)
  | [] => .ok (o, none)
  | 'v' :: cs => do addLetters g (← o.beVerbose) cs
  | 'h' :: _ => .error .help
  | c :: cs =>
    match g.ofLetter? c, cs with
    | none, _ => .error .refused
    | some setting, [] => .ok (o, some setting)
    | some setting, '=' :: value => do pure (← o.set setting (String.ofList value), none)
    | some setting, value => do pure (← o.set setting (String.ofList value), none)

/-- Reads a long option. -/
def addLong (g : Grammar) (o : Options) (name : String) (value : Option String) :
    Except Stop (Options × Option Setting) :=
  match name, value with
  | "verbose", none => do pure (← o.beVerbose, none)
  | "help", none => .error .help
  | name, value =>
    match g.ofName? name, value with
    | none, _ => .error .refused
    | some setting, some value => do pure (← o.set setting value, none)
    | some setting, none => .ok (o, some setting)

/-- The value of a setting that stands in an argument of its own. -/
def setNext (o : Options) (setting : Setting) (s : String) : Except Stop Options :=
  match Word.ofText s with
  | .plain value => o.set setting value
  | _ => .error .refused

/-- Reads the arguments behind a command. `pending` is a setting whose value comes next. -/
def read (g : Grammar) : (pending : Option Setting) → Options → List String → Except Stop Options
  | none, o, [] => .ok o
  | some _, _, [] => .error .refused
  | some setting, o, s :: rest => do read g none (← o.setNext setting s) rest
  | none, o, s :: rest =>
    match Word.ofText s with
    | .plain path => do read g none (← o.addFile g path) rest
    | .doubleDash => rest.foldlM (addFile g) o
    | .short letters => do
      let (o, pending) ← o.addLetters g letters
      read g pending o rest
    | .long name value => do
      let (o, pending) ← o.addLong g name value
      read g pending o rest

end Options

/-- The commands by name, with the grammar of what follows them. -/
def grammarOf? : String → Option Grammar
  | "compile" => some ⟨false, true⟩
  | "validate" => some ⟨false, true⟩
  | "execute" => some ⟨true, false⟩
  | _ => none

/-- Puts a command together. It needs a file. -/
def Command.ofOptions (name : String) (o : Options) : Except Stop Command :=
  match name, o.files with
  | _, [] => .error .refused
  | "compile", files => .ok (.compile files)
  | "validate", files => .ok (.validate files)
  | _, file :: _ => .ok (.execute file o.config o.server)

/-- Help may be asked for one command. -/
def readHelp : List String → Stop
  | [] => .help
  | [name] => if name == "help" || (grammarOf? name).isSome then .help else .refused
  | _ => .refused

def readCommand (verbose : Bool) (name : String) (rest : List String) : Except Stop Invocation :=
  match grammarOf? name with
  | some grammar => do
    let options ← Options.read grammar none {} rest
    pure (.command (← Command.ofOptions name options) (verbose || options.verbose))
  | none => .error (if name == "help" then readHelp rest else .refused)

/-- Reads letters behind a dash in front of a command. -/
def readTopLetters (verbose : Bool) : List Char → Except Stop Bool
  | [] => .ok verbose
  | 'v' :: cs => if verbose then .error .refused else readTopLetters true cs
  | 'h' :: _ => .error .help
  | 'V' :: _ => .error .version
  | _ => .error .refused

def readTop (verbose : Bool) : List String → Except Stop Invocation
  | [] => .error .refused
  | s :: rest =>
    match Word.ofText s with
    | .plain name => readCommand verbose name rest
    | .doubleDash => .error .refused
    | .short letters => do readTop (← readTopLetters verbose letters) rest
    | .long "verbose" none => if verbose then .error .refused else readTop true rest
    | .long "version" none => .error .version
    | .long "help" none => .error .help
    | .long .. => .error .refused

/-- The invocation of some arguments, unless they are refused. -/
def Invocation.ofArguments? (arguments : List String) : Option Invocation :=
  match readTop false arguments with
  | .ok invocation => some invocation
  | .error .version => some .version
  | .error .help => some .help
  | .error .refused => none

end StreamSql.CommandLine
