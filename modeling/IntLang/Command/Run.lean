import IntLang.Command.Args
import IntLang.Compile
import IntLang.Files.Source

/-! Commands at work on files. What they need from the outside is a host; one host is a file tree
in memory. -/
namespace IntLang

/-- The means to read and write files and to print, in some monad. -/
structure Host (m : Type → Type) where
  directory : m Text
  source : Text → m (Except Failure Reader)
  write : Text → Text → m (Except Failure Unit)
  print : Text → m Unit

namespace Host

variable {m : Type → Type} [Monad m]

/-- A file that cannot be opened is named by its absolute path. -/
def openSource (h : Host m) (name : Text) : m (Except Error Reader) := do
  match ← h.source name with
  | .ok r => return .ok r
  | .error f => return .error (.fileAccess (Path.absolute (← h.directory) name) (.failure f))

def parseFile (h : Host m) (name : Text) : m (Except Error Program) := do
  match ← h.openSource name with
  | .error e => return .error e
  | .ok r =>
    match r.parse.result with
    | .ok p => return .ok p
    | .error e => return .error e.toError

def compileFile (h : Host m) (name : Text) : m (Except Fault Text) := do
  match ← h.openSource name with
  | .error e => return .error (.error e)
  | .ok r => return r.compile

def diagnostic (name : Text) : Fault → Text
  | .error e => (Diagnostic.ofError name e).text
  | .misuse m => m.message

/-- Print the trees of files one after another, up to the first that has none. -/
def printTrees (h : Host m) : List Text → m (Except Text Unit)
  | [] => return .ok ()
  | name :: rest => do
    match ← h.parseFile name with
    | .error e => return .error (diagnostic name (.error e))
    | .ok p =>
      h.print p.dump
      h.printTrees rest

def compileTo (h : Host m) (name output : Text) : m (Except Text Unit) := do
  match ← h.compileFile name with
  | .error f => return .error (diagnostic name f)
  | .ok text =>
    if output = [] then
      h.print text
      return .ok ()
    else
      match ← h.write output text with
      | .ok () => return .ok ()
      | .error f => return .error ("write output: " ++ f.text)

/-- Note the command in which an error arose. -/
def noting (name : Text) (result : Except Text Unit) : Except Text Unit :=
  match result with
  | .ok () => .ok ()
  | .error e => .error (name ++ ": " ++ e)

def run (h : Host m) : Command → m (Except Text Unit)
  | .help => do
    h.print Command.helpText
    return .ok ()
  | .parse files => do return noting Command.parseName (← h.printTrees files)
  | .compile [name] output => do
    return noting Command.compileName (← h.compileTo name output)
  | .compile _ _ =>
    return noting Command.compileName (.error "exactly one source file expected")

/-- The whole command line: the text of an error, if any. -/
def runArgs (h : Host m) (args : List Text) : m (Except Text Unit) :=
  match Command.ofArgs args with
  | .ok command => h.run command
  | .error e => return .error e.text

end Host

/-- A file tree, and what was printed. -/
structure Desk where
  files : FileTree
  printed : Text := []

/-- The host that works on a desk. -/
def Desk.host : Host (StateM Desk) where
  directory := do return Path.rooted (← get).files.directory
  source name := do return ((← get).files.openSource name).map SourceFile.reader
  write name text := do
    let desk ← get
    match desk.files.write name (Utf8.encode text) with
    | .ok files =>
      set { desk with files }
      return .ok ()
    | .error reason => return .error (.file .opening name reason)
  print text := modify fun desk => { desk with printed := desk.printed ++ text }

end IntLang
