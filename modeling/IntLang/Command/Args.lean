import IntLang.Text.Basic

/-! The arguments of the command line. -/
namespace IntLang

inductive Command where
  | help
  | parse (files : List Text)
  | compile (files : List Text) (output : Text)
  deriving DecidableEq, Repr

inductive UsageError where
  | noSuchFlag (arg : Text)
  | valueRequired (arg : Text)
  | unexpected (arg : Text)
  | inCommand (name : Text) (e : UsageError)
  deriving DecidableEq, Repr

def UsageError.text : UsageError → Text
  | .noSuchFlag arg => "parse flag: " ++ arg ++ ": no such flag"
  | .valueRequired arg => "parse flag: " ++ arg ++ ": flag value is required"
  | .unexpected arg => "no args expected, got " ++ arg
  | .inCommand name e => name ++ ": " ++ e.text

namespace Command

def parseName : Text := "parse"
def compileName : Text := "compile"
def dashes : Text := "--"

/-- A single dash and a pair of dashes are no flags. -/
def isFlag (arg : Text) : Bool :=
  arg.head? == some (.char '-') && arg != "-" && arg != dashes

/-- The name of a flag and the value written in the same argument. -/
def splitFlag (arg : Text) : Text × Option Text :=
  let body := match arg with
    | .char '-' :: .char '-' :: rest => rest
    | .char '-' :: rest => rest
    | rest => rest
  let isName (g : Glyph) : Bool := g != .char '=' && g != .char ' '
  (body.takeWhile isName, (body.dropWhile isName).tail?)

/-- What the arguments of a command give: its files, latest first, and where its output goes. -/
structure Given where
  files : List Text := []
  output : Text := []

/-- Read the arguments of a command that takes some flags. Of several outputs the last counts. -/
def readArgs (flags : List Text) (given : Given) : List Text → Except UsageError Given
  | [] => .ok given
  | arg :: rest =>
    if arg = dashes then .ok { given with files := rest.reverse ++ given.files }
    else if isFlag arg then
      if flags.contains (splitFlag arg).1 then
        match (splitFlag arg).2 with
        | some value => readArgs flags { given with output := value } rest
        | none =>
          match rest with
          | [] => .error (.valueRequired arg)
          | value :: rest => readArgs flags { given with output := value } rest
      else .error (.noSuchFlag arg)
    else readArgs flags { given with files := arg :: given.files } rest

def ofArgs : List Text → Except UsageError Command
  | [] => .ok .help
  | arg :: rest =>
    if isFlag arg then .error (.noSuchFlag arg)
    else if arg = parseName then
      match readArgs [] {} rest with
      | .ok given => .ok (.parse given.files.reverse)
      | .error e => .error (.inCommand parseName e)
    else if arg = compileName then
      match readArgs ["output", "o"] {} rest with
      | .ok given => .ok (.compile given.files.reverse given.output)
      | .error e => .error (.inCommand compileName e)
    else .error (.unexpected arg)

/-- The names of the commands stand in a column of their own. -/
def helpLine (name what : Text) : Text :=
  let padding : Text := List.replicate (20 - name.length) (.char ' ')
  "    " ++ name ++ padding ++ " - " ++ what ++ "\n"

def helpText : Text :=
  "mini [flags] - mini is a compiler for a tiny integer language\n\nSubcommands\n" ++
    helpLine parseName "print abstract syntax tree" ++
    helpLine compileName "compile source file to x86-64 nasm assembly"

end Command
end IntLang
