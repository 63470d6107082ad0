import IntLang.Command.Run

/-! The command line on the files of the machine it runs on. -/
namespace IntLang

/-- A text as the system takes it; a stray byte has no place there. -/
def Text.toString (t : Text) : String :=
  String.ofList (t.map fun
    | .char c => c
    | .stray _ => Glyph.replacement)

/-- The number of a system error; some calls give it negated. -/
def errorNumber (code : UInt32) : UInt32 := if code < 0x80000000 then code else 0 - code

def FileReason.ofNumber (code : UInt32) (e : IO.Error) : FileReason :=
  match errorNumber code with
  | 20 => .notDirectory
  | 21 => .isDirectory
  | 22 => .invalidName
  | 36 => .nameTooLong
  | _ => .unlisted (toString e)

def FileReason.ofIOError (e : IO.Error) : FileReason :=
  match e with
  | .noFileOrDirectory _ _ _ => .noSuchFile
  | .inappropriateType _ code _ => .ofNumber code e
  | .invalidArgument _ code _ => .ofNumber code e
  | _ => .unlisted (toString e)

/-- The host that works on real files. -/
def systemHost : Host IO where
  directory := do return (← IO.currentDir).toString
  source name := do
    try
      let bytes ← IO.FS.readBinFile name.toString
      return .ok (SourceFile.ofBytes name bytes.toList).reader
    catch e =>
      match FileReason.ofIOError e with
      | .isDirectory => return .ok (SourceFile.ofDirectory name).reader
      | reason => return .error (.file .opening name reason)
  write name text := do
    try
      IO.FS.writeBinFile name.toString ⟨(Utf8.encode text).toArray⟩
      return .ok ()
    catch e => return .error (.file .opening name (FileReason.ofIOError e))
  print text := do (← IO.getStdout).write ⟨(Utf8.encode text).toArray⟩

end IntLang

def main (args : List String) : IO UInt32 := do
  match ← IntLang.systemHost.runArgs (args.map IntLang.Text.ofString) with
  | .ok () => return 0
  | .error e =>
    (← IO.getStderr).putStrLn ("error: " ++ e.toString)
    return 1
