import IntLang.Text.Basic

/-! Names of files as texts: components between slashes. -/
namespace IntLang.Path

def slash : Glyph := .char '/'

def isAbsolute (name : Text) : Bool := name.head? == some slash

/-- The components that are not empty. -/
def components (name : Text) : List Text := (Text.split slash name).filter (· ≠ [])

def here : Text := "."
def parent : Text := ".."

/-- Drop `.`, and let `..` take away the component before it. At the root it goes nowhere; with
nothing left to take away in a relative name it stays. The components are held latest first. -/
def reduceOnto (rooted : Bool) (kept : List Text) : List Text → List Text
  | [] => kept.reverse
  | c :: rest =>
    if c = here then reduceOnto rooted kept rest
    else if c = parent then
      match kept with
      | [] => reduceOnto rooted (if rooted then [] else [c]) rest
      | last :: before =>
        if last = parent then reduceOnto rooted (c :: kept) rest else reduceOnto rooted before rest
    else reduceOnto rooted (c :: kept) rest

/-- The shortest name that means the same without looking at any file. -/
def clean (name : Text) : Text :=
  let rooted := isAbsolute name
  let body := Text.join [slash] (reduceOnto rooted [] (components name))
  if rooted then slash :: body else if body = [] then here else body

/-- The name of a path from the root. -/
def rooted (path : List Text) : Text := slash :: Text.join [slash] path

/-- A name seen from a working directory. It starts at the root, whatever the directory is. -/
def absolute (directory name : Text) : Text :=
  if isAbsolute name then clean name else clean (slash :: directory ++ slash :: name)

end IntLang.Path
