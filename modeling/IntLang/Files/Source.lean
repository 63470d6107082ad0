import IntLang.Files.Tree
import IntLang.Token.Reader

/-! Source files that are read in blocks. What is in memory when a file is closed can still be
read; after that every read fails. -/
namespace IntLang

/-- What one look into the file brings: items that can be read without another look, and the number
of bytes of a character that only the next look can complete. -/
structure Block where
  items : List Item
  spill : Nat
  deriving DecidableEq, Repr

/-- How many bytes of a file are in memory at a time. -/
def blockSize : Nat := 4096

/-- The byte that completes no character, as a reader sees it. -/
def brokenItem : Item := .point (.code Glyph.replacement.toNat)

namespace Block

def held (p : Option Utf8.Pending) : Nat := (Utf8.strays p).length

/-- The blocks of a file from some byte on, with the items of the present block latest first and
the number of bytes that are still to come into it. A character that the file leaves incomplete is
found out by a look that meets the end of the file, and this end is read once after it. -/
def split (room : Nat) (p : Option Utf8.Pending) (items : List Item) : List UInt8 → List Block
  | [] =>
    ⟨items.reverse, held p⟩ ::
      if held p = 0 then []
      else [⟨List.replicate (held p) brokenItem ++ [.point .endOfFile], 0⟩]
  | b :: rest =>
    let (out, next) := Utf8.feed p b
    let more := (Reader.items out).reverse
    match room with
    | 0 => ⟨items.reverse, held p⟩ :: split (blockSize - held p - 1) next more rest
    | room + 1 => split room next (more ++ items) rest

def ofBytes (bytes : List UInt8) : List Block := split blockSize none [] bytes

/-- What is left in memory after a number of items was read: the rest of the block they end in. -/
def remaining : List Block → (read : Nat) → List Item
  | [], _ => []
  | b :: rest, read =>
    if read = 0 then []
    else if read ≤ b.items.length then b.items.drop read ++ List.replicate b.spill brokenItem
    else remaining rest (read - b.items.length)

end Block

/-- A file that was opened for reading. -/
structure SourceFile where
  name : Text
  blocks : List Block
  isOpen : Bool
  reader : Reader
  deriving DecidableEq, Repr

namespace SourceFile

def ofBytes (name : Text) (bytes : List UInt8) : SourceFile :=
  let blocks := Block.ofBytes bytes
  ⟨name, blocks, true, Reader.ofStream (blocks.flatMap Block.items)⟩

/-- A directory can be opened, but every read of it fails. -/
def ofDirectory (name : Text) : SourceFile :=
  ⟨name, [], true, { stream := [], breaks := some (.file .reading name .isDirectory) }⟩

/-- Close the file. To close it again changes nothing. -/
def close (s : SourceFile) : SourceFile :=
  if s.isOpen then
    let total := (s.blocks.flatMap Block.items).length
    { s with
      isOpen := false
      reader := { s.reader with
        stream := Block.remaining s.blocks (total - s.reader.stream.length)
        breaks := some (.file .reading s.name .alreadyClosed) } }
  else s

end SourceFile

def FileTree.openSource (t : FileTree) (name : Text) : Except Failure SourceFile :=
  match t.find name with
  | .ok (.file bytes) => .ok (.ofBytes name bytes)
  | .ok .directory => .ok (.ofDirectory name)
  | .error reason => .error (.file .opening name reason)

end IntLang
