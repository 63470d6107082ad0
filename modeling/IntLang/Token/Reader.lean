import IntLang.Failure
import IntLang.Text.Utf8

/-! Reading one code at a time, with push-back. A reader holds the codes that were given back,
the rest of its stream, and the number of the line it stands on. -/
namespace IntLang

/-- What one successful read gives. -/
inductive Point where
  | endOfFile
  | code (c : Int)
  deriving DecidableEq, Repr

namespace Point

def newline : Point := .code 10

/-- Code -1 stands for the end of file. -/
def ofCode (c : Int) : Point := if c = -1 then .endOfFile else .code c

def toCode : Point → Int
  | .endOfFile => -1
  | .code c => c

/-- How many lines a point ends. -/
def newlines (p : Point) : Int := if p = .newline then 1 else 0

end Point

/-- What a stream delivers at one read. -/
inductive Item where
  | point (p : Point)
  | failure (f : Failure)
  deriving DecidableEq, Repr

/-- The last code given back is read first. After the stream comes the end of file for ever, or
for ever one failure. -/
structure Reader where
  pushed : List Point := []
  stream : List Item
  breaks : Option Failure := none
  line : Int := 1
  deriving DecidableEq, Repr

namespace Reader

def ofStream (items : List Item) : Reader where
  stream := items

/-- The items of a text, one for each glyph. -/
def items (t : Text) : List Item := t.map fun g => .point (.code g.code)

/-- A reader of a text held in memory. -/
def ofText (t : Text) : Reader := ofStream (items t)

def ofBytes (bytes : List UInt8) : Reader := ofText (Utf8.decode bytes)

/-- What a stream may give at a time: some bytes, or a failure. -/
inductive Chunk where
  | bytes (bs : List UInt8)
  | failure (f : Failure)

/-- Bytes of one character may come in several chunks; a failure ends a character under way. -/
def chunkItems (held : List UInt8) : List Chunk → List Item
  | [] => items (Utf8.decode held)
  | .bytes bs :: rest => chunkItems (held ++ bs) rest
  | .failure f :: rest => items (Utf8.decode held) ++ .failure f :: chunkItems [] rest

def ofChunks (chunks : List Chunk) : Reader := ofStream (chunkItems [] chunks)

def read (r : Reader) : Except Failure Point × Reader :=
  match r.pushed with
  | p :: rest => (.ok p, { r with pushed := rest, line := r.line + p.newlines })
  | [] =>
    match r.stream with
    | .point p :: rest => (.ok p, { r with stream := rest, line := r.line + p.newlines })
    | .failure f :: rest => (.error f, { r with stream := rest })
    | [] =>
      match r.breaks with
      | some f => (.error f, r)
      | none => (.ok .endOfFile, r)

/-- Give a code back, whether or not it was read here. -/
def unread (r : Reader) (p : Point) : Reader :=
  { r with pushed := p :: r.pushed, line := r.line - p.newlines }

/-- How many codes and failures can still be read before the unending rest. -/
def pending (r : Reader) : Nat :=
  r.pushed.countP (· ≠ .endOfFile) + r.stream.countP (· ≠ .point .endOfFile)

@[simp] theorem pending_unread_code (r : Reader) (c : Int) :
    (r.unread (.code c)).pending = r.pending + 1 := by
  simp [unread, pending]
  omega

@[simp] theorem pending_unread_endOfFile (r : Reader) :
    (r.unread .endOfFile).pending = r.pending := by
  simp [unread, pending]

/-- A code given back is the next one read, and nothing else changes. -/
@[simp] theorem read_unread (r : Reader) (p : Point) : (r.unread p).read = (.ok p, r) := by
  simp [unread, read]

theorem pending_read_le (r : Reader) : r.read.2.pending ≤ r.pending := by
  unfold read
  split
  · rename_i p rest hp
    simp [pending, hp, List.countP_cons]
  · rename_i hp
    split
    · rename_i p rest hs
      simp [pending, hp, hs, List.countP_cons]
    · rename_i f rest hs
      simp [pending, hp, hs]
    · split <;> simp

/-- Every code that is read uses up one of those pending. -/
theorem pending_read_lt {r r' : Reader} {c : Int} (h : r.read = (.ok (.code c), r')) :
    r'.pending < r.pending := by
  unfold read at h
  split at h
  · rename_i p rest hp
    obtain ⟨hc, rfl⟩ := Prod.mk.inj h
    cases hc
    simp [pending, hp]
  · rename_i hp
    split at h
    · rename_i p rest hs
      obtain ⟨hc, rfl⟩ := Prod.mk.inj h
      cases hc
      simp [pending, hp, hs]
    · simp at h
    · split at h <;> simp at h

end Reader
end IntLang
