import IntLang.Text.Basic

/-! UTF-8, one byte at a time. A sequence that is cut short or continued wrongly gives its bytes
back as stray ones, so decoding is total and `encode` returns exactly the bytes that were read. -/
namespace IntLang.Utf8

/-- A character under way: the bytes so far, latest first, the bits they carry, the number of
bytes still missing and the bounds of the next one. -/
structure Pending where
  held : List UInt8
  value : Nat
  missing : Nat
  low : UInt8
  high : UInt8
  deriving DecidableEq, Repr

/-- What a first byte above 0x7f starts, if anything. The narrow bounds of the second byte leave
out overlong forms, surrogates and values above 0x10ffff. -/
def lead? (b : UInt8) : Option Pending :=
  if b < 0xc2 then none
  else if b < 0xe0 then some ⟨[b], b.toNat - 0xc0, 1, 0x80, 0xbf⟩
  else if b = 0xe0 then some ⟨[b], 0, 2, 0xa0, 0xbf⟩
  else if b = 0xed then some ⟨[b], 0xd, 2, 0x80, 0x9f⟩
  else if b < 0xf0 then some ⟨[b], b.toNat - 0xe0, 2, 0x80, 0xbf⟩
  else if b = 0xf0 then some ⟨[b], 0, 3, 0x90, 0xbf⟩
  else if b < 0xf4 then some ⟨[b], b.toNat - 0xf0, 3, 0x80, 0xbf⟩
  else if b = 0xf4 then some ⟨[b], 4, 3, 0x80, 0x8f⟩
  else none

/-- The held bytes, given up. -/
def Pending.strays (p : Pending) : Text := p.held.reverse.map .stray

def strays : Option Pending → Text
  | none => []
  | some p => p.strays

/-- A byte between characters: the glyphs it completes and what it starts. -/
def start (b : UInt8) : Text × Option Pending :=
  if b < 0x80 then ([.char (Char.ofNat b.toNat)], none)
  else match lead? b with
    | none => ([.stray b], none)
    | some p => ([], some p)

/-- One byte: the glyphs it completes and what is under way after it. -/
def feed : Option Pending → UInt8 → Text × Option Pending
  | none, b => start b
  | some p, b =>
    if p.low ≤ b ∧ b ≤ p.high then
      let value := p.value * 64 + (b.toNat - 0x80)
      if p.missing ≤ 1 then ([.char (Char.ofNat value)], none)
      else ([], some ⟨b :: p.held, value, p.missing - 1, 0x80, 0xbf⟩)
    else
      let (out, next) := start b
      (p.strays ++ out, next)

/-- Decoding with the glyphs so far held latest first. -/
def decodeOnto (done : Text) : Option Pending → List UInt8 → Text
  | p, [] => ((strays p).reverse ++ done).reverse
  | p, b :: bs =>
    let (out, next) := feed p b
    decodeOnto (out.reverse ++ done) next bs

def decode (bytes : List UInt8) : Text := decodeOnto [] none bytes

def encodeGlyph : Glyph → List UInt8
  | .char c => String.utf8EncodeChar c
  | .stray b => [b]

def encode (t : Text) : List UInt8 := t.flatMap encodeGlyph

end IntLang.Utf8
