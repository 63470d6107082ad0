import IntLang.Proofs.Machine.Lines
import IntLang.Proofs.Token.Spelling
import IntLang.Proofs.Tree.Writing
import IntLang.Tree.Dump

/-! The lines of a dump, taken apart. A line has its depth before the first character that is no
blank, the number of a source line behind the last blank, and between them the sort of a node and
what else is shown of it. If names stay on one line, the bytes of a dump give its lines back. -/
namespace IntLang

section Texts

/-- The first occurrence of a glyph divides a text in one way only. -/
theorem Text.first_unique {g : Glyph} {s t u v : Text} (hs : g ∉ s) (ht : g ∉ t)
    (h : s ++ g :: u = t ++ g :: v) : s = t ∧ u = v := by
  have hcut := congrArg (cutAt g) h
  rw [cutAt_append hs, cutAt_append ht] at hcut
  exact Prod.mk.inj hcut

/-- The last occurrence does so as well. -/
theorem Text.last_unique {g : Glyph} {s t u v : Text} (hu : g ∉ u) (hv : g ∉ v)
    (h : s ++ g :: u = t ++ g :: v) : s = t ∧ u = v := by
  have hreverse : u.reverse ++ g :: s.reverse = v.reverse ++ g :: t.reverse := by
    simpa using congrArg List.reverse h
  obtain ⟨huv, hst⟩ := first_unique (by simpa using hu) (by simpa using hv) hreverse
  exact ⟨List.reverse_inj.mp hst, List.reverse_inj.mp huv⟩

theorem Text.replicate_append_inj {g : Glyph} {m n : Nat} {s t : Text} (hs : s.head? ≠ some g)
    (ht : t.head? ≠ some g) (h : List.replicate m g ++ s = List.replicate n g ++ t) :
    m = n ∧ s = t := by
  induction m generalizing n with
  | zero =>
    cases n with
    | zero => exact ⟨rfl, h⟩
    | succ n =>
      rw [List.replicate_succ] at h
      exact absurd (congrArg List.head? h) hs
  | succ m ih =>
    cases n with
    | zero =>
      rw [List.replicate_succ] at h
      exact absurd (congrArg List.head? h).symm ht
    | succ n =>
      rw [List.replicate_succ, List.replicate_succ] at h
      obtain ⟨rfl, hst⟩ := ih (List.cons.inj h).2
      exact ⟨rfl, hst⟩

theorem Decimal.ofInt_inj {i j : Int} (h : ofInt i = ofInt j) : i = j := by
  rw [← value_ofInt i, h, value_ofInt]

theorem Decimal.isInline_of_isPart {g : Glyph} (h : isPart g = true) : g.isInline = true := by
  cases g with
  | char c =>
    have hc : c ≠ '\n' := by
      rintro rfl
      cases h
    simpa [Glyph.isInline] using hc
  | stray b => cases h

theorem Decimal.all_isInline_ofInt (i : Int) : (ofInt i).all Glyph.isInline = true :=
  List.all_eq_true.mpr fun g hg =>
    isInline_of_isPart (List.all_eq_true.mp (all_ofInt i) g hg)

/-- A character, not a stray byte. -/
def Glyph.isChar : Glyph → Bool
  | .char _ => true
  | .stray _ => false

theorem Glyph.isChar_of_isInline {g : Glyph} (h : g.isInline = true) : g.isChar = true := by
  cases g with
  | char c => rfl
  | stray b => cases h

theorem Text.exists_map_char {t : Text} (h : t.all Glyph.isChar = true) :
    ∃ cs : List Char, t = cs.map .char := by
  induction t with
  | nil => exact ⟨[], rfl⟩
  | cons g t ih =>
    rw [List.all_cons, Bool.and_eq_true] at h
    obtain ⟨cs, rfl⟩ := ih h.2
    cases g with
    | char c => exact ⟨c :: cs, rfl⟩
    | stray b => cases h.1

theorem Utf8.encode_map_char (cs : List Char) :
    encode (cs.map .char) = cs.flatMap String.utf8EncodeChar := by
  rw [encode, List.flatMap_map]
  rfl

/-- Texts of characters are told apart by their bytes. -/
theorem Utf8.encode_inj {s t : Text} (hs : s.all Glyph.isChar = true)
    (ht : t.all Glyph.isChar = true) (h : encode s = encode t) : s = t := by
  obtain ⟨cs, rfl⟩ := Text.exists_map_char hs
  obtain ⟨ds, rfl⟩ := Text.exists_map_char ht
  rw [encode_map_char, encode_map_char] at h
  have hbytes : cs.utf8Encode = ds.utf8Encode := by rw [List.utf8Encode, h, List.utf8Encode]
  have hchars : some cs.toArray = some ds.toArray := by
    rw [← List.utf8Decode?_utf8Encode, hbytes, List.utf8Decode?_utf8Encode]
  rw [List.toArray_inj (Option.some.inj hchars)]

end Texts

/-- What a line of a dump says of its node. -/
inductive DumpLabel where
  | ident (name : Text)
  | int (value : Int64)
  | binop (op : Operator)
  | assign
  | decl (storage : Storage)
  | print
  | ret
  deriving DecidableEq, Repr

namespace DumpLabel

/-- The sort of the node. -/
def head : DumpLabel → Text
  | .ident _ => "identifier"
  | .int _ => "int"
  | .binop _ => "binop"
  | .assign => "assignment"
  | .decl _ => "declaration"
  | .print => "print"
  | .ret => "return"

def tail : DumpLabel → Text
  | .ident name => .char ' ' :: name
  | .int value => .char ' ' :: Decimal.ofInt value.toInt
  | .binop op => [.char ' ', .char op.sign]
  | .decl storage => .char ' ' :: storage.scope.text ++ " int"
  | .assign | .print | .ret => []

def text (l : DumpLabel) : Text := l.head ++ .char ':' :: l.tail

end DumpLabel

/-- A line of a dump that shows the number of a source line. -/
structure DumpEntry where
  depth : Nat
  label : DumpLabel
  line : Int
  deriving DecidableEq, Repr

def DumpEntry.dumpLine (e : DumpEntry) : DumpLine := ⟨e.depth, e.label.text, some e.line⟩

namespace DumpLabel

theorem colon_notMem_head (l : DumpLabel) : .char ':' ∉ l.head := by
  cases l <;> rw [head] <;> decide

/-- The head tells the sort of a label, and its tail the rest. -/
theorem text_inj {l m : DumpLabel} (h : l.text = m.text) : l = m := by
  obtain ⟨hhead, htail⟩ := Text.first_unique l.colon_notMem_head m.colon_notMem_head h
  cases l with
  | ident name =>
    cases m with
    | ident name' => rw [(List.cons.inj htail).2]
    | _ => exact absurd hhead (by rw [head, head]; decide)
  | int value =>
    cases m with
    | int value' => rw [Int64.toInt_inj.mp (Decimal.ofInt_inj (List.cons.inj htail).2)]
    | _ => exact absurd hhead (by rw [head, head]; decide)
  | binop op =>
    cases m with
    | binop op' => cases op <;> cases op' <;> first | rfl | exact absurd htail (by decide)
    | _ => exact absurd hhead (by rw [head, head]; decide)
  | decl storage =>
    cases m with
    | decl storage' =>
      cases storage <;> cases storage' <;> first | rfl | exact absurd htail (by decide)
    | _ => exact absurd hhead (by rw [head, head]; decide)
  | assign => cases m <;> first | rfl | exact absurd hhead (by rw [head, head]; decide)
  | print => cases m <;> first | rfl | exact absurd hhead (by rw [head, head]; decide)
  | ret => cases m <;> first | rfl | exact absurd hhead (by rw [head, head]; decide)

theorem head?_text_append (l : DumpLabel) (t : Text) :
    (l.text ++ t).head? ≠ some (.char ' ') := by
  cases l <;> simp [text, head, Text.ofString]

/-- Whether what is shown stays on one line. -/
def isInline : DumpLabel → Bool
  | .ident name => name.all Glyph.isInline
  | _ => true

theorem all_text {l : DumpLabel} (h : l.isInline = true) : l.text.all Glyph.isInline = true := by
  have htail : l.tail.all Glyph.isInline = true := by
    cases l with
    | ident name => exact h
    | int value => exact Decimal.all_isInline_ofInt _
    | binop op => cases op <;> decide
    | decl storage => cases storage <;> decide
    | assign => rfl
    | print => rfl
    | ret => rfl
  have hhead : l.head.all Glyph.isInline = true := by cases l <;> rfl
  rw [text, List.all_append, List.all_cons, hhead, htail]
  rfl

end DumpLabel

namespace DumpEntry

/-- The line of an entry up to its end. -/
def body (e : DumpEntry) : Text :=
  indent e.depth ++ (e.label.text ++
    ((" (line" : Text) ++ .char ' ' :: (Decimal.ofInt e.line ++ (")" : Text))))

theorem text_dumpLine (e : DumpEntry) : e.dumpLine.text = e.body ++ [.char '\n'] := by
  have hstart : (" (line " : Text) = (" (line" : Text) ++ [.char ' '] := rfl
  have hend : (")\n" : Text) = (")" : Text) ++ [.char '\n'] := rfl
  simp only [DumpLine.text, dumpLine, body, hstart, hend, List.append_assoc, List.cons_append,
    List.nil_append]

theorem blank_notMem_number (n : Int) : .char ' ' ∉ Decimal.ofInt n ++ (")" : Text) := by
  intro h
  rcases List.mem_append.mp h with h | h
  · exact absurd (List.all_eq_true.mp (Decimal.all_ofInt n) _ h) (by decide)
  · exact absurd h (by decide)

theorem body_inj {a b : DumpEntry} (h : a.body = b.body) : a = b := by
  obtain ⟨hdepth, hrest⟩ := Text.replicate_append_inj (a.label.head?_text_append _)
    (b.label.head?_text_append _) h
  rw [← List.append_assoc, ← List.append_assoc] at hrest
  -- A name may hold anything, so the number is found from the end.
  obtain ⟨hlabel, hline⟩ :=
    Text.last_unique (blank_notMem_number a.line) (blank_notMem_number b.line) hrest
  obtain ⟨depth, label, line⟩ := a
  obtain ⟨depth', label', line'⟩ := b
  obtain rfl : depth = depth' := by simp only at hdepth; omega
  obtain rfl := DumpLabel.text_inj (List.append_cancel_right hlabel)
  obtain rfl := Decimal.ofInt_inj (List.append_cancel_right hline)
  rfl

theorem all_body {e : DumpEntry} (h : e.label.isInline = true) :
    e.body.all Glyph.isInline = true := by
  have hindent : (indent e.depth).all Glyph.isInline = true := by
    rw [indent, List.all_replicate]
    split <;> rfl
  rw [body, List.all_append, List.all_append, List.all_append, List.all_cons, List.all_append,
    hindent, DumpLabel.all_text h, Decimal.all_isInline_ofInt]
  rfl

theorem newline_notMem_body {e : DumpEntry} (h : e.label.isInline = true) :
    .char '\n' ∉ e.body :=
  fun hmem => absurd (List.all_eq_true.mp (all_body h) _ hmem) (by decide)

/-- The text of the lines of entries. -/
def textAll (es : List DumpEntry) : Text := (es.map dumpLine).flatMap DumpLine.text

theorem textAll_cons (e : DumpEntry) (es : List DumpEntry) :
    textAll (e :: es) = e.body ++ .char '\n' :: textAll es := by
  rw [textAll, List.map_cons, List.flatMap_cons, text_dumpLine, List.append_assoc]
  rfl

/-- Entries are read back from their text, a line at a time. -/
theorem textAll_inj {as bs : List DumpEntry} (ha : ∀ e ∈ as, e.label.isInline = true)
    (hb : ∀ e ∈ bs, e.label.isInline = true) (h : textAll as = textAll bs) : as = bs := by
  induction as generalizing bs with
  | nil =>
    cases bs with
    | nil => rfl
    | cons b bs =>
      rw [textAll_cons] at h
      simp [textAll] at h
  | cons a as ih =>
    cases bs with
    | nil =>
      rw [textAll_cons] at h
      simp [textAll] at h
    | cons b bs =>
      rw [List.forall_mem_cons] at ha hb
      rw [textAll_cons, textAll_cons] at h
      obtain ⟨hbody, hrest⟩ :=
        Text.first_unique (newline_notMem_body ha.1) (newline_notMem_body hb.1) h
      rw [body_inj hbody, ih ha.2 hb.2 hrest]

theorem all_textAll {es : List DumpEntry} (h : ∀ e ∈ es, e.label.isInline = true) :
    (textAll es).all Glyph.isChar = true := by
  induction es with
  | nil => rfl
  | cons e es ih =>
    rw [List.forall_mem_cons] at h
    have hbody : e.body.all Glyph.isChar = true :=
      List.all_eq_true.mpr fun g hg =>
        Glyph.isChar_of_isInline (List.all_eq_true.mp (all_body h.1) g hg)
    rw [textAll_cons, List.all_append, List.all_cons, hbody, ih h.2]
    rfl

end DumpEntry
end IntLang
