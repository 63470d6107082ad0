import Mathlib.Data.List.Nodup
import Mathlib.Data.List.TakeWhile
import IntLang.Compile
import IntLang.Proofs.Code.Correctness
import IntLang.Proofs.Scope.Rule

/-! The symbols of an assembly text. Every label that an instruction names is defined by one line
of the data section, and no label is defined twice. -/
namespace IntLang

namespace Text

def lines (t : Text) : List Text := t.split (.char '\n')

/-- The label that a line defines, which stands before a colon. -/
def label? (line : Text) : Option Text :=
  if .char ':' ∈ line ∧ (line.cutAt (.char ':')).1.all Glyph.isLabelPart = true then
    some (line.cutAt (.char ':')).1
  else none

/-- The line has the cell of a label as an operand. -/
def Names (line label : Text) : Prop :=
  .char ']' ∉ label ∧ ∃ a b, line = a ++ ("[rel " ++ label ++ "]" ++ b)

/-- The lines of a section, between the line that opens it and the next section. -/
def sectionLines (t name : Text) : List Text :=
  ((t.lines.dropWhile (· ≠ "\tsection " ++ name)).drop 1).takeWhile
    fun line => !List.isPrefixOf "\tsection " line

/-- A line with its end. -/
def ended (line : Text) : Text := line ++ "\n"

theorem lines_ended {line : Text} (h : .char '\n' ∉ line) (t : Text) :
    lines (line.ended ++ t) = line :: lines t := by
  induction line with
  | nil => rfl
  | cons g line ih =>
    rw [List.mem_cons, not_or] at h
    have hsplit : split (.char '\n') (line ++ "\n" ++ t) = line :: lines t := ih h.2
    rw [split] at hsplit
    rw [lines, split, ended, List.cons_append, List.cons_append, List.foldr_cons,
      if_neg (Ne.symm h.1), hsplit]

theorem lines_flatMap {ls : List Text} (h : ∀ l ∈ ls, .char '\n' ∉ l) :
    lines (ls.flatMap ended) = ls ++ [[]] := by
  induction ls with
  | nil => rfl
  | cons l ls ih =>
    rw [List.forall_mem_cons] at h
    rw [List.flatMap_cons, lines_ended h.1, ih h.2, List.cons_append]

theorem label?_colon {label : Text} (h : label.all Glyph.isLabelPart = true) (rest : Text) :
    label? (label ++ .char ':' :: rest) = some label := by
  have hcolon : .char ':' ∉ label := fun hm => by cases List.all_eq_true.mp h _ hm
  rw [label?, cutAt_append hcolon, if_pos ⟨by simp, h⟩]

theorem label?_of_notMem {line : Text} (h : .char ':' ∉ line) : line.label? = none :=
  if_neg fun hand => h hand.1

end Text

/-- A glyph that occurs once tells what comes after it. -/
theorem after_unique {g : Glyph} {s t a b : Text} (hs : g ∉ s) (ht : g ∉ t)
    (h : s ++ g :: t = a ++ g :: b) : b = t := by
  rcases split_append h with ⟨ws, rfl, _⟩ | ⟨ws, rfl, hws⟩
  · simp at hs
  · rcases List.cons_eq_append_iff.mp hws with ⟨_, hb⟩ | ⟨us, _, rfl⟩
    · exact (List.cons.inj hb).2
    · simp at ht

/-- A bracket in the text of an operand opens the name of a cell or an address. -/
theorem Operand.after_bracket {o : Operand} (ho : o.Usual) {a b : Text}
    (h : o.text = a ++ .char '[' :: b) :
    (∃ label : Text, o = .rel label ∧ .char ']' ∉ label ∧
      b = ("rel " : Text) ++ label ++ [.char ']']) ∨
    ∃ r ∈ Reg.all, ∃ rest, b = r.text ++ rest := by
  have hmem : .char '[' ∈ o.text := by simp [h]
  have hnum {t : Text} (ht : t.all Decimal.isPart = true) : .char '[' ∉ t := fun hm => by
    cases List.all_eq_true.mp ht _ hm
  have hreg : ∀ r ∈ Reg.all, .char '[' ∉ r.text := by decide
  cases o with
  | reg r => exact absurd hmem (hreg r ho)
  | imm value => exact absurd hmem (hnum (Decimal.all_ofInt value))
  | mem m =>
    obtain ⟨hbase, hsize⟩ := ho
    have hs : .char '[' ∉ m.sizeText := by
      rcases hsize with hsize | hsize
      · simp [Mem.sizeText, hsize]
      · rw [Mem.sizeText, hsize]
        decide
    have hd : .char '[' ∉ m.dispText := by
      unfold Mem.dispText
      split
      · simp
      · exact hnum (Decimal.all_signed m.disp)
    have ht : text (.mem m) =
        m.sizeText ++ .char '[' :: (m.base.text ++ (m.dispText ++ [.char ']'])) := by
      simp [text, Mem.text, Text.ofString]
    refine .inr ⟨m.base, hbase, m.dispText ++ [.char ']'], ?_⟩
    exact after_unique hs (by simp [hreg m.base hbase, hd]) (ht.symm.trans h)
  | rel label =>
    have hpart {c : Char} (hc : Glyph.isLabelPart (.char c) = false) : .char c ∉ label := by
      intro hm
      rw [List.all_eq_true.mp ho _ hm] at hc
      cases hc
    have ht : text (.rel label) = .char '[' :: (("rel " : Text) ++ label ++ [.char ']']) := rfl
    have hrel : .char '[' ∉ ("rel " : Text) := by decide
    refine .inl ⟨label, rfl, hpart rfl, ?_⟩
    exact after_unique List.not_mem_nil (by simp [hrel, hpart (c := '[') rfl]) (ht.symm.trans h)

/-- Where the cell of a label is named after some text without brackets, the next operand is this
cell or the cell is named later. -/
theorem Operand.rel_of_names {o : Operand} (ho : o.Usual) {w rest label : Text}
    (hw : .char '[' ∉ w) (h : Text.Names (w ++ (o.text ++ rest)) label) :
    o = .rel label ∨ Text.Names rest label := by
  obtain ⟨hl, a, b, h⟩ := h
  have hcell : (("[rel " : Text) ++ label ++ "]" ++ b) =
      .char '[' :: (("rel " : Text) ++ (label ++ .char ']' :: b)) := by
    simp [Text.ofString]
  rw [hcell] at h
  rcases split_append h with ⟨ws, rfl, _⟩ | ⟨a₁, rfl, h₁⟩
  · simp at hw
  rcases split_append h₁ with ⟨ws, htext, hws⟩ | ⟨a₂, _, hrest⟩
  · refine .inl ?_
    rcases after_bracket ho htext with ⟨label', rfl, hl', rfl⟩ | ⟨r, hr, t, rfl⟩
    · simp only [List.append_assoc, List.singleton_append] at hws
      have hcut := congrArg (Text.cutAt (.char ']')) (List.append_cancel_left hws)
      rw [Text.cutAt_append hl, Text.cutAt_append hl'] at hcut
      rw [(Prod.mk.inj hcut).1]
    · have hne : ∀ r ∈ Reg.all, ("rel" : Text) ≠ r.text := by decide
      have htake := congrArg (List.take 3) hws
      rw [List.append_assoc, List.take_left' (Reg.length_text r hr)] at htake
      exact absurd htake (hne r hr)
  · exact .inr ⟨hl, a₂, b, by rw [hcell, hrest]⟩

theorem Text.not_names {t : Text} (h : .char '[' ∉ t) (label : Text) : ¬ t.Names label := by
  rintro ⟨_, a, b, rfl⟩
  have hopen : .char '[' ∈ ("[rel " : Text) := by decide
  simp [hopen] at h

/-- What the texts of instructions are made of, but for operands in memory. -/
def Glyph.isPlain (g : Glyph) : Bool := g.isLabelPart || g ∈ (" ,." : Text)

namespace Instr

theorem all_text {p : Glyph → Bool} (hp : ∀ g, g.isPlain = true → p g = true) {i : Instr}
    (hi : i.Usual) (hops : ∀ o ∈ i.operands, o.text.all p = true) : i.text.all p = true := by
  have plain {t : Text} (ht : t.all Glyph.isPlain = true) : t.all p = true := by
    rw [List.all_eq_true] at ht ⊢
    exact fun g hg => hp g (ht g hg)
  have hreg {r : Reg} (hr : r ∈ Reg.all) : r.text.all p = true := by
    have hregs : ∀ r ∈ Reg.all, r.text.all Glyph.isPlain = true := by decide
    exact plain (hregs r hr)
  have one {w t : Text} (hw : w.all Glyph.isPlain = true) (ht : t.all p = true) :
      (w ++ t).all p = true := by
    rw [List.all_append, plain hw, ht, Bool.and_self]
  have two {w t u : Text} (hw : w.all Glyph.isPlain = true) (ht : t.all p = true)
      (hu : u.all p = true) : (w ++ t ++ (", " : Text) ++ u).all p = true := by
    rw [List.append_assoc, List.all_append, one hw ht, one (by decide) hu, Bool.and_self]
  cases i with
  | mov dst src =>
    exact two (by decide) (hops dst (by simp [operands])) (hops src (by simp [operands]))
  | push r => exact one (by decide) (hreg hi)
  | pop r => exact one (by decide) (hreg hi)
  | add dst src => exact two (by decide) (hreg hi.1) (hreg hi.2)
  | sub dst src => exact two (by decide) (hreg hi.1) (hops src (by simp [operands]))
  | imul dst src => exact two (by decide) (hreg hi.1) (hreg hi.2)
  | cqo => exact plain (by decide)
  | idiv r => exact one (by decide) (hreg hi)
  | lea dst src => exact two (by decide) (hreg hi.1) (hops src (by simp [operands]))
  | xor dst src => exact two (by decide) (hreg hi.1) (hreg hi.2)
  | call function =>
    have hfunction : List.all function Glyph.isPlain = true := by
      rw [Usual, List.all_eq_true] at hi
      rw [List.all_eq_true]
      intro g hg
      rw [Glyph.isPlain, hi g hg, Bool.true_or]
    have hplt : (" wrt ..plt" : Text).all p = true := plain (by decide)
    rw [text, List.all_append, one (by decide) (plain hfunction), hplt, Bool.and_self]
  | ret => exact plain (by decide)

theorem notMem_text {i : Instr} (hi : i.Usual) {g : Glyph} (hg : g.isPlain = false)
    (hops : ∀ o ∈ i.operands, g ∉ o.text) : g ∉ i.text := by
  have hall : i.text.all (fun x => x ≠ g) = true := by
    refine all_text ?_ hi ?_
    · intro x hx
      have hne : x ≠ g := by
        rintro rfl
        rw [hx] at hg
        cases hg
      simpa using hne
    · intro o ho
      rw [List.all_eq_true]
      intro x hx
      have hne : x ≠ g := fun e => hops o ho (e ▸ hx)
      simpa using hne
  intro hmem
  simpa using List.all_eq_true.mp hall g hmem

theorem usual_of_mem_operands {i : Instr} (hi : i.Usual) {o : Operand} (ho : o ∈ i.operands) :
    o.Usual := by
  cases i <;> simp only [operands, List.mem_cons, List.not_mem_nil, or_false] at ho
  case mov => rcases ho with rfl | rfl; exacts [hi.1, hi.2]
  case sub => exact ho ▸ hi.2
  case lea => exact ho ▸ hi.2

/-- The labels that an instruction names are among its operands. -/
theorem rel_of_names {i : Instr} (hi : i.Usual) {w label : Text} (hw : .char '[' ∉ w)
    (h : Text.Names (w ++ i.text) label) : .rel label ∈ i.operands := by
  -- The texts of all instructions but three have no bracket.
  have hnone (hops : i.operands = []) : False := by
    have hi : .char '[' ∉ i.text := notMem_text hi rfl (by simp [hops])
    exact Text.not_names (by simp [hw, hi]) label h
  have hlast {o : Operand} (ho : o.Usual) {v : Text} (hv : .char '[' ∉ v)
      (h : Text.Names (v ++ o.text) label) : o = .rel label := by
    rw [← List.append_nil o.text] at h
    exact (Operand.rel_of_names ho hv h).resolve_right (Text.not_names List.not_mem_nil label)
  have hcomma : .char '[' ∉ (", " : Text) := by decide
  have hsecond {op : Text} (hop : .char '[' ∉ op) {dst : Reg} (hdst : dst ∈ Reg.all)
      {src : Operand} (hsrc : src.Usual)
      (h : Text.Names (w ++ (op ++ dst.text ++ (", " : Text) ++ src.text)) label) :
      src = .rel label := by
    have hreg : ∀ r ∈ Reg.all, .char '[' ∉ r.text := by decide
    rw [← List.append_assoc] at h
    exact hlast hsrc (by simp [hw, hop, hcomma, hreg dst hdst]) h
  cases i with
  | mov dst src =>
    have hmov : .char '[' ∉ ("mov " : Text) := by decide
    have htext : w ++ text (.mov dst src) =
        w ++ "mov " ++ (dst.text ++ ((", " : Text) ++ src.text)) := by simp [text]
    rw [htext] at h
    rcases Operand.rel_of_names hi.1 (by simp [hw, hmov]) h with rfl | h
    · exact List.mem_cons_self
    · rw [hlast hi.2 hcomma h]
      exact List.mem_cons_of_mem _ List.mem_cons_self
  | sub dst src => exact List.mem_singleton.mpr (hsecond (by decide) hi.1 hi.2 h).symm
  | lea dst src => exact List.mem_singleton.mpr (hsecond (by decide) hi.1 hi.2 h).symm
  | push | pop | add | imul | cqo | idiv | xor | call | ret => exact (hnone rfl).elim

end Instr

/-- The definition of a global without the end of its line. -/
def Global.definitionLine (g : Global) : Text :=
  g.label ++ ":\tdq 0\t; " ++ g.name ++ ", line " ++ Decimal.ofInt g.line

/-- The definition of the format of numbers. -/
def formatLine : Text := printFormat ++ ":\tdb \"%ld\", 10, 0"

def codeLine (i : Instr) : Text := "\t" ++ i.text

/-- The lines before the data. -/
def openingLines : List Text :=
  ["; generated by mini", "\tdefault rel", "\tglobal main", "\textern printf", [],
    "\tsection .data"]

/-- The lines between the data and the code. -/
def middleLines : List Text :=
  [[], "\tsection .note.GNU-stack noalloc noexec nowrite progbits", [], "\tsection .text", "main:"]

/-- All lines of an assembly text, for these instructions. -/
def assemblyLines (t : Table) (is : List Instr) : List Text :=
  openingLines ++ (formatLine :: t.globals.map Global.definitionLine ++
    (middleLines ++ is.map codeLine))

theorem Generator.text_eq (t : Table) (is : List Instr) :
    preamble t ++ (is.map Instr.text).flatMap lineText =
      (assemblyLines t is).flatMap Text.ended := by
  have hopening : headerText ++ (("\n\tsection .data\n" : Text) ++ printFormat ++
      ":\tdb \"%ld\", 10, 0\n") = (openingLines ++ [formatLine]).flatMap Text.ended := by
    decide +kernel
  have hmiddle : stackNote ++ textHeader = middleLines.flatMap Text.ended := by decide +kernel
  have hglobals : t.globals.flatMap Global.definition =
      (t.globals.map Global.definitionLine).flatMap Text.ended := by
    rw [List.flatMap_map]
    rfl
  have hcode : (is.map Instr.text).flatMap lineText = (is.map codeLine).flatMap Text.ended := by
    rw [List.flatMap_map, List.flatMap_map]
    rfl
  have hlines : assemblyLines t is = openingLines ++ [formatLine] ++
      (t.globals.map Global.definitionLine ++ (middleLines ++ is.map codeLine)) := by
    simp [assemblyLines]
  rw [hlines, List.flatMap_append, ← hopening, List.flatMap_append, ← hglobals,
    List.flatMap_append, ← hmiddle, ← hcode]
  simp only [preamble, Table.dataText, List.append_assoc]

theorem Table.WellFormed.exists_label {t : Table} (h : t.WellFormed) {g : Global}
    (hg : g ∈ t.globals) : ∃ rest, g.label = .char 'g' :: rest := by
  obtain ⟨i, hi⟩ := List.mem_iff_getElem?.mp hg
  rw [h.labels i g hi, labelFor]
  split <;> exact ⟨_, rfl⟩

section

variable {t : Table} {is : List Instr} (ht : t.WellFormed)
  (hnames : ∀ g ∈ t.globals, .char '\n' ∉ g.name) (his : ∀ i ∈ is, i.Usual)

theorem codeLine_notMem {i : Instr} (hi : i.Usual) {g : Glyph} (hplain : g.isPlain = false)
    (hoperand : g.isOperandPart = false) (htab : g ≠ .char '\t') : g ∉ codeLine i := by
  have hi : g ∉ i.text := by
    refine Instr.notMem_text hi hplain fun o ho hmem => ?_
    have hall := Operand.all_text (Instr.usual_of_mem_operands hi ho)
    rw [List.all_eq_true.mp hall g hmem] at hoperand
    cases hoperand
  have htext : codeLine i = .char '\t' :: i.text := rfl
  simp [htext, htab, hi]

include ht hnames his in
theorem assemblyLines_oneLine : ∀ l ∈ assemblyLines t is, .char '\n' ∉ l := by
  have hopening : ∀ l ∈ openingLines, Glyph.char '\n' ∉ l := by decide +kernel
  have hmiddle : ∀ l ∈ middleLines, Glyph.char '\n' ∉ l := by decide +kernel
  intro l hl
  simp only [assemblyLines, List.mem_append, List.mem_cons, List.mem_map] at hl
  rcases hl with hl | (rfl | ⟨g, hg, rfl⟩) | hl | ⟨i, hi, rfl⟩
  · exact hopening l hl
  · decide
  · have hlabel : Glyph.char '\n' ∉ g.label := fun hm => by
      cases List.all_eq_true.mp (ht.label_all hg) _ hm
    have hline : Glyph.char '\n' ∉ Decimal.ofInt g.line := fun hm => by
      cases List.all_eq_true.mp (Decimal.all_ofInt g.line) _ hm
    have hcolon : Glyph.char '\n' ∉ (":\tdq 0\t; " : Text) := by decide
    have hcomma : Glyph.char '\n' ∉ (", line " : Text) := by decide
    simp [Global.definitionLine, hlabel, hline, hcolon, hcomma, hnames g hg]
  · exact hmiddle l hl
  · exact codeLine_notMem (his i hi) rfl rfl (by decide)

theorem not_section {l : Text} (h : l.head? ≠ some (.char '\t')) :
    List.isPrefixOf "\tsection " l = false := by
  cases l with
  | nil => rfl
  | cons g l =>
    have hg : (Glyph.char '\t' == g) = false := by
      rw [beq_eq_false_iff_ne]
      rintro rfl
      exact h rfl
    have htab : ("\tsection " : Text) = .char '\t' :: ("section " : Text) := rfl
    rw [htab, List.isPrefixOf, hg, Bool.false_and]

include ht in
/-- No definition of a global is taken for the line of a section. -/
theorem data_head? : ∀ l ∈ formatLine :: t.globals.map Global.definitionLine,
    l.head? ≠ some (.char '\t') := by
  intro l hl
  rcases List.mem_cons.mp hl with rfl | hl
  · decide
  · obtain ⟨g, hg, rfl⟩ := List.mem_map.mp hl
    obtain ⟨rest, hrest⟩ := ht.exists_label hg
    simp [Global.definitionLine, hrest]

variable {text : Text} (hlines : text.lines = assemblyLines t is ++ [[]])

include ht hlines

theorem sectionLines_data : text.sectionLines ".data" =
    formatLine :: t.globals.map Global.definitionLine ++ [[]] := by
  have hopening : openingLines.dropWhile (· ≠ "\tsection " ++ (".data" : Text)) =
      ["\tsection .data"] := by decide +kernel
  have hmiddle : middleLines.takeWhile (fun line => !List.isPrefixOf "\tsection " line) = [[]] := by
    decide +kernel
  have hdrop (ls : List Text) :
      ((openingLines ++ ls).dropWhile (· ≠ "\tsection " ++ (".data" : Text))).drop 1 = ls := by
    rw [List.dropWhile_append, hopening]
    rfl
  have htake (ls : List Text) : ((middleLines ++ ls).takeWhile
      fun line => !List.isPrefixOf "\tsection " line) = [[]] := by
    rw [List.takeWhile_append, hmiddle]
    rfl
  rw [Text.sectionLines, hlines, assemblyLines, List.append_assoc, hdrop, List.append_assoc,
    List.append_assoc, List.takeWhile_append_of_pos, htake]
  intro l hl
  rw [not_section (data_head? ht l hl), Bool.not_false]

theorem sectionLines_text : text.sectionLines ".text" =
    ("main:" : Text) :: (is.map codeLine ++ [[]]) := by
  have hmiddle : middleLines.dropWhile (· ≠ "\tsection " ++ (".text" : Text)) =
      ["\tsection .text", "main:"] := by decide +kernel
  have hdrop (ls : List Text) : ((middleLines ++ ls).dropWhile
      (· ≠ "\tsection " ++ (".text" : Text))).drop 1 = ("main:" : Text) :: ls := by
    rw [List.dropWhile_append, hmiddle]
    rfl
  have hopening : ∀ l ∈ openingLines, l ≠ ("\tsection " : Text) ++ ".text" := by decide +kernel
  have hcode (i : Instr) : List.isPrefixOf "\tsection " (codeLine i) = false := by
    cases i <;> rfl
  rw [Text.sectionLines, hlines, assemblyLines, List.append_assoc, List.dropWhile_append_of_pos,
    List.append_assoc, List.dropWhile_append_of_pos, List.append_assoc, hdrop,
    List.takeWhile_eq_self_iff]
  · intro l hl
    have hl : List.isPrefixOf "\tsection " l = false := by
      simp only [List.mem_cons, List.mem_append, List.mem_map, List.not_mem_nil, or_false] at hl
      rcases hl with rfl | ⟨i, _, rfl⟩ | rfl
      · rfl
      · exact hcode i
      · rfl
    rw [hl, Bool.not_false]
  · intro l hl
    have hne : l ≠ ("\tsection " : Text) ++ ".text" := by
      rintro rfl
      exact data_head? ht _ hl rfl
    simpa using hne
  · intro l hl
    simpa using hopening l hl

omit hlines in
/-- The definitions of the data section, in order. -/
theorem data_labels : (formatLine :: t.globals.map Global.definitionLine).filterMap Text.label? =
    printFormat :: t.globals.map Global.label := by
  have hformat : formatLine.label? = some printFormat := by decide +kernel
  rw [List.filterMap_cons_some hformat, List.filterMap_map,
    List.filterMap_eq_map_iff_forall_eq_some.mpr]
  intro g hg
  have hline : g.definitionLine = g.label ++ .char ':' ::
      (("\tdq 0\t; " : Text) ++ (g.name ++ ((", line " : Text) ++ Decimal.ofInt g.line))) := by
    have hcolon : (":\tdq 0\t; " : Text) = .char ':' :: ("\tdq 0\t; " : Text) := rfl
    simp [Global.definitionLine, hcolon]
  rw [Function.comp, hline, Text.label?_colon (ht.label_all hg)]

include his in
theorem labels_eq : text.lines.filterMap Text.label? =
    printFormat :: t.globals.map Global.label ++ [entryLabel] := by
  have hopening : openingLines.filterMap Text.label? = [] := by decide +kernel
  have hmiddle : middleLines.filterMap Text.label? = [entryLabel] := by decide +kernel
  have hcode : (is.map codeLine).filterMap Text.label? = [] := by
    rw [List.filterMap_eq_nil_iff]
    intro l hl
    obtain ⟨i, hi, rfl⟩ := List.mem_map.mp hl
    exact Text.label?_of_notMem (codeLine_notMem (his i hi) rfl rfl (by decide))
  have hend : ([[]] : List Text).filterMap Text.label? = [] := rfl
  rw [hlines, assemblyLines, List.filterMap_append, List.filterMap_append, List.filterMap_append,
    List.filterMap_append, hopening, data_labels ht, hmiddle, hcode, hend]
  simp only [List.nil_append, List.append_nil]

omit hlines in
/-- The labels of globals all start with the same letter, which no other symbol starts with. -/
theorem labels_nodup (words : ∀ g ∈ t.globals, g.name.IsWord) :
    (printFormat :: t.globals.map Global.label ++ [entryLabel]).Nodup ∧
      printFunction ∉ printFormat :: t.globals.map Global.label ++ [entryLabel] := by
  have hglobal {l : Text} (hl : l.head? ≠ some (.char 'g')) : l ∉ t.globals.map Global.label := by
    intro hmem
    obtain ⟨g, hg, rfl⟩ := List.mem_map.mp hmem
    obtain ⟨rest, hrest⟩ := ht.exists_label hg
    exact hl (by rw [hrest]; rfl)
  have hformat : printFormat ∉ t.globals.map Global.label := hglobal (by decide)
  have hentry : entryLabel ∉ t.globals.map Global.label := hglobal (by decide)
  have hfunction : printFunction ∉ t.globals.map Global.label := hglobal (by decide)
  have hlabels : (t.globals.map Global.label).Nodup := ht.nodup_label words
  have hne : printFormat ≠ entryLabel ∧ printFunction ≠ printFormat ∧
    printFunction ≠ entryLabel := by decide
  constructor
  · rw [List.cons_append, List.nodup_cons, List.nodup_append]
    refine ⟨by simp [hformat, hne.1], hlabels, by simp, ?_⟩
    intro a ha b hb
    rw [List.mem_singleton.mp hb]
    rintro rfl
    exact hentry ha
  · simp [hfunction, hne.2]

include his

/-- What a line of code names is defined in the data section, once. -/
theorem countP_label (words : ∀ g ∈ t.globals, g.name.IsWord)
    (hrel : ∀ i ∈ is, ∀ label, .rel label ∈ i.operands →
      label ∈ printFormat :: t.globals.map Global.label) {line : Text}
    (hline : line ∈ text.sectionLines ".text") {label : Text} (h : line.Names label) :
    (text.sectionLines ".data").countP (fun l => l.label? = some label) = 1 := by
  have hmem : label ∈ printFormat :: t.globals.map Global.label := by
    rw [sectionLines_text ht hlines] at hline
    simp only [List.mem_cons, List.mem_append, List.mem_map, List.not_mem_nil, or_false] at hline
    rcases hline with rfl | ⟨i, hi, rfl⟩ | rfl
    · exact absurd h (Text.not_names (by decide) label)
    · exact hrel i hi label (Instr.rel_of_names (his i hi) (by decide) h)
    · exact absurd h (Text.not_names List.not_mem_nil label)
  have hnodup := (List.nodup_append.mp (labels_nodup ht words).1).1
  have hlabels : (text.sectionLines ".data").filterMap Text.label? =
      printFormat :: t.globals.map Global.label := by
    have hend : ([[]] : List Text).filterMap Text.label? = [] := rfl
    rw [sectionLines_data ht hlines, List.filterMap_append, data_labels ht, hend, List.append_nil]
  calc (text.sectionLines ".data").countP (fun l => l.label? = some label)
      = ((text.sectionLines ".data").filterMap Text.label?).count label := by
        rw [List.count_filterMap]
        exact List.countP_congr (by simp)
    _ = 1 := by rw [hlabels, List.nodup_iff_count_eq_one.mp hnodup label hmem]

end

/-- The labels in the code of statements are those of globals, and that of the format. -/
theorem rel_of_mem_instrs {s : Scopes} {ss : List Stmt}
    (hs : layoutAll (ss.map Stmt.node) ⟨{}, {}⟩ = .ok () s) {i : Instr} (hi : i ∈ s.instrs ss)
    {label : Text} (h : .rel label ∈ i.operands) :
    label ∈ printFormat :: s.table.globals.map Global.label := by
  simp only [Scopes.instrs, List.mem_append, List.mem_flatMap] at hi
  rcases hi with hi | ⟨st, hst, hi⟩ | hi
  · have hprologue :
        ((prologue s.frame).all fun i => i.operands.all fun o => !o.isMemory) = true := by
      unfold prologue
      split <;> rfl
    exact absurd rfl (Instr.not_isMemory hprologue hi h)
  · rcases Stmt.mem_operands hi h rfl with ⟨id, hid, hplace⟩ | hformat
    · obtain ⟨s₁, s₂, hl, hgrow⟩ := exists_layout_of_mem hs hst
      rcases Scopes.place_cases (hgrow.knows (Stmt.knows_of_layout hl hid)) with
        ⟨l, _, _, hp⟩ | ⟨g, hg, _, hp⟩
      · rw [hp] at hplace
        rcases hplace with hplace | hplace <;> cases hplace
      · obtain rfl : g.label = label := by
          rw [hp] at hplace
          rcases hplace with hplace | hplace <;> exact Operand.rel.inj hplace
        exact List.mem_cons_of_mem _ (List.mem_map_of_mem hg)
    · rw [Operand.rel.inj hformat]
      exact List.mem_cons_self
  · exact absurd rfl (Instr.not_isMemory (by decide) hi h)

theorem Reader.exists_generate_of_compile {r : Reader} {text : Text} (h : r.compile = .ok text) :
    ∃ p, r.parse.result = .ok p ∧ ∃ g, ({} : Generator).generate p = (.ok text, g) := by
  unfold compile at h
  split at h
  · cases h
  · rename_i p hp
    split at h
    · rename_i htext
      cases h
      exact ⟨p, hp, _, Prod.ext htext rfl⟩
    · cases h

/-- The symbols of a compiled text. Its data section defines the format of numbers and then the
globals that the program declares, one on a line. No label is defined twice, none is the name of
the printing function, and every label that a line of code names is defined by just one line of
the data section. -/
theorem Reader.symbols_of_compile (r : Reader) {text : Text} (h : r.compile = .ok text) :
    ∃ p globals, r.parse.result = .ok p ∧
      globals = globalEntries (declaredIn .globalVar p.node.namings) ∧
      text.sectionLines ".data" = formatLine :: globals.map Global.definitionLine ++ [[]] ∧
      text.lines.filterMap Text.label? =
        printFormat :: globals.map Global.label ++ [entryLabel] ∧
      (text.lines.filterMap Text.label?).Nodup ∧
      printFunction ∉ text.lines.filterMap Text.label? ∧
      (∀ g ∈ globals, g.label.all Glyph.isLabelPart = true) ∧
      ∀ line ∈ text.sectionLines ".text", ∀ label, line.Names label →
        (text.sectionLines ".data").countP (fun l => l.label? = some label) = 1 := by
  obtain ⟨p, hp, g, hg⟩ := exists_generate_of_compile h
  obtain ⟨ss, hss, written⟩ := TokenStream.exists_stmts_of_parse hp
  obtain ⟨s, hs, _, _, htext⟩ := Generator.generate_stmts hss hg
  have hnode : p.node.layout ⟨{}, {}⟩ = .ok () s := by
    rw [Program.node, hss]
    exact hs
  have hglobals : s.table.globals = globalEntries (declaredIn .globalVar p.node.namings) := by
    rcases TokenStream.layout_ofNamings hp with ⟨_, hok⟩ | ⟨_, _, _, _, _, _, _, herror⟩
    · cases hok.symm.trans hnode
      rfl
    · cases herror.symm.trans hnode
  have hnames : ∀ st ∈ ss, ∀ id ∈ st.idents, id.name.IsWord ∧ .char '\n' ∉ id.name := by
    intro st hst id hid
    obtain ⟨t, ht, hk, rfl⟩ := written st hst id hid
    exact ⟨r.scan_isWord t ht hk, r.scan_oneLine t ht hk⟩
  have hext : Scopes.Extends (fun n => n.IsWord ∧ .char '\n' ∉ n) ⟨{}, {}⟩ s :=
    (Node.program .zero (ss.map Stmt.node)).layout_extends (declares_of_idents hnames) hs
  have hwf : s.WellFormed := Scopes.wellFormed_empty.extends hext
  have hnamed := hext.named (by simp)
  have husual := instrs_usual hs hwf
  have hlines : text.lines = assemblyLines s.table (s.instrs ss) ++ [[]] := by
    have houtput : ({} : Generator).output = [] := rfl
    rw [htext, houtput, List.nil_append, Generator.text_eq]
    exact Text.lines_flatMap
      (assemblyLines_oneLine hwf.table (fun g hg => (hnamed g hg).2) husual)
  have words : ∀ g ∈ s.table.globals, g.name.IsWord := fun g hg => (hnamed g hg).1
  obtain ⟨hnodup, hfunction⟩ := labels_nodup hwf.table words
  have hlabels := labels_eq hwf.table husual hlines
  refine ⟨p, s.table.globals, hp, hglobals, sectionLines_data hwf.table hlines, hlabels, ?_, ?_, ?_,
    ?_⟩
  · rw [hlabels]
    exact hnodup
  · rw [hlabels]
    exact hfunction
  · exact fun g hg => hwf.table.label_all hg
  · intro line hline label hl
    exact countP_label hwf.table husual hlines words (fun i hi _ => rel_of_mem_instrs hs hi)
      hline hl

theorem Reader.symbols_of_compile_global :
    ∃ text, (ofText "global int x;print x;").compile = .ok text ∧
      text.sectionLines ".data" = [formatLine, "g_x:\tdq 0\t; x, line 1", []] ∧
      text.lines.filterMap Text.label? = ["fmt_int", "g_x", "main"] ∧
      ("\tmov rax, [rel g_x]" : Text) ∈ text.sectionLines ".text" ∧
      Text.Names "\tmov rax, [rel g_x]" "g_x" ∧
      (text.sectionLines ".data").countP (fun l => l.label? = some ("g_x" : Text)) = 1 := by
  let word : Token := ⟨.keyword .globalWord, "global", 1⟩
  let int : Token := ⟨.keyword .intWord, "int", 1⟩
  let x : Ident := ⟨⟨.identifier, "x", 1⟩, "x"⟩
  let semicolon : Token := ⟨.char ';', ";", 1⟩
  let print : Token := ⟨.keyword .printWord, "print", 1⟩
  have hcut : Cut [] "global int x;print x;".toList
      [word, int, x.tok, semicolon, print, x.tok, semicolon] :=
    .of_pieces [([], "global".toList), ([' '], "int".toList), ([' '], ['x']), ([], [';']),
      ([], "print".toList), ([' '], ['x']), ([], [';'])] rfl
  have hscan : (ofText "global int x;print x;").scan.1 =
      ⟨[word, int, x.tok, semicolon, print, x.tok, semicolon], .endOfFile 1⟩ :=
    (at_ofText "global int x;print x;".toList).scan_cut hcut
  let p : Program := ⟨word, [.decl word .globalVar x none, .print print (.ident x)]⟩
  let g : Generator := (({} : Generator).generate p).2
  have hp : (ofText "global int x;print x;").parse.result = .ok p := by
    rw [Reader.parse, hscan]
    rfl
  have hcompile : (ofText "global int x;print x;").compile = .ok g.output := by
    rw [compile, hp]
    rfl
  have hline : ("\tmov rax, [rel g_x]" : Text) ∈ g.output.sectionLines ".text" := by
    decide +kernel
  have hnames : Text.Names "\tmov rax, [rel g_x]" "g_x" :=
    ⟨by decide, "\tmov rax, ", [], rfl⟩
  obtain ⟨p', globals, hp', rfl, hdata, hlabels, _, _, _, hcount⟩ := symbols_of_compile _ hcompile
  cases hp.symm.trans hp'
  exact ⟨g.output, hcompile, hdata.trans rfl, hlabels.trans rfl, hline, hnames,
    hcount _ hline _ hnames⟩

end IntLang
