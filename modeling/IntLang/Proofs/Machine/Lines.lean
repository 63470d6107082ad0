import IntLang.Proofs.Machine.Basic

/-! Lines of assembly text. A line stands for the instruction whose text it is, and every
instruction made of the usual operands can be read back from its text. -/
namespace IntLang

/-- The text before the first occurrence of a glyph, and the text after it. -/
def Text.cutAt (g : Glyph) : Text → Text × Text
  | [] => ([], [])
  | x :: t => if x = g then ([], t) else (x :: (cutAt g t).1, (cutAt g t).2)

theorem Text.cutAt_append {g : Glyph} {t : Text} (h : g ∉ t) (rest : Text) :
    cutAt g (t ++ g :: rest) = (t, rest) := by
  induction t with
  | nil => simp [cutAt]
  | cons x t ih =>
    rw [List.mem_cons, not_or] at h
    rw [List.cons_append, cutAt, if_neg (Ne.symm h.1), ih h.2]

theorem Text.cutAt_of_notMem {g : Glyph} {t : Text} (h : g ∉ t) : cutAt g t = (t, []) := by
  induction t with
  | nil => rfl
  | cons x t ih =>
    rw [List.mem_cons, not_or] at h
    rw [cutAt, if_neg (Ne.symm h.1), ih h.2]

/-- What stands in a concatenation stands in one of its parts. -/
theorem split_append {α : Type} {xs ys us vs : List α} {x : α} (h : xs ++ ys = us ++ x :: vs) :
    (∃ ws, xs = us ++ x :: ws ∧ vs = ws ++ ys) ∨ ∃ ws, us = xs ++ ws ∧ ys = ws ++ x :: vs := by
  rcases List.append_eq_append_iff.mp h with ⟨ws, rfl, hys⟩ | ⟨ws, hxs, hvs⟩
  · exact .inr ⟨ws, rfl, hys⟩
  · rcases List.cons_eq_append_iff.mp hvs with ⟨rfl, hys⟩ | ⟨ws, rfl, hws⟩
    · exact .inr ⟨[], by simpa using hxs.symm, by simp [hys]⟩
    · exact .inl ⟨ws, hxs, hws⟩

namespace Decimal

/-- The number that digits are meant for. -/
def natValue (t : Text) : Nat := t.foldl (fun n g => 10 * n + (g.code.toNat - '0'.toNat)) 0

/-- The number that a numeral with or without a sign is meant for. -/
def value : Text → Int
  | .char '-' :: t => -(natValue t)
  | .char '+' :: t => natValue t
  | t => natValue t

theorem natValue_ofNat (n : Nat) : natValue (ofNat n) = n := by
  have hfold (cs : List Char) (k : Nat) :
      (cs.map Glyph.char).foldl (fun n g => 10 * n + (g.code.toNat - '0'.toNat)) k =
        Nat.ofDigitChars 10 cs k := by
    induction cs generalizing k with
    | nil => simp
    | cons c cs ih =>
      rw [List.map_cons, List.foldl_cons, ih, Nat.ofDigitChars_cons]
      rfl
  rw [natValue, ofNat, hfold, Nat.ofDigitChars_ten_toDigits]

theorem exists_cons_ofNat (n : Nat) : ∃ c rest, ofNat n = .char c :: rest ∧ c.isDigit = true := by
  cases h : Nat.toDigits 10 n with
  | nil => exact absurd h Nat.toDigits_ne_nil
  | cons c cs =>
    refine ⟨c, cs.map .char, by rw [ofNat, h, List.map_cons], ?_⟩
    exact Nat.isDigit_of_mem_toDigits (by omega) (by omega) (h ▸ List.mem_cons_self)

theorem value_ofInt (i : Int) : value (ofInt i) = i := by
  cases i with
  | ofNat n =>
    obtain ⟨c, rest, hn, hc⟩ := exists_cons_ofNat n
    have hval := natValue_ofNat n
    rw [ofInt, hn] at *
    -- A digit is no sign, so the whole text is taken for the number.
    unfold value
    split
    · simp_all
    · simp_all
    · rw [hval]
      rfl
  | negSucc n =>
    rw [ofInt, value, natValue_ofNat]
    omega

theorem value_signed (i : Int) : value (signed i) = i := by
  unfold signed
  split
  · exact value_ofInt i
  · cases i with
    | ofNat n =>
      rw [ofInt, value, natValue_ofNat]
      rfl
    | negSucc n => omega

/-- Signs and digits. -/
def isPart : Glyph → Bool
  | .char c => c == '-' || c == '+' || c.isDigit
  | .stray _ => false

theorem all_ofNat (n : Nat) : (ofNat n).all isPart = true := by
  rw [List.all_eq_true]
  intro g hg
  obtain ⟨c, hc, rfl⟩ := List.mem_map.mp hg
  simp [isPart, Nat.isDigit_of_mem_toDigits (by omega) (by omega) hc]

theorem all_ofInt (i : Int) : (ofInt i).all isPart = true := by
  cases i with
  | ofNat n => exact all_ofNat n
  | negSucc n => exact all_ofNat (n + 1)

theorem exists_cons_ofInt (i : Int) : ∃ g rest, ofInt i = g :: rest ∧ isPart g = true := by
  cases i with
  | ofNat n =>
    obtain ⟨c, rest, hn, hc⟩ := exists_cons_ofNat n
    exact ⟨.char c, rest, hn, by simp [isPart, hc]⟩
  | negSucc n => exact ⟨.char '-', ofNat (n + 1), rfl, rfl⟩

theorem all_signed (i : Int) : (signed i).all isPart = true := by
  unfold signed
  split
  · exact all_ofInt i
  · exact all_ofInt i

end Decimal

namespace Reg

def all : List Reg := [.rax, .rcx, .rdx, .rsi, .rdi, .rbp, .rsp, .eax]

def ofText? (t : Text) : Option Reg := all.find? fun r => r.text = t

theorem ofText?_text {r : Reg} (h : r ∈ all) : ofText? r.text = some r := by
  revert r
  decide

theorem length_text : ∀ r ∈ all, r.text.length = 3 := by decide

theorem ofText?_numeral {g : Glyph} (h : Decimal.isPart g = true) (rest : Text) :
    ofText? (g :: rest) = none := by
  have hhead : ∀ r ∈ all, ∀ x ∈ r.text.head?, Decimal.isPart x = false := by decide
  rw [ofText?, List.find?_eq_none]
  intro r hr
  simp only [decide_eq_true_eq]
  intro ht
  have := hhead r hr g (by rw [ht]; rfl)
  rw [h] at this
  cases this

/-- No register is spelled like the start of a label's cell. -/
theorem not_rel {r : Reg} (h : r ∈ all) (rest : Text) :
    List.isPrefixOf "[rel " (("[" : Text) ++ (r.text ++ rest)) = false := by
  simp only [all, List.mem_cons, List.not_mem_nil, or_false] at h
  rcases h with rfl | rfl | rfl | rfl | rfl | rfl | rfl | rfl <;> rfl

end Reg

/-- Memory with a distance from one of the registers. -/
def Mem.ofText? (size t : Text) : Option Mem :=
  (Reg.ofText? (t.take 3)).map fun base => ⟨base, Decimal.value (t.drop 3), size⟩

def Operand.ofText? (t : Text) : Option Operand :=
  if List.isPrefixOf "[rel " t then some (.rel (t.drop 5).dropLast)
  else if List.isPrefixOf "[" t then (Mem.ofText? [] (t.drop 1).dropLast).map .mem
  else if List.isPrefixOf "qword [" t then (Mem.ofText? "qword" (t.drop 7).dropLast).map .mem
  else match Reg.ofText? t with
    | some r => some (.reg r)
    | none => some (.imm (Decimal.value t))

/-- An operand as the assembler knows them. -/
def Operand.Usual : Operand → Prop
  | .reg r => r ∈ Reg.all
  | .imm _ => True
  | .mem m => m.base ∈ Reg.all ∧ (m.size = [] ∨ m.size = "qword")
  | .rel label => label.all Glyph.isLabelPart = true

theorem Mem.ofText?_text {m : Mem} (h : m.base ∈ Reg.all) :
    Mem.ofText? m.size (m.base.text ++ m.dispText) = some m := by
  have hbase := Reg.length_text _ h
  have hdisp : Decimal.value m.dispText = m.disp := by
    unfold dispText
    split
    · simp_all [Decimal.value, Decimal.natValue]
    · exact Decimal.value_signed m.disp
  rw [ofText?, List.take_left' hbase, List.drop_left' hbase, Reg.ofText?_text h, hdisp]
  rfl

theorem Operand.ofText?_numeral {g : Glyph} (h : Decimal.isPart g = true) (rest : Text) :
    ofText? (g :: rest) = some (.imm (Decimal.value (g :: rest))) := by
  have hother {p t : Text} {x : Glyph} (hp : p = x :: t) (hx : Decimal.isPart x = false) :
      List.isPrefixOf p (g :: rest) = false := by
    have hne : (x == g) = false := by
      rw [beq_eq_false_iff_ne]
      rintro rfl
      rw [h] at hx
      cases hx
    rw [hp, List.isPrefixOf, hne, Bool.false_and]
  have hrel : List.isPrefixOf "[rel " (g :: rest) = false := hother rfl rfl
  have hmem : List.isPrefixOf "[" (g :: rest) = false := hother rfl rfl
  have hquad : List.isPrefixOf "qword [" (g :: rest) = false := hother rfl rfl
  simp [ofText?, hrel, hmem, hquad, Reg.ofText?_numeral h]

theorem Operand.ofText?_text {o : Operand} (h : o.Usual) : ofText? o.text = some o := by
  cases o with
  | reg r =>
    simp only [Usual] at h
    revert r
    decide
  | imm value =>
    obtain ⟨g, rest, ht, hg⟩ := Decimal.exists_cons_ofInt value
    rw [text, ht, ofText?_numeral hg, ← ht, Decimal.value_ofInt]
  | mem m =>
    obtain ⟨hbase, hsize⟩ := h
    have hm := Mem.ofText?_text hbase
    have hlast : (m.base.text ++ m.dispText ++ ("]" : Text)).dropLast = m.base.text ++ m.dispText :=
      List.dropLast_concat
    rcases hsize with hsize | hsize
    · have ht : text (.mem m) = ("[" : Text) ++ (m.base.text ++ m.dispText ++ ("]" : Text)) := by
        simp [text, Mem.text, Mem.sizeText, hsize]
      have hrel : List.isPrefixOf "[rel " (text (.mem m)) = false := by
        rw [ht, List.append_assoc m.base.text]
        exact Reg.not_rel hbase _
      rw [ofText?, hrel, ht]
      change (Mem.ofText? [] (m.base.text ++ m.dispText ++ ("]" : Text)).dropLast).map
        Operand.mem = _
      rw [hlast, ← hsize, hm, Option.map_some]
    · have ht : text (.mem m) =
          ("qword [" : Text) ++ (m.base.text ++ m.dispText ++ ("]" : Text)) := by
        have hopen : ("qword" : Text) ++ (" " ++ ("[" : Text)) = "qword [" := rfl
        have hne : ¬ ("qword" : Text) = [] := by decide
        simp [text, Mem.text, Mem.sizeText, hsize, ← hopen, hne]
      rw [ht]
      change (Mem.ofText? "qword" (m.base.text ++ m.dispText ++ ("]" : Text)).dropLast).map
        Operand.mem = _
      rw [hlast, ← hsize, hm, Option.map_some]
  | rel label =>
    have hlast : (label ++ ("]" : Text)).dropLast = label := List.dropLast_concat
    change some (Operand.rel (label ++ ("]" : Text)).dropLast) = _
    rw [hlast]

/-- What the texts of operands are made of. -/
def Glyph.isOperandPart (g : Glyph) : Bool :=
  g.isLabelPart || g ∈ (" []+-" : Text)

theorem Operand.all_text {o : Operand} (h : o.Usual) : o.text.all Glyph.isOperandPart = true := by
  have hlabel {t : Text} (ht : t.all Glyph.isLabelPart = true) :
      t.all Glyph.isOperandPart = true := by
    rw [List.all_eq_true] at ht ⊢
    intro g hg
    rw [Glyph.isOperandPart, ht g hg, Bool.true_or]
  have hnum {t : Text} (ht : t.all Decimal.isPart = true) :
      t.all Glyph.isOperandPart = true := by
    rw [List.all_eq_true] at ht ⊢
    intro g hg
    have hpart := ht g hg
    cases g with
    | stray byte => cases hpart
    | char c =>
      simp only [Decimal.isPart, Bool.or_eq_true, beq_iff_eq] at hpart
      rcases hpart with (rfl | rfl) | hdigit
      · rfl
      · rfl
      · simp [Glyph.isOperandPart, Glyph.isLabelPart, Char.isAlphanum, hdigit]
  have hreg : ∀ r ∈ Reg.all, r.text.all Glyph.isLabelPart = true := by decide
  have hopen : ("[" : Text).all Glyph.isOperandPart = true := by decide
  have hrel : ("[rel " : Text).all Glyph.isOperandPart = true := by decide
  have hclose : ("]" : Text).all Glyph.isOperandPart = true := by decide
  cases o with
  | reg r => exact hlabel (hreg r h)
  | imm value => exact hnum (Decimal.all_ofInt value)
  | mem m =>
    obtain ⟨hbase, hsize⟩ := h
    have hs : m.sizeText.all Glyph.isOperandPart = true := by
      rcases hsize with hsize | hsize
      · simp [Mem.sizeText, hsize]
      · rw [Mem.sizeText, hsize]
        decide
    have hd : m.dispText.all Glyph.isOperandPart = true := by
      unfold Mem.dispText
      split
      · rfl
      · exact hnum (Decimal.all_signed m.disp)
    simp only [text, Mem.text, List.all_append, hs, hd, hopen, hclose, hlabel (hreg _ hbase),
      Bool.and_self]
  | rel label => simp only [text, List.all_append, hlabel h, hrel, hclose, Bool.and_self]

theorem Operand.comma_notMem {o : Operand} (h : o.Usual) : .char ',' ∉ o.text := by
  intro hmem
  cases List.all_eq_true.mp (all_text h) _ hmem

/-- The words that instructions start with. A call has more to it than operands, and is left
out. -/
inductive Mnemonic where
  | mov
  | push
  | pop
  | add
  | sub
  | imul
  | cqo
  | idiv
  | lea
  | xor
  | ret
  deriving DecidableEq, Repr

namespace Mnemonic

def all : List Mnemonic := [.mov, .push, .pop, .add, .sub, .imul, .cqo, .idiv, .lea, .xor, .ret]

def text : Mnemonic → Text
  | .mov => "mov"
  | .push => "push"
  | .pop => "pop"
  | .add => "add"
  | .sub => "sub"
  | .imul => "imul"
  | .cqo => "cqo"
  | .idiv => "idiv"
  | .lea => "lea"
  | .xor => "xor"
  | .ret => "ret"

def ofText? (t : Text) : Option Mnemonic := all.find? fun k => k.text = t

theorem ofText?_text (k : Mnemonic) : ofText? k.text = some k := by
  cases k <;> decide

theorem text_ne_call (k : Mnemonic) : k.text ≠ "call" := by
  cases k <;> decide

theorem blank_notMem_text (k : Mnemonic) : .char ' ' ∉ k.text := by
  cases k <;> decide

end Mnemonic

namespace Instr

/-- The operands that can be in memory. -/
def operands : Instr → List Operand
  | .mov dst src => [dst, src]
  | .sub _ src => [src]
  | .lea _ src => [src]
  | _ => []

/-- The instruction of a mnemonic with these operands. -/
def ofParts? : Mnemonic → List Operand → Option Instr
  | .mov, [dst, src] => some (.mov dst src)
  | .push, [.reg r] => some (.push r)
  | .pop, [.reg r] => some (.pop r)
  | .add, [.reg dst, .reg src] => some (.add dst src)
  | .sub, [.reg dst, src] => some (.sub dst src)
  | .imul, [.reg dst, .reg src] => some (.imul dst src)
  | .cqo, [] => some .cqo
  | .idiv, [.reg r] => some (.idiv r)
  | .lea, [.reg dst, src] => some (.lea dst src)
  | .xor, [.reg dst, .reg src] => some (.xor dst src)
  | .ret, [] => some .ret
  | _, _ => none

/-- A comma stands between two operands. -/
def operandTexts (args : Text) : List Text :=
  let (first, rest) := args.cutAt (.char ',')
  if args = [] then [] else if rest = [] then [first] else [first, rest.drop 1]

/-- The only instruction that a line can be the text of. -/
def guess? (line : Text) : Option Instr :=
  let (op, args) := line.cutAt (.char ' ')
  if op = "call" then some (.call (args.cutAt (.char ' ')).1)
  else (Mnemonic.ofText? op).bind fun k =>
    ((operandTexts args).mapM Operand.ofText?).bind (ofParts? k)

/-- The instruction whose text a line is. -/
def ofLine? (line : Text) : Option Instr := (guess? line).filter fun i => i.text = line

def Usual : Instr → Prop
  | .mov dst src => dst.Usual ∧ src.Usual
  | .push r => r ∈ Reg.all
  | .pop r => r ∈ Reg.all
  | .add dst src => dst ∈ Reg.all ∧ src ∈ Reg.all
  | .sub dst src => dst ∈ Reg.all ∧ src.Usual
  | .imul dst src => dst ∈ Reg.all ∧ src ∈ Reg.all
  | .cqo => True
  | .idiv r => r ∈ Reg.all
  | .lea dst src => dst ∈ Reg.all ∧ src.Usual
  | .xor dst src => dst ∈ Reg.all ∧ src ∈ Reg.all
  | .call function => function.all Glyph.isLabelPart = true
  | .ret => True

theorem guess?_none (k : Mnemonic) : guess? k.text = ofParts? k [] := by
  have hcut := Text.cutAt_of_notMem k.blank_notMem_text
  simp [guess?, hcut, k.text_ne_call, k.ofText?_text, operandTexts]

theorem guess?_one (k : Mnemonic) {op : Text} (hop : op = k.text ++ [.char ' ']) {r : Reg}
    (h : r ∈ Reg.all) : guess? (op ++ r.text) = ofParts? k [.reg r] := by
  have hne : r.text ≠ [] := by
    revert r
    decide
  have hr : (Operand.reg r).Usual := h
  have hcut := Text.cutAt_of_notMem (Operand.comma_notMem hr)
  have htext := Operand.ofText?_text hr
  simp only [Operand.text] at hcut htext
  simp [hop, guess?, Text.cutAt_append k.blank_notMem_text, k.text_ne_call, k.ofText?_text,
    operandTexts, hcut, hne, htext]

theorem guess?_two (k : Mnemonic) {op : Text} (hop : op = k.text ++ [.char ' ']) {a b : Operand}
    (ha : a.Usual) (hb : b.Usual) :
    guess? (op ++ a.text ++ (", " : Text) ++ b.text) = ofParts? k [a, b] := by
  have ht : op ++ a.text ++ (", " : Text) ++ b.text =
      k.text ++ .char ' ' :: (a.text ++ .char ',' :: .char ' ' :: b.text) := by
    have hcomma : (", " : Text) = [.char ',', .char ' '] := rfl
    simp [hop, hcomma]
  rw [ht]
  simp [guess?, Text.cutAt_append k.blank_notMem_text, k.text_ne_call, k.ofText?_text, operandTexts,
    Text.cutAt_append (Operand.comma_notMem ha), Operand.ofText?_text ha, Operand.ofText?_text hb]

/-- Every usual instruction can be read back from its text. -/
theorem ofLine?_text {i : Instr} (h : i.Usual) : ofLine? i.text = some i := by
  have hguess : guess? i.text = some i := by
    cases i with
    | mov dst src => exact guess?_two .mov rfl h.1 h.2
    | push r => exact guess?_one .push rfl h
    | pop r => exact guess?_one .pop rfl h
    | add dst src => exact guess?_two (a := .reg dst) (b := .reg src) .add rfl h.1 h.2
    | sub dst src => exact guess?_two (a := .reg dst) .sub rfl h.1 h.2
    | imul dst src => exact guess?_two (a := .reg dst) (b := .reg src) .imul rfl h.1 h.2
    | cqo => exact guess?_none .cqo
    | idiv r => exact guess?_one .idiv rfl h
    | lea dst src => exact guess?_two (a := .reg dst) .lea rfl h.1 h.2
    | xor dst src => exact guess?_two (a := .reg dst) (b := .reg src) .xor rfl h.1 h.2
    | call function =>
      have hblank : Glyph.char ' ' ∉ function := fun hm => by cases List.all_eq_true.mp h _ hm
      have ht : text (.call function) = ("call" : Text) ++ .char ' ' ::
          (function ++ .char ' ' :: ("wrt ..plt" : Text)) := by
        have hcall : ("call " : Text) = ("call" : Text) ++ [.char ' '] := rfl
        have hplt : (" wrt ..plt" : Text) = .char ' ' :: ("wrt ..plt" : Text) := rfl
        simp [text, hcall, hplt]
      have hop : Glyph.char ' ' ∉ ("call" : Text) := by decide
      simp [ht, guess?, Text.cutAt_append hop, Text.cutAt_append hblank]
    | ret => exact guess?_none .ret
  rw [ofLine?, hguess]
  simp

theorem mapM_ofLine?_text {is : List Instr} (h : ∀ i ∈ is, i.Usual) :
    (is.map text).mapM ofLine? = some is := by
  induction is with
  | nil => rfl
  | cons i is ih =>
    rw [List.forall_mem_cons] at h
    simp [ofLine?_text h.1, ih h.2]

end Instr

/-- What is seen of a run through lines of text. A line that is no instruction leaves the machine
stuck. -/
def Machine.outcome? (printer : Printer) (lines : List Text) (m : Machine) : Option Outcome :=
  (lines.mapM Instr.ofLine?).bind fun is =>
    (run printer is m).map fun (ending, m') => { printed := m'.printed, ending }

theorem Machine.outcome?_of_run {printer : Printer} {lines : List Text} {is : List Instr}
    {m m' : Machine} {ending : Ending} (h : lines.mapM Instr.ofLine? = some is)
    (hrun : run printer is m = some (ending, m')) :
    m.outcome? printer lines = some ⟨m'.printed, ending⟩ := by
  rw [outcome?, h, Option.bind_some, hrun, Option.map_some]

end IntLang
