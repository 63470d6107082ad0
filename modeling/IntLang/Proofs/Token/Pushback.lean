import IntLang.Proofs.Token.Cut

/-! Codes that are given back. The line of a reader and the codes that it holds keep account of the
newlines taken from its stream. What a reader answers depends on its line and on what it has still
to read, and not on how much of that was given back to it. -/
namespace IntLang

/-- What a reader makes of an item that is next. -/
def Item.result : Item → Except Failure Point
  | .point p => .ok p
  | .failure f => .error f

def Item.newlines : Item → Int
  | .point p => p.newlines
  | .failure _ => 0

theorem Point.count_cons (p : Point) (ps : List Point) :
    ((p :: ps).count .newline : Int) = ps.count .newline + p.newlines := by
  by_cases hp : p = .newline
  · simp [hp, newlines]
  · simp [hp, newlines]

theorem Item.count_append (items : List Item) (i : Item) :
    ((items ++ [i]).count (.point .newline) : Int) = items.count (.point .newline) + i.newlines := by
  cases i with
  | point p =>
    by_cases hp : p = .newline
    · simp [hp, newlines, Point.newlines]
    · simp [hp, newlines, Point.newlines]
  | failure f => simp [newlines]

namespace Reader

/-- What can be asked of a reader. -/
inductive Call where
  | read
  | unread (p : Point)
  | next
  deriving DecidableEq, Repr

inductive Answer where
  | point (result : Except Failure Point)
  | token (result : Except Failure Token)
  | done

def call (r : Reader) : Call → Answer × Reader
  | .read => (.point r.read.1, r.read.2)
  | .unread p => (.done, r.unread p)
  | .next => (.token r.next.1, r.next.2)

/-- The reader after some calls. -/
def after (r : Reader) : List Call → Reader
  | [] => r
  | c :: cs => (r.call c).2.after cs

/-- The answers to some calls, each with the line on which the reader stands after it. -/
def answers (r : Reader) : List Call → List (Answer × Int)
  | [] => []
  | c :: cs => ((r.call c).1, (r.call c).2.line) :: (r.call c).2.answers cs

/-- What comes for ever after the stream. -/
def rest (r : Reader) : Item :=
  match r.breaks with
  | none => .point .endOfFile
  | some f => .failure f

/-- What a read can do: it takes the code that was given back last, or else the next item of the
stream, or else it finds what comes for ever. -/
inductive Takes (r : Reader) : Except Failure Point × Reader → Prop
  | pushed {p : Point} {ps : List Point} (h : r.pushed = p :: ps) :
      Takes r (.ok p, { r with pushed := ps, line := r.line + p.newlines })
  | item {i : Item} {is : List Item} (empty : r.pushed = []) (h : r.stream = i :: is) :
      Takes r (i.result, { r with stream := is, line := r.line + i.newlines })
  | rest (empty : r.pushed = []) (h : r.stream = []) : Takes r (r.rest.result, r)

theorem read_takes (r : Reader) : r.Takes r.read := by
  obtain ⟨pushed, stream, breaks, line⟩ := r
  cases pushed with
  | cons p ps => exact .pushed rfl
  | nil =>
    cases stream with
    | cons i is =>
      cases i with
      | point p => exact Takes.item (i := .point p) rfl rfl
      | failure f =>
        have htakes := Takes.item (r := ⟨[], .failure f :: is, breaks, line⟩) rfl rfl
        rwa [Item.newlines, Int.add_zero] at htakes
    | nil => cases breaks <;> exact .rest rfl rfl

section Accounts

/-- One reader comes from another by reading and by giving back, and in no other way. -/
inductive Handled : Reader → Reader → Prop
  | refl (r : Reader) : Handled r r
  | read {r r₁ r' : Reader} {result : Except Failure Point} (h : r.read = (result, r₁))
      (later : Handled r₁ r') : Handled r r'
  | unread {r r' : Reader} (p : Point) (later : Handled (r.unread p) r') : Handled r r'

theorem Handled.trans {r r₁ r' : Reader} (h : Handled r r₁) (h' : Handled r₁ r') :
    Handled r r' := by
  induction h with
  | refl => exact h'
  | read hr _ ih => exact .read hr (ih h')
  | unread p _ ih => exact .unread p (ih h')

theorem skipBlanks_handled (r : Reader) : Handled r r.skipBlanks.2 := by
  fun_induction skipBlanks r with
  | case1 r c rest hr _ ih => exact .read hr ih
  | case2 r c rest hr _ => exact .read hr (.refl rest)
  | case3 r rest hr => exact .read hr (.refl rest)
  | case4 r f rest hr => exact .read hr (.refl rest)

theorem takeRun_handled (cls : Int → Bool) (r : Reader) : Handled r (r.takeRun cls).2 := by
  fun_induction takeRun cls r with
  | case1 r c rest hr _ run rest' hrun ih =>
    rw [hrun] at ih
    exact .read hr ih
  | case2 r c rest hr _ f rest' hrun ih =>
    rw [hrun] at ih
    exact .read hr ih
  | case3 r c rest hr _ => exact .read hr (.unread _ (.refl _))
  | case4 r rest hr => exact .read hr (.unread _ (.refl _))
  | case5 r f rest hr => exact .read hr (.refl rest)

theorem runToken_handled (cls : Int → Bool) (kind : Text → Kind) (r : Reader) :
    Handled r (r.runToken cls kind).2 := by
  have h := takeRun_handled cls r
  unfold runToken
  split
  · rename_i hrun
    rwa [hrun] at h
  · rename_i hrun
    rwa [hrun] at h

theorem tokenFrom_handled (r : Reader) (c : Int) : Handled r (r.tokenFrom c).2 := by
  unfold tokenFrom
  split
  · exact .unread _ (runToken_handled _ _ _)
  split
  · exact .unread _ (runToken_handled _ _ _)
  · exact .refl r

theorem next_handled (r : Reader) : Handled r r.next.2 := by
  have h := skipBlanks_handled r
  unfold next
  split
  · rename_i hs
    rwa [hs] at h
  · rename_i hs
    rw [hs] at h
    exact h.trans (tokenFrom_handled _ _)
  · rename_i hs
    rwa [hs] at h

theorem call_handled (r : Reader) (c : Call) : Handled r (r.call c).2 := by
  cases c with
  | read => exact .read rfl (.refl _)
  | unread p => exact .unread p (.refl _)
  | next => exact next_handled r

theorem after_handled (r : Reader) (cs : List Call) : Handled r (r.after cs) := by
  induction cs generalizing r with
  | nil => exact .refl r
  | cons c cs ih => exact (call_handled r c).trans (ih _)

/-- Part of this stream was taken, and each newline in it has moved the line on or is held to be
read again. -/
def Accounts (items : List Item) (r : Reader) : Prop :=
  ∃ taken, items = taken ++ r.stream ∧
    r.line + r.pushed.count .newline = 1 + taken.count (.point .newline)

theorem Accounts.read {items : List Item} {r : Reader} (h : Accounts items r) :
    Accounts items r.read.2 := by
  obtain ⟨taken, htaken, hcount⟩ := h
  have htakes := read_takes r
  generalize r.read = out at htakes ⊢
  cases htakes with
  | pushed hp =>
    rw [hp, Point.count_cons] at hcount
    refine ⟨taken, htaken, ?_⟩
    simp only
    omega
  | @item i is _ hs =>
    refine ⟨taken ++ [i], by simp [htaken, hs], ?_⟩
    rw [Item.count_append]
    simp only
    omega
  | rest _ _ => exact ⟨taken, htaken, hcount⟩

theorem Accounts.unread {items : List Item} {r : Reader} (h : Accounts items r) (p : Point) :
    Accounts items (r.unread p) := by
  obtain ⟨taken, htaken, hcount⟩ := h
  refine ⟨taken, htaken, ?_⟩
  simp only [Reader.unread, Point.count_cons]
  omega

theorem Handled.accounts {items : List Item} {r r' : Reader} (h : Handled r r')
    (hr : Accounts items r) : Accounts items r' := by
  induction h with
  | refl => exact hr
  | read hread _ ih =>
    apply ih
    have := hr.read
    rwa [hread] at this
  | unread p _ ih => exact ih (hr.unread p)

end Accounts

/-- However a reader of a stream was used, and whatever was given back to it: the line on which it
stands and the newlines that it holds make up one more than the newlines taken from the stream. -/
theorem line_after (items : List Item) (breaks : Option Failure) (calls : List Call) :
    ∃ taken, items = taken ++ (after { stream := items, breaks } calls).stream ∧
      (after { stream := items, breaks } calls).line +
          (after { stream := items, breaks } calls).pushed.count .newline =
        1 + taken.count (.point .newline) := by
  have start : Accounts items { stream := items, breaks } := ⟨[], rfl, rfl⟩
  exact (after_handled _ calls).accounts start

section Alike

/-- What a reader has still to read, item by item. -/
def incoming (r : Reader) (i : Nat) : Item := (r.pushed.map .point ++ r.stream)[i]?.getD r.rest

theorem read_incoming (r : Reader) : r.read.1 = (r.incoming 0).result ∧
    r.read.2.line = r.line + (r.incoming 0).newlines ∧
    ∀ i, r.read.2.incoming i = r.incoming (i + 1) := by
  have htakes := read_takes r
  generalize r.read = out at htakes ⊢
  cases htakes with
  | pushed hp => simp [incoming, hp, Item.result, Item.newlines, rest]
  | item empty hs => simp [incoming, empty, hs, rest]
  | rest empty hs =>
    have hrest : r.rest.newlines = 0 := by
      unfold rest
      split <;> rfl
    simp [incoming, empty, hs, hrest]

theorem incoming_unread (r : Reader) (p : Point) (i : Nat) : (r.unread p).incoming i =
    match i with
    | 0 => .point p
    | i + 1 => r.incoming i := by
  cases i <;> simp [incoming, unread, rest]

/-- Two readers stand on one line and have the same to read, however it is divided into codes that
were given back and the stream. -/
structure Alike (r s : Reader) : Prop where
  line : r.line = s.line
  incoming : ∀ i, r.incoming i = s.incoming i

/-- Two calls gave the same, and left the readers alike. -/
structure Agree {α : Type} (x y : α × Reader) : Prop where
  result : x.1 = y.1
  alike : x.2.Alike y.2

theorem Agree.eq {α : Type} {x : α × Reader} {a : α} {s : Reader} (h : Agree (a, s) x) :
    ∃ s', x = (a, s') ∧ s.Alike s' := ⟨x.2, Prod.ext h.result.symm rfl, h.alike⟩

namespace Alike

variable {r s : Reader} (h : r.Alike s)

include h

theorem read : Agree r.read s.read := by
  obtain ⟨hr, hline, hin⟩ := read_incoming r
  obtain ⟨hr', hline', hin'⟩ := read_incoming s
  refine ⟨?_, ?_, ?_⟩
  · rw [hr, hr', h.incoming]
  · rw [hline, hline', h.line, h.incoming]
  · intro i
    rw [hin, hin', h.incoming]

theorem read_eq {result : Except Failure Point} {r' : Reader} (hr : r.read = (result, r')) :
    ∃ s', s.read = (result, s') ∧ r'.Alike s' := by
  have := h.read
  rw [hr] at this
  exact this.eq

theorem unread (p : Point) : (r.unread p).Alike (s.unread p) := by
  refine ⟨by simp only [Reader.unread, h.line], ?_⟩
  intro i
  rw [incoming_unread, incoming_unread]
  cases i with
  | zero => rfl
  | succ i => exact h.incoming i

theorem skipBlanks : Agree r.skipBlanks s.skipBlanks := by
  fun_induction Reader.skipBlanks r generalizing s with
  | case1 r c rest hr hc ih =>
    obtain ⟨s', hs, h'⟩ := h.read_eq hr
    rw [skipBlanks_of_read_code hs, if_pos hc]
    exact ih h'
  | case2 r c rest hr hc =>
    obtain ⟨s', hs, h'⟩ := h.read_eq hr
    rw [skipBlanks_of_read_code hs, if_neg hc]
    exact ⟨rfl, h'⟩
  | case3 r rest hr =>
    obtain ⟨s', hs, h'⟩ := h.read_eq hr
    rw [skipBlanks_of_read_endOfFile hs]
    exact ⟨rfl, h'⟩
  | case4 r f rest hr =>
    obtain ⟨s', hs, h'⟩ := h.read_eq hr
    rw [skipBlanks_of_read_failure hs]
    exact ⟨rfl, h'⟩

theorem takeRun (cls : Int → Bool) : Agree (r.takeRun cls) (s.takeRun cls) := by
  fun_induction Reader.takeRun cls r generalizing s with
  | case1 r c rest hr hc run rest' hrun ih =>
    obtain ⟨s', hs, h'⟩ := h.read_eq hr
    have hlater := ih h'
    rw [hrun] at hlater
    obtain ⟨s'', hs'', h''⟩ := hlater.eq
    rw [takeRun_of_read_code hs, if_pos hc, hs'']
    exact ⟨rfl, h''⟩
  | case2 r c rest hr hc f rest' hrun ih =>
    obtain ⟨s', hs, h'⟩ := h.read_eq hr
    have hlater := ih h'
    rw [hrun] at hlater
    obtain ⟨s'', hs'', h''⟩ := hlater.eq
    rw [takeRun_of_read_code hs, if_pos hc, hs'']
    exact ⟨rfl, h''⟩
  | case3 r c rest hr hc =>
    obtain ⟨s', hs, h'⟩ := h.read_eq hr
    rw [takeRun_of_read_code hs, if_neg hc]
    exact ⟨rfl, h'.unread _⟩
  | case4 r rest hr =>
    obtain ⟨s', hs, h'⟩ := h.read_eq hr
    rw [takeRun_of_read_endOfFile hs]
    exact ⟨rfl, h'.unread _⟩
  | case5 r f rest hr =>
    obtain ⟨s', hs, h'⟩ := h.read_eq hr
    rw [takeRun_of_read_failure hs]
    exact ⟨rfl, h'⟩

theorem runToken (cls : Int → Bool) (kind : Text → Kind) :
    Agree (r.runToken cls kind) (s.runToken cls kind) := by
  have hrun := h.takeRun cls
  unfold Reader.runToken
  cases hr : r.takeRun cls with
  | mk result r' =>
    rw [hr] at hrun
    obtain ⟨s', hs, h'⟩ := hrun.eq
    rw [hs]
    cases result with
    | ok run => exact ⟨by simp only [Reader.token, h'.line], h'⟩
    | error f => exact ⟨rfl, h'⟩

theorem tokenFrom (c : Int) : Agree (r.tokenFrom c) (s.tokenFrom c) := by
  unfold Reader.tokenFrom
  split
  · exact (h.unread _).runToken _ _
  split
  · exact (h.unread _).runToken _ _
  · exact ⟨by simp only [Reader.token, h.line], h⟩

theorem next : Agree r.next s.next := by
  have hskip := h.skipBlanks
  unfold Reader.next
  cases hr : r.skipBlanks with
  | mk result r' =>
    rw [hr] at hskip
    obtain ⟨s', hs, h'⟩ := hskip.eq
    rw [hs]
    match result with
    | .ok .endOfFile => exact ⟨by simp only [h'.line], h'⟩
    | .ok (.code c) => exact h'.tokenFrom c
    | .error f => exact ⟨rfl, h'⟩

theorem call (c : Call) : Agree (r.call c) (s.call c) := by
  cases c with
  | read => exact ⟨congrArg Answer.point h.read.result, h.read.alike⟩
  | unread p => exact ⟨rfl, h.unread p⟩
  | next => exact ⟨congrArg Answer.token h.next.result, h.next.alike⟩

end Alike
end Alike

/-- Readers on one line with the same to read answer all calls alike, with the same lines, and have
the same to read after them. -/
theorem answers_of_alike {r s : Reader} (h : r.Alike s) (calls : List Call) :
    r.answers calls = s.answers calls ∧ (r.after calls).Alike (s.after calls) := by
  induction calls generalizing r s with
  | nil => exact ⟨rfl, h⟩
  | cons c cs ih =>
    have hc := h.call c
    obtain ⟨hanswers, hafter⟩ := ih hc.alike
    refine ⟨?_, hafter⟩
    rw [answers, answers, hc.result, hc.alike.line, hanswers]

/-- A text in the stream, and the same text given back with an end of file behind it. -/
theorem answers_of_alike_given_back :
    let r : Reader := ofText "a\nb"
    let s : Reader := { pushed := [.code 97, .code 10, .code 98, .endOfFile], stream := [] }
    let calls : List Call := [.next, .read, .next, .read, .unread .newline, .next]
    r.Alike s ∧ r.answers calls = s.answers calls ∧ (r.after calls).Alike (s.after calls) := by
  intro r s calls
  have alike : r.Alike s := by
    refine ⟨rfl, ?_⟩
    rintro (_ | _ | _ | _ | i)
    all_goals rfl
  exact ⟨alike, answers_of_alike alike calls⟩

end Reader
end IntLang
