import Mathlib.Data.List.Induction
import IntLang.Proofs.Machine.Memory

/-! The stack along a piece of code: how many values wait on it at each instruction, and what a
run that gets there has left alone. -/
namespace IntLang

/-- What an instruction does to the number of values that wait on the stack. -/
def Instr.pushes : Instr → Int
  | .push .rax => 1
  | .pop .rax => -1
  | _ => 0

/-- How many values were put on the stack and not taken from it. -/
def pushDepth : List Instr → Int
  | [] => 0
  | i :: is => i.pushes + pushDepth is

@[simp] theorem pushDepth_nil : pushDepth [] = 0 := rfl

@[simp] theorem pushDepth_cons (i : Instr) (is : List Instr) :
    pushDepth (i :: is) = i.pushes + pushDepth is := rfl

@[simp] theorem pushDepth_append (us vs : List Instr) :
    pushDepth (us ++ vs) = pushDepth us + pushDepth vs := by
  induction us with
  | nil => simp
  | cons i us ih => rw [List.cons_append, pushDepth_cons, pushDepth_cons, ih, Int.add_assoc]

@[simp] theorem Instr.pushes_push : (Instr.push .accumulator).pushes = 1 := rfl

@[simp] theorem Instr.pushes_pop : (Instr.pop .accumulator).pushes = -1 := rfl

theorem pushDepth_eq_zero {is : List Instr} (h : ∀ i ∈ is, i.pushes = 0) : pushDepth is = 0 := by
  induction is with
  | nil => rfl
  | cons i is ih =>
    rw [List.forall_mem_cons] at h
    rw [pushDepth_cons, h.1, ih h.2, Int.add_zero]

/-- A register that is no part of the frame. -/
def Reg.isFree : Reg → Bool
  | .rbp | .rsp => false
  | _ => true

/-- The instruction writes free registers and nothing else. -/
def Instr.isQuiet : Instr → Bool
  | .mov (.reg r) _ => r.isFree
  | .add r _ | .sub r _ | .imul r _ | .lea r _ => r.isFree
  | .xor dst src => dst = .eax && src = .eax
  | .cqo | .idiv _ => true
  | _ => false

theorem Instr.pushes_of_isQuiet {i : Instr} (h : i.isQuiet = true) : i.pushes = 0 := by
  cases i <;> first | rfl | cases h

/-- Code that works in free registers and on the top of the stack, and takes nothing from the
stack that it has not put there. -/
structure Climbs (is : List Instr) : Prop where
  kinds : ∀ i ∈ is, i.isQuiet = true ∨ i = .push .accumulator ∨ i = .pop .accumulator
  nonneg : ∀ us vs, is = us ++ vs → 0 ≤ pushDepth us

/-- In the end nothing is left on the stack. -/
structure Balanced (is : List Instr) : Prop extends Climbs is where
  level : pushDepth is = 0

theorem Climbs.left {us vs : List Instr} (h : Climbs (us ++ vs)) : Climbs us where
  kinds := fun i hi => h.kinds i (List.mem_append_left vs hi)
  nonneg := fun ws xs hws => h.nonneg ws (xs ++ vs) (by rw [hws, List.append_assoc])

namespace Balanced

variable {is js : List Instr}

theorem of_isQuiet (h : ∀ i ∈ is, i.isQuiet = true) : Balanced is where
  kinds := fun i hi => .inl (h i hi)
  nonneg := by
    rintro us vs rfl
    exact Int.le_of_eq (pushDepth_eq_zero fun i hi =>
      Instr.pushes_of_isQuiet (h i (List.mem_append_left vs hi))).symm
  level := pushDepth_eq_zero fun i hi => Instr.pushes_of_isQuiet (h i hi)

theorem append (h : Balanced is) (h' : Balanced js) : Balanced (is ++ js) where
  kinds := List.forall_mem_append.mpr ⟨h.kinds, h'.kinds⟩
  nonneg := by
    intro us vs hsplit
    rcases List.append_eq_append_iff.mp hsplit with ⟨ws, rfl, hjs⟩ | ⟨ws, his, _⟩
    · rw [pushDepth_append, h.level, Int.zero_add]
      exact h'.nonneg ws vs hjs
    · exact h.nonneg us ws his
  level := by rw [pushDepth_append, h.level, h'.level, Int.add_zero]

/-- A value is put on the stack before the code and taken from it after. -/
theorem bracket (h : Balanced is) :
    Balanced (.push .accumulator :: (is ++ [.pop .accumulator])) where
  kinds := by
    intro i hi
    simp only [List.mem_cons, List.mem_append, List.not_mem_nil, or_false] at hi
    rcases hi with rfl | hi | rfl
    · exact .inr (.inl rfl)
    · exact h.kinds i hi
    · exact .inr (.inr rfl)
  nonneg := by
    intro us vs hsplit
    rcases List.cons_eq_append_iff.mp hsplit with ⟨rfl, _⟩ | ⟨us', rfl, hsplit'⟩
    · exact Int.le_refl 0
    rw [pushDepth_cons, Instr.pushes_push]
    rcases List.append_eq_append_iff.mp hsplit' with ⟨ws, rfl, hws⟩ | ⟨ws, his, _⟩
    · rw [pushDepth_append, h.level]
      rcases List.cons_eq_append_iff.mp hws with ⟨rfl, _⟩ | ⟨xs, rfl, hxs⟩
      · simp
      · simp [(List.append_eq_nil_iff.mp hxs.symm).1]
    · have := h.nonneg us' ws his
      omega
  level := by simp [h.level]

end Balanced

namespace Machine

/-- The state in which a run gets to the end of the code, if it does not stop before. -/
def after? (printer : Printer) : List Instr → Machine → Option Machine
  | [], m => some m
  | i :: is, m =>
    match m.step printer i with
    | some (.next m') => after? printer is m'
    | _ => none

variable {printer : Printer} {m m' : Machine} {is us vs : List Instr}

theorem after?_cons_eq_some {i : Instr} : m.after? printer (i :: is) = some m' ↔
    ∃ m₁, m.step printer i = some (.next m₁) ∧ m₁.after? printer is = some m' := by
  rw [after?]
  split
  · rename_i m₁ h
    simp [h]
  · rename_i h
    simp only [reduceCtorEq, false_iff, not_exists, not_and]
    exact fun m₁ hm₁ => absurd hm₁ (h m₁)

theorem after?_append_eq_some : m.after? printer (us ++ vs) = some m' ↔
    ∃ m₁, m.after? printer us = some m₁ ∧ m₁.after? printer vs = some m' := by
  induction us generalizing m with
  | nil => simp [after?]
  | cons i us ih =>
    simp only [List.cons_append, after?_cons_eq_some, ih]
    constructor
    · rintro ⟨m₁, hstep, m₂, hus, hvs⟩
      exact ⟨m₂, ⟨m₁, hstep, hus⟩, hvs⟩
    · rintro ⟨m₂, ⟨m₁, hstep, hus⟩, hvs⟩
      exact ⟨m₁, hstep, m₂, hus, hvs⟩

theorem after?_singleton_eq_some {i : Instr} :
    m.after? printer [i] = some m' ↔ m.step printer i = some (.next m') := by
  rw [after?_cons_eq_some]
  constructor
  · rintro ⟨_, h, ⟨⟩⟩
    exact h
  · exact fun h => ⟨m', h, rfl⟩

/-- The state that a run is in at the end of the code is the one it goes on from. -/
theorem runs_of_after? (h : m.after? printer is = some m') : Runs printer is m m' := by
  induction is generalizing m with
  | nil =>
    cases h
    exact .nil _
  | cons i is ih =>
    obtain ⟨m₁, hstep, h⟩ := after?_cons_eq_some.mp h
    exact .cons hstep (ih h)

theorem keeps_of_set? {r : Reg} {v : Value} (hr : r.isFree = true) (h : m.set? v r = some m')
    (low : Int) : m.Keeps low m' ∧ m'.rsp = m.rsp := by
  cases r <;> simp only [Reg.isFree, set?, Option.some.injEq, reduceCtorEq] at hr h
  all_goals
    subst h
    exact ⟨⟨rfl, rfl, fun _ _ => rfl⟩, rfl⟩

theorem keeps_of_arith? {op : Int64 → Int64 → Int64} {dst src : Reg} (hr : dst.isFree = true)
    (h : m.arith? op dst src = some m') (low : Int) : m.Keeps low m' ∧ m'.rsp = m.rsp := by
  unfold arith? at h
  split at h
  · exact keeps_of_set? hr h low
  · cases h

theorem keeps_of_subImm? {dst : Reg} {value : Int} (hr : dst.isFree = true)
    (h : m.subImm? dst value = some m') (low : Int) : m.Keeps low m' ∧ m'.rsp = m.rsp := by
  unfold subImm? at h
  split at h
  · exact keeps_of_set? hr h low
  · exact keeps_of_set? hr h low
  · cases h

theorem keeps_of_divide? {r : Reg} (h : m.divide? r = some (.next m')) (low : Int) :
    m.Keeps low m' ∧ m'.rsp = m.rsp := by
  unfold divide? at h
  split at h
  · dsimp only at h
    split at h
    · cases h
      exact ⟨⟨rfl, rfl, fun _ _ => rfl⟩, rfl⟩
    · cases h
  · cases h

theorem step_isQuiet {i : Instr} (hi : i.isQuiet = true)
    (h : m.step printer i = some (.next m')) (low : Int) : m.Keeps low m' ∧ m'.rsp = m.rsp := by
  cases i with
  | mov dst src =>
    cases dst with
    | reg r =>
      simp only [step, movable, if_true, Option.map_eq_some_iff, Option.bind_eq_some_iff] at h
      obtain ⟨_, ⟨v, _, hset⟩, ⟨⟩⟩ := h
      exact keeps_of_set? hi hset low
    | imm value => cases hi
    | mem q => cases hi
    | rel label => cases hi
  | add dst src =>
    obtain ⟨_, h, ⟨⟩⟩ := Option.map_eq_some_iff.mp h
    exact keeps_of_arith? hi h low
  | sub dst src =>
    cases src with
    | reg r =>
      obtain ⟨_, h, ⟨⟩⟩ := Option.map_eq_some_iff.mp h
      exact keeps_of_arith? hi h low
    | imm value =>
      obtain ⟨_, h, ⟨⟩⟩ := Option.map_eq_some_iff.mp h
      exact keeps_of_subImm? hi h low
    | mem q => cases h
    | rel label => cases h
  | imul dst src =>
    obtain ⟨_, h, ⟨⟩⟩ := Option.map_eq_some_iff.mp h
    exact keeps_of_arith? hi h low
  | cqo =>
    simp only [step] at h
    split at h
    · cases h
      exact ⟨⟨rfl, rfl, fun _ _ => rfl⟩, rfl⟩
    · cases h
  | idiv r => exact keeps_of_divide? h low
  | lea dst src =>
    cases src with
    | rel label =>
      obtain ⟨_, h, ⟨⟩⟩ := Option.map_eq_some_iff.mp h
      exact keeps_of_set? hi h low
    | reg r => cases h
    | imm value => cases h
    | mem q => cases h
  | xor dst src =>
    obtain ⟨rfl, rfl⟩ : dst = .eax ∧ src = .eax := by simpa [Instr.isQuiet] using hi
    cases h
    exact ⟨⟨rfl, rfl, fun _ _ => rfl⟩, rfl⟩
  | push r => cases hi
  | pop r => cases hi
  | call function => cases hi
  | ret => cases hi

theorem step_push {a : Int} (hsp : m.rsp = .address a)
    (h : m.step printer (.push .accumulator) = some (.next m')) :
    m.Keeps a m' ∧ m'.rsp = .address (a - 8) ∧ m'.stack (a - 8) = some m.rax := by
  simp only [step, get?, Reg.accumulator, push?, hsp, Option.bind_some, Option.map_some,
    Option.some.injEq, Step.next.injEq] at h
  subst h
  refine ⟨⟨rfl, rfl, fun b hb => ?_⟩, rfl, stack_write_self _ _ _⟩
  exact stack_write_apart (by omega) _ _

theorem step_pop {a : Int} (hsp : m.rsp = .address a)
    (h : m.step printer (.pop .accumulator) = some (.next m')) (low : Int) :
    m.Keeps low m' ∧ m'.rsp = .address (a + 8) := by
  simp only [step, pop?, hsp, Option.map_eq_some_iff, Option.bind_eq_some_iff] at h
  obtain ⟨_, ⟨_, ⟨v, _, rfl⟩, hset⟩, ⟨⟩⟩ := h
  cases hset
  exact ⟨⟨rfl, rfl, fun _ _ => rfl⟩, rfl⟩

end Machine

open Machine

variable {printer : Printer} {m m' : Machine} {is : List Instr} {low : Int}

/-- Values are put on the stack below where the run began, so what was above is still there. -/
theorem Climbs.keeps (h : Climbs is) (hsp : m.rsp = .address low)
    (hrun : m.after? printer is = some m') :
    m.Keeps low m' ∧ m'.rsp = .address (low - 8 * pushDepth is) := by
  induction is using List.reverseRecOn generalizing m' with
  | nil =>
    cases hrun
    exact ⟨⟨rfl, rfl, fun _ _ => rfl⟩, by simpa using hsp⟩
  | append_singleton is i ih =>
    obtain ⟨m₁, hrun₁, hstep⟩ := after?_append_eq_some.mp hrun
    rw [after?_singleton_eq_some] at hstep
    obtain ⟨hkeep, hsp₁⟩ := ih h.left hrun₁
    have hdepth : 0 ≤ pushDepth is := h.nonneg is [i] rfl
    rw [pushDepth_append, pushDepth_cons, pushDepth_nil]
    rcases h.kinds i (by simp) with hi | rfl | rfl
    · obtain ⟨hkeep', hsp'⟩ := step_isQuiet hi hstep low
      rw [Instr.pushes_of_isQuiet hi, hsp', hsp₁]
      exact ⟨hkeep.trans hkeep', by simp⟩
    · obtain ⟨hkeep', hsp', _⟩ := step_push hsp₁ hstep
      refine ⟨hkeep.trans (hkeep'.mono (by omega)), ?_⟩
      rw [hsp', Instr.pushes_push]
      congr 1
      omega
    · obtain ⟨hkeep', hsp'⟩ := step_pop hsp₁ hstep low
      refine ⟨hkeep.trans hkeep', ?_⟩
      rw [hsp', Instr.pushes_pop]
      congr 1
      omega

/-- What is taken from the stack after balanced code was put there before it. -/
theorem Balanced.popped (h : Balanced is) (hsp : m.rsp = .address low)
    (hrun : m.after? printer (.push .accumulator :: is) = some m') :
    m'.pop?.map Prod.fst = some m.rax := by
  obtain ⟨m₁, hpush, hrun⟩ := after?_cons_eq_some.mp hrun
  obtain ⟨_, hsp₁, htop⟩ := step_push hsp hpush
  obtain ⟨hkeep, hsp'⟩ := h.keeps hsp₁ hrun
  rw [h.level, Int.mul_zero, Int.sub_zero] at hsp'
  rw [pop?, hsp', Option.map_map, hkeep.stack _ (Int.le_refl _), htop]
  rfl

end IntLang
