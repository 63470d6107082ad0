import Mathlib
import IntLang.Proofs.Machine.Lines
import IntLang.Proofs.Scope.Frames

/-! How a frame lies in memory. The locals of a builder fill the words below the frame base one after
the other, and the room for them ends at the next multiple of 16. So no two slots overlap, and no two
locals are written as the same operand. As long as the room fits a machine word, machine words give
the same offsets and the same size. -/
namespace IntLang

/-- The bytes of a local, counted from the frame base. -/
def Local.slot (l : Local) : Set Int := Set.Ico l.offset (l.offset + 8)

/-- The offset of the local that comes after `i` others, computed in machine words. -/
def offsetWord (i : Int64) : Int64 := -8 * (i + 1)

/-- The size of a frame of `n` locals, computed in machine words: what is too much for a multiple of
16 is masked out. -/
def sizeWord (n : Int64) : Int64 := (8 * n + 15) &&& ~~~15

/-- Masking the last four bits out rounds down to a multiple of 16. -/
theorem toNat_and_mask (x : BitVec 64) : (x &&& ~~~15#64).toNat = x.toNat / 16 * 16 := by
  have hlow : (x &&& 15#64).toNat = x.toNat % 16 := by
    rw [BitVec.toNat_and]
    exact Nat.and_two_pow_sub_one_eq_mod x.toNat 4
  have hapart : (x &&& ~~~15#64) &&& (x &&& 15#64) = 0#64 := by
    ext i
    simp only [BitVec.getElem_and, BitVec.getElem_not, BitVec.getElem_zero]
    cases x[i] <;> cases (15#64)[i] <;> rfl
  have hjoin : (x &&& ~~~15#64) ||| (x &&& 15#64) = x := by
    ext i
    simp only [BitVec.getElem_or, BitVec.getElem_and, BitVec.getElem_not]
    cases x[i] <;> cases (15#64)[i] <;> rfl
  -- the two parts share no bit, so nothing is carried when they are added
  have hsum : (x &&& ~~~15#64).toNat + x.toNat % 16 = x.toNat := by
    rw [← hlow, ← BitVec.toNat_add_of_and_eq_zero hapart,
      BitVec.add_eq_or_of_and_eq_zero _ _ hapart, hjoin]
  omega

/-- The mask gives the size of the frame, if the number that is masked fits a word. -/
theorem toInt_sizeWord {f : Frame} (h : FitsWord (8 * f.locals.length + 15)) :
    (sizeWord (.ofNat f.locals.length)).toInt = f.size := by
  have hlt : 8 * f.locals.length + 15 < 9223372036854775808 := by
    have := h.2
    rw [Decimal.wordLimit] at this
    omega
  have hbits : (sizeWord (.ofNat f.locals.length)).toBitVec =
      BitVec.ofNat 64 (8 * f.locals.length + 15) &&& ~~~15#64 := by
    have hsum : 8 * Int64.ofNat f.locals.length + 15 = .ofNat (8 * f.locals.length + 15) := by
      rw [Int64.ofNat_add, Int64.ofNat_mul]
      rfl
    rw [sizeWord, hsum, Int64.toBitVec_and, Int64.toBitVec_ofNat']
    rfl
  have hnat : (sizeWord (.ofNat f.locals.length)).toBitVec.toNat = f.size := by
    rw [hbits, toNat_and_mask, BitVec.toNat_ofNat, Nat.mod_eq_of_lt (by omega)]
    rfl
  rw [← Int64.toInt_toBitVec, BitVec.toInt_eq_toNat_of_lt, hnat]
  rw [hnat]
  simp only [Frame.size, wordSize]
  omega

theorem toInt_offsetWord {i n : Nat} (h : FitsWord (8 * n + 15)) (hi : i < n) :
    (offsetWord (.ofNat i)).toInt = -8 * (i + 1) := by
  have hlt := h.2
  rw [Decimal.wordLimit] at hlt
  have hword : offsetWord (.ofNat i) = .ofInt (-8 * (i + 1)) := by
    rw [offsetWord, Int64.ofInt_mul, Int64.ofInt_add, Int64.ofInt_eq_ofNat]
    rfl
  rw [hword]
  apply Int64.toInt_ofInt_of_le <;> omega

/-- The size is the least multiple of 16 that has room for all the locals. -/
theorem Frame.isLeast_size (f : Frame) :
    IsLeast {m | 16 ∣ m ∧ 8 * f.locals.length ≤ m} f.size := by
  constructor
  · refine ⟨Nat.dvd_mul_left _ _, ?_⟩
    simp only [size, wordSize]
    omega
  · rintro m ⟨⟨q, rfl⟩, hm⟩
    simp only [size, wordSize]
    omega

/-- The text of a slot tells its offset. -/
theorem Mem.slot_text_inj {a b : Int} (h : (slot a).text = (slot b).text) : a = b := by
  have usual (o : Int) : (Operand.mem (slot o)).Usual := ⟨List.mem_of_elem_eq_true rfl, .inl rfl⟩
  have hread : some (Operand.mem (slot a)) = some (Operand.mem (slot b)) := by
    rw [← Operand.ofText?_text (usual a), ← Operand.ofText?_text (usual b)]
    exact congrArg Operand.ofText? h
  simpa [slot] using hread

namespace Builder.WellFormed

variable {b : Builder} (h : b.WellFormed)
include h

theorem nodup_locals : b.locals.Nodup := h.names.of_map _

theorem disjoint_slots : b.locals.Pairwise fun l l' => Disjoint l.slot l'.slot := by
  apply h.nodup_locals.pairwise_of_forall_ne
  intro l hl l' hl' hne
  have hapart := h.offset_apart hl hl' hne
  rw [Local.slot, Local.slot, Set.Ico_disjoint_Ico]
  simp only [wordSize] at hapart
  omega

theorem slot_subset {l : Local} (hl : l ∈ b.locals) :
    l.slot ⊆ Set.Ico (-(Frame.size ⟨b.locals, true⟩ : Int)) 0 := by
  have hbounds := h.offset_bounds hl
  have hroom := (Frame.isLeast_size ⟨b.locals, true⟩).1.2
  simp only [wordSize] at hbounds hroom
  apply Set.Ico_subset_Ico <;> omega

theorem nodup_slot_text : (b.locals.map fun l => (Mem.slot l.offset).text).Nodup := by
  apply h.nodup_locals.map_on
  intro l hl l' hl' htext
  by_contra hne
  -- two slots of one offset would overlap
  have hapart := h.offset_apart hl hl' hne
  have hsame := Mem.slot_text_inj htext
  simp only [wordSize] at hapart
  omega

end Builder.WellFormed

namespace Session

/-- A builder that takes declarations can be finished, and its frame has its locals. -/
theorem ask_finish {s : Session} {n : Nat} {b : Builder} (hb : s.builders[n]? = some b)
    (unfinished : b.finished = false) :
    s.ask (.finish n) = .finished s.frames.length ⟨b.locals, true⟩ := by
  have hf := Builder.finish_eq_ok.mpr ⟨unfinished, rfl, rfl⟩
  simp only [ask, step, withBuilder, hb, hf]

theorem wellFormed_builder (as : List Action) {n : Nat} {b : Builder}
    (hb : (({} : Session).after as).builders[n]? = some b) : b.WellFormed :=
  (wellFormed_empty.after as).builders b (List.mem_of_getElem? hb)

/-- The locals of a builder are the declarations of the run that went to it, each with the offset
that follows from its position. -/
theorem locals_eq_declared (as : List Action) {n : Nat} {b : Builder}
    (hb : (({} : Session).after as).builders[n]? = some b) :
    b.locals = ((({} : Session).declared as).filter (·.home = .builder n)).mapIdx
      fun i d => ⟨d.name, -8 * (i + 1), d.line⟩ := by
  have hentries : b.locals.map (fun l => ⟨.builder n, l.name, l.line⟩) =
      (({} : Session).declared as).filter (·.home = .builder n) := by
    rw [← entriesIn_after_empty, entriesIn, localsOf, hb]
    rfl
  apply List.ext_getElem?
  intro i
  rw [← hentries, List.getElem?_mapIdx, List.getElem?_map]
  cases hl : b.locals[i]? with
  | none => rfl
  | some l =>
    have hoffset : -8 * ((i : Int) + 1) = l.offset := by
      rw [(wellFormed_builder as hb).offsets i l hl, wordSize]
      omega
    simp only [Option.map_some, hoffset]

/-- The frame of a builder lists the locals that the run declared in it, one word below the other, in
whatever comes later. Their slots are disjoint and lie inside the frame, and no two of them are
written as the same operand. The size is the least multiple of 16 with room for all of them. As long
as the room fits a machine word, words give the same offsets and the same size. -/
theorem frame_geometry (as : List Action) {n : Nat} {b : Builder}
    (hb : (({} : Session).after as).builders[n]? = some b) (unfinished : b.finished = false) :
    let s := ({} : Session).after as
    let ds := (({} : Session).declared as).filter (·.home = .builder n)
    ∃ k f, s.ask (.finish n) = .finished k f ∧
      (∀ more, (s.after (.finish n :: more)).ask (.listLocals (some k)) = .localEntries f.locals ∧
        (s.after (.finish n :: more)).ask (.size (some k)) = .number f.size) ∧
      f.locals = ds.mapIdx (fun i d => ⟨d.name, -8 * (i + 1), d.line⟩) ∧
      f.locals.Pairwise (fun l l' => Disjoint l.slot l'.slot) ∧
      (∀ l ∈ f.locals, l.slot ⊆ Set.Ico (-(f.size : Int)) 0) ∧
      (f.locals.map fun l => (Mem.slot l.offset).text).Nodup ∧
      IsLeast {m | 16 ∣ m ∧ 8 * ds.length ≤ m} f.size ∧
      (FitsWord (8 * ds.length + 15) →
        (∀ (i : Nat) l, f.locals[i]? = some l → (offsetWord (.ofNat i)).toInt = l.offset) ∧
        (sizeWord (.ofNat ds.length)).toInt = f.size) := by
  intro s ds
  have hw := wellFormed_builder as hb
  have hf := ask_finish hb unfinished
  have hlocals : b.locals = ds.mapIdx fun i d => ⟨d.name, -8 * (i + 1), d.line⟩ :=
    locals_eq_declared as hb
  have hlength : b.locals.length = ds.length := by rw [hlocals, List.length_mapIdx]
  refine ⟨_, _, hf, ?_, hlocals, hw.disjoint_slots, fun _ hl => hw.slot_subset hl,
    hw.nodup_slot_text, ?_, ?_⟩
  · intro more
    have ht := (finished_of_ask hb hf).after more
    exact ⟨ht.ask_listLocals, ht.ask_size⟩
  · rw [← hlength]
    exact Frame.isLeast_size _
  · intro fits
    rw [← hlength] at fits ⊢
    refine ⟨?_, toInt_sizeWord (f := ⟨b.locals, true⟩) fits⟩
    intro i l hl
    have hi : i < b.locals.length := (List.getElem?_eq_some_iff.mp hl).1
    rw [toInt_offsetWord fits hi, hw.offsets i l hl, wordSize]
    omega

/-- Three locals beside a global. A local of the global's name and a second `a` are refused in
between, and the 24 bytes of the others take a frame of 32. -/
theorem frame_geometry_refused :
    let as : List Action := [.newBuilder, .builderGlobal 0 "g" 1, .builderLocal 0 "a" 2,
      .builderLocal 0 "g" 3, .builderLocal 0 "b" 4, .builderLocal 0 "a" 5, .builderLocal 0 "c" 6]
    let f : Frame := ⟨[⟨"a", -8, 2⟩, ⟨"b", -16, 4⟩, ⟨"c", -24, 6⟩], true⟩
    (({} : Session).after as).ask (.finish 0) = .finished 0 f ∧ f.size = 32 ∧
      f.locals.Pairwise (fun l l' => Disjoint l.slot l'.slot) ∧
      (∀ l ∈ f.locals, l.slot ⊆ Set.Ico (-(f.size : Int)) 0) ∧
      (f.locals.map fun l => (Mem.slot l.offset).text) =
        (["[rbp-8]", "[rbp-16]", "[rbp-24]"] : List Text) ∧
      (f.locals.map fun l => (Mem.slot l.offset).text).Nodup ∧
      IsLeast {m | 16 ∣ m ∧ 24 ≤ m} f.size ∧ (sizeWord 3).toInt = f.size := by
  intro as f
  obtain ⟨k, f', hf, _, _, disjoint, inside, texts, least, words⟩ :=
    frame_geometry as (n := 0) (b := ⟨f.locals, false⟩) (by decide) rfl
  have hanswer : (({} : Session).after as).ask (.finish 0) = .finished 0 f := by decide
  obtain ⟨_, rfl⟩ := Answer.finished.inj (hf.symm.trans hanswer)
  have hthree : ((({} : Session).declared as).filter (·.home = .builder 0)).length = 3 := by decide
  rw [hthree] at least words
  exact ⟨hanswer, by decide, disjoint, inside, by decide, texts, least, (words (by decide)).2⟩

end Session
end IntLang
