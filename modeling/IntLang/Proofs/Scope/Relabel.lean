import Mathlib.Data.Set.Function
import IntLang.Proofs.Scope.Places
import IntLang.Proofs.Scope.Rule
import IntLang.Proofs.Tree.Relabel

/-! Declarations under other names and lines. If the new names tell the old ones apart and globals
keep theirs, the first pass makes the same declarations with the new names and lines, and it stops
at the same naming as before. -/
namespace IntLang

variable (ρ : Relabelling)

def Naming.relabel : Naming → Naming
  | .use id => .use (id.relabel ρ)
  | .declare scope id => .declare scope (id.relabel ρ)

theorem namingsAll_relabel {ns : List Node}
    (h : ∀ n ∈ ns, (n.relabel ρ).namings = n.namings.map (Naming.relabel ρ)) :
    namingsAll (relabelAll ρ ns) = (namingsAll ns).map (Naming.relabel ρ) := by
  induction ns with
  | nil => rfl
  | cons n ns ih =>
    rw [relabelAll, namingsAll, namingsAll, List.map_append, h n (by simp),
      ih fun m hm => h m (by simp [hm])]

theorem Node.namings_relabel (n : Node) :
    (n.relabel ρ).namings = n.namings.map (Naming.relabel ρ) := by
  induction n using Node.induction with
  | program tok stmts ih => exact namingsAll_relabel ρ ih
  | ident id => rfl
  | int tok value => rfl
  | binop tok op left right ihl ihr =>
    rw [relabel, namings, namings, ihl, ihr, List.map_append]
  | assign tok target value ih => rw [relabel, namings, namings, ih, List.map_cons, Naming.relabel]
  | declare tok scope name => rfl
  | initialise tok scope name init ih =>
    rw [relabel, namings, namings, ih, List.map_append, List.map_singleton, Naming.relabel]
  | print tok value ih => exact ih
  | ret tok => rfl
  | retValue tok value ih => exact ih
  | late inner _ => rfl

def Global.relabel (g : Global) : Global := ⟨ρ.name g.name, g.label, ρ.line g.line⟩

def Local.relabel (l : Local) : Local := ⟨ρ.name l.name, l.offset, ρ.line l.line⟩

def Table.relabel (t : Table) : Table := ⟨t.globals.map (Global.relabel ρ)⟩

def Builder.relabel (b : Builder) : Builder := ⟨b.locals.map (Local.relabel ρ), b.finished⟩

def Scopes.relabel (s : Scopes) : Scopes := ⟨s.table.relabel ρ, s.builder.relabel ρ⟩

def SemanticCause.relabel : SemanticCause → SemanticCause
  | .undeclared => .undeclared
  | .unknown => .unknown
  | .globalRedeclared line => .globalRedeclared (ρ.line line)
  | .localRedeclared line => .localRedeclared (ρ.line line)
  | .globalHitsLocal line => .globalHitsLocal (ρ.line line)
  | .localHitsGlobal line => .localHitsGlobal (ρ.line line)
  | .reported message => .reported message

def SemanticError.relabel (e : SemanticError) : SemanticError :=
  ⟨ρ.line e.line, ρ.name e.name, e.cause.relabel ρ⟩

def Halt.relabel : Halt → Halt
  | .rejected e => .rejected (e.relabel ρ)
  | .misused m => .misused m

/-- New names alone leave every message as it is. -/
theorem SemanticError.message_relabel {e : SemanticError} (h : ρ.line = id) :
    (e.relabel ρ).message = e.message := by
  obtain ⟨line, name, cause⟩ := e
  cases cause <;> simp [message, relabel, SemanticCause.relabel, h]

/-- The outcome of a computation that declares names, relabelled. -/
def relabelOutcome : EStateM.Result Halt Scopes Unit → EStateM.Result Halt Scopes Unit
  | .ok _ s => .ok () (s.relabel ρ)
  | .error h s => .error (h.relabel ρ) (s.relabel ρ)

variable {ρ}

/-- Looking for a new name finds the relabelled entry of the old one. -/
theorem find?_relabel {α : Type} (key : α → Text) {f : α → α}
    (hf : ∀ x, key (f x) = ρ.name (key x)) {N : Set Text} (inj : Set.InjOn ρ.name N) {xs : List α} (hxs : ∀ x ∈ xs, key x ∈ N)
    {name : Text} (hname : name ∈ N) :
    (xs.map f).find? (fun y => key y = ρ.name name) = (xs.find? fun x => key x = name).map f := by
  induction xs with
  | nil => rfl
  | cons x xs ih =>
    rw [List.forall_mem_cons] at hxs
    rw [List.map_cons, List.find?_cons, List.find?_cons, hf, ih hxs.2]
    by_cases h : key x = name
    · simp [h]
    · have hne : ρ.name (key x) ≠ ρ.name name := fun e => h (inj hxs.1 hname e)
      simp [h, hne]

theorem mem_of_find?_eq_some {α : Type} {key : α → Text} {N : Set Text} {xs : List α}
    (hxs : ∀ x ∈ xs, key x ∈ N) {name : Text} {x : α}
    (h : xs.find? (fun y => key y = name) = some x) : name ∈ N := by
  have hname : key x = name := by simpa using List.find?_some h
  rw [← hname]
  exact hxs x (List.mem_of_find?_eq_some h)

/-- Declarations can still be made, and all names that were declared are among these. -/
structure Scopes.Within (N : Set Text) (s : Scopes) : Prop where
  unfinished : s.builder.finished = false
  globals : ∀ g ∈ s.table.globals, g.name ∈ N
  locals : ∀ l ∈ s.builder.locals, l.name ∈ N

theorem Scopes.within_empty (N : Set Text) : Scopes.Within N ⟨{}, {}⟩ := ⟨rfl, by simp, by simp⟩

theorem Scopes.Within.extends {N : Set Text} {s s' : Scopes} (h : s.Within N)
    (he : s.Extends (· ∈ N) s') : s'.Within N := by
  refine ⟨he.grows.finished.trans h.unfinished, he.named h.globals, ?_⟩
  induction he with
  | refl => exact h.locals
  | declareGlobal _ _ _ ih => exact ih
  | declareLocal _ named hd ih =>
    obtain ⟨_, _, _, rfl⟩ := Builder.declareLocal_eq_ok.mp hd
    intro l hl
    rcases List.mem_append.mp hl with hl | hl
    · exact ih l hl
    · rwa [List.mem_singleton.mp hl]

theorem Naming.declares_of_mem {N : Set Text} {n : Naming} (h : n.ident.name ∈ N) :
    n.Declares (· ∈ N) := by
  cases n with
  | use id => trivial
  | declare scope id => exact h

theorem Scopes.Within.actAll {N : Set Text} {s s' : Scopes} (h : s.Within N) {ns : List Naming}
    (hns : ∀ n ∈ ns, n.ident.name ∈ N) (ha : actAll ns s = .ok () s') : s'.Within N := by
  have hext := actAll_extends (fun n hn => Naming.declares_of_mem (hns n hn)) s
  rw [Declaring.after, ha] at hext
  exact h.extends hext

section

variable {N : Set Text} (inj : Set.InjOn ρ.name N) {s : Scopes} (hs : s.Within N)
include inj hs

theorem Scopes.Within.find?_global {name : Text} (hn : name ∈ N) :
    (s.table.relabel ρ).find? (ρ.name name) = (s.table.find? name).map (Global.relabel ρ) :=
  find?_relabel Global.name (fun _ => rfl) inj hs.globals hn

theorem Scopes.Within.find?_local {name : Text} (hn : name ∈ N) :
    (s.builder.relabel ρ).find? (ρ.name name) = (s.builder.find? name).map (Local.relabel ρ) :=
  find?_relabel Local.name (fun _ => rfl) inj hs.locals hn

theorem Declaring.use_relabel {id : Ident} (hn : id.name ∈ N) :
    use (id.relabel ρ) (s.relabel ρ) = relabelOutcome ρ (use id s) := by
  have hlookup : (s.builder.relabel ρ).lookup (s.table.relabel ρ) (ρ.name id.name) =
      s.builder.lookup s.table id.name := by
    simp [Builder.lookup, hs.find?_local inj hn, hs.find?_global inj hn]
  simp only [use, Scopes.relabel, Ident.relabel, hlookup]
  split <;> rfl

theorem Declaring.ofGlobal_relabel {id : Ident} (hn : id.name ∈ N)
    (hfixed : ρ.name id.name = id.name) :
    ofGlobal (id.relabel ρ) (s.relabel ρ) = relabelOutcome ρ (ofGlobal id s) := by
  have hopen : (s.builder.relabel ρ).finished = false := hs.unfinished
  have hentry : (s.table.relabel ρ).entry (ρ.name id.name) (ρ.line id.tok.line) =
      (s.table.entry id.name id.tok.line).relabel ρ := by
    simp [Table.entry, Table.relabel, Global.relabel, hfixed]
  simp only [ofGlobal, Scopes.relabel, Ident.relabel, Token.line_relabel,
    Builder.declareGlobal_eq hopen, Builder.declareGlobal_eq hs.unfinished,
    hs.find?_local inj hn, hs.find?_global inj hn, hentry]
  cases s.builder.find? id.name with
  | some l => rfl
  | none =>
    cases s.table.find? id.name with
    | some g => rfl
    | none => simp [relabelOutcome, Scopes.relabel, Table.relabel]

theorem Declaring.ofLocal_relabel {id : Ident} (hn : id.name ∈ N) :
    ofLocal (id.relabel ρ) (s.relabel ρ) = relabelOutcome ρ (ofLocal id s) := by
  have hopen : (s.builder.relabel ρ).finished = false := hs.unfinished
  have hentry : (s.builder.relabel ρ).entry (ρ.name id.name) (ρ.line id.tok.line) =
      (s.builder.entry id.name id.tok.line).relabel ρ := by
    simp [Builder.entry, Builder.relabel, Local.relabel]
  simp only [ofLocal, Scopes.relabel, Ident.relabel, Token.line_relabel,
    Builder.declareLocal_eq hopen, Builder.declareLocal_eq hs.unfinished,
    hs.find?_local inj hn, hs.find?_global inj hn, hentry]
  cases s.builder.find? id.name with
  | some l => rfl
  | none =>
    cases s.table.find? id.name with
    | some g => rfl
    | none => simp [relabelOutcome, Scopes.relabel, Builder.relabel]

/-- One naming makes the relabelled declaration or stops with the relabelled error. -/
theorem Naming.act_relabel {n : Naming} (hn : n.ident.name ∈ N)
    (hfixed : ∀ id, n = .declare .globalVar id → ρ.name id.name = id.name) :
    (n.relabel ρ).act (s.relabel ρ) = relabelOutcome ρ (n.act s) := by
  cases n with
  | use id => exact Declaring.use_relabel inj hs hn
  | declare scope id =>
    cases scope with
    | globalVar => exact Declaring.ofGlobal_relabel inj hs hn (hfixed id rfl)
    | localVar => exact Declaring.ofLocal_relabel inj hs hn
    | unknown => rfl
    | other code => rfl

/-- So does a run through many of them. -/
theorem actAll_relabel {ns : List Naming} (hns : ∀ n ∈ ns, n.ident.name ∈ N)
    (hfixed : ∀ id ∈ declaredIn .globalVar ns, ρ.name id.name = id.name) :
    actAll (ns.map (Naming.relabel ρ)) (s.relabel ρ) = relabelOutcome ρ (actAll ns s) := by
  induction ns generalizing s with
  | nil => rfl
  | cons n ns ih =>
    rw [List.forall_mem_cons] at hns
    have hact := n.act_relabel inj hs hns.1 fun id e => hfixed id (by simp [e, declaredIn])
    have hext := n.act_extends (Naming.declares_of_mem hns.1) s
    simp only [Declaring.after] at hext
    simp only [List.map_cons, actAll, Bind.bind, EStateM.bind, hact]
    cases ha : n.act s with
    | error h s' => rfl
    | ok u s' =>
      rw [ha] at hext
      refine ih (hs.extends hext) hns.2 fun id hid => hfixed id ?_
      exact List.Sublist.subset (List.Sublist.filterMap _ (List.sublist_cons_self n ns)) hid

end

/-- The names that occur in a tree, in the order of the first pass. -/
def Node.names (n : Node) : List Text := n.namings.map fun m => m.ident.name

theorem Node.mem_names {n : Node} {m : Naming} (h : m ∈ n.namings) : m.ident.name ∈ n.names :=
  List.mem_map_of_mem h

/-- The new names tell the names of a tree apart and leave those of its globals alone. -/
structure Relabelling.Respects (ρ : Relabelling) (n : Node) : Prop where
  injective : Set.InjOn ρ.name {x | x ∈ n.names}
  fixed : ∀ id ∈ declaredIn .globalVar n.namings, ρ.name id.name = id.name

/-- After the first pass only names of the tree are declared. -/
theorem Node.within_of_layout {n : Node} {s : Scopes} (h : n.layout ⟨{}, {}⟩ = .ok () s) :
    s.Within {x | x ∈ n.names} := by
  rw [n.layout_eq] at h
  exact (Scopes.within_empty _).actAll (fun m hm => Node.mem_names hm) h

theorem Relabelling.Respects.layout {n : Node} (h : ρ.Respects n) :
    (n.relabel ρ).layout ⟨{}, {}⟩ = relabelOutcome ρ (n.layout ⟨{}, {}⟩) := by
  rw [Node.layout_eq, Node.layout_eq, Node.namings_relabel]
  exact actAll_relabel h.injective (Scopes.within_empty _) (fun m hm => Node.mem_names hm) h.fixed

/-- Globals that keep their names and lines keep their entries. -/
theorem Table.relabel_eq_self {t : Table}
    (h : ∀ g ∈ t.globals, ρ.name g.name = g.name ∧ ρ.line g.line = g.line) : t.relabel ρ = t := by
  have hmap : t.globals.map (Global.relabel ρ) = t.globals.map id := by
    refine List.map_congr_left ?_
    intro g hg
    rw [Global.relabel, (h g hg).1, (h g hg).2, id]
  rw [relabel, hmap, List.map_id]

end IntLang
