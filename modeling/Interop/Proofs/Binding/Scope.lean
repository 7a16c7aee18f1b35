import Interop.Proofs.Binding.Lines

/-!
This module contains when the names in a body stand for something. A wrapper has to be set up by a
statement before the one that refers to it; a number of elements has to be a parameter, or a local
that was declared before.
-/

namespace Interop.Binding

namespace Statement

/--
The wrapper that a statement sets up.
-/
def wrapped? : Statement → Option String
  | wrap _ holder _ => some holder
  | _ => none

/--
The local that a statement declares.
-/
def declared? : Statement → Option String
  | wrap _ name _ | copy name _ | declareLength _ name => some name
  | receive _ _ _ => some "raw_ret"
  | convert _ _ => some "ret"
  | answer _ _ _ => some "__ret"
  | _ => none

end Statement

def Wrapped (before : List Statement) (holder : String) : Prop :=
  ∃ st ∈ before, st.wrapped? = some holder

def Declared (before : List Statement) (name : String) : Prop :=
  ∃ st ∈ before, st.declared? = some name

/--
A name in an expression stands for something: a wrapper for one that was set up before, a number of
elements for one of the parameters `names` or a local that was declared before.
-/
def Stands (names : List String) (before : List Statement) : Piece → Prop
  | .plain _ => True
  | .wrapper holder => Wrapped before holder
  | .count name => name ∈ names ∨ Declared before name

def Grounded (names : List String) (before : List Statement) (ps : List Piece) : Prop :=
  ∀ p ∈ ps, Stands names before p

/--
Every line refers only to what is there at its place, where `before` are the statements in front of
all of them.
-/
def Scoped (names : List String) (before : List Statement) (ls : List Line) : Prop :=
  ∀ k (l : Line), ls[k]? = some l →
    Grounded names (before ++ (ls.take k).map (·.statement)) l.pieces

section Names

variable {names : List String} {before after : List Statement} {holder name : String}

theorem wrapped_append
    : Wrapped (before ++ after) holder ↔ Wrapped before holder ∨ Wrapped after holder := by
  simp [Wrapped, or_and_right, exists_or]

theorem declared_append
    : Declared (before ++ after) name ↔ Declared before name ∨ Declared after name := by
  simp [Declared, or_and_right, exists_or]

theorem grounded_plain {text : String} : Grounded names before [.plain text] := by
  intro p hp
  rw [List.mem_singleton.1 hp]
  exact trivial

theorem grounded_append {ps qs : List Piece}
    : Grounded names before (ps ++ qs) ↔ Grounded names before ps ∧ Grounded names before qs := by
  simp [Grounded, or_imp, forall_and]

theorem grounded_cons {p : Piece} {ps : List Piece}
    : Grounded names before (p :: ps) ↔ Stands names before p ∧ Grounded names before ps := by
  simp [Grounded]

/--
Only the names of an expression matter.
-/
theorem grounded_iff {ps : List Piece} {P : Piece → Prop}
    (hps : ∀ p, p.isName = true → (p ∈ ps ↔ P p))
    : Grounded names before ps ↔ ∀ p, p.isName = true → P p → Stands names before p := by
  constructor
  . intro h p hp hP
    exact h p ((hps p hp).2 hP)
  . intro h p hmem
    cases p with
    | plain text => exact trivial
    | wrapper holder => exact h _ rfl ((hps _ rfl).1 hmem)
    | count name => exact h _ rfl ((hps _ rfl).1 hmem)

theorem grounded_around {st : Statement} {front back : String} {ps : List Piece}
    {h : front ++ Piece.join ps ++ back = st.text}
    : Grounded names before (Line.around st front ps back h).pieces ↔ Grounded names before ps := by
  change Grounded names before (.plain front :: ps ++ [.plain back]) ↔ _
  rw [List.cons_append, grounded_cons, grounded_append]
  simp [Stands, grounded_plain]

theorem grounded_commaSeparated {items : List (List Piece)}
    : Grounded names before (Piece.commaSeparated items)
        ↔
      ∀ item ∈ items, Grounded names before item := by
  rw [grounded_iff fun p hp => Piece.mem_commaSeparated hp]
  constructor
  . intro h item hitem
    rw [grounded_iff fun p _ => Iff.rfl]
    intro p hp hmem
    exact h p hp ⟨item, hitem, hmem⟩
  . rintro h p _ ⟨item, hitem, hmem⟩
    exact h item hitem p hmem

theorem grounded_toNativePieces {c : Crossing} {x : String}
    : Grounded names before (c.toNativePieces x)
        ↔
      ∀ holder ∈ c.wrappers x, Wrapped before holder := by
  rw [grounded_iff fun p hp => Crossing.mem_toNativePieces hp]
  constructor
  . intro h holder hholder
    exact h _ rfl ⟨holder, hholder, rfl⟩
  . rintro h p _ ⟨holder, hholder, rfl⟩
    exact h holder hholder

theorem grounded_managedValuePieces {use : Use} {x : String} {length? : Option CallParam}
    (hlength : ∀ length ∈ length?, ∃ type name e, use.type = .array type
      ∧ use.content = .array (.param name) e)
    : Grounded names before (managedValuePieces use x length?)
        ↔
      (∀ length ∈ length?, Stands names before (.count length.name))
        ∧ (length? = none → ∀ name, use.crossing.ownLength? = some name →
            Stands names before (.count name))
        ∧ ∀ name ∈ innerLengths use length?, Stands names before (.count name) := by
  rw [grounded_iff fun p hp => mem_managedValuePieces hp hlength]
  constructor
  . intro h
    refine ⟨?_, ?_, ?_⟩
    . intro length hmem
      exact h _ rfl (.inl ⟨length, hmem, rfl⟩)
    . intro hnone name hname
      exact h _ rfl (.inr (.inl ⟨hnone, name, hname, rfl⟩))
    . intro name hname
      exact h _ rfl (.inr (.inr ⟨name, hname, rfl⟩))
  . rintro ⟨hown, himplied, hinner⟩ p _ hp
    rcases hp with ⟨length, hmem, rfl⟩ | ⟨hnone, name, hname, rfl⟩ | ⟨name, hname, rfl⟩
    . exact hown length hmem
    . exact himplied hnone name hname
    . exact hinner name hname

theorem scoped_nil : Scoped names before [] := by
  intro k l hl
  cases hl

theorem scoped_cons {l : Line} {ls : List Line}
    : Scoped names before (l :: ls)
        ↔
      Grounded names before l.pieces ∧ Scoped names (before ++ [l.statement]) ls := by
  unfold Scoped
  constructor
  . intro h
    refine ⟨by simpa using h 0 l rfl, ?_⟩
    intro k m hm
    simpa using h (k + 1) m hm
  . rintro ⟨hfirst, hrest⟩ k m hm
    cases k with
    | zero =>
      obtain rfl : l = m := by simpa using hm
      simpa using hfirst
    | succ k => simpa using hrest k m hm

theorem scoped_append {ls ms : List Line}
    : Scoped names before (ls ++ ms)
        ↔
      Scoped names before ls ∧ Scoped names (before ++ ls.map (·.statement)) ms := by
  induction ls generalizing before with
  | nil => simp [scoped_nil]
  | cons l ls ih => simp [scoped_cons, ih, and_assoc]

theorem scoped_flatMap {α : Type} {f : α → List Line} {as : List α}
    : Scoped names before (as.flatMap f)
        ↔
      ∀ k a, as[k]? = some a →
        Scoped names (before ++ (as.take k).flatMap fun a => (f a).map (·.statement)) (f a) := by
  induction as generalizing before with
  | nil => simp [scoped_nil]
  | cons a as ih =>
    rw [List.flatMap_cons, scoped_append, ih]
    constructor
    . rintro ⟨hfirst, hrest⟩ k b hb
      cases k with
      | zero =>
        obtain rfl : a = b := by simpa using hb
        simpa using hfirst
      | succ k => simpa using hrest k b hb
    . intro h
      refine ⟨by simpa using h 0 a rfl, ?_⟩
      intro k b hb
      simpa using h (k + 1) b hb

theorem grounded_wrapper {st : Statement} {front back : String}
    {h : front ++ Piece.join [.wrapper holder] ++ back = st.text} (hwrapped : Wrapped before holder)
    : Grounded names before (Line.around st front [.wrapper holder] back h).pieces := by
  rw [grounded_around]
  intro p hp
  rw [List.mem_singleton.1 hp]
  exact hwrapped

theorem Grounded.mono {ps : List Piece} (h : Grounded names before ps)
    : Grounded names (before ++ after) ps := by
  intro p hp
  have hstands := h p hp
  cases p with
  | plain text => exact trivial
  | wrapper holder => exact wrapped_append.2 (.inl hstands)
  | count name => exact hstands.imp_right fun hdeclared => declared_append.2 (.inl hdeclared)

theorem scoped_of_grounded {ls : List Line} (h : ∀ l ∈ ls, Grounded names before l.pieces)
    : Scoped names before ls := by
  intro k l hl
  exact (h l (List.mem_of_getElem? hl)).mono

theorem not_wrapped (h : ∀ st ∈ before, st.wrapped? = none) : ¬ Wrapped before holder := by
  rintro ⟨st, hst, hholder⟩
  cases (h st hst).symm.trans hholder

end Names

end Interop.Binding
