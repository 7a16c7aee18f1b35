import Interop.Dependency

/-!
This module contains the table of the native types that a run knows. Types are kept in the order of
their registration and no name is registered twice.
-/

namespace Interop

inductive SymbolError where
  /-- A different type has this name already. -/
  | duplicate (name : String)
  | notFound (name : String)
  deriving DecidableEq, Repr

def SymbolError.message : SymbolError → String
  | duplicate name => s!"symbol `{name}` is already registered with a different definition"
  | notFound name => s!"symbol `{name}` is not registered"

structure Table where
  entries : List Descriptor
  nodup : (entries.map (·.cname)).Nodup

namespace Table

def empty : Table where
  entries := []
  nodup := .nil

def builtinScalars : List SimpleType :=
  [plain "void" "void" "", plain "gboolean" "bool" "false", plain "bool" "bool" "false",
   { plain "gchar" "sbyte" "0" with utf8 := true },
   { plain "char" "sbyte" "0" with utf8 := true },
   plain "guchar" "byte" "0", plain "gint" "int" "0", plain "int" "int" "0",
   plain "guint" "uint" "0", plain "unsigned int" "uint" "0", plain "gint8" "sbyte" "0",
   plain "guint8" "byte" "0", plain "gint16" "short" "0", plain "guint16" "ushort" "0",
   plain "gint32" "int" "0", plain "guint32" "uint" "0", plain "gint64" "long" "0",
   plain "guint64" "ulong" "0", plain "gfloat" "float" "0.0f", plain "float" "float" "0.0f",
   plain "gdouble" "double" "0.0", plain "double" "double" "0.0",
   { plain "gunichar" "char" "'\\0'" with boundary? := some "uint" },
   plain "gpointer" "IntPtr" "IntPtr.Zero", plain "gconstpointer" "IntPtr" "IntPtr.Zero"]
where
  plain (cname managed defaultValue : String) : SimpleType :=
    { cname, managed, boundary? := none, defaultValue, utf8 := false }

def builtinLongs : List LongType :=
  ["glong", "long", "gssize", "ssize_t", "gintptr"].map (⟨·, false⟩)
    ++ ["gulong", "unsigned long", "gsize", "size_t", "guintptr"].map (⟨·, true⟩)

/--
A table with the types that need no declaration.
-/
def builtin : Table where
  entries := builtinScalars.map .simple ++ builtinLongs.map .long
  nodup := by decide +kernel

/--
The type registered under exactly this name.
-/
def find? (t : Table) (name : String) : Option Descriptor :=
  t.entries.find? (·.cname = name)

theorem mem_of_find? {t : Table} {name : String} {d : Descriptor} (h : t.find? name = some d) :
    d ∈ t.entries :=
  List.mem_of_find?_eq_some h

theorem cname_of_find? {t : Table} {name : String} {d : Descriptor} (h : t.find? name = some d) :
    d.cname = name := by
  simpa using List.find?_some h

theorem find?_eq_none {t : Table} {name : String} :
    t.find? name = none ↔ name ∉ t.entries.map (·.cname) := by
  simp [find?]

/--
The type that a reference refers to.
-/
def get? (t : Table) (ref : String) : Option Descriptor :=
  t.find? (Reference.core ref)

def contains (t : Table) (ref : String) : Bool :=
  (t.get? ref).isSome

def lookup (t : Table) (ref : String) : Except SymbolError Descriptor :=
  match t.get? ref with
  | some d => .ok d
  | none => .error (.notFound (Reference.core ref))

def names (t : Table) : List String :=
  t.entries.map (·.cname)

/--
Adds a type under its native name. To register the same type again changes nothing; another type of
a registered name is refused.
-/
def register (t : Table) (d : Descriptor) : Except SymbolError Table :=
  match h : t.find? d.cname with
  | some e => if e = d then .ok t else .error (.duplicate d.cname)
  | none =>
    .ok {
      entries := t.entries ++ [d]
      nodup := by
        have hd := find?_eq_none.1 h
        rw [List.map_append, List.nodup_append]
        refine ⟨t.nodup, by simp, ?_⟩
        intro a ha b hb
        simp only [List.map_cons, List.map_nil, List.mem_singleton] at hb
        rintro rfl
        exact hd (hb ▸ ha)
    }

/--
Registers types in order up to the first one that is refused.
-/
def registerAll (t : Table) : List Descriptor → Table × Option SymbolError
  | [] => (t, none)
  | d :: ds =>
    match t.register d with
    | .ok t => t.registerAll ds
    | .error e => (t, some e)

/--
The number of registered types whose names are not among `seen`.
-/
def unseen (t : Table) (seen : List String) : Nat :=
  t.entries.countP (·.cname ∉ seen)

theorem unseen_cons_lt {t : Table} {seen : List String} {d : Descriptor} (hd : d ∈ t.entries)
    (hs : d.cname ∉ seen) : t.unseen (d.cname :: seen) < t.unseen seen := by
  unfold unseen
  generalize t.entries = es at hd
  induction es with
  | nil => simp at hd
  | cons e es ih =>
    have hle : es.countP (·.cname ∉ d.cname :: seen) ≤ es.countP (·.cname ∉ seen) := by
      apply List.countP_mono_left
      intro x _ hx
      simp only [List.mem_cons, not_or, decide_eq_true_eq] at hx ⊢
      exact hx.2
    rcases List.mem_cons.1 hd with rfl | hd
    · simp only [List.countP_cons]
      simp [hs] at hle ⊢
      omega
    · have := ih hd
      simp only [List.countP_cons]
      by_cases he : e.cname ∈ seen <;> by_cases hed : e.cname = d.cname <;>
        simp [he, hed, hs] at this ⊢ <;> omega

end Table

end Interop
