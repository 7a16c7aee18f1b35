import Interop.Proofs.Registration

/-!
This module contains the table of types as it is kept for quick look-ups: an index of the types by
name and, beside it, the names in the order of their registration. Whatever is done to both, it
lists the types of the table and finds what the table finds.
-/

namespace Interop

structure Registry where
  types : Std.HashMap String Descriptor
  order : List String

/--
What is done to a table while declarations are loaded.
-/
inductive Change where
  | register (d : Descriptor)
  | registerAll (ds : List Descriptor)
  /-- Forgets every registration; the types that need no declaration are back. -/
  | reset

namespace Registry

def empty : Registry where
  types := ∅
  order := []

/--
Adds a type without looking whether its name is taken.
-/
def insert (r : Registry) (d : Descriptor) : Registry where
  types := r.types.insert d.cname d
  order := r.order ++ [d.cname]

def installBuiltins (r : Registry) : Registry :=
  (Table.builtinScalars.map Descriptor.simple ++ Table.builtinLongs.map Descriptor.long).foldl
    insert r

def builtin : Registry :=
  empty.installBuiltins

def reset (r : Registry) : Registry :=
  { r with types := ∅, order := [] }.installBuiltins

def size (r : Registry) : Nat :=
  r.types.size

def find? (r : Registry) (name : String) : Option Descriptor :=
  r.types[name]?

def entries (r : Registry) : List Descriptor :=
  r.order.filterMap r.find?

def register (r : Registry) (d : Descriptor) : Registry × Option SymbolError :=
  match r.find? d.cname with
  | some e => if e = d then (r, none) else (r, some (.duplicate d.cname))
  | none => (r.insert d, none)

def registerAll (r : Registry) : List Descriptor → Registry × Option SymbolError
  | [] => (r, none)
  | d :: ds =>
    match r.register d with
    | (r, none) => r.registerAll ds
    | (r, some e) => (r, some e)

def apply (r : Registry) : Change → Registry × Option SymbolError
  | .register d => r.register d
  | .registerAll ds => r.registerAll ds
  | .reset => (r.reset, none)

def run (r : Registry) (changes : List Change) : Registry :=
  changes.foldl (fun r c => (r.apply c).1) r

def start (builtins : Bool) : Registry :=
  if builtins then builtin else empty

end Registry

namespace Table

def apply (t : Table) : Change → Table × Option SymbolError
  | .register d =>
    match t.register d with
    | .ok t => (t, none)
    | .error e => (t, some e)
  | .registerAll ds => t.registerAll ds
  | .reset => (builtin, none)

def run (t : Table) (changes : List Change) : Table :=
  changes.foldl (fun t c => (t.apply c).1) t

def start (builtins : Bool) : Table :=
  if builtins then builtin else empty

variable {t t' : Table} {d : Descriptor} {error : SymbolError}

theorem apply_register_ok (h : t.register d = .ok t') : t.apply (.register d) = (t', none) := by
  rw [apply, h]

theorem apply_register_error (h : t.register d = .error error)
    : t.apply (.register d) = (t, some error) := by
  rw [apply, h]

end Table

namespace Registry

variable {r : Registry} {t : Table} {d e : Descriptor} {es ds : List Descriptor}

theorem register_of_none (h : r.find? d.cname = none) : r.register d = (r.insert d, none) := by
  rw [register, h]

theorem register_of_some (h : r.find? d.cname = some e)
    : r.register d = (r, if e = d then none else some (.duplicate d.cname)) := by
  rw [register, h]
  dsimp only
  split
  . rfl
  . rfl

theorem find?_insert : (r.insert d).find? d.cname = some d :=
  Std.HashMap.getElem?_insert_self

/--
The order has the names of `es`, and the index finds each of them.
-/
structure Lists (r : Registry) (es : List Descriptor) : Prop where
  order : r.order = es.map (·.cname)
  find? : ∀ name, r.find? name = es.find? (·.cname = name)
  size : r.size = es.length

theorem empty_lists : empty.Lists [] where
  order := rfl
  find? _ := Std.HashMap.getElem?_empty
  size := Std.HashMap.size_empty

theorem Lists.insert (h : r.Lists es) (hnew : d.cname ∉ es.map (·.cname))
    : (r.insert d).Lists (es ++ [d]) := by
  have hnone : es.find? (·.cname = d.cname) = none := by simpa using hnew
  refine ⟨?_, ?_, ?_⟩
  . unfold Registry.insert
    rw [h.order, List.map_append]
    rfl
  . intro name
    have hfind := h.find? name
    unfold Registry.find? at hfind
    unfold Registry.find? Registry.insert
    rw [Std.HashMap.getElem?_insert, List.find?_append, hfind]
    by_cases hname : d.cname = name
    . subst hname
      rw [if_pos (beq_self_eq_true _), hnone, Option.none_or, List.find?_cons_of_pos (by simp)]
    . rw [if_neg (by simpa using hname), List.find?_cons_of_neg (by simpa using hname),
        List.find?_nil, Option.or_none]
  . have habsent : d.cname ∉ r.types := by
      have hfind : r.types[d.cname]? = none := (h.find? d.cname).trans hnone
      rw [Std.HashMap.mem_iff_isSome_getElem?, hfind]
      exact Bool.false_ne_true
    unfold Registry.size Registry.insert
    rw [Std.HashMap.size_insert, if_neg habsent, List.length_append]
    exact congrArg (· + 1) h.size

theorem Lists.insertAll (h : r.Lists es) (hnodup : ((es ++ ds).map (·.cname)).Nodup)
    : (ds.foldl Registry.insert r).Lists (es ++ ds) := by
  induction ds generalizing r es with
  | nil =>
    rw [List.append_nil]
    exact h
  | cons d ds ih =>
    have hnew : d.cname ∉ es.map (·.cname) := by
      rw [List.map_append, List.nodup_append] at hnodup
      exact fun hmem => hnodup.2.2 _ hmem _ (by simp) rfl
    rw [List.append_cons] at hnodup ⊢
    exact ih (h.insert hnew) hnodup

-- The names of these types are looked at only here: nothing is checked when they are installed.
theorem builtin_lists : builtin.Lists Table.builtin.entries :=
  empty_lists.insertAll Table.builtin.nodup

theorem Lists.find?_eq (h : r.Lists t.entries) (name : String) : r.find? name = t.find? name :=
  h.find? name

theorem Lists.entries_eq (h : r.Lists t.entries) : r.entries = t.entries := by
  unfold Registry.entries
  rw [h.order, List.filterMap_map]
  calc
    t.entries.filterMap (r.find? ∘ (·.cname)) = t.entries.filterMap some := by
      apply List.filterMap_congr
      intro d hd
      exact (h.find?_eq _).trans (Table.find?_of_mem hd)
    _ = t.entries := List.filterMap_some

/--
Both answer to `c` alike and then list the same types.
-/
theorem Lists.register (h : r.Lists t.entries) (d : Descriptor)
    : (r.register d).2 = (t.apply (.register d)).2
        ∧ (r.register d).1.Lists (t.apply (.register d)).1.entries := by
  have hfind := h.find?_eq d.cname
  cases hold : t.find? d.cname with
  | none =>
    rcases Table.register_of_none hold with ⟨t', hregister, hentries⟩
    rw [register_of_none (hfind.trans hold), Table.apply_register_ok hregister, hentries]
    exact ⟨rfl, h.insert (Table.find?_eq_none.1 hold)⟩
  | some e =>
    rw [register_of_some (hfind.trans hold)]
    by_cases hsame : e = d
    . rw [Table.apply_register_ok (Table.register_of_same (hsame ▸ hold)), if_pos hsame]
      exact ⟨rfl, h⟩
    . rw [Table.apply_register_error (Table.register_of_other hold hsame), if_neg hsame]
      exact ⟨rfl, h⟩

theorem Lists.registerAll (h : r.Lists t.entries) (ds : List Descriptor)
    : (r.registerAll ds).2 = (t.registerAll ds).2
        ∧ (r.registerAll ds).1.Lists (t.registerAll ds).1.entries := by
  induction ds generalizing r t with
  | nil => exact ⟨rfl, h⟩
  | cons d ds ih =>
    have hregister := h.register d
    rw [Table.registerAll_cons]
    unfold Registry.registerAll
    generalize r.register d = answer at hregister
    rcases answer with ⟨r', e?⟩
    cases hok : t.register d with
    | ok t' =>
      rw [Table.apply_register_ok hok] at hregister
      obtain rfl : e? = none := hregister.1
      exact ih hregister.2
    | error e =>
      rw [Table.apply_register_error hok] at hregister
      obtain rfl : e? = some e := hregister.1
      exact ⟨rfl, hregister.2⟩

theorem Lists.apply (h : r.Lists t.entries) (c : Change)
    : (r.apply c).2 = (t.apply c).2 ∧ (r.apply c).1.Lists (t.apply c).1.entries := by
  cases c with
  | register d => exact h.register d
  | registerAll ds => exact h.registerAll ds
  | reset => exact ⟨rfl, builtin_lists⟩

theorem Lists.run (h : r.Lists t.entries) (changes : List Change)
    : (r.run changes).Lists (t.run changes).entries := by
  induction changes generalizing r t with
  | nil => exact h
  | cons c changes ih => exact ih (h.apply c).2

theorem start_lists (builtins : Bool) : (start builtins).Lists (Table.start builtins).entries := by
  cases builtins with
  | false => exact empty_lists
  | true => exact builtin_lists

end Registry

end Interop
