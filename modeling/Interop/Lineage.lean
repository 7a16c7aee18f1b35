import Interop.Table

/-!
This module contains the ancestors of an object, found by following parents through the table.
-/

namespace Interop

/--
Where the way from an object to its ancestors ends.
-/
inductive LineageEnd where
  /-- The last object has no parent. -/
  | root
  /-- The parent of the last object is not registered as an object. -/
  | unknown (parent : String)
  /-- The parent of the last object was met before. -/
  | cycle (parent : String)
  deriving DecidableEq, Repr

structure Lineage where
  /-- The ancestors from the nearest up. -/
  ancestors : List ObjectType
  ending : LineageEnd
  deriving DecidableEq, Repr

namespace Table

/--
Follows parents up to one that is unknown or was `seen`.
-/
def climb (t : Table) (seen : List String) (parent? : Option String) : Lineage :=
  match parent? with
  | none => ⟨[], .root⟩
  | some parent =>
    match _h : t.get? parent with
    | some (.object o) =>
      if _hs : o.identity.cname ∈ seen then ⟨[], .cycle parent⟩
      else
        let above := t.climb (o.identity.cname :: seen) o.parent?
        { above with ancestors := o :: above.ancestors }
    | _ => ⟨[], .unknown parent⟩
termination_by t.unseen seen
decreasing_by exact unseen_cons_lt (d := .object o) (mem_of_find? _h) _hs

def lineage (t : Table) (o : ObjectType) : Lineage :=
  t.climb [o.identity.cname] o.parent?

end Table

end Interop
