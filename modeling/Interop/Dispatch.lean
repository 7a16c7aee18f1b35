import Interop.Lineage
import Interop.Log
import Interop.Source
import Interop.Binding.Basic

/-!
This module contains the dispatch tables of objects, which list their virtual methods, and the
sources that register objects together with these lists. Tables are made when all types are known,
because an object may be declared before its ancestors.
-/

namespace Interop

open Source (runtime opening closing)

structure Slot where
  name : String
  /-- The native name of the most derived object that declares the slot. -/
  declaredBy : String
  deriving DecidableEq, Repr

structure DispatchTable where
  cname : String
  managed : String
  nameSpace : String
  depth : Nat
  /-- The slots in the order of their first declaration from the root down. -/
  slots : List Slot
  deriving DecidableEq, Repr

/--
Adds a slot, or notes a new declarer for a slot that is there already.
-/
def declare (slots : List Slot) (slot : Slot) : List Slot :=
  if slots.any (·.name = slot.name) then
    slots.map fun s => if s.name = slot.name then { s with declaredBy := slot.declaredBy } else s
  else slots ++ [slot]

def ObjectType.declaredSlots (o : ObjectType) : List Slot :=
  o.virtualMethods.map fun v => ⟨v.name, o.identity.cname⟩

def chainSlots (chain : List ObjectType) : List Slot :=
  (chain.flatMap (·.declaredSlots)).foldl declare []

def Table.dispatchTable (t : Table) (o : ObjectType) : DispatchTable :=
  let ancestors := (t.lineage o).ancestors
  { cname := o.identity.cname
    managed := o.identity.qualified
    nameSpace := o.identity.nameSpace
    depth := ancestors.length
    slots := chainSlots (ancestors.reverse ++ [o]) }

def objects (ds : List Descriptor) : List ObjectType :=
  ds.filterMap fun
    | .object o => some o
    | _ => none

/--
The dispatch tables of the objects among some types, base types before those that derive from them.
-/
def Table.dispatchTables (t : Table) (ds : List Descriptor) : List DispatchTable :=
  ((objects ds).map t.dispatchTable).mergeSort fun a b => a.depth ≤ b.depth

namespace Mapper

/--
The namespaces of some tables, each once and in the order of their characters.
-/
def nameSpaces (tables : List DispatchTable) : List String :=
  ((tables.map (·.nameSpace)).eraseDups).mergeSort fun a b => decide (a ≤ b)

def registration (d : DispatchTable) : String :=
  runtime ++ ".ObjectManager.Register (\"" ++ d.cname ++ "\", raw => new " ++ d.managed
    ++ " (raw), new string[] " ++ opening ++ " "
    ++ Source.commaSeparated (d.slots.map fun s => "\"" ++ s.name ++ "\"") ++ " " ++ closing ++ ");"

def lines (nameSpace : String) (tables : List DispatchTable) : Source.Lines :=
  Source.banner ++ Source.openNamespace nameSpace
    ++ ["",
        "\tinternal static class ObjectMapper " ++ opening,
        "",
        "\t\tinternal static void Register ()",
        "\t\t" ++ opening]
    ++ tables.map (fun d => "\t\t\t" ++ registration d)
    ++ ["\t\t" ++ closing, "\t" ++ closing, closing]

def source (nameSpace : String) (tables : List DispatchTable) : Binding.ManagedFile where
  name := qualify nameSpace "ObjectMapper"
  source := Source.text (lines nameSpace tables)

end Mapper

/--
One source for every namespace that has an object among the types.
-/
def Table.mappers (t : Table) (ds : List Descriptor) : List Binding.ManagedFile :=
  let tables := t.dispatchTables ds
  (Mapper.nameSpaces tables).map fun n => Mapper.source n (tables.filter (·.nameSpace = n))

def Lineage.event? (cname : String) (l : Lineage) : Option Event :=
  match l.ending with
  | .root => none
  | .unknown parent =>
    some ⟨.debug, "ancestor is not a registered object",
      [.bare "object" cname, .quoted "parent" parent]⟩
  | .cycle parent =>
    some ⟨.warn, s!"inheritance cycle through `{parent}`", [.bare "object" cname]⟩

def Table.mapperEvents (t : Table) (ds : List Descriptor) : Log :=
  let tables := t.dispatchTables ds
  (objects ds).filterMap (fun o => (t.lineage o).event? o.identity.cname)
    ++ (Mapper.nameSpaces tables).map fun n =>
      ⟨.debug, "generated object mapper",
        [.bare "namespace" n, .count "objects" (tables.countP (·.nameSpace = n))]⟩

end Interop
