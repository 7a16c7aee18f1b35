import Interop.Yaml.Value

/-!
This module contains schemas: what keys documents and their declarations must have, and what kinds
of types they may declare.
-/

namespace Interop

open Yaml (Value)

structure Schema where
  /-- The keys that every document must have. -/
  document : List String
  /-- The kinds that may be declared; all of them if there are none. -/
  kinds : List String
  /-- The keys that declarations of a kind must have. -/
  required : List (String × List String)
  deriving DecidableEq, Repr

namespace Schema

def empty : Schema := ⟨[], [], []⟩

def hasKey (entries : List (Value × Value)) (key : String) : Bool :=
  (Yaml.get? entries key).isSome

def requiredFor (s : Schema) (kind : String) : List String :=
  ((s.required.find? (·.1 = kind)).map (·.2)).getD []

/--
What an entry is called in messages: by its name if it has one, else by its place.
-/
def label (entry : List (Value × Value)) (index : Nat) : String :=
  match (Yaml.get? entry "cname").bind (·.text?) with
  | some cname => "`" ++ cname ++ "`"
  | none => s!"types[{index}]"

def checkEntry (s : Schema) (index : Nat) (entry : Value) : List String :=
  match entry.mapping? with
  | none => [s!"types[{index}] must be a mapping"]
  | some entries =>
    let label := label entries index
    match (Yaml.get? entries "kind").bind (·.text?) with
    | none => [label ++ " has no `kind`"]
    | some kind =>
      if !s.kinds.isEmpty && !s.kinds.contains kind then
        [label ++ " uses kind `" ++ kind ++ "`, which is not permitted"]
      else
        ((s.requiredFor kind).filter fun key => !hasKey entries key).map fun key =>
          label ++ " (" ++ kind ++ ") is missing required key `" ++ key ++ "`"

/--
All violations of a document, in the document's order.
-/
def check (s : Schema) (document : Value) : List String :=
  match document.mapping? with
  | none => ["document root must be a mapping"]
  | some root =>
    let missing :=
      (s.document.filter fun key => !hasKey root key).map fun key =>
        "document is missing required key `" ++ key ++ "`"
    missing
      ++ match Yaml.get? root "types" with
        | none => []
        | some types =>
          match types.sequence? with
          | none => ["`types` must be a sequence"]
          | some entries =>
            entries.zipIdx.flatMap fun (entry, index) => s.checkEntry index entry

end Schema

end Interop
