import Interop.Declaration.File
import Interop.Generation
import Interop.Options.Toml
import Interop.Validation

/-!
This module contains a run: the documents of the options are read, their types registered and
checked, and the valid ones among those to generate are generated. Nothing is written before all of
them are bound.
-/

namespace Interop

inductive UsageError where
  | noGenerate
  | customDir
  /-- The program was made without configuration files. -/
  | noConfigurations
  deriving DecidableEq, Repr

def UsageError.message : UsageError → String
  | noGenerate => "no documents to generate; pass at least one --generate <FILE>"
  | customDir =>
    "--customdir is no longer supported; put custom code in partial classes instead"
  | noConfigurations => "--config needs gapigen built with the `toml-config` feature"

inductive RunError where
  | usage (error : UsageError)
  | unreadableConfiguration (path : Path)
  | configuration (path : Path) (problem : String)
  | load (error : LoadError)
  | symbol (error : SymbolError)
  | generation (error : GenerationError)
  deriving DecidableEq, Repr

def RunError.message : RunError → String
  | usage e => e.message
  | unreadableConfiguration path => "failed to read config " ++ path.text
  | configuration path _ => "invalid config " ++ path.text
  | load e => e.message
  | symbol e => e.message
  | generation e => e.message

namespace Run

abbrev Result (α : Type) := Except (Fault RunError) α

def fail (e : RunError) : Result α :=
  .error (Fault.of e)

def readText (d : Disk) (p : Path) : Option String :=
  (d.read p).bind fun content => String.fromUTF8? ⟨content.toArray⟩

/--
The options with those of the configuration file that they name. `supported` tells whether such
files are read at all.
-/
def configure (supported : Bool) (d : Disk) (o : Options) : Result Options :=
  match o.configuration? with
  | none => .ok o
  | some path =>
    if !supported then fail (.usage .noConfigurations)
    else
      match readText d path with
      | none => fail (.unreadableConfiguration path)
      | some text =>
        match Options.ofToml text with
        | .error problem => fail (.configuration path problem)
        | .ok configured => .ok (o.orElse configured)

def checkUsage (o : Options) : Result Unit :=
  if o.customDir?.isSome then fail (.usage .customDir)
  else if o.generate.isEmpty then fail (.usage .noGenerate)
  else .ok ()

/--
The schema that documents have to obey. A schema that is not there asks for nothing.
-/
def loadSchema (d : Disk) (o : Options) : Result (Option Schema) :=
  match o.schema? with
  | none => .ok none
  | some path =>
    if !d.has path then .ok none
    else
      Fault.within s!"failed to load schema {path.text}" <|
        match readText d path with
        | none => fail (.load (.unreadable path))
        | some text =>
          match Schema.ofText path.text text with
          | .ok schema => .ok (some schema)
          | .error e => fail (.load e)

def schemaEvents (d : Disk) (o : Options) : Log :=
  match o.schema? with
  | none => []
  | some path =>
    if d.has path then []
    else
      [⟨.warn, "schema not found; documents will not be validated", [.bare "schema" path.text]⟩]

/--
Where a document is: a relative path that leads nowhere is tried from the search directory too.
-/
def resolve (d : Disk) (searchDir? : Option Path) (p : Path) : Path :=
  if p.isAbsolute || d.has p then p
  else
    match searchDir? with
    | none => p
    | some dir => if d.has (dir.join p) then dir.join p else p

/--
What a document is loaded for.
-/
inductive Purpose where
  | inclusion
  | generation
  deriving DecidableEq, Repr

def Purpose.event (purpose : Purpose) (p : Path) (ds : List Descriptor) : Event :=
  ⟨.info, match purpose with
    | inclusion => "included"
    | generation => "parsed",
   [.bare "document" p.text, .count "types" ds.length]⟩

/--
The types of a document, and what there is to say about its reading.
-/
def loadDocument (d : Disk) (schema? : Option Schema) (searchDir? : Option Path) (p : Path) :
    Except LoadError (List Descriptor) × Log :=
  let path := resolve d searchDir? p
  match readText d path with
  | none => (.error (.unreadable path), [])
  | some text =>
    let wasRead : Event :=
      ⟨.debug, "read descriptor document",
        [.bare "document" path.text, .count "bytes" text.utf8ByteSize]⟩
    match parseDocument path.text text schema? with
    | .error e => (.error e, [wasRead])
    | .ok ds =>
      (.ok ds,
       [wasRead,
        ⟨.debug, "parsed declarations",
          [.quoted "document" path.text, .count "count" ds.length]⟩])

structure Loading where
  table : Table
  /-- The types to generate, in the order of their declarations. -/
  targets : List Descriptor
  log : Log

namespace Loading

def registered (d : Descriptor) : Event :=
  ⟨.debug, "registered", [.bare "symbol" d.cname, .bare "kind" d.kind.name]⟩

def initial : Loading where
  table := Table.builtin
  targets := []
  log := Table.builtin.entries.map registered

def add (l : Loading) (purpose : Purpose) (p : Path) (ds : List Descriptor) :
    Result Unit × Loading :=
  match l.table.registerAll ds with
  | (t, e?) =>
    let l :=
      { l with
        table := t
        log := l.log ++ [purpose.event p ds]
          ++ (t.entries.drop l.table.entries.length).map registered }
    match e? with
    | some e =>
      (Fault.within s!"failed to register symbols from {p.text}" (fail (.symbol e)), l)
    | none =>
      (.ok (), match purpose with
        | .inclusion => l
        | .generation => { l with targets := l.targets ++ ds })

def load (d : Disk) (schema? : Option Schema) (searchDir? : Option Path) (l : Loading)
    (purpose : Purpose) (p : Path) : Result Unit × Loading :=
  match loadDocument d schema? searchDir? p with
  | (.error e, log) =>
    (Fault.within s!"failed to load {p.text}" (fail (.load e)), { l with log := l.log ++ log })
  | (.ok ds, log) => add { l with log := l.log ++ log } purpose p ds

/--
Loads documents in order up to the first that fails.
-/
def loadAll (d : Disk) (schema? : Option Schema) (searchDir? : Option Path) (l : Loading) :
    List (Purpose × Path) → Result Unit × Loading
  | [] => (.ok (), l)
  | (purpose, p) :: rest =>
    match load d schema? searchDir? l purpose p with
    | (.ok (), l) => loadAll d schema? searchDir? l rest
    | (.error fault, l) => (.error fault, l)

end Loading

/--
The documents of a run, those that are only included first.
-/
def documents (o : Options) : List (Purpose × Path) :=
  o.includes.map (.inclusion, ·) ++ o.generate.map (.generation, ·)

def exclusion (e : ValidationError) : Event :=
  ⟨.warn, "excluded: " ++ e.message ++ e.suggestion?.elim "" fun s => s!"; did you mean `{s}`?",
    [.bare "symbol" e.symbol]⟩

def validationEvents (invalid : List ValidationError) (k : Validation.Knowledge) : Log :=
  k.revisited.reverse.map (fun name =>
      ⟨.trace, "provisionally valid on recursion path", [.quoted "symbol" name]⟩)
    ++ invalid.map exclusion

structure Outcome where
  result : Result Statistics
  disk : Disk
  log : Log

/--
Generates the valid ones among the targets and closes the outputs, whatever happens.
-/
def generateValid (o : Options) (d : Disk) (l : Loading) : Outcome :=
  let (p, k) := Validation.partition l.table .initial l.targets
  let outputs? : Option Outputs :=
    if o.outputs.wantsOutput then some { options := o.outputs, disk := d } else none
  let generated := generate l.table outputs? p.valid
  let closed? : Option (Except OutputError Unit × Outputs) := generated.outputs?.map (·.close)
  { result := do
      let s ← generated.result.mapError (Fault.map .generation)
      match closed? with
      | some (.error e, _) => fail (.generation (.output e))
      | _ => return { s with excluded := p.invalid.length }
    disk := closed?.elim d (·.2.disk)
    log := l.log ++ validationEvents p.invalid k ++ generated.log }

end Run

open Run

def execute (supported : Bool) (o : Options) (d : Disk) : Outcome :=
  match configure supported d o with
  | .error fault => ⟨.error fault, d, []⟩
  | .ok o =>
    match checkUsage o with
    | .error fault => ⟨.error fault, d, []⟩
    | .ok () =>
      match loadSchema d o with
      | .error fault => ⟨.error fault, d, schemaEvents d o⟩
      | .ok schema? =>
        let start := { Loading.initial with log := schemaEvents d o ++ Loading.initial.log }
        match Loading.loadAll d schema? o.searchDir? start (documents o) with
        | (.error fault, l) => ⟨.error fault, d, l.log⟩
        | (.ok (), l) => generateValid o d l

end Interop
