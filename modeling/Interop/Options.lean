import Interop.Outputs

/-!
This module contains the options of a run, the flags that set them, and the combination of options
from two places.
-/

namespace Interop

structure Options where
  generate : List Path := []
  /-- The documents whose types are only referred to. -/
  includes : List Path := []
  outDir? : Option Path := none
  assemblyName? : Option String := none
  /-- Where documents are looked for that are not in the working directory. -/
  searchDir? : Option Path := none
  probeCsFile? : Option Path := none
  probeCsUsings : List String := []
  probeCFile? : Option Path := none
  glueFile? : Option Path := none
  glueIncludes : List String := []
  glueLibrary? : Option String := none
  /-- The schema that every document has to obey. -/
  schema? : Option Path := none
  /-- The file with further options. -/
  configuration? : Option Path := none
  /-- Once the directory of handwritten sources, which no run accepts any longer. -/
  customDir? : Option Path := none
  deriving DecidableEq, Repr

inductive Flag where
  | generate
  | includes
  | outDir
  | assemblyName
  | searchDir
  | probeCsFile
  | probeCsUsings
  | probeCFile
  | glueFile
  | glueIncludes
  | glueLibrary
  | schema
  | configuration
  | customDir
  deriving DecidableEq, Repr

namespace Flag

/--
The flags that a configuration file may set too.
-/
def configurable : List Flag :=
  [generate, includes, outDir, assemblyName, searchDir, probeCsFile, probeCsUsings, probeCFile,
   glueFile, glueIncludes, glueLibrary, schema]

def all : List Flag :=
  configurable ++ [configuration, customDir]

def name : Flag → String
  | generate => "generate"
  | includes => "include"
  | outDir => "outdir"
  | assemblyName => "assembly-name"
  | searchDir => "gapidir"
  | probeCsFile => "abi-cs-filename"
  | probeCsUsings => "abi-cs-usings"
  | probeCFile => "abi-c-filename"
  | glueFile => "glue-filename"
  | glueIncludes => "glue-includes"
  | glueLibrary => "gluelib-name"
  | schema => "schema"
  | configuration => "config"
  | customDir => "customdir"

def named? (name : String) (flags : List Flag) : Option Flag :=
  flags.find? (·.name = name)

theorem named?_name (f : Flag) : named? f.name all = some f := by
  cases f <;> decide +kernel

/--
Whether the values of the flag name files or directories.
-/
def takesPath : Flag → Bool
  | assemblyName | probeCsUsings | glueIncludes | glueLibrary => false
  | _ => true

def repeats : Flag → Bool
  | generate | includes | probeCsUsings | glueIncludes => true
  | _ => false

/--
Whether a value may be several values with commas between them. Paths may hold commas.
-/
def isDelimited (f : Flag) : Bool :=
  f.repeats && !f.takesPath

end Flag

namespace Options

def values (o : Options) : Flag → List String
  | .generate => o.generate.map (·.text)
  | .includes => o.includes.map (·.text)
  | .outDir => o.outDir?.toList.map (·.text)
  | .assemblyName => o.assemblyName?.toList
  | .searchDir => o.searchDir?.toList.map (·.text)
  | .probeCsFile => o.probeCsFile?.toList.map (·.text)
  | .probeCsUsings => o.probeCsUsings
  | .probeCFile => o.probeCFile?.toList.map (·.text)
  | .glueFile => o.glueFile?.toList.map (·.text)
  | .glueIncludes => o.glueIncludes
  | .glueLibrary => o.glueLibrary?.toList
  | .schema => o.schema?.toList.map (·.text)
  | .configuration => o.configuration?.toList.map (·.text)
  | .customDir => o.customDir?.toList.map (·.text)

/--
The options in which a flag has these values. Of a flag that does not repeat the first value counts.
-/
def assign (o : Options) (values : List String) : Flag → Options
  | .generate => { o with generate := values.map Path.mk }
  | .includes => { o with includes := values.map Path.mk }
  | .outDir => { o with outDir? := values.head?.map Path.mk }
  | .assemblyName => { o with assemblyName? := values.head? }
  | .searchDir => { o with searchDir? := values.head?.map Path.mk }
  | .probeCsFile => { o with probeCsFile? := values.head?.map Path.mk }
  | .probeCsUsings => { o with probeCsUsings := values }
  | .probeCFile => { o with probeCFile? := values.head?.map Path.mk }
  | .glueFile => { o with glueFile? := values.head?.map Path.mk }
  | .glueIncludes => { o with glueIncludes := values }
  | .glueLibrary => { o with glueLibrary? := values.head? }
  | .schema => { o with schema? := values.head?.map Path.mk }
  | .configuration => { o with configuration? := values.head?.map Path.mk }
  | .customDir => { o with customDir? := values.head?.map Path.mk }

theorem values_assign (o : Options) (values : List String) (f : Flag) :
    (o.assign values f).values f = if f.repeats then values else values.take 1 := by
  cases f <;> cases values <;> simp [assign, Options.values, Flag.repeats, Function.comp_def]

/--
The options of which `fallback` gives those that are not set.
-/
def orElse (o fallback : Options) : Options where
  generate := if o.generate.isEmpty then fallback.generate else o.generate
  includes := if o.includes.isEmpty then fallback.includes else o.includes
  outDir? := o.outDir?.or fallback.outDir?
  assemblyName? := o.assemblyName?.or fallback.assemblyName?
  searchDir? := o.searchDir?.or fallback.searchDir?
  probeCsFile? := o.probeCsFile?.or fallback.probeCsFile?
  probeCsUsings := if o.probeCsUsings.isEmpty then fallback.probeCsUsings else o.probeCsUsings
  probeCFile? := o.probeCFile?.or fallback.probeCFile?
  glueFile? := o.glueFile?.or fallback.glueFile?
  glueIncludes := if o.glueIncludes.isEmpty then fallback.glueIncludes else o.glueIncludes
  glueLibrary? := o.glueLibrary?.or fallback.glueLibrary?
  schema? := o.schema?.or fallback.schema?
  configuration? := o.configuration?.or fallback.configuration?
  customDir? := o.customDir?.or fallback.customDir?

def outputs (o : Options) : OutputOptions where
  dir? := o.outDir?
  assemblyName? := o.assemblyName?
  glueFile? := o.glueFile?
  glueIncludes := o.glueIncludes
  glueLibrary? := o.glueLibrary?
  probeCFile? := o.probeCFile?
  probeCsFile? := o.probeCsFile?
  probeCsUsings := o.probeCsUsings

end Options

end Interop
