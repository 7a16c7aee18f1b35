import Interop.Generation
import Interop.Proofs.Files.Stream
import Mathlib.Data.List.Nodup

/-!
This module contains the ledger of a run's outputs: which files were written, in the order in which
they were begun, and what each of them holds. It tells what the outputs of a run stand for without
streams and disks.
-/

namespace Interop

open Disk

inductive OutputFile where
  | managed (name : String)
  | glue
  | probeC
  | probeCs
  deriving DecidableEq, Repr

namespace OutputOptions

def path? (o : OutputOptions) : OutputFile → Option Path
  | .managed name => some (o.dir.join ⟨name ++ ".cs"⟩)
  | .glue => o.glueFile?
  | .probeC => o.probeCFile?
  | .probeCs => o.probeCsFile?

def place (o : OutputOptions) (d : Disk) (f : OutputFile) : Place :=
  (o.path? f).elim [] d.placeOf

def header (o : OutputOptions) : OutputFile → Bytes
  | .managed _ => []
  | .glue => bytesOf o.glueHeader
  | .probeC => bytesOf o.probeCHeader
  | .probeCs => bytesOf o.probeCsHeader

end OutputOptions

/--
What a file gets at its end when the outputs are closed.
-/
def OutputFile.footer : OutputFile → String
  | .managed _ | .glue => ""
  | .probeC => OutputOptions.probeCFooter
  | .probeCs => OutputOptions.probeCsFooter

abbrev Ledger := List (OutputFile × Bytes)

namespace Ledger

def files (l : Ledger) : List OutputFile :=
  l.map (·.1)

/--
Begins a file with its header, unless it was begun before.
-/
def begin (l : Ledger) (f : OutputFile) (header : Bytes) : Ledger :=
  if f ∈ l.files then l else l ++ [(f, header)]

def extend (l : Ledger) (f : OutputFile) (text : Bytes) : Ledger :=
  l.map fun (g, old) => (g, if g = f then old ++ text else old)

def enter (o : OutputOptions) (l : Ledger) : Generation.Artifact → Ledger
  | .managed _ file => l ++ [(.managed file.name, bytesOf file.source)]
  | .glue _ text =>
    if o.hasGlue then (l.begin .glue (o.header .glue)).extend .glue (bytesOf text) else l
  | .probe p =>
    if o.hasProbes then
      (((l.begin .probeC (o.header .probeC)).begin .probeCs (o.header .probeCs)).extend .probeC
        (bytesOf p.c)).extend .probeCs (bytesOf p.cs)
    else l

def Filled (l : Ledger) : Prop :=
  ∀ f text, (f, text) ∈ l → text ≠ []

theorem files_append {l : Ledger} {f : OutputFile} {text : Bytes}
    : files (l ++ [(f, text)]) = l.files ++ [f] := by
  simp [files]

theorem files_extend {l : Ledger} {f : OutputFile} {text : Bytes}
    : (l.extend f text).files = l.files := by
  simp [files, extend, Function.comp_def]

theorem mem_files {l : Ledger} {f : OutputFile} {text : Bytes} (h : (f, text) ∈ l)
    : f ∈ l.files :=
  List.mem_map_of_mem h

theorem mem_files_begin {l : Ledger} {f g : OutputFile} {header : Bytes}
    : g ∈ (l.begin f header).files ↔ g ∈ l.files ∨ g = f := by
  unfold begin
  split
  . next hmem =>
    constructor
    . exact .inl
    . rintro (h | rfl)
      . exact h
      . exact hmem
  . rw [files_append]
    simp

end Ledger

def Generation.Artifact.files (o : OutputOptions) : Generation.Artifact → List OutputFile
  | .managed _ file => [.managed file.name]
  | .glue _ _ => if o.hasGlue then [.glue] else []
  | .probe _ => if o.hasProbes then [.probeC, .probeCs] else []

theorem Ledger.mem_files_enter {o : OutputOptions} {l : Ledger} {a : Generation.Artifact}
    {f : OutputFile} : f ∈ (l.enter o a).files ↔ f ∈ l.files ∨ f ∈ a.files o := by
  cases a with
  | managed owner? file =>
    simp only [enter, Generation.Artifact.files]
    rw [files_append]
    simp
  | glue owner text =>
    simp only [enter, Generation.Artifact.files]
    split
    . rw [files_extend, mem_files_begin]
      simp
    . simp
  | probe p =>
    simp only [enter, Generation.Artifact.files]
    split
    . rw [files_extend, files_extend, mem_files_begin, mem_files_begin]
      simp [or_assoc]
    . simp

theorem Ledger.mem_files_foldl {o : OutputOptions} {artifacts : List Generation.Artifact}
    {l : Ledger} {f : OutputFile}
    : f ∈ (artifacts.foldl (enter o) l).files
        ↔
      f ∈ l.files ∨ ∃ a ∈ artifacts, f ∈ a.files o := by
  induction artifacts generalizing l with
  | nil => simp
  | cons a as ih =>
    rw [List.foldl_cons, ih, mem_files_enter]
    simp [or_assoc]

theorem Source.bytesOf_text {lines : Lines} (h : lines ≠ []) : bytesOf (text lines) ≠ [] := by
  cases lines with
  | nil => exact absurd rfl h
  | cons line lines =>
    rw [Ne, bytesOf_eq_nil, text_cons]
    simp

theorem OutputOptions.header_ne_nil {o : OutputOptions} {f : OutputFile}
    (hshared : ∀ name, f ≠ .managed name) : o.header f ≠ [] := by
  cases f with
  | managed name => exact absurd rfl (hshared name)
  | glue | probeC | probeCs =>
    apply Source.bytesOf_text
    simp

namespace Ledger

theorem Filled.begin {l : Ledger} {f : OutputFile} {header : Bytes} (h : l.Filled)
    (hheader : header ≠ []) : (l.begin f header).Filled := by
  unfold Ledger.begin
  split
  . exact h
  . intro g text hg
    rcases List.mem_append.1 hg with hg | hg
    . exact h g text hg
    . simp only [List.mem_singleton, Prod.mk.injEq] at hg
      rw [hg.2]
      exact hheader

theorem Filled.extend {l : Ledger} {f : OutputFile} {more : Bytes} (h : l.Filled)
    : (l.extend f more).Filled := by
  intro g text hg
  rcases List.mem_map.1 hg with ⟨⟨g', old⟩, hold, heq⟩
  rw [← (Prod.mk.inj heq).2]
  have hne := h g' old hold
  split
  . simp [hne]
  . exact hne

theorem Filled.enter {o : OutputOptions} {l : Ledger} {a : Generation.Artifact} (h : l.Filled)
    (ha : ∀ owner? file, a = .managed owner? file → bytesOf file.source ≠ [])
    : (l.enter o a).Filled := by
  cases a with
  | managed owner? file =>
    intro f text hf
    rcases List.mem_append.1 hf with hf | hf
    . exact h f text hf
    . simp only [List.mem_singleton, Prod.mk.injEq] at hf
      rw [hf.2]
      exact ha owner? file rfl
  | glue owner text =>
    simp only [Ledger.enter]
    split
    . exact (h.begin (OutputOptions.header_ne_nil (by simp))).extend
    . exact h
  | probe p =>
    simp only [Ledger.enter]
    split
    . have hC : o.header .probeC ≠ [] := OutputOptions.header_ne_nil (by simp)
      have hCs : o.header .probeCs ≠ [] := OutputOptions.header_ne_nil (by simp)
      exact ((h.begin hC).begin hCs).extend.extend
    . exact h

theorem Filled.foldl {o : OutputOptions} {artifacts : List Generation.Artifact} {l : Ledger}
    (h : l.Filled)
    (ha : ∀ owner? file, .managed owner? file ∈ artifacts → bytesOf file.source ≠ [])
    : (artifacts.foldl (Ledger.enter o) l).Filled := by
  induction artifacts generalizing l with
  | nil => exact h
  | cons a as ih =>
    apply ih
    . apply h.enter
      rintro owner? file rfl
      exact ha owner? file List.mem_cons_self
    . intro owner? file hmem
      exact ha owner? file (List.mem_cons_of_mem _ hmem)

end Ledger

def OutputFile.name? : OutputFile → Option String
  | .managed name => some name
  | .glue | .probeC | .probeCs => none

def Generation.Artifact.name? : Generation.Artifact → Option String
  | .managed _ file => some file.name
  | .glue _ _ | .probe _ => none

namespace Ledger

def names (l : Ledger) : List String :=
  l.files.filterMap (·.name?)

theorem names_begin {l : Ledger} {f : OutputFile} {header : Bytes} (h : f.name? = none)
    : (l.begin f header).names = l.names := by
  unfold begin
  split
  . rfl
  . unfold names
    rw [files_append, List.filterMap_append]
    simp [h]

theorem names_extend {l : Ledger} {f : OutputFile} {text : Bytes}
    : (l.extend f text).names = l.names := by
  unfold names
  rw [files_extend]

theorem names_enter {o : OutputOptions} {l : Ledger} {a : Generation.Artifact}
    : (l.enter o a).names = l.names ++ a.name?.toList := by
  cases a with
  | managed owner? file =>
    unfold names
    simp only [enter, files_append, List.filterMap_append]
    rfl
  | glue owner text =>
    simp only [enter, Generation.Artifact.name?, Option.toList_none, List.append_nil]
    split
    . rw [names_extend, names_begin rfl]
    . rfl
  | probe p =>
    simp only [enter, Generation.Artifact.name?, Option.toList_none, List.append_nil]
    split
    . rw [names_extend, names_extend, names_begin rfl, names_begin rfl]
    . rfl

theorem names_foldl {o : OutputOptions} {artifacts : List Generation.Artifact} {l : Ledger}
    : (artifacts.foldl (enter o) l).names = l.names ++ artifacts.filterMap (·.name?) := by
  induction artifacts generalizing l with
  | nil => simp
  | cons a as ih =>
    rw [List.foldl_cons, ih, names_enter, List.append_assoc]
    cases h : a.name? with
    | none => simp [h]
    | some name => simp [h]

theorem nodup_names {l : Ledger} (h : l.files.Nodup) : l.names.Nodup := by
  apply h.filterMap
  intro f g name hf hg
  cases f <;> cases g <;> simp_all [OutputFile.name?]

end Ledger

namespace Outputs

def stream? (o : Outputs) : OutputFile → Option Stream
  | .managed _ => none
  | .glue => o.glue?
  | .probeC => o.probeC?
  | .probeCs => o.probeCs?

def withStream (o : Outputs) (f : OutputFile) (s : Stream) : Outputs :=
  match f with
  | .managed _ => o
  | .glue => { o with glue? := some s }
  | .probeC => { o with probeC? := some s }
  | .probeCs => { o with probeCs? := some s }

/--
A file of which the ledger says that it holds `text`: its stream stands for the text, or the file
is complete and the text is in it. Places are those of the disk that the run began with.
-/
def Shows (start : Disk) (o : Outputs) (f : OutputFile) (text : Bytes) : Prop :=
  match o.stream? f with
  | some s =>
    o.options.path? f = some s.path ∧ s.place = o.options.place start f ∧ s.Holds o.disk text
  | none => (∃ name, f = .managed name) ∧ o.disk.Contains (o.options.place start f) text

/--
The outputs are as the ledger says, and the disk was changed in the files of the ledger only.
-/
structure Keeps (start : Disk) (o : Outputs) (l : Ledger) : Prop where
  unclosed : o.closed = false
  nodup : l.files.Nodup
  written : o.written.map some = l.files.map o.options.path?
  changed : ChangedAt {q | ∃ f ∈ l.files, q = o.options.place start f} start o.disk
  shows : ∀ f text, (f, text) ∈ l → o.Shows start f text
  opened : ∀ f s, o.stream? f = some s → f ∈ l.files

end Outputs

end Interop
