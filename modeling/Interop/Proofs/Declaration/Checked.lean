import Interop.Fault
import Interop.Proofs.Declaration.Typed

/-!
This module contains what a schema has checked of a document that is accepted with it. The schema
sees the document as a value and declarations are read from its nodes, so it has to be shown that
both mean the same entries.
-/

namespace Interop

open Yaml

theorem forall₂_of_mapM {ε α β : Type} {f : α → Except ε β} {as : List α} {bs : List β}
    (h : as.mapM f = .ok bs) : List.Forall₂ (fun a b => f a = .ok b) as bs := by
  induction as generalizing bs with
  | nil =>
    rw [List.mapM_nil] at h
    rw [← Except.ok.inj h]
    exact .nil
  | cons a as ih =>
    rw [List.mapM_cons] at h
    rcases Fault.bind_eq_ok.1 h with ⟨b, hb, h⟩
    rcases Fault.bind_eq_ok.1 h with ⟨bs', hbs, h⟩
    rw [← Except.ok.inj h]
    exact .cons hb (ih hbs)

theorem forall₂_comp {α β γ : Type} {p : α → β → Prop} {q : β → γ → Prop} {as : List α}
    {bs : List β} {cs : List γ} (h : List.Forall₂ p as bs) (h' : List.Forall₂ q bs cs)
    : List.Forall₂ (fun a c => ∃ b, p a b ∧ q b c) as cs := by
  induction h generalizing cs with
  | nil =>
    cases h'
    exact .nil
  | cons hab _ ih =>
    cases h' with
    | cons hbc h' => exact .cons ⟨_, hab, hbc⟩ (ih h')

namespace Yaml.Document

/--
The entries of a node that is a mapping.
-/
def entries (d : Document) (n : Node) : List (Node × Node) :=
  match d.target? n with
  | some (.mapping _ entries) => entries
  | _ => []

/--
The items of a node that is a sequence.
-/
def items (d : Document) (n : Node) : List Node :=
  match d.target? n with
  | some (.sequence _ items) => items
  | _ => []

def rootEntries (d : Document) : List (Node × Node) :=
  d.root?.elim [] d.entries

/--
The nodes that stand for declarations, in order.
-/
def declared (d : Document) : List Node :=
  (d.entry? d.rootEntries "types").elim [] d.items

/--
Read as a value, every key of the root that is taken for the name of a field has that name. A key
with a tag of its own would not, and declarations behind it would not be seen in the value.
-/
def ReadsAlike (d : Document) : Prop :=
  ∀ e ∈ d.rootEntries, ∀ name ∈ DeclarationFile.fieldNames,
    d.name? e.1 = some name → d.text? e.1 = some name

instance (d : Document) : Decidable d.ReadsAlike :=
  inferInstanceAs (Decidable (∀ e ∈ d.rootEntries, ∀ name ∈ DeclarationFile.fieldNames,
    d.name? e.1 = some name → d.text? e.1 = some name))

theorem entries_eq {d : Document} {n : Node} {tag? : Option Tag} {entries : List (Node × Node)}
    (h : d.target? n = some (.mapping tag? entries)) : d.entries n = entries := by
  unfold Document.entries
  rw [h]

theorem rootEntries_eq {d : Document} {root : Node} (h : d.root? = some root)
    : d.rootEntries = d.entries root := by
  unfold rootEntries
  rw [h, Option.elim_some]

theorem items_eq {d : Document} {n : Node} {tag? : Option Tag} {items : List Node}
    (h : d.target? n = some (.sequence tag? items)) : d.items n = items := by
  unfold Document.items
  rw [h]

variable {d : Document} {n : Node} {v : Value} {es : List (Value × Value)} {keys : List String}
  {withTags : Bool}

theorem hasKeys_of_denotes (h : d.Denotes withTags n v) (hes : v.mapping? = some es)
    (hkeys : ∀ key ∈ keys, Schema.hasKey es key = true) : d.HasKeys n keys := by
  rcases h.mapping? hes with ⟨tag?, entries, htarget, hentries⟩
  refine ⟨tag?, entries, htarget, ?_⟩
  intro key hkey
  have hget := get?_rel hentries key
  have hsome := hkeys key hkey
  unfold Schema.hasKey at hsome
  generalize d.entry? entries key = entry? at hget ⊢
  generalize get? es key = value? at hget hsome
  cases hget with
  | some _ => rfl
  | none => simp at hsome

end Yaml.Document

/--
Both readings of the text, as a value and by its nodes, see the same fields.
-/
def Yaml.Reading.IsUniform : Reading → Prop
  | .malformed => True
  | .document d _ => d.ReadsAlike

instance (r : Reading) : Decidable r.IsUniform :=
  match r with
  | .malformed => inferInstanceAs (Decidable True)
  | .document d _ => inferInstanceAs (Decidable d.ReadsAlike)

variable {d : Document} {n root : Node} {v : Value} {s : Schema} {tag? : Option Tag}
  {entries : List (Node × Node)}

namespace Schema

/--
What the schema has checked of an entry: it is a mapping, says a kind that is permitted, and has the
keys of that kind.
-/
structure Admits (s : Schema) (d : Document) (n : Node) (kind : String) : Prop where
  named : ∃ k, d.entry? (d.entries n) "kind" = some k ∧ d.name? k = some kind
  permitted : s.kinds ≠ [] → kind ∈ s.kinds
  keys : d.HasKeys n (s.requiredFor kind)

theorem admits_of_checkEntry {index : Nat} (hdenotes : d.Denotes true n v)
    (h : s.checkEntry index v = []) : ∃ kind, s.Admits d n kind := by
  unfold checkEntry at h
  split at h
  . simp at h
  . next es hes =>
    rcases hdenotes.mapping? hes with ⟨tag?, entries, htarget, hentries⟩
    have hget := Document.get?_rel hentries "kind"
    simp only at h
    split at h
    . simp at h
    . next kind hkind =>
      rcases Option.bind_eq_some_iff.1 hkind with ⟨value, hvalue, htext⟩
      rw [hvalue] at hget
      generalize hentry : d.entry? entries "kind" = entry? at hget
      cases hget with
      | @some k _ hk =>
        refine ⟨kind, ⟨k, ?_, hk.name? htext⟩, ?_, ?_⟩
        . rw [Document.entries_eq htarget]
          exact hentry
        . intro hkinds
          by_contra hforbidden
          simp [hkinds, hforbidden] at h
        . apply Document.hasKeys_of_denotes hdenotes hes
          split at h
          . simp at h
          . simpa [List.filter_eq_nil_iff] using h

theorem check_document (hdenotes : d.Denotes true root v) (h : s.check v = [])
    : d.HasKeys root s.document := by
  unfold check at h
  split at h
  . simp at h
  . next es hes =>
    apply Document.hasKeys_of_denotes hdenotes hes
    have hmissing := (List.append_eq_nil_iff.1 h).1
    simpa [List.filter_eq_nil_iff] using hmissing

theorem check_types (hdenotes : d.Denotes true root v) (h : s.check v = [])
    (hentry : d.entry? (d.entries root) "types" = some n)
    : ∃ tag? items, d.target? n = some (.sequence tag? items)
        ∧ ∀ item ∈ items, ∃ kind, s.Admits d item kind := by
  unfold check at h
  split at h
  . simp at h
  . next es hes =>
    rcases hdenotes.mapping? hes with ⟨tag?, entries, htarget, hentries⟩
    have hget := Document.get?_rel hentries "types"
    rw [Document.entries_eq htarget] at hentry
    rw [hentry] at hget
    have hchecked := (List.append_eq_nil_iff.1 h).2
    split at hchecked
    . next hnone =>
      rw [hnone] at hget
      cases hget
    . next types htypes =>
      rw [htypes] at hget
      cases hget with
      | some htypes =>
        split at hchecked
        . simp at hchecked
        . next vs hvs =>
          rcases htypes.sequence? hvs with ⟨tag?, items, htarget, hitems⟩
          refine ⟨tag?, items, htarget, ?_⟩
          intro item hitem
          rcases List.getElem_of_mem hitem with ⟨i, hi, rfl⟩
          have hlength := hitems.length_eq
          have hdenotes := hitems.get hi (hlength ▸ hi)
          apply admits_of_checkEntry hdenotes
          rw [List.flatMap_eq_nil_iff] at hchecked
          apply hchecked (vs[i], i)
          simp [List.mk_mem_zipIdx_iff_getElem?]

theorem mapping_of_check (h : s.check v = []) : v.mapping?.isSome := by
  unfold check at h
  split at h
  . simp at h
  . next hes => rw [hes, Option.isSome_some]

end Schema

namespace DeclarationFile

/--
The descriptor is what the declaration at this node comes to in the document.
-/
def Builds (f : DeclarationFile) (d : Document) (n : Node) (g : Descriptor) : Prop :=
  ∃ types route declaration, d.Reads (DeclarationFile.declaration types route n) declaration
    ∧ declaration.settle f.nameSpace (f.library?.getD f.nameSpace) = .ok g

theorem builds_of_descriptors {f : DeclarationFile} {gs : List Descriptor}
    (hfile : d.Reads (ofRoot (some root)) f) (hroot : d.root? = some root)
    (htarget : d.target? root = some (.mapping tag? entries)) (hread : d.ReadsAlike)
    (htypes : ∀ n, d.entry? entries "types" = some n →
      ∃ tag? items, d.target? n = some (.sequence tag? items))
    (h : f.descriptors = .ok gs) : List.Forall₂ (f.Builds d) d.declared gs := by
  have hentries : d.rootEntries = entries := by
    rw [Document.rootEntries_eq hroot, Document.entries_eq htarget]
  have hdeclarations := ofRoot_declarations hfile htarget
    fun e he => hread e (hentries ▸ he) "types" (by simp [fieldNames])
  have hsettled := forall₂_of_mapM h
  unfold Document.declared
  rw [hentries]
  cases hn : d.entry? entries "types" with
  | none =>
    rw [hn, Option.elim_none] at hdeclarations
    rw [hdeclarations] at hsettled
    cases hsettled
    exact .nil
  | some n =>
    rw [hn, Option.elim_some] at hdeclarations
    rcases hdeclarations with ⟨types, hreads⟩
    rcases htypes n hn with ⟨tag?, items, hitems⟩
    rw [Option.elim_some, Document.items_eq hitems]
    apply (forall₂_comp (reads_sequenceOf hreads hitems) hsettled).imp
    rintro n g ⟨declaration, ⟨route, hdeclaration⟩, hg⟩
    exact ⟨types, route, declaration, hdeclaration, hg⟩

-- The kind is found at the same key in the value and among the nodes.
theorem Builds.kind_eq {f : DeclarationFile} {g : Descriptor} {kind : String}
    (h : f.Builds d n g) (hadmits : s.Admits d n kind) : g.kind.name = kind := by
  rcases h with ⟨types, route, declaration, hreads, hsettle⟩
  rcases hadmits.keys with ⟨tag?, entries, htarget, _⟩
  rcases declaration_kind hreads hsettle htarget with ⟨k, hk, hname⟩
  rcases hadmits.named with ⟨k', hk', hname'⟩
  rw [Document.entries_eq htarget] at hk'
  rw [Option.some.inj (hk.symm.trans hk')] at hname
  exact Option.some.inj (hname.symm.trans hname')

end DeclarationFile

variable {source text : String} {gs : List Descriptor}

theorem readValue_ok (h : readValue text = .ok v)
    : ∃ d, Reading.ofText text = .document d false ∧ d.value = .ok v := by
  unfold readValue at h
  split at h
  . simp at h
  . next d more htext =>
    split at h
    . next hvalue =>
      split at h
      . simp at h
      . next hmore =>
        rw [Except.ok.inj h] at hvalue
        exact ⟨d, by simp [htext, hmore], hvalue⟩
    . simp at h

theorem readDocument_ok {α : Type} {r : Option Node → DocumentReader α} {a : α}
    (h : readDocument text r = .ok a)
    : ∃ d, Reading.ofText text = .document d false ∧ d.Reads (r d.root?) a := by
  unfold readDocument at h
  split at h
  . simp at h
  . next d more htext =>
    split at h
    . next hextract =>
      split at h
      . simp at h
      . next hmore =>
        rw [Except.ok.inj h] at hextract
        exact ⟨d, by simp [htext, hmore], Document.reads_of_extract hextract⟩
    . simp at h

theorem denotes_of_value (h : d.value = .ok v) (hmapping : v.mapping?.isSome)
    : ∃ root, d.root? = some root ∧ d.Denotes true root v := by
  unfold Document.value at h
  split at h
  . rw [← Except.ok.inj h] at hmapping
    simp [Value.null, Value.mapping?, Value.untagged] at hmapping
  . next root hroot =>
    split at h
    . next hextract =>
      split at h
      . rw [Except.ok.inj h] at hextract
        exact ⟨root, hroot, _, _, Document.reads_of_extract hextract⟩
      . simp at h
    . simp at h

theorem parseDocument_none (h : parseDocument source text none = .ok gs)
    : ∃ f, readDocument text DeclarationFile.ofRoot = .ok f ∧ f.descriptors = .ok gs := by
  unfold parseDocument at h
  rcases Fault.bind_eq_ok.1 h with ⟨f, hf, h⟩
  exact ⟨f, Fault.mapError_eq_ok.1 hf, Fault.mapError_eq_ok.1 h⟩

theorem parseDocument_some (h : parseDocument source text (some s) = .ok gs)
    : parseDocument source text none = .ok gs
      ∧ ∃ v, readValue text = .ok v ∧ s.check v = [] := by
  unfold parseDocument at h
  rcases Fault.bind_eq_ok.1 h with ⟨v, hv, h⟩
  simp only at h
  split at h
  . rcases Fault.bind_eq_ok.1 h with ⟨_, hthrow, _⟩
    cases hthrow
  . next hnone => exact ⟨h, v, Fault.mapError_eq_ok.1 hv, by simpa using hnone⟩

/--
No accepted declaration escapes the schema: a document that is accepted with it is accepted without
it, for the same descriptors, which are made of the entries at `types`, one by one. All of them were
checked, for the kind that they have in the end.
-/
theorem parseDocument_checked (hread : (Reading.ofText text).IsUniform)
    (h : parseDocument source text (some s) = .ok gs)
    : parseDocument source text none = .ok gs
      ∧ (s.kinds ≠ [] → ∀ g ∈ gs, g.kind.name ∈ s.kinds)
      ∧ ∃ d root f, Reading.ofText text = .document d false ∧ d.root? = some root
          ∧ readDocument text DeclarationFile.ofRoot = .ok f
          ∧ d.HasKeys root s.document
          ∧ List.Forall₂ (fun n g => f.Builds d n g ∧ d.HasKeys n (s.requiredFor g.kind.name))
              d.declared gs := by
  rcases parseDocument_some h with ⟨hnone, v, hvalue, hcheck⟩
  rcases parseDocument_none hnone with ⟨f, hfile, hdescriptors⟩
  rcases readValue_ok hvalue with ⟨d, htext, hvalue⟩
  rcases readDocument_ok hfile with ⟨d', htext', hreads⟩
  rw [htext] at hread htext'
  rw [← (Reading.document.inj htext').1] at hreads
  rcases denotes_of_value hvalue (Schema.mapping_of_check hcheck) with ⟨root, hroot, hdenotes⟩
  rw [hroot] at hreads
  have hdocument := Schema.check_document hdenotes hcheck
  have htypes {n : Node} := Schema.check_types (n := n) hdenotes hcheck
  have hbuilds : List.Forall₂ (f.Builds d) d.declared gs := by
    rcases hdocument with ⟨tag?, entries, htarget, _⟩
    apply DeclarationFile.builds_of_descriptors hreads hroot htarget hread _ hdescriptors
    intro n hn
    rw [← Document.entries_eq htarget] at hn
    rcases htypes hn with ⟨tag?, items, hitems, _⟩
    exact ⟨tag?, items, hitems⟩
  have hadmits : ∀ n ∈ d.declared, ∃ kind, s.Admits d n kind := by
    intro n hn
    unfold Document.declared at hn
    rw [Document.rootEntries_eq hroot] at hn
    cases hentry : d.entry? (d.entries root) "types" with
    | none => simp [hentry] at hn
    | some types =>
      rcases htypes hentry with ⟨tag?, items, hitems, hadmits⟩
      rw [hentry, Option.elim_some, Document.items_eq hitems] at hn
      exact hadmits n hn
  have hall : List.Forall₂ (fun n g => f.Builds d n g ∧ s.Admits d n g.kind.name)
      d.declared gs := by
    apply ((List.forall₂_and_left _ _).2 ⟨hadmits, hbuilds⟩).imp
    rintro n g ⟨⟨kind, hkind⟩, hg⟩
    rw [hg.kind_eq hkind]
    exact ⟨hg, hkind⟩
  refine ⟨hnone, ?_, d, root, f, htext, hroot, hfile, hdocument, ?_⟩
  . intro hkinds g hg
    rcases List.getElem_of_mem hg with ⟨i, hi, rfl⟩
    exact (hall.get (hall.length_eq ▸ hi) hi).2.permitted hkinds
  . exact hall.imp fun n g h => ⟨h.1, h.2.keys⟩

theorem resolve_fieldName {name : String} {plain : Bool} {meaning : Scalar}
    (hname : name ∈ DeclarationFile.fieldNames)
    (h : Scalar.resolve tag? name plain = some meaning) : meaning = .text name := by
  have hmeaningless : ∀ name ∈ DeclarationFile.fieldNames,
      Scalar.ofPlain name = some (.text name) ∧ Scalar.bool? name = none
        ∧ Scalar.integer name.toList = .none ∧ (Scalar.float? name).isNone
        ∧ Scalar.null? name = none := by
    decide +kernel
  rcases hmeaningless name hname with ⟨hplain, hbool, hinteger, hfloat, hnull⟩
  rw [Option.isNone_iff_eq_none] at hfloat
  unfold Scalar.resolve at h
  rw [hplain, hbool, hinteger, hfloat, hnull] at h
  repeat' split at h
  all_goals simp_all

/--
Tags of the document's own at the keys of the root are all that keeps a document with a value from
being read alike.
-/
theorem readsAlike_of_untagged (hroot : d.root? = some root) (hdenotes : d.Denotes true root v)
    (huntagged : ∀ e ∈ d.rootEntries, ∀ m, d.target? e.1 = some m → m.ownTag? = none)
    : d.ReadsAlike := by
  intro e he name hname htaken
  have hown := huntagged e he
  rw [Document.rootEntries_eq hroot] at he
  rcases hdenotes.shows with ⟨m, w, htarget, _, _, hshows⟩
  cases hshows with
  | scalar _ | sequence _ => simp [Document.entries, htarget] at he
  | mapping hentries =>
    rw [Document.entries_eq htarget] at he
    rcases List.getElem_of_mem he with ⟨i, hi, rfl⟩
    have hkey := (hentries.get hi (hentries.length_eq ▸ hi)).1
    rcases hkey.shows with ⟨k, u, hk, _, _, hshows⟩
    simp only [List.get_eq_getElem] at hk
    unfold Document.name? at htaken
    unfold Document.text?
    rw [hk] at htaken ⊢
    cases hshows with
    | sequence _ | mapping _ => simp at htaken
    | @scalar tag? text plain meaning hresolve =>
      rw [hown _ hk] at hresolve
      rw [Option.some.inj htaken] at hresolve hk ⊢
      simp only
      rw [if_pos ⟨hown _ hk, resolve_fieldName hname hresolve ▸ hresolve⟩]

def colorSchema : Schema where
  document := ["namespace"]
  kinds := ["enum", "struct"]
  required := [("enum", ["cname", "name"])]

def colorText : String :=
  "namespace: Demo\ntypes:\n- cname: DemoColor\n  name: Color\n  kind: enum\n"

theorem parseDocument_checked_color
    : (Reading.ofText colorText).IsUniform
      ∧ ∃ gs, parseDocument "demo.yaml" colorText (some colorSchema) = .ok gs
        ∧ gs.map (·.cname) = ["DemoColor"]
        ∧ parseDocument "demo.yaml" colorText none = .ok gs
        ∧ ∀ g ∈ gs, g.kind.name ∈ ["enum", "struct"] := by
  have hread : (Reading.ofText colorText).IsUniform := by
    decide +kernel
  have hparse : (parseDocument "demo.yaml" colorText (some colorSchema)).map (·.map (·.cname))
      = .ok ["DemoColor"] := by
    decide +kernel
  cases h : parseDocument "demo.yaml" colorText (some colorSchema) with
  | error e => simp [h, Except.map] at hparse
  | ok gs =>
    rw [h] at hparse
    rcases parseDocument_checked hread h with ⟨hnone, hkinds, _⟩
    exact ⟨hread, gs, rfl, Except.ok.inj hparse, hnone, hkinds (by decide)⟩

-- Behind a key with a tag of its own declarations are read, but not seen by the schema.
example
    : (parseDocument "demo.yaml"
          "namespace: Demo\n!old types:\n- cname: DemoId\n  managed: uint\n  kind: simple\n"
          (some colorSchema)).map (·.map (·.kind)) = .ok [.simple] := by
  decide +kernel

end Interop
