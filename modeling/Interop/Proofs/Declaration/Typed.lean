import Interop.Declaration.File
import Interop.Proofs.Declaration.Reading

/-!
This module contains what it says of a document that its declarations could be read: where the kind
of each stands, and that all of them stand at one key of the root.
-/

namespace Interop

open Yaml DocumentReader

variable {d : Document} {α : Type} {a : α} {route types : Route} {n root : Node} {tag? : Option Tag}
  {entries : List (Node × Node)} {s : String}

theorem Declaration.settle_kind {kind : Kind} {content : Value} {declaration : Declaration}
    {nameSpace library : String} {g : Descriptor}
    (hdecode : decode kind content = .ok declaration)
    (hsettle : declaration.settle nameSpace library = .ok g) : g.kind = kind := by
  have hmap {β : Type} {r : Decode.Result β} {f : β → Declaration}
      (h : r.map f = .ok declaration) : ∃ t, declaration = f t := by
    cases r with
    | error e => simp [Except.map] at h
    | ok t => exact ⟨t, (Except.ok.inj h).symm⟩
  cases kind
  all_goals
    rcases hmap hdecode with ⟨t, rfl⟩
    simp only [settle] at hsettle
    repeat' split at hsettle
    all_goals
      first
      | rw [← Except.ok.inj hsettle]; rfl
      | simp at hsettle

namespace DeclarationFile

theorem not_reads_complain {expected : String} : ¬ d.Reads (complain route n expected) a := by
  unfold complain
  cases n with
  | scalar tag? text plain =>
    simp only
    split
    . exact Document.not_reads_unfit
    . exact Document.not_reads_fail
  | sequence _ _ | mapping _ _ => exact Document.not_reads_unfit
  | aliasOf _ => exact Document.not_reads_fail

theorem reads_textOf {expected : String} (h : d.Reads (textOf route n expected) s)
    : d.name? n = some s := by
  unfold textOf at h
  rcases h.bind with ⟨m, hfollow, h⟩
  unfold Document.name?
  rw [hfollow.follow]
  split at h
  . rw [h.pure]
  . exact absurd h not_reads_complain

theorem kindOf?_name {k : Kind} (h : Declaration.kindOf? s = some k) : k.name = s := by
  simpa using List.find?_some h

theorem reads_kind {k : Kind} (h : d.Reads (kind route n) k) : d.name? n = some k.name := by
  unfold kind at h
  rcases h.bind with ⟨name, hname, h⟩
  split at h
  . next k' hk =>
    rw [← h.pure, kindOf?_name hk]
    exact reads_textOf hname
  . exact absurd h Document.not_reads_unfit

theorem splitEntries_kept {k : Kind} {content : List (Value × Value)} {result : Kind × Value}
    (h : d.Reads (splitEntries route (some k) content entries) result) : result.1 = k := by
  induction entries generalizing content with
  | nil => rw [← h.pure]
  | cons e entries ih =>
    unfold splitEntries at h
    rcases h.bind with ⟨key, _, h⟩
    split at h
    . exact absurd h Document.not_reads_unfit_bind
    . rcases h.bind with ⟨value, _, h⟩
      exact ih h

theorem splitEntries_kind {content : List (Value × Value)} {result : Kind × Value}
    (h : d.Reads (splitEntries route none content entries) result)
    : ∃ n, d.entry? entries "kind" = some n ∧ d.name? n = some result.1.name := by
  induction entries generalizing content with
  | nil => exact absurd h Document.not_reads_unfit
  | cons e entries ih =>
    unfold splitEntries at h
    rcases h.bind with ⟨key, hkey, h⟩
    have hdenotes : d.Denotes false e.1 key := ⟨_, _, hkey⟩
    unfold Document.entry?
    rw [List.find?_cons]
    split at h
    . next hkind =>
      rw [decide_eq_true (hdenotes.isText_iff.1 hkind)]
      rcases h.bind with ⟨k, hk, h⟩
      rw [splitEntries_kept h]
      exact ⟨e.2, rfl, reads_kind hk⟩
    . next hkind =>
      rw [decide_eq_false (hkind ∘ hdenotes.isText_iff.2)]
      rcases h.bind with ⟨value, _, h⟩
      exact ih h

theorem split_kind {result : Kind × Value} (h : d.Reads (split route n) result)
    (htarget : d.target? n = some (.mapping tag? entries))
    : ∃ n, d.entry? entries "kind" = some n ∧ d.name? n = some result.1.name := by
  unfold split at h
  rcases h.bind with ⟨m, hfollow, h⟩
  rw [hfollow.follow_eq htarget] at h
  simp only at h
  split at h
  . exact absurd h Document.not_reads_unfit_bind
  . exact splitEntries_kind h

/--
An entry that is read as a declaration, of which `g` is made in the end, has the kind of `g` at its
first key `kind`.
-/
theorem declaration_kind {declaration : Declaration} {nameSpace library : String} {g : Descriptor}
    (h : d.Reads (DeclarationFile.declaration types route n) declaration)
    (hsettle : declaration.settle nameSpace library = .ok g)
    (htarget : d.target? n = some (.mapping tag? entries))
    : ∃ n, d.entry? entries "kind" = some n ∧ d.name? n = some g.kind.name := by
  unfold DeclarationFile.declaration at h
  rcases h.bind with ⟨⟨kind, content⟩, hsplit, h⟩
  simp only at h
  split at h
  . next hdecode =>
    rw [h.pure] at hdecode
    rw [Declaration.settle_kind hdecode hsettle]
    exact split_kind hsplit htarget
  . exact absurd h Document.not_reads_unfit

theorem reads_sequenceOf {item : Route → Node → DocumentReader α} {as : List α} {items : List Node}
    (h : d.Reads (sequenceOf route n item) as) (htarget : d.target? n = some (.sequence tag? items))
    : List.Forall₂ (fun n a => ∃ route, d.Reads (item route n) a) items as := by
  unfold sequenceOf at h
  rcases h.bind with ⟨m, hfollow, h⟩
  rw [hfollow.follow_eq htarget] at h
  exact forall₂_of_zipIdx h.mapM fun n i a ha => ⟨_, ha⟩

variable {file file' : DeclarationFile} {result : DeclarationFile × List String}
  {seen : List String}

theorem set_kept (h : d.Reads (ofRoot.set file s route n) file') (hs : s ∈ fieldNames)
    (hne : s ≠ "types") : file'.declarations = file.declarations := by
  unfold ofRoot.set at h
  split at h
  . rcases h.bind with ⟨_, _, h⟩
    rw [← h.pure]
  . rcases h.bind with ⟨_, _, h⟩
    rw [← h.pure]
  . next hnameSpace hlibrary =>
    simp [fieldNames] at hs
    rcases hs with rfl | rfl | rfl
    . exact absurd rfl hnameSpace
    . exact absurd rfl hlibrary
    . exact absurd rfl hne

theorem set_types (h : d.Reads (ofRoot.set file "types" route n) file')
    : d.Reads (sequenceOf route n (declaration route)) file'.declarations := by
  unfold ofRoot.set at h
  rcases h.bind with ⟨declarations, hread, h⟩
  rw [← h.pure]
  exact hread

/--
Reading the entries of the root, when some names were seen: what the first entry does.
-/
theorem record_cons {e : Node × Node}
    (h : d.Reads (record route fieldNames ofRoot.set file seen (e :: entries)) result)
    : ∃ name, d.name? e.1 = some name
        ∧ (name ∉ fieldNames
            ∧ d.Reads (record route fieldNames ofRoot.set file seen entries) result
          ∨ name ∈ fieldNames ∧ name ∉ seen
            ∧ ∃ file' route', d.Reads (ofRoot.set file name route' e.2) file'
              ∧ d.Reads (record route fieldNames ofRoot.set file' (name :: seen) entries)
                result) := by
  unfold record at h
  rcases h.bind with ⟨name, hname, h⟩
  refine ⟨name, reads_textOf hname, ?_⟩
  split at h
  . next hunknown => exact .inl ⟨by simpa using hunknown, h⟩
  . next hknown =>
    split at h
    . exact absurd h Document.not_reads_unfit
    . next hnew =>
      rcases h.bind with ⟨file', hset, h⟩
      exact .inr ⟨by simpa using hknown, by simpa using hnew, file', _, hset, h⟩

theorem record_seen (h : d.Reads (record route fieldNames ofRoot.set file seen entries) result)
    (hseen : "types" ∈ seen) : result.1.declarations = file.declarations := by
  induction entries generalizing file seen with
  | nil => rw [← h.pure]
  | cons e entries ih =>
    rcases record_cons h with ⟨name, _, ⟨_, h⟩ | ⟨hknown, hnew, file', route', hset, h⟩⟩
    . exact ih h hseen
    . rw [ih h (List.mem_cons_of_mem _ hseen)]
      apply set_kept hset hknown
      rintro rfl
      exact hnew hseen

/--
All declarations stand at the first key that means `types`, if no key is only taken for it.
-/
theorem record_declarations
    (h : d.Reads (record route fieldNames ofRoot.set file seen entries) result)
    (hkeys : ∀ e ∈ entries, d.name? e.1 = some "types" → d.text? e.1 = some "types")
    : (d.entry? entries "types").elim (result.1.declarations = file.declarations) fun n =>
        ∃ route, d.Reads (sequenceOf route n (declaration route)) result.1.declarations := by
  induction entries generalizing file seen with
  | nil => rw [← h.pure]; rfl
  | cons e entries ih =>
    rw [List.forall_mem_cons] at hkeys
    rcases record_cons h with ⟨name, hname, hrest⟩
    unfold Document.entry?
    rw [List.find?_cons]
    by_cases htypes : name = "types"
    . rw [htypes] at hname hrest
      rw [decide_eq_true (hkeys.1 hname)]
      rcases hrest with ⟨hunknown, _⟩ | ⟨_, _, file', route', hset, h⟩
      . exact absurd hunknown (by decide)
      . rw [record_seen h List.mem_cons_self]
        exact ⟨route', set_types hset⟩
    . have htext : d.text? e.1 ≠ some "types" := by
        intro htext
        rw [Document.name?_of_text? htext] at hname
        exact htypes (Option.some.inj hname).symm
      rw [decide_eq_false htext]
      rcases hrest with ⟨_, h⟩ | ⟨hknown, _, file', route', hset, h⟩
      . exact ih h hkeys.2
      . rw [← set_kept hset hknown htypes]
        exact ih h hkeys.2

theorem ofRoot_declarations (h : d.Reads (ofRoot (some root)) file)
    (htarget : d.target? root = some (.mapping tag? entries))
    (hkeys : ∀ e ∈ entries, d.name? e.1 = some "types" → d.text? e.1 = some "types")
    : (d.entry? entries "types").elim (file.declarations = []) fun n =>
        ∃ route, d.Reads (sequenceOf route n (declaration route)) file.declarations := by
  unfold ofRoot at h
  rcases h.bind with ⟨es, hfields, h⟩
  have hes : es = entries := by
    unfold fields at hfields
    rcases hfields.bind with ⟨m, hfollow, hfields⟩
    rw [hfollow.follow_eq htarget] at hfields
    exact hfields.pure.symm
  rw [hes] at h
  rcases h.bind with ⟨result, hrecord, h⟩
  simp only at h
  split at h
  . rw [← h.pure]
    exact record_declarations hrecord hkeys
  . exact absurd h Document.not_reads_unfit

end DeclarationFile

end Interop
