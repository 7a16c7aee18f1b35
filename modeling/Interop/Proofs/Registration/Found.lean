import Interop.Proofs.Reference
import Interop.Proofs.Registration.History

/-!
This module contains under which names a registered type is found. A type is registered under its
name as it is written, while references are stripped before they are looked up: a name with
something to strip at its edges is one that no reference leads to.
-/

namespace Interop

open Reference (Bare core)

namespace Table

variable {t t' : Table} {d e : Descriptor} {ref : String} {changes : List Change}

theorem lookup_eq_ok : t.lookup ref = .ok d ↔ t.get? ref = some d := by
  unfold lookup
  split
  . next e he => simp [he]
  . next hnone => simp [hnone]

theorem lookup_iff : t.lookup ref = .ok d ↔ d ∈ t.entries ∧ core ref = d.cname := by
  rw [lookup_eq_ok, get?]
  constructor
  . exact fun hfind => ⟨mem_of_find? hfind, (cname_of_find? hfind).symm⟩
  . rintro ⟨hmem, hname⟩
    rw [hname]
    exact find?_of_mem hmem

theorem lookup_iff_of_mem (h : d ∈ t.entries) : t.lookup ref = .ok d ↔ core ref = d.cname := by
  rw [lookup_iff, and_iff_right h]

/--
A registered type is found at all if and only if it is found under its own name.
-/
theorem exists_lookup_iff (h : d ∈ t.entries)
    : (∃ ref, t.lookup ref = .ok d) ↔ Bare d.cname.toList := by
  rw [← Reference.core_eq_self_iff]
  constructor
  . rintro ⟨ref, href⟩
    rw [← (lookup_iff_of_mem h).1 href, Reference.core_core]
  . exact fun hname => ⟨d.cname, (lookup_iff_of_mem h).2 hname⟩

theorem run_extends (h : .reset ∉ changes) : t.entries <+: (t.run changes).entries := by
  induction changes generalizing t with
  | nil => exact List.prefix_rfl
  | cons c changes ih =>
    rw [List.mem_cons, not_or] at h
    exact (apply_extends (Ne.symm h.1)).trans (ih h.2)

/--
Two types that one reference identifies are the same if both names have nothing to strip.
-/
theorem eq_of_core_eq (hd : d ∈ t.entries) (he : e ∈ t.entries) (hcore : core d.cname = core e.cname)
    (hbare : Bare d.cname.toList) (hbare' : Bare e.cname.toList) : d = e := by
  rw [Reference.core_eq_self_iff.2 hbare, Reference.core_eq_self_iff.2 hbare'] at hcore
  exact t.consistent d hd e he hcore

theorem register_ok_iff
    : (∃ t', t.register d = .ok t') ↔ ∀ e, t.find? d.cname = some e → e = d := by
  cases hfind : t.find? d.cname with
  | none =>
    rcases register_of_none hfind with ⟨t', hregister, _⟩
    simp [hregister]
  | some e =>
    by_cases hsame : e = d
    . simp [register_of_same (hsame ▸ hfind), hsame]
    . simp [register_of_other hfind hsame, hsame]

theorem find?_of_register (h : t.register d = .ok t') {name : String} (hname : name ≠ d.cname)
    : t'.find? name = t.find? name := by
  rcases register_ok_cases h with ⟨_, hentries⟩ | ⟨_, rfl⟩
  . unfold find?
    rw [hentries, List.find?_append, List.find?_cons_of_neg (by simpa using hname.symm),
      List.find?_nil, Option.or_none]
  . rfl

/--
A type that was registered, whatever was registered later, is found under its own name if and only
if nothing is stripped from it; otherwise nothing leads to it, and its name leads to what is
registered as the rest of it. Of different types that one reference identifies no two have names of
which nothing is stripped, but both may be registered: whether a type is refused depends on its name
as written alone.
-/
theorem registered_found_iff (t t' : Table) (d : Descriptor) (h : t.register d = .ok t')
    (changes : List Change) (hchanges : .reset ∉ changes)
    : ((t'.run changes).lookup d.cname = .ok d ↔ Bare d.cname.toList)
        ∧ ((∃ ref, (t'.run changes).lookup ref = .ok d) ↔ Bare d.cname.toList)
        ∧ (∀ e, (t'.run changes).lookup d.cname = .ok e
            ↔ e ∈ (t'.run changes).entries ∧ core d.cname = e.cname)
        ∧ (∀ e ∈ (t'.run changes).entries, e ≠ d → core e.cname = core d.cname →
            ¬ (Bare e.cname.toList ∧ Bare d.cname.toList))
        ∧ ∀ e, e.cname ≠ d.cname →
            ((∃ t'', t'.register e = .ok t'') ↔ ∃ t'', t.register e = .ok t'') := by
  have hmem : d ∈ (t'.run changes).entries :=
    (run_extends hchanges).subset ((register_ok h).2 (.inr rfl))
  refine ⟨?_, exists_lookup_iff hmem, fun _ => lookup_iff, ?_, ?_⟩
  . rw [lookup_iff_of_mem hmem, Reference.core_eq_self_iff]
  . rintro e he hne hcore ⟨hbare, hbare'⟩
    exact hne (eq_of_core_eq he hmem hcore hbare hbare')
  . intro e hname
    rw [register_ok_iff, register_ok_iff, find?_of_register h hname]

def pointOf (cname : String) : Descriptor :=
  .struct {
    identity := { cname, name := "Point", nameSpace := "Demo", library := "libdemo.so.0" }
    fields := [{ name := "x", ctype := "gint", bits := none, hidden := false }]
    abiCheck := true
  }

def pointTable : Table where
  entries := [pointOf "DemoPoint"]
  nodup := by decide

-- The name that is registered later is another spelling of the first.
theorem registered_found_iff_point
    : Table.empty.register (pointOf "DemoPoint") = .ok pointTable
        ∧ .reset ∉ [Change.register (pointOf "const DemoPoint")]
        ∧ (pointTable.run [.register (pointOf "const DemoPoint")]).lookup "DemoPoint"
            = .ok (pointOf "DemoPoint")
        ∧ (pointTable.run [.register (pointOf "const DemoPoint")]).lookup "const DemoPoint"
            = .ok (pointOf "DemoPoint") := by
  have hregister : Table.empty.register (pointOf "DemoPoint") = .ok pointTable := by rfl
  have hchanges : .reset ∉ [Change.register (pointOf "const DemoPoint")] := by simp
  have hfound := registered_found_iff _ _ _ hregister _ hchanges
  have hlookup := hfound.1.2 (Reference.core_eq_self_iff.1 (by decide +kernel))
  refine ⟨hregister, hchanges, hlookup, ?_⟩
  have hcore : core "const DemoPoint" = core "DemoPoint" := by decide +kernel
  rw [lookup_eq_ok, get?, hcore]
  exact lookup_eq_ok.1 hlookup

/--
A pointer's name leads to what it points to, also where it was registered as a type.
-/
theorem not_registered_found
    : ¬ ∀ (t t' : Table) (d : Descriptor), t.register d = .ok t' → t'.lookup d.cname = .ok d := by
  intro h
  have hnew : Table.builtin.find? (pointOf "DemoPoint*").cname = none := by decide +kernel
  rcases register_of_none hnew with ⟨t', hregister, hentries⟩
  have hmem : pointOf "DemoPoint*" ∈ t'.entries := by
    rw [hentries]
    exact List.mem_concat_self
  have hcore := (lookup_iff_of_mem hmem).1 (h _ _ _ hregister)
  exact absurd hcore (by decide +kernel)

end Table

end Interop
