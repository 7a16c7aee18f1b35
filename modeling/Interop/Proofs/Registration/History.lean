import Interop.Proofs.Dispatch.Slots
import Interop.Proofs.Registration.Registry
import Mathlib.Data.List.Infix

/-!
This module contains what a table holds after any changes: each declaration that was registered
since the types were last forgotten, at the place where it was registered first. Registering only
ever adds at the end, and what is refused leaves everything as it was.
-/

namespace Interop

/--
A name of `d` is there with another meaning.
-/
def Conflicts (ds : List Descriptor) (d : Descriptor) : Prop :=
  ∃ e ∈ ds, e.cname = d.cname ∧ e ≠ d

instance (ds : List Descriptor) (d : Descriptor) : Decidable (Conflicts ds d) :=
  inferInstanceAs (Decidable (∃ e ∈ ds, e.cname = d.cname ∧ e ≠ d))

namespace Change

/--
Those of `ds` that come before the first one in conflict with `known` or with another one.
-/
def accepted (known : List Descriptor) : List Descriptor → List Descriptor
  | [] => []
  | d :: ds => if Conflicts known d then [] else d :: accepted (known ++ [d]) ds

/--
The declarations that were registered, also repeatedly, since the types were last forgotten.
-/
def record (known : List Descriptor) : Change → List Descriptor
  | .register d => known ++ accepted known [d]
  | .registerAll ds => known ++ accepted known ds
  | .reset => Table.builtin.entries

def recordAll (known : List Descriptor) (changes : List Change) : List Descriptor :=
  changes.foldl record known

end Change

open Change (accepted record recordAll)

theorem eraseDups_of_nodup {ds : List Descriptor} (h : ds.Nodup) : ds.eraseDups = ds := by
  induction ds using List.reverseRecOn with
  | nil => rfl
  | append_singleton ds d ih =>
    rw [List.nodup_append] at h
    have hnew : d ∉ ds := fun hmem => h.2.2 d hmem d (by simp) rfl
    rw [eraseDups_concat, if_neg hnew, ih h.1]

section Accepting

variable {known ds : List Descriptor} {d : Descriptor}

theorem Consistent.concat (h : Consistent known) (hd : ¬ Conflicts known d)
    : Consistent (known ++ [d]) := by
  have hagree : ∀ e ∈ known, e.cname = d.cname → e = d := by
    intro e he hname
    by_contra hne
    exact hd ⟨e, he, hname, hne⟩
  intro a ha b hb hname
  rw [List.mem_append, List.mem_singleton] at ha hb
  rcases ha with ha | rfl <;> rcases hb with hb | rfl
  . exact h a ha b hb hname
  . exact hagree a ha hname
  . exact (hagree b hb hname.symm).symm
  . rfl

/--
No declaration that is accepted conflicts with another; the first one that is left out does.
-/
theorem accepted_spec (h : Consistent known) (ds : List Descriptor)
    : Consistent (known ++ accepted known ds)
        ∧ ∃ rest, ds = accepted known ds ++ rest
            ∧ ∀ d ∈ rest.head?, Conflicts (known ++ accepted known ds) d := by
  induction ds generalizing known with
  | nil => exact ⟨by simpa [accepted] using h, [], rfl, by simp⟩
  | cons d ds ih =>
    unfold accepted
    split
    . next hconflict =>
      rw [List.append_nil]
      exact ⟨h, d :: ds, rfl, by simpa using hconflict⟩
    . next hfree =>
      rw [List.append_cons]
      rcases ih (h.concat hfree) with ⟨hconsistent, rest, hrest, hfirst⟩
      exact ⟨hconsistent, rest, by rw [List.cons_append, ← hrest], hfirst⟩

end Accepting

namespace Table

variable {t : Table} {known : List Descriptor}

/--
The types of `t` are those of `known`, each at its first place.
-/
def Holds (t : Table) (known : List Descriptor) : Prop :=
  t.entries = known.eraseDups

theorem Holds.mem_iff (h : t.Holds known) (d : Descriptor) : d ∈ t.entries ↔ d ∈ known := by
  rw [h, List.mem_eraseDups]

theorem Holds.refused {d : Descriptor} (h : t.Holds known) (hd : Conflicts known d)
    : t.register d = .error (.duplicate d.cname) := by
  rcases hd with ⟨e, he, hname, hne⟩
  have hfind : t.find? d.cname = some e := hname ▸ find?_of_mem ((h.mem_iff e).2 he)
  exact register_of_other hfind hne

theorem Holds.registered {d : Descriptor} (h : t.Holds known) (hd : ¬ Conflicts known d)
    : ∃ t', t.register d = .ok t' ∧ t'.Holds (known ++ [d]) := by
  unfold Holds
  rw [eraseDups_concat, ← h]
  cases hfind : t.find? d.cname with
  | none =>
    have hnew : d ∉ known := by
      intro hmem
      exact find?_eq_none.1 hfind (List.mem_map_of_mem ((h.mem_iff d).2 hmem))
    rw [if_neg hnew]
    exact register_of_none hfind
  | some e =>
    have hsame : e = d := by
      by_contra hne
      exact hd ⟨e, (h.mem_iff e).1 (mem_of_find? hfind), cname_of_find? hfind, hne⟩
    rw [hsame] at hfind
    rw [if_pos ((h.mem_iff d).1 (mem_of_find? hfind))]
    exact ⟨t, register_of_same hfind, rfl⟩

theorem Holds.registerAll (h : t.Holds known) (ds : List Descriptor)
    : (t.registerAll ds).1.Holds (known ++ accepted known ds)
        ∧ ∀ rest, ds = accepted known ds ++ rest →
            (t.registerAll ds).2 = rest.head?.map fun d => .duplicate d.cname := by
  induction ds generalizing t known with
  | nil =>
    rw [accepted, List.append_nil]
    refine ⟨h, ?_⟩
    rintro rest rfl
    rfl
  | cons d ds ih =>
    rw [registerAll_cons, accepted]
    by_cases hconflict : Conflicts known d
    . rw [h.refused hconflict, if_pos hconflict, List.append_nil]
      refine ⟨h, ?_⟩
      rintro rest rfl
      rfl
    . rcases h.registered hconflict with ⟨t', hregister, hholds⟩
      rw [hregister, if_neg hconflict, List.append_cons]
      refine ⟨(ih hholds).1, ?_⟩
      intro rest hrest
      exact (ih hholds).2 rest (List.cons.inj hrest).2

theorem holds_entries (t : Table) : t.Holds t.entries :=
  (eraseDups_of_nodup (t.nodup.of_map _)).symm

theorem Holds.apply (h : t.Holds known) (c : Change) : (t.apply c).1.Holds (record known c) := by
  cases c with
  | register d =>
    rw [record, accepted]
    by_cases hconflict : Conflicts known d
    . rw [apply_register_error (h.refused hconflict), if_pos hconflict, List.append_nil]
      exact h
    . rcases h.registered hconflict with ⟨t', hregister, hholds⟩
      rw [apply_register_ok hregister, if_neg hconflict]
      exact hholds
  | registerAll ds => exact (h.registerAll ds).1
  | reset => exact builtin.holds_entries

theorem Holds.run (h : t.Holds known) (changes : List Change)
    : (t.run changes).Holds (recordAll known changes) := by
  induction changes generalizing t known with
  | nil => exact h
  | cons c changes ih => exact ih (h.apply c)

theorem register_extends {t' : Table} {d : Descriptor} (h : t.register d = .ok t')
    : t.entries <+: t'.entries := by
  rcases register_ok_cases h with ⟨_, hentries⟩ | ⟨_, rfl⟩
  . rw [hentries]
    exact List.prefix_append _ _
  . exact List.prefix_rfl

theorem registerAll_extends (t : Table) (ds : List Descriptor)
    : t.entries <+: (t.registerAll ds).1.entries := by
  induction ds generalizing t with
  | nil => exact List.prefix_rfl
  | cons d ds ih =>
    rw [registerAll_cons]
    split
    . next hregister => exact (register_extends hregister).trans (ih _)
    . exact List.prefix_rfl

theorem apply_extends {c : Change} (hc : c ≠ .reset) : t.entries <+: (t.apply c).1.entries := by
  cases c with
  | register d =>
    cases hregister : t.register d with
    | ok t' =>
      rw [apply_register_ok hregister]
      exact register_extends hregister
    | error e =>
      rw [apply_register_error hregister]
  | registerAll ds => exact t.registerAll_extends ds
  | reset => exact absurd rfl hc

theorem find?_of_extends {t' : Table} {name : String} {d : Descriptor}
    (h : t.entries <+: t'.entries) (hd : t.find? name = some d) : t'.find? name = some d := by
  rw [← cname_of_find? hd]
  exact find?_of_mem (h.subset (mem_of_find? hd))

end Table

namespace Registry

variable {r : Registry} {t : Table}

/--
The order has every name of the index once, and each type is found under its own name.
-/
structure Ordered (r : Registry) : Prop where
  nodup : r.order.Nodup
  mem_order : ∀ name, name ∈ r.order ↔ (r.find? name).isSome
  cname : ∀ name d, r.find? name = some d → d.cname = name
  size : r.size = r.order.length
  names : r.entries.map (·.cname) = r.order

theorem Lists.ordered (h : r.Lists t.entries) : r.Ordered where
  nodup := by
    rw [h.order]
    exact t.nodup
  mem_order name := by
    rw [h.order, h.find?_eq, ← not_iff_not, ← Table.find?_eq_none]
    simp
  cname name d hd := Table.cname_of_find? ((h.find?_eq name).symm.trans hd)
  size := by rw [h.size, h.order, List.length_map]
  names := by rw [h.entries_eq, h.order]

end Registry

/--
After any changes the index and the order agree, and the types are those registered since they were
last forgotten, in the order in which they came first. A change that forgets nothing only adds at
the end; a declaration is refused if and only if its name has another meaning, and of several
declarations those before the first such one are registered.
-/
theorem registry_history (builtins : Bool) (changes : List Change)
    : let r := (Registry.start builtins).run changes
      r.Ordered
        ∧ r.entries = (recordAll (Table.start builtins).entries changes).eraseDups
        ∧ (r.entries = ((Table.start builtins).run changes).entries
            ∧ (∀ name, r.find? name = ((Table.start builtins).run changes).find? name)
            ∧ ∀ c, (r.apply c).2 = (((Table.start builtins).run changes).apply c).2)
        ∧ (∀ c, c ≠ .reset →
            r.entries <+: (r.apply c).1.entries
              ∧ ∀ name d, r.find? name = some d → (r.apply c).1.find? name = some d)
        ∧ (∀ d e, r.find? d.cname = some e → e ≠ d →
            r.register d = (r, some (.duplicate d.cname)))
        ∧ (∀ d, (∀ e, r.find? d.cname = some e → e = d) →
            (r.register d).2 = none ∧ (r.register d).1.find? d.cname = some d)
        ∧ (∀ ds, ∃ before rest,
            ds = before ++ rest ∧ Consistent (r.entries ++ before)
              ∧ (∀ d ∈ rest.head?, Conflicts (r.entries ++ before) d)
              ∧ (r.registerAll ds).2 = (rest.head?.map fun d => .duplicate d.cname)
              ∧ (r.registerAll ds).1.entries = (r.entries ++ before).eraseDups)
        ∧ r.reset = .builtin := by
  intro r
  have hlists : r.Lists ((Table.start builtins).run changes).entries :=
    (Registry.start_lists builtins).run changes
  have hholds := (Table.start builtins).holds_entries.run changes
  generalize (Table.start builtins).run changes = t at hlists hholds ⊢
  refine ⟨hlists.ordered, hlists.entries_eq.trans hholds,
    ⟨hlists.entries_eq, hlists.find?_eq, fun c => (hlists.apply c).1⟩, ?_, ?_, ?_, ?_, rfl⟩
  . intro c hc
    have happlied := (hlists.apply c).2
    have hextends : t.entries <+: (t.apply c).1.entries := Table.apply_extends hc
    rw [hlists.entries_eq, happlied.entries_eq]
    refine ⟨hextends, ?_⟩
    intro name d hd
    rw [hlists.find?_eq] at hd
    rw [happlied.find?_eq]
    exact Table.find?_of_extends hextends hd
  . intro d e he hne
    rw [Registry.register_of_some he, if_neg hne]
  . intro d hd
    cases hfind : r.find? d.cname with
    | none =>
      rw [Registry.register_of_none hfind]
      exact ⟨rfl, Registry.find?_insert⟩
    | some e =>
      rw [Registry.register_of_some hfind, if_pos (hd e hfind), ← hd e hfind]
      exact ⟨rfl, hd e hfind ▸ hfind⟩
  . intro ds
    rcases accepted_spec t.consistent ds with ⟨hconsistent, rest, hrest, hfirst⟩
    rcases hlists.registerAll ds with ⟨hanswer, hafter⟩
    rcases t.holds_entries.registerAll ds with ⟨hentries, hanswer'⟩
    rw [hlists.entries_eq, hafter.entries_eq, hanswer]
    exact ⟨_, rest, hrest, hconsistent, hfirst, hanswer' rest hrest, hentries⟩

-- The second of three declarations gives a known name another meaning.
theorem registry_history_handle
    : let r := (Registry.start false).run
          [.register (.long ⟨"DemoHandle", false⟩),
            .registerAll [.long ⟨"DemoSize", true⟩, .long ⟨"DemoHandle", true⟩,
              .long ⟨"DemoTime", false⟩]]
      r.order = ["DemoHandle", "DemoSize"]
        ∧ r.register (.long ⟨"DemoHandle", true⟩) = (r, some (.duplicate "DemoHandle"))
        ∧ r.reset = .builtin := by
  intro r
  have hhistory := registry_history false
    [.register (.long ⟨"DemoHandle", false⟩),
      .registerAll [.long ⟨"DemoSize", true⟩, .long ⟨"DemoHandle", true⟩,
        .long ⟨"DemoTime", false⟩]]
  rcases hhistory with ⟨hordered, hentries, ⟨_, hfind, _⟩, _, hrefused, _, _, hreset⟩
  refine ⟨?_, ?_, hreset⟩
  . rw [← hordered.names, hentries]
    decide +kernel
  . apply hrefused _ (.long ⟨"DemoHandle", false⟩)
    . rw [hfind]
      decide +kernel
    . decide

end Interop
