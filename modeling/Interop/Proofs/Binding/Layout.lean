import Interop.Proofs.Crossing.Coherence
import Interop.Proofs.Binding.Members
import Interop.Proofs.Binding.Known

/-!
This module contains the layout of managed structures: every field is planned at its own place, with
the type in which it crosses the boundary or in a unit of packed fields, and the probes ask for the
fields that the source declares.
-/

namespace Interop.Binding

/--
What the field after those of `before` puts into the layout.
-/
inductive Laid (before : List FieldPlan) (p : FieldPlan) : Prop where
  /-- A field of its own that managed code sees, of the type that crosses the boundary. -/
  | shown (hbits : p.field.bits = none) (hhidden : p.field.hidden = false)
      (hstorage : p.storage = .plain ∨ p.storage = .rawAddress)
      (hmember : p.layoutMember?
        = some ⟨true, p.use.crossing.boundary, Text.pascalCase p.field.name⟩)
  /-- A field of its own that is private, of the type that crosses the boundary. -/
  | covered (hbits : p.field.bits = none)
      (hstorage : p.storage = .accessor ∨ p.storage = .getter ∨ p.storage = .hidden)
      (hmember : p.layoutMember? = some ⟨false, p.use.crossing.boundary, "_" ++ p.field.name⟩)
  /-- The first member of a packing unit holds the whole unit. -/
  | leading {unit : Nat} (hbits : p.field.bits.isSome) (hstorage : p.storage = .bitfield unit true)
      (hnew : ∀ q ∈ before, ∀ first, q.storage ≠ .bitfield unit first)
      (hmember : p.layoutMember? = some ⟨false, "uint", s!"_bitfield{unit}"⟩)
  /-- Another member of a packing unit. -/
  | joining {unit : Nat} (hbits : p.field.bits.isSome) (hstorage : p.storage = .bitfield unit false)
      (hlead : ∃ q ∈ before, q.storage = .bitfield unit true) (hmember : p.layoutMember? = none)

/--
What neither crosses as it is nor has accessors is an address at the boundary.
-/
theorem boundary_of_accessors? {c : Crossing} (hdirect : c.isDirect = false)
    (haccessors : (c.accessors? "").isSome = false) : c.boundary = "IntPtr" := by
  cases c with
  | struct _ | address => cases hdirect
  | simple _ | long _ | enum _ => cases haccessors
  | _ => rfl

theorem laid_ofUse (before : List FieldPlan) {f : Field} (hbits : f.bits = none) (use : Use)
    : Laid before ⟨f, use, .ofUse f use⟩ := by
  generalize hstorage : Storage.ofUse f use = storage
  unfold Storage.ofUse at hstorage
  split at hstorage
  . subst hstorage
    exact .covered hbits (.inr (.inr rfl)) rfl
  have hhidden : f.hidden = false := by simpa using ‹¬ f.hidden = true›
  split at hstorage
  . next hdirect =>
    subst hstorage
    refine .shown hbits hhidden (.inl rfl) ?_
    dsimp only
    rw [Crossing.boundary_of_isDirect hdirect]
    rfl
  split at hstorage
  . subst hstorage
    exact .covered hbits (.inl rfl) rfl
  . next hdirect haccessors =>
    have haddress : use.crossing.boundary = "IntPtr" :=
      boundary_of_accessors? (by simpa using hdirect) (by simpa using haccessors)
    have hcases : storage = .getter ∨ storage = .rawAddress := by
      subst hstorage
      split
      . exact .inl rfl
      . exact .inl rfl
      . split
        . exact .inl rfl
        . exact .inr rfl
      . exact .inr rfl
    rcases hcases with rfl | rfl
    . refine .covered hbits (.inr (.inl rfl)) ?_
      dsimp only
      rw [haddress]
      rfl
    . refine .shown hbits hhidden (.inr rfl) ?_
      dsimp only
      rw [haddress]
      rfl

/--
The units of the fields of `before` are numbered up to the last one, which has its first member
there if it can take another one.
-/
structure Packed (before : List FieldPlan) (packing : Packing) : Prop where
  numbered : ∀ q ∈ before, ∀ unit first, q.storage = .bitfield unit first → unit ≤ packing.unit
  led : packing.used?.isSome → ∃ q ∈ before, q.storage = .bitfield packing.unit true

theorem ofUse_ne_bitfield (f : Field) (use : Use) {unit : Nat} {first : Bool}
    : Storage.ofUse f use ≠ .bitfield unit first := by
  unfold Storage.ofUse
  grind

section Fields

variable {before : List FieldPlan} {packing : Packing}

theorem Packed.append (h : Packed before packing) {p : FieldPlan} {last : Nat} {used? : Option Nat}
    (hlast : packing.unit ≤ last)
    (hunit : ∀ unit first, p.storage = .bitfield unit first → unit ≤ last)
    (hled : used?.isSome → ∃ q ∈ before ++ [p], q.storage = .bitfield last true)
    : Packed (before ++ [p]) ⟨last, used?⟩ := by
  refine ⟨?_, hled⟩
  intro q hq unit first hstorage
  rcases List.mem_append.1 hq with hq | hq
  . exact (h.numbered q hq unit first hstorage).trans hlast
  . obtain rfl : q = p := List.mem_singleton.1 hq
    exact hunit unit first hstorage

theorem Packed.leading (h : Packed before packing) {p : FieldPlan} {used? : Option Nat}
    (hstorage : p.storage = .bitfield (packing.unit + 1) true)
    : Packed (before ++ [p]) ⟨packing.unit + 1, used?⟩ := by
  refine h.append (Nat.le_succ _) ?_ fun _ => ⟨p, by simp, hstorage⟩
  intro unit first hunit
  rw [hstorage] at hunit
  cases hunit
  exact Nat.le_refl _

theorem place_laid (h : Packed before packing) {f : Field} {bits : Nat} (hbits : f.bits = some bits)
    (use : Use)
    : Laid before ⟨f, use, (packing.place bits).1⟩
      ∧ Packed (before ++ [⟨f, use, (packing.place bits).1⟩]) (packing.place bits).2 := by
  have hisSome : f.bits.isSome := by simp [hbits]
  have hnew : ∀ q ∈ before, ∀ first, q.storage ≠ .bitfield (packing.unit + 1) first := by
    intro q hq first hunit
    have := h.numbered q hq _ first hunit
    omega
  unfold Packing.place
  split
  . next used hused =>
    split
    . have hlead := h.led (by simp [hused])
      refine ⟨.joining hisSome rfl hlead rfl, h.append (Nat.le_refl _) ?_ ?_⟩
      . intro unit first hunit
        cases hunit
        exact Nat.le_refl _
      . intro _
        rcases hlead with ⟨q, hq, hunit⟩
        exact ⟨q, List.mem_append_left _ hq, hunit⟩
    . exact ⟨.leading hisSome rfl hnew rfl, h.leading rfl⟩
  . exact ⟨.leading hisSome rfl hnew rfl, h.leading rfl⟩

theorem ofUse_laid (h : Packed before packing) {f : Field} (hbits : f.bits = none) (use : Use)
    : Laid before ⟨f, use, .ofUse f use⟩
      ∧ Packed (before ++ [⟨f, use, .ofUse f use⟩]) ⟨packing.unit, none⟩ := by
  refine ⟨laid_ofUse before hbits use, h.append (Nat.le_refl _) ?_ ?_⟩
  . intro unit first hunit
    exact absurd hunit (ofUse_ne_bitfield f use)
  . intro hused
    cases hused

theorem planFields_cons (h : Packed before packing) (field : Field × Use)
    (rest : List (Field × Use))
    : ∃ (p : FieldPlan) (packing' : Packing),
        planFields packing (field :: rest) = p :: planFields packing' rest
          ∧ (p.field, p.use) = field ∧ Laid before p ∧ Packed (before ++ [p]) packing' := by
  rcases field with ⟨f, use⟩
  cases hbits : f.bits with
  | none =>
    refine ⟨⟨f, use, .ofUse f use⟩, ⟨packing.unit, none⟩, ?_, rfl, ofUse_laid h hbits use⟩
    simp only [planFields, hbits]
  | some bits =>
    refine ⟨⟨f, use, (packing.place bits).1⟩, (packing.place bits).2, ?_, rfl,
      place_laid h hbits use⟩
    simp only [planFields, hbits]

-- What is laid out so far is the part of the invariant that grows along the fields.
theorem planFields_laid (h : Packed before packing) (fields : List (Field × Use))
    : (planFields packing fields).map (fun p => (p.field, p.use)) = fields
      ∧ ∀ (k : Nat) (p : FieldPlan), (planFields packing fields)[k]? = some p →
          Laid (before ++ (planFields packing fields).take k) p := by
  induction fields generalizing before packing with
  | nil => exact ⟨rfl, by simp [planFields]⟩
  | cons field rest ih =>
    rcases planFields_cons h field rest with ⟨p, packing', hplan, hfield, hlaid, hnext⟩
    rcases ih hnext with ⟨hfields, hrest⟩
    rw [hplan]
    refine ⟨by rw [List.map_cons, hfield, hfields], ?_⟩
    intro k q hq
    cases k with
    | zero =>
      obtain rfl : p = q := Option.some.inj hq
      rw [List.take_zero, List.append_nil]
      exact hlaid
    | succ k =>
      rw [List.take_succ_cons, ← List.singleton_append, ← List.append_assoc]
      exact hrest k q hq

end Fields

variable {t : Table} {s : StructType} {plans : List FieldPlan}

theorem resolveFields_eq_ok {fs : List Field} {fields : List (Field × Use)}
    (h : resolveFields t s fs = .ok fields)
    : fields.map (·.1) = fs ∧ ∀ field ∈ fields, t.resolve field.1.ctype = .ok field.2 := by
  induction fs generalizing fields with
  | nil =>
    rw [← Except.ok.inj h]
    simp
  | cons f fs ih =>
    unfold resolveFields at h
    rcases Fault.bind_eq_ok.1 h with ⟨use, huse, h⟩
    rcases Fault.bind_eq_ok.1 h with ⟨rest, hrest, h⟩
    rw [← Except.ok.inj h]
    rcases ih hrest with ⟨hfields, hresolve⟩
    refine ⟨by rw [List.map_cons, hfields], ?_⟩
    rw [List.forall_mem_cons]
    exact ⟨resolve_eq_ok.1 (within_eq_ok.1 huse), hresolve⟩

/--
A structure is planned field by field, each with the use that its type resolves to.
-/
theorem plan_laid (h : plan t s = .ok plans)
    : plans.map (·.field) = s.fields
      ∧ ∀ (k : Nat) (p : FieldPlan), plans[k]? = some p →
          t.resolve p.field.ctype = .ok p.use ∧ Laid (plans.take k) p := by
  unfold plan at h
  cases hfields : resolveFields t s s.fields with
  | error fault => simp [hfields, Except.map] at h
  | ok fields =>
    rw [hfields] at h
    rcases resolveFields_eq_ok hfields with ⟨hsame, hresolve⟩
    have hstart : Packed [] ⟨0, none⟩ := ⟨by simp, by simp⟩
    rcases planFields_laid hstart fields with ⟨hmap, hlaid⟩
    rw [Except.ok.inj h] at hmap hlaid
    constructor
    . rw [← hsame, ← hmap, List.map_map]
      rfl
    . intro k p hp
      refine ⟨hresolve (p.field, p.use) ?_, hlaid k p hp⟩
      rw [← hmap]
      exact List.mem_map_of_mem (List.mem_of_getElem? hp)

/--
The line of the probes about a field: its place in native memory, and the place of the managed field
that was declared for it.
-/
def offsetEntry (s : StructType) (f : Field) (m : LayoutMember) : ProbeEntry where
  key := s.identity.cname ++ "." ++ f.name
  native := "offsetof (" ++ s.identity.cname ++ ", " ++ f.name ++ ")"
  managed := "Marshal.OffsetOf<" ++ s.identity.qualified ++ "> (\"" ++ m.name ++ "\")"

/--
The line that prints the entry in native code.
-/
def nativeReport (e : ProbeEntry) : String :=
  "\tprintf (\"\\\"" ++ e.key ++ "\\\": \\\"%zu\\\"\\n\", " ++ e.native ++ ");"

/--
The line that prints the entry in managed code.
-/
def managedReport (e : ProbeEntry) : String :=
  "\t\t\tConsole.WriteLine (\"\\\"" ++ e.key ++ "\\\": \\\"\" + " ++ e.managed
    ++ " + \"\\\"\");"

section Offsets

variable {before : List FieldPlan} {p : FieldPlan}

theorem Laid.isBitfield (h : Laid before p) : p.storage.isBitfield = p.field.bits.isSome := by
  cases h with
  | shown hbits _ hstorage =>
    rw [hbits]
    rcases hstorage with hstorage | hstorage <;> rw [hstorage] <;> rfl
  | covered hbits hstorage =>
    rw [hbits]
    rcases hstorage with hstorage | hstorage | hstorage <;> rw [hstorage] <;> rfl
  | leading hbits hstorage | joining hbits hstorage =>
    rw [hbits, hstorage]
    rfl

theorem layoutName?_of_layoutMember? {m : LayoutMember} (h : p.layoutMember? = some m)
    : p.layoutName? = some m.name := by
  unfold FieldPlan.layoutMember? at h
  rcases Option.map_eq_some_iff.1 h with ⟨name, hname, rfl⟩
  rw [hname]
  cases p.storage <;> rfl

theorem Laid.offsetProbe?_eq_some (h : Laid before p) (hbits : p.field.bits = none)
    : ∃ m, p.layoutMember? = some m ∧ offsetProbe? s p = some (offsetEntry s p.field m) := by
  have hmember : ∃ m, p.layoutMember? = some m := by
    cases h with
    | shown _ _ _ hmember | covered _ _ hmember => exact ⟨_, hmember⟩
    | leading hisSome | joining hisSome => simp [hbits] at hisSome
  rcases hmember with ⟨m, hm⟩
  unfold offsetProbe?
  rw [h.isBitfield, hbits, layoutName?_of_layoutMember? hm]
  exact ⟨m, hm, rfl⟩

theorem Laid.offsetProbe?_eq_none (h : Laid before p) (hbits : p.field.bits ≠ none)
    : offsetProbe? s p = none := by
  unfold offsetProbe?
  rw [h.isBitfield, Option.isSome_iff_ne_none.2 hbits]
  rfl

end Offsets

theorem offsets_laid (h : ∀ p ∈ plans, ∃ before, Laid before p)
    : List.Forall₂ (fun p e => ∃ m, p.layoutMember? = some m ∧ e = offsetEntry s p.field m)
        (plans.filter (·.field.bits = none)) (plans.filterMap (offsetProbe? s)) := by
  induction plans with
  | nil => exact .nil
  | cons p plans ih =>
    rw [List.forall_mem_cons] at h
    rcases h with ⟨⟨before, hlaid⟩, hrest⟩
    by_cases hbits : p.field.bits = none
    . rcases hlaid.offsetProbe?_eq_some hbits with ⟨m, hm, he⟩
      rw [List.filter_cons, if_pos (by simpa using hbits), List.filterMap_cons_some he]
      exact .cons ⟨m, hm, rfl⟩ (ih hrest)
    . rw [List.filter_cons, if_neg (by simpa using hbits),
        List.filterMap_cons_none (hlaid.offsetProbe?_eq_none hbits)]
      exact ih hrest

theorem bind_struct (gluelib : String) (h : plan t s = .ok plans)
    : ∃ e, bind t gluelib (.struct s) = .ok e
        ∧ e.managed? = some ⟨s.identity.name, Source.text (structSource gluelib s plans)⟩
        ∧ e.probe? = if s.abiCheck then some (.ofEntries (structEntries s plans)) else none := by
  unfold bind sources bindStruct probe? Descriptor.abiCheck
  simp only [h]
  cases s.abiCheck with
  | true => exact ⟨_, rfl, rfl, rfl⟩
  | false => exact ⟨_, rfl, rfl, rfl⟩

/--
A structure whose field types are known is bound to a source that declares its fields in order,
each with the type in which it crosses the boundary, and the unit of packed fields where the first
of them stands. The probes print the size and then the place of every other field, in the same order
on both sides, and the managed one asks for the field that was declared.
-/
theorem bind_layout {t : Table} {s : StructType} (gluelib : String)
    (h : t.Knows (s.fields.map (·.ctype)))
    : ∃ (plans : List FieldPlan) (body : Source.Lines) (e : Emitted),
        plan t s = .ok plans
          ∧ plans.map (·.field) = s.fields
          ∧ (∀ (k : Nat) (p : FieldPlan), plans[k]? = some p →
              t.resolve p.field.ctype = .ok p.use ∧ Laid (plans.take k) p)
          ∧ StructBody body (plans.filterMap (·.layoutMember?))
          ∧ bind t gluelib (.struct s) = .ok e
          ∧ e.managed? = some ⟨s.identity.name, Source.text (structFrame s body)⟩
          ∧ (s.abiCheck = true →
              ∃ size offsets,
                e.probe? = some ⟨Source.text ((size :: offsets).map nativeReport),
                    Source.text ((size :: offsets).map managedReport)⟩
                  ∧ size = ⟨"sizeof(" ++ s.identity.cname ++ ")",
                      "sizeof (" ++ s.identity.cname ++ ")",
                      "Marshal.SizeOf<" ++ s.identity.qualified ++ "> ()"⟩
                  ∧ List.Forall₂
                      (fun p e => ∃ m, p.layoutMember? = some m ∧ e = offsetEntry s p.field m)
                      (plans.filter (·.field.bits = none)) offsets) := by
  rcases plan_ok h with ⟨plans, hplans⟩
  rcases plan_laid hplans with ⟨hfields, hlaid⟩
  rcases structSource_body gluelib s plans with ⟨body, hsource, hbody⟩
  rcases bind_struct gluelib hplans with ⟨e, he, hmanaged, hprobe⟩
  rw [hsource] at hmanaged
  refine ⟨plans, body, e, hplans, hfields, hlaid, hbody, he, hmanaged, ?_⟩
  intro habi
  rw [if_pos habi] at hprobe
  refine ⟨_, _, hprobe, rfl, offsets_laid ?_⟩
  intro p hp
  rcases List.mem_iff_getElem?.1 hp with ⟨k, hk⟩
  exact ⟨_, (hlaid k p hk).2⟩

/--
A structure with a text, three packed fields of which the first two do not fit into one unit, a
character that is converted, an address of its own type and a hidden field.
-/
def node : StructType where
  identity := ⟨"DemoNode", "Node", "Demo", "libdemo"⟩
  fields :=
    [⟨"label", "const gchar*", none, false⟩, ⟨"kind", "guint", some 20, false⟩,
     ⟨"state", "guint", some 20, false⟩, ⟨"mark", "guint", some 4, true⟩,
     ⟨"sign", "gunichar", none, false⟩, ⟨"next", "DemoNode*", none, false⟩,
     ⟨"spare", "guint8", none, true⟩]
  abiCheck := true

def nodeTable : Table where
  entries := Table.builtin.entries ++ [.struct node]
  nodup := by decide +kernel

def nodeMembers : List LayoutMember :=
  [⟨false, "IntPtr", "_label"⟩, ⟨false, "uint", "_bitfield1"⟩, ⟨false, "uint", "_bitfield2"⟩,
   ⟨false, "uint", "_sign"⟩, ⟨false, "IntPtr", "_next"⟩, ⟨false, "byte", "_spare"⟩]

theorem bind_layout_node
    : nodeTable.Knows (node.fields.map (·.ctype)) ∧ node.abiCheck = true
        ∧ ∃ (body : Source.Lines) (e : Emitted) (offsets : List ProbeEntry),
            StructBody body nodeMembers
              ∧ bind nodeTable "demoglue" (.struct node) = .ok e
              ∧ e.managed? = some ⟨"Node", Source.text (structFrame node body)⟩
              ∧ e.probe? = some ⟨Source.text (offsets.map nativeReport),
                  Source.text (offsets.map managedReport)⟩
              ∧ offsets.length = 5 := by
  have hknown : nodeTable.Knows (node.fields.map (·.ctype)) := by
    unfold Table.Knows
    simp only [← Option.isSome_iff_exists]
    decide +kernel
  have hplanned
      : (plan nodeTable node).toOption.map (·.filterMap (·.layoutMember?)) = some nodeMembers := by
    decide +kernel
  rcases bind_layout "demoglue" hknown with
    ⟨plans, body, e, hplans, hfields, _, hbody, he, hmanaged, hprobe⟩
  rcases hprobe rfl with ⟨size, offsets, hentries, _, hoffsets⟩
  rw [hplans] at hplanned
  have hmembers : plans.filterMap (·.layoutMember?) = nodeMembers := Option.some.inj hplanned
  rw [hmembers] at hbody
  refine ⟨hknown, rfl, body, e, size :: offsets, hbody, he, hmanaged, hentries, ?_⟩
  have hcount : (plans.filter (·.field.bits = none)).length
      = ((plans.map (·.field)).filter (·.bits = none)).length := by
    rw [List.filter_map, List.length_map]
    rfl
  rw [List.length_cons, ← hoffsets.length_eq, hcount, hfields]
  rfl

end Interop.Binding
