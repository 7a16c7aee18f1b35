import Interop.Proofs.Dispatch.Lineage
import Interop.Proofs.Dispatch.Mappers
import Interop.Proofs.Registration
import Mathlib.Data.List.Induction

/-!
This module contains the slots of an object: those of its parent in their order, then the ones that
it declares first. Every slot belongs to the most derived object that declares it.
-/

namespace Interop

open Relation

def ObjectType.slotNames (o : ObjectType) : List String :=
  o.virtualMethods.map (·.name)

def DispatchTable.slotNames (d : DispatchTable) : List String :=
  d.slots.map (·.name)

section Declaring

variable {slots declared : List Slot} {s slot : Slot}

theorem names_declare (slots : List Slot) (slot : Slot)
    : (declare slots slot).map (·.name)
        = if slot.name ∈ slots.map (·.name) then slots.map (·.name)
          else slots.map (·.name) ++ [slot.name] := by
  have hnames : (slots.map fun s =>
      if s.name = slot.name then { s with declaredBy := slot.declaredBy } else s).map (·.name)
        = slots.map (·.name) := by
    rw [List.map_map]
    apply List.map_congr_left
    intro s _
    rw [Function.comp_apply]
    split
    . rfl
    . rfl
  have hany : slots.any (·.name = slot.name) = true ↔ slot.name ∈ slots.map (·.name) := by
    simp only [List.any_eq_true, List.mem_map, decide_eq_true_eq]
  unfold declare
  by_cases hmem : slot.name ∈ slots.map (·.name)
  . rw [if_pos (hany.2 hmem), if_pos hmem, hnames]
  . rw [if_neg (mt hany.1 hmem), if_neg hmem, List.map_append]
    rfl

/--
A declaration takes the place of the one before it of the same name.
-/
theorem mem_declare : s ∈ declare slots slot ↔ s = slot ∨ s ∈ slots ∧ s.name ≠ slot.name := by
  have hrenamed {s' : Slot} (h : s'.name = slot.name)
      : { s' with declaredBy := slot.declaredBy } = slot := by
    rcases slot with ⟨name, declaredBy⟩
    rw [Slot.mk.injEq]
    exact ⟨h, rfl⟩
  unfold declare
  split
  . next hany =>
    rw [List.mem_map]
    constructor
    . rintro ⟨s', hs', rfl⟩
      split
      . next hname => exact .inl (hrenamed hname)
      . next hname => exact .inr ⟨hs', hname⟩
    . rintro (rfl | ⟨hs, hname⟩)
      . rcases List.any_eq_true.1 hany with ⟨s', hs', hname⟩
        have hname : s'.name = s.name := of_decide_eq_true hname
        refine ⟨s', hs', ?_⟩
        rw [if_pos hname, hrenamed hname]
      . exact ⟨s, hs, if_neg hname⟩
  . next hany =>
    have hnone : ∀ s' ∈ slots, s'.name ≠ slot.name := by simpa using hany
    rw [List.mem_append, List.mem_singleton]
    constructor
    . rintro (hs | hs)
      . exact .inr ⟨hs, hnone s hs⟩
      . exact .inl hs
    . rintro (hs | ⟨hs, _⟩)
      . exact .inr hs
      . exact .inl hs

theorem eraseDups_concat {α : Type} [BEq α] [LawfulBEq α] (as : List α) (a : α)
    : (as ++ [a]).eraseDups = if a ∈ as then as.eraseDups else as.eraseDups ++ [a] := by
  rw [List.eraseDups_append]
  unfold List.removeAll
  by_cases hmem : a ∈ as
  . rw [if_pos hmem, List.filter_cons_of_neg (by simpa using hmem)]
    exact List.append_nil _
  . rw [if_neg hmem, List.filter_cons_of_pos (by simpa using hmem)]
    rfl

-- From the right, since a name that is declared again keeps its first place.
theorem names_foldl_declare (declared : List Slot)
    : (declared.foldl declare []).map (·.name) = (declared.map (·.name)).eraseDups := by
  induction declared using List.reverseRecOn with
  | nil => rfl
  | append_singleton declared slot ih =>
    rw [List.foldl_concat, names_declare, ih, List.map_append, List.map_singleton,
      eraseDups_concat]
    simp only [List.mem_eraseDups]

/--
If all that is declared has one declarer, it does not matter what is declared twice.
-/
theorem mem_foldl_declare {declarer : String} (h : ∀ d ∈ declared, d.declaredBy = declarer)
    : s ∈ declared.foldl declare slots
        ↔
      s ∈ declared ∨ s ∈ slots ∧ s.name ∉ declared.map (·.name) := by
  induction declared generalizing slots with
  | nil => simp
  | cons slot declared ih =>
    rw [List.forall_mem_cons] at h
    rw [List.foldl_cons, ih h.2, mem_declare, List.mem_cons, List.map_cons, List.mem_cons, not_or]
    by_cases hlater : s.name ∈ declared.map (·.name)
    -- Declared again below, the slot is the same one, since there is no other declarer.
    . have hmem : s = slot → s ∈ declared := by
        rintro rfl
        rcases List.mem_map.1 hlater with ⟨d, hd, hname⟩
        have hsame : d = s := by
          rcases d with ⟨name, declaredBy⟩
          rcases s with ⟨name', declaredBy'⟩
          rw [Slot.mk.injEq]
          exact ⟨hname, (h.2 _ hd).trans h.1.symm⟩
        exact hsame ▸ hd
      simp only [hlater, not_true, and_false, or_false]
      exact ⟨.inr, fun hs => hs.elim hmem id⟩
    . simp only [hlater, not_false_eq_true, and_true]
      rw [or_left_comm, or_assoc]

end Declaring

section Objects

variable {t : Table} {o p : ObjectType} {s : Slot}

theorem ObjectType.names_declaredSlots (o : ObjectType)
    : o.declaredSlots.map (·.name) = o.slotNames := by
  unfold declaredSlots slotNames
  rw [List.map_map]
  rfl

theorem names_chainSlots (chain : List ObjectType)
    : (chainSlots chain).map (·.name) = (chain.flatMap (·.slotNames)).eraseDups := by
  unfold chainSlots
  rw [names_foldl_declare, List.map_flatMap]
  simp only [ObjectType.names_declaredSlots]

theorem mem_chainSlots_concat {chain : List ObjectType}
    : s ∈ chainSlots (chain ++ [o])
        ↔
      (s.name ∈ o.slotNames ∧ s.declaredBy = o.identity.cname)
        ∨ s ∈ chainSlots chain ∧ s.name ∉ o.slotNames := by
  have hdeclarer : ∀ d ∈ o.declaredSlots, d.declaredBy = o.identity.cname := by
    simp [ObjectType.declaredSlots]
  have hdeclared : s ∈ o.declaredSlots
      ↔ s.name ∈ o.slotNames ∧ s.declaredBy = o.identity.cname := by
    rcases s with ⟨name, declaredBy⟩
    simp only [ObjectType.declaredSlots, ObjectType.slotNames, List.mem_map, Slot.mk.injEq]
    constructor
    . rintro ⟨v, hv, hname, hby⟩
      exact ⟨⟨v, hv, hname⟩, hby.symm⟩
    . rintro ⟨⟨v, hv, hname⟩, hby⟩
      exact ⟨v, hv, hname, hby.symm⟩
  unfold chainSlots
  rw [List.flatMap_append, List.flatMap_singleton, List.foldl_append,
    mem_foldl_declare hdeclarer, hdeclared, o.names_declaredSlots]

namespace Table

/--
Of the objects from `o` up that declare a slot of this name, `a` is the nearest to `o`.
-/
structure MostDerived (t : Table) (o : ObjectType) (name : String) (a : ObjectType) : Prop where
  derives : ReflTransGen t.Derives o a
  declares : name ∈ a.slotNames
  nearest : ∀ b, ReflTransGen t.Derives o b → name ∈ b.slotNames → ReflTransGen t.Derives a b

theorem MostDerived.self {name : String} (h : name ∈ o.slotNames) : t.MostDerived o name o where
  derives := .refl
  declares := h
  nearest _ hb _ := hb

theorem MostDerived.parent {name : String} {a : ObjectType} (h : t.MostDerived p name a)
    (hp : t.Derives o p) (hnew : name ∉ o.slotNames) : t.MostDerived o name a where
  derives := .head hp h.derives
  declares := h.declares
  nearest b hb hname := by
    rcases ReflTransGen.cases_head hb with rfl | ⟨p', hp', hb⟩
    . exact absurd hname hnew
    . obtain rfl := hp.unique hp'
      exact h.nearest b hb hname

/--
The slots are those that `o` and its ancestors declare, each under the most derived declarer, in the
order of their first declarations from the root down.
-/
structure Dispatches (t : Table) (o : ObjectType) (d : DispatchTable) : Prop where
  nodup : d.slotNames.Nodup
  mem_iff : ∀ name, name ∈ d.slotNames ↔ ∃ a, ReflTransGen t.Derives o a ∧ name ∈ a.slotNames
  ordered : ∃ above, t.Chain o above ∧ d.depth = above.length
    ∧ d.slotNames = ((o :: above).reverse.flatMap (·.slotNames)).eraseDups
  declared : ∀ s ∈ d.slots, ∃ a, t.MostDerived o s.name a ∧ s.declaredBy = a.identity.cname

theorem mem_slots_of_derives (h : t.Acyclic o) (hp : t.Derives o p)
    : s ∈ (t.dispatchTable o).slots
        ↔
      (s.name ∈ o.slotNames ∧ s.declaredBy = o.identity.cname)
        ∨ s ∈ (t.dispatchTable p).slots ∧ s.name ∉ o.slotNames := by
  unfold Table.dispatchTable
  dsimp only
  rw [h.lineage_of_derives hp, List.reverse_cons, mem_chainSlots_concat]

theorem Chain.exists_mostDerived {above : List ObjectType} (hchain : t.Chain o above)
    (h : t.Acyclic o) (hs : s ∈ (t.dispatchTable o).slots)
    : ∃ a, t.MostDerived o s.name a ∧ s.declaredBy = a.identity.cname := by
  induction hchain with
  | @root o hroot =>
    have hchain : (t.lineage o).ancestors = [] := h.chain.unique (.root hroot)
    unfold Table.dispatchTable at hs
    dsimp only at hs
    rw [hchain, List.reverse_nil, mem_chainSlots_concat] at hs
    rcases hs with ⟨hname, hby⟩ | ⟨hs, _⟩
    . exact ⟨o, .self hname, hby⟩
    . cases hs
  | @derived o p _ hp _ ih =>
    rcases (mem_slots_of_derives h hp).1 hs with ⟨hname, hby⟩ | ⟨hs, hnew⟩
    . exact ⟨o, .self hname, hby⟩
    . rcases ih (h.parent hp) hs with ⟨a, ha, hby⟩
      exact ⟨a, ha.parent hp hnew, hby⟩

theorem slotNames_dispatchTable (t : Table) (o : ObjectType)
    : (t.dispatchTable o).slotNames
        = (((o :: (t.lineage o).ancestors).reverse.flatMap (·.slotNames))).eraseDups := by
  rw [List.reverse_cons]
  exact names_chainSlots _

theorem Acyclic.dispatches (h : t.Acyclic o) : t.Dispatches o (t.dispatchTable o) where
  nodup := by
    rw [slotNames_dispatchTable]
    exact nodup_eraseDups _
  mem_iff name := by
    rw [slotNames_dispatchTable, List.mem_eraseDups, List.mem_flatMap]
    simp only [List.mem_reverse, List.mem_cons, h.chain.mem_iff, reflTransGen_iff_eq_or_transGen]
  ordered := ⟨(t.lineage o).ancestors, h.chain, rfl, t.slotNames_dispatchTable o⟩
  declared _ hs := h.chain.exists_mostDerived h hs

/--
An object whose inheritance is not cyclic begins with the slots of its parent and lies one deeper.
What it does not declare itself it takes over with the declarer, and the order in which types were
registered does not show.
-/
theorem dispatchTable_of_derives (t : Table) (o p : ObjectType) (hacyclic : t.Acyclic o)
    (hparent : t.Derives o p)
    : (t.dispatchTable p).slotNames <+: (t.dispatchTable o).slotNames
        ∧ (t.dispatchTable o).depth = (t.dispatchTable p).depth + 1
        ∧ t.Dispatches o (t.dispatchTable o)
        ∧ (∀ s ∈ (t.dispatchTable p).slots, ∀ s' ∈ (t.dispatchTable o).slots, s'.name = s.name →
            s'.declaredBy ≠ s.declaredBy → s.name ∈ o.slotNames)
        ∧ ∀ t' : Table, t'.entries.Perm t.entries → t'.dispatchTable o = t.dispatchTable o := by
  have hlineage := hacyclic.lineage_of_derives hparent
  refine ⟨?_, ?_, hacyclic.dispatches, ?_, ?_⟩
  . rw [slotNames_dispatchTable t o, hlineage, List.reverse_cons, List.flatMap_append,
      List.eraseDups_append, ← slotNames_dispatchTable]
    exact List.prefix_append _ _
  . exact congrArg List.length hlineage
  . intro s hs s' hs' hname hby
    by_contra hnew
    have hkept : s ∈ (t.dispatchTable o).slots :=
      (mem_slots_of_derives hacyclic hparent).2 (.inr ⟨hs, hnew⟩)
    have hsame := List.inj_on_of_nodup_map hacyclic.dispatches.nodup hs' hkept hname
    exact hby (congrArg Slot.declaredBy hsame)
  . intro t' hperm
    exact (alike_of_mem_iff fun _ => hperm.mem_iff).dispatchTable o

def objectOf (nameSpace name : String) (parent? : Option String) (slots : List String)
    : ObjectType where
  identity := ⟨nameSpace ++ name, name, nameSpace, "libdemo"⟩
  parent? := parent?
  getType? := none
  constructors := []
  methods := []
  virtualMethods := slots.map fun slot => ⟨slot, ⟨"void", []⟩⟩

def baseObject : ObjectType :=
  objectOf "Core" "Base" none ["dispose", "draw"]

def widgetObject : ObjectType :=
  objectOf "Demo" "Widget" (some "const CoreBase *") ["resize", "draw", "resize"]

def buttonObject : ObjectType :=
  objectOf "Demo" "Button" (some "DemoWidget") ["click", "dispose"]

/--
Objects in two namespaces, registered before those that they derive from.
-/
def buttonTable : Table where
  entries := [.object buttonObject, .object widgetObject, .object baseObject]
  nodup := by decide

theorem derives_button : buttonTable.Derives buttonObject widgetObject :=
  ⟨"DemoWidget", rfl, by decide +kernel⟩

theorem derives_widget : buttonTable.Derives widgetObject baseObject :=
  ⟨"const CoreBase *", rfl, by decide +kernel⟩

theorem chain_button : buttonTable.Chain buttonObject [widgetObject, baseObject] := by
  refine .derived derives_button (.derived derives_widget (.root ?_))
  rintro p ⟨parent, hparent, _⟩
  cases hparent

theorem dispatchTable_of_derives_button
    : buttonTable.Acyclic buttonObject ∧ buttonTable.Derives buttonObject widgetObject
        ∧ (buttonTable.dispatchTable widgetObject).slotNames = ["dispose", "draw", "resize"]
        ∧ (buttonTable.dispatchTable widgetObject).slotNames
            <+: (buttonTable.dispatchTable buttonObject).slotNames
        ∧ (buttonTable.dispatchTable buttonObject).slots
            = [⟨"dispose", "DemoButton"⟩, ⟨"draw", "DemoWidget"⟩, ⟨"resize", "DemoWidget"⟩,
               ⟨"click", "DemoButton"⟩] := by
  have hacyclic : buttonTable.Acyclic buttonObject := chain_button.acyclic (by decide)
  have h := dispatchTable_of_derives buttonTable buttonObject widgetObject hacyclic derives_button
  exact ⟨hacyclic, derives_button, by decide +kernel, h.1, by decide +kernel⟩

end Table

end Objects

end Interop
