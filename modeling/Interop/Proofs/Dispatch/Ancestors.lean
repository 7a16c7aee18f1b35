import Interop.Proofs.Dispatch.Lineage
import Interop.Proofs.Dispatch.Mappers
import Mathlib.Data.List.Chain
import Mathlib.Data.List.Perm.Subperm

/-!
This module contains the ancestors of any object, also of one whose parents lead back to it. From
parent to parent no name is met twice, so there are no more ancestors than registered objects, and
the way up ends only where it has to.
-/

namespace Interop

namespace Table

/--
The way up ends with `last`, where the objects with the names in `met` lie on it.
-/
def Ends (t : Table) (met : List String) (last : ObjectType) : LineageEnd → Prop
  | .root => last.parent? = none
  | .unknown parent => last.parent? = some parent ∧ ∀ p, t.get? parent ≠ some (.object p)
  | .cycle parent =>
    last.parent? = some parent
      ∧ ∃ p, t.get? parent = some (.object p) ∧ p.identity.cname ∈ met

/--
The ways up from an object that meet no name of `seen`, parent by parent.
-/
inductive Climbs (t : Table) : List String → ObjectType → Lineage → Prop where
  | stop {seen : List String} {o : ObjectType} {ending : LineageEnd} (h : t.Ends seen o ending) :
      Climbs t seen o ⟨[], ending⟩
  | next {seen : List String} {o p : ObjectType} {above : Lineage} (hp : t.Derives o p)
      (hnew : p.identity.cname ∉ seen) (habove : Climbs t (p.identity.cname :: seen) p above) :
      Climbs t seen o { above with ancestors := p :: above.ancestors }

/--
The same way as `climb` goes, given up after some rounds.
-/
def climb? (t : Table) : (rounds : Nat) → (seen : List String) → Option String → Option Lineage
  | 0, _, _ => none
  | _ + 1, _, none => some ⟨[], .root⟩
  | rounds + 1, seen, some parent =>
    match t.get? parent with
    | some (.object o) =>
      if o.identity.cname ∈ seen then some ⟨[], .cycle parent⟩
      else
        (t.climb? rounds (o.identity.cname :: seen) o.parent?).map fun above =>
          { above with ancestors := o :: above.ancestors }
    | _ => some ⟨[], .unknown parent⟩

variable {t : Table} {seen : List String} {o p : ObjectType} {l : Lineage}

theorem climbs_climb (seen : List String) (o : ObjectType)
    : t.Climbs seen o (t.climb seen o.parent?) := by
  cases hparent : o.parent? with
  | none =>
    rw [climb]
    exact .stop hparent
  | some parent =>
    by_cases hobject : ∃ p, t.get? parent = some (.object p)
    . rcases hobject with ⟨p, hget⟩
      rw [climb_of_object hget]
      split
      . next hmet => exact .stop ⟨hparent, p, hget, hmet⟩
      . next hnew =>
        have hlt : t.unseen (p.identity.cname :: seen) < t.unseen seen :=
          unseen_cons_lt (mem_of_find? hget) hnew
        exact .next ⟨parent, hparent, hget⟩ hnew (climbs_climb _ p)
    . rw [not_exists] at hobject
      rw [climb_of_not_object hobject]
      exact .stop ⟨hparent, hobject⟩
termination_by t.unseen seen

namespace Climbs

theorem notMem_seen (h : t.Climbs seen o l) : ∀ a ∈ l.ancestors, a.identity.cname ∉ seen := by
  induction h with
  | stop => simp
  | next _ hnew _ ih =>
    intro a ha
    rcases List.mem_cons.1 ha with rfl | ha
    . exact hnew
    . exact fun hmem => ih a ha (List.mem_cons_of_mem _ hmem)

theorem nodup (h : t.Climbs seen o l) : (l.ancestors.map (·.identity.cname)).Nodup := by
  induction h with
  | stop => exact List.nodup_nil
  | next _ _ habove ih =>
    rw [List.map_cons, List.nodup_cons]
    refine ⟨?_, ih⟩
    intro hmem
    rcases List.mem_map.1 hmem with ⟨a, ha, hname⟩
    exact habove.notMem_seen a ha (hname ▸ List.mem_cons_self)

theorem isChain (h : t.Climbs seen o l) : (o :: l.ancestors).IsChain t.Derives := by
  induction h with
  | stop => exact .singleton _
  | next hp _ _ ih => exact .cons_cons hp ih

theorem registered (h : t.Climbs seen o l) : ∀ a ∈ l.ancestors, .object a ∈ t.entries := by
  induction h with
  | stop => simp
  | next hp _ _ ih =>
    rw [List.forall_mem_cons]
    rcases hp with ⟨parent, _, hget⟩
    exact ⟨mem_of_find? hget, ih⟩

theorem ends (h : t.Climbs seen o l)
    : t.Ends (l.ancestors.reverse.map (·.identity.cname) ++ seen)
        ((o :: l.ancestors).getLast (List.cons_ne_nil _ _)) l.ending := by
  induction h with
  | stop h => exact h
  | next _ _ _ ih =>
    rw [List.getLast_cons (List.cons_ne_nil _ _), List.reverse_cons, List.map_append,
      List.append_assoc]
    exact ih

/--
Every ancestor takes one round, and finding the end takes another one.
-/
theorem climb?_eq (h : t.Climbs seen o l) (rounds : Nat)
    : t.climb? rounds seen o.parent? = if l.ancestors.length < rounds then some l else none := by
  induction h generalizing rounds with
  | @stop seen o ending h =>
    cases rounds with
    | zero => rfl
    | succ rounds =>
      apply Eq.trans _ (if_pos (Nat.succ_pos rounds)).symm
      cases ending with
      | root =>
        rw [show o.parent? = none from h]
        rfl
      | unknown parent =>
        rw [h.1, climb?]
        split
        . next p hget => exact absurd hget (h.2 p)
        . rfl
      | cycle parent =>
        rcases h with ⟨hparent, p, hget, hmet⟩
        simp only [hparent, climb?, hget, if_pos hmet]
  | next hp hnew _ ih =>
    rcases hp with ⟨parent, hparent, hget⟩
    cases rounds with
    | zero => rfl
    | succ rounds =>
      simp only [hparent, climb?, hget, if_neg hnew, ih, List.length_cons, Nat.succ_lt_succ_iff]
      split
      . rfl
      . rfl

end Climbs

theorem length_ancestors_le (h : t.Climbs seen o l)
    : l.ancestors.length ≤ (objects t.entries).length := by
  have hnodup : l.ancestors.Nodup := h.nodup.of_map
  apply (hnodup.subperm _).length_le
  intro a ha
  exact mem_objects.2 (h.registered a ha)

/--
With one round more than there are registered objects the way up has come to its end. From the root
down each ancestor is the registered parent of the next one and the last is that of the object. No
name is met twice, the object's own included, and the way ends only where the parent is none, not
registered as an object, or of a name that was met.
-/
theorem lineage_ends (t : Table) (o : ObjectType)
    : let above := (t.lineage o).ancestors
      (∀ rounds, (objects t.entries).length < rounds →
          t.climb? rounds [o.identity.cname] o.parent? = some (t.lineage o))
        ∧ (above.map (·.identity.cname)).Nodup
        ∧ o.identity.cname ∉ above.map (·.identity.cname)
        ∧ above.length ≤ (objects t.entries).length
        ∧ (above.reverse ++ [o]).IsChain (fun p c => t.Derives c p)
        ∧ t.Ends ((above.reverse ++ [o]).map (·.identity.cname))
            ((o :: above).getLast (List.cons_ne_nil _ _)) (t.lineage o).ending := by
  intro above
  have hclimbs : t.Climbs [o.identity.cname] o (t.lineage o) := climbs_climb _ o
  have hlength : above.length ≤ (objects t.entries).length := length_ancestors_le hclimbs
  refine ⟨?_, hclimbs.nodup, ?_, hlength, ?_, ?_⟩
  . intro rounds hrounds
    rw [hclimbs.climb?_eq, if_pos (hlength.trans_lt hrounds)]
  . intro hmem
    rcases List.mem_map.1 hmem with ⟨a, ha, hname⟩
    exact hclimbs.notMem_seen a ha (List.mem_singleton.2 hname)
  . rw [← List.reverse_cons, List.isChain_reverse]
    exact hclimbs.isChain
  . rw [List.map_append]
    exact hclimbs.ends

def loopObject (name parent : String) : ObjectType where
  identity := { cname := "Demo" ++ name, name, nameSpace := "Demo", library := "libdemo.so.0" }
  parent? := some parent
  getType? := none
  constructors := []
  methods := []
  virtualMethods := []

def loopTable : Table where
  entries := [.object (loopObject "A" "DemoB"), .object (loopObject "B" "const DemoA*")]
  nodup := by decide

-- Each of the two objects is the parent of the other one.
theorem lineage_ends_loop
    : (loopTable.lineage (loopObject "A" "DemoB")).ancestors = [loopObject "B" "const DemoA*"]
        ∧ (∀ rounds, 2 < rounds →
            loopTable.climb? rounds ["DemoA"] (some "DemoB")
              = some ⟨[loopObject "B" "const DemoA*"], .cycle "const DemoA*"⟩)
        ∧ loopTable.Derives (loopObject "A" "DemoB") (loopObject "B" "const DemoA*") := by
  have hlineage : loopTable.lineage (loopObject "A" "DemoB")
      = ⟨[loopObject "B" "const DemoA*"], .cycle "const DemoA*"⟩ := by decide +kernel
  have hends := lineage_ends loopTable (loopObject "A" "DemoB")
  rw [hlineage] at hends
  rcases hends with ⟨hrounds, _, _, _, hchain, _⟩
  exact ⟨congrArg Lineage.ancestors hlineage, hrounds, hchain.rel⟩

end Table

end Interop
