import Interop.Proofs.Agreement

/-!
This module contains the ancestors of an object whose inheritance is not cyclic: they are the
objects that one comes to by going from parent to parent, and each has fewer ancestors than the
objects that derive from it.
-/

namespace Interop

open Relation

namespace Table

/--
The parent of `o` is registered, as the object `p`.
-/
def Derives (t : Table) (o p : ObjectType) : Prop :=
  ∃ parent, o.parent? = some parent ∧ t.get? parent = some (.object p)

/--
From `o` up, no object derives from one of its own name.
-/
def Acyclic (t : Table) (o : ObjectType) : Prop :=
  ∀ a b, ReflTransGen t.Derives o a → TransGen t.Derives a b → a.identity.cname ≠ b.identity.cname

/--
The ancestors of `o` from the nearest up to one that has no registered parent.
-/
inductive Chain (t : Table) : ObjectType → List ObjectType → Prop where
  | root {o : ObjectType} (h : ∀ p, ¬ t.Derives o p) : Chain t o []
  | derived {o p : ObjectType} {above : List ObjectType} (h : t.Derives o p)
      (habove : Chain t p above) : Chain t o (p :: above)

variable {t : Table} {o p : ObjectType} {above : List ObjectType}

theorem Derives.unique {q : ObjectType} (hp : t.Derives o p) (hq : t.Derives o q) : p = q := by
  rcases hp with ⟨parent, hparent, hp⟩
  rcases hq with ⟨parent', hparent', hq⟩
  obtain rfl : parent = parent' := Option.some.inj (hparent.symm.trans hparent')
  exact Descriptor.object.inj (Option.some.inj (hp.symm.trans hq))

theorem Derives.transGen_iff {a : ObjectType} (hp : t.Derives o p)
    : TransGen t.Derives o a ↔ a = p ∨ TransGen t.Derives p a := by
  constructor
  . intro ha
    rcases TransGen.head'_iff.1 ha with ⟨p', hp', hrest⟩
    obtain rfl := hp.unique hp'
    exact reflTransGen_iff_eq_or_transGen.1 hrest
  . rintro (rfl | ha)
    . exact .single hp
    . exact .head hp ha

theorem not_transGen_of_root {a : ObjectType} (h : ∀ p, ¬ t.Derives o p)
    : ¬ TransGen t.Derives o a := by
  intro ha
  rcases TransGen.head'_iff.1 ha with ⟨p, hp, _⟩
  exact h p hp

theorem Acyclic.parent (h : t.Acyclic o) (hp : t.Derives o p) : t.Acyclic p :=
  fun a b ha hb => h a b (.head hp ha) hb

section Climbing

variable {seen : List String}

theorem climb_of_derives (hp : t.Derives o p) (hnew : p.identity.cname ∉ seen)
    : (t.climb seen o.parent?).ancestors
        = p :: (t.climb (p.identity.cname :: seen) p.parent?).ancestors := by
  rcases hp with ⟨parent, hparent, hget⟩
  rw [hparent, climb_of_object hget, if_neg hnew]

theorem climb_of_not_derives (h : ∀ p, ¬ t.Derives o p)
    : (t.climb seen o.parent?).ancestors = [] := by
  cases hparent : o.parent? with
  | none => rw [climb]
  | some parent =>
    rw [climb_of_not_object]
    intro p hget
    exact h p ⟨parent, hparent, hget⟩

-- The names seen are those below `o`, so none of them is met again on the way up.
theorem climb_chain (seen : List String) (o : ObjectType) (h : t.Acyclic o)
    (hseen : ∀ a, TransGen t.Derives o a → a.identity.cname ∉ seen)
    : t.Chain o (t.climb seen o.parent?).ancestors := by
  by_cases hparent : ∃ p, t.Derives o p
  . rcases hparent with ⟨p, hp⟩
    have hnew : p.identity.cname ∉ seen := hseen p (.single hp)
    have hlt : t.unseen (p.identity.cname :: seen) < t.unseen seen := by
      rcases hp with ⟨parent, _, hget⟩
      exact unseen_cons_lt (mem_of_find? hget) hnew
    rw [climb_of_derives hp hnew]
    apply Chain.derived hp
    apply climb_chain _ p (h.parent hp)
    intro a ha
    rw [List.mem_cons, not_or]
    exact ⟨(h p a (.single hp) ha).symm, hseen a (.head hp ha)⟩
  . rw [not_exists] at hparent
    rw [climb_of_not_derives hparent]
    exact .root hparent
termination_by t.unseen seen

end Climbing

theorem Acyclic.chain (h : t.Acyclic o) : t.Chain o (t.lineage o).ancestors := by
  apply climb_chain _ o h
  intro a ha
  rw [List.mem_singleton]
  exact (h o a .refl ha).symm

namespace Chain

theorem unique {above' : List ObjectType} (h : t.Chain o above) (h' : t.Chain o above')
    : above = above' := by
  induction h generalizing above' with
  | root hroot =>
    cases h' with
    | root => rfl
    | derived hp => exact absurd hp (hroot _)
  | derived hp _ ih =>
    cases h' with
    | root hroot => exact absurd hp (hroot _)
    | derived hp' habove' =>
      obtain rfl := hp.unique hp'
      rw [ih habove']

theorem mem_iff {a : ObjectType} (h : t.Chain o above) : a ∈ above ↔ TransGen t.Derives o a := by
  induction h with
  | root hroot =>
    rw [iff_false_right (not_transGen_of_root hroot)]
    exact List.not_mem_nil
  | derived hp _ ih => rw [List.mem_cons, ih, hp.transGen_iff]

/--
Inheritance is not cyclic if a chain has an end and no name occurs on it twice.
-/
theorem acyclic (h : t.Chain o above) (hnodup : ((o :: above).map (·.identity.cname)).Nodup)
    : t.Acyclic o := by
  induction h with
  | root hroot =>
    intro a b ha hb
    rcases ReflTransGen.cases_head ha with rfl | ⟨p, hp, _⟩
    . exact absurd hb (not_transGen_of_root hroot)
    . exact absurd hp (hroot p)
  | derived hp habove ih =>
    rw [List.map_cons, List.nodup_cons] at hnodup
    intro a b ha hb
    rcases ReflTransGen.cases_head ha with rfl | ⟨p', hp', ha⟩
    . intro hname
      apply hnodup.1
      rw [hname]
      exact List.mem_map_of_mem ((Chain.derived hp habove).mem_iff.2 hb)
    . obtain rfl := hp.unique hp'
      exact ih hnodup.2 a b ha hb

end Chain

/--
The ancestors of an object are its parent and those of its parent.
-/
theorem Acyclic.lineage_of_derives (h : t.Acyclic o) (hp : t.Derives o p)
    : (t.lineage o).ancestors = p :: (t.lineage p).ancestors :=
  h.chain.unique (.derived hp (h.parent hp).chain)

theorem Acyclic.lineage_length_lt {a : ObjectType} (h : t.Acyclic o) (ha : TransGen t.Derives o a)
    : (t.lineage a).ancestors.length < (t.lineage o).ancestors.length := by
  induction ha using TransGen.head_induction_on with
  | single hp =>
    rw [h.lineage_of_derives hp, List.length_cons]
    exact Nat.lt_succ_self _
  | head hp _ ih =>
    rw [h.lineage_of_derives hp, List.length_cons]
    exact Nat.lt_succ_of_lt (ih (h.parent hp))

end Table

end Interop
