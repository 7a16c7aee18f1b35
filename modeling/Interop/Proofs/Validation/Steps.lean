import Interop.Proofs.Validation.Agreement

/-!
This module contains checks that are taken step by step, with the types under check on a stack. The
steps are not tied to anything that gets smaller, so that they come to an end is something to be
shown: they do, with what the check comes to in one go.
-/

namespace Interop

theorem Table.get?_cname_of_get? {t : Table} {ref : String} {d : Descriptor}
    (h : t.get? ref = some d) : t.get? d.cname = some d := by
  have hcname : d.cname = Reference.core ref := cname_of_find? h
  unfold get?
  rw [hcname, Reference.core_core]
  exact h

namespace Validation

/--
What there is to say about a reference before the type that it refers to is looked into.
-/
inductive Reply where
  | fails (f : Failure)
  | passes (k : Knowledge)
  | opens (d : Descriptor)
  deriving DecidableEq, Repr

def reply (t : Table) (path : List String) (k : Knowledge) (ref : String) : Reply :=
  let name := Reference.core ref
  match k.failed.lookup name with
  | some f => .fails f
  | none =>
    if name ∈ k.valid ∨ name ∈ k.explored then .passes k
    else if name ∈ path then .passes { k with revisited := name :: k.revisited }
    else
      match t.find? name with
      | none => .fails ⟨name, [], none⟩
      | some d => .opens d

theorem reply_opens {t : Table} {path : List String} {k : Knowledge} {ref : String}
    {d : Descriptor} (h : reply t path k ref = .opens d)
    : t.get? ref = some d ∧ d.cname ∉ path ∧ d.cname ∉ k.Failed ∧ d.cname ∉ k.explored := by
  unfold reply at h
  dsimp only at h
  split at h
  . cases h
  . next hfailed =>
    split at h
    . cases h
    . next hnew =>
      split at h
      . cases h
      . next hpath =>
        split at h
        . cases h
        . next e hfind =>
          cases h
          have hcname : d.cname = Reference.core ref := Table.cname_of_find? hfind
          rw [hcname]
          exact ⟨hfind, hpath, Knowledge.not_mem_failed_of_lookup hfailed, fun h => hnew (.inr h)⟩

theorem reply_passes {t : Table} {path : List String} {k k' : Knowledge} {ref : String}
    (h : reply t path k ref = .passes k')
    : k'.failed = k.failed ∧ k'.explored = k.explored := by
  unfold reply at h
  dsimp only at h
  split at h
  . cases h
  . split at h
    . cases h
      exact ⟨rfl, rfl⟩
    . split at h
      . cases h
        exact ⟨rfl, rfl⟩
      . split at h <;> cases h

/--
What is wrong with a type whose dependencies have all passed.
-/
def ownFailure? (t : Table) (d : Descriptor) : Option Failure :=
  (structureFault? t d).map fun detail => ⟨d.cname, [], some detail⟩

/--
The outcome for a type is kept if the type is the registered one of its name.
-/
def Knowledge.note (k : Knowledge) (t : Table) (d : Descriptor) (outcome : Option Failure)
    : Knowledge :=
  if t.get? d.cname = some d then
    match outcome with
    | some f => { k with failed := (d.cname, f) :: k.failed }
    | none => { k with explored := d.cname :: k.explored }
  else k

theorem Knowledge.note_some {t : Table} {k : Knowledge} {d : Descriptor} {f : Failure}
    (h : t.get? d.cname = some d)
    : k.note t d (some f) = { k with failed := (d.cname, f) :: k.failed } := by
  unfold note
  rw [if_pos h]

theorem Knowledge.note_none {t : Table} {k : Knowledge} {d : Descriptor}
    (h : t.get? d.cname = some d)
    : k.note t d none = { k with explored := d.cname :: k.explored } := by
  unfold note
  rw [if_pos h]

/--
A type under check, with those of its references that have not been looked at.
-/
structure Frame where
  type : Descriptor
  rest : List String
  deriving DecidableEq, Repr

/--
A check that is under way.
-/
structure State where
  /-- The types under check, the latest first. -/
  frames : List Frame
  /-- What the check of the latest type fails with, or the whole check once no type is left. -/
  failure? : Option Failure
  knowledge : Knowledge
  /-- The types whose dependencies were taken up so far, the latest first. No step reads it. -/
  walked : List Descriptor
  deriving DecidableEq, Repr

namespace State

/--
The names of the types under check.
-/
def stack (s : State) : List String :=
  s.frames.map (·.type.cname)

/--
The dependencies of a type are taken up.
-/
def enter (s : State) (d : Descriptor) : State :=
  { s with frames := ⟨d, d.dependencies⟩ :: s.frames, walked := d :: s.walked }

/--
The outcome for `name` is passed to the type that refers to it, if there is one.
-/
def receive (s : State) (name : String) (outcome : Option Failure) : State :=
  { s with failure? := outcome.map fun f => if s.frames.isEmpty then f else f.through name }

def ask (s : State) (t : Table) (ref : String) : State :=
  match reply t s.stack s.knowledge ref with
  | .fails f => s.receive (Reference.core ref) (some f)
  | .passes k => { s with knowledge := k }
  | .opens d => s.enter d

/--
The check of `d`, which is no longer on the stack, has come to an outcome.
-/
def leave (s : State) (t : Table) (d : Descriptor) (outcome : Option Failure) : State :=
  { s with knowledge := s.knowledge.note t d outcome }.receive d.cname outcome

/--
A failure is passed down the stack type by type. Without one, the latest type goes on with its next
reference, and with what is wrong with itself after the last one.
-/
def step (t : Table) (s : State) : Option State :=
  match s.frames, s.failure? with
  | [], _ => none
  | ⟨d, _⟩ :: frames, some f => some ({ s with frames }.leave t d (some f))
  | ⟨d, []⟩ :: frames, none => some ({ s with frames }.leave t d (ownFailure? t d))
  | ⟨d, ref :: rest⟩ :: frames, none => some ({ s with frames := ⟨d, rest⟩ :: frames }.ask t ref)

/--
A type that is not the registered one of its name is taken up whatever is known of that name.
-/
def start (t : Table) (k : Knowledge) (d : Descriptor) : State :=
  if t.get? d.cname = some d then ask ⟨[], none, k, []⟩ t d.cname else enter ⟨[], none, k, []⟩ d

/--
The state after `n` steps, or the one in which there is no further step.
-/
def run (t : Table) (n : Nat) (s : State) : State :=
  match n with
  | 0 => s
  | n + 1 =>
    match step t s with
    | some s' => run t n s'
    | none => s

/--
What the check of `d` comes to, once no type is under check any more.
-/
def verdict? (t : Table) (d : Descriptor) (s : State)
    : Option (Option ValidationError × Knowledge) :=
  if s.frames = [] then
    some (s.failure?.map (check.report t d), s.knowledge.settle s.failure?)
  else none

def Reaches (t : Table) : State → State → Prop :=
  Relation.ReflTransGen fun s s' => step t s = some s'

variable {t : Table} {s s' : State} {n : Nat}

theorem step_eq_none : step t s = none ↔ s.frames = [] := by
  rcases s with ⟨_ | ⟨⟨d, _ | ⟨ref, rest⟩⟩, frames⟩, _ | f, k, walked⟩ <;> simp [step]

theorem run_succ_of_step (h : step t s = some s') : run t (n + 1) s = run t n s' := by
  simp only [run, h]

theorem run_of_frames_eq_nil (h : s.frames = []) : run t n s = s := by
  cases n with
  | zero => rfl
  | succ n => simp only [run, step_eq_none.2 h]

theorem Reaches.head {s'' : State} (hstep : step t s = some s') (h : Reaches t s' s'')
    : Reaches t s s'' :=
  Relation.ReflTransGen.head (r := fun s s' => step t s = some s') hstep h

/--
There is only one state that the steps can end in.
-/
theorem run_of_reaches (h : Reaches t s s') (hs' : s'.frames = [])
    (hframes : (run t n s).frames = []) : run t n s = s' := by
  induction h using Relation.ReflTransGen.head_induction_on generalizing n with
  | refl => exact run_of_frames_eq_nil hs'
  | @head s next hstep _ ih =>
    cases n with
    | zero =>
      have hend : step t s = none := step_eq_none.2 hframes
      rw [hstep] at hend
      cases hend
    | succ n =>
      rw [run_succ_of_step hstep] at hframes ⊢
      exact ih hframes

end State

open State

/--
What is asked of a name is answered from what is known, or by the check of its type.
-/
theorem checkName_eq {t : Table} {path : List String} {k : Knowledge} {ref : String}
    : checkName t path k ref
        = match reply t path k ref with
          | .fails f => (some f, k)
          | .passes k => (none, k)
          | .opens d =>
            let result := checkType t (d.cname :: path) k d
            (result.1, result.2.note t d result.1) := by
  unfold reply
  dsimp only
  cases hfailed : k.failed.lookup (Reference.core ref) with
  | some f => rw [checkName_of_lookup hfailed]
  | none =>
    dsimp only
    by_cases hknown : Reference.core ref ∈ k.valid ∨ Reference.core ref ∈ k.explored
    . rw [checkName_of_known hfailed hknown, if_pos hknown]
    . rw [if_neg hknown]
      by_cases hpath : Reference.core ref ∈ path
      . rw [checkName_of_mem hfailed hknown hpath, if_pos hpath]
      . rw [if_neg hpath]
        cases hfind : t.find? (Reference.core ref) with
        | none => rw [checkName_of_none hfailed hknown hpath hfind]
        | some d =>
          have hcname : d.cname = Reference.core ref := Table.cname_of_find? hfind
          have hregistered : t.get? d.cname = some d := Table.get?_cname_of_get? hfind
          rw [checkName_of_find? hfailed hknown hpath hfind, ← hcname]
          dsimp only
          generalize checkType t (d.cname :: path) k d = result
          rcases result with ⟨_ | f, k'⟩
          . exact Prod.ext rfl (Knowledge.note_none hregistered).symm
          . exact Prod.ext rfl (Knowledge.note_some hregistered).symm

variable (t : Table)

-- The induction is that of the walk itself; the frames below stay as they are all the while.
mutual

/--
Step by step a reference is answered as by `checkName`, under a path that is the stack.
-/
theorem checkName_reaches (frames : List Frame) (k : Knowledge) (walked : List Descriptor)
    (ref : String)
    : let result := checkName t (frames.map (·.type.cname)) k ref
      ∃ walked', Reaches t (ask ⟨frames, none, k, walked⟩ t ref)
        (receive ⟨frames, none, result.2, walked'⟩ (Reference.core ref) result.1) := by
  rw [checkName_eq]
  unfold ask stack
  dsimp only
  split
  . exact ⟨walked, .refl⟩
  . exact ⟨walked, .refl⟩
  . next d hopens =>
    rcases reply_opens hopens with ⟨hget, hnew, _⟩
    have hlt := Table.unseen_cons_lt (Table.mem_of_find? hget) hnew
    have hcname : d.cname = Reference.core ref := Table.cname_of_find? hget
    rw [← hcname]
    exact checkType_reaches frames k walked d
termination_by (t.unseen (frames.map (·.type.cname)), 0)
decreasing_by
  exact .left _ _ hlt

theorem checkType_reaches (frames : List Frame) (k : Knowledge) (walked : List Descriptor)
    (d : Descriptor)
    : let result := checkType t (d.cname :: frames.map (·.type.cname)) k d
      ∃ walked', Reaches t (enter ⟨frames, none, k, walked⟩ d)
        (leave ⟨frames, none, result.2, walked'⟩ t d result.1) := by
  dsimp only
  rw [checkType]
  rcases checkAll_reaches frames k (d :: walked) d d.dependencies
    with ⟨rest, walked', hreaches, hrest⟩
  refine ⟨walked', hreaches.tail ?_⟩
  generalize checkAll t (d.cname :: frames.map (·.type.cname)) k d.dependencies = result
    at hrest ⊢
  rcases result with ⟨_ | f, k'⟩
  . rw [hrest rfl]
    rfl
  . rfl
termination_by (t.unseen (d.cname :: frames.map (·.type.cname)), d.dependencies.length + 2)

theorem checkAll_reaches (frames : List Frame) (k : Knowledge) (walked : List Descriptor)
    (d : Descriptor) (refs : List String)
    : let result := checkAll t (d.cname :: frames.map (·.type.cname)) k refs
      ∃ rest walked',
        Reaches t ⟨⟨d, refs⟩ :: frames, none, k, walked⟩
          ⟨⟨d, rest⟩ :: frames, result.1, result.2, walked'⟩
        ∧ (result.1 = none → rest = []) := by
  dsimp only
  cases refs with
  | nil =>
    rw [checkAll]
    exact ⟨[], walked, .refl, fun _ => rfl⟩
  | cons ref refs =>
    rw [checkAll]
    rcases checkName_reaches (⟨d, refs⟩ :: frames) k walked ref with ⟨walked', hfirst⟩
    have hstep : step t ⟨⟨d, ref :: refs⟩ :: frames, none, k, walked⟩
        = some (ask ⟨⟨d, refs⟩ :: frames, none, k, walked⟩ t ref) := rfl
    have hfirst := Reaches.head hstep hfirst
    rw [List.map_cons] at hfirst
    generalize checkName t (d.cname :: frames.map (·.type.cname)) k ref = result at hfirst ⊢
    rcases result with ⟨_ | f, k'⟩
    . rcases checkAll_reaches frames k' walked' d refs with ⟨rest, walked'', hrest, hend⟩
      exact ⟨rest, walked'', hfirst.trans hrest, hend⟩
    . exact ⟨refs, walked', hfirst, fun h => by cases h⟩
termination_by (t.unseen (d.cname :: frames.map (·.type.cname)), refs.length + 1)

end

/--
Step by step a check comes to the same as at once.
-/
theorem start_reaches (k : Knowledge) (d : Descriptor)
    : ∃ walked, Reaches t (start t k d) ⟨[], (walk t k d).1, (walk t k d).2, walked⟩ := by
  unfold start walk
  split
  . rcases checkName_reaches t [] k [] d.cname with ⟨walked, hreaches⟩
    refine ⟨walked, ?_⟩
    simpa [receive] using hreaches
  . next hget =>
    rcases checkType_reaches t [] k [] d with ⟨walked, hreaches⟩
    refine ⟨walked, ?_⟩
    simpa [leave, receive, Knowledge.note, hget] using hreaches

end Validation

end Interop
