import Interop.Proofs.Validation.Steps
import Mathlib.Algebra.GroupWithZero.Nat
import Mathlib.Algebra.Order.BigOperators.Group.List
import Mathlib.Algebra.Order.Group.Nat
import Mathlib.Data.List.Perm.Subperm

/-!
This module contains the effort that a check takes. A name is on the stack while its type is under
check and has an outcome from then on, so no type is taken up twice under one root, and each step is
paid for by a type or by a reference of its own.
-/

namespace Interop.Validation

namespace Knowledge

/--
The names whose types failed or were explored.
-/
def Decided (k : Knowledge) : Set String :=
  {n | n ∈ k.Failed ∨ n ∈ k.explored}

theorem decided_congr {k k' : Knowledge} (hfailed : k'.failed = k.failed)
    (hexplored : k'.explored = k.explored) : k'.Decided = k.Decided := by
  unfold Decided Failed
  rw [hfailed, hexplored]

theorem mem_decided_note {k : Knowledge} {t : Table} {d : Descriptor} {outcome : Option Failure}
    {n : String}
    : n ∈ (k.note t d outcome).Decided
        ↔
      n ∈ k.Decided ∨ (t.get? d.cname = some d ∧ n = d.cname) := by
  by_cases hget : t.get? d.cname = some d
  . rcases outcome with _ | f
    . rw [note_none hget]
      simp only [Decided, Failed, List.mem_cons, Set.mem_ofPred_eq, hget, true_and]
      tauto
    . rw [note_some hget]
      simp only [Decided, failed_cons, Set.mem_ofPred_eq, Set.mem_insert_iff, hget, true_and]
      tauto
  . unfold note
    rw [if_neg hget]
    simp [hget]

end Knowledge

/--
One step for every type, and one for every reference of it.
-/
def work (types : List Descriptor) : Nat :=
  (types.map (·.dependencies.length + 1)).sum

theorem work_le_of_subperm {types types' : List Descriptor} (h : types.Subperm types')
    : work types ≤ work types' := by
  rcases h with ⟨middle, hperm, hsublist⟩
  have hsum : work middle = work types := (hperm.map _).sum_eq
  rw [← hsum]
  exact (hsublist.map _).sum_le_sum (by simp)

/--
The work on all types that a check of `d` can come to.
-/
def effort (t : Table) (d : Descriptor) : Nat :=
  work (d :: t.entries)

namespace State

def types (s : State) : List Descriptor :=
  s.frames.map (·.type)

/--
The steps that the types under check still take, if no further one is taken up.
-/
def due (s : State) : Nat :=
  (s.frames.map (·.rest.length + 1)).sum

/--
What a step can do: the latest type comes to an outcome, a reference of it is answered from what is
known, or the type that the reference names is taken up.
-/
inductive Move (t : Table) (s s' : State) : Prop where
  | leave (d : Descriptor) (outcome : Option Failure) (htypes : s.types = d :: s'.types)
      (hdue : s'.due < s.due) (hknowledge : s'.knowledge = s.knowledge.note t d outcome)
      (hwalked : s'.walked = s.walked)
  | answer (htypes : s'.types = s.types) (hdue : s'.due < s.due)
      (hdecided : s'.knowledge.Decided = s.knowledge.Decided) (hwalked : s'.walked = s.walked)
  | enter (d : Descriptor) (hunder : s.types ≠ []) (htypes : s'.types = d :: s.types)
      (hdue : s'.due ≤ s.due + d.dependencies.length) (hget : t.get? d.cname = some d)
      (hstack : d.cname ∉ s.stack) (hnew : d.cname ∉ s.knowledge.Decided)
      (hknowledge : s'.knowledge = s.knowledge) (hwalked : s'.walked = d :: s.walked)

variable {t : Table} {s s' : State}

theorem map_cname_types : s.types.map (·.cname) = s.stack := by
  simp [types, stack]

theorem move_of_step (h : step t s = some s') : Move t s s' := by
  rcases s with ⟨frames, failure?, k, walked⟩
  unfold step at h
  dsimp only at h
  split at h
  . cases h
  . next d rest frames f =>
    cases h
    exact .leave d (some f) rfl (by simp [due, leave, receive]) rfl rfl
  . next d frames =>
    cases h
    exact .leave d (ownFailure? t d) rfl (by simp [due, leave, receive]) rfl rfl
  . next d ref rest frames =>
    cases h
    unfold ask
    split
    . exact .answer rfl (by simp [due, receive]) rfl rfl
    . next k' hpasses =>
      rcases reply_passes hpasses with ⟨hfailed, hexplored⟩
      exact .answer rfl (by simp [due]) (Knowledge.decided_congr hfailed hexplored) rfl
    . next e hopens =>
      rcases reply_opens hopens with ⟨hget, hstack, hfailed, hexplored⟩
      have hdue : (enter ⟨⟨d, rest⟩ :: frames, none, k, walked⟩ e).due
          ≤ due ⟨⟨d, ref :: rest⟩ :: frames, none, k, walked⟩ + e.dependencies.length := by
        simp only [due, enter, List.map_cons, List.sum_cons, List.length_cons]
        omega
      refine .enter e (by simp [types]) rfl hdue (Table.get?_cname_of_get? hget) hstack ?_ rfl rfl
      rintro (h | h)
      . exact hfailed h
      . exact hexplored h

/--
What holds at any moment of a check of `d` that began with `k`.
-/
structure Orderly (t : Table) (k : Knowledge) (d : Descriptor) (s : State) : Prop where
  known : s.walked ⊆ d :: t.entries
  nodup : (s.walked.map (·.cname)).Nodup
  under : s.types.Sublist s.walked
  /-- Only the root, at the bottom of the stack, can be a type that is not registered. -/
  registered : ∀ e ∈ s.types.dropLast, t.get? e.cname = some e
  /-- A type that was taken up is still under check, or its outcome is known. -/
  accounted : s.types ≠ [] → ∀ e ∈ s.walked, e.cname ∈ s.stack ∨ e.cname ∈ s.knowledge.Decided
  /-- No outcome is new but those of the types that were taken up. -/
  recorded : ∀ n ∈ s.knowledge.Decided, n ∈ k.Decided ∨ n ∈ s.walked.map (·.cname)

variable {k : Knowledge} {d e : Descriptor} {outcome : Option Failure}

theorem Orderly.leave (h : Orderly t k d s) (htypes : s.types = e :: s'.types)
    (hknowledge : s'.knowledge = s.knowledge.note t e outcome) (hwalked : s'.walked = s.walked)
    : Orderly t k d s' := by
  have hstack : s.stack = e.cname :: s'.stack := by
    rw [← map_cname_types, htypes, List.map_cons, map_cname_types]
  have hunder := h.under
  have hregistered := h.registered
  rw [htypes] at hunder hregistered
  constructor
  . rw [hwalked]
    exact h.known
  . rw [hwalked]
    exact h.nodup
  . rw [hwalked]
    exact (List.sublist_cons_self e _).trans hunder
  . intro e' he'
    have hbelow : s'.types ≠ [] := List.ne_nil_of_mem (List.dropLast_subset _ he')
    rw [List.dropLast_cons_of_ne_nil hbelow] at hregistered
    exact hregistered e' (List.mem_cons_of_mem e he')
  . intro hbelow e' he'
    rw [List.dropLast_cons_of_ne_nil hbelow] at hregistered
    rw [hwalked] at he'
    rw [hknowledge, Knowledge.mem_decided_note]
    rcases h.accounted (by simp [htypes]) e' he' with hmem | hdecided
    . rw [hstack] at hmem
      rcases List.mem_cons.1 hmem with hname | hmem
      . exact .inr (.inr ⟨hregistered e List.mem_cons_self, hname⟩)
      . exact .inl hmem
    . exact .inr (.inl hdecided)
  . intro n hn
    rw [hknowledge, Knowledge.mem_decided_note] at hn
    rw [hwalked]
    rcases hn with hn | ⟨_, rfl⟩
    . exact h.recorded n hn
    . exact .inr (List.mem_map_of_mem (hunder.subset List.mem_cons_self))

theorem Orderly.answer (h : Orderly t k d s) (htypes : s'.types = s.types)
    (hdecided : s'.knowledge.Decided = s.knowledge.Decided) (hwalked : s'.walked = s.walked)
    : Orderly t k d s' := by
  have hstack : s'.stack = s.stack := by
    rw [← map_cname_types, htypes, map_cname_types]
  constructor
  . rw [hwalked]
    exact h.known
  . rw [hwalked]
    exact h.nodup
  . rw [htypes, hwalked]
    exact h.under
  . rw [htypes]
    exact h.registered
  . rw [htypes, hstack, hdecided, hwalked]
    exact h.accounted
  . rw [hdecided, hwalked]
    exact h.recorded

-- A name that was taken up before is on the stack or decided, so it is not taken up here.
theorem Orderly.enter (h : Orderly t k d s) (hunder : s.types ≠ [])
    (htypes : s'.types = e :: s.types) (hget : t.get? e.cname = some e)
    (hstack : e.cname ∉ s.stack) (hnew : e.cname ∉ s.knowledge.Decided)
    (hknowledge : s'.knowledge = s.knowledge) (hwalked : s'.walked = e :: s.walked)
    : Orderly t k d s' := by
  have hstack' : s'.stack = e.cname :: s.stack := by
    rw [← map_cname_types, htypes, List.map_cons, map_cname_types]
  constructor
  . rw [hwalked, List.cons_subset]
    exact ⟨List.mem_cons_of_mem d (Table.mem_of_find? hget), h.known⟩
  . rw [hwalked, List.map_cons, List.nodup_cons]
    refine ⟨?_, h.nodup⟩
    intro hmem
    rcases List.mem_map.1 hmem with ⟨e', he', hname⟩
    rw [← hname] at hstack hnew
    exact (h.accounted hunder e' he').elim hstack hnew
  . rw [htypes, hwalked]
    exact h.under.cons_cons e
  . rw [htypes, List.dropLast_cons_of_ne_nil hunder, List.forall_mem_cons]
    exact ⟨hget, h.registered⟩
  . intro _
    rw [hwalked, hstack', hknowledge, List.forall_mem_cons]
    refine ⟨.inl List.mem_cons_self, ?_⟩
    intro e' he'
    exact (h.accounted hunder e' he').imp_left (List.mem_cons_of_mem _)
  . rw [hknowledge, hwalked]
    intro n hn
    exact (h.recorded n hn).imp_right (List.mem_cons_of_mem _)

theorem Orderly.step (h : Orderly t k d s) (hstep : step t s = some s') : Orderly t k d s' := by
  cases move_of_step hstep with
  | leave e outcome htypes _ hknowledge hwalked => exact h.leave htypes hknowledge hwalked
  | answer htypes _ hdecided hwalked => exact h.answer htypes hdecided hwalked
  | enter e hunder htypes _ hget hstack hnew hknowledge hwalked =>
    exact h.enter hunder htypes hget hstack hnew hknowledge hwalked

theorem Orderly.run (h : Orderly t k d s) (n : Nat) : Orderly t k d (run t n s) := by
  induction n generalizing s with
  | zero => exact h
  | succ n ih =>
    cases hstep : State.step t s with
    | none =>
      rw [run_of_frames_eq_nil (step_eq_none.1 hstep)]
      exact h
    | some s' =>
      rw [run_succ_of_step hstep]
      exact ih (h.step hstep)

theorem orderly_enter (h : e ∈ d :: t.entries)
    : Orderly t k d (enter ⟨[], none, k, []⟩ e) where
  known := by simpa [State.enter] using h
  nodup := by simp [State.enter]
  under := by simp [State.enter, types]
  registered := by simp [State.enter, types]
  accounted := by simp [State.enter, stack]
  recorded n hn := .inl hn

theorem orderly_start (t : Table) (k : Knowledge) (d : Descriptor)
    : Orderly t k d (start t k d) := by
  have hempty {k' : Knowledge} {failure? : Option Failure} (hk' : k'.Decided = k.Decided)
      : Orderly t k d ⟨[], failure?, k', []⟩ := by
    constructor <;> simp [types, hk']
  unfold start
  split
  . unfold ask
    split
    . exact hempty rfl
    . next k' hpasses =>
      rcases reply_passes hpasses with ⟨hfailed, hexplored⟩
      exact hempty (Knowledge.decided_congr hfailed hexplored)
    . next e hopens =>
      exact orderly_enter (List.mem_cons_of_mem d (Table.mem_of_find? (reply_opens hopens).1))
  . exact orderly_enter List.mem_cons_self

theorem Orderly.subperm (h : Orderly t k d s) : s.walked.Subperm (d :: t.entries) :=
  List.Nodup.subperm h.nodup.of_map h.known

theorem Orderly.length_stack_le (h : Orderly t k d s)
    : s.stack.length ≤ t.entries.length + 1 :=
  calc s.stack.length
    _ = s.types.length := by simp [stack, types]
    _ ≤ s.walked.length := h.under.length_le
    _ ≤ (d :: t.entries).length := h.subperm.length_le
    _ = t.entries.length + 1 := List.length_cons

theorem Orderly.stack_subset (h : Orderly t k d s) : s.stack ⊆ s.walked.map (·.cname) := by
  rw [← map_cname_types]
  exact (h.under.map _).subset

variable {n : Nat}

/--
Every step is one of those due; a type that is taken up adds its own, and the work on it.
-/
theorem due_step (hstep : step t s = some s')
    : 1 + s'.due + work s.walked ≤ s.due + work s'.walked := by
  cases move_of_step hstep with
  | leave e outcome _ hdue _ hwalked =>
    rw [hwalked]
    omega
  | answer _ hdue _ hwalked =>
    rw [hwalked]
    omega
  | enter e _ _ hdue _ _ _ _ hwalked =>
    have hwork : work s'.walked = e.dependencies.length + 1 + work s.walked := by
      simp [work, hwalked]
    omega

/--
The steps taken and those still due are paid for by the types taken up.
-/
theorem due_run (h : (run t n s).frames ≠ [])
    : n + (run t n s).due + work s.walked ≤ s.due + work (run t n s).walked := by
  induction n generalizing s with
  | zero =>
    unfold run
    omega
  | succ n ih =>
    cases hstep : step t s with
    | none =>
      have hend := step_eq_none.1 hstep
      rw [run_of_frames_eq_nil hend] at h
      exact absurd hend h
    | some s' =>
      rw [run_succ_of_step hstep] at h ⊢
      have hfirst := due_step hstep
      have hrest := ih h
      omega

theorem due_start : (start t k d).due ≤ work (start t k d).walked := by
  have henter (e : Descriptor) : (enter ⟨[], none, k, []⟩ e).due
      ≤ work (enter ⟨[], none, k, []⟩ e).walked := by
    simp [due, enter, work]
  unfold start
  split
  . unfold ask
    split
    . exact Nat.zero_le _
    . exact Nat.zero_le _
    . exact henter _
  . exact henter d

theorem frames_of_effort_le (h : effort t d ≤ n) : (run t n (start t k d)).frames = [] := by
  by_contra hframes
  have hdue := due_run hframes
  have hstart := due_start (t := t) (k := k) (d := d)
  have hwork := work_le_of_subperm ((orderly_start t k d).run n).subperm
  have hpositive : 0 < (run t n (start t k d)).due := by
    rcases List.exists_cons_of_ne_nil hframes with ⟨frame, frames, hcons⟩
    simp only [due, hcons, List.map_cons, List.sum_cons]
    omega
  unfold effort at h
  omega

end State

open State

/--
Whatever earlier checks left behind and however the types refer to each other, a check comes to an
end: taken step by step it is over after at most one step for each type and each reference, with the
outcome and the knowledge of `check`. At no moment are there more names on the stack than types are
registered, and one. No two of the types taken up share a name, so the dependencies of none are
walked twice; they are the root and registered types, the stack holds no others, and nothing new is
known of any other.
-/
theorem check_walks_once (t : Table) (k : Knowledge) (d : Descriptor)
    : (∀ n, (run t (effort t d + n) (start t k d)).verdict? t d = some (check t k d))
      ∧ ∀ n,
        let s := run t n (start t k d)
        s.stack.length ≤ t.entries.length + 1
          ∧ (s.walked.map (·.cname)).Nodup
          ∧ s.walked ⊆ d :: t.entries
          ∧ s.stack ⊆ s.walked.map (·.cname)
          ∧ s.knowledge.Decided ⊆ k.Decided ∪ {name | name ∈ s.walked.map (·.cname)} := by
  constructor
  . intro n
    rcases start_reaches t k d with ⟨walked, hreaches⟩
    have hend := frames_of_effort_le (k := k) (Nat.le_add_right (effort t d) n)
    rw [run_of_reaches hreaches rfl hend, check_eq]
    rfl
  . intro n s
    have h : Orderly t k d s := (orderly_start t k d).run n
    exact ⟨h.length_stack_le, h.nodup, h.known, h.stack_subset, h.recorded⟩

end Interop.Validation
