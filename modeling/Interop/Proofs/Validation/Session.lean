import Interop.Proofs.Validation.Verdict
import Mathlib.Data.List.Forall2

/-!
This module contains sessions with one validator, in which checks of single types and of whole lists
follow each other in any order. As long as all of them are registered, every answer is right: what
was asked before does not show in it.
-/

namespace Interop.Validation

inductive Request where
  | check (type : Descriptor)
  | validate (type : Descriptor)
  | partition (types : List Descriptor)
  deriving DecidableEq, Repr

inductive Answer where
  | checked (error? : Option ValidationError)
  | validated (valid : Bool)
  | partitioned (partition : Partition)
  deriving DecidableEq, Repr

def Request.types : Request → List Descriptor
  | check d | validate d => [d]
  | partition ds => ds

def Request.answer (t : Table) (k : Knowledge) : Request → Answer × Knowledge
  | check d => (Validation.check t k d).map .checked id
  | validate d => (Validation.validate t k d).map .validated id
  | partition ds => (Validation.partition t k ds).map .partitioned id

/--
The answers to requests that one validator gets one after the other.
-/
def answers (t : Table) (k : Knowledge) : List Request → List Answer
  | [] => []
  | r :: rs => (r.answer t k).1 :: answers t (r.answer t k).2 rs

def after (t : Table) (k : Knowledge) : List Request → Knowledge
  | [] => k
  | r :: rs => after t (r.answer t k).2 rs

open Classical in
/--
The right answers: a type passes if it is valid; a list is divided in order, with an error for each
type that is not.
-/
def Request.Answered (t : Table) : Request → Answer → Prop
  | .check d, .checked error? => error? = none ↔ t.Valid d.cname
  | .validate d, .validated valid => valid = true ↔ t.Valid d.cname
  | .partition ds, .partitioned p =>
    p.valid = ds.filter (fun d => t.Valid d.cname)
      ∧ p.invalid.map (·.symbol) = (ds.filter fun d => ¬ t.Valid d.cname).map (·.cname)
  | _, _ => False

variable {t : Table} {k : Knowledge}

theorem symbol_of_check {d : Descriptor} {e : ValidationError} (h : (check t k d).1 = some e)
    : e.symbol = d.cname := by
  rw [check_eq] at h
  rcases Option.map_eq_some_iff.1 h with ⟨f, _, rfl⟩
  rfl

-- Nothing but the induction on the list: every check leaves faithful knowledge to the next one.
open Classical in
theorem Knowledge.Faithful.partition {ds : List Descriptor} (hk : k.Faithful t)
    (hds : ∀ d ∈ ds, t.find? d.cname = some d)
    : (partition t k ds).1.valid = ds.filter (fun d => t.Valid d.cname)
      ∧ (partition t k ds).1.invalid.map (·.symbol)
          = (ds.filter fun d => ¬ t.Valid d.cname).map (·.cname)
      ∧ (partition t k ds).2.Faithful t := by
  induction ds generalizing k with
  | nil => exact ⟨rfl, rfl, hk⟩
  | cons d ds ih =>
    rw [List.forall_mem_cons] at hds
    have hverdict := hk.check_fst hds.1
    have hk' := hk.check_snd hds.1
    have hsymbol (e : ValidationError) := symbol_of_check (t := t) (k := k) (d := d) (e := e)
    unfold Validation.partition
    generalize check t k d = result at hverdict hk' hsymbol ⊢
    rcases result with ⟨_ | e, k'⟩
    . have hvalid : t.Valid d.cname := by simpa using hverdict
      rcases ih hk' hds.2 with ⟨hgood, hbad, hfaithful⟩
      simp [hvalid, hgood, hbad, hfaithful]
    . have hvalid : ¬ t.Valid d.cname := by simpa using hverdict
      rcases ih hk' hds.2 with ⟨hgood, hbad, hfaithful⟩
      simp [hvalid, hgood, hbad, hfaithful, hsymbol e rfl]

theorem find?_of_get? {d : Descriptor} (h : t.get? d.cname = some d)
    : t.find? d.cname = some d := by
  have hcore := core_cname_of_get? h
  unfold Table.get? at h
  rwa [hcore] at h

theorem Knowledge.Faithful.answer {r : Request} (hk : k.Faithful t)
    (hr : ∀ d ∈ r.types, t.get? d.cname = some d)
    : r.Answered t (r.answer t k).1 ∧ (r.answer t k).2.Faithful t := by
  cases r with
  | check d =>
    have hd := find?_of_get? (hr d List.mem_cons_self)
    exact ⟨hk.check_fst hd, hk.check_snd hd⟩
  | validate d =>
    have hd := find?_of_get? (hr d List.mem_cons_self)
    refine ⟨?_, hk.check_snd hd⟩
    have hverdict := hk.check_fst hd
    simpa [Request.answer, Request.Answered, validate] using hverdict
  | partition ds =>
    rcases hk.partition fun d hd => find?_of_get? (hr d hd) with ⟨hgood, hbad, hfaithful⟩
    exact ⟨⟨hgood, hbad⟩, hfaithful⟩

theorem Knowledge.Faithful.answers {requests : List Request} (hk : k.Faithful t)
    (hregistered : ∀ r ∈ requests, ∀ d ∈ r.types, t.get? d.cname = some d)
    : List.Forall₂ (Request.Answered t) requests (answers t k requests) := by
  induction requests generalizing k with
  | nil => exact .nil
  | cons r rs ih =>
    rw [List.forall_mem_cons] at hregistered
    rcases hk.answer hregistered.1 with ⟨hanswered, hfaithful⟩
    exact .cons hanswered (ih hfaithful hregistered.2)

theorem Knowledge.Faithful.after {requests : List Request} (hk : k.Faithful t)
    (hregistered : ∀ r ∈ requests, ∀ d ∈ r.types, t.get? d.cname = some d)
    : (after t k requests).Faithful t := by
  induction requests generalizing k with
  | nil => exact hk
  | cons r rs ih =>
    rw [List.forall_mem_cons] at hregistered
    exact ih (hk.answer hregistered.1).2 hregistered.2

/--
In a session about registered types every answer is right, whatever the order of the requests and
however the types refer to each other.
-/
theorem answers_answered (t : Table) (requests : List Request)
    (hregistered : ∀ r ∈ requests, ∀ d ∈ r.types, t.get? d.cname = some d)
    : List.Forall₂ (Request.Answered t) requests (answers t .initial requests) :=
  Knowledge.faithful_initial.answers hregistered

def structureOf (name : String) (ctypes : List String) : Descriptor :=
  .struct {
    identity := ⟨"Demo" ++ name, name, "Demo", "libdemo"⟩
    fields := ctypes.map fun ctype => ⟨"field", ctype, none, false⟩
    abiCheck := false }

/--
Two structures that refer to each other, one of them to a missing type too, and one that refers to
itself.
-/
def cyclicTable : Table where
  entries :=
    [structureOf "Left" ["DemoRight*", "DemoMissing"], structureOf "Right" ["const DemoLeft *"],
     structureOf "Node" ["DemoNode*"]]
  nodup := by decide

def cyclicSession : List Request :=
  [.validate (structureOf "Right" ["const DemoLeft *"]), .partition cyclicTable.entries,
   .check (structureOf "Left" ["DemoRight*", "DemoMissing"])]

theorem answers_answered_cyclic
    : (∀ r ∈ cyclicSession, ∀ d ∈ r.types, cyclicTable.get? d.cname = some d)
      ∧ List.Forall₂ (Request.Answered cyclicTable) cyclicSession
          (answers cyclicTable .initial cyclicSession) := by
  have hregistered : ∀ r ∈ cyclicSession, ∀ d ∈ r.types, cyclicTable.get? d.cname = some d := by
    decide +kernel
  exact ⟨hregistered, answers_answered cyclicTable cyclicSession hregistered⟩

end Interop.Validation
