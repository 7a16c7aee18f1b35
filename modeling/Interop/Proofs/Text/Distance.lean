import Interop.Text.Distance
import Mathlib.Order.Bounds.Basic
import Mathlib.Order.Lattice.Nat

/-!
This module contains what the distance of two texts and the closest name are: the least number of
edits of one character each that turn one text into the other, and the first of the nearest
candidates that are near enough.
-/

namespace Interop.Text

/--
One character is put in, taken out, or replaced.
-/
inductive Edit : List Char → List Char → Prop where
  | insert (c : Char) (before after : List Char) : Edit (before ++ after) (before ++ c :: after)
  | delete (c : Char) (before after : List Char) : Edit (before ++ c :: after) (before ++ after)
  | substitute (b c : Char) (before after : List Char)
      : Edit (before ++ b :: after) (before ++ c :: after)

/--
So many edits, one after the other, at any places.
-/
inductive Edits : Nat → List Char → List Char → Prop where
  | none {cs : List Char} : Edits 0 cs cs
  | more {n : Nat} {as bs cs : List Char} (hfirst : Edit as bs) (hrest : Edits n bs cs)
      : Edits (n + 1) as cs

/--
The least number of edits that turn one text into the other.
-/
noncomputable def editDistance (s t : String) : Nat :=
  sInf {n | Edits n s.toList t.toList}

variable {a b c : Char} {as bs cs : List Char} {n : Nat}

theorem Edit.cons (h : Edit as bs) : Edit (c :: as) (c :: bs) := by
  cases h with
  | insert d before after => exact .insert d (c :: before) after
  | delete d before after => exact .delete d (c :: before) after
  | substitute d e before after => exact .substitute d e (c :: before) after

theorem Edit.reverse (h : Edit as bs) : Edit as.reverse bs.reverse := by
  have hreverse (c : Char) (before after : List Char)
      : (before ++ c :: after).reverse = after.reverse ++ c :: before.reverse := by
    simp
  cases h with
  | insert c before after =>
    rw [hreverse, List.reverse_append]
    exact .insert c after.reverse before.reverse
  | delete c before after =>
    rw [hreverse, List.reverse_append]
    exact .delete c after.reverse before.reverse
  | substitute b c before after =>
    rw [hreverse, hreverse]
    exact .substitute b c after.reverse before.reverse

theorem Edits.cons (h : Edits n as bs) : Edits n (c :: as) (c :: bs) := by
  induction h with
  | none => exact .none
  | more hfirst _ ih => exact .more hfirst.cons ih

theorem Edits.reverse (h : Edits n as bs) : Edits n as.reverse bs.reverse := by
  induction h with
  | none => exact .none
  | more hfirst _ ih => exact .more hfirst.reverse ih

/--
The recurrence that the table of distances follows, from the front of both texts on.
-/
def gap : List Char → List Char → Nat
  | [], bs => bs.length
  | a :: as, [] => (a :: as).length
  | a :: as, b :: bs =>
    min (min (gap as (b :: bs) + 1) (gap (a :: as) bs + 1)) (gap as bs + if a = b then 0 else 1)
termination_by as bs => as.length + bs.length

theorem gap_nil_left : gap [] bs = bs.length := by
  rw [gap]

theorem gap_nil_right : gap as [] = as.length := by
  cases as <;> rw [gap]

theorem gap_cons_cons
    : gap (a :: as) (b :: bs)
        =
      min (min (gap as (b :: bs) + 1) (gap (a :: as) bs + 1))
        (gap as bs + if a = b then 0 else 1) := by
  rw [gap]

theorem gap_self : gap cs cs = 0 := by
  induction cs with
  | nil => rw [gap_nil_left, List.length_nil]
  | cons c cs ih =>
    rw [gap_cons_cons, ih, if_pos rfl]
    simp

section Lipschitz

theorem gap_cons_le_left : gap (a :: as) bs ≤ gap as bs + 1 := by
  cases bs with
  | nil => simp [gap_nil_right]
  | cons b bs =>
    rw [gap_cons_cons]
    omega

theorem gap_cons_le_right : gap as (b :: bs) ≤ gap as bs + 1 := by
  cases as with
  | nil => simp [gap_nil_left]
  | cons a as =>
    rw [gap_cons_cons]
    omega

theorem gap_le_cons : gap as bs ≤ gap (a :: as) bs + 1 := by
  induction bs with
  | nil =>
    simp only [gap_nil_right, List.length_cons]
    omega
  | cons b bs ih =>
    have hright : gap as (b :: bs) ≤ gap as bs + 1 := gap_cons_le_right
    rw [gap_cons_cons]
    omega

theorem gap_cons_le_cons : gap (a :: as) bs ≤ gap (b :: as) bs + 1 := by
  induction bs with
  | nil => simp [gap_nil_right]
  | cons c bs ih =>
    rw [gap_cons_cons, gap_cons_cons]
    split <;> omega

-- What stands in front of an edit, on both sides, makes no difference to what it is worth.
theorem gap_append_le {as' : List Char} (h : ∀ bs, gap as bs ≤ gap as' bs + 1)
    (before bs : List Char) : gap (before ++ as) bs ≤ gap (before ++ as') bs + 1 := by
  induction before generalizing bs with
  | nil => exact h bs
  | cons c before ih =>
    simp only [List.cons_append]
    induction bs with
    | nil =>
      have hlengths := ih []
      simp only [gap_nil_right, List.length_cons] at hlengths ⊢
      omega
    | cons b bs ihbs =>
      have hboth := ih bs
      have hleft := ih (b :: bs)
      rw [gap_cons_cons, gap_cons_cons]
      omega

theorem Edit.gap_le {as' : List Char} (h : Edit as as') (bs : List Char)
    : gap as bs ≤ gap as' bs + 1 := by
  cases h with
  | insert c before after => exact gap_append_le (fun _ => gap_le_cons) before bs
  | delete c before after => exact gap_append_le (fun _ => gap_cons_le_left) before bs
  | substitute b c before after => exact gap_append_le (fun _ => gap_cons_le_cons) before bs

theorem Edits.gap_le (h : Edits n as bs) : gap as bs ≤ n := by
  induction h with
  | none => rw [gap_self]
  | @more n as as' bs hfirst _ ih =>
    have hstep := hfirst.gap_le bs
    omega

end Lipschitz

theorem edits_nil_left : Edits bs.length [] bs := by
  induction bs with
  | nil => exact .none
  | cons b bs ih => exact .more (.insert b [] []) ih.cons

theorem edits_nil_right : Edits as.length as [] := by
  induction as with
  | nil => exact .none
  | cons a as ih => exact .more (.delete a [] as) ih

theorem edits_substitute (h : Edits n as bs)
    : Edits (n + if a = b then 0 else 1) (a :: as) (b :: bs) := by
  split
  . next heq =>
    rw [heq]
    exact h.cons
  . exact .more (.substitute a b [] as) h.cons

theorem edits_gap (as bs : List Char) : Edits (gap as bs) as bs := by
  induction as, bs using gap.induct with
  | case1 bs =>
    rw [gap_nil_left]
    exact edits_nil_left
  | case2 a as =>
    rw [gap_nil_right]
    exact edits_nil_right
  | case3 a as b bs ihdelete ihinsert ihboth =>
    rw [gap_cons_cons]
    rcases min_choice (min (gap as (b :: bs) + 1) (gap (a :: as) bs + 1))
      (gap as bs + if a = b then 0 else 1) with hmin | hmin
    . rw [hmin]
      rcases min_choice (gap as (b :: bs) + 1) (gap (a :: as) bs + 1) with hmin | hmin
      . rw [hmin]
        exact .more (.delete a [] as) ihdelete
      . rw [hmin]
        exact .more (.insert b [] (a :: as)) ihinsert.cons
    . rw [hmin]
      exact edits_substitute ihboth

theorem isLeast_gap (as bs : List Char) : IsLeast {n | Edits n as bs} (gap as bs) :=
  ⟨edits_gap as bs, fun _ h => h.gap_le⟩

theorem gap_reverse : gap as.reverse bs.reverse = gap as bs := by
  apply Nat.le_antisymm
  . exact (edits_gap as bs).reverse.gap_le
  . have hreverse := (edits_gap as.reverse bs.reverse).reverse
    rw [List.reverse_reverse, List.reverse_reverse] at hreverse
    exact hreverse.gap_le

/--
A row of the table of distances, from the column behind `bs` on, after `as` was read of the first
text. What was read stands in reverse.
-/
def row (as bs : List Char) : List Char → List Nat
  | [] => []
  | c :: cs => gap as (c :: bs) :: row as (c :: bs) cs

theorem nextRow_row
    : nextRow a (gap as bs) (gap (a :: as) bs) cs (row as bs cs) = row (a :: as) bs cs := by
  induction cs generalizing bs with
  | nil => rfl
  | cons c cs ih =>
    simp only [row, nextRow]
    rw [← gap_cons_cons, ih]

theorem getLast?_row : (row as bs cs).getLast?.getD (gap as bs) = gap as (cs.reverse ++ bs) := by
  induction cs generalizing bs with
  | nil => rfl
  | cons c cs ih =>
    rw [row, List.getLast?_cons, Option.getD_some, ih, List.reverse_cons, List.append_assoc,
      List.singleton_append]

theorem row_nil (bs cs : List Char)
    : row [] bs cs = (List.range cs.length).map (· + bs.length + 1) := by
  induction cs generalizing bs with
  | nil => rfl
  | cons c cs ih =>
    rw [row, ih, gap_nil_left, List.length_cons, List.length_cons, List.range_succ_eq_map,
      List.map_cons, List.map_map]
    congr 2
    . omega
    . funext n
      simp only [Function.comp_apply]
      omega

-- Every round of the loop makes one row out of the one before it.
theorem lastEntry_row
    : lastEntry cs as (gap bs []) (row bs [] cs) = gap (as.reverse ++ bs) cs.reverse := by
  induction as generalizing bs with
  | nil =>
    rw [lastEntry, getLast?_row, List.append_nil]
    rfl
  | cons a as ih =>
    have hfirst : gap bs [] + 1 = gap (a :: bs) [] := by
      rw [gap_nil_right, gap_nil_right, List.length_cons]
    rw [lastEntry, hfirst, nextRow_row, ih, List.reverse_cons, List.append_assoc,
      List.singleton_append]

theorem distance_eq_gap (s t : String) : distance s t = gap s.toList t.toList := by
  have hrow : (List.range t.toList.length).map (· + 1) = row [] [] t.toList := by
    rw [row_nil]
    rfl
  have hfirst : 0 = gap [] [] := by
    rw [gap_nil_left, List.length_nil]
  unfold distance
  rw [hrow, hfirst, lastEntry_row, List.append_nil, gap_reverse]

theorem isLeast_distance (s t : String)
    : IsLeast {n | Edits n s.toList t.toList} (distance s t) := by
  rw [distance_eq_gap]
  exact isLeast_gap _ _

theorem distance_eq_editDistance (s t : String) : distance s t = editDistance s t := by
  have hleast := isLeast_distance s t
  exact hleast.unique ⟨Nat.sInf_mem ⟨_, hleast.1⟩, fun _ h => Nat.sInf_le h⟩

variable {target candidate : String} {candidates : List String}

/--
The candidate is the first of those that differ from `target` with the fewest edits.
-/
def Nearest (target : String) (candidates : List String) (candidate : String) : Prop :=
  ∃ before after, candidates = before ++ candidate :: after ∧ candidate ≠ target
    ∧ (∀ other ∈ before, other ≠ target → editDistance target candidate < editDistance target other)
    ∧ ∀ other ∈ after, other ≠ target → editDistance target candidate ≤ editDistance target other

/--
What is known of the candidates looked at: which one is the best so far, and how far it is, or that
none of them is near enough.
-/
def Chosen (target : String) (candidates : List String) : Option (Nat × String) → Prop
  | none => ∀ c ∈ candidates, c ≠ target → tolerance target < editDistance target c
  | some (d, c) => d = editDistance target c ∧ d ≤ tolerance target ∧ Nearest target candidates c

theorem Nearest.append {more : List String} (h : Nearest target candidates candidate)
    (hmore : ∀ other ∈ more, other ≠ target →
      editDistance target candidate ≤ editDistance target other)
    : Nearest target (candidates ++ more) candidate := by
  rcases h with ⟨before, after, rfl, hne, hbefore, hafter⟩
  refine ⟨before, after ++ more, by simp, hne, hbefore, ?_⟩
  intro other hother
  rcases List.mem_append.1 hother with hother | hother
  . exact hafter other hother
  . exact hmore other hother

theorem Nearest.concat (hne : candidate ≠ target)
    (h : ∀ other ∈ candidates, other ≠ target →
      editDistance target candidate < editDistance target other)
    : Nearest target (candidates ++ [candidate]) candidate :=
  ⟨candidates, [], rfl, hne, h, by simp⟩

theorem Nearest.le {other : String} (h : Nearest target candidates candidate)
    (hother : other ∈ candidates) (hne : other ≠ target)
    : editDistance target candidate ≤ editDistance target other := by
  rcases h with ⟨before, after, rfl, _, hbefore, hafter⟩
  rcases List.mem_append.1 hother with hother | hother
  . exact Nat.le_of_lt (hbefore other hother hne)
  . rcases List.mem_cons.1 hother with rfl | hother
    . exact Nat.le_refl _
    . exact hafter other hother hne

-- Of two places in the list one is in front, and there is the smaller number of edits.
theorem Nearest.unique {other : String} (h : Nearest target candidates candidate)
    (h' : Nearest target candidates other) : candidate = other := by
  have hahead {first second : String} {between after after' : List String}
      (hsplit : first :: after = between ++ second :: after')
      (hlt : first ∈ between → editDistance target second < editDistance target first)
      (hle : second ∈ after → editDistance target first ≤ editDistance target second)
      : first = second := by
    cases between with
    | nil => exact (List.cons.inj hsplit).1
    | cons c between =>
      rcases List.cons.inj hsplit with ⟨rfl, rfl⟩
      have hfewer := hlt List.mem_cons_self
      have hmore := hle (by simp)
      omega
  rcases h with ⟨before, after, hlist, hne, hbefore, hafter⟩
  rcases h' with ⟨before', after', hlist', hne', hbefore', hafter'⟩
  rw [hlist, List.append_eq_append_iff] at hlist'
  rcases hlist' with ⟨between, rfl, hsplit⟩ | ⟨between, rfl, hsplit⟩
  . exact hahead hsplit (fun hmem => hbefore' _ (List.mem_append_right _ hmem) hne)
      (fun hmem => hafter _ hmem hne')
  . exact (hahead hsplit (fun hmem => hbefore _ (List.mem_append_right _ hmem) hne')
      (fun hmem => hafter' _ hmem hne)).symm

theorem Chosen.pass {best : Option (Nat × String)} (h : Chosen target candidates best)
    (hpassed : candidate ≠ target →
      tolerance target < editDistance target candidate
        ∨ ∃ b ∈ best, b.1 ≤ editDistance target candidate)
    : Chosen target (candidates ++ [candidate]) best := by
  cases best with
  | none =>
    intro c hc hne
    rcases List.mem_append.1 hc with hc | hc
    . exact h c hc hne
    . rw [List.mem_singleton.1 hc] at hne ⊢
      simpa using hpassed hne
  | some b =>
    rcases b with ⟨d, c⟩
    rcases h with ⟨hd, htolerated, hnearest⟩
    refine ⟨hd, htolerated, hnearest.append ?_⟩
    intro other hother hne
    rw [List.mem_singleton.1 hother] at hne ⊢
    rw [← hd]
    rcases hpassed hne with hfar | ⟨_, ⟨⟩, hle⟩
    . omega
    . exact hle

theorem Chosen.take {best : Option (Nat × String)} (h : Chosen target candidates best)
    (hne : candidate ≠ target) (htolerated : editDistance target candidate ≤ tolerance target)
    (hbest : ∀ b ∈ best, editDistance target candidate < b.1)
    : Chosen target (candidates ++ [candidate])
        (some (editDistance target candidate, candidate)) := by
  refine ⟨rfl, htolerated, .concat hne ?_⟩
  intro other hother hdiffers
  cases best with
  | none =>
    have hfar := h other hother hdiffers
    omega
  | some b =>
    rcases b with ⟨d, c⟩
    rcases h with ⟨hd, _, hnearest⟩
    have hless := hbest (d, c) rfl
    have hle := hnearest.le hother hdiffers
    omega

theorem Chosen.consider {best : Option (Nat × String)} (h : Chosen target candidates best)
    (c : String) : Chosen target (candidates ++ [c]) (closest?.consider target best c) := by
  unfold closest?.consider
  dsimp only
  rw [distance_eq_editDistance]
  split
  . next hsame => exact h.pass (absurd hsame)
  . next hne =>
    split
    . next htaken =>
      rw [Bool.and_eq_true, decide_eq_true_eq, Option.all_eq_true] at htaken
      exact h.take hne htaken.1 fun b hb => by simpa using htaken.2 b hb
    . next hpassed =>
      apply h.pass
      intro _
      rw [Bool.and_eq_true, decide_eq_true_eq, Option.all_eq_true, not_and_or] at hpassed
      rcases hpassed with hfar | hno
      . exact .inl (Nat.lt_of_not_le hfar)
      . push Not at hno
        rcases hno with ⟨b, hb, hle⟩
        exact .inr ⟨b, hb, by simpa using hle⟩

theorem chosen_foldl (target : String) (candidates : List String)
    : Chosen target candidates (candidates.foldl (closest?.consider target) none) := by
  induction candidates using List.reverseRecOn with
  | nil => simp [Chosen]
  | append_singleton candidates c ih =>
    rw [List.foldl_append, List.foldl_cons, List.foldl_nil]
    exact ih.consider c

/--
The choice of the closest name. It is a candidate other than the target with the fewest edits, the
first one where there are several, if these edits are few enough: one for a target of less than four
bytes, else three. There is none only where each candidate is the target or takes more edits. The
number of edits is always that of some edits, and of no fewer.
-/
theorem closest?_nearest (target : String) (candidates : List String)
    : tolerance target = (if target.utf8ByteSize < 4 then 1 else 3)
      ∧ (∀ c, closest? target candidates = some c
          ↔ Nearest target candidates c ∧ editDistance target c ≤ tolerance target)
      ∧ (closest? target candidates = none
          ↔ ∀ c ∈ candidates, c ≠ target → tolerance target < editDistance target c)
      ∧ ∀ s t, IsLeast {n | Edits n s.toList t.toList} (editDistance s t) := by
  have hchosen := chosen_foldl target candidates
  unfold closest?
  generalize candidates.foldl (closest?.consider target) none = best at hchosen
  refine ⟨rfl, ?_, ?_, fun s t => distance_eq_editDistance s t ▸ isLeast_distance s t⟩
  . intro c
    cases best with
    | none =>
      simp only [Option.map_none, reduceCtorEq, false_iff, not_and, not_le]
      rintro ⟨before, after, rfl, hne, _⟩
      exact hchosen c (by simp) hne
    | some b =>
      rcases b with ⟨d, first⟩
      rcases hchosen with ⟨hd, htolerated, hnearest⟩
      rw [hd] at htolerated
      simp only [Option.map_some, Option.some.injEq]
      constructor
      . rintro rfl
        exact ⟨hnearest, htolerated⟩
      . exact fun h => hnearest.unique h.1
  . cases best with
    | none => exact iff_of_true rfl hchosen
    | some b =>
      rcases b with ⟨d, first⟩
      rcases hchosen with ⟨hd, htolerated, before, after, rfl, hne, _⟩
      simp only [Option.map_some, reduceCtorEq, false_iff, not_forall, not_lt]
      exact ⟨first, by simp, hne, hd ▸ htolerated⟩

example : closest? "gint" ["gint", "guint", "gint8", "guint8"] = some "guint" := by
  decide +kernel

end Interop.Text
