import Interop.Proofs.Binding.Shape
import Mathlib.Data.List.DropRight
import Mathlib.Data.List.Infix
import Mathlib.Data.List.TakeWhile
import Mathlib.Logic.Function.Iterate

/-!
This module contains the spellings of a reference. Whatever qualifiers stand in front of a name and
whatever pointers behind it, the reference is to that name, unless the name itself is one that
stripping takes for a part of them.
-/

namespace Interop

namespace Reference

open Text

/--
A text that has nothing at its edges that is stripped.
-/
structure Bare (cs : List Char) : Prop where
  front : ∀ c, cs.head? = some c → isBlank c = false
  back : ∀ c, cs.getLast? = some c → isBlank c = false ∧ c ≠ '*'
  const : ¬ "const ".toList <+: cs

/--
A text that is the name of a reference in every spelling.
-/
structure Plain (cs : List Char) : Prop extends Bare cs where
  ne_nil : cs ≠ []
  ne_const : cs ≠ "const".toList

/--
What may stand in front of a name: `const` with a space behind it, and blanks.
-/
inductive Qualifiers : List Char → Prop where
  | nil : Qualifiers []
  | const {cs : List Char} (h : Qualifiers cs) : Qualifiers ("const ".toList ++ cs)
  | blank {c : Char} {cs : List Char} (hc : isBlank c = true) (h : Qualifiers cs) :
      Qualifiers (c :: cs)

/--
What may stand behind a name: asterisks and blanks.
-/
def Pointers (cs : List Char) : Prop :=
  ∀ c ∈ cs, c = '*' ∨ isBlank c = true

instance (cs : List Char) : Decidable (Pointers cs) :=
  List.decidableBAll _ cs

/--
Spellings of a reference to `name`.
-/
def Spells (name cs : List Char) : Prop :=
  ∃ before after, Qualifiers before ∧ Pointers after ∧ cs = before ++ name ++ after

section Stripping

variable {cs : List Char} {p : Char → Bool}

theorem dropWhile_eq_self_iff_head
    : cs.dropWhile p = cs ↔ ∀ c, cs.head? = some c → p c = false := by
  cases cs with
  | nil => simp
  | cons c cs => simp [List.dropWhile_eq_self_iff]

theorem dropEndWhile_eq_self_iff
    : dropEndWhile p cs = cs ↔ ∀ c, cs.getLast? = some c → p c = false := by
  rw [← List.head?_reverse, ← dropWhile_eq_self_iff_head]
  exact List.reverse_eq_iff

theorem dropConst_mark (cs : List Char) : dropConst ("const ".toList ++ cs) = cs := by
  rfl

theorem dropConst_of_not_mark (h : ¬ "const ".toList <+: cs) : dropConst cs = cs := by
  unfold dropConst
  split
  . next rest => exact absurd ⟨rest, rfl⟩ h
  . rfl

/--
What one round of stripping leaves as it is has nothing to strip at its edges.
-/
theorem bare_of_strip_eq (h : strip cs = cs) : Bare cs := by
  have hround : (strip cs).Sublist (dropEndWhile (· == '*') (dropConst cs)) :=
    trimBlanks_sublist _
  rw [h] at hround
  have hconst : dropConst cs = cs :=
    (dropConst_sublist cs).antisymm (hround.trans (dropEndWhile_sublist _ _))
  rw [hconst] at hround
  have hstars : dropEndWhile (· == '*') cs = cs := (dropEndWhile_sublist _ cs).antisymm hround
  have hblanks : trimBlanks cs = cs := trimBlanks_eq_of_strip_eq h
  have hfront : cs.dropWhile isBlank = cs := by
    have hdrop : (trimBlanks cs).Sublist (cs.dropWhile isBlank) := dropEndWhile_sublist _ _
    rw [hblanks] at hdrop
    exact (List.dropWhile_sublist isBlank).antisymm hdrop
  have hback : dropEndWhile isBlank cs = cs := by rwa [trimBlanks, hfront] at hblanks
  refine ⟨dropWhile_eq_self_iff_head.1 hfront, ?_, ?_⟩
  . intro c hc
    have hstar := dropEndWhile_eq_self_iff.1 hstars c hc
    exact ⟨dropEndWhile_eq_self_iff.1 hback c hc, by simpa using hstar⟩
  . rintro ⟨rest, rfl⟩
    rw [dropConst_mark] at hconst
    exact absurd (List.self_eq_append_left.1 hconst) (by decide)

theorem trimBlanks_of_bare (h : Bare cs) : trimBlanks cs = cs := by
  have hfront : cs.dropWhile isBlank = cs := dropWhile_eq_self_iff_head.2 h.front
  rw [trimBlanks, hfront, dropEndWhile_eq_self_iff]
  exact fun c hc => (h.back c hc).1

theorem strip_of_bare (h : Bare cs) : strip cs = cs := by
  have hstars : dropEndWhile (· == '*') cs = cs := by
    rw [dropEndWhile_eq_self_iff]
    intro c hc
    simpa using (h.back c hc).2
  rw [strip, dropConst_of_not_mark h.const, hstars, trimBlanks_of_bare h]

theorem bare_stripAll (cs : List Char) : Bare (stripAll cs) :=
  bare_of_strip_eq (strip_stripAll cs)

theorem stripAll_of_bare (h : Bare cs) : stripAll cs = cs := by
  rw [stripAll, dif_pos (strip_of_bare h)]

/--
There are no more rounds than characters.
-/
theorem exists_rounds (cs : List Char) : ∃ rounds ≤ cs.length, strip^[rounds] cs = stripAll cs := by
  fun_induction stripAll cs with
  | case1 cs h => exact ⟨0, Nat.zero_le _, rfl⟩
  | case2 cs h ih =>
    rcases ih with ⟨rounds, hle, hrounds⟩
    have hlt := length_strip_lt h
    exact ⟨rounds + 1, by omega, hrounds⟩

end Stripping

theorem toList_core (ref : String) : (core ref).toList = stripAll (trimBlanks ref.toList) :=
  String.toList_ofList

theorem bare_core (ref : String) : Bare (core ref).toList := by
  rw [toList_core]
  exact bare_stripAll _

theorem core_eq_self_iff {name : String} : core name = name ↔ Bare name.toList := by
  constructor
  . intro h
    rw [← h]
    exact bare_core name
  . intro h
    rw [core, trimBlanks_of_bare h, stripAll_of_bare h, String.ofList_toList]

section Spelling

variable {name cs : List Char} {p : Char → Bool}

-- Each step takes only from what stands around the name, so the order of the steps is of no concern.

theorem Spells.dropBlanks (hname : Plain name) (h : Spells name cs)
    : Spells name (cs.dropWhile isBlank) := by
  rcases h with ⟨before, after, hbefore, hafter, rfl⟩
  induction hbefore with
  | nil =>
    refine ⟨[], after, .nil, hafter, dropWhile_eq_self_iff_head.2 ?_⟩
    intro c hc
    rw [List.nil_append, List.head?_append_of_ne_nil _ hname.ne_nil] at hc
    exact hname.front c hc
  | const h => exact ⟨_, after, .const h, hafter, rfl⟩
  | blank hc _ ih =>
    rw [List.cons_append, List.cons_append, List.dropWhile_cons_of_pos hc]
    exact ih

theorem Spells.dropEnd (hne : name ≠ []) (hlast : ∀ c, name.getLast? = some c → p c = false)
    (h : Spells name cs) : Spells name (dropEndWhile p cs) := by
  rcases h with ⟨before, after, hbefore, hafter, rfl⟩
  induction after using List.reverseRecOn with
  | nil =>
    refine ⟨before, [], hbefore, hafter, dropEndWhile_eq_self_iff.2 ?_⟩
    intro c hc
    rw [List.append_nil, List.getLast?_append_of_ne_nil _ hne] at hc
    exact hlast c hc
  | append_singleton after c ih =>
    have hconcat := List.rdropWhile_concat p (before ++ name ++ after) c
    rw [← List.append_assoc]
    change Spells name (List.rdropWhile p _)
    rw [hconcat]
    split
    . exact ih fun c hc => hafter c (List.mem_append_left _ hc)
    . exact ⟨before, after ++ [c], hbefore, hafter, List.append_assoc _ _ _⟩

-- What is behind the name does not make it begin with `const `: only `const` itself would.
theorem Plain.not_mark_append {after : List Char} (hname : Plain name) (hafter : Pointers after)
    : ¬ "const ".toList <+: name ++ after := by
  rintro ⟨rest, hrest⟩
  rcases List.append_eq_append_iff.1 hrest with ⟨x, hx, _⟩ | ⟨x, hx, hpointers⟩
  . exact hname.const ⟨x, hx.symm⟩
  . have hends : ∀ x ∈ "const ".toList.tails, Pointers x → x = [] ∨ x = [' '] := by decide
    have hpointers : Pointers x := by
      intro c hc
      apply hafter
      rw [hpointers]
      exact List.mem_append_left _ hc
    rcases hends x ((List.mem_tails _ _).2 ⟨name, hx.symm⟩) hpointers with rfl | rfl
    . rw [List.append_nil] at hx
      exact hname.const ⟨[], by rw [List.append_nil, hx]⟩
    . exact hname.ne_const (List.append_cancel_right hx.symm)

theorem Spells.dropConst (hname : Plain name) (h : Spells name cs) : Spells name (dropConst cs) := by
  rcases h with ⟨before, after, hbefore, hafter, rfl⟩
  cases hbefore with
  | nil =>
    rw [List.nil_append, dropConst_of_not_mark (hname.not_mark_append hafter)]
    exact ⟨[], after, .nil, hafter, rfl⟩
  | const h =>
    rw [List.append_assoc, List.append_assoc, dropConst_mark]
    exact ⟨_, after, h, hafter, (List.append_assoc _ _ _).symm⟩
  | blank hc h =>
    rw [dropConst_of_not_mark]
    . exact ⟨_, after, .blank hc h, hafter, rfl⟩
    . rintro ⟨rest, hrest⟩
      rw [← (List.cons.inj hrest).1] at hc
      exact absurd hc (by decide)

theorem Spells.trimBlanks (hname : Plain name) (h : Spells name cs)
    : Spells name (trimBlanks cs) :=
  (h.dropBlanks hname).dropEnd hname.ne_nil fun c hc => (hname.back c hc).1

theorem Spells.strip (hname : Plain name) (h : Spells name cs) : Spells name (strip cs) := by
  apply Spells.trimBlanks hname
  apply Spells.dropEnd hname.ne_nil _ (h.dropConst hname)
  intro c hc
  simpa using (hname.back c hc).2

theorem Spells.stripAll (hname : Plain name) (h : Spells name cs) : Spells name (stripAll cs) := by
  fun_induction Reference.stripAll cs with
  | case1 cs _ => exact h
  | case2 cs _ ih => exact ih (h.strip hname)

theorem Spells.eq_of_bare (h : Spells name cs) (hcs : Bare cs) : cs = name := by
  rcases h with ⟨before, after, hbefore, hafter, rfl⟩
  have hfront : before = [] := by
    cases hbefore with
    | nil => rfl
    | const h =>
      apply absurd _ hcs.const
      simp only [List.append_assoc]
      exact List.prefix_append _ _
    | blank hc h => exact absurd hc (by simp [hcs.front _ rfl])
  have hback : after = [] := by
    rcases List.eq_nil_or_concat after with rfl | ⟨after, c, rfl⟩
    . rfl
    . have hlast := hcs.back c (by simp)
      rcases hafter c (by simp) with rfl | hblank
      . exact absurd rfl hlast.2
      . exact absurd hblank (by simp [hlast.1])
  rw [hfront, hback, List.nil_append, List.append_nil]

theorem Qualifiers.count_star (h : Qualifiers cs) : cs.count '*' = 0 := by
  induction h with
  | nil => rfl
  | const _ ih => rw [List.count_append, ih, Nat.add_zero, List.count_eq_zero]; decide
  | blank hc _ ih =>
    rw [List.count_cons_of_ne, ih]
    rintro rfl
    exact absurd hc (by decide)

end Spelling

section Names

variable {name before after ref : String}

theorem core_of_spells (hname : Plain name.toList) (h : Spells name.toList ref.toList)
    : core ref = name := by
  have hstripped := (h.trimBlanks hname).stripAll hname
  rw [core, hstripped.eq_of_bare (bare_stripAll _), String.ofList_toList]

theorem spells_around (hbefore : Qualifiers before.toList) (hafter : Pointers after.toList)
    : Spells name.toList (before ++ name ++ after).toList :=
  ⟨_, _, hbefore, hafter, by rw [String.toList_append, String.toList_append]⟩

theorem depth_around (hbefore : Qualifiers before.toList)
    : depth (before ++ name ++ after) = depth name + after.toList.count '*' := by
  unfold depth
  rw [String.toList_append, String.toList_append, List.count_append, List.count_append,
    hbefore.count_star, Nat.zero_add]

/--
The names that every spelling refers to are the plain ones and no others.
-/
theorem plain_iff
    : Plain name.toList
        ↔
      ∀ before after : String, Qualifiers before.toList → Pointers after.toList →
        core (before ++ name ++ after) = name := by
  constructor
  . intro hname before after hbefore hafter
    exact core_of_spells hname (spells_around hbefore hafter)
  . intro h
    have hself : core name = name := by
      have hname := h "" "" .nil (by simp [Pointers])
      rwa [String.append_empty, String.empty_append] at hname
    refine ⟨core_eq_self_iff.1 hself, ?_, ?_⟩
    . intro hnil
      obtain rfl : name = "" := String.toList_inj.1 hnil
      exact absurd (h "const " "" (.const .nil) (by simp [Pointers])) (by decide +kernel)
    . intro hconst
      obtain rfl : name = "const" := String.toList_inj.1 hconst
      exact absurd (h "" " *" .nil (by simp [Pointers, isBlank])) (by decide +kernel)

theorem resolve_of_core {t : Table} (h : core ref = name)
    : (∀ d, t.find? name = some d → t.resolve ref = .ok ⟨d, depth ref, t.crossing d⟩)
        ∧ (t.find? name = none → t.resolve ref = .error (.notFound name)) := by
  unfold Table.resolve Table.lookup Table.get?
  rw [h]
  constructor
  . intro d hd
    rw [hd]
    rfl
  . intro hnone
    rw [hnone]
    rfl

end Names

theorem dropConst_suffix (cs : List Char) : dropConst cs <:+ cs := by
  unfold dropConst
  split
  . exact ⟨"const ".toList, rfl⟩
  . exact List.suffix_rfl

theorem trimBlanks_within (cs : List Char) : trimBlanks cs <:+: cs :=
  (List.rdropWhile_prefix isBlank _).isInfix.trans (List.dropWhile_suffix isBlank).isInfix

theorem strip_within (cs : List Char) : strip cs <:+: cs :=
  (trimBlanks_within _).trans
    ((List.rdropWhile_prefix _ _).isInfix.trans (dropConst_suffix cs).isInfix)

theorem stripAll_within (cs : List Char) : stripAll cs <:+: cs := by
  fun_induction stripAll cs with
  | case1 => exact List.infix_rfl
  | case2 cs _ ih => exact ih.trans (strip_within cs)

/--
A plain name is what every reference to it comes down to, whatever qualifiers, blanks and pointers
are written around it, and the pointers behind it are counted. Only plain names have this property.
Stripping ends after at most as many rounds as there are characters; it leaves a part of the
reference that has nothing more to strip.
-/
theorem spellings_refer
    : (∀ name before after : String, Plain name.toList → Qualifiers before.toList →
          Pointers after.toList →
            core (before ++ name ++ after) = name
              ∧ depth (before ++ name ++ after) = depth name + after.toList.count '*'
              ∧ ∀ t : Table,
                  (∀ d, t.find? name = some d →
                      t.resolve (before ++ name ++ after)
                        = .ok ⟨d, depth name + after.toList.count '*', t.crossing d⟩)
                    ∧ (t.find? name = none →
                        t.resolve (before ++ name ++ after) = .error (.notFound name)))
        ∧ (∀ name : String,
            (∀ before after : String, Qualifiers before.toList → Pointers after.toList →
                core (before ++ name ++ after) = name) → Plain name.toList)
        ∧ ∀ ref : String,
            (∃ rounds ≤ ref.length, strip^[rounds] (trimBlanks ref.toList) = (core ref).toList)
              ∧ strip (core ref).toList = (core ref).toList ∧ (core ref).toList <:+: ref.toList
              ∧ Bare (core ref).toList ∧ core (core ref) = core ref := by
  refine ⟨?_, fun _ => plain_iff.2, ?_⟩
  . intro name before after hname hbefore hafter
    have hcore := plain_iff.1 hname before after hbefore hafter
    have hdepth : depth (before ++ name ++ after) = depth name + after.toList.count '*' :=
      depth_around hbefore
    refine ⟨hcore, hdepth, ?_⟩
    intro t
    rw [← hdepth]
    exact resolve_of_core hcore
  . intro ref
    have hbare := bare_core ref
    refine ⟨?_, strip_of_bare hbare, ?_, hbare, core_core ref⟩
    . rcases exists_rounds (trimBlanks ref.toList) with ⟨rounds, hle, hrounds⟩
      rw [toList_core]
      have htrim := (trimBlanks_sublist ref.toList).length_le
      rw [String.length_toList] at htrim
      exact ⟨rounds, hle.trans htrim, hrounds⟩
    . rw [toList_core]
      exact (stripAll_within _).trans (trimBlanks_within _)

-- A tab and a line feed are blanks too.
theorem spellings_refer_node
    : Plain "DemoNode".toList ∧ Qualifiers "const \tconst ".toList ∧ Pointers " * *\n".toList
        ∧ core "const \tconst DemoNode * *\n" = "DemoNode"
        ∧ depth "const \tconst DemoNode * *\n" = 2 := by
  have hname : Plain "DemoNode".toList :=
    ⟨core_eq_self_iff.1 (by decide +kernel), by decide, by decide⟩
  have hbefore : Qualifiers "const \tconst ".toList := .const (.blank rfl (.const .nil))
  have hafter : Pointers " * *\n".toList := by decide
  have hrefers := spellings_refer.1 _ _ _ hname hbefore hafter
  exact ⟨hname, hbefore, hafter, hrefers.1, hrefers.2.1⟩

end Reference

end Interop
