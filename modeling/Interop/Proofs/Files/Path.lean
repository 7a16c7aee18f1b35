import Interop.Files.Path
import Mathlib.Data.List.Basic

/-!
This module contains the parts of a path that ends with one plain name in a directory: those of the
directory and the name after them. So in one directory different plain names are different places.
-/

namespace Interop

namespace Text

theorem pieces_of_not_mem {separates : Char → Bool} {cs : List Char}
    (h : ∀ c ∈ cs, separates c = false) : pieces separates cs = [cs] := by
  induction cs with
  | nil => rfl
  | cons c cs ih =>
    rw [List.forall_mem_cons] at h
    simp [pieces, h.1, ih h.2]

theorem pieces_append {separates : Char → Bool} {before after : List Char} {c : Char}
    (hc : separates c = true)
    : pieces separates (before ++ c :: after)
        = pieces separates before ++ pieces separates after := by
  induction before with
  | nil => simp [pieces, hc]
  | cons b before ih =>
    rw [List.cons_append, pieces, pieces, ih]
    split
    . rfl
    . cases h : pieces separates before with
      | nil => exact absurd h (pieces_ne_nil _ _)
      | cons p ps => rfl

end Text

namespace Path

variable {dir : Path} {name : String}

theorem pieces_ne_nil : dir.pieces ≠ [] := by
  unfold pieces Text.splitAt
  rw [Ne, List.map_eq_nil_iff]
  exact Text.pieces_ne_nil _ _

theorem pieces_slash (s name : String)
    : (Path.mk (s ++ "/" ++ name)).pieces = (Path.mk s).pieces ++ (Path.mk name).pieces := by
  unfold pieces Text.splitAt
  have hslash : "/".toList = ['/'] := rfl
  rw [String.toList_append, String.toList_append, hslash, List.append_assoc, List.singleton_append,
    Text.pieces_append (by decide), List.map_append]

theorem pieces_of_plain (h : '/' ∉ name.toList) : (Path.mk name).pieces = [name] := by
  unfold pieces Text.splitAt
  rw [Text.pieces_of_not_mem]
  . simp
  . intro c hc
    rw [beq_eq_false_iff_ne]
    rintro rfl
    exact h hc

theorem isAbsolute_slash (s name : String)
    : (Path.mk (s ++ "/" ++ name)).isAbsolute = (Path.mk (s ++ "/")).isAbsolute := by
  unfold isAbsolute
  have hslash : "/".toList = ['/'] := rfl
  simp only [String.toList_append, hslash]
  cases s.toList <;> rfl

theorem isAbsolute_of_plain (h : '/' ∉ name.toList) : (Path.mk name).isAbsolute = false := by
  unfold isAbsolute
  rw [beq_eq_false_iff_ne]
  intro hhead
  exact h (List.mem_of_head? hhead)

/--
A name of its own: it has no separator, and it is none of the names that stand for directories.
-/
structure Plain (name : String) : Prop where
  slash : '/' ∉ name.toList
  part : parts.part name = [.name name]

theorem parts_slash (s : String) (h : Plain name)
    : (Path.mk (s ++ "/" ++ name)).parts = (Path.mk (s ++ "/")).parts ++ [.name name] := by
  have hempty : (Path.mk (s ++ "/")).pieces = (Path.mk s).pieces ++ [""] := by
    rw [← String.append_empty (s := s ++ "/"), pieces_slash]
    rfl
  have hpieces : (Path.mk (s ++ "/" ++ name)).pieces = (Path.mk s).pieces ++ [name] := by
    rw [pieces_slash, pieces_of_plain h.slash]
  have hnone : parts.part "" = [] := rfl
  unfold parts
  rw [isAbsolute_slash, hempty, hpieces]
  cases hfirst : (Path.mk s).pieces with
  | nil => exact absurd hfirst pieces_ne_nil
  | cons first rest =>
    simp only [List.cons_append, List.drop_succ_cons, List.drop_zero, List.flatMap_append,
      List.flatMap_singleton, hnone, h.part, List.append_nil, List.head?_cons]
    split
    . rfl
    . split <;> simp

theorem parts_of_plain (h : Plain name) : (Path.mk name).parts = [.name name] := by
  have hpieces := pieces_of_plain h.slash
  have hpart := h.part
  unfold parts
  rw [isAbsolute_of_plain h.slash, hpieces]
  simp only [List.head?_cons, List.drop_succ_cons, List.drop_zero, List.flatMap_nil,
    Bool.false_eq_true, if_false]
  split
  . next hdot =>
    rw [Option.some.inj hdot] at hpart
    cases hpart
  . next first _ hfirst =>
    rw [← Option.some.inj hfirst, List.append_nil]
    exact hpart
  . next hnone => cases hnone

/--
What comes before a name in the directory.
-/
def leading (dir : Path) : List Part :=
  if dir.text = "" then []
  else if dir.text.toList.getLast? = some '/' then dir.parts
  else (Path.mk (dir.text ++ "/")).parts

theorem parts_join (dir : Path) (h : Plain name)
    : (dir.join ⟨name⟩).parts = dir.leading ++ [.name name] := by
  have hrelative := isAbsolute_of_plain h.slash
  unfold join leading
  rw [hrelative, Bool.false_or]
  by_cases hempty : dir.text = ""
  . rw [if_pos hempty, if_pos (by simpa using hempty)]
    exact parts_of_plain h
  . rw [if_neg hempty, if_neg (by simpa using hempty)]
    by_cases hslash : dir.text.toList.getLast? = some '/'
    . rw [if_pos hslash, if_pos (by simpa using hslash)]
      rcases List.getLast?_eq_some_iff.1 hslash with ⟨before, hbefore⟩
      have htext : dir.text = String.ofList before ++ "/" := by
        apply String.toList_inj.1
        rw [hbefore, String.toList_append, String.toList_ofList]
        rfl
      have hparts := parts_slash (String.ofList before) h
      rwa [← htext] at hparts
    . rw [if_neg hslash, if_neg (by simpa using hslash)]
      exact parts_slash dir.text h

/--
In a directory a plain name is the same place as another one only if it is that one.
-/
theorem same_join_iff (dir : Path) {other : String} (h : Plain name) (hother : Plain other)
    : (dir.join ⟨name⟩).same (dir.join ⟨other⟩) = true ↔ name = other := by
  unfold same
  rw [parts_join dir h, parts_join dir hother, beq_iff_eq, List.append_cancel_left_eq]
  simp

end Path

end Interop
