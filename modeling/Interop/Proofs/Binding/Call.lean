import Interop.Proofs.Binding.Shape

/-!
This module contains the places in a call: which argument a parameter becomes when managed code
calls, and which one when it is called, where the parameters that managed code does not see leave no
gap.
-/

namespace Interop.Binding

variable {t : Table} {s : Signature} {c : CallShape} {i k : Nat} {q : CallParam}

theorem argument_of_value (hrole : q.role = .value) : c.argument q k = .passed k q.passedText := by
  unfold CallShape.argument
  rw [hrole]

theorem argument_of_lengthOf (hrole : q.role = .lengthOf i)
    : c.argument q k = .counted k i (nativeCount q (c.nameAt i)) := by
  unfold CallShape.argument
  rw [hrole]

theorem argument_of_returnLength (hrole : q.role = .returnLength)
    : c.argument q k = .received k q.name := by
  unfold CallShape.argument
  rw [hrole]

namespace CallShape

theorem nameAt_eq {a : CallParam} (ha : c.params[i]? = some a) : c.nameAt i = a.name := by
  unfold nameAt
  rw [ha]
  rfl

theorem arguments_getElem? (leading : Option String) (hq : c.params[k]? = some q)
    : (c.arguments leading)[leading.toList.length + k]? = some (c.argument q k) := by
  unfold arguments
  rw [List.getElem?_append_right (by simp), List.length_map, Nat.add_sub_cancel_left,
    List.getElem?_map, List.getElem?_zipIdx, hq, Nat.zero_add]
  rfl

theorem importParams_getElem? (leading : Option ImportParam) (hq : c.params[k]? = some q)
    : (c.importParams leading)[leading.toList.length + k]?
        = some ⟨q.role = .returnLength, q.use.crossing.boundary, q.name⟩ := by
  unfold importParams
  rw [List.getElem?_append_right (by simp), Nat.add_sub_cancel_left, List.getElem?_map, hq]
  rfl

/--
The number of parameters before place `k` that managed code sees.
-/
def rank (c : CallShape) (k : Nat) : Nat :=
  (c.params.take k).countP (·.role = .value)

theorem reverseArguments_getElem? (hq : c.params[k]? = some q) (hrole : q.role = .value)
    : c.reverseArguments[c.rank k]? = some (managedValue q.use q.name (c.lengthOf? k)) := by
  rcases List.getElem?_eq_some_iff.1 hq with ⟨hk, rfl⟩
  -- What is filtered out before place `k` does not count, so the place moves to the rank.
  have hsplit : c.params.zipIdx
      = (c.params.take k).zipIdx ++ (c.params[k], k) :: (c.params.drop (k + 1)).zipIdx (k + 1) := by
    conv_lhs => rw [← List.take_append_drop k c.params, List.drop_eq_getElem_cons hk]
    rw [List.zipIdx_append, List.zipIdx_cons, List.length_take, Nat.min_eq_left (by omega),
      Nat.zero_add]
  have hrank : c.rank k
      = ((c.params.take k).zipIdx.filter fun x => decide (x.1.role = .value)).length := by
    unfold rank
    rw [← List.countP_eq_length_filter]
    conv_lhs => rw [← List.zipIdx_map_fst 0 (c.params.take k), List.countP_map]
    rfl
  have hreverse : c.reverseArguments
      = (c.params.zipIdx.filter fun x => decide (x.1.role = .value)).map fun x =>
          managedValue x.1.use x.1.name (c.lengthOf? x.2) := rfl
  rw [hreverse, List.getElem?_map, hsplit, List.filter_append, hrank,
    List.getElem?_append_right (Nat.le_refl _), Nat.sub_self]
  simp [hrole]

theorem lengthOf?_eq_none : c.lengthOf? i = none ↔ ∀ q ∈ c.params, q.role ≠ .lengthOf i := by
  simp [lengthOf?]

theorem exists_of_lengthOf? (h : c.lengthOf? i = some q)
    : ∃ k : Nat, c.params[k]? = some q ∧ q.role = .lengthOf i := by
  rcases List.getElem?_of_mem (List.mem_of_find?_eq_some h) with ⟨k, hk⟩
  exact ⟨k, hk, by simpa using List.find?_some h⟩

end CallShape

theorem CallShape.Counts.inj {j : Nat} (hk : c.Counts s i k) (hj : c.Counts s i j) : k = j := by
  rcases hk with ⟨a, ha, hk, _⟩
  rcases hj with ⟨b, hb, hj, _⟩
  grind

-- An array names one parameter at most, so the first one with its length is the only one.
theorem Shaped.lengthOf?_eq_some (h : Shaped t s c) (hq : c.params[k]? = some q)
    (hrole : q.role = .lengthOf i) : c.lengthOf? i = some q := by
  cases hfound : c.lengthOf? i with
  | none => exact absurd hrole (CallShape.lengthOf?_eq_none.1 hfound q (List.mem_of_getElem? hq))
  | some r =>
    rcases CallShape.exists_of_lengthOf? hfound with ⟨j, hr, hrole'⟩
    have hk := ((h.role_eq_lengthOf hq).1 hrole).2.1
    have hj := ((h.role_eq_lengthOf hr).1 hrole').2.1
    obtain rfl : k = j := hk.inj hj
    rw [← hr, hq]

end Interop.Binding
