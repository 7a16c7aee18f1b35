import Interop.Proofs.Binding.Supplied
import Interop.Proofs.Binding.Visible
import Interop.Proofs.Files.Path

/-!
This module contains which constructors of an object are written: a declared one is, unless the one
around a raw handle or a declared one before it takes the same types, so that no two of a class take
the same.
-/

namespace Interop

/--
A name that can be read back from a text in which commas separate names.
-/
def Listable (name : String) : Prop :=
  name ≠ "" ∧ ',' ∉ name.toList

instance {name : String} : Decidable (Listable name) :=
  inferInstanceAs (Decidable (_ ∧ _))

theorem toList_commaSeparated_cons {x y : String} {l : List String}
    : (Source.commaSeparated (x :: y :: l)).toList
        = x.toList ++ ',' :: ' ' :: (Source.commaSeparated (y :: l)).toList := by
  unfold Source.commaSeparated
  rw [String.intercalate_cons_cons, String.toList_append, String.toList_append, List.append_assoc]
  rfl

theorem pieces_of_listable {name : String} (h : Listable name)
    : Text.pieces (· == ',') name.toList = [name.toList] := by
  apply Text.pieces_of_not_mem
  intro c hc
  rw [beq_eq_false_iff_ne]
  rintro rfl
  exact h.2 hc

theorem commaSeparated_singleton_ne {x y z : String} {l : List String} (hx : Listable x)
    : Source.commaSeparated [x] ≠ Source.commaSeparated (y :: z :: l) := by
  intro h
  have hcomma : ',' ∈ (Source.commaSeparated [x]).toList := by
    rw [h, toList_commaSeparated_cons]
    simp
  exact hx.2 (by simpa [Source.commaSeparated] using hcomma)

theorem commaSeparated_cons_ne_empty {x : String} {l : List String} (hx : Listable x)
    : Source.commaSeparated (x :: l) ≠ Source.commaSeparated [] := by
  intro h
  cases l with
  | nil => exact hx.1 (by simpa [Source.commaSeparated] using h)
  | cons y l =>
    have hlist := congrArg String.toList h
    rw [toList_commaSeparated_cons] at hlist
    simp [Source.commaSeparated] at hlist

theorem commaSeparated_inj {xs ys : List String} (hxs : ∀ x ∈ xs, Listable x)
    (hys : ∀ y ∈ ys, Listable y) (h : Source.commaSeparated xs = Source.commaSeparated ys)
    : xs = ys := by
  induction xs generalizing ys with
  | nil =>
    cases ys with
    | nil => rfl
    | cons y ys => exact absurd h.symm (commaSeparated_cons_ne_empty (hys y List.mem_cons_self))
  | cons x xs ih =>
    rw [List.forall_mem_cons] at hxs
    cases ys with
    | nil => exact absurd h (commaSeparated_cons_ne_empty hxs.1)
    | cons y ys =>
      rw [List.forall_mem_cons] at hys
      match xs, ys with
      | [], [] => simpa [Source.commaSeparated] using h
      | [], _ :: _ => exact absurd h (commaSeparated_singleton_ne hxs.1)
      | _ :: _, [] => exact absurd h.symm (commaSeparated_singleton_ne hys.1)
      | x' :: xs, y' :: ys =>
        have hlist := congrArg String.toList h
        rw [toList_commaSeparated_cons, toList_commaSeparated_cons] at hlist
        -- The first pieces are the first names, and with them gone the rest is the same.
        have hfirst : x.toList = y.toList := by
          have hpieces := congrArg (Text.pieces (· == ',')) hlist
          rw [Text.pieces_append (by rfl), Text.pieces_append (by rfl), pieces_of_listable hxs.1,
            pieces_of_listable hys.1] at hpieces
          exact (List.cons_eq_cons.1 hpieces).1
        rw [hfirst, List.append_cancel_left_eq] at hlist
        simp only [List.cons.injEq, true_and] at hlist
        rw [String.toList_inj.1 hfirst, ih hxs.2 hys.2 (String.toList_inj.1 hlist)]

/--
Every registered type has a managed name that can be listed.
-/
def Table.Listable (t : Table) : Prop :=
  ∀ d ∈ t.entries, Interop.Listable (t.crossing d).managed

instance {t : Table} : Decidable t.Listable :=
  inferInstanceAs (Decidable (∀ d ∈ t.entries, _))

theorem managed_behind (c : Crossing) (depth : Nat)
    : (c.behind depth).managed = c.managed ∨ (c.behind depth).managed = "string"
        ∨ (c.behind depth).managed = "IntPtr" := by
  unfold Crossing.behind
  split
  . exact .inl rfl
  . split
    . exact .inl rfl
    . exact .inl rfl
    . exact .inl rfl
    . exact .inl rfl
    . split
      . exact .inr (.inl rfl)
      . exact .inr (.inr rfl)
    . exact .inr (.inr rfl)
  . exact .inr (.inr rfl)

theorem Table.Listable.use {t : Table} (h : t.Listable) {ref : String} {use : Use}
    (huse : t.resolve ref = .ok use) : Interop.Listable use.crossing.managed := by
  rcases Table.resolve_eq_ok.1 huse with ⟨d, hget, rfl⟩
  unfold Use.crossing
  rcases managed_behind (t.useOf ref d).content (t.useOf ref d).depth with hown | htext | haddress
  . rw [hown]
    exact h d (Table.mem_of_find? hget)
  . rw [htext]
    exact ⟨by decide, by decide⟩
  . rw [haddress]
    exact ⟨by decide, by decide⟩

namespace Binding

def Member.types (m : Member) : List String :=
  m.shape.visible.map (·.use.crossing.managed)

/--
The constructor at place `k` takes the types of one before it, or one of the texts in `taken`.
-/
def Clashes (taken : List String) (ms : List Member) (k : Nat) : Prop :=
  ∃ m, ms[k]? = some m ∧ (constructorTypes m ∈ taken
    ∨ ∃ j m', j < k ∧ ms[j]? = some m' ∧ constructorTypes m' = constructorTypes m)

/--
The constructor at place `k` takes an address alone, as the one around a raw handle does, or the
types of a declared one before it.
-/
def LeftOut (ms : List Member) (k : Nat) : Prop :=
  ∃ m, ms[k]? = some m
    ∧ (m.types = ["IntPtr"] ∨ ∃ j m', j < k ∧ ms[j]? = some m' ∧ m'.types = m.types)

variable {t : Table} {taken : List String} {m : Member} {ms : List Member} {k : Nat}

theorem clashes_zero : Clashes taken (m :: ms) 0 ↔ constructorTypes m ∈ taken := by
  simp [Clashes]

theorem clashes_succ
    : Clashes taken (m :: ms) (k + 1) ↔ Clashes (constructorTypes m :: taken) ms k := by
  unfold Clashes
  constructor
  . rintro ⟨n, hn, htaken | ⟨j, m', hj, hm', heq⟩⟩
    . exact ⟨n, hn, .inl (List.mem_cons_of_mem _ htaken)⟩
    . cases j with
      | zero =>
        obtain rfl : m = m' := by simpa using hm'
        exact ⟨n, hn, .inl (heq ▸ List.mem_cons_self)⟩
      | succ j => exact ⟨n, hn, .inr ⟨j, m', by omega, hm', heq⟩⟩
  . rintro ⟨n, hn, htaken | ⟨j, m', hj, hm', heq⟩⟩
    . rcases List.mem_cons.1 htaken with heq | htaken
      . exact ⟨n, hn, .inr ⟨0, m, by omega, rfl, heq.symm⟩⟩
      . exact ⟨n, hn, .inl htaken⟩
    . exact ⟨n, hn, .inr ⟨j + 1, m', by omega, hm', heq⟩⟩

theorem clashes_of_mem (h : constructorTypes m ∈ taken)
    : Clashes (constructorTypes m :: taken) ms k ↔ Clashes taken ms k := by
  unfold Clashes
  grind

theorem selectConstructors_kept (taken : List String) (ms : List Member)
    : KeptAt (fun k => ¬ Clashes taken ms k) ms (selectConstructors taken ms).1 := by
  induction ms generalizing taken with
  | nil => exact .nil
  | cons m ms ih =>
    unfold selectConstructors
    split
    . next htaken =>
      apply KeptAt.skip (not_not_intro (clashes_zero.2 htaken))
      simp only [clashes_succ, clashes_of_mem htaken]
      exact ih taken
    . next htaken =>
      apply KeptAt.take (mt clashes_zero.1 htaken)
      simp only [clashes_succ]
      exact ih _

theorem selectConstructors_nodup (taken : List String) (ms : List Member)
    : ((selectConstructors taken ms).1.map constructorTypes).Nodup
        ∧ ∀ m ∈ (selectConstructors taken ms).1, constructorTypes m ∉ taken := by
  induction ms generalizing taken with
  | nil => exact ⟨.nil, by simp [selectConstructors]⟩
  | cons m ms ih =>
    unfold selectConstructors
    split
    . exact ih taken
    . next htaken =>
      rcases ih (constructorTypes m :: taken) with ⟨hnodup, hfresh⟩
      constructor
      . rw [List.map_cons, List.nodup_cons]
        refine ⟨?_, hnodup⟩
        rintro hmem
        rcases List.mem_map.1 hmem with ⟨m', hm', heq⟩
        exact hfresh m' hm' (heq ▸ List.mem_cons_self)
      . rw [List.forall_mem_cons]
        refine ⟨htaken, ?_⟩
        intro m' hm' htaken'
        exact hfresh m' hm' (List.mem_cons_of_mem _ htaken')

theorem shapeMethods_members {what : String} {ds : List Method}
    (h : shapeMethods t what ds = .ok ms)
    : ms.map (·.method) = ds
      ∧ ∀ m ∈ ms, CallShape.ofSignature t m.method.signature = .ok m.shape := by
  induction ds generalizing ms with
  | nil =>
    rw [← Except.ok.inj h]
    exact ⟨rfl, by simp⟩
  | cons d ds ih =>
    unfold shapeMethods at h
    rcases Fault.bind_eq_ok.1 h with ⟨shape, hshape, h⟩
    rcases Fault.bind_eq_ok.1 h with ⟨rest, hrest, h⟩
    rcases ih hrest with ⟨hmethods, hshapes⟩
    rw [← Except.ok.inj h, List.map_cons, hmethods, List.forall_mem_cons]
    exact ⟨rfl, within_eq_ok.1 hshape, hshapes⟩

theorem planObject_constructors {o : ObjectType} {plan : ObjectPlan}
    (h : planObject t o = .ok plan)
    : ∃ members, shapeMethods t "constructor" o.constructors = .ok members
        ∧ plan.constructors = (selectConstructors [handleTypes] members).1 := by
  unfold planObject at h
  rcases Fault.bind_eq_ok.1 h with ⟨base, _, h⟩
  rcases Fault.bind_eq_ok.1 h with ⟨members, hmembers, h⟩
  rcases Fault.bind_eq_ok.1 h with ⟨methods, _, h⟩
  rcases Fault.bind_eq_ok.1 h with ⟨virtuals, _, h⟩
  rw [← Except.ok.inj h]
  exact ⟨members, hmembers, rfl⟩

theorem Member.types_listable (h : Shaped t m.method.signature m.shape) (ht : t.Listable)
    : ∀ name ∈ m.types, Listable name := by
  intro name hname
  rcases List.mem_map.1 hname with ⟨q, hq, rfl⟩
  rcases List.getElem?_of_mem (List.mem_filter.1 hq).1 with ⟨k, hk⟩
  rcases h.source hk with ⟨p, _, huse, _⟩
  exact ht.use huse

-- The texts are compared, which comes to the same as long as names can be read back from them.
theorem clashes_iff_leftOut (hms : ∀ m ∈ ms, ∀ name ∈ m.types, Listable name)
    : Clashes [handleTypes] ms k ↔ LeftOut ms k := by
  have hhandle : handleTypes = Source.commaSeparated ["IntPtr"] := by
    simp [handleTypes, Source.commaSeparated]
  have hlistable : ∀ name ∈ ["IntPtr"], Listable name := by
    intro name hname
    rw [List.mem_singleton.1 hname]
    exact ⟨by decide, by decide⟩
  unfold Clashes LeftOut
  refine exists_congr fun m => and_congr_right fun hm => or_congr ?_ ?_
  . rw [List.mem_singleton, hhandle]
    constructor
    . exact commaSeparated_inj (hms m (List.mem_of_getElem? hm)) hlistable
    . intro h
      exact congrArg Source.commaSeparated h
  . refine exists_congr fun j => exists_congr fun m' => and_congr_right fun _ =>
      and_congr_right fun hm' => ?_
    constructor
    . exact commaSeparated_inj (hms m' (List.mem_of_getElem? hm'))
        (hms m (List.mem_of_getElem? hm))
    . intro h
      exact congrArg Source.commaSeparated h

/--
No two constructors of a bound object take the same types, the one around a raw handle included. A
declared one is left out exactly if that one or a declared one before it takes the same; the others
are written in their order, and counted. The class has these constructors and no more.
-/
theorem constructors_distinct (t : Table) (o : ObjectType) (e : Emitted)
    (h : bindObject t o = .ok e) (ht : t.Listable)
    : ∃ members plan source, shapeMethods t "constructor" o.constructors = .ok members
        ∧ members.map (·.method) = o.constructors
        ∧ (∀ m ∈ members, CallShape.ofSignature t m.method.signature = .ok m.shape)
        ∧ planObject t o = .ok plan
        ∧ e.managed? = some ⟨o.identity.name, Source.text source⟩
        ∧ ClassText o plan source
        ∧ (["IntPtr"] :: plan.constructors.map Member.types).Nodup
        ∧ KeptAt (fun k => ¬ LeftOut members k) members plan.constructors
        ∧ e.counts.constructors = plan.constructors.length := by
  unfold bindObject at h
  rcases Fault.bind_eq_ok.1 h with ⟨plan, hplan, h⟩
  rcases planObject_constructors hplan with ⟨members, hmembers, hselected⟩
  rcases shapeMethods_members hmembers with ⟨hmethods, hshapes⟩
  refine ⟨members, plan, objectSource o plan, hmembers, hmethods, hshapes, hplan, ?_,
    objectSource_text o plan, ?_, ?_, ?_⟩
  . rw [← Except.ok.inj h]
  . rcases selectConstructors_nodup [handleTypes] members with ⟨hnodup, hfresh⟩
    rw [← hselected] at hnodup hfresh
    rw [List.nodup_cons]
    constructor
    . intro hmem
      rcases List.mem_map.1 hmem with ⟨m, hm, htypes⟩
      apply hfresh m hm
      unfold constructorTypes
      rw [List.mem_singleton]
      exact congrArg Source.commaSeparated htypes
    . apply List.Nodup.of_map Source.commaSeparated
      rw [List.map_map]
      exact hnodup
  . have hlistable : ∀ m ∈ members, ∀ name ∈ m.types, Listable name := by
      intro m hm
      exact m.types_listable (shaped_of_ofSignature (hshapes m hm)) ht
    simp only [← clashes_iff_leftOut hlistable]
    rw [hselected]
    exact selectConstructors_kept [handleTypes] members
  . rw [← Except.ok.inj h]
    rfl

def plainInt : Descriptor :=
  .simple ⟨"int", "int", none, "0", false⟩

def createLamp : Method :=
  ⟨"new", "demo_lamp_new", ⟨"DemoLamp*", [⟨"level", "gint", .call⟩]⟩, false⟩

/--
A constructor whose parameter has another native type, but the same managed one.
-/
def recreateLamp : Method :=
  ⟨"new_again", "demo_lamp_new_again", ⟨"DemoLamp*", [⟨"size", "int", .call⟩]⟩, false⟩

/--
A constructor that is declared to return nothing.
-/
def blankLamp : Method :=
  ⟨"new_blank", "demo_lamp_new_blank", ⟨"void", []⟩, false⟩

def lamp : ObjectType :=
  ⟨⟨"DemoLamp", "Lamp", "Demo", "libdemo"⟩, none, none, [createLamp, recreateLamp, blankLamp],
    [], []⟩

def lampTable : Table where
  entries := [gint, plainInt, .object lamp]
  nodup := by decide

def createShape : CallShape :=
  .ofUses createLamp.signature [lampTable.useOf "gint" gint]
    (some (lampTable.useOf "DemoLamp*" (.object lamp)))

def recreateShape : CallShape :=
  .ofUses recreateLamp.signature [lampTable.useOf "int" plainInt]
    (some (lampTable.useOf "DemoLamp*" (.object lamp)))

def blankShape : CallShape :=
  .ofUses blankLamp.signature [] none

def lampPlan : ObjectPlan :=
  ⟨"Gapi.Runtime.NativeObject", [⟨createLamp, createShape⟩, ⟨blankLamp, blankShape⟩],
    [⟨recreateLamp, recreateShape⟩], [], []⟩

theorem ofSignature_lamp
    : CallShape.ofSignature lampTable createLamp.signature = .ok createShape
      ∧ CallShape.ofSignature lampTable recreateLamp.signature = .ok recreateShape
      ∧ CallShape.ofSignature lampTable blankLamp.signature = .ok blankShape := by
  have hresolve (ref : String) (d : Descriptor) (h : lampTable.get? ref = some d)
      : resolve lampTable ref = .ok (lampTable.useOf ref d) := resolve_ok h
  have hgint := hresolve "gint" gint (by decide +kernel)
  have hint := hresolve "int" plainInt (by decide +kernel)
  have hlamp := hresolve "DemoLamp*" (.object lamp) (by decide +kernel)
  have hreturns : Reference.isVoid "DemoLamp*" = false := by decide
  have hvoid : Reference.isVoid "void" = true := by decide
  unfold CallShape.ofSignature resolveReturn Signature.returnsVoid createLamp recreateLamp blankLamp
  simp only [resolveParams, hgint, hint, hlamp, hreturns, hvoid]
  exact ⟨rfl, rfl, rfl⟩

theorem planObject_lamp : planObject lampTable lamp = .ok lampPlan := by
  rcases ofSignature_lamp with ⟨hcreate, hrecreate, hblank⟩
  unfold planObject lamp
  simp only [shapeMethods, shapeVirtuals, hcreate, hrecreate, hblank]
  rfl

theorem constructors_distinct_lamp
    : lampTable.Listable
        ∧ ∃ e source, bindObject lampTable lamp = .ok e
          ∧ e.managed? = some ⟨"Lamp", Source.text source⟩ ∧ ClassText lamp lampPlan source
          ∧ (["IntPtr"] :: lampPlan.constructors.map Member.types).Nodup
          ∧ e.counts.constructors = 2 := by
  have hlistable : lampTable.Listable := by decide +kernel
  have hbind : ∃ e, bindObject lampTable lamp = .ok e := by
    unfold bindObject
    rw [planObject_lamp]
    exact ⟨_, rfl⟩
  rcases hbind with ⟨e, he⟩
  rcases constructors_distinct lampTable lamp e he hlistable with
    ⟨_, plan, source, _, _, _, hplan, hmanaged, htext, hnodup, _, hcount⟩
  obtain rfl : lampPlan = plan := Except.ok.inj (planObject_lamp.symm.trans hplan)
  exact ⟨hlistable, e, source, he, hmanaged, htext, hnodup, hcount⟩

end Binding

end Interop
