import Interop.Yaml.Value
import Mathlib.Data.List.Forall2

/-!
This module contains what the reading of a document says about its nodes. A node has a kind and a
text of its own, or those of the node that it is an alias of; how many aliases were followed before
only decides whether the reading goes on.
-/

namespace Interop.Yaml

namespace Document

open DocumentReader

/--
The reading of a part of the document gives `a`, at some stage of the whole.
-/
def Reads (d : Document) (r : DocumentReader α) (a : α) : Prop :=
  ∃ i j, (r.run d).run i = .ok (a, j)

/--
The node itself, or the one that an alias stands for.
-/
def target? (d : Document) : Node → Option Node
  | .aliasOf number => d.anchors.node? number
  | n => some n

variable {d : Document} {α β : Type} {a b : α} {r : DocumentReader α} {n m : Node}

theorem reads_of_extract (h : d.extract r = .ok a) : d.Reads r a := by
  unfold extract at h
  cases hrun : (r.run d).run 0 with
  | error e => simp [hrun, Except.map] at h
  | ok result =>
    rw [hrun] at h
    exact ⟨0, result.2, by rw [hrun, ← Except.ok.inj h]⟩

theorem Reads.pure (h : d.Reads (pure b) a) : b = a := by
  rcases h with ⟨i, j, h⟩
  exact (Prod.mk.inj (Except.ok.inj h)).1

theorem Reads.bind {f : α → DocumentReader β} {b : β} (h : d.Reads (r >>= f) b)
    : ∃ a, d.Reads r a ∧ d.Reads (f a) b := by
  rcases h with ⟨i, j, h⟩
  rw [ReaderT.run_bind, StateT.run_bind] at h
  cases hr : (r.run d).run i with
  | error e => simp [hr, Bind.bind, Except.bind] at h
  | ok result =>
    rw [hr] at h
    exact ⟨result.1, ⟨i, result.2, hr⟩, result.2, j, h⟩

theorem not_reads_fail {issue : Issue} : ¬ d.Reads (fail issue) a := by
  rintro ⟨i, j, h⟩
  simp [fail, throw, throwThe, MonadExceptOf.throw] at h

theorem not_reads_unfit {route : Route} {problem : String} : ¬ d.Reads (unfit route problem) a :=
  not_reads_fail

theorem not_reads_fail_bind {issue : Issue} {f : β → DocumentReader α}
    : ¬ d.Reads (fail issue >>= f) a := by
  intro h
  rcases h.bind with ⟨_, hfail, _⟩
  exact not_reads_fail hfail

theorem not_reads_unfit_bind {route : Route} {problem : String} {f : β → DocumentReader α}
    : ¬ d.Reads (unfit route problem >>= f) a :=
  not_reads_fail_bind

theorem Reads.read {d' : Document} (h : d.Reads read d') : d' = d := by
  rcases h with ⟨i, j, h⟩
  exact (Prod.mk.inj (Except.ok.inj h)).1.symm

theorem Reads.follow (h : d.Reads (follow n) m) : d.target? n = some m := by
  unfold DocumentReader.follow at h
  split at h
  . next number =>
    rcases h.bind with ⟨_, _, h⟩
    rcases h.bind with ⟨_, _, h⟩
    rcases h.bind with ⟨_, _, h⟩
    simp only at h
    split at h
    . exact absurd h not_reads_fail_bind
    . rcases h.bind with ⟨d', hread, h⟩
      rw [hread.read] at h
      split at h
      . next n' hn' => rw [target?, hn', h.pure]
      . exact absurd h not_reads_fail
  . next hn =>
    rw [← h.pure]
    cases n with
    | aliasOf number => exact absurd rfl (hn number)
    | scalar _ _ _ | sequence _ _ | mapping _ _ => rfl

theorem Reads.follow_eq {m' : Node} (h : d.Reads (DocumentReader.follow n) m)
    (htarget : d.target? n = some m') : m = m' :=
  Option.some.inj (h.follow.symm.trans htarget)

theorem Reads.mapM {f : α → DocumentReader β} {as : List α} {bs : List β}
    (h : d.Reads (as.mapM f) bs) : List.Forall₂ (fun a b => d.Reads (f a) b) as bs := by
  induction as generalizing bs with
  | nil =>
    rw [List.mapM_nil] at h
    rw [← h.pure]
    exact .nil
  | cons a as ih =>
    rw [List.mapM_cons] at h
    rcases h.bind with ⟨b, hb, h⟩
    rcases h.bind with ⟨bs', hbs, h⟩
    rw [← h.pure]
    exact .cons hb (ih hbs)

end Document

namespace Scalar

variable {tag? : Option Tag} {s t : String} {plain : Bool}

theorem integer_ne_text {cs : List Char} : integer cs ≠ .some (.text t) := by
  unfold integer
  split
  all_goals
    try simp only
    generalize magnitude? _ = n?
    cases n? with
    | none => simp
    | some n =>
      simp only
      repeat' split
      all_goals simp

theorem ofPlain_text (h : ofPlain s = some (.text t)) : t = s := by
  unfold ofPlain at h
  split at h
  . simp at h
  . split at h
    . simp at h
    . split at h
      . next n hn =>
        rw [Option.some.inj h] at hn
        exact absurd hn integer_ne_text
      . simp at h
      . split at h
        . simpa using h.symm
        . split at h
          . simp at h
          . simpa using h.symm

-- No scalar is a text other than its own.
theorem resolve_text (h : resolve tag? s plain = some (.text t)) : t = s := by
  unfold resolve at h
  split at h
  . split at h
    . exact ofPlain_text h
    . simpa using h.symm
  . split at h
    . simp at h
    . split at h
      . split at h
        . next n hn =>
          rw [Option.some.inj h] at hn
          exact absurd hn integer_ne_text
        . simp at h
      . split at h
        . simp at h
        . split at h
          . simp at h
          . split at h
            . exact ofPlain_text h
            . simpa using h.symm

end Scalar

theorem forall₂_of_zipIdx {α β : Type} {p : α → β → Prop} {q : α × Nat → β → Prop} {as : List α}
    {bs : List β} (h : List.Forall₂ q as.zipIdx bs) (hq : ∀ a i b, q (a, i) b → p a b)
    : List.Forall₂ p as bs := by
  rw [← List.zipIdx_map_fst 0 as, List.forall₂_map_left_iff]
  exact h.imp fun (a : α × Nat) b => hq a.1 a.2 b

namespace Document

open DocumentReader

variable {d : Document} {n m : Node} {v w : Value} {withTags : Bool} {s : String}

/--
The node has the value `v`, read with the tags that are the document's own or without any.
-/
def Denotes (d : Document) (withTags : Bool) (n : Node) (v : Value) : Prop :=
  ∃ depth route, d.Reads (Value.ofNode withTags depth route n) v

def DenotesEntry (d : Document) (withTags : Bool) (e : Node × Node) (w : Value × Value) : Prop :=
  d.Denotes withTags e.1 w.1 ∧ d.Denotes withTags e.2 w.2

/--
What the value of a node that is no alias is made of, without the node's own tag.
-/
inductive Shows (d : Document) (withTags : Bool) : Node → Value → Prop where
  | scalar {tag? : Option Tag} {text : String} {plain : Bool} {s : Scalar}
      (h : Scalar.resolve (if (Node.scalar tag? text plain).ownTag?.isSome then none else tag?)
        text plain = some s)
      : Shows d withTags (.scalar tag? text plain) (.scalar s)
  | sequence {tag? : Option Tag} {items : List Node} {vs : List Value}
      (h : List.Forall₂ (d.Denotes withTags) items vs)
      : Shows d withTags (.sequence tag? items) (.sequence vs)
  | mapping {tag? : Option Tag} {entries : List (Node × Node)} {vs : List (Value × Value)}
      (h : List.Forall₂ (d.DenotesEntry withTags) entries vs)
      : Shows d withTags (.mapping tag? entries) (.mapping vs)

theorem shows_of_reads {part? : Option (Route → Node → DocumentReader Value)} {route : Route}
    (hpart : ∀ part, part? = some part → ∃ depth, part = Value.ofNode withTags depth)
    (h : d.Reads (Value.ofParts part? route n) v) : d.Shows withTags n v := by
  unfold Value.ofParts at h
  split at h
  . split at h
    . next hs =>
      rw [← h.pure]
      exact .scalar hs
    . exact absurd h not_reads_fail
  . next items part =>
    rcases hpart part rfl with ⟨depth, rfl⟩
    rcases h.bind with ⟨vs, hvs, h⟩
    rw [← h.pure]
    apply Shows.sequence
    apply forall₂_of_zipIdx hvs.mapM
    exact fun item i v hv => ⟨depth, route.item i, hv⟩
  . next entries part =>
    rcases hpart part rfl with ⟨depth, rfl⟩
    rcases h.bind with ⟨vs, hvs, h⟩
    rw [← h.pure]
    apply Shows.mapping
    apply hvs.mapM.imp
    rintro ⟨k, x⟩ w hw
    rcases hw.bind with ⟨key, hkey, hw⟩
    rcases hw.bind with ⟨value, hvalue, hw⟩
    rw [← hw.pure]
    exact ⟨⟨_, _, hkey⟩, ⟨_, _, hvalue⟩⟩
  . exact absurd h not_reads_fail

theorem Denotes.shows (h : d.Denotes withTags n v)
    : ∃ m w, d.target? n = some m ∧ (withTags = false → m.ownTag? = none)
        ∧ v = m.ownTag?.elim w (.tagged · w) ∧ d.Shows withTags m w := by
  rcases h with ⟨depth, route, h⟩
  have htarget : ∃ part?, d.Reads (Value.ofTarget withTags part? route n) v
      ∧ ∀ part, part? = some part → ∃ depth, part = Value.ofNode withTags depth := by
    cases depth with
    | zero => exact ⟨none, h, by simp⟩
    | succ depth => exact ⟨_, h, fun part hpart => ⟨depth, (Option.some.inj hpart).symm⟩⟩
  rcases htarget with ⟨part?, h, hpart⟩
  unfold Value.ofTarget at h
  rcases h.bind with ⟨m, hfollow, h⟩
  simp only at h
  split at h
  . exact absurd h not_reads_fail_bind
  . next htags =>
    rcases h.bind with ⟨w, hw, h⟩
    refine ⟨m, w, hfollow.follow, ?_, h.pure.symm, shows_of_reads hpart hw⟩
    rintro rfl
    simpa using htags

theorem untagged_elim {own? : Option String}
    : (own?.elim w (.tagged · w)).untagged = w.untagged := by
  cases own? <;> simp [Value.untagged]

theorem Denotes.mapping? {es : List (Value × Value)} (h : d.Denotes withTags n v)
    (hes : v.mapping? = some es)
    : ∃ tag? entries, d.target? n = some (.mapping tag? entries)
        ∧ List.Forall₂ (d.DenotesEntry withTags) entries es := by
  rcases h.shows with ⟨m, w, htarget, _, rfl, hshows⟩
  unfold Value.mapping? at hes
  rw [untagged_elim] at hes
  cases hshows with
  | scalar _ | sequence _ => simp [Value.untagged] at hes
  | mapping hentries =>
    simp only [Value.untagged, Option.some.injEq] at hes
    rw [hes] at hentries
    exact ⟨_, _, htarget, hentries⟩

theorem Denotes.sequence? {vs : List Value} (h : d.Denotes withTags n v)
    (hvs : v.sequence? = some vs)
    : ∃ tag? items, d.target? n = some (.sequence tag? items)
        ∧ List.Forall₂ (d.Denotes withTags) items vs := by
  rcases h.shows with ⟨m, w, htarget, _, rfl, hshows⟩
  unfold Value.sequence? at hvs
  rw [untagged_elim] at hvs
  cases hshows with
  | scalar _ | mapping _ => simp [Value.untagged] at hvs
  | sequence hitems =>
    simp only [Value.untagged, Option.some.injEq] at hvs
    rw [hvs] at hitems
    exact ⟨_, _, htarget, hitems⟩

/--
The text of a node that is a scalar, whatever it means.
-/
def name? (d : Document) (n : Node) : Option String :=
  match d.target? n with
  | some (.scalar _ text _) => some text
  | _ => none

/--
The text that a node means.
-/
def text? (d : Document) (n : Node) : Option String :=
  match d.target? n with
  | some (.scalar tag? text plain) =>
    if (Node.scalar tag? text plain).ownTag? = none
        ∧ Scalar.resolve tag? text plain = some (.text text) then
      some text
    else none
  | _ => none

theorem name?_of_text? (h : d.text? n = some s) : d.name? n = some s := by
  unfold text? at h
  unfold name?
  split at h
  . split at h
    . exact h
    . simp at h
  . simp at h

theorem Denotes.name? (h : d.Denotes withTags n v) (hv : v.text? = some s)
    : d.name? n = some s := by
  rcases h.shows with ⟨m, w, htarget, _, rfl, hshows⟩
  unfold Value.text? at hv
  rw [untagged_elim] at hv
  cases hshows with
  | sequence _ | mapping _ => simp [Value.untagged] at hv
  | @scalar tag? text plain meaning hresolve =>
    unfold Document.name?
    rw [htarget]
    cases meaning with
    | text t =>
      simp only [Value.untagged, Option.some.injEq] at hv
      rw [← hv, Scalar.resolve_text hresolve]
    | null | bool _ | natural _ | negative _ | float _ => simp [Value.untagged] at hv

theorem Denotes.isText_iff (h : d.Denotes withTags n v)
    : v.isText s = true ↔ d.text? n = some s := by
  rcases h.shows with ⟨m, w, htarget, _, rfl, hshows⟩
  unfold text?
  rw [htarget]
  cases hshows with
  | sequence _ | mapping _ => cases Node.ownTag? _ <;> simp [Value.isText]
  | @scalar tag? text plain meaning hresolve =>
    simp only
    cases hown : (Node.scalar tag? text plain).ownTag? with
    | some tag => simp [Value.isText]
    | none =>
      rw [hown] at hresolve
      rw [show Scalar.resolve tag? text plain = some meaning from hresolve]
      cases meaning with
      | text t =>
        rw [Scalar.resolve_text hresolve]
        simp only [Option.elim_none, Value.isText, beq_iff_eq, and_self, if_true,
          Option.some.injEq]
        exact eq_comm
      | null | bool _ | natural _ | negative _ | float _ => simp [Value.isText]

/--
The value of a key that means this text. Of several the first one counts.
-/
def entry? (d : Document) (entries : List (Node × Node)) (key : String) : Option Node :=
  (entries.find? fun e => d.text? e.1 = some key).map (·.2)

/--
The node is a mapping in which all these keys stand.
-/
def HasKeys (d : Document) (n : Node) (keys : List String) : Prop :=
  ∃ tag? entries, d.target? n = some (.mapping tag? entries)
    ∧ ∀ key ∈ keys, (d.entry? entries key).isSome

theorem get?_rel {entries : List (Node × Node)} {es : List (Value × Value)}
    (h : List.Forall₂ (d.DenotesEntry withTags) entries es) (key : String)
    : Option.Rel (d.Denotes withTags) (d.entry? entries key) (get? es key) := by
  unfold entry? get?
  induction h with
  | nil => exact .none
  | @cons e w entries es he _ ih =>
    rw [List.find?_cons, List.find?_cons]
    cases hkey : w.1.isText key with
    | true => simpa [he.1.isText_iff.1 hkey] using Option.Rel.some he.2
    | false =>
      have htext : d.text? e.1 ≠ some key := by
        rw [Ne, ← he.1.isText_iff, hkey]
        simp
      simpa [htext] using ih

end Document

end Interop.Yaml
