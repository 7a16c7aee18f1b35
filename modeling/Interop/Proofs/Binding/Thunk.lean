import Interop.Binding.Callback
import Interop.Proofs.Binding.Pairing

/-!
This module contains the two sides of the glue function through which managed code calls a native
function pointer: the import on the managed side and the declaration on the native side. They agree
on the parameters, but not on how the number of a returned array's elements comes back.
-/

namespace Interop.Binding

open CallbackSource

variable {t : Table} {c : CallShape} {callback : CallbackType} {k : Nat} {p : Parameter}

theorem importParams_thunk (gluelib : String) (h : Shaped t callback.signature c)
    (hp : callback.signature.params[k]? = some p)
    : ∃ q, c.params[k]? = some q ∧ q.name = Text.escapeReserved p.name
        ∧ (invocationImport gluelib callback c).params[k + 1]?
            = some ⟨q.role = .returnLength, q.use.crossing.boundary, q.name⟩ := by
  rcases h.param k p hp with ⟨use, _, hq⟩
  have himport := c.importParams_getElem? (some (.address "native_cb")) hq
  rw [Option.toList_some, List.length_singleton, Nat.add_comm] at himport
  exact ⟨_, hq, rfl, himport⟩

/--
A glue function takes what its import hands over: a native function, then the parameters of the
signature, which it gives to that function in order. Prototype and definition declare the same, and
the lines `native` hold nothing but the two.
-/
structure Forwards (s : Signature) (forwarded : List String) (i : Import) (f : GlueFunction)
    (native : Source.Lines) : Prop where
  symbol : f.symbol = i.symbol
  arity : f.params.length = i.params.length
  given : forwarded.length = s.params.length
  text : native
    = [f.returns ++ " " ++ (f.symbol ++ " (" ++ String.intercalate ", " f.params ++ ")") ++ ";", "",
       f.returns, f.symbol ++ " (" ++ String.intercalate ", " f.params ++ ")", "\x7b",
       "\t" ++ f.statement, "\x7d", ""]
  statement : f.statement
    = (if s.returnsVoid then "" else "return ")
        ++ ("cb (" ++ String.intercalate ", " forwarded ++ ");")
  param : ∀ k p, s.params[k]? = some p →
    f.params[k + 1]? = some (p.ctype ++ " " ++ p.name) ∧ forwarded[k]? = some p.name
      ∧ ∃ q, i.params[k + 1]? = some q ∧ q.name = Text.escapeReserved p.name

theorem thunk_forwards (gluelib : String) (h : Shaped t callback.signature c)
    : Forwards callback.signature (callback.signature.params.map (·.name))
        (invocationImport gluelib callback c) (thunk callback)
        (GlueFunction.lines [thunk callback]) := by
  refine ⟨rfl, ?_, ?_, rfl, ?_, ?_⟩
  . simp [thunk, invocationImport, CallShape.importParams, h.length]
  . simp
  . unfold thunk
    cases callback.signature.returnsVoid with
    | true => exact String.empty_append.symm
    | false => rfl
  . intro k p hp
    rcases importParams_thunk gluelib h hp with ⟨q, _, hname, himport⟩
    exact ⟨by simp [thunk, hp], by simp [hp], _, himport, hname⟩

/--
The import sets the variable behind the parameter at place `k` if that holds the number of elements
of the returned array.
-/
theorem out_iff (gluelib : String) (h : Shaped t callback.signature c)
    (hp : callback.signature.params[k]? = some p) {i : ImportParam}
    (hi : (invocationImport gluelib callback c).params[k + 1]? = some i)
    : i.out = true ↔ ∃ r, c.returns? = some r ∧ callback.signature.lengthPlace? r = some k := by
  rcases importParams_thunk gluelib h hp with ⟨q, hq, _, himport⟩
  obtain rfl : _ = i := Option.some.inj (himport.symm.trans hi)
  rw [decide_eq_true_iff, h.role_eq_returnLength hq, h.returnLength, Option.bind_eq_some_iff]

/--
The native side of a glue function declares every parameter as the signature writes it, and the
managed side sets the one that holds the number of elements of a returned array. So whatever types
count as pointers, what is set through an address on one side is declared as a pointer on the other
if and only if that parameter is.
-/
theorem thunk_by_address (t : Table) (gluelib : String) (callback : CallbackType)
    (shape : CallShape) (hshape : CallShape.ofSignature t callback.signature = .ok shape)
    : let declared := (thunk callback).params
      let imported := (invocationImport gluelib callback shape).params
      (∀ k p, callback.signature.params[k]? = some p →
          declared[k + 1]? = some (p.ctype ++ " " ++ p.name)
            ∧ ∃ i, imported[k + 1]? = some i
                ∧ (i.out = true
                    ↔
                  ∃ r, shape.returns? = some r ∧ callback.signature.lengthPlace? r = some k))
        ∧ ∀ pointer : String → Prop,
          (∀ k p i, callback.signature.params[k]? = some p → imported[k + 1]? = some i →
              i.out = true → pointer p.ctype)
            ↔
          ∀ r k p, shape.returns? = some r → callback.signature.lengthPlace? r = some k →
            callback.signature.params[k]? = some p → pointer p.ctype := by
  intro declared imported
  have h := shaped_of_ofSignature hshape
  constructor
  . intro k p hp
    rcases importParams_thunk gluelib h hp with ⟨q, _, _, himport⟩
    exact ⟨(thunk_forwards gluelib h).param k p hp |>.1, _, himport, out_iff gluelib h hp himport⟩
  . intro pointer
    constructor
    . intro hagree r k p hr hplace hp
      rcases importParams_thunk gluelib h hp with ⟨q, _, _, himport⟩
      exact hagree k p _ hp himport ((out_iff gluelib h hp himport).2 ⟨r, hr, hplace⟩)
    . intro hpointer k p i hp hi hout
      rcases (out_iff gluelib h hp hi).1 hout with ⟨r, hr, hplace⟩
      exact hpointer r k p hr hplace hp

/--
A function that returns an array of numbers and sets `n`, the number of its elements.
-/
def listFunc : CallbackType :=
  ⟨⟨"DemoListFunc", "ListFunc", "Demo", "libdemo"⟩, ⟨"DemoInts", [⟨"n", "gint", .call⟩]⟩⟩

def listShape : CallShape :=
  .ofUses listFunc.signature [tallyTable.useOf "gint" gint]
    (some (tallyTable.useOf "DemoInts" ints))

theorem ofSignature_list : CallShape.ofSignature tallyTable listFunc.signature = .ok listShape := by
  have hvoid : Signature.returnsVoid ⟨"DemoInts", [⟨"n", "gint", .call⟩]⟩ = false := by decide
  unfold CallShape.ofSignature resolveReturn listFunc
  simp only [resolveParams, resolve_gint, resolve_ints, hvoid]
  rfl

theorem thunk_by_address_list
    : CallShape.ofSignature tallyTable listFunc.signature = .ok listShape
        ∧ (thunk listFunc).params[1]? = some "gint n"
        ∧ ∃ i, (invocationImport "demoglue" listFunc listShape).params[1]? = some i
            ∧ i.out = true := by
  refine ⟨ofSignature_list, ?_⟩
  rcases (thunk_by_address tallyTable "demoglue" listFunc listShape ofSignature_list).1 0 _ rfl with
    ⟨hdeclared, i, hi, hout⟩
  exact ⟨hdeclared, i, hi, hout.2 ⟨_, rfl, rfl⟩⟩

-- The number is set through an address on one side and is no pointer on the other.
theorem not_thunk_by_address
    : ¬ ∀ (t : Table) (gluelib : String) (callback : CallbackType) (shape : CallShape),
        CallShape.ofSignature t callback.signature = .ok shape →
        ∀ (k : Nat) (p : Parameter) (i : ImportParam), callback.signature.params[k]? = some p →
          (invocationImport gluelib callback shape).params[k + 1]? = some i → i.out = true →
          0 < Reference.depth p.ctype := by
  intro h
  have hpointer := h tallyTable "demoglue" listFunc listShape ofSignature_list 0 _ _ rfl rfl rfl
  exact absurd hpointer (by decide)

end Interop.Binding
