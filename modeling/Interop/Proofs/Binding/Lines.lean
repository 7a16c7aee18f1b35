import Interop.Proofs.Binding.Spelling

/-!
This module contains the bodies of generated members, line by line, with the text of every line in
pieces.
-/

namespace Interop.Binding

open Source (runtime)

/--
A statement of a body with its text in pieces.
-/
structure Line where
  statement : Statement
  pieces : List Piece
  text : Piece.join pieces = statement.text

namespace Line

/--
A line whose text refers to no name.
-/
def plain (st : Statement) (text : String) (h : text = st.text) : Line :=
  ⟨st, [.plain text], by simp [Piece.text, h]⟩

/--
The line in which text without names stands around the pieces `ps`.
-/
def around (st : Statement) (front : String) (ps : List Piece) (back : String)
    (h : front ++ Piece.join ps ++ back = st.text) : Line :=
  ⟨st, .plain front :: ps ++ [.plain back], by
    rw [← h]
    simp [Piece.text, String.append_assoc]⟩

def wrap (helper holder source : String) : Line :=
  .plain (.wrap helper holder source)
    (helper ++ " " ++ holder ++ " = new " ++ helper ++ " (" ++ source ++ ");") rfl

def declareLength (type name : String) : Line :=
  .plain (.declareLength type name) (type ++ " " ++ name ++ ";") rfl

def free (holder : String) : Line :=
  .plain (.free holder) (runtime ++ ".Marshaller.Free (" ++ holder ++ ");") rfl

def giveBack (value : String) : Line :=
  .plain (.giveBack value) ("return " ++ value ++ ";") rfl

def keepForever (holder : String) : Line :=
  .around (.keepForever holder) (runtime ++ ".CallbackKeeper.Add (") [.wrapper holder] ");" (by
    simp [Piece.text, Statement.text])

def keepAlive (holder : String) : Line :=
  .around (.keepAlive holder) "GC.KeepAlive (" [.wrapper holder] ");" (by
    simp [Piece.text, Statement.text])

def copy (name : String) (crossing : Crossing) (x : String) : Line :=
  .around (.copy name (crossing.toNative x)) ("IntPtr " ++ name ++ " = ")
    (crossing.toNativePieces x) ";" (by
      rw [crossing.join_toNativePieces]
      rfl)

/--
The number of elements of a returned array is set.
-/
def setLength (length : CallParam) : Line :=
  .around (.setLength length.name (nativeCount length "__ret")) ""
    (.count length.name :: .plain " = " :: nativeCountPieces length "__ret") ";" (by
      simp [join_nativeCountPieces, Statement.text, Piece.text, String.append_assoc])

/--
A returned callback is held for ever.
-/
def kept (r : Use) : List Line :=
  match r.type with
  | .callback type =>
    [.wrap type.wrapper "__ret_wrapper" "__ret", .keepForever "__ret_wrapper"]
  | _ => []

end Line

namespace CallParam

def preparationLines (p : CallParam) : List Line :=
  match p.role, p.use.type with
  | .value, .callback type =>
    .wrap type.wrapper (wrapperLocal p.name) p.name
      :: if p.lifetime = .forever then [.keepForever (wrapperLocal p.name)] else []
  | .value, _ =>
    if p.use.crossing.ownsCopy then [.copy (copyLocal p.name) p.use.crossing p.name] else []
  | .lengthOf _, _ => []
  | .returnLength, _ => [.declareLength p.use.crossing.boundary p.name]

def passedPieces (p : CallParam) : List Piece :=
  match p.use.type with
  | .callback _ => p.use.crossing.toNativePieces p.name
  | _ =>
    if p.use.crossing.ownsCopy then [.plain (copyLocal p.name)]
    else p.use.crossing.toNativePieces p.name

def cleanupLines (p : CallParam) : List Line :=
  if p.use.isCallback then
    if p.lifetime = .call then [.keepAlive (wrapperLocal p.name)] else []
  else if p.use.crossing.ownsCopy then [.free (copyLocal p.name)]
  else []

theorem join_passedPieces (p : CallParam) : Piece.join p.passedPieces = p.passedText := by
  have hconverted := p.use.crossing.join_toNativePieces p.name
  unfold passedPieces passedText
  cases p.use.type with
  | callback type => exact hconverted
  | _ =>
    dsimp only
    split
    . simp [Piece.text]
    . exact hconverted

theorem map_preparationLines (p : CallParam)
    : p.preparationLines.map (·.statement) = p.preparation := by
  unfold preparationLines preparation
  cases p.role with
  | value =>
    cases p.use.type <;>
      dsimp only <;> split <;> rfl
  | lengthOf array => rfl
  | returnLength => rfl

theorem map_cleanupLines (p : CallParam) : p.cleanupLines.map (·.statement) = p.cleanup := by
  unfold cleanupLines cleanup
  split
  . split <;> rfl
  . split <;> rfl

end CallParam

namespace CallShape

def argumentPieces (c : CallShape) (p : CallParam) : List Piece :=
  match p.role with
  | .value => p.passedPieces
  | .lengthOf array => nativeCountPieces p (c.nameAt array)
  | .returnLength => [.plain "out ", .count p.name]

def argumentListPieces (c : CallShape) (leading : Option String) : List Piece :=
  Piece.commaSeparated (leading.toList.map (fun text => [.plain text])
    ++ c.params.map c.argumentPieces)

theorem join_argumentPieces (c : CallShape) (p : CallParam) (k : Nat)
    : Piece.join (c.argumentPieces p) = (c.argument p k).text := by
  unfold argumentPieces argument
  cases p.role with
  | value => exact p.join_passedPieces
  | lengthOf array => exact join_nativeCountPieces p _
  | returnLength => simp [Piece.text, Argument.text]

theorem join_argumentListPieces (c : CallShape) (leading : Option String)
    : Piece.join (c.argumentListPieces leading) = argumentList (c.arguments leading) := by
  unfold argumentListPieces argumentList arguments
  rw [Piece.join_commaSeparated, List.map_append, List.map_append, List.map_map, List.map_map,
    List.map_map, List.map_map]
  refine congrArg Source.commaSeparated (congrArg₂ List.append ?_ ?_)
  . cases leading <;> simp [Piece.text, Argument.text]
  . conv_lhs => rw [← List.zipIdx_map_fst 0 c.params, List.map_map]
    apply List.map_congr_left
    intro x _
    exact c.join_argumentPieces x.1 x.2

def invocationLines (c : CallShape) (callee : String) (leading : Option String) (sink : Sink) :
    List Line :=
  let args := c.arguments leading
  let pieces := c.argumentListPieces leading
  match c.returns?, sink with
  | none, _ =>
    [.around (.call callee args) (callee ++ " (") pieces ");" (by
      rw [join_argumentListPieces]
      simp [Statement.text, args, String.append_assoc])]
  | some r, .giveBack =>
    [.around (.receive r.crossing.boundary callee args)
      (r.crossing.boundary ++ " raw_ret = " ++ callee ++ " (") pieces ");" (by
        rw [join_argumentListPieces]
        simp [Statement.text, args, String.append_assoc]),
     .around (.convert r.crossing.managed (managedValue r "raw_ret" c.returnLength))
      (r.crossing.managed ++ " ret = ") (managedValuePieces r "raw_ret" c.returnLength) ";" (by
        rw [join_managedValuePieces]
        rfl)]
  | some _, .assign target =>
    [.around (.store target callee args) (target ++ " = " ++ callee ++ " (") pieces ");" (by
      rw [join_argumentListPieces]
      simp [Statement.text, args, String.append_assoc])]

/--
The lines of the body of a managed member that calls the native function `callee`.
-/
def callLines (c : CallShape) (callee : String) (leading : Option String) (sink : Sink) :
    List Line :=
  c.params.flatMap (·.preparationLines) ++ c.invocationLines callee leading sink
    ++ c.visible.flatMap (·.cleanupLines)
    ++ if c.returns?.isSome && sink == .giveBack then [.giveBack "ret"] else []

def reverseArgumentPieces (c : CallShape) : List (List Piece) :=
  (c.params.zipIdx.filter fun (p, _) => p.role = .value).map fun (p, k) =>
    managedValuePieces p.use p.name (c.lengthOf? k)

theorem join_reverseArgumentPieces (c : CallShape)
    : Piece.join (Piece.commaSeparated c.reverseArgumentPieces)
        = Source.commaSeparated c.reverseArguments := by
  unfold reverseArgumentPieces reverseArguments
  rw [Piece.join_commaSeparated, List.map_map]
  congr 1
  apply List.map_congr_left
  intro x _
  exact join_managedValuePieces x.1.use x.1.name (c.lengthOf? x.2)

/--
The lines of the body of a function that native code calls and that calls the managed `target`.
-/
def reverseLines (c : CallShape) (target : String) : List Line :=
  let pieces := Piece.commaSeparated c.reverseArgumentPieces
  match c.returns? with
  | none =>
    [.around (.forward target c.reverseArguments) (target ++ " (") pieces ");" (by
      rw [join_reverseArgumentPieces]
      simp [Statement.text, String.append_assoc])]
  | some r =>
    [.around (.answer r.crossing.managed target c.reverseArguments)
        (r.crossing.managed ++ " __ret = " ++ target ++ " (") pieces ");" (by
          rw [join_reverseArgumentPieces]
          simp [Statement.text, String.append_assoc])]
      ++ c.returnLength.toList.map .setLength ++ Line.kept r
      ++ [.around (.giveBack (r.crossing.toNative "__ret")) "return "
          (r.crossing.toNativePieces "__ret") ";" (by
            rw [Crossing.join_toNativePieces]
            rfl)]

theorem map_flatMap_statement {f : CallParam → List Line} {g : CallParam → List Statement}
    (h : ∀ p, (f p).map (·.statement) = g p) (ps : List CallParam)
    : (ps.flatMap f).map (·.statement) = ps.flatMap g := by
  rw [List.map_flatMap]
  exact List.flatMap_congr fun p _ => h p

theorem map_callLines (c : CallShape) (callee : String) (leading : Option String) (sink : Sink)
    : (c.callLines callee leading sink).map (·.statement) = c.callBody callee leading sink := by
  have hinvocation : (c.invocationLines callee leading sink).map (·.statement)
      = c.invocation callee leading sink := by
    unfold invocationLines invocation
    cases c.returns? with
    | none => rfl
    | some r => cases sink <;> rfl
  unfold callLines callBody
  rw [List.map_append, List.map_append, List.map_append, hinvocation,
    map_flatMap_statement CallParam.map_preparationLines,
    map_flatMap_statement CallParam.map_cleanupLines]
  split <;> rfl

theorem map_reverseLines (c : CallShape) (target : String)
    : (c.reverseLines target).map (·.statement) = c.reverseBody target := by
  unfold reverseLines reverseBody
  cases c.returns? with
  | none => rfl
  | some r =>
    dsimp only
    rw [List.map_append, List.map_append, List.map_append, List.map_map]
    congr 2
    unfold Line.kept
    cases r.type <;> rfl

end CallShape

end Interop.Binding
