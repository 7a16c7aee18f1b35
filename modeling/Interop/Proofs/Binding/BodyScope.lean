import Interop.Proofs.Binding.CallScope
import Interop.Proofs.Binding.Visible
import Interop.Proofs.Validation.Verdict

/-!
This module contains the names in the body of a function that native code calls, and what holds of
both kinds of bodies: every name stands for something unless it comes from inside of a value.
-/

namespace Interop.Binding

namespace CallShape

def nativeNames (c : CallShape) : List String :=
  c.params.map (·.name)

/--
What makes every name stand for something in a body that native code calls.
-/
structure ReverseGrounded (c : CallShape) : Prop where
  /-- The arrays in an array are counted by parameters. -/
  lengths : ∀ (k : Nat) (q : CallParam), c.params[k]? = some q → q.role = .value →
    ∀ name ∈ innerLengths q.use (c.lengthOf? k), name ∈ c.nativeNames
  /-- An array without a parameter for itself is not counted by one whose name is reserved. -/
  shared : ∀ (k : Nat) (q : CallParam), c.params[k]? = some q → q.role = .value →
    c.lengthOf? k = none → ∀ name, q.use.crossing.ownLength? = some name → name ∉ Text.reservedWords
  /-- A returned array holds no callbacks. -/
  elements : ∀ r, c.returns? = some r → r.crossing.elementWrappers = []
  /-- The number of returned elements is not passed like a callback. -/
  counts : ∀ q, c.returnLength = some q → q.use.crossing.wrappers (q.countValue "__ret") = []

end CallShape

variable {t : Table} {s : Signature} {c : CallShape} {q : CallParam} {k : Nat}
  {ref holder name function : String} {names : List String} {before : List Statement}

theorem Shaped.counted_array (h : Shaped t s c) (hq : c.params[k]? = some q)
    : ∀ length ∈ c.lengthOf? k, length ∈ c.params
        ∧ ∃ type name e, q.use.type = .array type ∧ q.use.content = .array (.param name) e := by
  intro length hlength
  rcases CallShape.exists_of_lengthOf? hlength with ⟨j, hj, hrole⟩
  refine ⟨List.mem_of_getElem? hj, ?_⟩
  rcases ((h.role_eq_lengthOf hj).1 hrole).2.1 with ⟨a, ha, hplace, _⟩
  obtain rfl : q = a := by simpa [hq] using ha
  rcases Signature.lengthPlace?_eq_some hplace with ⟨p, _, hparam⟩
  rcases h.source hq with ⟨_, _, huse, _⟩
  rcases content_of_lengthParam? huse hparam with ⟨type, e, htype, hcontent⟩
  exact ⟨type, p.name, e, htype, hcontent⟩

theorem escapeReserved_notMem : Text.escapeReserved name ∉ Text.reservedWords := by
  have hmarked : ∀ word ∈ Text.reservedWords, word.toList.head? ≠ some '@' := by decide +kernel
  unfold Text.escapeReserved
  split
  . intro hmem
    exact hmarked _ hmem (by simp)
  . next hreserved => simpa using hreserved

/--
The length that an array in a signature without fault names is a parameter, which goes by that name
as long as it is not reserved.
-/
theorem Shaped.ownLength?_param (h : Shaped t s c)
    (hchecked : Validation.signatureFault? t function s = none) (hq : q ∈ c.params)
    (hname : q.use.crossing.ownLength? = some name)
    : name ∈ c.nativeNames ↔ name ∉ Text.reservedWords := by
  rcases List.getElem?_of_mem hq with ⟨k, hk⟩
  rcases h.source hk with ⟨p, hp, huse, _⟩
  have hparam := lengthParam?_of_ownLength? huse hname
  rcases exists_lengthParam hchecked (List.mem_of_getElem? hp) huse hparam with ⟨p', hp', rfl, _⟩
  constructor
  . intro hmem
    rcases List.mem_map.1 hmem with ⟨q', hq', hsame⟩
    rcases List.getElem?_of_mem hq' with ⟨j, hj⟩
    rcases h.source hj with ⟨_, _, _, hescaped⟩
    rw [← hsame, hescaped]
    exact escapeReserved_notMem
  . intro hreserved
    rcases List.getElem?_of_mem hp' with ⟨j, hj⟩
    rcases h.param j p' hj with ⟨use, _, hq'⟩
    refine List.mem_map.2 ⟨_, List.mem_of_getElem? hq', ?_⟩
    unfold CallParam.ofParameter Text.escapeReserved
    exact if_neg (by simpa using hreserved)

theorem grounded_reverseArguments (h : Shaped t s c)
    (hchecked : Validation.signatureFault? t function s = none)
    : Grounded c.nativeNames [] (Piece.commaSeparated c.reverseArgumentPieces)
        ↔
      (∀ (k : Nat) (q : CallParam), c.params[k]? = some q → q.role = .value →
        ∀ name ∈ innerLengths q.use (c.lengthOf? k), name ∈ c.nativeNames)
        ∧ ∀ (k : Nat) (q : CallParam), c.params[k]? = some q → q.role = .value →
          c.lengthOf? k = none → ∀ name, q.use.crossing.ownLength? = some name →
            name ∉ Text.reservedWords := by
  have hstands (name : String) : Stands c.nativeNames [] (.count name) ↔ name ∈ c.nativeNames := by
    simp [Stands, Declared]
  have hargument (k : Nat) (q : CallParam) (hq : c.params[k]? = some q)
      : Grounded c.nativeNames [] (managedValuePieces q.use q.name (c.lengthOf? k))
          ↔
        (c.lengthOf? k = none → ∀ name, q.use.crossing.ownLength? = some name →
            name ∉ Text.reservedWords)
          ∧ ∀ name ∈ innerLengths q.use (c.lengthOf? k), name ∈ c.nativeNames := by
    have hcounted := h.counted_array hq
    rw [grounded_managedValuePieces fun length hlength => (hcounted length hlength).2]
    simp only [hstands]
    constructor
    . rintro ⟨_, himplied, hinner⟩
      refine ⟨?_, hinner⟩
      intro hnone name hname
      rw [← h.ownLength?_param hchecked (List.mem_of_getElem? hq) hname]
      exact himplied hnone name hname
    . rintro ⟨hshared, hinner⟩
      refine ⟨?_, ?_, hinner⟩
      . intro length hlength
        exact List.mem_map_of_mem (hcounted length hlength).1
      . intro hnone name hname
        rw [h.ownLength?_param hchecked (List.mem_of_getElem? hq) hname]
        exact hshared hnone name hname
  rw [grounded_commaSeparated]
  unfold CallShape.reverseArgumentPieces
  constructor
  . intro hitems
    have hvisible (k : Nat) (q : CallParam) (hq : c.params[k]? = some q) (hrole : q.role = .value)
        : Grounded c.nativeNames [] (managedValuePieces q.use q.name (c.lengthOf? k)) := by
      apply hitems
      refine List.mem_map.2 ⟨(q, k), ?_, rfl⟩
      rw [List.mem_filter, List.mem_zipIdx_iff_getElem?]
      exact ⟨hq, decide_eq_true hrole⟩
    constructor
    . intro k q hq hrole
      exact ((hargument k q hq).1 (hvisible k q hq hrole)).2
    . intro k q hq hrole
      exact ((hargument k q hq).1 (hvisible k q hq hrole)).1
  . rintro ⟨hlengths, hshared⟩ item hitem
    rcases List.mem_map.1 hitem with ⟨⟨q, k⟩, hmem, rfl⟩
    rw [List.mem_filter, List.mem_zipIdx_iff_getElem?] at hmem
    have hrole : q.role = .value := of_decide_eq_true hmem.2
    exact (hargument k q hmem.1).2 ⟨hshared k q hmem.1 hrole, hlengths k q hmem.1 hrole⟩

/--
What is returned refers to its own wrapper, or, if it is an array of callbacks, to one that there is
not.
-/
theorem grounded_returned {r : Use} (huse : t.resolve ref = .ok r)
    (hbefore : ∀ holder, Wrapped before holder
      ↔ (∃ type, r.type = .callback type) ∧ holder = wrapperLocal "__ret")
    : Grounded names before (r.crossing.toNativePieces "__ret")
        ↔ r.crossing.elementWrappers = [] := by
  rw [grounded_toNativePieces]
  simp only [hbefore]
  by_cases htype : ∃ type, r.type = .callback type
  . rcases htype with ⟨type, htype⟩
    rcases wrappers_of_callback huse htype with ⟨helements, hown⟩
    simp only [helements, iff_true]
    intro holder hholder
    exact ⟨⟨type, htype⟩, hown "__ret" holder hholder⟩
  . rw [wrappers_of_not_callback huse (not_exists.1 htype)]
    simp [htype, List.eq_nil_iff_forall_not_mem]

theorem scoped_setLength (hnone : ∀ st ∈ before, st.wrapped? = none)
    (hnames : ∀ length ∈ c.returnLength, length.name ∈ names)
    : Scoped names before (c.returnLength.toList.map .setLength)
        ↔
      ∀ length, c.returnLength = some length →
        length.use.crossing.wrappers (length.countValue "__ret") = [] := by
  cases hlength : c.returnLength with
  | none => simp [scoped_nil]
  | some length =>
    have hname := hnames length hlength
    rw [Option.toList_some, List.map_singleton, scoped_cons, Line.setLength, grounded_around,
      grounded_cons, grounded_cons]
    unfold nativeCountPieces
    rw [grounded_toNativePieces]
    simp [hname, Stands, not_wrapped hnone, scoped_nil, List.eq_nil_iff_forall_not_mem]

theorem scoped_kept {r : Use} : Scoped names before (Line.kept r) := by
  unfold Line.kept
  split
  . refine scoped_cons.2 ⟨grounded_plain, scoped_cons.2 ⟨grounded_wrapper ?_, scoped_nil⟩⟩
    exact ⟨_, List.mem_append_right _ (List.mem_singleton.2 rfl), rfl⟩
  . exact scoped_nil

theorem wrapped_kept {r : Use}
    : Wrapped ((Line.kept r).map (·.statement)) holder
        ↔ (∃ type, r.type = .callback type) ∧ holder = wrapperLocal "__ret" := by
  have hlocal : wrapperLocal "__ret" = "__ret_wrapper" := by decide +kernel
  unfold Line.kept
  rw [hlocal]
  cases htype : r.type with
  | callback type =>
    simp [Wrapped, Line.wrap, Line.plain, Line.keepForever, Line.around, Statement.wrapped?,
      eq_comm]
  | _ => simp [Wrapped]

theorem scoped_reverseLines (h : Shaped t s c)
    (hchecked : Validation.signatureFault? t function s = none) (target : String)
    : Scoped c.nativeNames [] (c.reverseLines target) ↔ c.ReverseGrounded := by
  have harguments := grounded_reverseArguments h hchecked
  unfold CallShape.reverseLines
  cases hr : c.returns? with
  | none =>
    have hlength : c.returnLength = none := by
      unfold CallShape.returnLength
      rw [h.returnLength, hr]
      rfl
    rw [scoped_cons, grounded_around, harguments]
    constructor
    . rintro ⟨⟨hlengths, hshared⟩, _⟩
      exact ⟨hlengths, hshared, by simp [hr], by simp [hlength]⟩
    . rintro ⟨hlengths, hshared, _, _⟩
      exact ⟨⟨hlengths, hshared⟩, scoped_nil⟩
  | some r =>
    have hnames : ∀ length ∈ c.returnLength, length.name ∈ c.nativeNames := by
      intro length hlength
      exact List.mem_map_of_mem (h.returned_array hr length hlength).2.1
    dsimp only
    rw [scoped_append, scoped_append, scoped_append, scoped_cons, grounded_around, harguments,
      scoped_setLength (by simp [Line.around, Statement.wrapped?]) hnames, scoped_cons,
      grounded_around, grounded_returned ((h.returns r).1 hr).2]
    . constructor
      . rintro ⟨⟨⟨⟨⟨hlengths, hshared⟩, _⟩, hcounts⟩, _⟩, helements, _⟩
        exact ⟨hlengths, hshared, by simpa [hr] using helements, hcounts⟩
      . rintro ⟨hlengths, hshared, helements, hcounts⟩
        exact ⟨⟨⟨⟨⟨hlengths, hshared⟩, scoped_nil⟩, hcounts⟩, scoped_kept⟩, helements r hr,
          scoped_nil⟩
    . intro holder
      rw [List.map_append, ← List.append_assoc, wrapped_append, wrapped_kept, or_iff_right]
      apply not_wrapped
      simp [Line.around, Line.setLength, Statement.wrapped?]

/--
In a signature without fault, whatever a member calls and whatever becomes of the result, every name
in its body stands for something unless it comes from inside of a value. The wrappers of callbacks
that are parameters are set up before the call, and that of a returned callback before it is
returned; an array that is a parameter or returned is counted by a parameter or a local, as long as
arrays do not share a length whose name is reserved. The callbacks and the counted arrays in an
array have neither wrappers nor numbers of elements of their own: their names stand for something
only if the parameters or locals happen to be called the same.
-/
theorem bodies_scoped_iff (t : Table) (s : Signature) (function : String) (c : CallShape)
    (hshape : CallShape.ofSignature t s = .ok c)
    (hchecked : Validation.signatureFault? t function s = none)
    : (∀ callee leading sink,
        (c.callLines callee leading sink).map (·.statement) = c.callBody callee leading sink
          ∧ (Scoped c.managedNames [] (c.callLines callee leading sink) ↔ c.CallGrounded sink))
      ∧ ∀ target,
        (c.reverseLines target).map (·.statement) = c.reverseBody target
          ∧ (Scoped c.nativeNames [] (c.reverseLines target) ↔ c.ReverseGrounded) := by
  have h := shaped_of_ofSignature hshape
  constructor
  . intro callee leading sink
    exact ⟨c.map_callLines callee leading sink, scoped_callLines h hchecked callee leading sink⟩
  . intro target
    exact ⟨c.map_reverseLines target, scoped_reverseLines h hchecked target⟩

def noValue : Descriptor :=
  .simple ⟨"void", "void", none, "", false⟩

def ticks : Descriptor :=
  .array ⟨"DemoTicks", "DemoTick", .nullTerminated⟩

def grid : Descriptor :=
  .array ⟨"DemoGrid", "DemoRows", .nullTerminated⟩

/--
A function that takes a callback and a counted array and returns another counted array.
-/
def pollBoard : Method :=
  ⟨"poll", "demo_board_poll",
    ⟨"DemoInts", [⟨"tick", "DemoTick", .call⟩, ⟨"rows", "DemoRows", .call⟩, ⟨"m", "gint", .call⟩,
      ⟨"n", "gint", .call⟩]⟩, false⟩

/--
A function that takes an array of callbacks.
-/
def connectBoard : Method :=
  ⟨"connect", "demo_board_connect", ⟨"void", [⟨"ticks", "DemoTicks", .call⟩]⟩, false⟩

/--
A function that returns an array of counted arrays.
-/
def splitBoard : Method :=
  ⟨"split", "demo_board_split", ⟨"DemoGrid", []⟩, false⟩

def board : ObjectType :=
  ⟨⟨"DemoBoard", "Board", "Demo", "libdemo"⟩, none, none, [],
    [pollBoard, connectBoard, splitBoard], []⟩

def boardTable : Table where
  entries := [noValue, gint, ints, rows, .callback tick, ticks, grid, .object board]
  nodup := by decide

def pollShape : CallShape :=
  .ofUses pollBoard.signature
    [boardTable.useOf "DemoTick" (.callback tick), boardTable.useOf "DemoRows" rows,
     boardTable.useOf "gint" gint, boardTable.useOf "gint" gint]
    (some (boardTable.useOf "DemoInts" ints))

def connectShape : CallShape :=
  .ofUses connectBoard.signature [boardTable.useOf "DemoTicks" ticks] none

def splitShape : CallShape :=
  .ofUses splitBoard.signature [] (some (boardTable.useOf "DemoGrid" grid))

theorem ofSignature_board
    : CallShape.ofSignature boardTable pollBoard.signature = .ok pollShape
      ∧ CallShape.ofSignature boardTable connectBoard.signature = .ok connectShape
      ∧ CallShape.ofSignature boardTable splitBoard.signature = .ok splitShape := by
  have hresolve (ref : String) (d : Descriptor) (h : boardTable.get? ref = some d)
      : resolve boardTable ref = .ok (boardTable.useOf ref d) := resolve_ok h
  have hgint := hresolve "gint" gint (by decide +kernel)
  have hints := hresolve "DemoInts" ints (by decide +kernel)
  have hrows := hresolve "DemoRows" rows (by decide +kernel)
  have htick := hresolve "DemoTick" (.callback tick) (by decide +kernel)
  have hticks := hresolve "DemoTicks" ticks (by decide +kernel)
  have hgrid := hresolve "DemoGrid" grid (by decide +kernel)
  have hvoid : Reference.isVoid "void" = true := by decide
  have hreturnsInts : Reference.isVoid "DemoInts" = false := by decide
  have hreturnsGrid : Reference.isVoid "DemoGrid" = false := by decide
  unfold CallShape.ofSignature resolveReturn Signature.returnsVoid pollBoard connectBoard splitBoard
  simp only [resolveParams, hgint, hints, hrows, htick, hticks, hgrid, hvoid, hreturnsInts,
    hreturnsGrid]
  exact ⟨rfl, rfl, rfl⟩

theorem bodies_scoped_iff_board
    : CallShape.ofSignature boardTable pollBoard.signature = .ok pollShape
        ∧ Validation.signatureFault? boardTable "demo_board_poll" pollBoard.signature = none
        ∧ Scoped pollShape.managedNames []
            (pollShape.callLines "demo_board_poll" (some "Handle") .giveBack)
        ∧ Scoped pollShape.nativeNames [] (pollShape.reverseLines "managed") := by
  have hchecked : Validation.signatureFault? boardTable "demo_board_poll" pollBoard.signature
      = none := by
    decide +kernel
  have hflat : ∀ q ∈ pollShape.params, q.use.crossing.elementWrappers = [] := by decide +kernel
  have hdirect : ∀ q ∈ pollShape.params, q.role = .value ∨ q.use.crossing.isDirect = true := by
    decide +kernel
  have hplain : ∀ q ∈ pollShape.params, q.role ≠ .value → ∀ x, q.use.crossing.wrappers x = [] := by
    intro q hq hrole x
    exact Crossing.wrappers_of_isDirect ((hdirect q hq).resolve_left hrole)
  have hreturned : ∀ r ∈ pollShape.returns?, r.crossing.elementWrappers = []
      ∧ innerLengths r pollShape.returnLength = [] := by
    decide +kernel
  have hlengths : ∀ x ∈ pollShape.params.zipIdx, innerLengths x.1.use (pollShape.lengthOf? x.2) = []
      ∧ (pollShape.lengthOf? x.2 = none → x.1.use.crossing.ownLength? = none) := by
    decide +kernel
  rcases bodies_scoped_iff boardTable pollBoard.signature "demo_board_poll" pollShape
    ofSignature_board.1 hchecked with ⟨hcall, hreverse⟩
  refine ⟨ofSignature_board.1, hchecked, (hcall _ _ _).2.2 ⟨?_, ?_, ?_⟩,
    (hreverse _).2.2 ⟨?_, ?_, ?_, ?_⟩⟩
  . intro k q hq _ holder hholder
    rw [hflat q (List.mem_of_getElem? hq)] at hholder
    cases hholder
  . intro q hq i hrole holder hholder
    rw [hplain q hq (by simp [hrole])] at hholder
    cases hholder
  . intro _ r hr name hname
    rw [(hreturned r hr).2] at hname
    cases hname
  . intro k q hq _ name hname
    rw [(hlengths (q, k) (List.mem_zipIdx_iff_getElem?.2 hq)).1] at hname
    cases hname
  . intro k q hq _ hnone name hname
    rw [(hlengths (q, k) (List.mem_zipIdx_iff_getElem?.2 hq)).2 hnone] at hname
    cases hname
  . intro r hr
    exact (hreturned r hr).1
  . intro q hq
    rcases Option.bind_eq_some_iff.1 hq with ⟨k, hk, hq⟩
    refine hplain q (List.mem_of_getElem? hq) ?_ _
    rw [((shaped_of_ofSignature ofSignature_board.1).role_eq_returnLength hq).2 hk]
    simp

-- Neither the callbacks in an array nor the arrays in an array have names of their own.
theorem not_bodies_scoped
    : (Validation.check boardTable .initial (.object board)).1 = none
        ∧ (∀ m ∈ board.methods, ∀ p ∈ m.signature.params, Reference.depth p.ctype ≤ 1)
        ∧ CallShape.ofSignature boardTable connectBoard.signature = .ok connectShape
        ∧ (methodBody ⟨connectBoard, connectShape⟩).map (·.text)
            = ["IntPtr native_ticks = Gapi.Runtime.Marshaller.ArrayToNullTermPtr<IntPtr> "
                ++ "((ticks == null ? null : Array.ConvertAll<Demo.Tick, IntPtr> "
                ++ "(ticks, e => e_wrapper.NativeFunctionPointer)));",
               "demo_board_connect (Handle, native_ticks);",
               "Gapi.Runtime.Marshaller.Free (native_ticks);"]
        ∧ ¬ Scoped connectShape.managedNames []
            (connectShape.callLines "demo_board_connect" (some "Handle") .giveBack)
        ∧ CallShape.ofSignature boardTable splitBoard.signature = .ok splitShape
        ∧ (methodBody ⟨splitBoard, splitShape⟩).map (·.text)
            = ["IntPtr raw_ret = demo_board_split (Handle);",
               "int[][] ret = (raw_ret == IntPtr.Zero ? null : Array.ConvertAll<IntPtr, int[]> "
                ++ "(Gapi.Runtime.Marshaller.NullTermPtrToArray<IntPtr> (raw_ret), "
                ++ "e => Gapi.Runtime.Marshaller.PtrToArray<int> (e, (int) m)));",
               "return ret;"]
        ∧ ¬ Scoped splitShape.managedNames []
            (splitShape.callLines "demo_board_split" (some "Handle") .giveBack) := by
  have hfind : boardTable.find? board.identity.cname = some (.object board) := by decide +kernel
  have hvalid : boardTable.Valid board.identity.cname := by
    apply Table.Complete.valid
    . decide +kernel
    . decide +kernel
  have hcheck : (Validation.check boardTable .initial (.object board)).1 = none :=
    (Validation.Knowledge.faithful_initial.check_fst hfind).2 hvalid
  have hconnect : Validation.signatureFault? boardTable "demo_board_connect" connectBoard.signature
      = none := by
    decide +kernel
  have hsplit : Validation.signatureFault? boardTable "demo_board_split" splitBoard.signature
      = none := by
    decide +kernel
  rcases ofSignature_board with ⟨_, hconnectShape, hsplitShape⟩
  refine ⟨hcheck, by decide +kernel, hconnectShape, by decide +kernel, ?_, hsplitShape,
    by decide +kernel, ?_⟩
  . rw [scoped_callLines (shaped_of_ofSignature hconnectShape) hconnect]
    intro hgrounded
    have hholder : "e_wrapper" ∈ (boardTable.useOf "DemoTicks" ticks).crossing.elementWrappers := by
      decide +kernel
    rcases hgrounded.elements 0 _ rfl (by decide +kernel) "e_wrapper" hholder with ⟨_, _, hj, _⟩
    cases hj
  . rw [scoped_callLines (shaped_of_ofSignature hsplitShape) hsplit]
    intro hgrounded
    have hname : "m" ∈ innerLengths (boardTable.useOf "DemoGrid" grid) splitShape.returnLength := by
      decide +kernel
    rcases hgrounded.lengths rfl _ rfl "m" hname with hmem | hlocal | ⟨st, hst, _⟩
    . cases hmem
    . exact absurd hlocal (by decide)
    . cases hst

end Interop.Binding
