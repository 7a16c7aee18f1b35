import Interop.Proofs.Outputs.Refusal

/-!
This module contains sessions: calls to outputs in any order, each with its answer, and what the
answers say that every file received.
-/

namespace Interop

inductive OutputCall where
  | managed (name source : String)
  | glue (text : String)
  | probe (probe : Binding.Probe)
  | close
  deriving DecidableEq, Repr

namespace OutputCall

/--
The files that the call is about.
-/
def files : OutputCall → List OutputFile
  | .managed name _ => [.managed name]
  | .glue _ => [.glue]
  | .probe _ => [.probeC, .probeCs]
  | .close => []

/--
What the call adds to a file.
-/
def text (f : OutputFile) : OutputCall → Bytes
  | .managed name source => if f = .managed name then bytesOf source else []
  | .glue text => if f = .glue then bytesOf text else []
  | .probe p =>
    (if f = .probeC then bytesOf p.c else []) ++ if f = .probeCs then bytesOf p.cs else []
  | .close => []

theorem text_eq_nil {c : OutputCall} {f : OutputFile} (h : f ∉ c.files) : c.text f = [] := by
  cases c with
  | managed name source => exact if_neg (by simpa [files] using h)
  | glue text => exact if_neg (by simpa [files] using h)
  | probe p =>
    simp only [files, List.mem_cons, List.not_mem_nil, or_false, not_or] at h
    simp [text, h.1, h.2]
  | close => rfl

end OutputCall

/--
The calls of a session with their answers, in order.
-/
abbrev Transcript := List (OutputCall × Except OutputError Unit)

namespace Transcript

/--
All that successful calls added to a file.
-/
def received (t : Transcript) (f : OutputFile) : Bytes :=
  t.flatMap fun (c, r) => if r.isOk then c.text f else []

/--
Whether the answer to a call says that an open stream could not hand on its bytes. A managed source
does not go through a stream.
-/
def hindered : OutputCall × Except OutputError Unit → Bool
  | (.managed _ _, _) | (_, .ok ()) => false
  | (_, .error e) => e.isWriteFailure

/--
Every write to an open stream and every flush of it succeeded.
-/
def Unhindered (t : Transcript) : Prop :=
  ∀ x ∈ t, hindered x = false

instance (t : Transcript) : Decidable t.Unhindered :=
  inferInstanceAs (Decidable (∀ x ∈ t, hindered x = false))

variable {t before after : Transcript} {c : OutputCall} {f : OutputFile} {e : OutputError}

theorem received_append : received (before ++ after) f = before.received f ++ after.received f :=
  List.flatMap_append

theorem received_concat_ok
    : received (t ++ [(c, .ok ())]) = fun f => t.received f ++ c.text f := by
  funext f
  simp [received, Except.isOk, Except.toBool]

theorem received_concat_error : received (t ++ [(c, .error e)]) = t.received := by
  funext f
  simp [received, Except.isOk, Except.toBool]

theorem received_eq_nil (h : ∀ c, (c, .ok ()) ∈ t → f ∉ c.files) : t.received f = [] := by
  unfold received
  rw [List.flatMap_eq_nil_iff]
  rintro ⟨c, r⟩ hmem
  cases r with
  | error e => rfl
  | ok u =>
    simp only [Except.isOk, Except.toBool, if_pos]
    exact OutputCall.text_eq_nil (h c hmem)

end Transcript

namespace Outputs

def fresh (options : OutputOptions) (d : Disk) : Outputs :=
  { options, disk := d }

def answer (o : Outputs) : OutputCall → Except OutputError Unit × Outputs
  | .managed name source =>
    match o.writeManaged name source with
    | (r, o) => (r.map fun _ => (), o)
  | .glue text => o.appendGlue text
  | .probe p => o.appendProbe p
  | .close => o.close

/--
Makes calls one after the other, whatever they answer.
-/
def session (o : Outputs) : List OutputCall → Transcript × Outputs
  | [] => ([], o)
  | c :: cs =>
    match o.answer c with
    | (r, o) =>
      match o.session cs with
      | (t, o) => ((c, r) :: t, o)

variable {o o' o'' : Outputs} {c : OutputCall} {cs : List OutputCall}

theorem session_cons
    : o.session (c :: cs)
        =
      ((c, (o.answer c).1) :: ((o.answer c).2.session cs).1, ((o.answer c).2.session cs).2) := by
  rfl

/--
What no call takes back.
-/
structure Onward (o o' : Outputs) : Prop where
  options : o'.options = o.options
  written : o.written ⊆ o'.written
  closed : o.closed = true → o'.closed = true

namespace Onward

theorem refl : Onward o o :=
  ⟨rfl, fun _ h => h, id⟩

theorem trans (h : Onward o o') (h' : Onward o' o'') : Onward o o'' :=
  ⟨h'.options.trans h.options, fun _ hp => h'.written (h.written hp), h'.closed ∘ h.closed⟩

theorem of_written {path : Path} (hoptions : o'.options = o.options)
    (hwritten : o'.written = o.written ++ [path]) (hclosed : o'.closed = o.closed)
    : Onward o o' := by
  refine ⟨hoptions, ?_, fun h => hclosed.trans h⟩
  rw [hwritten]
  exact List.subset_append_left _ _

theorem of_moved {places : Set Place} (h : Moved places o o') : Onward o o' := by
  refine ⟨h.options, ?_, fun hclosed => h.closed.trans hclosed⟩
  rw [h.written]
  exact fun _ hp => hp

end Onward

theorem Ensures.onward {f : OutputFile} {r : Except OutputError Stream} (h : o.Ensures f r o')
    : Onward o o' := by
  rcases h with ⟨path, header, _, _, h⟩
  unfold ensure at h
  split at h
  . rw [← (Prod.mk.inj h).2]
    exact .refl
  . split at h
    . rw [← (Prod.mk.inj h).2]
      exact .of_written rfl rfl rfl
    . rw [← (Prod.mk.inj h).2]
      exact ⟨rfl, fun _ h => h, id⟩

theorem answer_managed_onward {name source : String}
    : Onward o (o.answer (.managed name source)).2 := by
  simp only [answer]
  generalize hwrite : o.writeManaged name source = result
  rcases result with ⟨_ | path, o'⟩
  . exact .of_moved (writeManaged_error hwrite)
  . rw [(writeManaged_ok hwrite).2.1]
    exact .of_written rfl rfl rfl

theorem appendGlue_onward {text : String} : Onward o (o.appendGlue text).2 := by
  have hsteps := appendGlue_steps o text
  generalize o.appendGlue text = result at hsteps
  cases hsteps with
  | refused _ => exact .refl
  | unopened hopen => exact hopen.onward
  | added s o₁ hopen _ => exact hopen.onward.trans ⟨rfl, fun _ h => h, id⟩

theorem appendProbe_onward {p : Binding.Probe} : Onward o (o.appendProbe p).2 := by
  have hsteps := appendProbe_steps o p
  generalize o.appendProbe p = result at hsteps
  cases hsteps with
  | refused _ => exact .refl
  | unopened hopenC => exact hopenC.onward
  | halfOpened c o₁ hopenC hopenCs =>
    have hopened : Onward o (o₁.withStream .probeC c) :=
      hopenC.onward.trans ⟨rfl, fun _ h => h, id⟩
    exact hopened.trans hopenCs.onward
  | halfAdded c cs o₁ o₂ hopenC hopenCs _ | added c cs o₁ o₂ hopenC hopenCs _ _ =>
    have hopened : Onward o (o₁.withStream .probeC c) :=
      hopenC.onward.trans ⟨rfl, fun _ h => h, id⟩
    exact (hopened.trans hopenCs.onward).trans ⟨rfl, fun _ h => h, id⟩

theorem close_onward : Onward o o.close.2 := by
  unfold close
  split
  . exact .refl
  . exact ⟨rfl, fun _ h => h, fun _ => rfl⟩

theorem answer_onward : Onward o (o.answer c).2 := by
  cases c with
  | managed name source => exact answer_managed_onward
  | glue text => exact appendGlue_onward
  | probe p => exact appendProbe_onward
  | close => exact close_onward

theorem session_onward : Onward o (o.session cs).2 := by
  induction cs generalizing o with
  | nil => exact .refl
  | cons c cs ih => exact answer_onward.trans ih

/--
Outputs to which nothing can be appended any more, and which closing again leaves as they are.
-/
structure Sealed (o : Outputs) : Prop where
  glue : ∀ text, o.appendGlue text = (.error .closed, o)
  probe : ∀ p, o.appendProbe p = (.error .closed, o)
  close : o.close = (.ok (), o)

theorem sealed_of_closed (h : o.closed = true) : o.Sealed where
  glue text := by
    unfold appendGlue
    rw [if_pos h]
  probe p := by
    unfold appendProbe
    rw [if_pos h]
  close := by
    unfold Outputs.close
    rw [if_pos h]

theorem close_closed : o.close.2.closed = true := by
  unfold close
  split
  . next h => exact h
  . rfl

theorem close_written : o.close.2.written = o.written := by
  unfold close
  split <;> rfl

theorem session_closed (h : .close ∈ cs) : (o.session cs).2.closed = true := by
  induction cs generalizing o with
  | nil => simp at h
  | cons c cs ih =>
    rcases List.mem_cons.1 h with rfl | h
    . have honward : Onward o.close.2 (o.close.2.session cs).2 := session_onward
      exact honward.closed close_closed
    . exact ih h

theorem session_split {before after : Transcript} {r : Except OutputError Unit}
    (h : (o.session cs).1 = before ++ (c, r) :: after)
    : ∃ (o₁ : Outputs) (cs' : List OutputCall), o₁.options = o.options ∧ (o₁.answer c).1 = r
        ∧ ((o₁.answer c).2.session cs').1 = after := by
  induction cs generalizing o before with
  | nil => simp [session] at h
  | cons c' cs ih =>
    rw [session_cons] at h
    cases before with
    | nil =>
      rcases List.cons.inj h with ⟨hhead, htail⟩
      rcases Prod.mk.inj hhead with ⟨rfl, hr⟩
      exact ⟨o, cs, rfl, hr, htail⟩
    | cons x before =>
      rcases ih (List.cons.inj h).2 with ⟨o₁, cs', hoptions, hr, hafter⟩
      exact ⟨o₁, cs', hoptions.trans answer_onward.options, hr, hafter⟩

/--
The answer says that the managed source was not written.
-/
def Refused (options : OutputOptions) (name : String) (r : Except OutputError Unit) : Prop :=
  r = .error (.taken (options.dir.join ⟨name ++ ".cs"⟩)) ∨ r = .error (.create options.dir)

theorem Refused.ne_ok {options : OutputOptions} {name : String} {r : Except OutputError Unit}
    (h : Refused options name r) : r ≠ .ok () := by
  rintro rfl
  rcases h with h | h <;> simp at h

theorem refused_of_taken {name source : String} (hmem : o.managedPath name ∈ o.written)
    : Refused o.options name (o.answer (.managed name source)).1 := by
  have htaken := writeManaged_of_taken hmem source
  simp only [answer]
  generalize o.writeManaged name source = result at htaken
  rcases result with ⟨r, o'⟩
  simp only at htaken
  rcases htaken with rfl | rfl
  . exact .inl rfl
  . exact .inr rfl

theorem session_refused {name source : String} {r : Except OutputError Unit}
    (hmem : o.managedPath name ∈ o.written) (h : (.managed name source, r) ∈ (o.session cs).1)
    : Refused o.options name r := by
  induction cs generalizing o with
  | nil => simp [session] at h
  | cons c cs ih =>
    rw [session_cons] at h
    rcases List.mem_cons.1 h with heq | h
    . rcases Prod.mk.inj heq with ⟨rfl, rfl⟩
      exact refused_of_taken hmem
    . have honward : Onward o (o.answer c).2 := answer_onward
      have hmem' : (o.answer c).2.managedPath name ∈ (o.answer c).2.written := by
        unfold managedPath
        rw [honward.options]
        exact honward.written hmem
      rw [← honward.options]
      exact ih hmem' h

theorem answer_managed_ok {name source : String}
    (h : (o.answer (.managed name source)).1 = .ok ())
    : ∃ path, o.writeManaged name source = (.ok path, (o.answer (.managed name source)).2) := by
  simp only [answer] at h ⊢
  generalize o.writeManaged name source = result at h ⊢
  rcases result with ⟨_ | path, o'⟩
  . simp [Except.map] at h
  . exact ⟨path, rfl⟩

theorem session_later_refused {before after : Transcript} {name source source' : String}
    {r : Except OutputError Unit}
    (h : (o.session cs).1 = before ++ (.managed name source, .ok ()) :: after)
    (hlater : (.managed name source', r) ∈ after) : Refused o.options name r := by
  rcases session_split h with ⟨o₁, cs', hoptions, hr, hafter⟩
  rcases answer_managed_ok hr with ⟨path, hwrite⟩
  have honward : Onward o₁ (o₁.answer (.managed name source)).2 := answer_onward
  rw [← hafter] at hlater
  rw [← hoptions, ← honward.options]
  apply session_refused _ hlater
  rw [(writeManaged_ok hwrite).2.1]
  exact List.mem_append_right _ (List.mem_singleton.2 rfl)

-- A second success, before or after, would come after a first one.
theorem session_received_managed {before after : Transcript} {name source : String}
    (h : (o.session cs).1 = before ++ (.managed name source, .ok ()) :: after)
    : (o.session cs).1.received (.managed name) = bytesOf source := by
  have hafter : after.received (.managed name) = [] := by
    apply Transcript.received_eq_nil
    intro c hmem hfile
    cases c with
    | managed name' source' =>
      rw [show name = name' by simpa [OutputCall.files] using hfile] at h
      exact (session_later_refused h hmem).ne_ok rfl
    | glue text | probe p | close => simp [OutputCall.files] at hfile
  have hbefore : before.received (.managed name) = [] := by
    apply Transcript.received_eq_nil
    intro c hmem hfile
    cases c with
    | managed name' source' =>
      rcases List.append_of_mem hmem with ⟨earlier, between, rfl⟩
      rw [List.append_assoc, List.cons_append] at h
      have hlater : (.managed name' source, .ok ())
          ∈ between ++ (.managed name source, .ok ()) :: after := by
        rw [show name = name' by simpa [OutputCall.files] using hfile]
        simp
      exact (session_later_refused h hlater).ne_ok rfl
    | glue text | probe p | close => simp [OutputCall.files] at hfile
  rw [h, Transcript.received_append, hbefore, List.nil_append]
  rw [← List.singleton_append, Transcript.received_append, hafter, List.append_nil]
  simp [Transcript.received, OutputCall.text, Except.isOk, Except.toBool]

end Outputs

end Interop
