import Interop.Binding

/-!
This module contains what binding a type contributes to the output: a managed source under the
type's own name, and a probe if one was asked for.
-/

namespace Interop

namespace Binding

open Fault (bind_eq_ok)

/--
The managed source bears this name and has some text, and there is no probe.
-/
structure HasSource (e : Emitted) (name? : Option String) : Prop where
  name : e.managed?.map (·.name) = name?
  text : ∀ file ∈ e.managed?, ∃ lines, lines ≠ [] ∧ file.source = Source.text lines
  probe : e.probe? = none

theorem HasSource.of_lines {e : Emitted} {name : String} {lines : Source.Lines}
    (hmanaged : e.managed? = some ⟨name, Source.text (Source.banner ++ lines)⟩)
    (hprobe : e.probe? = none) : HasSource e (some name) := by
  refine ⟨by rw [hmanaged]; rfl, ?_, hprobe⟩
  intro file hfile
  rw [hmanaged, Option.mem_some_iff] at hfile
  rw [← hfile]
  refine ⟨_, ?_, rfl⟩
  simp [Source.banner]

variable {t : Table} {gluelib : String} {d : Descriptor} {e : Emitted}

theorem bindStruct_eq_ok {s : StructType} (h : bindStruct t gluelib s = .ok e)
    : HasSource e (some s.identity.name) := by
  unfold bindStruct at h
  rcases bind_eq_ok.1 h with ⟨plans, _, hplans⟩
  rw [← Except.ok.inj hplans]
  simp only [structSource, List.append_assoc]
  exact .of_lines rfl rfl

theorem bindObject_eq_ok {o : ObjectType} (h : bindObject t o = .ok e)
    : HasSource e (some o.identity.name) := by
  unfold bindObject at h
  rcases bind_eq_ok.1 h with ⟨plan, _, hplan⟩
  rw [← Except.ok.inj hplan]
  simp only [objectSource, List.append_assoc]
  exact .of_lines rfl rfl

theorem bindCallback_eq_ok {c : CallbackType} (h : bindCallback t gluelib c = .ok e)
    : HasSource e (some c.identity.name) := by
  unfold bindCallback at h
  rcases bind_eq_ok.1 h with ⟨shape, _, hshape⟩
  rw [← Except.ok.inj hshape]
  simp only [CallbackSource.lines, List.append_assoc]
  exact .of_lines rfl rfl

theorem bindEnum_hasSource (e : EnumType) : HasSource (bindEnum e) (some e.identity.name) := by
  simp only [bindEnum, enumSource, List.append_assoc]
  exact .of_lines rfl rfl

theorem sources_eq_ok (h : sources t gluelib d = .ok e)
    : HasSource e (d.identity?.map (·.name)) := by
  cases d with
  | struct s => exact bindStruct_eq_ok h
  | object o => exact bindObject_eq_ok h
  | callback c => exact bindCallback_eq_ok h
  | enum type =>
    rw [← Except.ok.inj h]
    exact bindEnum_hasSource type
  | simple _ | long _ | array _ =>
    rw [← Except.ok.inj h]
    exact ⟨rfl, by simp, rfl⟩

theorem probe?_eq_ok {p? : Option Probe} (h : probe? t d = .ok p?) (habi : d.abiCheck = true)
    : p?.isSome = true := by
  cases d with
  | struct s =>
    unfold probe? at h
    simp only at h
    cases hplan : plan t s with
    | error fault => simp [hplan, Except.map] at h
    | ok plans =>
      rw [hplan] at h
      rw [← Except.ok.inj h]
      rfl
  | enum e =>
    rw [← Except.ok.inj h]
    rfl
  | simple _ | long _ | object _ | array _ | callback _ => simp [Descriptor.abiCheck] at habi

end Binding

theorem bind_eq_ok {t : Table} {gluelib : String} {d : Descriptor} {e : Binding.Emitted}
    (h : bind t gluelib d = .ok e)
    : e.managed?.map (·.name) = d.identity?.map (·.name)
      ∧ (∀ file ∈ e.managed?, ∃ lines, lines ≠ [] ∧ file.source = Source.text lines)
      ∧ e.probe?.isSome = d.abiCheck := by
  unfold bind at h
  rcases Fault.bind_eq_ok.1 h with ⟨emitted, hsources, hrest⟩
  rcases Binding.sources_eq_ok hsources with ⟨hname, htext, hprobe⟩
  split at hrest
  . next habi =>
    rcases Fault.bind_eq_ok.1 hrest with ⟨p?, hp, he⟩
    rw [← Except.ok.inj he, habi]
    exact ⟨hname, htext, Binding.probe?_eq_ok hp habi⟩
  . next habi =>
    rw [← Except.ok.inj hrest, hprobe]
    exact ⟨hname, htext, by simpa using habi⟩

end Interop
