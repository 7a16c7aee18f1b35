import Interop.Proofs.Outputs.Session

/-!
This module contains what a session can reach on the disk: the places of the files that its calls
are about, and those of the streams that were open before. Everything else stays as it was, a
managed source among it that was written before.
-/

namespace Interop

open Disk

variable {d d' : Disk}

theorem Disk.create_changedAt (d : Disk) (p : Path)
    : ChangedAt {d.placeOf p} d (d.create p).2
      ∧ ∀ place, (d.create p).1 = some place → place = d.placeOf p := by
  generalize hcreate : d.create p = result
  rcases result with ⟨_ | place, d'⟩
  . exact ⟨(create_none hcreate).mono (Set.empty_subset _), by simp⟩
  . rcases create_some hcreate with ⟨rfl, hchanged, _⟩
    exact ⟨hchanged, by simp⟩

namespace Stream

theorem create_changedAt (d : Disk) (path : Path) (header : String)
    : ChangedAt {d.placeOf path} d (create d path header).2
      ∧ ∀ s, (create d path header).1 = .ok s → s.place = d.placeOf path := by
  unfold create
  split
  . exact ⟨.refl, by simp⟩
  . next d₁ hmade =>
    have hmade := makeParent_ok hmade
    have hcreate := Disk.create_changedAt d₁ path
    rw [hmade.placeOf] at hcreate
    generalize d₁.create path = result at hcreate ⊢
    rcases result with ⟨_ | place, d₂⟩
    . exact ⟨(hmade.mono (Set.empty_subset _)).trans hcreate.1, by simp⟩
    . have hplace : place = d.placeOf path := hcreate.2 place rfl
      have hopened : ChangedAt {d.placeOf path} d d₂ :=
        (hmade.mono (Set.empty_subset _)).trans hcreate.1
      have hput := put_continues (start path place) d₂ (bytesOf header)
      rw [← hplace] at hopened ⊢
      simp only
      generalize (start path place).put d₂ (bytesOf header) = result at hput ⊢
      rcases result with ⟨_ | _, s₃, d₃⟩
      . have hdropped : ChangedAt {s₃.place} d₃ (s₃.drop d₃) := drop_changedAt s₃ d₃
        rw [show s₃.place = place from hput.place] at hdropped
        exact ⟨(hopened.trans hput.changed).trans hdropped, by simp⟩
      . refine ⟨hopened.trans hput.changed, ?_⟩
        intro s hs
        rw [← Except.ok.inj hs]
        exact hput.place

theorem finish_changedAt (s : Stream) (d : Disk) (footer : String)
    : ChangedAt {s.place} d (s.finish d footer).2 := by
  have hdropped {s' : Stream} {d' : Disk} (h : Continues s d s' d')
      : ChangedAt {s.place} d (s'.drop d') := by
    apply h.changed.trans
    rw [← h.place]
    exact drop_changedAt s' d'
  have hput := put_continues s d (bytesOf footer)
  unfold finish
  generalize s.put d (bytesOf footer) = result at hput ⊢
  rcases result with ⟨_ | _, s₁, d₁⟩
  . exact hdropped hput
  . have hflush := flush_continues s₁ d₁
    simp only
    generalize s₁.flush d₁ = result at hflush ⊢
    rcases result with ⟨_ | _, s₂, d₂⟩
    . exact hdropped (hput.trans hflush)
    . exact hdropped (hput.trans hflush)

end Stream

namespace Outputs

variable {o o' o'' : Outputs} {f : OutputFile} {fs gs : List OutputFile} {s s' : Stream}

theorem finishAll_changedAt (d : Disk) (streams : List (Option Stream × String))
    : ChangedAt {q | ∃ s footer, (some s, footer) ∈ streams ∧ q = s.place} d
        (finishAll d streams).2 := by
  induction streams generalizing d with
  | nil => exact .refl
  | cons entry rest ih =>
    rcases entry with ⟨_ | s, footer⟩
    . apply (ih d).mono
      rintro q ⟨s, footer, hmem, hq⟩
      exact ⟨s, footer, List.mem_cons_of_mem _ hmem, hq⟩
    . unfold finishAll
      apply ((Stream.finish_changedAt s d footer).mono ?_).trans ((ih _).mono ?_)
      . rintro q hq
        exact ⟨s, footer, List.mem_cons_self, hq⟩
      . rintro q ⟨s, footer, hmem, hq⟩
        exact ⟨s, footer, List.mem_cons_of_mem _ hmem, hq⟩

theorem add_changedAt {text : String} {r : Except OutputError Unit}
    (h : add s d text = (r, s', d')) : s'.place = s.place ∧ ChangedAt {s.place} d d' := by
  have hput := Stream.put_continues s d (bytesOf text)
  unfold add at h
  generalize s.put d (bytesOf text) = result at h hput
  rcases result with ⟨_ | _, s₁, d₁⟩
  all_goals
    rcases Prod.mk.inj h with ⟨_, hrest⟩
    rcases Prod.mk.inj hrest with ⟨rfl, rfl⟩
    exact ⟨hput.place, hput.changed⟩

/--
Whether the run has recorded the path of this managed source, which is not written any more then.
-/
def recorded (o : Outputs) : OutputFile → Bool
  | .managed name => o.written.any (·.same (o.managedPath name))
  | .glue | .probeC | .probeCs => false

/--
The places to which calls about `fs` can get: streams that are open lead there, or files lie there.
Shared files are opened even where the run has recorded their paths.
-/
def reach (o : Outputs) (fs : List OutputFile) : List Place :=
  (sharedFiles.filterMap fun f => (o.stream? f).map (·.place))
    ++ (fs.filter (!o.recorded ·)).filterMap fun f => (o.options.path? f).map o.disk.placeOf

theorem mem_reach {q : Place}
    : q ∈ o.reach fs
        ↔
      (∃ f s, o.stream? f = some s ∧ q = s.place)
        ∨ ∃ f ∈ fs, ∃ path, o.recorded f = false ∧ o.options.path? f = some path
            ∧ q = o.disk.placeOf path := by
  have hstream (f : OutputFile) (s : Stream) (hs : o.stream? f = some s) : f ∈ sharedFiles := by
    rw [mem_sharedFiles]
    rintro name rfl
    simp [stream?] at hs
  unfold reach
  rw [List.mem_append, List.mem_filterMap, List.mem_filterMap]
  simp only [Option.map_eq_some_iff, List.mem_filter, Bool.not_eq_true']
  constructor
  . rintro (⟨f, _, s, hs, hq⟩ | ⟨f, ⟨hf, hrecorded⟩, path, hpath, hq⟩)
    . exact .inl ⟨f, s, hs, hq.symm⟩
    . exact .inr ⟨f, hf, path, hrecorded, hpath, hq.symm⟩
  . rintro (⟨f, s, hs, hq⟩ | ⟨f, hf, path, hrecorded, hpath, hq⟩)
    . exact .inl ⟨f, hstream f s hs, s, hs, hq.symm⟩
    . exact .inr ⟨f, ⟨hf, hrecorded⟩, path, hpath, hq.symm⟩

theorem stream_mem_reach (hs : o.stream? f = some s) : s.place ∈ o.reach fs :=
  mem_reach.2 (.inl ⟨f, s, hs, rfl⟩)

theorem reach_mono (h : fs ⊆ gs) : o.reach fs ⊆ o.reach gs := by
  intro q
  rw [mem_reach, mem_reach]
  rintro (hstream | ⟨f, hf, hplace⟩)
  . exact .inl hstream
  . exact .inr ⟨f, h hf, hplace⟩

theorem recorded_onward (h : o.recorded f = true) (honward : Onward o o')
    : o'.recorded f = true := by
  cases f with
  | managed name =>
    rcases List.any_eq_true.1 h with ⟨p, hp, hsame⟩
    refine List.any_eq_true.2 ⟨p, honward.written hp, ?_⟩
    unfold managedPath
    rw [honward.options]
    exact hsame
  | glue | probeC | probeCs => simp [recorded] at h

theorem recorded_shared (hshared : f ∈ sharedFiles) : o.recorded f = false := by
  cases f with
  | managed name => simp [sharedFiles] at hshared
  | glue | probeC | probeCs => rfl

/--
What calls about `fs` do at most: they change the disk where they can get to, and the streams that
are open after them lead nowhere else.
-/
structure Reaches (fs : List OutputFile) (o o' : Outputs) : Prop where
  options : o'.options = o.options
  changed : ChangedAt {q | q ∈ o.reach fs} o.disk o'.disk
  opened : ∀ f s, o'.stream? f = some s → s.place ∈ o.reach fs

namespace Reaches

theorem refl : Reaches fs o o :=
  ⟨rfl, .refl, fun _ _ hs => stream_mem_reach hs⟩

theorem trans (h : Reaches fs o o') (honward : Onward o o') (h' : Reaches gs o' o'')
    : Reaches (fs ++ gs) o o'' := by
  have hearlier : o.reach fs ⊆ o.reach (fs ++ gs) := reach_mono (List.subset_append_left _ _)
  have hlater : o'.reach gs ⊆ o.reach (fs ++ gs) := by
    intro q hq
    rcases mem_reach.1 hq with ⟨f, s, hs, rfl⟩ | ⟨f, hf, path, hunrecorded, hpath, rfl⟩
    . exact hearlier (h.opened f s hs)
    . have hnew : o.recorded f = false := by
        rw [Bool.eq_false_iff] at hunrecorded ⊢
        exact fun hrecorded => hunrecorded (recorded_onward hrecorded honward)
      rw [h.options] at hpath
      rw [h.changed.placeOf]
      exact mem_reach.2 (.inr ⟨f, List.mem_append_right _ hf, path, hnew, hpath, rfl⟩)
  exact ⟨h'.options.trans h.options, (h.changed.mono hearlier).trans (h'.changed.mono hlater),
    fun f s hs => hlater (h'.opened f s hs)⟩

theorem withDisk {places : Set Place} (h : Reaches fs o o') (hchanged : ChangedAt places o'.disk d)
    (hplaces : ∀ q ∈ places, q ∈ o.reach fs) : Reaches fs o { o' with disk := d } := by
  refine ⟨h.options, h.changed.trans (hchanged.mono hplaces), ?_⟩
  intro f s hs
  apply h.opened f s
  cases f <;> exact hs

theorem withStream (h : Reaches fs o o') (hplace : s.place ∈ o.reach fs)
    : Reaches fs o (o'.withStream f s) := by
  refine ⟨withStream_options.trans h.options, by rw [withStream_disk]; exact h.changed, ?_⟩
  intro g s' hs'
  by_cases hshared : ∀ name, f ≠ .managed name
  . rw [stream?_withStream hshared] at hs'
    split at hs'
    . rw [← Option.some.inj hs']
      exact hplace
    . exact h.opened g s' hs'
  . push Not at hshared
    rcases hshared with ⟨name, rfl⟩
    exact h.opened g s' hs'

theorem of_moved {places : Set Place} (h : Moved places o o')
    (hplaces : ∀ q ∈ places, q ∈ o.reach fs) : Reaches fs o o' := by
  refine ⟨h.options, h.changed.mono hplaces, ?_⟩
  intro f s hs
  rw [h.stream? f] at hs
  exact stream_mem_reach hs

-- A shared file may be opened anew, and what was there before is lost then.
theorem ensures {r : Except OutputError Stream} (h : Reaches fs o o')
    (hshared : f ∈ sharedFiles) (hf : f ∈ fs) (hopen : o'.Ensures f r o'')
    : Reaches fs o o'' ∧ ∀ s, r = .ok s → s.place ∈ o.reach fs := by
  rcases hopen with ⟨path, header, hpath, _, hensure⟩
  unfold ensure at hensure
  split at hensure
  . next s hs =>
    rcases Prod.mk.inj hensure with ⟨rfl, rfl⟩
    refine ⟨h, ?_⟩
    intro s' hs'
    rw [← Except.ok.inj hs']
    exact h.opened f s hs
  . have hcreate := Stream.create_changedAt o'.disk path header
    have hplace : o'.disk.placeOf path ∈ o.reach fs := by
      rw [h.options] at hpath
      rw [h.changed.placeOf]
      exact mem_reach.2 (.inr ⟨f, hf, path, recorded_shared hshared, hpath, rfl⟩)
    have hreached {d : Disk} {written : List Path} (hd : ChangedAt {o'.disk.placeOf path} o'.disk d)
        : Reaches fs o { o' with disk := d, written } := by
      have hdisk := h.withDisk hd (by simpa using hplace)
      refine ⟨hdisk.options, hdisk.changed, ?_⟩
      intro g s hs
      apply hdisk.opened g s
      cases g <;> exact hs
    generalize Stream.create o'.disk path header = result at hcreate hensure
    rcases result with ⟨_ | s, d⟩
    . rcases Prod.mk.inj hensure with ⟨rfl, rfl⟩
      exact ⟨hreached hcreate.1, by simp⟩
    . rcases Prod.mk.inj hensure with ⟨rfl, rfl⟩
      refine ⟨hreached hcreate.1, ?_⟩
      intro s' hs'
      rw [← Except.ok.inj hs', hcreate.2 s rfl]
      exact hplace

theorem added {text : String} {r : Except OutputError Unit} (f : OutputFile)
    (h : Reaches fs o o') (hplace : s.place ∈ o.reach fs) (hadd : add s o'.disk text = (r, s', d))
    : Reaches fs o (Outputs.withStream { o' with disk := d } f s') := by
  rcases add_changedAt hadd with ⟨hsame, hchanged⟩
  apply (h.withDisk hchanged (by simpa using hplace)).withStream
  rw [hsame]
  exact hplace

end Reaches

theorem writeManaged_of_recorded {name : String} (source : String)
    (h : o.recorded (.managed name) = true) : Moved ∅ o (o.writeManaged name source).2 := by
  have htaken : o.written.any (·.same (o.managedPath name)) = true := h
  unfold writeManaged
  split
  . exact .refl
  . next d₁ hmade =>
    rw [if_pos htaken]
    exact ⟨rfl, makeDirectories_changedAt hmade⟩

theorem writeManaged_reaches (o : Outputs) (name source : String)
    : Reaches [.managed name] o (o.writeManaged name source).2 := by
  cases hrecorded : o.recorded (.managed name) with
  | true => exact .of_moved (writeManaged_of_recorded source hrecorded) (by simp)
  | false =>
    have hplace : o.disk.placeOf (o.managedPath name) ∈ o.reach [.managed name] :=
      mem_reach.2 (.inr ⟨_, List.mem_singleton.2 rfl, _, hrecorded, rfl, rfl⟩)
    generalize hwrite : o.writeManaged name source = result
    rcases result with ⟨_ | path, o'⟩
    . apply Reaches.of_moved (writeManaged_error hwrite)
      rintro q ⟨_, rfl⟩
      exact hplace
    . rcases writeManaged_ok hwrite with ⟨_, ho, hchanged, _⟩
      refine ⟨by rw [ho], hchanged.mono (by simpa using hplace), ?_⟩
      intro f s hs
      apply stream_mem_reach (f := f)
      rw [ho] at hs
      cases f <;> exact hs

theorem appendGlue_reaches (o : Outputs) (text : String)
    : Reaches [.glue] o (o.appendGlue text).2 := by
  have hstart : Reaches [.glue] o o := .refl
  have hopens {r : Except OutputError Stream} {o₁ : Outputs} (hopen : o.Ensures .glue r o₁) :=
    hstart.ensures (by simp [sharedFiles]) (by simp) hopen
  have hsteps := appendGlue_steps o text
  generalize o.appendGlue text = result at hsteps
  cases hsteps with
  | refused _ => exact .refl
  | unopened hopen => exact (hopens hopen).1
  | added s o₁ hopen hadd => exact (hopens hopen).1.added .glue ((hopens hopen).2 s rfl) hadd

theorem appendProbe_reaches (o : Outputs) (p : Binding.Probe)
    : Reaches [.probeC, .probeCs] o (o.appendProbe p).2 := by
  have hstart : Reaches [.probeC, .probeCs] o o := .refl
  have hopensC {r : Except OutputError Stream} {o₁ : Outputs} (hopen : o.Ensures .probeC r o₁) :=
    hstart.ensures (by simp [sharedFiles]) (by simp) hopen
  have hopensCs {c : Stream} {r : Except OutputError Stream} {o₁ o₂ : Outputs}
      (hopen : o.Ensures .probeC (.ok c) o₁)
      (hopenCs : (o₁.withStream .probeC c).Ensures .probeCs r o₂) :=
    ((hopensC hopen).1.withStream ((hopensC hopen).2 c rfl)).ensures (by simp [sharedFiles])
      (by simp) hopenCs
  have hsteps := appendProbe_steps o p
  generalize o.appendProbe p = result at hsteps
  cases hsteps with
  | refused _ => exact .refl
  | unopened hopenC => exact (hopensC hopenC).1
  | halfOpened c o₁ hopenC hopenCs => exact (hopensCs hopenC hopenCs).1
  | halfAdded c cs o₁ o₂ hopenC hopenCs haddC =>
    rcases hopensCs hopenC hopenCs with ⟨hopened, hplaceCs⟩
    have hboth := hopened.withStream (f := .probeCs) (hplaceCs cs rfl)
    exact hboth.added .probeC ((hopensC hopenC).2 c rfl) haddC
  | added c cs o₁ o₂ hopenC hopenCs haddC haddCs =>
    rcases hopensCs hopenC hopenCs with ⟨hopened, hplaceCs⟩
    have haddedC := hopened.added .probeC ((hopensC hopenC).2 c rfl) haddC
    exact haddedC.added .probeCs (hplaceCs cs rfl) haddCs

theorem close_reaches (o : Outputs) : Reaches [] o o.close.2 := by
  cases hclosed : o.closed with
  | true =>
    rw [(sealed_of_closed hclosed).close]
    exact .refl
  | false =>
    rw [close_of_unclosed hclosed]
    refine ⟨rfl, (finishAll_changedAt _ _).mono ?_, ?_⟩
    . rintro q ⟨s, footer, hmem, rfl⟩
      rcases mem_finishing.1 hmem with ⟨f, hs, _⟩
      exact stream_mem_reach hs
    . intro f s hs
      cases f <;> simp [stream?] at hs

theorem answer_reaches (o : Outputs) (c : OutputCall) : Reaches c.files o (o.answer c).2 := by
  cases c with
  | managed name source => exact writeManaged_reaches o name source
  | glue text => exact appendGlue_reaches o text
  | probe p => exact appendProbe_reaches o p
  | close => exact close_reaches o

theorem session_reaches (o : Outputs) (cs : List OutputCall)
    : Reaches (cs.flatMap OutputCall.files) o (o.session cs).2 := by
  induction cs generalizing o with
  | nil => exact .refl
  | cons c cs ih => exact (answer_reaches o c).trans answer_onward (ih _)

/--
A managed source that was written holds what was written, and goes on to do so through all calls
that cannot get to its place. One of them is a managed source of the same path, which is turned down
as recorded. Nothing turns down a shared file whose path is recorded.
-/
theorem session_managed_lasts {options : OutputOptions} {before : List OutputCall}
    {name source : String}
    (hwritten : ((fresh options d).session before).2.answer (.managed name source) = (.ok (), o))
    : o.disk.Contains (options.place d (.managed name)) (bytesOf source)
      ∧ ∀ later,
          options.place d (.managed name) ∉ o.reach (later.flatMap OutputCall.files) →
            (o.session later).2.disk.entry? (options.place d (.managed name))
              = o.disk.entry? (options.place d (.managed name)) := by
  have hbefore := session_reaches (fresh options d) before
  generalize ((fresh options d).session before).2 = o₁ at hwritten hbefore
  have hplace : o₁.disk.placeOf (o₁.managedPath name) = options.place d (.managed name) := by
    unfold managedPath
    rw [hbefore.options, hbefore.changed.placeOf]
    rfl
  have ho : o = (o₁.answer (.managed name source)).2 := by rw [hwritten]
  rcases answer_managed_ok (by rw [hwritten]) with ⟨path, hwrite⟩
  rw [← ho] at hwrite
  rcases writeManaged_ok hwrite with ⟨_, _, _, hcontains⟩
  rw [hplace] at hcontains
  refine ⟨hcontains, ?_⟩
  intro later hreach
  have hchanged := (session_reaches o later).changed
  rcases hcontains with hfile | ⟨_, hdevice⟩
  . rw [hfile, hchanged.entry?_eq hreach hfile]
  . rw [hdevice, hchanged.entry?_eq hreach hdevice]

def apartOptions : OutputOptions where
  dir? := some ⟨"out"⟩
  glueFile? := some ⟨"out/glue.c"⟩
  probeCFile? := some ⟨"abi.c"⟩
  probeCsFile? := some ⟨"abi.cs"⟩

/--
Calls after a managed source was written, three of them about its path or another one to its place.
-/
def lastingCalls : List OutputCall :=
  [.managed "Widget" "second", .glue "more", .managed "./Widget" "third", .probe ⟨"a", "b"⟩,
   .managed "Button" "button", .close, .managed "Widget" "fourth"]

theorem session_managed_lasts_widget
    : ∃ o, ((fresh apartOptions Disk.blank).session [.glue "first"]).2.answer
          (.managed "Widget" "source") = (.ok (), o)
        ∧ apartOptions.place Disk.blank (.managed "Widget")
            ∉ o.reach (lastingCalls.flatMap OutputCall.files)
        ∧ (o.session lastingCalls).2.disk.entry?
              (apartOptions.place Disk.blank (.managed "Widget"))
            = some (.file (bytesOf "source")) := by
  have hwritten : (((fresh apartOptions Disk.blank).session [.glue "first"]).2.answer
      (.managed "Widget" "source")).1 = .ok () := by
    decide +kernel
  rcases session_managed_lasts (Prod.ext hwritten rfl) with ⟨hcontains, hlasts⟩
  have hreach : apartOptions.place Disk.blank (.managed "Widget")
      ∉ reach (((fresh apartOptions Disk.blank).session [.glue "first"]).2.answer
          (.managed "Widget" "source")).2 (lastingCalls.flatMap OutputCall.files) := by
    decide +kernel
  refine ⟨_, Prod.ext hwritten rfl, hreach, ?_⟩
  rw [hlasts lastingCalls hreach]
  exact hcontains.file (by decide +kernel)

/--
A glue file at the place of a managed source, under the same path.
-/
def collidingOptions : OutputOptions where
  dir? := some ⟨"out"⟩
  glueFile? := some ⟨"out/Widget.cs"⟩

theorem not_session_managed_lasts
    : ¬ ∀ (options : OutputOptions) (d : Disk) (before later : List OutputCall)
          (name source : String) (o : Outputs),
          ((fresh options d).session before).2.answer (.managed name source) = (.ok (), o) →
            (o.session later).2.disk.entry? (options.place d (.managed name))
              = o.disk.entry? (options.place d (.managed name)) := by
  intro hlasts
  have hwritten : ((fresh collidingOptions Disk.blank).answer (.managed "Widget" "source")).1
      = .ok () := by
    decide +kernel
  have hsame := hlasts collidingOptions Disk.blank [] [.glue "text"] "Widget" "source" _
    (Prod.ext hwritten rfl)
  have hchanged : ((fresh collidingOptions Disk.blank).session
        [.managed "Widget" "source", .glue "text"]).2.disk.entry?
          (collidingOptions.place Disk.blank (.managed "Widget"))
      ≠ ((fresh collidingOptions Disk.blank).session
          [.managed "Widget" "source"]).2.disk.entry?
            (collidingOptions.place Disk.blank (.managed "Widget")) := by
    decide +kernel
  exact hchanged hsame

end Outputs

end Interop
