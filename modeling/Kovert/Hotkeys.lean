import Kovert.Polling
import Kovert.Validation
import Kovert.Actions
import Kovert.Foundations.History
import Kovert.Foundations.SlidingWindow

/-!
# Emergency key sequences

`spawn` of `kovert-sensors/src/hotkey.rs`: the key names of a hotkey become key
codes, and a task reads the input device, keeps the last presses in a buffer
and sends an event when the buffer spells the sequence. The buffer is a sliding
window over the presses since the last event.
-/

namespace Kovert

open History SlidingWindow

/-- The table of `key_code`. -/
def keyCodes : List (String × UInt16) :=
  [("ESC", 1), ("1", 2), ("2", 3), ("3", 4), ("4", 5), ("5", 6), ("6", 7), ("7", 8), ("8", 9),
    ("9", 10), ("0", 11), ("Q", 16), ("W", 17), ("E", 18), ("R", 19), ("T", 20), ("Y", 21),
    ("U", 22), ("I", 23), ("O", 24), ("P", 25), ("ENTER", 28), ("LEFTCTRL", 29), ("CTRL", 29),
    ("A", 30), ("S", 31), ("D", 32), ("F", 33), ("G", 34), ("H", 35), ("J", 36), ("K", 37),
    ("L", 38), ("LEFTSHIFT", 42), ("SHIFT", 42), ("Z", 44), ("X", 45), ("C", 46), ("V", 47),
    ("B", 48), ("N", 49), ("M", 50), ("LEFTALT", 56), ("ALT", 56), ("SPACE", 57), ("F1", 59),
    ("F2", 60), ("F3", 61), ("F4", 62), ("F5", 63), ("F6", 64), ("F7", 65), ("F8", 66),
    ("F9", 67), ("F10", 68), ("F11", 87), ("F12", 88), ("RIGHTCTRL", 97), ("RIGHTALT", 100),
    ("HOME", 102), ("UP", 103), ("PAGEUP", 104), ("LEFT", 105), ("RIGHT", 106), ("END", 107),
    ("DOWN", 108), ("PAGEDOWN", 109), ("INSERT", 110), ("DELETE", 111), ("LEFTMETA", 125),
    ("META", 125), ("RIGHTMETA", 126)]

def keyCode (name : String) : Option UInt16 :=
  keyCodes.lookup (String.ofList (normalizedKey name))

structure InputEvent where
  eventType : UInt16
  code : UInt16
  value : ℤ
  deriving DecidableEq, Repr

/-- `EventType::KEY`. -/
def keyType : UInt16 := 1

/-- One turn of the loop: what the device gives, `Instant::now()`, and whether
the channel still takes events. -/
structure Reading where
  result : Except String InputEvent
  now : ℕ
  accepted : Bool

structure KeyPress where
  code : UInt16
  time : ℕ
  deriving DecidableEq, Repr

/-- The press that a reading reports; releases, repeats and other events are none. -/
def Reading.press? (reading : Reading) : Option KeyPress :=
  match reading.result with
  | .ok event =>
    if event.eventType ≠ keyType ∨ event.value ≠ 1 then none else some ⟨event.code, reading.now⟩
  | .error _ => none

/-- The device gives an event, and the channel is open. -/
def Reading.Continues (reading : Reading) : Prop :=
  reading.result.isOk = true ∧ reading.accepted = true

/-- What a spawned task has of its configuration. -/
structure HotkeyTask where
  name : String
  sequence : List UInt16
  within : Duration
  deriving DecidableEq, Repr

structure HotkeyState where
  running : Bool
  buffer : List KeyPress
  deriving DecidableEq, Repr

namespace HotkeyTask

/-- The translation of the key names in `spawn`, before it opens the device. -/
def ofConfig (config : HotkeyConfig) : Except String HotkeyTask := do
  let sequence ← config.sequence.mapM (fun key =>
    require (keyCode key) ("unsupported key name: " ++ key))
  pure ⟨config.name, sequence, config.within⟩

variable (task : HotkeyTask)

def hotkeyEvent : Emission := ⟨"hotkeys", .hotkey task.name⟩

/-- The loop body. -/
def step (state : HotkeyState) (reading : Reading) : HotkeyState × List Emission :=
  if !state.running then (state, []) else
  match reading.result with
  | .error message =>
    ({ state with running := false }, [⟨"hotkeys", .sensorFailure "hotkeys" message⟩])
  | .ok event =>
    if event.eventType ≠ keyType ∨ event.value ≠ 1 then (state, []) else
    let buffer := push KeyPress.time task.sequence.length task.within state.buffer
      ⟨event.code, reading.now⟩
    if buffer.length = task.sequence.length ∧ buffer.map KeyPress.code = task.sequence then
      (⟨reading.accepted, []⟩, [task.hotkeyEvent])
    else ({ state with buffer := buffer }, [])

/-- The task after these readings. -/
def after (readings : List Reading) : HotkeyState :=
  readings.foldl (fun state reading => (task.step state reading).1) ⟨true, []⟩

/-- The task sends the event of its hotkey when it reads this. -/
def Emits (before : List Reading) (reading : Reading) : Prop :=
  task.hotkeyEvent ∈ (task.step (task.after before) reading).2

instance (before : List Reading) (reading : Reading) : Decidable (task.Emits before reading) :=
  inferInstanceAs (Decidable (_ ∈ _))

/-- `recent` is what the task has read since it last sent the event, or since its start. -/
structure SinceEmission (early recent : List Reading) : Prop where
  start : early = [] ∨ ∃ before last, early = before ++ [last] ∧ task.Emits before last
  quiet : Lawful (fun before reading => ¬ task.Emits (early ++ before) reading) recent

variable {task}

theorem after_snoc (readings : List Reading) (reading : Reading) :
    task.after (readings ++ [reading]) = (task.step (task.after readings) reading).1 := by
  rw [after, List.foldl_append]
  rfl

/-! ## One reading -/

theorem step_press {state : HotkeyState} {reading : Reading} {press : KeyPress}
    (hrunning : state.running = true) (hpress : reading.press? = some press) :
    task.step state reading =
      let buffer := push KeyPress.time task.sequence.length task.within state.buffer press
      if buffer.length = task.sequence.length ∧ buffer.map KeyPress.code = task.sequence then
        (⟨reading.accepted, []⟩, [task.hotkeyEvent])
      else ({ state with buffer := buffer }, []) := by
  rw [step, hrunning]
  unfold Reading.press? at hpress
  cases hresult : reading.result with
  | error message =>
      rw [hresult] at hpress
      cases hpress
  | ok event =>
      rw [hresult] at hpress
      simp only at hpress
      split_ifs at hpress with hother
      cases hpress
      simp only [Bool.not_true, Bool.false_eq_true, if_false, if_neg hother]

theorem step_ignored {state : HotkeyState} {reading : Reading} (hcontinues : reading.Continues)
    (hpress : reading.press? = none) : task.step state reading = (state, []) := by
  rw [step]
  unfold Reading.press? at hpress
  cases hresult : reading.result with
  | error message =>
      rw [Reading.Continues, hresult] at hcontinues
      cases hcontinues.1
  | ok event =>
      rw [hresult] at hpress
      simp only at hpress
      split_ifs at hpress with hother
      simp only [if_pos hother, ite_self]

theorem emits_iff {before : List Reading} {reading : Reading} {press : KeyPress}
    (hrunning : (task.after before).running = true) (hpress : reading.press? = some press) :
    task.Emits before reading ↔
      (push KeyPress.time task.sequence.length task.within (task.after before).buffer
          press).length = task.sequence.length ∧
        (push KeyPress.time task.sequence.length task.within (task.after before).buffer
          press).map KeyPress.code = task.sequence := by
  rw [Emits, step_press hrunning hpress]
  simp only
  split_ifs with hmatch
  · exact iff_of_true List.mem_cons_self hmatch
  · exact iff_of_false List.not_mem_nil hmatch

/-! ## The buffer since the last event -/

theorem SinceEmission.of_snoc {early recent : List Reading} {reading : Reading}
    (h : task.SinceEmission early (recent ++ [reading])) : task.SinceEmission early recent :=
  ⟨h.start, (lawful_snoc.mp h.quiet).1⟩

/-- Every stream splits after its last event. -/
theorem exists_sinceEmission (task : HotkeyTask) (readings : List Reading) :
    ∃ early recent, readings = early ++ recent ∧ task.SinceEmission early recent := by
  induction readings using List.reverseRecOn with
  | nil => exact ⟨[], [], rfl, Or.inl rfl, lawful_nil _⟩
  | append_singleton readings reading ih =>
      by_cases hemits : task.Emits readings reading
      · exact ⟨readings ++ [reading], [], (List.append_nil _).symm,
          Or.inr ⟨readings, reading, rfl, hemits⟩, lawful_nil _⟩
      · obtain ⟨early, recent, rfl, hsince⟩ := ih
        exact ⟨early, recent ++ [reading], List.append_assoc early recent [reading], hsince.start,
          lawful_snoc.mpr ⟨hsince.quiet, hemits⟩⟩

/-- What the buffer holds of the presses since the last event. -/
def Holds (task : HotkeyTask) (presses : List KeyPress) (state : HotkeyState) : Prop :=
  ∃ dropped now, presses = dropped ++ state.buffer ∧
    Kept KeyPress.time task.sequence.length task.within now dropped state.buffer ∧
    ∀ later, (∀ press ∈ presses, press.time ≤ later) → now ≤ later

theorem holds_nil {running : Bool} : task.Holds [] ⟨running, []⟩ :=
  ⟨[], 0, rfl, kept_nil 0, fun _ _ => Nat.zero_le _⟩

theorem Holds.push {presses : List KeyPress} {press : KeyPress} {state : HotkeyState}
    (h : task.Holds presses state)
    (hsorted : SlidingWindow.Nondecreasing KeyPress.time (presses ++ [press])) :
    ∃ dropped, presses ++ [press] = dropped ++
        SlidingWindow.push KeyPress.time task.sequence.length task.within state.buffer press ∧
      Kept KeyPress.time task.sequence.length task.within press.time dropped
        (SlidingWindow.push KeyPress.time task.sequence.length task.within state.buffer press) := by
  obtain ⟨dropped, now, rfl, hkept, hnow⟩ := h
  apply hkept.push hsorted
  apply hnow
  intro other hother
  exact (List.pairwise_append.mp hsorted).2.2 other hother press (List.mem_singleton_self _)

/-- After the event the task starts afresh. -/
theorem after_emits {before : List Reading} {last : Reading} (h : task.Emits before last)
    (haccepted : last.accepted = true) : task.after (before ++ [last]) = ⟨true, []⟩ := by
  rw [Emits, step] at h
  rw [after_snoc, step]
  by_cases hstopped : (!(task.after before).running) = true
  · rw [if_pos hstopped] at h
    cases h
  · rw [if_neg hstopped] at h ⊢
    cases hresult : last.result with
    | error message =>
        rw [hresult] at h
        cases List.mem_singleton.mp h
    | ok event =>
        rw [hresult] at h
        simp only at h ⊢
        split_ifs at h ⊢ with hother hmatch
        · cases h
        · rw [haccepted]
        · cases h

theorem holds_since {early recent : List Reading} (h : task.SinceEmission early recent)
    (hrun : ∀ reading ∈ early ++ recent, reading.Continues)
    (hsorted : SlidingWindow.Nondecreasing KeyPress.time (recent.filterMap Reading.press?)) :
    (task.after (early ++ recent)).running = true ∧
      task.Holds (recent.filterMap Reading.press?) (task.after (early ++ recent)) := by
  induction recent using List.reverseRecOn with
  | nil =>
      rw [List.append_nil] at hrun ⊢
      rcases h.start with rfl | ⟨before, last, rfl, hemits⟩
      · exact ⟨rfl, holds_nil⟩
      · rw [after_emits hemits (hrun last (by simp)).2]
        exact ⟨rfl, holds_nil⟩
  | append_singleton recent reading ih =>
      have hbefore : ∀ other ∈ early ++ recent, other.Continues := by
        intro other hother
        apply hrun other
        rw [← List.append_assoc]
        exact List.mem_append_left _ hother
      rw [List.filterMap_append] at hsorted ⊢
      obtain ⟨hrunning, hholds⟩ := ih h.of_snoc hbefore (List.pairwise_append.mp hsorted).1
      rw [← List.append_assoc, after_snoc]
      cases hpress : reading.press? with
      | none =>
          rw [step_ignored (hrun reading (by simp)) hpress,
            show [reading].filterMap Reading.press? = [] by simp [hpress], List.append_nil]
          exact ⟨hrunning, hholds⟩
      | some press =>
          rw [show [reading].filterMap Reading.press? = [press] by simp [hpress]] at hsorted ⊢
          have hquiet := (lawful_snoc.mp h.quiet).2
          rw [emits_iff hrunning hpress] at hquiet
          rw [step_press hrunning hpress]
          simp only [if_neg hquiet]
          obtain ⟨dropped, heq, hkept⟩ := hholds.push hsorted
          refine ⟨hrunning, dropped, press.time, heq, hkept, ?_⟩
          intro later hlater
          exact hlater press (List.mem_append_right _ (List.mem_singleton_self _))

end HotkeyTask

/-- A press sends the event exactly when it ends a run of presses since the last event that
spells the sequence within the window. -/
theorem hotkey_emits_iff (task : HotkeyTask) (early recent : List Reading) (reading : Reading)
    (press : KeyPress) (hsince : task.SinceEmission early recent)
    (hrun : ∀ other ∈ early ++ recent, other.Continues) (hpress : reading.press? = some press)
    (htimes : SlidingWindow.Nondecreasing KeyPress.time
      ((early ++ recent ++ [reading]).filterMap Reading.press?)) :
    task.Emits (early ++ recent) reading ↔
      task.sequence.length ≤ ((recent ++ [reading]).filterMap Reading.press?).length ∧
      (((recent ++ [reading]).filterMap Reading.press?).rtake task.sequence.length).map
        KeyPress.code = task.sequence ∧
      ∀ first, (((recent ++ [reading]).filterMap Reading.press?).rtake
          task.sequence.length).head? = some first →
        press.time - first.time ≤ task.within := by
  have hone : [reading].filterMap Reading.press? = [press] := by simp [hpress]
  rw [List.append_assoc, List.filterMap_append] at htimes
  have hsorted := (List.pairwise_append.mp htimes).2.1
  rw [List.filterMap_append, hone] at hsorted ⊢
  obtain ⟨hrunning, hholds⟩ :=
    HotkeyTask.holds_since hsince hrun (List.pairwise_append.mp hsorted).1
  obtain ⟨dropped, heq, hkept⟩ := hholds.push hsorted
  rw [HotkeyTask.emits_iff hrunning hpress, hkept.full_iff, heq, and_assoc]
  apply and_congr_right
  intro hmany
  rw [and_comm]
  apply and_congr_left
  intro hyoung
  rw [rtake_of_full (hkept.full_iff.mpr ⟨hmany, hyoung⟩)]

def panicTask : HotkeyTask := ⟨"panic", [29, 88], 2000⟩

def pressAt (code : UInt16) (now : ℕ) : Reading := ⟨.ok ⟨keyType, code, 1⟩, now, true⟩

/-- After a first event the sequence counts again from its first key, here
pressed twice and held out to the end of the window. -/
theorem hotkey_emits_panic :
    panicTask.Emits [pressAt 29 0, pressAt 88 1, pressAt 29 2, pressAt 29 3] (pressAt 88 2003) := by
  have hsince : panicTask.SinceEmission [pressAt 29 0, pressAt 88 1]
      [pressAt 29 2, pressAt 29 3] := by
    refine ⟨Or.inr ⟨[pressAt 29 0], pressAt 88 1, rfl, by decide⟩, ?_⟩
    refine lawful_snoc.mpr ⟨lawful_snoc.mpr ⟨lawful_nil _, ?_⟩, ?_⟩
    · decide
    · decide
  have hrun : ∀ other ∈ [pressAt 29 0, pressAt 88 1] ++ [pressAt 29 2, pressAt 29 3],
      other.Continues := by
    simp [Reading.Continues, pressAt, Except.isOk, Except.toBool]
  refine (hotkey_emits_iff panicTask _ _ _ ⟨88, 2003⟩ hsince hrun rfl ?_).mpr ⟨?_, rfl, ?_⟩
  · simp [SlidingWindow.Nondecreasing, Reading.press?, pressAt, keyType]
  · decide
  · rintro first ⟨⟩
    decide

end Kovert
