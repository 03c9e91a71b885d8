import Kovert.Conflicts

/-!
# Conflict keys and targets

`conflict_key` spells the target of an action as text after a label for its kind.
The labels keep the kinds apart, and a name is read back from its key. A mount is
keyed by the text of its path, so one mount in two spellings has two keys.
-/

namespace Kovert

open FirstWins

/-- What an action acts on. -/
inductive Target where
  | vault (name : String)
  | network
  | interface (name : String)
  | service (name : String)
  | mode
  | mount (path : PathBuf)
  | process (name : String)
  deriving DecidableEq, Repr

namespace Target

def label : Target → String
  | .vault _ => "vault"
  | .network => "network"
  | .interface _ => "interface"
  | .service _ => "service"
  | .mode => "mode"
  | .mount _ => "mount"
  | .process _ => "process"

def key : Target → String
  | .vault name => "vault:" ++ name
  | .network => "network:isolation"
  | .interface name => "interface:" ++ name
  | .service name => "service:" ++ name
  | .mode => "mode"
  | .mount path => "mount:" ++ path.text
  | .process name => "process:" ++ name

/-- One thing on the host: a mount point is the same under every spelling. -/
def Same : Target → Target → Prop
  | .mount left, .mount right => left.pathEq right = true
  | left, right => left = right

/-- One mount point in two spellings. -/
def Respelled (left right : Target) : Prop :=
  ∃ path other, left = .mount path ∧ right = .mount other ∧ path.pathEq other = true ∧
    path ≠ other

/-- The label of a key ends at its first colon. -/
theorem key_label (target : Target) :
    target.key.toList.takeWhile (· ≠ ':') = target.label.toList := by
  cases target <;> simp [key, label]

theorem key_injective : Function.Injective key := by
  intro left right h
  have hlabel : left.label = right.label := by
    rw [← String.toList_inj, ← key_label, ← key_label, h]
  -- Targets of different kinds have different labels.
  cases left <;> cases right <;> simp only [label, String.reduceEq] at hlabel
  case network.network => rfl
  case mode.mode => rfl
  case mount.mount path other =>
    cases path
    cases other
    simpa [key] using h
  all_goals simpa [key] using h

theorem same_iff {left right : Target} :
    left.Same right ↔ left = right ∨ Respelled left right := by
  constructor
  · intro h
    by_cases heq : left = right
    · exact Or.inl heq
    · unfold Same at h
      split at h
      · next path other =>
        exact Or.inr ⟨path, other, rfl, rfl, h, fun hpath => heq (congrArg Target.mount hpath)⟩
      · exact absurd h heq
  · rintro (rfl | ⟨path, other, rfl, rfl, hpath, _⟩)
    · cases left with
      | mount path => exact beq_self_eq_true path.components
      | _ => rfl
    · exact hpath

end Target

namespace ActionSpec

def target : ActionSpec → Option Target
  | .lockVault vault | .unlockVault vault => some (.vault vault)
  | .networkIsolation _ => some .network
  | .interfaceState interface _ => some (.interface interface)
  | .service name _ => some (.service name)
  | .setMode _ => some .mode
  | .unmount path => some (.mount path)
  | .terminateProcess process _ => some (.process process)
  | .notify .. | .captureEvidence .. | .exec .. => none

def SameTarget (a b : ActionSpec) : Prop :=
  ∃ left right, a.target = some left ∧ b.target = some right ∧ left.Same right

/-- Unmounts of one path in two spellings. -/
def Respelled (a b : ActionSpec) : Prop :=
  ∃ path other, a = .unmount path ∧ b = .unmount other ∧ path.pathEq other = true ∧ path ≠ other

def ShareKey (a b : ActionSpec) : Prop :=
  ∃ key, a.conflictKey = some key ∧ b.conflictKey = some key

theorem conflictKey_eq (action : ActionSpec) :
    action.conflictKey = action.target.map Target.key := by
  cases action <;> rfl

theorem target_eq_mount {action : ActionSpec} {path : PathBuf} :
    action.target = some (.mount path) ↔ action = .unmount path := by
  cases action <;> simp [target]

/-- Two actions share a key exactly if their targets are spelled alike. -/
theorem shareKey_iff {a b : ActionSpec} :
    a.ShareKey b ↔ ∃ common, a.target = some common ∧ b.target = some common := by
  simp only [ShareKey, conflictKey_eq, Option.map_eq_some_iff]
  constructor
  · rintro ⟨_, ⟨left, hleft, rfl⟩, right, hright, hkey⟩
    rw [Target.key_injective hkey] at hright
    exact ⟨left, hleft, hright⟩
  · rintro ⟨common, hleft, hright⟩
    exact ⟨common.key, ⟨common, hleft, rfl⟩, common, hright, rfl⟩

theorem sameTarget_iff {a b : ActionSpec} : a.SameTarget b ↔ a.ShareKey b ∨ a.Respelled b := by
  simp only [SameTarget, Target.same_iff, shareKey_iff]
  constructor
  · rintro ⟨left, right, hleft, hright, rfl | ⟨path, other, rfl, rfl, hpath, hne⟩⟩
    · exact Or.inl ⟨left, hleft, hright⟩
    · exact Or.inr ⟨path, other, target_eq_mount.mp hleft, target_eq_mount.mp hright, hpath, hne⟩
  · rintro (⟨common, hleft, hright⟩ | ⟨path, other, rfl, rfl, hpath, hne⟩)
    · exact ⟨common, common, hleft, hright, Or.inl rfl⟩
    · exact ⟨.mount path, .mount other, rfl, rfl, Or.inr ⟨path, other, rfl, rfl, hpath, hne⟩⟩

theorem Respelled.not_shareKey {a b : ActionSpec} (h : a.Respelled b) : ¬ a.ShareKey b := by
  obtain ⟨path, other, rfl, rfl, _, hne⟩ := h
  rw [shareKey_iff]
  rintro ⟨common, hleft, hright⟩
  have hsame : Target.mount path = Target.mount other :=
    Option.some.inj (hleft.trans hright.symm)
  exact hne (Target.mount.inj hsame)

/-- Conflict keys identify the targets of two actions unless these unmount one
path in two spellings. -/
theorem conflictKey_identifies_iff (a b : ActionSpec) :
    (a.ShareKey b ↔ a.SameTarget b) ↔ ¬ a.Respelled b := by
  rw [sameTarget_iff]
  constructor
  · intro hiff hrespelled
    exact hrespelled.not_shareKey (hiff.mpr (Or.inr hrespelled))
  · intro hspelled
    simp only [hspelled, or_false]

end ActionSpec

/-- The plans that survive act on different targets, but for mounts in two spellings. -/
theorem resolveConflicts_targets {plans : List ActionPlan} {x y : ActionPlan}
    (hx : x ∈ resolveConflicts plans) (hy : y ∈ resolveConflicts plans)
    (h : x.action.SameTarget y.action) : x = y ∨ x.action.Respelled y.action := by
  cases ActionSpec.sameTarget_iff.mp h with
  | inl hshare =>
      obtain ⟨key, hxkey, hykey⟩ := hshare
      exact Or.inl (eq_of_mem_firstWins hx hxkey hy hykey)
  | inr hrespelled => exact Or.inr hrespelled

/-- Two unmounts of one mount point have different keys, and both plans are kept. -/
theorem respelled_unmounts_kept :
    ¬ ((ActionSpec.unmount ⟨"/mnt/data"⟩).ShareKey (.unmount ⟨"/mnt/data/"⟩) ↔
      (ActionSpec.unmount ⟨"/mnt/data"⟩).SameTarget (.unmount ⟨"/mnt/data/"⟩)) ∧
    resolveConflicts [⟨"first", 9, 1, .unmount ⟨"/mnt/data"⟩⟩,
        ⟨"second", 5, 1, .unmount ⟨"/mnt/data/"⟩⟩] =
      [⟨"first", 9, 1, .unmount ⟨"/mnt/data"⟩⟩, ⟨"second", 5, 1, .unmount ⟨"/mnt/data/"⟩⟩] := by
  constructor
  · intro hiff
    have hrespelled : (ActionSpec.unmount ⟨"/mnt/data"⟩).Respelled (.unmount ⟨"/mnt/data/"⟩) :=
      ⟨_, _, rfl, rfl, by decide +kernel, by decide⟩
    exact hrespelled.not_shareKey (hiff.mpr (ActionSpec.sameTarget_iff.mpr (Or.inr hrespelled)))
  · decide +kernel

end Kovert
