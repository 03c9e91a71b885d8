import Kovert.SensorCoverage
import Mathlib.Logic.Relation

/-!
# Nested sequences

A sequence is followed step by step only at the root of a trigger. Below the
root `trigger_matches` answers false for it, and validation refuses it as a
step of another sequence. It does not look for it among the operands of `all`,
`any` and `not`.
-/

namespace Kovert

open Relation

def TriggerSpec.isSequence : TriggerSpec → Bool
  | .sequence .. => true
  | _ => false

/-- A composite trigger that is not a sequence. -/
def TriggerSpec.isOperator : TriggerSpec → Bool
  | .all _ | .any _ | .not _ => true
  | _ => false

def TriggerSpec.children : TriggerSpec → List TriggerSpec
  | .all triggers | .any triggers => triggers
  | .not trigger => [trigger]
  | .sequence steps _ => steps
  | _ => []

def TriggerSpec.HasChild (parent child : TriggerSpec) : Prop := child ∈ parent.children

/-- `trigger_matches` reaches the node when it evaluates the trigger. `all` stops
at the first operand that does not match and `any` at the first that does. -/
inductive Evaluates (event : Event) : TriggerSpec → TriggerSpec → Prop
  | self (trigger : TriggerSpec) : Evaluates event trigger trigger
  | all {before later : List TriggerSpec} {item node : TriggerSpec} :
      (∀ earlier ∈ before, triggerMatches earlier event = true) → Evaluates event item node →
        Evaluates event (.all (before ++ item :: later)) node
  | any {before later : List TriggerSpec} {item node : TriggerSpec} :
      (∀ earlier ∈ before, triggerMatches earlier event = false) → Evaluates event item node →
        Evaluates event (.any (before ++ item :: later)) node
  | not {trigger node : TriggerSpec} :
      Evaluates event trigger node → Evaluates event (.not trigger) node

namespace Rule

variable (rule : Rule)

/-- The triggers that `handle` gives to `trigger_matches`: the steps of a
sequence at the root, or else the root. -/
def handed : List TriggerSpec :=
  match rule.trigger with
  | .sequence steps _ => steps
  | trigger => [trigger]

/-- No node below the root of the trigger is a sequence. -/
def SequenceAtRoot : Prop :=
  ∀ node, TransGen TriggerSpec.HasChild rule.trigger node → node.isSequence = false

/-- `handle` never has `trigger_matches` evaluate a sequence. -/
def NeverMeetsSequence : Prop :=
  ∀ trigger ∈ rule.handed, ∀ event node, Evaluates event trigger node → node.isSequence = false

/-- No `all`, `any` or `not` in the trigger has a sequence as an operand. -/
def PlainOperands : Prop :=
  ∀ node, ReflTransGen TriggerSpec.HasChild rule.trigger node → node.isOperator = true →
    ∀ operand ∈ node.children, operand.isSequence = false

end Rule

/-! ## Evaluation stays in the tree -/

theorem Evaluates.reachable {event : Event} {trigger node : TriggerSpec}
    (h : Evaluates event trigger node) : ReflTransGen TriggerSpec.HasChild trigger node := by
  induction h with
  | self trigger => exact ReflTransGen.refl
  | all _ _ ih => exact ReflTransGen.head (by simp [TriggerSpec.HasChild, TriggerSpec.children]) ih
  | any _ _ ih => exact ReflTransGen.head (by simp [TriggerSpec.HasChild, TriggerSpec.children]) ih
  | not _ ih => exact ReflTransGen.head (List.mem_singleton_self _) ih

theorem Rule.mem_handed {rule : Rule} {trigger : TriggerSpec} (h : trigger ∈ rule.handed) :
    trigger = rule.trigger ∧ trigger.isSequence = false ∨ rule.trigger.HasChild trigger := by
  cases hroot : rule.trigger with
  | sequence steps within =>
      rw [handed, hroot] at h
      exact Or.inr h
  | _ =>
      rw [handed, hroot] at h
      cases List.mem_singleton.mp h
      exact Or.inl ⟨rfl, rfl⟩

theorem Rule.SequenceAtRoot.neverMeets {rule : Rule} (h : rule.SequenceAtRoot) :
    rule.NeverMeetsSequence := by
  intro trigger htrigger event node hevaluates
  rcases mem_handed htrigger with ⟨hroot, hplain⟩ | hchild
  · rcases reflTransGen_iff_eq_or_transGen.mp hevaluates.reachable with heq | hbelow
    · rw [heq]
      exact hplain
    · exact h node (hroot ▸ hbelow)
  · exact h node (TransGen.head' hchild hevaluates.reachable)

/-! ## What validation looks at -/

section

variable {rule : String} {hotkeys : List String}

theorem validateTriggers_mem {triggers : List TriggerSpec} {depth : ℕ}
    (h : validateTriggers rule hotkeys triggers depth = []) :
    ∀ item ∈ triggers, validateTrigger rule hotkeys item depth = [] := by
  induction triggers with
  | nil => exact List.forall_mem_nil _
  | cons item items ih =>
      obtain ⟨hitem, hitems⟩ := List.append_eq_nil_iff.mp h
      exact List.forall_mem_cons.mpr ⟨hitem, ih hitems⟩

theorem validateSteps_mem {steps : List TriggerSpec} {depth : ℕ}
    (h : validateSteps rule hotkeys steps depth = []) :
    ∀ step ∈ steps, step.isSequence = false ∧ validateTrigger rule hotkeys step depth = [] := by
  induction steps with
  | nil => exact List.forall_mem_nil _
  | cons step steps ih =>
      obtain ⟨hstep, hsteps⟩ := List.append_eq_nil_iff.mp h
      obtain ⟨hplain, hvalid⟩ := List.append_eq_nil_iff.mp hstep
      refine List.forall_mem_cons.mpr ⟨⟨?_, hvalid⟩, ih hsteps⟩
      cases step with
      | sequence inner within => cases hplain
      | _ => rfl

theorem validateTrigger_child {parent child : TriggerSpec} {depth : ℕ}
    (h : validateTrigger rule hotkeys parent depth = []) (hchild : parent.HasChild child) :
    validateTrigger rule hotkeys child (depth + 1) = [] ∧
      (parent.isSequence = true → child.isSequence = false) := by
  cases parent with
  | all triggers =>
      exact ⟨validateTriggers_mem ((validateTrigger_composite 0).1 h) child hchild,
        fun hsequence => by cases hsequence⟩
  | any triggers =>
      exact ⟨validateTriggers_mem ((validateTrigger_composite 0).2.1 h) child hchild,
        fun hsequence => by cases hsequence⟩
  | not trigger =>
      rw [validateTrigger] at h
      split_ifs at h
      cases List.mem_singleton.mp hchild
      exact ⟨h, fun hsequence => by cases hsequence⟩
  | sequence steps within =>
      obtain ⟨hplain, hvalid⟩ := validateSteps_mem ((validateTrigger_composite within).2.2 h) child
        hchild
      exact ⟨hvalid, fun _ => hplain⟩
  | _ => cases hchild

/-- Every node of an accepted trigger is itself accepted, at its depth. -/
theorem validateTrigger_node {root node : TriggerSpec}
    (h : validateTrigger rule hotkeys root 0 = [])
    (hnode : ReflTransGen TriggerSpec.HasChild root node) :
    ∃ depth, validateTrigger rule hotkeys node depth = [] := by
  induction hnode with
  | refl => exact ⟨0, h⟩
  | tail _ hchild ih =>
      obtain ⟨depth, hparent⟩ := ih
      exact ⟨depth + 1, (validateTrigger_child hparent hchild).1⟩

end

theorem sequenceAtRoot_iff {rule : Rule} {hotkeys : List String}
    (hvalid : validateTrigger rule.id hotkeys rule.trigger 0 = []) :
    rule.SequenceAtRoot ↔ rule.PlainOperands := by
  constructor
  · intro hroot node hnode _ operand hoperand
    exact hroot operand (TransGen.tail' hnode hoperand)
  · intro hplain node hbelow
    obtain ⟨parent, hparent, hchild⟩ := TransGen.tail'_iff.mp hbelow
    by_cases hoperator : parent.isOperator = true
    · exact hplain parent hparent hoperator node hchild
    · obtain ⟨depth, haccepted⟩ := validateTrigger_node hvalid hparent
      refine (validateTrigger_child haccepted hchild).2 ?_
      cases parent with
      | sequence steps within => rfl
      | all triggers => exact absurd rfl hoperator
      | any triggers => exact absurd rfl hoperator
      | not trigger => exact absurd rfl hoperator
      | _ => cases hchild

/-- In an accepted configuration sequences stand at the root of their triggers,
and are never met by `trigger_matches`, exactly when no `all`, `any` or `not`
has a sequence as an operand. -/
theorem nested_sequences_iff (parseTime : String → Option ℕ) (config : Config)
    (hok : validateConfig parseTime config = .ok ()) :
    (∀ rule ∈ config.rules, rule.SequenceAtRoot ∧ rule.NeverMeetsSequence) ↔
      ∀ rule ∈ config.rules, rule.PlainOperands := by
  constructor
  · intro h rule hrule
    exact (sequenceAtRoot_iff (validateConfig_rule hok hrule).1).mp (h rule hrule).1
  · intro h rule hrule
    have hroot := (sequenceAtRoot_iff (validateConfig_rule hok hrule).1).mpr (h rule hrule)
    exact ⟨hroot, hroot.neverMeets⟩

def armThenGo : TriggerSpec := .sequence [.manual "arm", .manual "go"] 1

theorem nested_sequences_arm :
    (testRule armThenGo).SequenceAtRoot ∧ (testRule armThenGo).NeverMeetsSequence := by
  refine (nested_sequences_iff (fun _ => none) (testConfig [testRule armThenGo])
    (by decide +kernel)).mpr ?_ _ (List.mem_singleton_self _)
  intro rule hrule node hnode hoperator
  cases List.mem_singleton.mp hrule
  rcases ReflTransGen.cases_head hnode with rfl | ⟨step, hstep, hbelow⟩
  · cases hoperator
  · have hleaf : step = .manual "arm" ∨ step = .manual "go" := by
      simpa [TriggerSpec.HasChild, TriggerSpec.children, testRule, armThenGo] using hstep
    rcases ReflTransGen.cases_head hbelow with rfl | ⟨child, hchild, _⟩
    · rcases hleaf with rfl | rfl <;> cases hoperator
    · rcases hleaf with rfl | rfl <;> cases hchild

/-- A sequence under `not` is accepted, and its rule fires on any event. -/
theorem negated_sequence_fires :
    let rule := testRule (.not armThenGo)
    validateConfig (fun _ => none) (testConfig [rule]) = .ok () ∧
      ((PolicyEngine.new [rule] "normal" 0).handle bareHost (eventAt .tick 1)).map
        (fun result => result.2.map (·.ruleId)) = some ["test"] ∧
      ¬ rule.SequenceAtRoot ∧ ¬ rule.NeverMeetsSequence := by
  intro rule
  refine ⟨by decide +kernel, by decide +kernel, ?_, ?_⟩
  · intro hroot
    cases hroot armThenGo (TransGen.single (List.mem_singleton_self _))
  · intro hnever
    cases hnever rule.trigger (List.mem_singleton_self _) (eventAt .tick 1) armThenGo
      (.not (.self _))

end Kovert
