import Kovert.Matching
import Kovert.Validation

/-!
# Time windows

The bounds of a window are inclusive, and a window whose start lies after its
end spans midnight. `outside` negates the time of day; the list of weekdays is
a filter over both.
-/

namespace Kovert

/-- The time of day lies in the window. -/
def InsideWindow (start finish now : ℕ) : Prop :=
  if start ≤ finish then start ≤ now ∧ now ≤ finish else start ≤ now ∨ now ≤ finish

instance (start finish now : ℕ) : Decidable (InsideWindow start finish now) :=
  inferInstanceAs (Decidable (ite _ _ _))

/-- The condition looks at this weekday at all. -/
def CoversWeekday (weekdays : List Weekday) (day : Weekday) : Prop :=
  weekdays = [] ∨ day ∈ weekdays

theorem insideWindow_iff {start finish now : ℕ} :
    (if start ≤ finish then decide (start ≤ now) && decide (now ≤ finish)
      else decide (start ≤ now) || decide (now ≤ finish)) =
      decide (InsideWindow start finish now) := by
  by_cases horder : start ≤ finish
  · simp [InsideWindow, horder]
  · simp [InsideWindow, horder]

section

variable {host : Host} {snapshot : SystemSnapshot} {start finish : String} {first last : ℕ}
  {weekdays : List Weekday}

/-- What the condition says of an instant, with the window's bounds read. -/
theorem conditionMatches_timeWindow (hstart : host.parseTime start = some first)
    (hfinish : host.parseTime finish = some last) (outside : Bool) :
    conditionMatches host (.timeWindow start finish outside weekdays) snapshot = true ↔
      CoversWeekday weekdays (host.localTime snapshot.now).2 ∧
        (InsideWindow first last (host.localTime snapshot.now).1 ↔ outside = false) := by
  rw [conditionMatches, timeWindowMatches, hstart, hfinish]
  simp only [insideWindow_iff, CoversWeekday]
  cases outside <;> simp

/-- Outside of an overnight window is the day between its end and its start. -/
theorem outside_overnight (hstart : host.parseTime start = some first)
    (hfinish : host.parseTime finish = some last) (hovernight : last < first) :
    conditionMatches host (.timeWindow start finish true weekdays) snapshot = true ↔
      CoversWeekday weekdays (host.localTime snapshot.now).2 ∧
        last < (host.localTime snapshot.now).1 ∧ (host.localTime snapshot.now).1 < first := by
  rw [conditionMatches_timeWindow hstart hfinish, InsideWindow, if_neg (by omega)]
  refine and_congr_right (fun _ => ?_)
  have hfalse : (true = false) ↔ False := by decide
  rw [hfalse, iff_false]
  omega

theorem validateCondition_timeWindow {parseTime : String → Option ℕ} {rule : String} {depth : ℕ}
    {outside : Bool}
    (hvalid : validateCondition parseTime rule (.timeWindow start finish outside weekdays) depth =
      []) : ∃ first last, parseTime start = some first ∧ parseTime finish = some last := by
  rw [validateCondition] at hvalid
  by_cases hdepth : 16 < depth
  · simp [hdepth] at hvalid
  · simp only [hdepth, if_false, report_eq_nil, Bool.or_eq_false_iff, Option.isNone_eq_false_iff,
      Option.isSome_iff_exists] at hvalid
    obtain ⟨⟨first, hfirst⟩, last, hlast⟩ := hvalid
    exact ⟨first, last, hfirst, hlast⟩

end

/-- Outside and inside of a valid window complement each other at an instant
exactly when the condition covers its weekday; on the other days neither holds. -/
theorem outside_complements_iff (host : Host) (rule start finish : String)
    (weekdays : List Weekday) (depth : ℕ)
    (hvalid : validateCondition host.parseTime rule (.timeWindow start finish true weekdays)
      depth = []) (snapshot : SystemSnapshot) :
    (conditionMatches host (.timeWindow start finish true weekdays) snapshot = true ↔
        ¬ conditionMatches host (.timeWindow start finish false weekdays) snapshot = true) ↔
      (weekdays = [] ∨ (host.localTime snapshot.now).2 ∈ weekdays) := by
  obtain ⟨first, last, hstart, hfinish⟩ := validateCondition_timeWindow hvalid
  rw [conditionMatches_timeWindow hstart hfinish, conditionMatches_timeWindow hstart hfinish]
  change _ ↔ CoversWeekday weekdays (host.localTime snapshot.now).2
  by_cases hday : CoversWeekday weekdays (host.localTime snapshot.now).2
  · simp [hday]
  · simp [hday]

/-- Reads `09:00` and `17:00`; it is noon of the given weekday. -/
def noonHost (day : Weekday) : Host where
  parseTime text :=
    if text = "09:00" then some 32400000000000
    else if text = "17:00" then some 61200000000000 else none
  localTime _ := (43200000000000, day)
  pathExists _ := false

/-- The example policy of the repository, at noon on a Wednesday. -/
theorem outside_complements_wednesday :
    let weekdays := [Weekday.mon, .tue, .wed, .thu, .fri]
    conditionMatches (noonHost .wed) (.timeWindow "09:00" "17:00" true weekdays) (.default 0) =
        true ↔
      ¬ conditionMatches (noonHost .wed) (.timeWindow "09:00" "17:00" false weekdays)
        (.default 0) = true :=
  (outside_complements_iff (noonHost .wed) "operations-after-hours" "09:00" "17:00" _ 0
    (by decide) (.default 0)).mpr (Or.inr (by decide))

/-- The same policy at noon on a Saturday: neither inside nor outside the window. -/
theorem saturday_uncovered :
    let weekdays := [Weekday.mon, .tue, .wed, .thu, .fri]
    validateCondition (noonHost .sat).parseTime "operations-after-hours"
        (.timeWindow "09:00" "17:00" true weekdays) 0 = [] ∧
      conditionMatches (noonHost .sat) (.timeWindow "09:00" "17:00" false weekdays)
        (.default 0) = false ∧
      ¬ (conditionMatches (noonHost .sat) (.timeWindow "09:00" "17:00" true weekdays)
          (.default 0) = true ↔
        ¬ conditionMatches (noonHost .sat) (.timeWindow "09:00" "17:00" false weekdays)
          (.default 0) = true) := by
  decide

end Kovert
