import Kovert.PollRuns

/-!
# Login events

The session block reports a login on the first cycle and after a logout. The
first cycle of the poller need not be the first success of the session probe,
so a session that is found later, after probes that failed, logs in unseen; and
a probe that itself returns the logged-in state is reported as it is.
-/

namespace Kovert

open History

namespace Poller

variable (poller : Poller)

/-- The next cycle emits a session event with the logged-in state. -/
def EmitsLogin (before : List Probes) (probes : Probes) : Prop :=
  ∃ emission ∈ (poller.pollCycle probes (poller.stateAfter before)).2, ∃ user remote,
    emission.kind = .session .loggedIn user remote

/-- The probe finds a session where none was known, or the last known one was logged out. -/
def LoginDue (before : List Probes) (probes : Probes) : Prop :=
  ∃ value, probes.sessions = .ok value ∧ value.state ≠ .loggedOut ∧
    ∀ previous, poller.lastAnswer .sessions before = some previous → previous.state = .loggedOut

/-- A session that is found first is found in the first cycle, unless it is
logged out or itself in the logged-in state, and a session in the logged-in
state follows none but a logged-out one or itself. -/
def LoginShows (before : List Probes) (probes : Probes) : Prop :=
  ∀ value, probes.sessions = .ok value →
    (before ≠ [] → poller.lastAnswer .sessions before = none →
      value.state = .loggedOut ∨ value.state = .loggedIn) ∧
    ∀ previous, poller.lastAnswer .sessions before = some previous →
      previous.state ≠ .loggedOut → value.state = .loggedIn → value = previous

variable {poller}

theorem mem_loginEvent {first : Bool} {previous : Option SessionInfo} {value : SessionInfo}
    {kind : EventKind} :
    kind ∈ loginEvent first previous value ↔
      kind = .session .loggedIn value.user value.remote ∧ value.state ≠ .loggedOut ∧
        (first = true ∨ ∃ earlier, previous = some earlier ∧ earlier.state = .loggedOut) := by
  have hany : previous.any (fun previous => previous.state == .loggedOut) = true ↔
      ∃ earlier, previous = some earlier ∧ earlier.state = .loggedOut := by
    cases previous <;> simp
  rw [← hany, loginEvent]
  split_ifs with hlogin
  · rw [List.mem_singleton]
    exact (and_iff_left hlogin).symm
  · exact iff_of_false List.not_mem_nil fun h => hlogin h.2

theorem report_login_iff {requirements : SensorRequirements} {first : Bool}
    {previous : Option SessionInfo} {value : SessionInfo} :
    (∃ user remote, EventKind.session .loggedIn user remote ∈
        Sensor.report requirements first .sessions previous value) ↔
      (first = true ∨ previous ≠ some value) ∧
        (value.state = .loggedIn ∨ value.state ≠ .loggedOut ∧
          (first = true ∨ ∃ earlier, previous = some earlier ∧ earlier.state = .loggedOut)) := by
  rw [Sensor.report]
  split_ifs with hchanged
  · rw [and_iff_right hchanged]
    constructor
    · rintro ⟨user, remote, hmem⟩
      rcases List.mem_append.mp hmem with hmem | hmem
      · exact Or.inr (mem_loginEvent.mp hmem).2
      · injection List.mem_singleton.mp hmem with hstate
        exact Or.inl hstate.symm
    · rintro (hstate | hlogin)
      · refine ⟨value.user, value.remote, List.mem_append_right _ ?_⟩
        rw [← hstate]
        exact List.mem_singleton_self _
      · exact ⟨_, _, List.mem_append_left _ (mem_loginEvent.mpr ⟨rfl, hlogin⟩)⟩
  · exact iff_of_false (fun ⟨_, _, hmem⟩ => List.not_mem_nil hmem) fun h => hchanged h.1

theorem emitsLogin_iff (hrequired : poller.requirements.sessions = true) (before : List Probes)
    (probes : Probes) :
    poller.EmitsLogin before probes ↔ ∃ value, probes.sessions = .ok value ∧
      (before = [] ∨ poller.lastAnswer .sessions before ≠ some value) ∧
        (value.state = .loggedIn ∨ value.state ≠ .loggedOut ∧ (before = [] ∨
          ∃ earlier, poller.lastAnswer .sessions before = some earlier ∧
            earlier.state = .loggedOut)) := by
  have hsensor : Sensor.sessions.required poller.requirements = true := hrequired
  have hfirst : (!(poller.stateAfter before).initialized) = true ↔ before = [] := by
    rw [stateAfter_initialized, Bool.not_not, List.isEmpty_iff]
  have hbaseline : (poller.stateAfter before).baseline .sessions =
      poller.lastAnswer .sessions before := by
    rw [stateAfter_baseline hsensor]
    cases poller.lastAnswer .sessions before <;> rfl
  rw [← hbaseline]
  simp only [← hfirst]
  constructor
  · rintro ⟨emission, hmem, user, remote, hkind⟩
    have htopic : emission.kind.topic = some .sessions := by rw [hkind]; rfl
    obtain ⟨_, value, hok, _, hreport⟩ := (mem_pollCycle_of_topic poller probes htopic).mp hmem
    exact ⟨value, hok, report_login_iff.mp ⟨user, remote, hkind ▸ hreport⟩⟩
  · rintro ⟨value, hok, hreport⟩
    obtain ⟨user, remote, hmem⟩ := report_login_iff.mpr hreport
    refine ⟨⟨"sessions", .session .loggedIn user remote⟩, ?_, user, remote, rfl⟩
    exact (mem_pollCycle_of_topic poller probes rfl).mpr ⟨hsensor, value, hok, rfl, hmem⟩

/-- One cycle reports the logins that are due exactly when they show. -/
theorem emitsLogin_iff_due (hrequired : poller.requirements.sessions = true)
    (before : List Probes) (probes : Probes) :
    (poller.EmitsLogin before probes ↔ poller.LoginDue before probes) ↔
      poller.LoginShows before probes := by
  rw [emitsLogin_iff hrequired, LoginDue, LoginShows]
  cases hsessions : probes.sessions with
  | error message => simp
  | ok value =>
      simp only [Except.ok.injEq, exists_eq_left', forall_eq']
      cases hlast : poller.lastAnswer .sessions before with
      | none =>
          by_cases hfirst : before = []
          · cases hstate : value.state <;> simp [hfirst]
          · cases hstate : value.state <;> simp [hfirst]
      | some previous =>
          have hlater : before ≠ [] := by
            rintro rfl
            cases hlast
          simp only [hlater, false_or, Option.some.injEq, exists_eq_left', forall_eq']
          by_cases hout : previous.state = .loggedOut
          · have hchanged : value.state ≠ .loggedOut → previous ≠ value :=
              fun hin hsame => hin (hsame ▸ hout)
            cases hstate : value.state <;> simp_all
          · by_cases hstate : value.state = .loggedIn
            · simp [hout, hstate, eq_comm]
            · simp [hout, hstate]

end Poller

/-- The logins of a run are reported exactly when each of its cycles shows its own. -/
theorem logins_reported_iff (poller : Poller) (answers : List Probes)
    (hrequired : poller.requirements.sessions = true) :
    Lawful (fun before probes => poller.EmitsLogin before probes ↔ poller.LoginDue before probes)
        answers ↔
      Lawful poller.LoginShows answers := by
  apply lawful_congr
  intro before probes later _
  exact Poller.emitsLogin_iff_due hrequired before probes

def sessionPoller : Poller := testPoller { SensorRequirements.default with sessions := true }

def sessionProbes (state : SessionState) : Probes :=
  { downProbes with sessions := .ok ⟨state, some "operator", false⟩ }

/-- Logged out, then unlocked: one login, as it should be. -/
theorem logins_reported_unlock :
    Lawful (fun before probes =>
        sessionPoller.EmitsLogin before probes ↔ sessionPoller.LoginDue before probes)
      [sessionProbes .loggedOut, sessionProbes .unlocked] := by
  refine (logins_reported_iff sessionPoller _ rfl).mpr ?_
  refine lawful_snoc.mpr ⟨lawful_snoc.mpr ⟨lawful_nil _, ?_⟩, ?_⟩
  · rintro value ⟨⟩
    refine ⟨fun h => absurd rfl h, ?_⟩
    rintro previous ⟨⟩
  · rintro value ⟨⟩
    constructor
    · rintro _ ⟨⟩
    · rintro previous ⟨⟩ hin
      exact absurd rfl hin

/-- The probe fails in the first cycle and then finds an open session: no login is reported. -/
theorem late_login_unreported :
    ¬ sessionPoller.EmitsLogin [downProbes] (sessionProbes .unlocked) ∧
      sessionPoller.LoginDue [downProbes] (sessionProbes .unlocked) ∧
      ¬ Lawful (fun before probes =>
          sessionPoller.EmitsLogin before probes ↔ sessionPoller.LoginDue before probes)
        [downProbes, sessionProbes .unlocked] := by
  have hsilent : ¬ sessionPoller.EmitsLogin [downProbes] (sessionProbes .unlocked) := by
    rw [Poller.emitsLogin_iff rfl]
    rintro ⟨value, hok, _, hstate | ⟨_, hfirst | ⟨earlier, hearlier, _⟩⟩⟩
    · cases hok
      cases hstate
    · cases hfirst
    · cases hearlier
  have hdue : sessionPoller.LoginDue [downProbes] (sessionProbes .unlocked) := by
    refine ⟨_, rfl, by decide, ?_⟩
    intro previous hnone
    cases hnone
  refine ⟨hsilent, hdue, ?_⟩
  intro h
  exact hsilent ((h [downProbes] (sessionProbes .unlocked) [] rfl).mpr hdue)

end Kovert
