import Kovert.Control
import Kovert.JournalRules

/-!
# The tasks of the sensors

A start and a reload spawn the providers of a configuration, a finished reload
aborts those it replaces. A reload whose poller does not start leaves the
watcher and the hotkey tasks it has already spawned without a handle: they keep
sending events and nothing aborts them. Apart from these the tasks that run are
the ones the runtime holds.
-/

namespace Kovert

open Fallible Session

/-! ## What a start spawns -/

namespace Situation

def hotkeyStarts (situation : Situation) (hotkey : HotkeyConfig) : Bool :=
  (situation.hotkeySpawn hotkey).isOk

/-- The tasks spawned before the poller. -/
def early (situation : Situation) (config : Config) : ℕ :=
  (if (SensorRequirements.fromConfig config).fileWatches.isEmpty then 0 else 1) +
    config.hotkeys.countP situation.hotkeyStarts

end Situation

variable {situation : Situation}

/-- `n` more tasks. -/
def Journal.spawn (journal : Journal) (n : ℕ) : Journal :=
  { journal with spawned := journal.spawned + n }

variable {env : Environment}

theorem Daemon.activate_toJournal {α : Type} (x : Activity α) (daemon : Daemon)
    (runtime : Runtime) :
    (daemon.activate x runtime).toJournal =
      (x { daemon.toJournal with runtime := runtime }).2.toJournal := by
  unfold Daemon.activate
  split
  · next heq => rw [heq]
  · next heq => rw [heq]

end Kovert
