import Mathlib.Data.Int.Notation

/-!
# Samwise — the ground station's state manager

`StateManager` of `ground_station/state.py`: the boot count and message id the ground
station stamps its packets with, and the rate-limited save that carries them to the state
file. Python integers are `Int`, so nothing wraps here. What the environment decides at a
save (the clock, and whether the file could be written) is the argument `SaveEnv`.
-/

namespace Samwise.Ground

/-- What a save meets: `time.time()` and whether the write went through. An exception of the
write is caught and leaves the manager as it was. -/
structure SaveEnv where
  now : Int
  writeOk : Bool

/-- The content of the state file. -/
structure StateFile where
  bootCount : Int
  msgId : Int
deriving DecidableEq, Repr

/-- `StateManager` and, as `file`, what the state file holds. -/
structure StateManager where
  bootCount : Int
  msgId : Int
  lastSaveTime : Int
  dirty : Bool
  file : Option StateFile
deriving DecidableEq, Repr

/-- `SAVE_INTERVAL_SEC`. -/
def saveIntervalSec : Int := 600

namespace StateManager

/-- `save(force)`. -/
def save (env : SaveEnv) (force : Bool) (sm : StateManager) : StateManager :=
  if !force && (decide (env.now - sm.lastSaveTime < saveIntervalSec) || !sm.dirty) then sm
  else if env.writeOk then
    { sm with
      file := some { bootCount := sm.bootCount, msgId := sm.msgId }
      lastSaveTime := env.now
      dirty := false }
  else sm

/-- `get_next_msg_id()`: the id to use and the manager afterwards. -/
def getNextMsgId (env : SaveEnv) (sm : StateManager) : Int × StateManager :=
  let sm := { sm with msgId := sm.msgId + 1, dirty := true }
  let sm := sm.save env false
  (sm.msgId, sm)

/-- `update_from_beacon(beacon_boot_count)`. -/
def updateFromBeacon (env : SaveEnv) (beaconBootCount : Int) (sm : StateManager) : StateManager :=
  if beaconBootCount ≠ sm.bootCount then
    { sm with bootCount := beaconBootCount, dirty := true }.save env true
  else sm

/-- `shutdown()`. -/
def shutdown (env : SaveEnv) (sm : StateManager) : StateManager :=
  if sm.dirty then sm.save env true else sm

/-- `__init__` and `load` of a new process, over the state file that is there. -/
def load (file : Option StateFile) : StateManager where
  bootCount := match file with
    | some data => data.bootCount
    | none => 0
  msgId := match file with
    | some data => data.msgId
    | none => 0
  lastSaveTime := 0
  dirty := false
  file := file

/-- The message id that a restart would go on from. -/
def fileMsgId (sm : StateManager) : Int := (load sm.file).msgId

/-- A save touches neither counter. -/
theorem save_counters (env : SaveEnv) (force : Bool) (sm : StateManager) :
    (sm.save env force).bootCount = sm.bootCount ∧ (sm.save env force).msgId = sm.msgId := by
  unfold save
  split
  · exact ⟨rfl, rfl⟩
  · split <;> exact ⟨rfl, rfl⟩

/-- The next id is one more than the last, and the boot count stays. -/
theorem getNextMsgId_eq (env : SaveEnv) (sm : StateManager) :
    (sm.getNextMsgId env).1 = sm.msgId + 1 ∧
    (sm.getNextMsgId env).2.msgId = sm.msgId + 1 ∧
    (sm.getNextMsgId env).2.bootCount = sm.bootCount := by
  have h := save_counters env false { sm with msgId := sm.msgId + 1, dirty := true }
  exact ⟨h.2, h.2, h.1⟩

/-- A save leaves the state file alone, or stores the message id and is clean. -/
theorem save_cases (env : SaveEnv) (force : Bool) (sm : StateManager) :
    sm.save env force = sm
      ∨ (sm.save env force).fileMsgId = sm.msgId ∧ (sm.save env force).dirty = false := by
  unfold save
  split
  · exact Or.inl rfl
  · split
    · exact Or.inr ⟨rfl, rfl⟩
    · exact Or.inl rfl

/-- A forced save whose write goes through stores the message id. -/
theorem save_force (env : SaveEnv) (sm : StateManager) (h : env.writeOk = true) :
    (sm.save env true).fileMsgId = sm.msgId := by
  unfold save
  rw [if_neg (by simp), if_pos h]
  rfl

/-- So does a drawn id, once the save interval is over. -/
theorem getNextMsgId_saves (env : SaveEnv) (sm : StateManager) (h : env.writeOk = true)
    (hlate : saveIntervalSec ≤ env.now - sm.lastSaveTime) :
    (sm.getNextMsgId env).2.fileMsgId = sm.msgId + 1 := by
  show (save env false { sm with msgId := sm.msgId + 1, dirty := true }).fileMsgId = _
  have hnot : ¬ env.now - sm.lastSaveTime < saveIntervalSec := Int.not_lt.mpr hlate
  unfold save
  rw [if_neg (by simp [hnot]), if_pos h]
  rfl

end StateManager

end Samwise.Ground
