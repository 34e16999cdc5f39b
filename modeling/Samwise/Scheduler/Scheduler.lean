import Samwise.BurnWire.BurnWire
import Samwise.Command.CommandParser
import Samwise.Packet.Authentication

/-!
# Samwise — the scheduler

The tasks and states of the flight configuration, `sched_init`, `sched_dispatch`
(`src/scheduler/scheduler.c`) and the part of `main` before its loop. Of the tasks, command
and burn wire are modelled with all they do; the others with what they do to the modelled
slate and to time, without the peripherals behind them.
-/

namespace Samwise

section Scheduler

variable (hmac : Hmac) (psk : Option PacketHmacPsk)

/-! ## Tasks -/

/-- `dispatch_period_ms`. -/
def Task.dispatchPeriodMs : Task → UInt32
  | .printTask => 1000
  | .watchdogTask => 100
  | .beaconTask => 5000
  | .telemetryTask => 1000
  | .adcsTask => 1000
  | .radioTask => 100
  | .commandTask => 100
  | .burnWireTask => 0

/-- `task_init`. The radio and the command task set up their queues. -/
def Task.taskInit : Task → Flight Unit
  | .radioTask => Flight.modifySlate fun s => { s with txQueue := .empty, rxQueue := .empty }
  | .commandTask => Flight.modifySlate fun s =>
      { s with payloadCommandData := .empty, numberCommandsProcessed := 0 }
  | _ => pure ()

/-- `telemetry_task_dispatch`: the deploy pins, sampled into the slate. -/
def telemetryTaskDispatch : Flight Unit := do
  let panelADeployed ← isFlexPanelADeployed
  let panelBDeployed ← isFlexPanelBDeployed
  Flight.modifySlate fun s => { s with panelADeployed, panelBDeployed }

/-- `beacon_task_dispatch`: a beacon is queued, where there is room. -/
def beaconTaskDispatch : Flight Unit := do
  let pkt ← Flight.sample Env.beaconPacket
  Flight.modifySlate fun s => { s with txQueue := (s.txQueue.tryAdd pkt).2 }

/-- `adcs_task_dispatch`, up to the exchange with the ADCS. -/
def adcsTaskDispatch : Flight Unit := do
  Flight.emit (.sleepMs 100)
  gpioPut .samwiseAdcsEn true
  Flight.emit (.sleepMs 100)

/-- `radio_task_dispatch`: a waiting packet leaves the queue for the radio. -/
def radioTaskDispatch : Flight Unit :=
  Flight.modifySlate fun s => { s with txQueue := s.txQueue.tryRemove.2 }

/-- `command_task_dispatch`: one received packet, authenticated and dispatched. -/
def commandTaskDispatch : Flight Unit := do
  let slate ← Flight.slate
  match slate.rxQueue.tryRemove with
  | (none, _) => return
  | (some packet, rxQueue) =>
    Flight.modifySlate fun s => { s with rxQueue := rxQueue }
    let lastSeenMsgId ← Flight.lastSeenMsgId
    let authenticated := isPacketAuthenticated hmac psk lastSeenMsgId packet slate.rebootCounter
    Flight.setLastSeenMsgId authenticated.2
    Flight.when (authenticated.1 = true) (dispatchCommand packet)

/-- Without a packet the command task does nothing. -/
theorem commandTaskDispatch_of_empty {w : World} {q : BoundedQueue Packet rxQueueSize}
    (h : w.slate.rxQueue.tryRemove = (none, q)) (env : Env) :
    ((commandTaskDispatch hmac psk).run env w).2 = w := by
  rw [commandTaskDispatch, Flight.run_bind, Flight.run_slate, h]
  rfl

/-- A packet is taken out, and dispatched where it is authentic. -/
theorem commandTaskDispatch_of_packet {w : World} {packet : Packet}
    {q : BoundedQueue Packet rxQueueSize} (h : w.slate.rxQueue.tryRemove = (some packet, q))
    (env : Env) :
    let authenticated :=
      isPacketAuthenticated hmac psk w.lastSeenMsgId packet w.slate.rebootCounter
    let taken : World := { w with
      slate := { w.slate with rxQueue := q }
      lastSeenMsgId := authenticated.2 }
    ((commandTaskDispatch hmac psk).run env w).2
      = if authenticated.1 = true then ((dispatchCommand packet).run env taken).2 else taken := by
  intro authenticated taken
  rw [commandTaskDispatch, Flight.run_bind, Flight.run_slate, h]
  show ((Flight.when (authenticated.1 = true) (dispatchCommand packet)).run env taken).2 = _
  rw [Flight.run_when]
  split
  · rfl
  · rfl

/-- `task_dispatch`. The print task only logs. -/
def Task.taskDispatch : Task → Flight Unit
  | .printTask => pure ()
  | .watchdogTask => watchdogFeed
  | .beaconTask => beaconTaskDispatch
  | .telemetryTask => telemetryTaskDispatch
  | .adcsTask => adcsTaskDispatch
  | .radioTask => radioTaskDispatch
  | .commandTask => commandTaskDispatch hmac psk
  | .burnWireTask => burnWireTaskDispatch

/-! ## States -/

/-- `sched_state_t`, without its name. -/
structure SchedState where
  id : StateId
  taskList : List Task
  getNextState : Flight StateId

/-- `init_get_next_state` of the flight configuration. -/
def initGetNextState : Flight StateId := do
  let rbf ← isRbfPinDetected
  return if rbf = true then .stateInit else .stateBurnWire

/-- `init_state`. -/
def initState : SchedState := ⟨.stateInit, [], initGetNextState⟩

/-- `running_state`. -/
def runningState : SchedState where
  id := .stateRunning
  taskList := [.printTask, .watchdogTask, .beaconTask, .telemetryTask, .adcsTask, .radioTask,
    .commandTask]
  getNextState := pure .stateRunning

/-- `burn_wire_state`. -/
def burnWireState : SchedState := ⟨.stateBurnWire, [.burnWireTask], burnWireGetNextState⟩

/-- `burn_wire_reset_state`. -/
def burnWireResetState : SchedState := ⟨.stateBurnWireReset, [], burnWireResetGetNextState⟩

/-- `state_registry_get`, after `sched_init` registered the states: `NULL` for an id without
one. -/
def stateRegistryGet : StateId → Option SchedState
  | .stateInit => some initState
  | .stateRunning => some runningState
  | .stateBurnWire => some burnWireState
  | .stateBurnWireReset => some burnWireResetState
  | .stateNone => none
  | .stateBringup => none

/-- The tasks `sched_init` enumerates, in its order. -/
def allTasks : List Task := runningState.taskList ++ burnWireState.taskList

/-! ## The scheduler -/

/-- `sched_init` behind the loop over the `task_init`s. -/
def schedInitRest : Flight Unit := do
  allTasks.forM fun task => do
    let next ← makeTimeoutTimeMs task.dispatchPeriodMs
    Flight.setNextDispatch task next
  Flight.modifySlate fun s =>
    { s with currentStateId := .stateInit, manualOverrideStateId := .stateNone }
  let now ← getAbsoluteTime
  Flight.modifySlate fun s => { s with enteredCurrentStateTime := now, timeInCurrentStateMs := 0 }

/-- `sched_init`, behind the registration of the states. -/
def schedInit : Flight Unit := do
  allTasks.forM Task.taskInit
  schedInitRest

/-- One round of the loop over the tasks of a state. -/
def dispatchIfDue (task : Task) : Flight Unit := do
  let deadline ← Flight.nextDispatch task
  let now ← getAbsoluteTime
  Flight.when (absoluteTimeDiffUs deadline now > 0) do
    let next ← makeTimeoutTimeMs task.dispatchPeriodMs
    Flight.setNextDispatch task next
    task.taskDispatch hmac psk

/-- The choice of the next state: an override is taken and cleared, and looked up for its
name; otherwise the state decides. -/
def chooseNextState (currentStateInfo : SchedState) : Flight StateId := do
  let slate ← Flight.slate
  if slate.manualOverrideStateId ≠ .stateNone then
    Flight.when ((stateRegistryGet slate.manualOverrideStateId).isNone = true)
      (Flight.emit .nullDereference)
    Flight.modifySlate fun s => { s with manualOverrideStateId := .stateNone }
    return slate.manualOverrideStateId
  else currentStateInfo.getNextState

/-- The transition, where the next state is another one. -/
def enterState (nextStateId : StateId) : Flight Unit := do
  let slate ← Flight.slate
  Flight.when (nextStateId ≠ slate.currentStateId) do
    Flight.when ((stateRegistryGet nextStateId).isNone = true) (Flight.emit .nullDereference)
    Flight.modifySlate fun s => { s with currentStateId := nextStateId }
    let now ← getAbsoluteTime
    Flight.modifySlate fun s =>
      { s with enteredCurrentStateTime := now, timeInCurrentStateMs := 0 }

/-- `sched_dispatch` behind the loop over the tasks. -/
def schedDispatchRest (currentStateInfo : SchedState) : Flight Unit := do
  let now ← getAbsoluteTime
  Flight.modifySlate fun s => { s with
    timeInCurrentStateMs := (absoluteTimeDiffUs s.enteredCurrentStateTime now / 1000).toUInt64 }
  let nextStateId ← chooseNextState currentStateInfo
  enterState nextStateId

/-- `sched_dispatch`. -/
def schedDispatch : Flight Unit := do
  let slate ← Flight.slate
  match stateRegistryGet slate.currentStateId with
  | none => Flight.emit .nullDereference
  | some currentStateInfo =>
    currentStateInfo.taskList.forM (dispatchIfDue hmac psk)
    schedDispatchRest currentStateInfo

end Scheduler

/-- `main` up to the loading of the persistent data. -/
def mainStart : Flight Unit := do
  Flight.emit (.sleepMs 1000)
  Flight.modifySlate fun s => { s with watchdog := watchdogMk }
  watchdogInit
  safeSleepMs (15 * 60 * 1000)

/-- `main` between the persistent data and its loop: `init`, and the reboot counter as it was
loaded, before its increment. -/
def mainFinish (data : PersistentData) : Flight Unit := do
  burnWireInit
  schedInit
  Flight.modifySlate fun s => { s with rebootCounter := data.rebootCounter }

/-- `main` before its loop. `World.atReset` is the slate it starts from. -/
def mainInit : Flight Unit := do
  mainStart
  let data ← Flight.update .init
  let _ ← Flight.update .incrementRebootCounter
  mainFinish data

end Samwise
