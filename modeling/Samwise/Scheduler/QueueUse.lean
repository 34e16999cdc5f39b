import Samwise.Lib.Run
import Samwise.Scheduler.Scheduler

/-!
# Samwise — which queue is set up when it is used

The Pico SDK's queues (`queue_init`, `queue_try_add`, `queue_try_remove`, `queue_is_empty`) in
the slate are set up by the `task_init` of whichever task happens to need them. The machine of
this module takes `sched_init` and `sched_dispatch` apart into the rounds of their loops, so
that an interrupt can fall between any two of them, and keeps a list of the queue operations
made so far.

`rpi_uart_queue` belongs to `payload_uart_init`, which only the payload task calls; that task
is in the list of no state of the flight configuration, while `PAYLOAD_TURN_OFF` reaches the
queue through `payload_uart_write_packet`.
-/

namespace Samwise

open Run

/-! ## Queue operations -/

/-- The queues of the slate. -/
inductive SlateQueue where
  | txQueue
  | rxQueue
  | payloadCommandData
  | rpiUartQueue
deriving DecidableEq, Repr

/-- `queue_init`, or one of the operations on the queue's elements. -/
inductive QueueOp where
  | queueInit (q : SlateQueue)
  | queueUse (q : SlateQueue)
deriving DecidableEq, Repr

/-- Every operation on a queue comes after its `queue_init`. -/
def InitialisedFirst (ops : List QueueOp) : Prop :=
  ∀ before q after, ops = before ++ .queueUse q :: after → .queueInit q ∈ before

theorem initialisedFirst_nil : InitialisedFirst [] := by
  intro before q after h
  simp at h

theorem initialisedFirst_concat {ops : List QueueOp} {op : QueueOp} :
    InitialisedFirst (ops ++ [op]) ↔
      InitialisedFirst ops ∧ ∀ q, op = .queueUse q → .queueInit q ∈ ops := by
  constructor
  · intro h
    refine ⟨fun before q after hops => ?_, fun q hop => ?_⟩
    · refine h before q (after ++ [op]) ?_
      rw [hops, List.append_assoc, List.cons_append]
    · exact h ops q [] (by rw [hop])
  · rintro ⟨hops, hop⟩ before q after h
    -- the use is the new operation, or lies among the old ones
    rcases List.eq_nil_or_concat' after with rfl | ⟨after', op', rfl⟩
    · obtain ⟨rfl, hlast⟩ := List.append_inj' h rfl
      exact hop q (List.cons.inj hlast).1
    · have hcons : before ++ .queueUse q :: (after' ++ [op'])
          = (before ++ .queueUse q :: after') ++ [op'] := by
        rw [List.append_assoc, List.cons_append]
      rw [hcons] at h
      exact hops before q after' (List.append_inj' h rfl).1

/-- Setting queues up breaks nothing. Induction from the last of them. -/
theorem initialisedFirst_append_inits (ops : List QueueOp) (qs : List SlateQueue) :
    InitialisedFirst (ops ++ qs.map .queueInit) ↔ InitialisedFirst ops := by
  induction qs generalizing ops with
  | nil => rw [List.map_nil, List.append_nil]
  | cons q qs ih =>
    rw [List.map_cons, List.append_cons, ih, initialisedFirst_concat]
    exact ⟨And.left, fun h => ⟨h, fun q' hq' => by cases hq'⟩⟩

/-- Using queues is in order exactly where each of them was set up. -/
theorem initialisedFirst_append_uses (ops : List QueueOp) (qs : List SlateQueue) :
    InitialisedFirst (ops ++ qs.map .queueUse) ↔
      InitialisedFirst ops ∧ ∀ q ∈ qs, .queueInit q ∈ ops := by
  induction qs generalizing ops with
  | nil => simp
  | cons q qs ih =>
    rw [List.map_cons, List.append_cons, ih, initialisedFirst_concat]
    constructor
    · rintro ⟨⟨hops, hq⟩, hqs⟩
      refine ⟨hops, fun q' hq' => ?_⟩
      rcases List.mem_cons.mp hq' with rfl | hq'
      · exact hq q' rfl
      · simpa using hqs q' hq'
    · rintro ⟨hops, hall⟩
      refine ⟨⟨hops, fun q' hq' => ?_⟩, fun q' hq' => ?_⟩
      · cases hq'
        exact hall q List.mem_cons_self
      · exact List.mem_append_left _ (hall q' (List.mem_cons_of_mem _ hq'))

/-! ## Who sets up and uses what -/

/-- The queues a `task_init` sets up. -/
def Task.initQueues : Task → List SlateQueue
  | .radioTask => [.txQueue, .rxQueue]
  | .commandTask => [.payloadCommandData]
  | _ => []

/-- The queues `dispatch_command` uses, in order. `polls` is how often the receive loops of
`payload_uart_write_packet` come round before their timeouts: each round tries to remove a
byte from `rpi_uart_queue`. -/
def dispatchCommandQueues (polls : Nat) (packet : Packet) (slate : Slate) : List SlateQueue :=
  match Command.ofByte packet.commandByte with
  | some .payloadExec => [.payloadCommandData]
  | some .ping => [.txQueue]
  | some .payloadTurnOff =>
    if slate.isPayloadOn = true then List.replicate polls .rpiUartQueue else []
  | _ => []

section QueueUse

variable (hmac : Hmac) (psk : Option PacketHmacPsk)

/-- The queues a `task_dispatch` uses from the world it starts in; of the radio task's, up to
its call of `tx_done`. -/
def Task.dispatchQueues (polls : Nat) (w : World) : Task → List SlateQueue
  | .beaconTask => [.txQueue]
  | .radioTask => [.txQueue]
  | .commandTask => .rxQueue ::
    match w.slate.rxQueue.tryRemove.1 with
    | none => []
    | some packet =>
      if (isPacketAuthenticated hmac psk w.lastSeenMsgId packet w.slate.rebootCounter).1 = true then
        dispatchCommandQueues polls packet w.slate
      else []
  | _ => []

end QueueUse

/-! ## A queue that is not used is left alone -/

/-- What the slate's queue holds; `rpi_uart_queue` is not part of the modelled slate. -/
def SlateQueue.contents (q : SlateQueue) (s : Slate) : List Packet × List PayloadCommandData :=
  match q with
  | .txQueue => (s.txQueue.elems, [])
  | .rxQueue => (s.rxQueue.elems, [])
  | .payloadCommandData => ([], s.payloadCommandData.elems)
  | .rpiUartQueue => ([], [])

/-- The program, whatever it starts from, leaves the queue as it is. -/
def Flight.KeepsQueue {α : Type} (q : SlateQueue) (x : Flight α) : Prop :=
  ∀ env w, q.contents (x.run env w).2.slate = q.contents w.slate

namespace Flight.KeepsQueue

variable {α β : Type} {q : SlateQueue}

theorem of_slate {x : Flight α} (h : ∀ env w, (x.run env w).2.slate = w.slate) :
    x.KeepsQueue q := by
  intro env w
  rw [h env w]

theorem modifySlate {f : Slate → Slate} (h : ∀ s, q.contents (f s) = q.contents s) :
    (Flight.modifySlate f).KeepsQueue q := fun _ w => h w.slate

theorem bind {x : Flight α} {f : α → Flight β} (hx : x.KeepsQueue q)
    (hf : ∀ a, (f a).KeepsQueue q) : (x >>= f).KeepsQueue q := by
  intro env w
  rw [Flight.run_bind, hf, hx]

theorem ite {c : Prop} [Decidable c] {x y : Flight α} (hx : x.KeepsQueue q)
    (hy : y.KeepsQueue q) : (if c then x else y).KeepsQueue q := by
  split
  · exact hx
  · exact hy

theorem pure (a : α) : (Pure.pure a : Flight α).KeepsQueue q := .of_slate fun _ _ => rfl

theorem emit (e : Effect) : (Flight.emit e).KeepsQueue q := .of_slate fun _ _ => rfl

theorem when {c : Prop} [Decidable c] {x : Flight Unit} (hx : x.KeepsQueue q) :
    (Flight.when c x).KeepsQueue q := .ite hx (.pure ())

end Flight.KeepsQueue

section KeepsQueue

variable {q : SlateQueue}

theorem watchdogFeed_keepsQueue : watchdogFeed.KeepsQueue q := by
  have hwatchdog : ∀ f : Slate → Slate, (∀ s, ∃ watchdog, f s = { s with watchdog }) →
      (Flight.modifySlate f).KeepsQueue q := by
    intro f hf
    refine .modifySlate fun s => ?_
    obtain ⟨watchdog, hs⟩ := hf s
    rw [hs]
    cases q <;> rfl
  have hinit : watchdogInit.KeepsQueue q :=
    .bind (.emit _) fun _ => .bind (.of_slate fun _ _ => rfl) fun _ => hwatchdog _ fun _ => ⟨_, rfl⟩
  refine .bind (.of_slate fun _ _ => rfl) fun _ => .bind (.when hinit) fun _ => ?_
  refine .bind (.of_slate fun _ _ => rfl) fun _ => .bind (.of_slate fun _ _ => rfl) fun _ => ?_
  refine .ite ?_ (.ite ?_ (.pure _))
  · refine .bind (.emit _) fun _ => .bind (.of_slate fun _ _ => rfl) fun _ => ?_
    exact hwatchdog _ fun _ => ⟨_, rfl⟩
  · refine .bind (.emit _) fun _ => .bind (.of_slate fun _ _ => rfl) fun _ => ?_
    exact .bind (hwatchdog _ fun _ => ⟨_, rfl⟩) fun _ => .emit _

theorem safeSleepMs_keepsQueue (ms : Nat) : (safeSleepMs ms).KeepsQueue q := by
  suffices hloop : ∀ rounds ms, (safeSleepLoop rounds ms).KeepsQueue q from hloop ms ms
  intro rounds
  induction rounds with
  | zero => exact fun ms => .emit _
  | succ rounds ih =>
    intro ms
    refine .ite ?_ (.emit _)
    exact .bind watchdogFeed_keepsQueue fun _ => .bind (.emit _) fun _ => ih _

theorem burnWireTaskDispatch_keepsQueue : burnWireTaskDispatch.KeepsQueue q := by
  have hactivate : ∀ burnMs a b, (burnWireActivate burnMs a b).KeepsQueue q := by
    intro burnMs a b
    refine .bind (.emit _) fun _ => .bind (.when (.emit _)) fun _ => .bind (.when (.emit _)) ?_
    refine fun _ => .bind (safeSleepMs_keepsQueue _) fun _ => .bind (.emit _) fun _ => ?_
    exact .bind (.emit _) fun _ => .bind (.emit _) fun _ => safeSleepMs_keepsQueue _
  refine .bind (.of_slate fun _ _ => rfl) fun _ => .bind (.of_slate fun _ _ => rfl) fun _ => ?_
  refine .ite (.pure _) (.bind (.of_slate fun _ _ => rfl) fun _ => .ite (.pure _) ?_)
  refine .bind (.bind (safeSleepMs_keepsQueue _) fun _ => ?_) fun _ =>
    .bind (.of_slate fun _ _ => rfl) fun _ => .pure _
  exact .bind (.when (hactivate _ _ _)) fun _ => .bind (.when (hactivate _ _ _)) fun _ =>
    safeSleepMs_keepsQueue _

/-- A command leaves the queues alone that `dispatchCommandQueues` does not name. -/
theorem dispatchCommand_keepsQueue {polls : Nat} {packet : Packet} {w : World} (env : Env)
    (hq : q ∉ dispatchCommandQueues polls packet w.slate) :
    q.contents ((dispatchCommand packet).run env w).2.slate = q.contents w.slate := by
  unfold dispatchCommandQueues at hq
  cases hcmd : Command.ofByte packet.commandByte with
  | none =>
    rw [run_dispatchCommand_default env w (Or.inl hcmd)]
    cases q <;> rfl
  | some command =>
    simp only [hcmd] at hq
    cases command with
    -- a ping is answered through the transmit queue
    | ping =>
      rw [run_dispatchCommand_ping env w hcmd]
      cases q with
      | txQueue => exact absurd List.mem_cons_self hq
      | _ => rfl
    -- a payload command is handed on in the command queue
    | payloadExec =>
      rw [run_dispatchCommand_payloadExec env w hcmd]
      cases q with
      | payloadCommandData => exact absurd List.mem_cons_self hq
      | _ => rfl
    | payloadTurnOn =>
      rw [run_dispatchCommand_payloadTurnOn env w hcmd]
      cases q <;> rfl
    | payloadTurnOff =>
      rw [run_dispatchCommand_payloadTurnOff env w hcmd]
      cases q <;> rfl
    | manualStateOverride =>
      rw [run_dispatchCommand_manualStateOverride env w hcmd]
      cases q <;> rfl
    | adcsExec =>
      rw [run_dispatchCommand_adcsExec env w hcmd]
      cases q <;> rfl
    | adcsPacket =>
      rw [run_dispatchCommand_default env w (Or.inr hcmd)]
      cases q <;> rfl

/-- **A task leaves the queues alone that `dispatchQueues` does not name.** -/
theorem taskDispatch_keepsQueue {hmac : Hmac} {psk : Option PacketHmacPsk} {polls : Nat}
    {task : Task} {w : World} (env : Env) (hq : q ∉ task.dispatchQueues hmac psk polls w) :
    q.contents ((task.taskDispatch hmac psk).run env w).2.slate = q.contents w.slate := by
  cases task with
  | printTask => rfl
  | watchdogTask => exact watchdogFeed_keepsQueue env w
  | beaconTask =>
    cases q with
    | txQueue => exact absurd List.mem_cons_self hq
    | _ => rfl
  | telemetryTask => cases q <;> rfl
  | adcsTask => rfl
  | radioTask =>
    cases q with
    | txQueue => exact absurd List.mem_cons_self hq
    | _ => rfl
  | burnWireTask => exact burnWireTaskDispatch_keepsQueue env w
  | commandTask =>
    have hrx : q ≠ .rxQueue := by
      rintro rfl
      exact hq List.mem_cons_self
    cases hremove : w.slate.rxQueue.tryRemove with
    | mk removed rxQueue =>
      cases removed with
      | none =>
        show q.contents ((commandTaskDispatch hmac psk).run env w).2.slate = _
        rw [commandTaskDispatch_of_empty hmac psk hremove env]
      | some packet =>
        set auth := isPacketAuthenticated hmac psk w.lastSeenMsgId packet w.slate.rebootCounter
          with hauth
        -- the world the command is dispatched in: the packet is out of the queue
        let w' : World := { w with
          slate := { w.slate with rxQueue := rxQueue }, lastSeenMsgId := auth.2 }
        have hrun : ((commandTaskDispatch hmac psk).run env w).2
            = if auth.1 = true then ((dispatchCommand packet).run env w').2 else w' :=
          commandTaskDispatch_of_packet hmac psk hremove env
        have hkeep : q.contents w'.slate = q.contents w.slate := by
          cases q with
          | rxQueue => exact absurd rfl hrx
          | _ => rfl
        show q.contents ((commandTaskDispatch hmac psk).run env w).2.slate = _
        rw [← hkeep, hrun]
        by_cases hok : auth.1 = true
        · rw [if_pos hok]
          have hunnamed : q ∉ dispatchCommandQueues polls packet w'.slate := fun hmem => hq <| by
            simp only [Task.dispatchQueues, hremove, ← hauth, if_pos hok]
            exact List.mem_cons_of_mem _ hmem
          exact dispatchCommand_keepsQueue env hunnamed
        · rw [if_neg hok]

end KeepsQueue

section QueueUse

variable (hmac : Hmac) (psk : Option PacketHmacPsk)

/-! ## The loops, taken apart -/

/-- The head of a round of `sched_dispatch`: is the task due? If so, its next dispatch is
set. -/
def isDue (task : Task) : Flight Bool := do
  let deadline ← Flight.nextDispatch task
  let now ← getAbsoluteTime
  if absoluteTimeDiffUs deadline now > 0 then
    let next ← makeTimeoutTimeMs task.dispatchPeriodMs
    Flight.setNextDispatch task next
    return true
  else return false

theorem dispatchIfDue_run (task : Task) (env : Env) (w : World) :
    ((dispatchIfDue hmac psk task).run env w).2 =
      if ((isDue task).run env w).1 = true then
        ((task.taskDispatch hmac psk).run env ((isDue task).run env w).2).2
      else ((isDue task).run env w).2 := by
  by_cases hdue : absoluteTimeDiffUs (w.nextDispatch task) (env.clock w.samples) > 0
  · simp [dispatchIfDue, isDue, getAbsoluteTime, hdue]
  · simp [dispatchIfDue, isDue, getAbsoluteTime, hdue]

/-! ## The machine -/

/-- Where `main` is. -/
inductive Phase where
  /-- In `sched_init`: these tasks are not initialised yet. -/
  | starting (rest : List Task)
  /-- Between two calls of `sched_dispatch`. -/
  | looping
  /-- In `sched_dispatch`: these tasks of the state had no round yet. -/
  | dispatching (currentStateInfo : SchedState) (rest : List Task)
  /-- In `radio_task_dispatch`, behind the look at the queue and before `tx_done`. -/
  | transmitting (currentStateInfo : SchedState) (rest : List Task)

/-- The satellite from `sched_init` on: the world, where `main` is, whether the radio's
interrupt handlers are installed, and the queue operations so far. -/
structure Running where
  world : World
  phase : Phase
  irqs : Bool
  ops : List QueueOp

/-- Before `sched_init`. -/
def Running.start (w : World) : Running := ⟨w, .starting allTasks, false, []⟩

/-- `main` goes on, or an interrupt falls: the radio received a packet for this node, finished
one, or the payload's UART holds a byte. -/
inductive RunEvent where
  | main (env : Env) (polls : Nat)
  | rxDone (packet : Packet)
  | txDone
  | uartRxCallback

/-- One round of the loop in `sched_dispatch`; of the radio task's, up to its `tx_done`. -/
def taskRound (env : Env) (polls : Nat) (info : SchedState) (task : Task) (rest : List Task)
    (s : Running) : Running :=
  let due := (isDue task).run env s.world
  if due.1 = true then
    let ops := s.ops ++ (task.dispatchQueues hmac psk polls due.2).map .queueUse
    if task = .radioTask ∧ due.2.slate.txQueue.elems ≠ [] then
      { s with world := due.2, phase := .transmitting info rest, ops }
    else
      { s with world := ((task.taskDispatch hmac psk).run env due.2).2,
               phase := .dispatching info rest, ops }
  else { s with world := due.2, phase := .dispatching info rest }

/-- The next piece of `main`. -/
def mainPiece (env : Env) (polls : Nat) (s : Running) : Running :=
  match s.phase with
  | .starting (task :: rest) => { s with
      world := (task.taskInit.run env s.world).2
      phase := .starting rest
      -- `radio_task_init` installs its handlers behind its two queues
      irqs := s.irqs || task == .radioTask
      ops := s.ops ++ task.initQueues.map .queueInit }
  | .starting [] => { s with world := (schedInitRest.run env s.world).2, phase := .looping }
  | .looping =>
    match stateRegistryGet s.world.slate.currentStateId with
    | none => { s with world := ((Flight.emit .nullDereference).run env s.world).2 }
    | some info => { s with phase := .dispatching info info.taskList }
  | .dispatching info (task :: rest) => taskRound hmac psk env polls info task rest s
  | .dispatching info [] =>
    { s with world := ((schedDispatchRest info).run env s.world).2, phase := .looping }
  | .transmitting info rest => { s with
      world := (radioTaskDispatch.run env s.world).2
      phase := .dispatching info rest
      ops := s.ops ++ [.queueUse .txQueue] }

/-- A step. The radio's interrupts come once their handlers are installed, the UART's once
`payload_uart_init` has set its queue up, right before the handler. -/
def runStep (s : Running) : RunEvent → Option Running
  | .main env polls => some (mainPiece hmac psk env polls s)
  | .rxDone packet =>
    if s.irqs = true then some { s with
      world := { s.world with slate := { s.world.slate with
        rxQueue := (s.world.slate.rxQueue.tryAdd packet).2 } }
      ops := s.ops ++ [.queueUse .rxQueue] }
    else none
  | .txDone =>
    if s.irqs = true then some { s with
      world := { s.world with slate := { s.world.slate with
        txQueue := s.world.slate.txQueue.tryRemove.2 } }
      ops := s.ops ++ [.queueUse .txQueue] }
    else none
  | .uartRxCallback =>
    if .queueInit .rpiUartQueue ∈ s.ops then some { s with
      ops := s.ops ++ [.queueUse .rpiUartQueue] }
    else none

/-! ## Without interrupts, the loops of the scheduler -/

/-- `main` gets from one state to another undisturbed, sampling `env`. -/
def MainReaches (env : Env) (polls : Nat) (s s' : Running) : Prop :=
  ∃ n, run (runStep hmac psk) s (List.replicate n (.main env polls)) = some s'

variable {hmac psk} {env : Env} {polls : Nat} {s s' s'' : Running}

theorem MainReaches.piece (s : Running) :
    MainReaches hmac psk env polls s (mainPiece hmac psk env polls s) := ⟨1, rfl⟩

theorem MainReaches.trans (h : MainReaches hmac psk env polls s s')
    (h' : MainReaches hmac psk env polls s' s'') : MainReaches hmac psk env polls s s'' := by
  obtain ⟨n, hn⟩ := h
  obtain ⟨m, hm⟩ := h'
  refine ⟨n + m, ?_⟩
  rw [List.replicate_add, run_append, hn]
  exact hm

/-- The start of the machine is `sched_init`. -/
theorem mainReaches_schedInit (w : World) : ∃ s', MainReaches hmac psk env polls (.start w) s' ∧
    s'.world = (schedInit.run env w).2 ∧ s'.phase = .looping :=
  ⟨_, ⟨9, rfl⟩, rfl, rfl⟩

/-- One round, with the second half of the radio task's. -/
theorem mainReaches_round {info : SchedState} {task : Task} {rest : List Task}
    (hphase : s.phase = .dispatching info (task :: rest)) :
    ∃ s', MainReaches hmac psk env polls s s' ∧
      s'.world = ((dispatchIfDue hmac psk task).run env s.world).2 ∧
      s'.phase = .dispatching info rest := by
  have hpiece : mainPiece hmac psk env polls s = taskRound hmac psk env polls info task rest s := by
    rw [mainPiece, hphase]
  have hround : MainReaches hmac psk env polls s _ := .piece s
  rw [hpiece] at hround
  rw [dispatchIfDue_run]
  unfold taskRound at hround
  by_cases hdue : ((isDue task).run env s.world).1 = true
  · rw [if_pos hdue] at hround ⊢
    by_cases hradio : task = .radioTask ∧
        ((isDue task).run env s.world).2.slate.txQueue.elems ≠ []
    · obtain ⟨rfl, hqueue⟩ := hradio
      simp only [hqueue, ne_eq, not_false_eq_true, and_self, if_true] at hround
      exact ⟨_, hround.trans (.piece _), rfl, rfl⟩
    · simp only [hradio, if_false] at hround
      exact ⟨_, hround, rfl, rfl⟩
  · rw [if_neg hdue] at hround ⊢
    exact ⟨_, hround, rfl, rfl⟩

/-- The rounds of a list of tasks. Induction on the list. -/
theorem mainReaches_rounds {info : SchedState} {rest : List Task} {s : Running}
    (hphase : s.phase = .dispatching info rest) :
    ∃ s', MainReaches hmac psk env polls s s' ∧
      s'.world = ((rest.forM (dispatchIfDue hmac psk)).run env s.world).2 ∧
      s'.phase = .dispatching info [] := by
  induction rest generalizing s with
  | nil => exact ⟨s, ⟨0, rfl⟩, rfl, hphase⟩
  | cons task rest ih =>
    obtain ⟨s₁, hround, hworld₁, hphase₁⟩ : ∃ s₁, MainReaches hmac psk env polls s s₁ ∧
        s₁.world = ((dispatchIfDue hmac psk task).run env s.world).2 ∧
        s₁.phase = .dispatching info rest := mainReaches_round hphase
    obtain ⟨s₂, hrest, hworld₂, hphase₂⟩ := ih hphase₁
    refine ⟨s₂, hround.trans hrest, ?_, hphase₂⟩
    rw [hworld₂, hworld₁]
    rfl

/-- A pass of the machine is `sched_dispatch`. -/
theorem mainReaches_schedDispatch (hphase : s.phase = .looping) :
    ∃ s', MainReaches hmac psk env polls s s' ∧
      s'.world = ((schedDispatch hmac psk).run env s.world).2 ∧ s'.phase = .looping := by
  have hpiece : MainReaches hmac psk env polls s _ := .piece s
  cases hstate : stateRegistryGet s.world.slate.currentStateId with
  | none =>
    refine ⟨_, hpiece, ?_, ?_⟩
    · simp [mainPiece, hphase, hstate, schedDispatch]
    · simp [mainPiece, hphase, hstate]
  | some info =>
    simp only [mainPiece, hphase, hstate] at hpiece
    obtain ⟨s₁, hrounds, hworld₁, hphase₁⟩ :
        ∃ s₁, MainReaches hmac psk env polls { s with phase := .dispatching info info.taskList } s₁ ∧
          s₁.world = ((info.taskList.forM (dispatchIfDue hmac psk)).run env s.world).2 ∧
          s₁.phase = .dispatching info [] := mainReaches_rounds rfl
    have hlast : MainReaches hmac psk env polls s₁ _ := .piece s₁
    refine ⟨_, (hpiece.trans hrounds).trans hlast, ?_, ?_⟩
    · simp only [mainPiece, hphase₁, hworld₁]
      simp [schedDispatch, schedDispatchRest, hstate]
    · simp [mainPiece, hphase₁]

variable (hmac psk)

/-! ## What is set up when -/

/-- The invariant: nothing sets `rpi_uart_queue` up; the radio's handlers come behind its
queues; of the tasks, those whose turn is over have set theirs up, and behind `sched_init`
all other queues are. -/
structure Running.Ready (s : Running) : Prop where
  uart : .queueInit .rpiUartQueue ∉ s.ops
  radio : s.irqs = true → .queueInit .txQueue ∈ s.ops ∧ .queueInit .rxQueue ∈ s.ops
  tasks : match s.phase with
    | .starting rest => ∃ started, allTasks = started ++ rest ∧
        ∀ task ∈ started, ∀ q ∈ task.initQueues, .queueInit q ∈ s.ops
    | _ => ∀ q ≠ .rpiUartQueue, .queueInit q ∈ s.ops

/-- The task is about to dispatch `PAYLOAD_TURN_OFF` to a payload that is on. -/
def ShutsPayloadDown (task : Task) (w : World) : Prop :=
  task = .commandTask ∧ w.slate.isPayloadOn = true ∧
    ∃ packet, w.slate.rxQueue.tryRemove.1 = some packet ∧
      (isPacketAuthenticated hmac psk w.lastSeenMsgId packet w.slate.rebootCounter).1 = true ∧
      Command.ofByte packet.commandByte = some .payloadTurnOff

/-- The step does not shut the payload down, or its receive loops do not come round once. -/
def UartUnread (s : Running) : RunEvent → Prop
  | .main env polls =>
    match s.phase with
    | .dispatching _ (task :: _) => ((isDue task).run env s.world).1 = true →
        ShutsPayloadDown hmac psk task ((isDue task).run env s.world).2 → polls = 0
    | _ => True
  | _ => True

theorem uartUnread_zero (s : Running) (env : Env) : UartUnread hmac psk s (.main env 0) := by
  unfold UartUnread
  cases s.phase with
  | dispatching info rest =>
    cases rest with
    | nil => trivial
    | cons task rest => exact fun _ _ => rfl
  | _ => trivial

theorem rpiUartQueue_notMem_initQueues (task : Task) : .rpiUartQueue ∉ task.initQueues := by
  cases task <;> decide

/-- The two lists of tasks set up every queue but the one of the UART. -/
theorem exists_mem_initQueues {q : SlateQueue} (hq : q ≠ .rpiUartQueue) :
    ∃ task ∈ allTasks, q ∈ task.initQueues := by
  cases q with
  | txQueue => exact ⟨.radioTask, by decide, by decide⟩
  | rxQueue => exact ⟨.radioTask, by decide, by decide⟩
  | payloadCommandData => exact ⟨.commandTask, by decide, by decide⟩
  | rpiUartQueue => exact absurd rfl hq

/-- A task reaches the queue of the UART exactly by shutting the payload down. -/
theorem rpiUartQueue_mem_dispatchQueues (polls : Nat) (w : World) (task : Task) :
    .rpiUartQueue ∈ task.dispatchQueues hmac psk polls w ↔
      ShutsPayloadDown hmac psk task w ∧ polls ≠ 0 := by
  cases task with
  | commandTask =>
    cases hpacket : w.slate.rxQueue.tryRemove.1 with
    | none => simp [Task.dispatchQueues, ShutsPayloadDown, hpacket]
    | some packet =>
      by_cases hauth : (isPacketAuthenticated hmac psk w.lastSeenMsgId packet
          w.slate.rebootCounter).1 = true
      · -- only an authenticated PAYLOAD_TURN_OFF with the payload on gets through
        cases hon : w.slate.isPayloadOn with
        | false =>
          cases hcmd : Command.ofByte packet.commandByte with
          | none => simp [Task.dispatchQueues, dispatchCommandQueues, ShutsPayloadDown, *]
          | some command =>
            cases command <;>
              simp [Task.dispatchQueues, dispatchCommandQueues, ShutsPayloadDown, *]
        | true =>
          cases hcmd : Command.ofByte packet.commandByte with
          | none => simp [Task.dispatchQueues, dispatchCommandQueues, ShutsPayloadDown, *]
          | some command =>
            cases command <;>
              simp [Task.dispatchQueues, dispatchCommandQueues, ShutsPayloadDown, *]
      · simp [Task.dispatchQueues, ShutsPayloadDown, hpacket, hauth]
  | _ => simp [Task.dispatchQueues, ShutsPayloadDown]

variable {hmac psk}

/-- Where all queues but the UART's are set up, a task's operations are in order exactly if
it does not reach that one. -/
theorem forall_mem_dispatchQueues {polls : Nat} {w : World} {task : Task} {ops : List QueueOp}
    (huart : .queueInit .rpiUartQueue ∉ ops)
    (hops : ∀ q ≠ .rpiUartQueue, .queueInit q ∈ ops) :
    (∀ q ∈ task.dispatchQueues hmac psk polls w, .queueInit q ∈ ops) ↔
      (ShutsPayloadDown hmac psk task w → polls = 0) := by
  have hmem := rpiUartQueue_mem_dispatchQueues hmac psk polls w task
  constructor
  · intro hall hshuts
    by_contra hpolls
    exact huart (hall _ (hmem.mpr ⟨hshuts, hpolls⟩))
  · intro hunread q hq
    refine hops q ?_
    rintro rfl
    obtain ⟨hshuts, hpolls⟩ := hmem.mp hq
    exact hpolls (hunread hshuts)

/-- Using queues where `main` stands, as an interrupt does. -/
theorem Running.Ready.of_uses (hs : s.Ready) (world : World) (qs : List SlateQueue) :
    Running.Ready { s with world, ops := s.ops ++ qs.map .queueUse } := by
  refine ⟨by simpa using hs.uart, fun hirqs => ?_, ?_⟩
  · obtain ⟨htx, hrx⟩ := hs.radio hirqs
    exact ⟨List.mem_append_left _ htx, List.mem_append_left _ hrx⟩
  · have htasks := hs.tasks
    show match s.phase with | .starting _ => _ | _ => _
    cases hphase : s.phase with
    | starting rest =>
      rw [hphase] at htasks
      obtain ⟨started, hsplit, hinit⟩ := htasks
      exact ⟨started, hsplit, fun task ht q hq => List.mem_append_left _ (hinit task ht q hq)⟩
    | _ =>
      rw [hphase] at htasks
      exact fun q hq => List.mem_append_left _ (htasks q hq)

/-- Behind `sched_init`, `main` goes on with queues in use. -/
theorem Running.Ready.of_main (hs : s.Ready) (hall : ∀ q ≠ .rpiUartQueue, .queueInit q ∈ s.ops)
    (world : World) (phase : Phase) (hphase : ∀ rest, phase ≠ .starting rest)
    (qs : List SlateQueue) :
    Running.Ready { s with world, phase, ops := s.ops ++ qs.map .queueUse } := by
  have huses := hs.of_uses world qs
  refine ⟨huses.uart, huses.radio, ?_⟩
  cases phase with
  | starting rest => exact absurd rfl (hphase rest)
  | _ => exact fun q hq => List.mem_append_left _ (hall q hq)

theorem Running.Ready.of_taskInit (hs : s.Ready) {task : Task} {rest : List Task}
    (hphase : s.phase = .starting (task :: rest)) (world : World) :
    Running.Ready { s with
      world
      phase := .starting rest
      irqs := s.irqs || task == .radioTask
      ops := s.ops ++ task.initQueues.map .queueInit } := by
  have htasks := hs.tasks
  rw [hphase] at htasks
  obtain ⟨started, hsplit, hinit⟩ := htasks
  refine ⟨?_, fun hirqs => ?_, started ++ [task], ?_, fun task' ht q hq => ?_⟩
  · simpa [hs.uart] using rpiUartQueue_notMem_initQueues task
  · rcases Bool.or_eq_true_iff.mp hirqs with hirqs | htask
    · obtain ⟨htx, hrx⟩ := hs.radio hirqs
      exact ⟨List.mem_append_left _ htx, List.mem_append_left _ hrx⟩
    · -- the handlers are installed now, behind the two queues
      obtain rfl : task = .radioTask := by simpa using htask
      exact ⟨List.mem_append_right _ (by decide), List.mem_append_right _ (by decide)⟩
  · rw [hsplit, List.append_assoc, List.singleton_append]
  · rcases List.mem_append.mp ht with ht | ht
    · exact List.mem_append_left _ (hinit task' ht q hq)
    · obtain rfl : task' = task := List.mem_singleton.mp ht
      exact List.mem_append_right _ (List.mem_map_of_mem hq)

/-- Once the loop over the `task_init`s is through, every queue but the UART's is set up. -/
theorem Running.Ready.all_of_started (hs : s.Ready) (hphase : s.phase = .starting []) :
    ∀ q ≠ .rpiUartQueue, .queueInit q ∈ s.ops := by
  intro q hq
  have htasks := hs.tasks
  rw [hphase] at htasks
  obtain ⟨started, hsplit, hinit⟩ := htasks
  obtain ⟨task, htask, hmem⟩ := exists_mem_initQueues hq
  rw [hsplit, List.append_nil] at htask
  exact hinit task htask q hmem

/-- The round of a task that is due reads the UART's queue only to shut the payload down. -/
theorem taskRound_ready (hs : s.Ready) (hall : ∀ q ≠ .rpiUartQueue, .queueInit q ∈ s.ops)
    (env : Env) (polls : Nat) (info : SchedState) (task : Task) (rest : List Task) :
    (taskRound hmac psk env polls info task rest s).Ready ∧
      (InitialisedFirst (taskRound hmac psk env polls info task rest s).ops ↔
        InitialisedFirst s.ops ∧ (((isDue task).run env s.world).1 = true →
          ShutsPayloadDown hmac psk task ((isDue task).run env s.world).2 → polls = 0)) := by
  unfold taskRound
  generalize (isDue task).run env s.world = due
  obtain ⟨due, w⟩ := due
  cases due with
  | false =>
    refine ⟨?_, by simp⟩
    simpa using hs.of_main hall w (.dispatching info rest) (by simp) []
  | true =>
    have hread : (∀ q ∈ task.dispatchQueues hmac psk polls w, .queueInit q ∈ s.ops) ↔
        (ShutsPayloadDown hmac psk task w → polls = 0) :=
      forall_mem_dispatchQueues hs.uart hall
    simp only [if_true, true_imp_iff]
    rw [← hread, ← initialisedFirst_append_uses]
    -- `radio_task_dispatch` stops before `tx_done`, the others go through
    by_cases hradio : task = .radioTask ∧ w.slate.txQueue.elems ≠ []
    · rw [if_pos hradio]
      exact ⟨hs.of_main hall w _ (by simp) _, Iff.rfl⟩
    · rw [if_neg hradio]
      exact ⟨hs.of_main hall _ _ (by simp) _, Iff.rfl⟩

/-- A piece of `main` keeps the invariant, and keeps the operations in order exactly if it
does not read the UART's queue. -/
theorem mainPiece_ready (hs : s.Ready) (env : Env) (polls : Nat) :
    (mainPiece hmac psk env polls s).Ready ∧
      (InitialisedFirst (mainPiece hmac psk env polls s).ops ↔
        InitialisedFirst s.ops ∧ UartUnread hmac psk s (.main env polls)) := by
  have htasks := hs.tasks
  unfold mainPiece UartUnread
  cases hphase : s.phase with
  | starting rest =>
    cases rest with
    -- the last `task_init` is through
    | nil =>
      have hall := hs.all_of_started hphase
      refine ⟨?_, by simp⟩
      simpa using hs.of_main hall (schedInitRest.run env s.world).2
        .looping (by simp) []
    | cons task rest =>
      refine ⟨hs.of_taskInit hphase _, ?_⟩
      simpa using initialisedFirst_append_inits s.ops task.initQueues
  | looping =>
    rw [hphase] at htasks
    cases hstate : stateRegistryGet s.world.slate.currentStateId with
    -- an unknown state touches no queue
    | none =>
      refine ⟨?_, by simp⟩
      simpa [hphase] using hs.of_uses ((Flight.emit .nullDereference).run env s.world).2 []
    | some info =>
      refine ⟨?_, by simp⟩
      simpa using hs.of_main htasks s.world (.dispatching info info.taskList) (by simp) []
  | dispatching info rest =>
    rw [hphase] at htasks
    cases rest with
    | nil =>
      refine ⟨?_, by simp⟩
      simpa using hs.of_main htasks ((schedDispatchRest info).run env s.world).2
        .looping (by simp) []
    | cons task rest => exact taskRound_ready hs htasks env polls info task rest
  -- the rest of the radio task uses the queue it took the packet from
  | transmitting info rest =>
    rw [hphase] at htasks
    refine ⟨hs.of_main htasks _ _ (by simp) [.txQueue], ?_⟩
    have huses := initialisedFirst_append_uses s.ops [.txQueue]
    simp only [List.map_cons, List.map_nil, List.mem_singleton, forall_eq] at huses
    simp [huses, htasks .txQueue (by decide)]

/-- **One step**, of `main` or of an interrupt. -/
theorem runStep_ready {e : RunEvent} (hs : s.Ready) (hstep : runStep hmac psk s e = some s') :
    s'.Ready ∧ (InitialisedFirst s'.ops ↔ InitialisedFirst s.ops ∧ UartUnread hmac psk s e) := by
  have huses : ∀ q, .queueInit q ∈ s.ops →
      (InitialisedFirst (s.ops ++ [.queueUse q]) ↔ InitialisedFirst s.ops ∧ True) := by
    intro q hq
    have happend := initialisedFirst_append_uses s.ops [q]
    simpa [hq] using happend
  cases e with
  | main env polls =>
    obtain rfl := Option.some.inj hstep
    exact mainPiece_ready hs env polls
  | rxDone packet =>
    by_cases hirqs : s.irqs = true
    · rw [runStep, if_pos hirqs] at hstep
      obtain rfl := Option.some.inj hstep
      exact ⟨hs.of_uses _ [.rxQueue], huses _ (hs.radio hirqs).2⟩
    · rw [runStep, if_neg hirqs] at hstep
      cases hstep
  | txDone =>
    by_cases hirqs : s.irqs = true
    · rw [runStep, if_pos hirqs] at hstep
      obtain rfl := Option.some.inj hstep
      exact ⟨hs.of_uses _ [.txQueue], huses _ (hs.radio hirqs).1⟩
    · rw [runStep, if_neg hirqs] at hstep
      cases hstep
  | uartRxCallback =>
    -- no handler: the queue was not set up
    rw [runStep, if_neg hs.uart] at hstep
    cases hstep

theorem start_ready (w : World) : (Running.start w).Ready where
  uart := by simp [Running.start]
  radio := by simp [Running.start]
  tasks := ⟨[], rfl, by simp⟩

/-- **Initialisation before use.** In a run of `sched_init` and `sched_dispatch` with
interrupts anywhere, every operation on a queue comes after its `queue_init` exactly if no
step shuts a payload down that is on. -/
theorem initialised_before_use (w : World) (events : List RunEvent) (t : Running)
    (hrun : run (runStep hmac psk) (.start w) events = some t) :
    InitialisedFirst t.ops ↔
      AllSteps (runStep hmac psk) (UartUnread hmac psk) (.start w) events := by
  have hexact := good_iff_allSteps (runStep hmac psk) (fun s => InitialisedFirst s.ops)
    (fun _ _ _ hs hstep => runStep_ready hs hstep) hrun (start_ready w)
  rw [hexact]
  exact and_iff_right initialisedFirst_nil

end QueueUse

/-! ## A payload that is turned on and off again -/

/-- A command packet, for an authentication whose tags are all zero. -/
def commandPacket (command : UInt8) (msgId : UInt32) : Packet :=
  { Packet.zero with len := 1, data := (Vector.replicate 210 0).setIfInBounds 0 command, msgId }

/-- The clock stands at `us`, and the panels are deployed. -/
def Env.standing (us : UInt64) : Env :=
  { Env.still with clock := fun _ => us, panelA := fun _ => true, panelB := fun _ => true }

/-- `sched_init`, the way through the burn-wire state to the running state, the packet's
arrival, and a pass in which only the command task is due. -/
def turningOn : List RunEvent :=
  List.replicate 14 (.main (.standing 0) 0) ++ .rxDone (commandPacket 2 1) ::
    List.replicate 7 (.main (.standing 0) 0) ++ [.main (.standing 1000000) 0, .main (.standing 0) 0]

/-- The next pass, in which the payload is turned off, and the receive loop comes round once. -/
def turningOff : List RunEvent :=
  .rxDone (commandPacket 3 2) :: List.replicate 7 (.main (.standing 0) 0) ++
    [.main (.standing 2000000) 1]

/-- The hash and the key of the runs below. -/
def zeroHmac : Hmac := fun _ _ => Vector.replicate 32 0

/-- The operations are in order on the run that turns the payload on. -/
theorem initialised_before_use_turning_on :
    ∃ t, run (runStep zeroHmac (some (Vector.replicate 32 0)))
        (.start (.atReset ⟨initMarker, 0, 0⟩)) turningOn = some t ∧
      t.world.slate.isPayloadOn = true ∧ InitialisedFirst t.ops := by
  have hrun : (run (runStep zeroHmac (some (Vector.replicate 32 0)))
      (.start (.atReset ⟨initMarker, 0, 0⟩)) turningOn).any (·.world.slate.isPayloadOn) = true := by
    decide +kernel
  obtain ⟨t, ht, hon⟩ := (Option.any_eq_true _ _).mp hrun
  refine ⟨t, ht, hon, (initialised_before_use _ _ _ ht).mpr (.of_mem _ (fun e he s => ?_) _)⟩
  -- no receive loop comes round in any of the events
  have hpolls : ∀ env polls, e = .main env polls → polls = 0 := by
    rintro env polls rfl
    simp [turningOn] at he
    omega
  cases e with
  | main env polls =>
    obtain rfl := hpolls env polls rfl
    exact uartUnread_zero _ _ s env
  | _ => trivial

/-- **The queue of the UART is used and never set up**: two commands from the ground, payload
on and payload off, and `receive_into` removes from `rpi_uart_queue`. -/
theorem uart_queue_uninitialised :
    ¬ ∀ (hmac : Hmac) (psk : Option PacketHmacPsk) (w : World) (events : List RunEvent)
        (t : Running), run (runStep hmac psk) (.start w) events = some t →
      InitialisedFirst t.ops := by
  intro h
  have hrun : (run (runStep zeroHmac (some (Vector.replicate 32 0)))
      (.start (.atReset ⟨initMarker, 0, 0⟩)) (turningOn ++ turningOff)).any (fun t => t.ops =
        [.queueInit .txQueue, .queueInit .rxQueue, .queueInit .payloadCommandData,
          .queueUse .rxQueue, .queueUse .rxQueue, .queueUse .rxQueue, .queueUse .rxQueue] ++
            [.queueUse .rpiUartQueue]) = true := by
    decide +kernel
  obtain ⟨t, ht, hops⟩ := (Option.any_eq_true _ _).mp hrun
  have hmem := h _ _ _ _ t ht _ .rpiUartQueue [] (of_decide_eq_true hops)
  exact absurd hmem (by decide)

end Samwise
