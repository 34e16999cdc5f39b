import Samwise.Command.PingCount
import Samwise.Scheduler.SchedulerSafety

/-!
# Samwise — what commands are executed by

Of all that the satellite keeps, `rx_queue`, `last_seen_msg_id` and the reboot counter decide which
packets `command_task_dispatch` executes. This module says what each step of the running satellite
does to the three: the command task takes a packet, `radio_task_init` empties the queue, a received
packet goes behind the others, and nothing else touches them.
-/

namespace Samwise

open Run

/-- What the command task decides by. -/
structure Reception where
  rxQueue : BoundedQueue Packet rxQueueSize
  lastSeenMsgId : UInt32
  rebootCounter : UInt32

def World.reception (w : World) : Reception :=
  ⟨w.slate.rxQueue, w.lastSeenMsgId, w.slate.rebootCounter⟩

/-- What the command task decides by is left alone. -/
def World.SameReception (w w' : World) : Prop := w'.reception = w.reception

instance : IsPreorder World World.SameReception where
  refl _ := rfl
  trans _ _ _ h h' := h'.trans h

/-- A packet is received, where there is room. -/
def Reception.add (r : Reception) (packet : Packet) : Reception :=
  { r with rxQueue := (r.rxQueue.tryAdd packet).2 }

/-- `queue_init` of `radio_task_init`. -/
def Reception.clear (r : Reception) : Reception := { r with rxQueue := .empty }

/-! ## Programs that leave it alone -/

theorem watchdogInit_sameReception : watchdogInit.Steps World.SameReception :=
  .bind (fun _ _ => rfl) fun _ => .bind (fun _ _ => rfl) fun _ _ _ => rfl

theorem watchdogFeed_sameReception : watchdogFeed.Steps World.SameReception := by
  refine .bind (fun _ _ => rfl) fun _ => .bind (.when fun _ => watchdogInit_sameReception) fun _ => ?_
  refine .bind (fun _ _ => rfl) fun _ => .bind (fun _ _ => rfl) fun _ => ?_
  refine .ite (fun _ => ?_) fun _ => .ite (fun _ => ?_) fun _ => .pure _
  · exact .bind (fun _ _ => rfl) fun _ => .bind (fun _ _ => rfl) fun _ _ _ => rfl
  · refine .bind (fun _ _ => rfl) fun _ => .bind (fun _ _ => rfl) fun _ => ?_
    exact .bind (fun _ _ => rfl) fun _ _ _ => rfl

theorem safeSleepMs_sameReception (ms : Nat) : (safeSleepMs ms).Steps World.SameReception := by
  suffices hloop : ∀ rounds ms, (safeSleepLoop rounds ms).Steps World.SameReception from hloop ms ms
  intro rounds
  induction rounds with
  | zero => exact fun _ _ _ => rfl
  | succ rounds ih =>
    intro ms
    refine .ite (fun _ => ?_) fun _ _ _ => rfl
    exact .bind watchdogFeed_sameReception fun _ => .bind (fun _ _ => rfl) fun _ => ih _

theorem mainStart_sameReception : mainStart.Steps World.SameReception := by
  unfold mainStart
  refine .bind (fun _ _ => rfl) fun _ => .bind (fun _ _ => rfl) fun _ => ?_
  exact .bind watchdogInit_sameReception fun _ => safeSleepMs_sameReception _

theorem burnWireTaskDispatch_sameReception : burnWireTaskDispatch.Steps World.SameReception := by
  have hactivate : ∀ burnMs a b, (burnWireActivate burnMs a b).Steps World.SameReception := by
    intro burnMs a b
    refine .bind (fun _ _ => rfl) fun _ => .bind (.when fun _ _ _ => rfl) fun _ => ?_
    refine .bind (.when fun _ _ _ => rfl) fun _ => .bind (safeSleepMs_sameReception _) fun _ => ?_
    refine .bind (fun _ _ => rfl) fun _ => .bind (fun _ _ => rfl) fun _ => ?_
    exact .bind (fun _ _ => rfl) fun _ => safeSleepMs_sameReception _
  refine .bind (fun _ _ => rfl) fun _ => .bind (fun _ _ => rfl) fun _ => ?_
  refine .ite (fun _ => .pure _) fun _ => .bind (fun _ _ => rfl) fun _ => ?_
  refine .ite (fun _ => .pure _) fun _ => .bind ?_ fun _ => .bind (fun _ _ => rfl) fun _ => .pure _
  refine .bind (safeSleepMs_sameReception _) fun _ => ?_
  refine .bind (.when fun _ => hactivate _ _ _) fun _ => ?_
  exact .bind (.when fun _ => hactivate _ _ _) fun _ => safeSleepMs_sameReception _

theorem dispatchCommand_sameReception (packet : Packet) :
    (dispatchCommand packet).Steps World.SameReception := by
  refine .bind (fun _ _ => rfl) fun _ => ?_
  cases Command.ofByte packet.data[0] with
  | none => exact .pure _
  | some command =>
    cases command with
    | ping => exact .bind (fun _ _ => rfl) fun _ => .bind (fun _ _ => rfl) fun _ _ _ => rfl
    | payloadExec => exact .bind (fun _ _ => rfl) fun _ => .bind (fun _ _ => rfl) fun _ _ _ => rfl
    | payloadTurnOn =>
      refine .bind (fun _ _ => rfl) fun _ => .bind (fun _ _ => rfl) fun _ => ?_
      exact .bind (fun _ _ => rfl) fun _ _ _ => rfl
    | payloadTurnOff =>
      refine .bind (fun _ _ => rfl) fun _ => .ite (fun _ => .pure _) fun _ => ?_
      exact .bind (fun _ _ => rfl) fun _ => .bind (fun _ _ => rfl) fun _ _ _ => rfl
    | manualStateOverride => exact fun _ _ => rfl
    | adcsExec => exact fun _ _ => rfl
    | adcsPacket => exact .pure _

theorem schedDispatchRest_sameReception (info : SchedState)
    (hnext : info.getNextState.Steps World.SameReception) :
    (schedDispatchRest info).Steps World.SameReception := by
  refine .bind (fun _ _ => rfl) fun _ => .bind (fun _ _ => rfl) fun _ => .bind ?_ fun next => ?_
  · refine .bind (fun _ _ => rfl) fun _ => .ite (fun _ => ?_) fun _ => hnext
    refine .bind (.when fun _ _ _ => rfl) fun _ => .bind (fun _ _ => rfl) fun _ => .pure _
  · refine .bind (fun _ _ => rfl) fun _ => .when fun _ => .bind (.when fun _ _ _ => rfl) fun _ => ?_
    exact .bind (fun _ _ => rfl) fun _ => .bind (fun _ _ => rfl) fun _ _ _ => rfl

theorem schedInitRest_sameReception : schedInitRest.Steps World.SameReception := by
  refine .bind (.forM fun _ _ => ?_) fun _ => .bind (fun _ _ => rfl) fun _ => ?_
  · exact .bind (fun _ _ => rfl) fun _ _ _ => rfl
  · exact .bind (fun _ _ => rfl) fun _ _ _ => rfl

/-- Only the radio task's initialisation sets `rx_queue` up. -/
theorem taskInit_sameReception {task : Task} (h : task ≠ .radioTask) :
    task.taskInit.Steps World.SameReception := by
  cases task with
  | radioTask => exact absurd rfl h
  | _ => exact fun _ _ => rfl

section Reception

variable (hmac : Hmac) (psk : Option PacketHmacPsk)

/-! ## The tasks -/

/-- What `command_task_dispatch` does by these three alone: the packet it executes, if any, and what
is left. -/
def Reception.take (r : Reception) : Option Packet × Reception :=
  match r.rxQueue.tryRemove with
  | (none, _) => (none, r)
  | (some packet, rxQueue) =>
    let authenticated := isPacketAuthenticated hmac psk r.lastSeenMsgId packet r.rebootCounter
    (if authenticated.1 = true then some packet else none,
      { r with rxQueue, lastSeenMsgId := authenticated.2 })

/-- The command task does what `take` says. -/
theorem commandTaskDispatch_take (env : Env) (w : World) :
    dispatchedPacket hmac psk w = (w.reception.take hmac psk).1 ∧
      ((commandTaskDispatch hmac psk).run env w).2.reception = (w.reception.take hmac psk).2 := by
  cases hremove : w.slate.rxQueue.tryRemove with
  | mk removed rxQueue =>
    have hqueue : w.reception.rxQueue.tryRemove = (removed, rxQueue) := hremove
    unfold dispatchedPacket Reception.take
    rw [hremove, hqueue]
    cases removed with
    | none =>
      rw [commandTaskDispatch_of_empty hmac psk hremove]
      exact ⟨rfl, rfl⟩
    | some packet =>
      rw [commandTaskDispatch_of_packet hmac psk hremove]
      refine ⟨rfl, ?_⟩
      split
      · exact dispatchCommand_sameReception packet env _
      · rfl

variable {hmac psk} in
/-- Every other task leaves the three alone. -/
theorem taskDispatch_sameReception {task : Task} (h : task ≠ .commandTask) :
    (task.taskDispatch hmac psk).Steps World.SameReception := by
  cases task with
  | watchdogTask => exact watchdogFeed_sameReception
  | burnWireTask => exact burnWireTaskDispatch_sameReception
  | commandTask => exact absurd rfl h
  | _ => exact fun _ _ => rfl

/-! ## The steps of the satellite -/

/-- The packet that is executed in a step: the command task runs, is due, and takes an authentic
packet. -/
def executedAt (s : Running) : RunEvent → Option Packet
  | .main env _ =>
    match s.phase with
    | .dispatching _ (.commandTask :: _) =>
      let due := (isDue .commandTask).run env s.world
      if due.1 = true then dispatchedPacket hmac psk due.2 else none
    | _ => none
  | _ => none

/-- What a step does to the three, and what it executes. -/
inductive ReceptionStep (s : Running) : RunEvent → Option Packet → Reception → Prop where
  | same (e : RunEvent) : ReceptionStep s e none s.world.reception
  | init {env : Env} {polls : Nat} {rest : List Task} (h : s.phase = .starting (.radioTask :: rest)) :
      ReceptionStep s (.main env polls) none s.world.reception.clear
  | taken {env : Env} {polls : Nat} :
      ReceptionStep s (.main env polls) (s.world.reception.take hmac psk).1
        (s.world.reception.take hmac psk).2
  | received {packet : Packet} (h : s.irqs = true) :
      ReceptionStep s (.rxDone packet) none (s.world.reception.add packet)

/-- A look at a deadline. -/
theorem isDue_sameReception (task : Task) : (isDue task).Steps World.SameReception := by
  intro env w
  rw [isDue_run]
  split
  · rfl
  · rfl

/-- The registered states look only at pins and counters for their successor. -/
theorem getNextState_sameReception {id : StateId} {info : SchedState}
    (h : stateRegistryGet id = some info) : info.getNextState.Steps World.SameReception := by
  cases id with
  | stateInit =>
    obtain rfl := Option.some.inj h
    exact .bind (fun _ _ => rfl) fun _ => .pure _
  | stateRunning =>
    obtain rfl := Option.some.inj h
    exact .pure _
  | stateBurnWire =>
    obtain rfl := Option.some.inj h
    refine .bind (fun _ _ => rfl) fun _ => .bind (fun _ _ => rfl) fun _ => ?_
    refine .bind (fun _ _ => rfl) fun _ => .ite (fun _ => .pure _) fun _ => ?_
    exact .bind (fun _ _ => rfl) fun _ => .ite (fun _ => .pure _) fun _ => .pure _
  | stateBurnWireReset =>
    obtain rfl := Option.some.inj h
    exact .bind (fun _ _ => rfl) fun _ => .pure _
  | stateNone => cases h
  | stateBringup => cases h

/-- Where `main` can be: the tasks that are not initialised yet are the last of `allTasks`, the
radio's handlers are not installed before its task is, and the state in hand is a registered one. -/
def Running.Underway (s : Running) : Prop :=
  match s.phase with
  | .starting rest => rest <:+ allTasks ∧ (s.irqs = true → .radioTask ∉ rest)
  | .looping => True
  | .dispatching info _ | .transmitting info _ => ∃ id, stateRegistryGet id = some info

theorem underway_start (w : World) : (Running.start w).Underway := by
  refine ⟨List.suffix_refl _, fun hirqs => ?_⟩
  cases hirqs

variable {hmac psk}

/-- One round: the task's own, or the first half of the radio task's. -/
theorem taskRound_reception (env : Env) (polls : Nat) {s : Running} {info : SchedState} {task : Task}
    {rest : List Task} (hphase : s.phase = .dispatching info (task :: rest)) :
    ReceptionStep hmac psk s (.main env polls) (executedAt hmac psk s (.main env polls))
      (taskRound hmac psk env polls info task rest s).world.reception := by
  have hlook : ((isDue task).run env s.world).2.reception = s.world.reception :=
    isDue_sameReception task env s.world
  by_cases htask : task = .commandTask
  · subst htask
    have hexecuted : executedAt hmac psk s (.main env polls)
        = if ((isDue .commandTask).run env s.world).1 = true then
            dispatchedPacket hmac psk ((isDue .commandTask).run env s.world).2 else none := by
      rw [executedAt, hphase]
    rw [hexecuted]
    unfold taskRound
    dsimp only
    split
    · -- it is due: it takes a packet, if there is one
      obtain ⟨hpacket, hleft⟩ :=
        commandTaskDispatch_take hmac psk env ((isDue .commandTask).run env s.world).2
      have hnotRadio : ¬(Task.commandTask = .radioTask ∧
          ((isDue .commandTask).run env s.world).2.slate.txQueue.elems ≠ []) := by
        rintro ⟨hne, _⟩
        cases hne
      rw [if_neg hnotRadio]
      show ReceptionStep hmac psk s _ _
        ((commandTaskDispatch hmac psk).run env ((isDue .commandTask).run env s.world).2).2.reception
      rw [hpacket, hleft, hlook]
      exact .taken
    · rw [hlook]
      exact .same _
  · have hexecuted : executedAt hmac psk s (.main env polls) = none := by
      rw [executedAt, hphase]
      cases task with
      | commandTask => exact absurd rfl htask
      | _ => rfl
    have hsame : (taskRound hmac psk env polls info task rest s).world.reception
        = s.world.reception := by
      unfold taskRound
      dsimp only
      split
      · split
        · exact hlook
        · exact (taskDispatch_sameReception htask env _).trans hlook
      · exact hlook
    rw [hexecuted, hsame]
    exact .same _

/-- **What a step does to reception.** -/
theorem runStep_reception {s s' : Running} {e : RunEvent} (hs : s.Underway)
    (h : runStep hmac psk s e = some s') :
    ReceptionStep hmac psk s e (executedAt hmac psk s e) s'.world.reception := by
  cases e with
  | rxDone packet =>
    rw [runStep] at h
    split at h
    · next hirqs =>
      obtain rfl := Option.some.inj h
      exact .received hirqs
    · cases h
  | txDone =>
    rw [runStep] at h
    split at h
    · obtain rfl := Option.some.inj h
      exact .same _
    · cases h
  | uartRxCallback =>
    rw [runStep] at h
    split at h
    · obtain rfl := Option.some.inj h
      exact .same _
    · cases h
  | main env polls =>
    obtain rfl := Option.some.inj h
    cases hphase : s.phase with
    | starting rest =>
      have hexecuted : executedAt hmac psk s (.main env polls) = none := by rw [executedAt, hphase]
      rw [hexecuted, mainPiece, hphase]
      cases rest with
      | nil =>
        show ReceptionStep hmac psk s _ none (schedInitRest.run env s.world).2.reception
        rw [schedInitRest_sameReception env s.world]
        exact .same _
      | cons task rest =>
        by_cases htask : task = .radioTask
        · subst htask
          exact .init hphase
        · show ReceptionStep hmac psk s _ none (task.taskInit.run env s.world).2.reception
          rw [taskInit_sameReception htask env s.world]
          exact .same _
    | looping =>
      have hexecuted : executedAt hmac psk s (.main env polls) = none := by rw [executedAt, hphase]
      rw [hexecuted, mainPiece, hphase]
      dsimp only
      split
      · exact .same _
      · exact .same _
    | transmitting info rest =>
      have hexecuted : executedAt hmac psk s (.main env polls) = none := by rw [executedAt, hphase]
      rw [hexecuted, mainPiece, hphase]
      exact .same _
    | dispatching info rest =>
      cases rest with
      | nil =>
        have hexecuted : executedAt hmac psk s (.main env polls) = none := by
          rw [executedAt, hphase]
        obtain ⟨id, hid⟩ : ∃ id, stateRegistryGet id = some info := by
          rw [Running.Underway, hphase] at hs
          exact hs
        have hsame : ((schedDispatchRest info).run env s.world).2.reception = s.world.reception :=
          schedDispatchRest_sameReception info (getNextState_sameReception hid) env s.world
        rw [hexecuted, mainPiece, hphase]
        show ReceptionStep hmac psk s _ none ((schedDispatchRest info).run env s.world).2.reception
        rw [hsame]
        exact .same _
      | cons task rest =>
        have hpiece : mainPiece hmac psk env polls s = taskRound hmac psk env polls info task rest s := by
          rw [mainPiece, hphase]
        rw [hpiece]
        exact taskRound_reception env polls hphase

/-- A step leaves `main` where it can be. -/
theorem runStep_underway {s s' : Running} {e : RunEvent} (hs : s.Underway)
    (h : runStep hmac psk s e = some s') : s'.Underway := by
  cases e with
  | rxDone packet =>
    rw [runStep] at h
    split at h
    · obtain rfl := Option.some.inj h
      exact hs
    · cases h
  | txDone =>
    rw [runStep] at h
    split at h
    · obtain rfl := Option.some.inj h
      exact hs
    · cases h
  | uartRxCallback =>
    rw [runStep] at h
    split at h
    · obtain rfl := Option.some.inj h
      exact hs
    · cases h
  | main env polls =>
    obtain rfl := Option.some.inj h
    cases hphase : s.phase with
    | starting rest =>
      rw [Running.Underway, hphase] at hs
      rw [mainPiece, hphase]
      cases rest with
      | nil => exact trivial
      | cons task rest =>
        obtain ⟨hsuffix, hirqs⟩ := hs
        have hnodup : (task :: rest).Nodup := hsuffix.sublist.nodup (by decide)
        refine ⟨(List.suffix_cons task rest).trans hsuffix, fun hon hmem => ?_⟩
        rcases Bool.or_eq_true_iff.mp hon with hbefore | hradio
        · exact hirqs hbefore (List.mem_cons_of_mem _ hmem)
        · -- the handlers come with the radio task, which comes once
          obtain rfl : task = .radioTask := beq_iff_eq.mp hradio
          exact (List.nodup_cons.mp hnodup).1 hmem
    | looping =>
      rw [mainPiece, hphase]
      dsimp only
      split
      · exact trivial
      · next info hinfo => exact ⟨_, hinfo⟩
    | transmitting info rest =>
      rw [Running.Underway, hphase] at hs
      rw [mainPiece, hphase]
      exact hs
    | dispatching info rest =>
      rw [Running.Underway, hphase] at hs
      rw [mainPiece, hphase]
      cases rest with
      | nil => exact trivial
      | cons task rest =>
        dsimp only
        unfold taskRound
        dsimp only
        split
        · split
          · exact hs
          · exact hs
        · exact hs

end Reception

end Samwise
